import Bourse.Market.Quote
import Bourse.Text.Case
/-!
The names under which a filter refers to the fields of a quote, in any case.
-/
namespace Bourse.Field

/-- Every name of a field, in lower case. -/
def aliases : List (String × Field) := [
  ("price", price), ("p", price),
  ("change", change),
  ("changepercent", changePercent), ("changepct", changePercent), ("change%", changePercent),
  ("volume", volume), ("vol", volume),
  ("marketcap", marketCap), ("mcap", marketCap),
  ("pe", trailingPe),
  ("forwardpe", forwardPe), ("fpe", forwardPe),
  ("pb", priceToBook), ("pricetobook", priceToBook),
  ("eps", eps),
  ("yield", dividendYield), ("dividendyield", dividendYield), ("dy", dividendYield),
  ("52whigh", yearHigh), ("52wlow", yearLow),
  ("52wchange%", yearChangePercent), ("52wchangepct", yearChangePercent),
  ("open", opening), ("high", high), ("low", low),
  ("prevclose", previousClose), ("previousclose", previousClose),
  ("avgvolume", averageVolume), ("avgvol", averageVolume)]

/-- The field that a name in lower case stands for. -/
def ofLower? (name : String) : Option Field := (aliases.find? (·.1 == name)).map (·.2)

/-- The field that a name stands for, in any case. -/
def ofName? (name : String) : Option Field := ofLower? (Text.lower name)

/-- All names in ascending order. -/
def knownNames : List String := (aliases.map (·.1)).mergeSort (fun a b => decide (a ≤ b))

end Bourse.Field

/-- The value of the field that a name stands for; unknown names and absent fields have none. -/
def Bourse.Quote.named? (quote : Bourse.Quote) (name : String) :
    Except Bourse.TooLarge (Option Float) :=
  match Bourse.Field.ofName? name with
  | some field => quote.value? field
  | none => .ok none
