import Bourse.Datum
import Bourse.Market.Quote
import Bourse.Number.Numeral
import Bourse.Text.Case
/-!
Quotes from the figures that a data service publishes under its own keys. A figure counts if it is a
finite number or the text of one; truth values do not count. Several keys may hold the same figure,
and the first one that counts is taken.
-/
namespace Bourse

/-- The reasons why published figures make no quote. -/
inductive QuoteError where
  | noPrice (symbol : String)
  /-- An integer too large for a binary64 number. -/
  | tooLarge (key : String)
  /-- A label with an integer of too many digits. -/
  | unwritable
deriving DecidableEq, Repr

/-- The text of an error. -/
def QuoteError.message : QuoteError → String
  | noPrice symbol => s!"No price available for symbol '{symbol}'"
  | tooLarge _ => "int too large to convert to float"
  | unwritable =>
    s!"Exceeds the limit ({Numeral.mostDigits} digits) for integer string conversion; " ++
      "use sys.set_int_max_str_digits() to increase the limit"

/-- Published figures by their keys. -/
abbrev Published := List (Datum × Datum)

namespace Published

/-- A number if it is finite. -/
def finite? (x : Float) : Option Float := if x.isFinite then some x else none

/-- The number that a datum counts as. -/
def number? (key : String) : Datum → Except QuoteError (Option Float)
  | .int n =>
    match Binary64.ofInt? n with
    | some x => .ok (some x)
    | none => .error (.tooLarge key)
  | .real x => .ok (finite? x)
  | .text s => .ok ((Numeral.float? s.toList).bind finite?)
  | _ => .ok none

/-- The figure under the first key that counts. -/
def figure? (published : Published) : List String → Except QuoteError (Option Float)
  | [] => .ok none
  | key :: keys => do
    match ← number? key ((Datum.get? published key).getD .null) with
    | some x => return some x
    | none => figure? published keys

/-- The figure under the first key that counts; zero, without a sign, if there is none. -/
def figure (published : Published) (keys : List String) : Except QuoteError Float := do
  match ← figure? published keys with
  | some x => return if x == 0 then 0 else x
  | none => return 0

/-- The whole part of a figure. -/
def whole (published : Published) (keys : List String) : Except QuoteError Int := do
  return Moment.wholePart (Binary64.ofFloat (← figure published keys))

/-- The text of the first datum that counts as true. -/
def label (published : Published) (keys : List String) : Except QuoteError String :=
  match keys.filterMap (Datum.get? published) |>.find? (·.isTrue) with
  | some datum => if datum.isWritable then .ok datum.shown else .error .unwritable
  | none => .ok ""

/-- The change over the year in percent, which may be published as a fraction. -/
def yearChangePercent (published : Published) : Except QuoteError Float := do
  match ← figure? published ["fiftyTwoWeekChangePercent"] with
  | some percent => return percent
  | none => return (← figure published ["52WeekChange"]) * 100

end Published

/-- The quote of a symbol at a price. Changes that are not published follow from the price and the
previous close. -/
def Quote.atPrice (symbol : String) (published : Published) (price : Float) :
    Except QuoteError Quote := do
  let figure := Published.figure published
  let figure? := Published.figure? published
  let previousClose ← figure ["regularMarketPreviousClose", "previousClose"]
  let change := (← figure? ["regularMarketChange"]).getD
    (if previousClose != 0 then price - previousClose else 0)
  let changePercent := (← figure? ["regularMarketChangePercent"]).getD
    (if previousClose != 0 then change / previousClose * 100 else 0)
  let yearChangePercent ← Published.yearChangePercent published
  return {
    symbol := Text.upper symbol
    shortName := ← Published.label published ["shortName", "longName"]
    currency := ← Published.label published ["currency"]
    exchange := ← Published.label published ["exchange"]
    price, change, changePercent, previousClose, yearChangePercent
    opening := ← figure ["regularMarketOpen", "open"]
    high := ← figure ["regularMarketDayHigh", "dayHigh"]
    low := ← figure ["regularMarketDayLow", "dayLow"]
    volume := ← Published.whole published ["regularMarketVolume", "volume"]
    averageVolume := ← Published.whole published ["averageVolume", "averageDailyVolume3Month"]
    bid := ← figure ["bid"]
    ask := ← figure ["ask"]
    marketCap := ← Published.whole published ["marketCap"]
    yearHigh := ← figure ["fiftyTwoWeekHigh"]
    yearLow := ← figure ["fiftyTwoWeekLow"]
    fiftyDayAverage := ← figure ["fiftyDayAverage"]
    twoHundredDayAverage := ← figure ["twoHundredDayAverage"]
    trailingPe := ← figure? ["trailingPE"]
    forwardPe := ← figure? ["forwardPE"]
    priceToBook := ← figure? ["priceToBook"]
    eps := ← figure? ["trailingEps", "epsTrailingTwelveMonths"]
    dividendYield := ← figure? ["dividendYield"] }

/-- The quote of a symbol from published figures, if a price is among them. -/
def Quote.ofPublished (symbol : String) (published : Published) : Except QuoteError Quote := do
  match ← published.figure? ["regularMarketPrice", "currentPrice"] with
  | some price => Quote.atPrice symbol published price
  | none => throw (.noPrice symbol)

end Bourse
