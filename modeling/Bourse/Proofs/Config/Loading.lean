import Bourse.Config.Indicators
import Bourse.Config.Screen
import Bourse.Proofs.Calendar.Range
import Bourse.Proofs.Config.Periods
import Bourse.Proofs.Text.Utf8

/-! How configurations fail to load without a message. Of a file that is text and of YAML that is
refused only as such, a screen is lost if its symbols or its criteria cannot be written as text, and
indicators are lost by an interval of this kind, by a range or by a request. -/
namespace Bourse

namespace Config

end Config

namespace ScreenConfig

variable {entries : List (Datum × Datum)}

end ScreenConfig

namespace IndicatorsConfig

variable {now : Moment} {entries : List (Datum × Datum)}

/-- The interval of a configuration as it is written. -/
def intervalDatum (entries : List (Datum × Datum)) : Datum :=
  (Datum.get? entries "interval").getD (.text Interval.oneDay.name)

/-- A part of the range of a configuration. -/
def part (entries : List (Datum × Datum)) (name : String) : Datum :=
  (Datum.get? entries name).getD .null

/-- How a range is lost without a message. -/
inductive IsUnfitRange (now : Moment) (lookback start stop : Datum) : Prop
  /-- A lookback that is given is no text. -/
  | foreign (hgiven : lookback.isTrue = true) (htext : ∀ text, lookback ≠ .text text) :
      IsUnfitRange now lookback start stop
  | lookback {text : String} (htext : lookback = .text text) (hgiven : text ≠ "")
      (hlost : DateRange.IsLost now text) : IsUnfitRange now lookback start stop
  | bounds (hlookback : lookback.isTrue = false)
      (hgiven : start.isTrue = true ∨ stop.isTrue = true)
      (hlost : DateRange.AreLost now (bound? start) (bound? stop)) :
      IsUnfitRange now lookback start stop

/-- The request of a configuration as it is written. -/
def requestDatum (entries : List (Datum × Datum)) : Datum :=
  (Datum.get? entries "indicators").getD (.mapping [])

/-- How indicators are lost without a message: by the first part that is unfit. -/
inductive IsUnfit (now : Moment) (entries : List (Datum × Datum)) : Prop
  | interval (hsymbol : Succeeds (symbolOf entries))
      (hinterval : (intervalDatum entries).isWritable = false) : IsUnfit now entries
  | range (hsymbol : Succeeds (symbolOf entries)) (hinterval : Succeeds (intervalOf entries))
      (hrange : IsUnfitRange now (part entries "lookback") (part entries "start")
        (part entries "end")) : IsUnfit now entries
  | request (hsymbol : Succeeds (symbolOf entries)) (hinterval : Succeeds (intervalOf entries))
      (hrange : Succeeds (rangeOf now entries))
      (hrequest : Config.IsUnfitRequest (requestDatum entries)) : IsUnfit now entries

end IndicatorsConfig

namespace Config

end Config

end Bourse
