import Bourse.Indicator.Report
import Bourse.Sheet.Table
/-!
Summaries of reports: one line a series with its latest value and what that value says about the
latest price.
-/
namespace Bourse.Summary

/-- Whether a name begins with one of some words. -/
def beginsWith (words : List String) (name : String) : Bool :=
  words.any fun word => word.toList.isPrefixOf name.toList

/-- Whether a series has the dimension of a price. -/
def isPriceLike (name : String) : Bool := beginsWith ["sma_", "ema_", "wma_", "bb_", "vwap"] name

/-- A number with a sign and two decimal places. -/
def signed (x : Float) : String :=
  let text := Layout.fixed 2 x
  if beginsWith ["-"] text then text else "+" ++ text

/-- Where the price stands relative to a value. -/
def priceNote (price value : Float) : String :=
  let percent := (price - value) / value * 100.0
  s!"price {if 0.0 < percent then above else below} ({signed percent}%)"
where
  above : String := "above"
  below : String := "below"

/-- Whether an oscillator has left the band between two bounds. -/
def bandNote (upper lower value : Float) : String :=
  if upper < value then "overbought" else if value < lower then "oversold" else "neutral"

/-- How strong a trend is. -/
def trendNote (value : Float) : String :=
  if 25.0 < value then "strong trend" else if 20.0 < value then "moderate trend" else "weak trend"

/-- What a value says, by the name of its series. -/
def note (price : Float) (name : String) (value : Float) : String :=
  if isPriceLike name && value != 0.0 then priceNote price value
  else if beginsWith ["rsi_"] name then bandNote 70.0 30.0 value
  else if name == "stoch_k" then bandNote 80.0 20.0 value
  else if beginsWith ["adx_"] name then trendNote value
  else if name == "macd_histogram" then if 0.0 < value then "bullish" else "bearish"
  else ""

/-- The line of a series. -/
def line (price : Float) (name : String) (latest : Option Float) : String :=
  let start := ' ' :: ' ' :: Table.left 16 name ++ [' ']
  match latest with
  | none => String.ofList (start ++ Table.right 12 "-")
  | some value =>
    let text := start ++ Table.right 12 (Layout.fixed 4 value) ++ "   ".toList
    String.ofList (Text.trimRight (text ++ (note price name value).toList))

/-- The lines of a report. -/
def lines (price : Float) (report : Report) : List String :=
  report.latest.map fun (name, latest) => line price name latest

end Bourse.Summary
