import Bourse.Number.Binary64
/-!
Quotes: a snapshot of the market fields of one security. Valuation figures that are not published
are absent, which differs from zero.
-/
namespace Bourse

/-- The current market fields of one security. -/
structure Quote where
  symbol : String
  shortName : String := ""
  currency : String := ""
  exchange : String := ""
  price : Float := 0
  change : Float := 0
  changePercent : Float := 0
  opening : Float := 0
  high : Float := 0
  low : Float := 0
  previousClose : Float := 0
  volume : Int := 0
  averageVolume : Int := 0
  bid : Float := 0
  ask : Float := 0
  marketCap : Int := 0
  yearHigh : Float := 0
  yearLow : Float := 0
  yearChangePercent : Float := 0
  fiftyDayAverage : Float := 0
  twoHundredDayAverage : Float := 0
  trailingPe : Option Float := none
  forwardPe : Option Float := none
  priceToBook : Option Float := none
  eps : Option Float := none
  dividendYield : Option Float := none

/-- The fields of a quote that a filter can name. -/
inductive Field where
  | price
  | change
  | changePercent
  | volume
  | marketCap
  | trailingPe
  | forwardPe
  | priceToBook
  | eps
  | dividendYield
  | yearHigh
  | yearLow
  | yearChangePercent
  | opening
  | high
  | low
  | previousClose
  | averageVolume
deriving DecidableEq, Repr

namespace Field

/-- The full name of a field. -/
def name : Field → String
  | price => "price"
  | change => "change"
  | changePercent => "change_percent"
  | volume => "volume"
  | marketCap => "market_cap"
  | trailingPe => "pe_ratio"
  | forwardPe => "forward_pe"
  | priceToBook => "price_to_book"
  | eps => "eps"
  | dividendYield => "dividend_yield"
  | yearHigh => "fifty_two_week_high"
  | yearLow => "fifty_two_week_low"
  | yearChangePercent => "fifty_two_week_change_percent"
  | opening => "open"
  | high => "high"
  | low => "low"
  | previousClose => "previous_close"
  | averageVolume => "average_volume"

end Field

/-- An integer field too large for a binary64 number. -/
structure TooLarge where
  field : Field
deriving DecidableEq, Repr

/-- The value of a field as a binary64 number, or none where the quote does not publish it. -/
def Quote.value? (quote : Quote) : Field → Except TooLarge (Option Float)
  | .price => .ok (some quote.price)
  | .change => .ok (some quote.change)
  | .changePercent => .ok (some quote.changePercent)
  | .volume => whole .volume quote.volume
  | .marketCap => whole .marketCap quote.marketCap
  | .trailingPe => .ok quote.trailingPe
  | .forwardPe => .ok quote.forwardPe
  | .priceToBook => .ok quote.priceToBook
  | .eps => .ok quote.eps
  | .dividendYield => .ok quote.dividendYield
  | .yearHigh => .ok (some quote.yearHigh)
  | .yearLow => .ok (some quote.yearLow)
  | .yearChangePercent => .ok (some quote.yearChangePercent)
  | .opening => .ok (some quote.opening)
  | .high => .ok (some quote.high)
  | .low => .ok (some quote.low)
  | .previousClose => .ok (some quote.previousClose)
  | .averageVolume => whole .averageVolume quote.averageVolume
where
  /-- The value of an integer field. -/
  whole (field : Field) (n : Int) : Except TooLarge (Option Float) :=
    match Binary64.ofInt? n with
    | some x => .ok (some x)
    | none => .error ⟨field⟩

end Bourse
