/-!
Bars: the prices and the volume of one trading period, and histories of bars of one symbol.
-/
namespace Bourse

/-- One period with prices of a numeric type; the timestamp counts seconds since 1970. -/
structure Bar (α : Type) where
  timestamp : Int
  opening : α
  high : α
  low : α
  close : α
  volume : Int
deriving Repr

/-- The lengths of the periods of a history. -/
inductive Interval where
  | oneMinute
  | fiveMinutes
  | fifteenMinutes
  | thirtyMinutes
  | oneHour
  | oneDay
  | oneWeek
  | oneMonth
deriving DecidableEq, Repr

namespace Interval

/-- The short name of an interval. -/
def name : Interval → String
  | oneMinute => "1m"
  | fiveMinutes => "5m"
  | fifteenMinutes => "15m"
  | thirtyMinutes => "30m"
  | oneHour => "1h"
  | oneDay => "1d"
  | oneWeek => "1wk"
  | oneMonth => "1mo"

/-- Every interval. -/
def all : List Interval :=
  [oneMinute, fiveMinutes, fifteenMinutes, thirtyMinutes, oneHour, oneDay, oneWeek, oneMonth]

/-- The interval with a short name. -/
def ofName? (name : String) : Option Interval := all.find? (·.name == name)

end Interval

/-- The bars of a symbol, oldest first. -/
structure History where
  symbol : String
  interval : Interval := .oneDay
  bars : List (Bar Float) := []

end Bourse
