import Bourse.Indicator.Series
import Bourse.Market.Bar
/-!
Volume: the balance of traded volume and the average price weighted by volume.
-/
namespace Bourse.Indicator

variable {α : Type} [Scalar α]

open Scalar Series

/-- A volume as a number. -/
def volumeOf (bar : Bar α) : Except Failure α :=
  match ofVolume? bar.volume with
  | some volume => .ok volume
  | none => .error .volumeTooLarge

/-- The balances after a bar with a balance: a rise of the close adds the volume, a fall takes it
away. -/
def obvFrom (previous : Bar α) (balance : α) : List (Bar α) → Except Failure (List α)
  | [] => .ok []
  | bar :: rest => do
    let next ←
      if less previous.close bar.close then moved (balance + ·) bar
      else if less bar.close previous.close then moved (balance - ·) bar
      else pure balance
    return next :: (← obvFrom bar next rest)
where
  /-- The volume of a bar applied to a balance. -/
  moved (change : α → α) (bar : Bar α) : Except Failure α := (volumeOf bar).map change

/-- The balance of volume, from the volume of the first bar on. -/
def obv : List (Bar α) → Except Failure (List α)
  | [] => .ok []
  | first :: rest => do
    let balance ← volumeOf first
    return balance :: (← obvFrom first balance rest)

/-- The mean of high, low and close. -/
def typicalPrice (bar : Bar α) : α := (bar.high + bar.low + bar.close) / ofInt 3

/-- The weighted averages of bars after a turnover and a volume. -/
def vwapFrom (turnover volume : α) : List (Bar α) → Except Failure (List α)
  | [] => .ok []
  | bar :: rest => do
    let traded ← volumeOf bar
    let turnover := turnover + typicalPrice bar * traded
    let volume := volume + traded
    let average := if isZero volume then typicalPrice bar else turnover / volume
    return average :: (← vwapFrom turnover volume rest)

/-- The average of typical prices weighted by volume; while nothing was traded, the typical
price. -/
def vwap (bars : List (Bar α)) : Except Failure (List α) := vwapFrom zero zero bars

end Bourse.Indicator
