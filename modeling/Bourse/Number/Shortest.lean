import Bourse.Number.Binary64
/-!
Shortest decimals: the fewest digits that read back as the same binary64 value, and of those the
number nearest to it.
-/
namespace Bourse.Shortest

/-- Whether `10^k ≤ num / den`. -/
def powerLe (k : Int) (num den : Nat) : Bool :=
  let (n, d) := scaleTen 1 1 k
  n * den ≤ num * d

/-- The exponent of the leading decimal digit of a positive quotient. -/
def leadingDigit (num den : Nat) : Int :=
  let low := (((num.log2 : Int) - den.log2 - 1) * 30103).fdiv 100000 - 1
  if powerLe (low + 2) num den then low + 2
  else if powerLe (low + 1) num den then low + 1
  else low

/-- A positive value with the interval of reals that read back as it, in quarters of its last place:
the value is `4 · mantissa`, the ends belong to it iff the mantissa is even. -/
structure Interval where
  low : Nat
  value : Nat
  high : Nat
  closed : Bool
  /-- The exponent of two of one quarter. -/
  exponent : Int

/-- The interval around `mantissa · 2^exponent`; below a power of two the neighbours lie closer. -/
def interval (mantissa : Nat) (exponent : Int) : Interval where
  low := 4 * mantissa -
    if mantissa = Binary64.binade ∧ Binary64.leastExponent < exponent then 1 else 2
  value := 4 * mantissa
  high := 4 * mantissa + 2
  closed := mantissa % 2 == 0
  exponent := exponent - 2

/-- The better of the two neighbours of the value on the grid of multiples of `10^place` that read
back, if one does; a tie goes to the even one. -/
def onGrid? (around : Interval) (place : Int) : Option Nat :=
  let (unit, one) := scaleTwo 1 1 around.exponent
  let (up, down) := scaleTen 1 1 place
  let grid := up * one
  let value := around.value * unit * down
  let low := around.low * unit * down
  let high := around.high * unit * down
  let inside := fun x => if around.closed then low ≤ x && x ≤ high else low < x && x < high
  let below := value / grid
  let nearer := roundDiv value grid
  let other := if nearer = below then below + 1 else below
  if inside (nearer * grid) then some nearer
  else if inside (other * grid) then some other
  else none

/-- The first grid, from `digits` significant digits on, that holds a point which reads back. -/
def search (around : Interval) (leading : Int) : Nat → Nat → Nat × Int
  | 0, digits => ((onGrid? around (leading + 1 - digits)).getD 0, leading + 1 - digits)
  | more + 1, digits =>
    match onGrid? around (leading + 1 - digits) with
    | some coefficient => (coefficient, leading + 1 - digits)
    | none => search around leading more (digits + 1)

/-- Removes trailing zeros of a coefficient. -/
def stripZeros : Nat → Nat → Int → Nat × Int
  | 0, coefficient, exponent => (coefficient, exponent)
  | more + 1, coefficient, exponent =>
    if coefficient ≠ 0 ∧ coefficient % 10 = 0 then stripZeros more (coefficient / 10) (exponent + 1)
    else (coefficient, exponent)

/-- The shortest decimal of `±mantissa · 2^exponent`. -/
def ofFinite (negative : Bool) (mantissa : Nat) (exponent : Int) : Decimal :=
  if mantissa = 0 then ⟨negative, 0, 0⟩
  else
    let (num, den) := scaleTwo mantissa 1 exponent
    let (coefficient, place) := search (interval mantissa exponent) (leadingDigit num den) 16 1
    let (coefficient, place) := stripZeros 17 coefficient place
    ⟨negative, coefficient, place⟩

end Bourse.Shortest
