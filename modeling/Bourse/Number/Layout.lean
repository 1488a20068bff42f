import Bourse.Number.Shortest
/-!
The text of numbers: shortest form with positional or scientific layout, fixed places rounded from
the exact value, and rounding of a value to decimal places.
-/
namespace Bourse

/-- How a shortest decimal is laid out. -/
structure Layout where
  /-- The least exponent of the leading digit that is written positionally. -/
  positionalFrom : Int
  /-- The least exponent above them that is written with an exponent again. -/
  positionalBelow : Int
  /-- The least number of digits of an exponent. -/
  exponentWidth : Nat
  /-- The texts of the values that are no finite numbers. -/
  nan : String
  infinity : String

namespace Layout

/-- Positional notation from 0.0001 up to below 10^16, exponents with sign and two digits, and a
fraction or an exponent in every finite number. -/
def plain : Layout := ⟨-4, 16, 2, "nan", "inf"⟩

/-- Digits padded with zeros on the left. -/
def padZeros (width : Nat) (digits : List Char) : List Char :=
  List.replicate (width - digits.length) '0' ++ digits

/-- The digits of a natural. -/
def digitsOf (n : Nat) : List Char := Nat.toDigits 10 n

/-- The text of an integer. -/
def integer (n : Int) : String :=
  String.ofList (if n < 0 then '-' :: digitsOf n.natAbs else digitsOf n.natAbs)

/-- Digits with a point after the first `whole` of them; zeros fill the gaps on either side. -/
def positional (digits : List Char) (whole : Int) : List Char :=
  if whole ≤ 0 then '0' :: '.' :: (List.replicate (-whole).toNat '0' ++ digits)
  else
    let before := digits.take whole.toNat
    let after := digits.drop whole.toNat
    before ++ List.replicate (whole.toNat - digits.length) '0' ++ '.' ::
      (if after.isEmpty then ['0'] else after)

/-- One digit, a point and the others, and the exponent of the first. -/
def scientific (layout : Layout) (digits : List Char) (exponent : Int) : List Char :=
  let body := match digits with
    | [] => []
    | [d] => [d]
    | d :: rest => d :: '.' :: rest
  body ++ 'e' :: (if exponent < 0 then '-' else '+') ::
    padZeros layout.exponentWidth (digitsOf exponent.natAbs)

/-- The text of a decimal. -/
def decimal (layout : Layout) (x : Decimal) : String :=
  let digits := digitsOf x.coefficient
  let leading := x.exponent + digits.length - 1
  let body :=
    if layout.positionalFrom ≤ leading ∧ leading < layout.positionalBelow then
      positional digits (leading + 1)
    else scientific layout digits leading
  String.ofList (if x.negative then '-' :: body else body)

/-- The text of a binary64 value. -/
def value (layout : Layout) : Binary64 → String
  | .nan => layout.nan
  | .infinity negative => (if negative then "-" else "") ++ layout.infinity
  | .finite negative mantissa exponent =>
    layout.decimal (Shortest.ofFinite negative mantissa exponent)

/-- The shortest text of a running number. -/
def float (x : Float) : String := plain.value (Binary64.ofFloat x)

end Layout

/-- A value rounded to a number of decimal places, a half to the even neighbour. -/
def Binary64.toPlaces (mantissa : Nat) (exponent : Int) (places : Int) : Nat :=
  let (n, d) := scaleTwo mantissa 1 exponent
  let (n, d) := scaleTen n d places
  roundDiv n d

namespace Layout

/-- A value with a fixed number of decimal places. -/
def fixedValue (places : Nat) : Binary64 → String
  | .nan => plain.nan
  | .infinity negative => (if negative then "-" else "") ++ plain.infinity
  | .finite negative mantissa exponent =>
    let digits := padZeros (places + 1) (digitsOf (Binary64.toPlaces mantissa exponent places))
    let whole := digits.length - places
    let body := digits.take whole ++ if places = 0 then [] else '.' :: digits.drop whole
    String.ofList (if negative then '-' :: body else body)

/-- A running number with a fixed number of decimal places. -/
def fixed (places : Nat) (x : Float) : String := fixedValue places (Binary64.ofFloat x)

end Layout

/-- The running number nearest to a value rounded to decimal places, which may be negative; none if
that is past the largest finite value. Infinities and NaN stay as they are. -/
def roundPlaces? (places : Int) (x : Float) : Option Float :=
  match Binary64.ofFloat x with
  | .finite negative mantissa exponent =>
    if 323 < places then some x
    else if places < -308 then some (Binary64.floatOfCode negative 0)
    else
      let (n, d) := scaleTen (Binary64.toPlaces mantissa exponent places) 1 (-places)
      let code := Binary64.nearestCode n d
      if code = Binary64.infinityCode then none else some (Binary64.floatOfCode negative code)
  | _ => some x

end Bourse
