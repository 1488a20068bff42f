import Bourse.Number.Binary64
/-!
Approximation of ratios by fractions with small denominators. The continued fraction of a ratio
leads to two fractions on either side of it, between which every fraction has a denominator beyond
the bound; the closer of them is taken, and of two equally close ones the one that was reached first.
-/
namespace Bourse

/-- A fraction with a numerator and a denominator. -/
structure Fraction where
  num : Int
  den : Nat
deriving DecidableEq, Repr

namespace Fraction

/-- The fraction on the way from one to another, after a number of steps. -/
def step (f : Fraction) (count : Nat) (g : Fraction) : Fraction :=
  ⟨f.num + count * g.num, f.den + count * g.den⟩

/-- The last two convergents of a continued fraction with denominators up to a bound. What is left
of the ratio behind the given two is `n / d`. -/
def converge (bound : Nat) (before last : Fraction) (n d : Nat) : Fraction × Fraction :=
  if d = 0 then (before, last)
  else
    let next := before.step (n / d) last
    if bound < next.den then (before, last) else converge bound last next d (n % d)
termination_by d
decreasing_by exact Nat.mod_lt n (Nat.pos_of_ne_zero ‹_›)

/-- The last two convergents of a ratio with denominators up to a bound. -/
def convergents (bound : Nat) (r : Rat) : Fraction × Fraction :=
  converge bound ⟨1, 0⟩ ⟨r.num / r.den, 1⟩ r.den (r.num % r.den).toNat

/-- The distance of a fraction from a ratio, as a multiple of one over the product of both
denominators. -/
def gap (r : Rat) (f : Fraction) : Nat := (r.num * f.den - f.num * r.den).natAbs

/-- Whether the first of two fractions is closer to a ratio. -/
def isCloser (r : Rat) (f g : Fraction) : Bool := f.gap r * g.den < g.gap r * f.den

/-- The fraction closest to a ratio among those with denominators up to a bound: the last convergent,
or the last fraction on the way there that the bound allows. -/
def closest (bound : Nat) (r : Rat) : Fraction :=
  let (before, last) := convergents bound r
  let other := before.step ((bound - before.den) / last.den) last
  if isCloser r other last then other else last

/-- A fraction as text, with a colon. -/
def text (f : Fraction) : String := s!"{f.num}:{f.den}"

end Fraction

/-- A finite value as a rational number. -/
def Binary64.toRat (negative : Bool) (mantissa : Nat) (exponent : Int) : Rat :=
  let (n, d) := scaleTwo mantissa 1 exponent
  mkRat (if negative then -(n : Int) else n) d

end Bourse
