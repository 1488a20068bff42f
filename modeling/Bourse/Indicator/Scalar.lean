import Bourse.Number.Binary64
/-!
The arithmetic of indicators. One value stands for a missing number; the running instance is
binary64, where that value is NaN.
-/
namespace Bourse

/-- Numbers that indicators are computed in. -/
class Scalar (α : Type) extends Add α, Sub α, Mul α, Div α, Neg α where
  /-- The number of an integer. -/
  ofInt : Int → α
  /-- The number of a traded volume, unless it is too large to be one. -/
  ofVolume? : Int → Option α
  /-- The value in place of a number that is not known. -/
  missing : α
  isMissing : α → Bool
  isZero : α → Bool
  /-- Whether one number is less than another; a missing one never is. -/
  less : α → α → Bool
  abs : α → α
  sqrt : α → α

namespace Scalar

variable {α : Type} [Scalar α]

/-- The first of two numbers, unless the second is greater. -/
def larger (a b : α) : α := if less a b then b else a

/-- The first of two numbers, unless the second is less. -/
def smaller (a b : α) : α := if less b a then b else a

/-- Zero. -/
def zero : α := ofInt 0

/-- One hundred. -/
def hundred : α := ofInt 100

end Scalar

/-- Binary64 arithmetic: every operation is rounded to nearest, a half to even. -/
instance : Scalar Float where
  ofInt := Binary64.ofInt
  ofVolume? := Binary64.ofInt?
  missing := Binary64.nanFloat
  isMissing := Float.isNaN
  isZero := fun x => x == 0
  less := fun a b => a < b
  abs := Float.abs
  sqrt := Float.sqrt

end Bourse
