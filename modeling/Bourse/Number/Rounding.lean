/-!
Division of naturals to the nearest integer; a half goes to the even neighbour.
-/
namespace Bourse

/-- `n / d` to the nearest natural, a half to the even one. -/
def roundDiv (n d : Nat) : Nat :=
  let whole := n / d
  let twice := 2 * (n % d)
  if twice < d then whole
  else if d < twice then whole + 1
  else whole + whole % 2

/-- A multiple divides exactly. -/
theorem roundDiv_mul_right (n : Nat) {d : Nat} (hd : 0 < d) : roundDiv (n * d) d = n := by
  simp [roundDiv, Nat.mul_div_cancel _ hd, hd]

/-- A natural quotient as numerator and denominator, multiplied by a power of two. -/
def scaleTwo (num den : Nat) (exponent : Int) : Nat × Nat :=
  if 0 ≤ exponent then (num * Nat.pow 2 exponent.toNat, den)
  else (num, den * Nat.pow 2 (-exponent).toNat)

/-- A natural quotient as numerator and denominator, multiplied by a power of ten. -/
def scaleTen (num den : Nat) (exponent : Int) : Nat × Nat :=
  if 0 ≤ exponent then (num * Nat.pow 10 exponent.toNat, den)
  else (num, den * Nat.pow 10 (-exponent).toNat)

end Bourse
