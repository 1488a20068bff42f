import Bourse.Filter.Names
/-!
Filter expressions, their meaning for a quote, and an evaluator that needs no call stack. A
conjunction looks at its right side only when the left one holds, a disjunction only when it does
not; a comparison with an absent field fails.
-/
namespace Bourse.Filter

/-- A filter expression. Only comparisons and their combinations are conditions. -/
inductive Expr where
  /-- A bare number. -/
  | number (value : Float)
  /-- A bare field. -/
  | field (name : String)
  | comparison (operator : String) (field : String) (literal : Float)
  | and (left right : Expr)
  | or (left right : Expr)
  /-- A foreign object in the place of an expression. -/
  | foreign
deriving Inhabited

/-- The reasons why a filter has no truth value for a quote. -/
inductive EvalError where
  | unknownOperator (operator : String)
  | bareNumber
  | bareField
  | foreign
  | tooLarge (field : Field)
deriving DecidableEq, Repr

/-- The text of an error. -/
def EvalError.message : EvalError → String
  | unknownOperator operator => s!"Unknown operator: {operator}"
  | bareNumber => "Cannot evaluate a bare NumberLiteral as a condition"
  | bareField => "Cannot evaluate a bare FieldReference as a condition"
  | foreign => "Unsupported expression node"
  | tooLarge field => s!"{field.name} is too large for a binary64 number"

/-- The distance below which two numbers count as equal. -/
def tolerance : Float := 0.0001

/-- Compares two numbers. -/
def compare (left : Float) (operator : String) (right : Float) : Except EvalError Bool :=
  if operator = "<" then .ok (left < right)
  else if operator = ">" then .ok (right < left)
  else if operator = "<=" then .ok (left ≤ right)
  else if operator = ">=" then .ok (right ≤ left)
  else if operator = "=" ∨ operator = "==" then .ok ((left - right).abs < tolerance)
  else if operator = "!=" then .ok (tolerance ≤ (left - right).abs)
  else .error (.unknownOperator operator)

namespace Expr

/-- The truth of an expression that is no combination. -/
def leaf (quote : Quote) : Expr → Except EvalError Bool
  | comparison operator name literal =>
    match quote.named? name with
    | .error fault => .error (.tooLarge fault.field)
    | .ok none => .ok false
    | .ok (some value) => compare value operator literal
  | number _ => .error .bareNumber
  | field _ => .error .bareField
  | _ => .error .foreign

/-- The truth of an expression for a quote. -/
def holds (quote : Quote) : Expr → Except EvalError Bool
  | and left right =>
    match holds quote left with
    | .ok true => holds quote right
    | outcome => outcome
  | or left right =>
    match holds quote left with
    | .ok false => holds quote right
    | outcome => outcome
  | e => leaf quote e

/-- The number of nodes, with those of two branches counted twice. -/
def weight : Expr → Nat
  | and left right => left.weight + right.weight + 2
  | or left right => left.weight + right.weight + 2
  | _ => 1

end Expr

/-- What is left to do once the left side of a combination is known. -/
inductive Pending where
  /-- The right side of a conjunction. -/
  | conjunct (right : Expr)
  /-- The right side of a disjunction. -/
  | disjunct (right : Expr)

namespace Pending

/-- The expression that is still to be evaluated. -/
def right : Pending → Expr
  | conjunct e => e
  | disjunct e => e

/-- Whether the right side matters after a truth value of the left one. -/
def matters : Pending → Bool → Bool
  | conjunct _, left => left
  | disjunct _, left => !left

end Pending

/-- The total weight of what is left to do. -/
def weightOf (pending : List Pending) : Nat :=
  pending.foldr (fun p total => p.right.weight + 1 + total) 0

theorem weight_pos (e : Expr) : 0 < e.weight := by cases e <;> simp [Expr.weight]

theorem weightOf_cons (p : Pending) (rest : List Pending) :
    weightOf (p :: rest) = p.right.weight + 1 + weightOf rest := by simp [weightOf]

mutual

/-- Evaluates an expression and then what is pending. -/
def run (quote : Quote) (e : Expr) (pending : List Pending) : Except EvalError Bool :=
  match e with
  | .and left right => run quote left (.conjunct right :: pending)
  | .or left right => run quote left (.disjunct right :: pending)
  | e =>
    match e.leaf quote with
    | .error fault => .error fault
    | .ok truth => resume quote truth pending
termination_by (e.weight + weightOf pending, 1)
decreasing_by
  · simp only [weightOf_cons, Expr.weight, Pending.right, Prod.lex_def]; omega
  · simp only [weightOf_cons, Expr.weight, Pending.right, Prod.lex_def]; omega
  · have := weight_pos e
    simp only [Prod.lex_def]; omega

/-- Goes on with what is pending after a truth value. -/
def resume (quote : Quote) (truth : Bool) (pending : List Pending) : Except EvalError Bool :=
  match pending with
  | [] => .ok truth
  | p :: rest =>
    if p.matters truth then run quote p.right rest else resume quote truth rest
termination_by (weightOf pending, 0)
decreasing_by all_goals simp only [weightOf_cons, Prod.lex_def]; omega

end

/-- The truth of an expression for a quote, with a constant call depth. -/
def evaluate (quote : Quote) (e : Expr) : Except EvalError Bool := run quote e []

/-- A step of the postfix form of an expression. -/
inductive RpnStep where
  | number (value : Float)
  | field (name : String)
  | comparison (operator : String) (field : String) (literal : Float)
  | and
  | or
  | foreign

/-- The postfix form of an expression, in front of more steps. -/
def Expr.rpnOnto : Expr → List RpnStep → List RpnStep
  | number x, more => .number x :: more
  | field name, more => .field name :: more
  | comparison operator name literal, more => .comparison operator name literal :: more
  | and left right, more => left.rpnOnto (right.rpnOnto (.and :: more))
  | or left right, more => left.rpnOnto (right.rpnOnto (.or :: more))
  | foreign, more => .foreign :: more

/-- The postfix form of an expression. -/
def Expr.toRpn (e : Expr) : List RpnStep := e.rpnOnto []

/-- One step on a stack of expressions; none if an operand is missing. -/
def RpnStep.step? : RpnStep → List Expr → Option (List Expr)
  | .number x, stack => some (.number x :: stack)
  | .field name, stack => some (.field name :: stack)
  | .comparison operator name literal, stack => some (.comparison operator name literal :: stack)
  | .foreign, stack => some (.foreign :: stack)
  | .and, right :: left :: stack => some (.and left right :: stack)
  | .or, right :: left :: stack => some (.or left right :: stack)
  | _, _ => none

/-- The expression with a postfix form. -/
def Expr.ofRpn? (steps : List RpnStep) : Option Expr :=
  match steps.foldlM (fun stack step => step.step? stack) [] with
  | some [e] => some e
  | _ => none

end Bourse.Filter
