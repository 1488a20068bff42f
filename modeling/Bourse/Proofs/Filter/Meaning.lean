import Bourse.Filter.Expr

/-! What an expression means for a quote. The meaning is given by rules, one for each way to an
outcome, and every expression has exactly one outcome. The evaluator, which keeps what is left to do
on a list and works its way up the left side of an expression, ends in this outcome. -/
namespace Bourse.Filter

/-- The outcome of an expression for a quote: a truth value, or the error that is met first. -/
inductive Means (quote : Quote) : Expr → Except EvalError Bool → Prop
  -- a conjunction looks at its right side only when the left one holds
  | and_right {left right : Expr} {outcome : Except EvalError Bool}
    (hleft : Means quote left (.ok true)) (hright : Means quote right outcome) :
    Means quote (.and left right) outcome
  | and_left {left right : Expr} {outcome : Except EvalError Bool}
    (hleft : Means quote left outcome) (hsettled : outcome ≠ .ok true) :
    Means quote (.and left right) outcome
  -- a disjunction looks at its right side only when the left one does not hold
  | or_right {left right : Expr} {outcome : Except EvalError Bool}
    (hleft : Means quote left (.ok false)) (hright : Means quote right outcome) :
    Means quote (.or left right) outcome
  | or_left {left right : Expr} {outcome : Except EvalError Bool}
    (hleft : Means quote left outcome) (hsettled : outcome ≠ .ok false) :
    Means quote (.or left right) outcome
  -- a comparison fails without a number to compare, whatever its operator is
  | unknown {operator name : String} {literal : Float} (hname : Field.ofName? name = none) :
    Means quote (.comparison operator name literal) (.ok false)
  | absent {operator name : String} {literal : Float} {field : Field}
    (hname : Field.ofName? name = some field) (hvalue : quote.value? field = .ok none) :
    Means quote (.comparison operator name literal) (.ok false)
  | tooLarge {operator name : String} {literal : Float} {field : Field} {fault : TooLarge}
    (hname : Field.ofName? name = some field) (hvalue : quote.value? field = .error fault) :
    Means quote (.comparison operator name literal) (.error (.tooLarge fault.field))
  | compared {operator name : String} {literal value : Float} {field : Field}
    (hname : Field.ofName? name = some field) (hvalue : quote.value? field = .ok (some value)) :
    Means quote (.comparison operator name literal) (compare value operator literal)
  -- nothing else is a condition
  | number (value : Float) : Means quote (.number value) (.error .bareNumber)
  | field (name : String) : Means quote (.field name) (.error .bareField)
  | foreign : Means quote .foreign (.error .foreign)

variable {quote : Quote}

/-! The recursion, one equation for each way to combine -/

theorem holds_conjunction (quote : Quote) (left right : Expr) :
    (Expr.and left right).holds quote =
      match left.holds quote with
      | .ok true => right.holds quote
      | outcome => outcome := rfl

theorem holds_disjunction (quote : Quote) (left right : Expr) :
    (Expr.or left right).holds quote =
      match left.holds quote with
      | .ok false => right.holds quote
      | outcome => outcome := rfl

theorem holds_comparison (quote : Quote) (operator name : String) (literal : Float) :
    (Expr.comparison operator name literal).holds quote =
      match quote.named? name with
      | .error fault => .error (.tooLarge fault.field)
      | .ok none => .ok false
      | .ok (some value) => compare value operator literal := rfl

theorem holds_comparison_of_value {name : String} {value : Float}
    (h : quote.named? name = .ok (some value)) (operator : String) (literal : Float) :
    (Expr.comparison operator name literal).holds quote = compare value operator literal := by
  rw [holds_comparison, h]

theorem holds_comparison_of_absent {name : String} (h : quote.named? name = .ok none)
    (operator : String) (literal : Float) :
    (Expr.comparison operator name literal).holds quote = .ok false := by
  rw [holds_comparison, h]

theorem holds_comparison_of_error {name : String} {fault : TooLarge}
    (h : quote.named? name = .error fault) (operator : String) (literal : Float) :
    (Expr.comparison operator name literal).holds quote = .error (.tooLarge fault.field) := by
  rw [holds_comparison, h]

theorem named?_of_ofName? {name : String} {field : Field} (h : Field.ofName? name = some field)
    (quote : Quote) : quote.named? name = quote.value? field := by
  rw [Quote.named?, h]

theorem named?_of_unknown {name : String} (h : Field.ofName? name = none) (quote : Quote) :
    quote.named? name = .ok none := by
  rw [Quote.named?, h]

/-! Rules and recursion -/

theorem means_comparison (quote : Quote) (operator name : String) (literal : Float) :
    Means quote (.comparison operator name literal)
      ((Expr.comparison operator name literal).holds quote) := by
  cases hname : Field.ofName? name with
  | none =>
    rw [holds_comparison_of_absent (named?_of_unknown hname quote)]
    exact .unknown hname
  | some field =>
    have hnamed := named?_of_ofName? hname quote
    cases hvalue : quote.value? field with
    | error fault =>
      rw [holds_comparison_of_error (hnamed.trans hvalue)]
      exact .tooLarge hname hvalue
    | ok value? =>
      cases value? with
      | none =>
        rw [holds_comparison_of_absent (hnamed.trans hvalue)]
        exact .absent hname hvalue
      | some value =>
        rw [holds_comparison_of_value (hnamed.trans hvalue)]
        exact .compared hname hvalue

/-- Every expression has an outcome, which the recursion over its sides finds. -/
theorem means_holds (quote : Quote) (e : Expr) : Means quote e (e.holds quote) := by
  induction e with
  | number value => exact .number value
  | field name => exact .field name
  | foreign => exact .foreign
  | comparison operator name literal => exact means_comparison quote operator name literal
  | and left right ihleft ihright =>
    rw [holds_conjunction]
    -- the left side decides whether the right one is looked at
    split
    · next hleft => exact .and_right (hleft ▸ ihleft) ihright
    · next hleft => exact .and_left ihleft hleft
  | or left right ihleft ihright =>
    rw [holds_disjunction]
    split
    · next hleft => exact .or_right (hleft ▸ ihleft) ihright
    · next hleft => exact .or_left ihleft hleft

/-- One step up the left side of an expression: the right side is evaluated if it matters. -/
def Pending.climb (quote : Quote) (truth : Bool) (p : Pending) : Except EvalError Bool :=
  if p.matters truth then p.right.holds quote else .ok truth

@[simp] theorem climb_conjunct_true (quote : Quote) (right : Expr) :
    Pending.climb quote true (.conjunct right) = right.holds quote := rfl

@[simp] theorem climb_conjunct_false (quote : Quote) (right : Expr) :
    Pending.climb quote false (.conjunct right) = .ok false := rfl

@[simp] theorem climb_disjunct_true (quote : Quote) (right : Expr) :
    Pending.climb quote true (.disjunct right) = .ok true := rfl

@[simp] theorem climb_disjunct_false (quote : Quote) (right : Expr) :
    Pending.climb quote false (.disjunct right) = right.holds quote := rfl

theorem holds_and (quote : Quote) (left right : Expr) :
    (Expr.and left right).holds quote =
      left.holds quote >>= fun truth => Pending.climb quote truth (.conjunct right) := by
  rw [holds_conjunction]
  cases left.holds quote with
  | error fault => rfl
  | ok truth => cases truth <;> rfl

theorem holds_or (quote : Quote) (left right : Expr) :
    (Expr.or left right).holds quote =
      left.holds quote >>= fun truth => Pending.climb quote truth (.disjunct right) := by
  rw [holds_disjunction]
  cases left.holds quote with
  | error fault => rfl
  | ok truth => cases truth <;> rfl

theorem holds_and_of_ok {left right : Expr} {a b : Bool} (hleft : left.holds quote = .ok a)
    (hright : right.holds quote = .ok b) : (Expr.and left right).holds quote = .ok (a && b) := by
  rw [holds_and, hleft]
  cases a with
  | false => rfl
  | true => exact hright

theorem holds_and_eq_true_iff {left right : Expr} :
    (Expr.and left right).holds quote = .ok true ↔
      left.holds quote = .ok true ∧ right.holds quote = .ok true := by
  rw [holds_and]
  rcases left.holds quote with fault | _ | _ <;> simp [bind, Except.bind]

theorem holds_and_eq_false_iff {left right : Expr} :
    (Expr.and left right).holds quote = .ok false ↔
      left.holds quote = .ok false ∨
        left.holds quote = .ok true ∧ right.holds quote = .ok false := by
  rw [holds_and]
  rcases left.holds quote with fault | _ | _ <;> simp [bind, Except.bind]

theorem holds_or_eq_true_iff {left right : Expr} :
    (Expr.or left right).holds quote = .ok true ↔
      left.holds quote = .ok true ∨
        left.holds quote = .ok false ∧ right.holds quote = .ok true := by
  rw [holds_or]
  rcases left.holds quote with fault | _ | _ <;> simp [bind, Except.bind]

theorem holds_or_eq_false_iff {left right : Expr} :
    (Expr.or left right).holds quote = .ok false ↔
      left.holds quote = .ok false ∧ right.holds quote = .ok false := by
  rw [holds_or]
  rcases left.holds quote with fault | _ | _ <;> simp [bind, Except.bind]

theorem run_of_leaf {e : Expr} (hand : ∀ left right, e ≠ .and left right)
    (hor : ∀ left right, e ≠ .or left right) (pending : List Pending) :
    run quote e pending = e.leaf quote >>= fun truth => resume quote truth pending := by
  rw [run.eq_3 _ _ _ hand hor]
  cases e.leaf quote <;> rfl

/-- What is pending is taken one step up at a time, if right sides are evaluated first. -/
theorem resume_cons (p : Pending) (rest : List Pending) (truth : Bool)
    (hright : run quote p.right rest =
      p.right.holds quote >>= fun truth => resume quote truth rest) :
    resume quote truth (p :: rest) =
      p.climb quote truth >>= fun truth => resume quote truth rest := by
  rw [resume, Pending.climb]
  split
  · exact hright
  · rfl

/-- An expression is evaluated first, whatever is pending behind it. -/
theorem run_eq (quote : Quote) (e : Expr) (pending : List Pending) :
    run quote e pending = e.holds quote >>= fun truth => resume quote truth pending := by
  induction e generalizing pending with
  | number value => exact run_of_leaf (by nofun) (by nofun) pending
  | field name => exact run_of_leaf (by nofun) (by nofun) pending
  | comparison operator name literal => exact run_of_leaf (by nofun) (by nofun) pending
  | foreign => exact run_of_leaf (by nofun) (by nofun) pending
  | and left right ihleft ihright =>
    rw [run, ihleft, holds_and, bind_assoc]
    exact bind_congr fun truth => resume_cons (.conjunct right) pending truth (ihright pending)
  | or left right ihleft ihright =>
    rw [run, ihleft, holds_or, bind_assoc]
    exact bind_congr fun truth => resume_cons (.disjunct right) pending truth (ihright pending)

theorem evaluate_eq_holds (quote : Quote) (e : Expr) : evaluate quote e = e.holds quote := by
  have hresume : ∀ truth, resume quote truth [] = .ok truth := fun truth => by rw [resume]
  rw [evaluate, run_eq, funext hresume]
  exact bind_pure _

/-! The left side of an expression -/

end Bourse.Filter
