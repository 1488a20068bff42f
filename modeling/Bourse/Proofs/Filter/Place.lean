import Bourse.Filter.Parser
import Mathlib.Tactic.SplitIfs

/-! Places inside an expression. Reading a filter from left to right, all that matters of the
tokens read so far is how many parentheses are open and what has to come next. From every place
the expression can be completed, so a token is a mistake exactly where no place follows it. -/
namespace Bourse.Filter

/-- What has to come next. -/
inductive Awaited where
  | operand
  | operator
  | literal
  | connective
deriving DecidableEq

/-- A place inside an expression: the number of open parentheses and what is awaited. -/
structure Place where
  opened : Nat
  awaited : Awaited
deriving DecidableEq

def Token.opens (t : Token) : Bool := t.kind = .lparen

def Token.closes (t : Token) : Bool := t.kind = .rparen

/-- At most `limit` parentheses are open anywhere: no beginning of the list has more opening
parentheses than that beyond its closing ones. -/
def NestedWithin (limit : Nat) (tokens : List Token) : Prop :=
  ∀ before, before <+: tokens → before.countP Token.opens ≤ before.countP Token.closes + limit

theorem NestedWithin.append {limit : Nat} {xs ys : List Token} (hxs : NestedWithin limit xs)
    (hys : ∀ more, more <+: ys →
      (xs ++ more).countP Token.opens ≤ (xs ++ more).countP Token.closes + limit) :
    NestedWithin limit (xs ++ ys) := by
  rintro before ⟨behind, hsplit⟩
  -- a beginning ends inside the first list, or it holds it and a part of the second
  rcases List.append_eq_append_iff.mp hsplit with ⟨more, rfl, -⟩ | ⟨more, rfl, rfl⟩
  · exact hxs before (List.prefix_append before more)
  · exact hys more (List.prefix_append more behind)

/-! Positions do not matter -/

/-- The kind and the text of a token. -/
def Token.shape (t : Token) : Kind × String := (t.kind, t.value)

/-- Two lists of tokens with the same kinds and texts, at any positions. -/
def Alike (xs ys : List Token) : Prop := xs.map Token.shape = ys.map Token.shape

theorem Alike.nestedWithin {limit : Nat} {xs ys : List Token} (h : Alike xs ys)
    (hnested : NestedWithin limit xs) : NestedWithin limit ys := by
  have hopens (tokens : List Token) : tokens.countP Token.opens =
      (tokens.map Token.shape).countP fun shape => shape.1 = .lparen := by
    rw [List.countP_map]
    rfl
  have hcloses (tokens : List Token) : tokens.countP Token.closes =
      (tokens.map Token.shape).countP fun shape => shape.1 = .rparen := by
    rw [List.countP_map]
    rfl
  intro before hbefore
  -- the same number of tokens of the other list has the same parentheses
  have htake : (xs.take before.length).map Token.shape = before.map Token.shape := by
    rw [List.map_take, h, ← List.map_take, ← List.prefix_iff_eq_take.mp hbefore]
  have hxs := hnested _ (List.take_prefix before.length xs)
  rwa [hopens, hcloses, htake, ← hopens, ← hcloses] at hxs

namespace Place

/-- The place before an expression. -/
def start : Place := ⟨0, .operand⟩

/-- The place behind a complete expression. -/
def finish : Place := ⟨0, .connective⟩

/-- The place behind a token, if the expression may go on with it. -/
def advance (s : Place) (t : Token) : Option Place :=
  match s.awaited with
  | .operand =>
    if t.kind = .lparen then some ⟨s.opened + 1, .operand⟩
    else if t.kind = .identifier then some ⟨s.opened, .operator⟩ else none
  | .operator =>
    if t.kind = .operator ∧ t.value ∈ operators then some ⟨s.opened, .literal⟩ else none
  | .literal =>
    if t.kind = .number ∧ (Numeral.float? t.value.toList).isSome then some ⟨s.opened, .connective⟩
    else none
  | .connective =>
    if t.kind = .and ∨ t.kind = .or then some ⟨s.opened, .operand⟩
    else if t.kind = .rparen ∧ 0 < s.opened then some ⟨s.opened - 1, .connective⟩ else none

/-- The place behind a list of tokens, if the expression may go on with all of them. -/
def follow (s : Place) : List Token → Option Place
  | [] => some s
  | t :: rest => (s.advance t).bind fun next => next.follow rest

@[simp] theorem follow_nil (s : Place) : s.follow [] = some s := rfl

theorem follow_cons (s : Place) (t : Token) (rest : List Token) :
    s.follow (t :: rest) = (s.advance t).bind fun next => next.follow rest := rfl

theorem follow_append (s : Place) (xs ys : List Token) :
    s.follow (xs ++ ys) = (s.follow xs).bind fun next => next.follow ys := by
  induction xs generalizing s with
  | nil => rfl
  | cons t rest ih =>
    rw [List.cons_append, follow_cons, follow_cons, Option.bind_assoc]
    exact congrArg _ (funext fun next => ih next)

theorem follow_append_of {s s' : Place} {xs : List Token} (h : s.follow xs = some s')
    (ys : List Token) : s.follow (xs ++ ys) = s'.follow ys := by
  rw [follow_append, h, Option.bind_some]

/-- Nothing can be read on: the next token is a mistake, or the tokens end before the expression
does. -/
def Stuck (s : Place) : List Token → Prop
  | [] => s ≠ finish
  | t :: _ => s.advance t = none

theorem Stuck.follow_ne_finish {s : Place} {rest : List Token} (h : s.Stuck rest) :
    s.follow rest ≠ some finish := by
  cases rest with
  | nil => exact fun he => h (Option.some.inj he)
  | cons t rest =>
    have ht : s.advance t = none := h
    simp [follow_cons, ht]

/-! Parentheses -/

theorem advance_opened {s s' : Place} {t : Token} (h : s.advance t = some s') :
    s.opened + [t].countP Token.opens = s'.opened + [t].countP Token.closes := by
  obtain ⟨opened, awaited⟩ := s
  cases awaited with
  | operand =>
    simp only [advance] at h
    split_ifs at h with hparen hname
    · obtain rfl := Option.some.inj h
      simp [Token.opens, Token.closes, hparen]
    · obtain rfl := Option.some.inj h
      simp [Token.opens, Token.closes, hname]
  | operator =>
    simp only [advance] at h
    split_ifs at h with hop
    obtain rfl := Option.some.inj h
    simp [Token.opens, Token.closes, hop.1]
  | literal =>
    simp only [advance] at h
    split_ifs at h with hnumber
    obtain rfl := Option.some.inj h
    simp [Token.opens, Token.closes, hnumber.1]
  | connective =>
    simp only [advance] at h
    split_ifs at h with hlink hparen
    · obtain rfl := Option.some.inj h
      rcases hlink with hlink | hlink <;> simp [Token.opens, Token.closes, hlink]
    · obtain rfl := Option.some.inj h
      -- a parenthesis is closed only where one is open, so one less is open behind it
      simp only [List.countP_singleton, Token.opens, Token.closes, hparen.1]
      simp
      omega

/-- The open parentheses are the opening ones less the closing ones. -/
theorem follow_opened {s s' : Place} {tokens : List Token} (h : s.follow tokens = some s') :
    s.opened + tokens.countP Token.opens = s'.opened + tokens.countP Token.closes := by
  induction tokens generalizing s with
  | nil =>
    obtain rfl := Option.some.inj h
    rfl
  | cons t rest ih =>
    obtain ⟨next, hnext, hrest⟩ := Option.bind_eq_some_iff.mp h
    have hstep := advance_opened hnext
    have htail := ih hrest
    rw [List.countP_cons, List.countP_cons]
    simp only [List.countP_cons, List.countP_nil] at hstep
    omega

/-! Completions -/

/-- Tokens that complete an expression: what is awaited, and the missing closing parentheses. -/
def completion (s : Place) : List Token :=
  let field : Token := ⟨.identifier, "p", 0⟩
  let less : Token := ⟨.operator, "<", 0⟩
  let zero : Token := ⟨.number, "0", 0⟩
  (match s.awaited with
    | .operand => [field, less, zero]
    | .operator => [less, zero]
    | .literal => [zero]
    | .connective => []) ++ List.replicate s.opened ⟨.rparen, ")", 0⟩

theorem follow_closings (n : Nat) :
    follow ⟨n, .connective⟩ (List.replicate n ⟨.rparen, ")", 0⟩) = some finish := by
  induction n with
  | zero => rfl
  | succ n ih =>
    rw [List.replicate_succ, follow_cons]
    simpa [advance] using ih

/-- Every place can be completed. -/
theorem follow_completion (s : Place) : s.follow s.completion = some finish := by
  obtain ⟨opened, awaited⟩ := s
  have hzero : (Numeral.float? ['0']).isSome := by decide +kernel
  have hless : "<" ∈ operators := by decide
  -- what is awaited comes first; the missing parentheses are closed in every case
  cases awaited <;>
    simpa [completion, follow_append, follow_cons, advance, hzero, hless] using
      follow_closings opened

theorem completion_kind (s : Place) :
    ∀ t ∈ s.completion, t.kind ≠ .eof ∧ t.opens = false := by
  obtain ⟨opened, awaited⟩ := s
  cases awaited <;> simp [completion, Token.opens, or_imp, forall_and]

/-- A completion opens no parenthesis, so it nests no deeper. -/
theorem nestedWithin_append_completion {limit : Nat} {tokens : List Token} (s : Place)
    (h : NestedWithin limit tokens) : NestedWithin limit (tokens ++ s.completion) := by
  refine h.append fun more hmore => ?_
  have hopens : more.countP Token.opens = 0 := by
    apply List.countP_eq_zero.mpr
    intro t ht
    rw [(completion_kind s t (hmore.subset ht)).2]
    decide
  have htokens := h tokens (List.prefix_refl tokens)
  rw [List.countP_append, List.countP_append]
  omega

/-- The number of tokens before the first mistake. -/
def reach (s : Place) : List Token → Nat
  | [] => 0
  | t :: rest =>
    match s.advance t with
    | some next => next.reach rest + 1
    | none => 0

theorem reach_of_stuck {s s' : Place} {read rest : List Token} (h : s.follow read = some s')
    (hstuck : s'.Stuck rest) : s.reach (read ++ rest) = read.length := by
  induction read generalizing s with
  | nil =>
    obtain rfl := Option.some.inj h
    cases rest with
    | nil => rfl
    | cons t rest =>
      have ht : s.advance t = none := hstuck
      simp [reach, ht]
  | cons t read ih =>
    obtain ⟨next, hnext, hread⟩ := Option.bind_eq_some_iff.mp h
    simp [reach, hnext, ih hread]

theorem advance_congr (s : Place) {t t' : Token} (h : t.shape = t'.shape) :
    s.advance t = s.advance t' := by
  obtain ⟨hkind, hvalue⟩ := Prod.mk.inj h
  simp only [advance, hkind, hvalue]

theorem follow_congr {s : Place} {xs ys : List Token} (h : Alike xs ys) :
    s.follow xs = s.follow ys := by
  induction xs generalizing s ys with
  | nil =>
    obtain rfl := List.map_eq_nil_iff.mp h.symm
    rfl
  | cons x xs ih =>
    obtain ⟨y, ys, rfl, hshape, hrest⟩ := List.map_eq_cons_iff.mp h.symm
    rw [follow_cons, follow_cons, advance_congr s hshape]
    exact congrArg _ (funext fun next => ih hrest.symm)

theorem reach_congr {s : Place} {xs ys : List Token} (h : Alike xs ys) :
    s.reach xs = s.reach ys := by
  induction xs generalizing s ys with
  | nil =>
    obtain rfl := List.map_eq_nil_iff.mp h.symm
    rfl
  | cons x xs ih =>
    obtain ⟨y, ys, rfl, hshape, hrest⟩ := List.map_eq_cons_iff.mp h.symm
    simp only [reach, advance_congr s hshape]
    cases s.advance x with
    | none => rfl
    | some next => exact congrArg (· + 1) (ih hrest.symm)

end Place

end Bourse.Filter
