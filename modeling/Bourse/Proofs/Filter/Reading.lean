import Bourse.Proofs.Filter.Grammar
import Bourse.Proofs.Filter.Place
import Mathlib.Logic.Basic

/-! Everything that reading can end in. What a part of the parser reads is derived by the grammar;
where it refuses the input, the tokens before the blamed one can be followed from the place where
the part began, and the blamed one cannot. -/
namespace Bourse.Filter

/-- An error is about a token: it shows the token, or its text, and carries its position. -/
def SyntaxError.Blames : SyntaxError → Token → Prop
  | .unexpected _ found, t => found = t
  | .unbalanced position, t => t.kind = .rparen ∧ position = t.position
  | .badNumber text position, t =>
    t.kind = .number ∧ text = t.value ∧ position = t.position
  | _, _ => False

/-- Why reading from a place on is refused: behind some tokens that can be followed stands one
parenthesis too many, or the blamed token, at which the place is stuck. -/
def Refused (stop : Token) (s : Place) (depth : Nat) (input : List Token) (fault : SyntaxError) :
    Prop :=
  ∃ read rest s', input = read ++ rest ∧ s.follow read = some s' ∧
    ((fault = .tooDeep ∧ s'.opened = s.opened + depth ∧ ∃ t ∈ rest.head?, t.kind = .lparen) ∨
      (fault.Blames (rest.headD stop) ∧ s'.Stuck rest))

/-- What reading may end in: what was read is good, or the input is refused at every place with
the same need. -/
def Outcome (stop : Token) (awaited : Awaited) (depth : Nat) (input : List Token)
    (Good : Expr → List Token → Prop) {bound : Nat}
    (result : Except SyntaxError { out : Expr × List Token // out.2.length < bound }) : Prop :=
  match result with
  | .ok out => Good out.1.1 out.1.2
  | .error fault => ∀ n, Refused stop ⟨n, awaited⟩ depth input fault

theorem Refused.here {stop : Token} {s : Place} {depth : Nat} {input : List Token}
    {fault : SyntaxError} (hblame : fault.Blames (input.headD stop)) (hstuck : s.Stuck input) :
    Refused stop s depth input fault :=
  ⟨[], input, s, rfl, rfl, Or.inr ⟨hblame, hstuck⟩⟩

/-- A refusal behind tokens that can be followed; parentheses they open count. -/
theorem Refused.after {stop : Token} {s s' : Place} {depth depth' : Nat} {whole : List Token}
    {fault : SyntaxError} (before input : List Token) (hwhole : whole = before ++ input)
    (hfollow : s.follow before = some s') (hdepth : s.opened + depth = s'.opened + depth')
    (h : Refused stop s' depth' input fault) : Refused stop s depth whole fault := by
  obtain ⟨read, rest, s'', rfl, hread, hwhy⟩ := h
  refine ⟨before ++ read, rest, s'', hwhole.trans (List.append_assoc ..).symm, ?_, ?_⟩
  · rw [Place.follow_append_of hfollow, hread]
  · rw [hdepth]
    exact hwhy

mutual

/-- A term leads from an operand to a connective and leaves no parenthesis open. -/
theorem Grammar.Term.follow_tokens (d : Grammar.Term) (n : Nat) :
    Place.follow ⟨n, .operand⟩ d.tokens = some ⟨n, .connective⟩ := by
  cases d with
  | comparison c =>
    simp [Grammar.Term.tokens, Grammar.Comparison.tokens, Place.follow_cons, Place.advance,
      c.name_kind, c.operator_kind, c.operator_known, c.literal_kind, c.literal_value]
  | group opening inner closing ho hc =>
    have hopening : Place.advance ⟨n, .operand⟩ opening = some ⟨n + 1, .operand⟩ := by
      simp [Place.advance, ho]
    have hinner := inner.follow_tokens (n + 1)
    rw [Grammar.Term.tokens, Place.follow_cons, hopening, Option.bind_some,
      Place.follow_append_of hinner, Place.follow_cons]
    simp [Place.advance, hc]

theorem Grammar.Expression.follow_tokens (d : Grammar.Expression) (n : Nat) :
    Place.follow ⟨n, .operand⟩ d.tokens = some ⟨n, .connective⟩ := by
  obtain ⟨first, more⟩ := d
  rw [Grammar.Expression.tokens, Place.follow_append_of (first.follow_tokens n)]
  exact more.follow_tokens n

theorem Grammar.Links.follow_tokens (d : Grammar.Links) (n : Nat) :
    Place.follow ⟨n, .connective⟩ d.tokens = some ⟨n, .connective⟩ := by
  cases d with
  | done => rfl
  | link connective kind right more =>
    have hconnective : Place.advance ⟨n, .connective⟩ connective = some ⟨n, .operand⟩ := by
      simp [Place.advance, kind]
    rw [Grammar.Links.tokens, Place.follow_cons, hconnective, Option.bind_some,
      Place.follow_append_of (right.follow_tokens n)]
    exact more.follow_tokens n

end

theorem comparison_outcome (stop : Token) (depth : Nat) (input : List Token)
    (hhead : ∀ t ∈ input.head?, t.kind ≠ .lparen) :
    Outcome stop .operand depth input
      (fun e rest => ∃ c : Grammar.Comparison, c.tree = e ∧ input = c.tokens ++ rest)
      (comparison stop input) := by
  cases input with
  | nil => exact fun n => Refused.here rfl (by simp [Place.Stuck, Place.finish])
  | cons name rest =>
    have hparen : name.kind ≠ .lparen := hhead name rfl
    -- a mistake is met at the name, behind the name, or behind the operator
    rw [comparison.eq_def]
    dsimp only
    split_ifs with hname
    · exact fun n => Refused.here rfl (by simp [Place.Stuck, Place.advance, hparen, hname])
    have hname : name.kind = .identifier := not_not.mp hname
    have hfield (n : Nat) : Place.follow ⟨n, .operand⟩ [name] = some ⟨n, .operator⟩ := by
      simp [Place.follow_cons, Place.advance, hname]
    cases rest with
    | nil =>
      exact fun n => Refused.after [name] _ rfl (hfield n) rfl
        (Refused.here rfl (by simp [Place.Stuck, Place.finish]))
    | cons op rest =>
      dsimp only
      split_ifs with hop
      · exact fun n => Refused.after [name] _ rfl (hfield n) rfl
          (Refused.here rfl (by simpa [Place.Stuck, Place.advance, ← not_and_or] using hop))
      obtain ⟨hkind, hknown⟩ : op.kind = .operator ∧ op.value ∈ operators := by
        simpa [not_or] using hop
      have hoperator (n : Nat) : Place.follow ⟨n, .operand⟩ [name, op] = some ⟨n, .literal⟩ := by
        simp [Place.follow_cons, Place.advance, hname, hkind, hknown]
      cases rest with
      | nil =>
        exact fun n => Refused.after [name, op] _ rfl (hoperator n) rfl
          (Refused.here rfl (by simp [Place.Stuck, Place.finish]))
      | cons literal rest =>
        dsimp only
        split_ifs with hliteral
        · exact fun n => Refused.after [name, op] _ rfl (hoperator n) rfl
            (Refused.here rfl (by simp [Place.Stuck, Place.advance, hliteral]))
        have hliteral : literal.kind = .number := not_not.mp hliteral
        -- a number may be spelled in a way that denotes none
        cases hvalue : Numeral.float? literal.value.toList with
        | none =>
          exact fun n => Refused.after [name, op] _ rfl (hoperator n) rfl
            (Refused.here ⟨hliteral, rfl, rfl⟩ (by simp [Place.Stuck, Place.advance, hvalue]))
        | some x =>
          exact ⟨⟨name, op, literal, x, hname, hkind, hknown, hliteral, hvalue⟩, rfl, rfl⟩

mutual

theorem term_outcome (stop : Token) (depth : Nat) (input : List Token) :
    Outcome stop .operand depth input
      (fun e rest => ∃ d : Grammar.Term, d.tree = e ∧ input = d.tokens ++ rest)
      (term stop depth input) := by
  rw [term.eq_def]
  match input with
  | [] => exact fun n => Refused.here rfl (by simp [Place.Stuck, Place.finish])
  | opening :: rest =>
    dsimp only
    split_ifs with hparen hdepth
    · -- no further parenthesis may be opened
      refine fun n => ⟨[], opening :: rest, _, rfl, rfl, Or.inl ⟨rfl, ?_, opening, rfl, hparen⟩⟩
      simp [hdepth]
    · -- the expression inside is read one parenthesis deeper
      have hopening (n : Nat) : Place.follow ⟨n, .operand⟩ [opening] = some ⟨n + 1, .operand⟩ := by
        simp [Place.follow_cons, Place.advance, hparen]
      have hopened (n : Nat) : n + depth = n + 1 + (depth - 1) := by omega
      have hinside := expression_outcome stop (depth - 1) rest
      cases hresult : expression stop (depth - 1) rest with
      | error fault =>
        rw [hresult] at hinside
        exact fun n => Refused.after [opening] rest rfl (hopening n) (hopened n) (hinside (n + 1))
      | ok out =>
        rw [hresult] at hinside
        obtain ⟨⟨inner, rest'⟩, hlength⟩ := out
        obtain ⟨d, hd, hsplit, hlink⟩ := hinside
        dsimp only at hd hsplit hlink
        have hinner (n : Nat) : Place.follow ⟨n, .operand⟩ (opening :: d.tokens) =
            some ⟨n + 1, .connective⟩ := by
          rw [← List.singleton_append, Place.follow_append_of (hopening n)]
          exact d.follow_tokens (n + 1)
        match rest' with
        | [] =>
          exact fun n => Refused.after _ [] (congrArg _ hsplit) (hinner n) (hopened n)
            (Refused.here rfl (by simp [Place.Stuck, Place.finish]))
        | closing :: rest' =>
          dsimp only
          split_ifs with hclosing
          · exact ⟨.group opening d closing hparen hclosing, hd,
              by simp [hsplit, Grammar.Term.tokens]⟩
          · -- the expression ended here, so the token is no connective, and it closes nothing
            have hno := Grammar.noLink_cons.mp hlink
            exact fun n => Refused.after _ (closing :: rest') (congrArg _ hsplit) (hinner n)
              (hopened n) (Refused.here rfl (by simp [Place.Stuck, Place.advance, hclosing, hno]))
    · have hhead : ∀ t ∈ (opening :: rest).head?, t.kind ≠ .lparen := by simpa using hparen
      have hcomparison := comparison_outcome stop depth (opening :: rest) hhead
      cases hresult : comparison stop (opening :: rest) with
      | error fault =>
        rw [hresult] at hcomparison
        exact hcomparison
      | ok out =>
        rw [hresult] at hcomparison
        obtain ⟨c, htree, hsplit⟩ := hcomparison
        exact ⟨.comparison c, htree, hsplit⟩
termination_by (input.length, 0)

theorem expression_outcome (stop : Token) (depth : Nat) (input : List Token) :
    Outcome stop .operand depth input
      (fun e rest => ∃ d : Grammar.Expression, d.tree = e ∧ input = d.tokens ++ rest ∧
        Grammar.NoLink rest)
      (expression stop depth input) := by
  rw [expression]
  have hterm := term_outcome stop depth input
  cases hresult : term stop depth input with
  | error fault =>
    rw [hresult] at hterm
    exact hterm
  | ok out =>
    rw [hresult] at hterm
    obtain ⟨⟨left, rest⟩, hlength⟩ := out
    obtain ⟨first, hfirst, hsplit⟩ := hterm
    dsimp only at hfirst hsplit hlength ⊢
    have hchain := chain_outcome stop depth left rest input.length hlength
    cases hmore : chain stop depth left rest input.length hlength with
    | error fault =>
      rw [hmore] at hchain
      exact fun n => Refused.after _ _ hsplit (first.follow_tokens n) rfl (hchain n)
    | ok out =>
      rw [hmore] at hchain
      obtain ⟨more, hfold, hrest, hlink⟩ := hchain
      refine ⟨.chain first more, ?_, ?_, hlink⟩
      · rw [Grammar.Expression.tree, hfirst, hfold]
      · calc
          input = first.tokens ++ rest := hsplit
          _ = first.tokens ++ (more.tokens ++ out.1.2) := by rw [← hrest]
          _ = _ := (List.append_assoc ..).symm
termination_by (input.length, 1)

theorem chain_outcome (stop : Token) (depth : Nat) (left : Expr) (input : List Token)
    (bound : Nat) (hbound : input.length < bound) :
    Outcome stop .connective depth input
      (fun e rest => ∃ d : Grammar.Links, d.fold left = e ∧ input = d.tokens ++ rest ∧
        Grammar.NoLink rest)
      (chain stop depth left input bound hbound) := by
  rw [chain.eq_def]
  match input with
  | [] => exact ⟨.done, rfl, rfl, Grammar.noLink_nil⟩
  | connective :: rest =>
    dsimp only
    by_cases hlink : connective.kind = .and ∨ connective.kind = .or
    · rw [if_pos hlink]
      have hconnective (n : Nat) : Place.follow ⟨n, .connective⟩ [connective] =
          some ⟨n, .operand⟩ := by
        simp [Place.follow_cons, Place.advance, hlink]
      have hterm := term_outcome stop depth rest
      cases hresult : term stop depth rest with
      | error fault =>
        rw [hresult] at hterm
        exact fun n => Refused.after [connective] rest rfl (hconnective n) rfl (hterm n)
      | ok out =>
        rw [hresult] at hterm
        obtain ⟨⟨right, rest'⟩, hlength⟩ := out
        obtain ⟨d, hd, hsplit⟩ := hterm
        dsimp only at hd hsplit ⊢
        have hshorter : rest'.length < rest.length := hlength
        have hright (n : Nat) : Place.follow ⟨n, .connective⟩ (connective :: d.tokens) =
            some ⟨n, .connective⟩ := by
          rw [← List.singleton_append, Place.follow_append_of (hconnective n)]
          exact d.follow_tokens n
        -- what was read so far is the left side of the links that follow
        have hchain := chain_outcome stop depth
          (if connective.kind = .and then .and left right else .or left right) rest' bound
          (by simp only [List.length_cons] at hbound; omega)
        cases hmore : chain stop depth
            (if connective.kind = .and then .and left right else .or left right) rest' bound
            (by simp only [List.length_cons] at hbound; omega) with
        | error fault =>
          rw [hmore] at hchain
          exact fun n => Refused.after _ _ (congrArg _ hsplit) (hright n) rfl (hchain n)
        | ok out =>
          rw [hmore] at hchain
          obtain ⟨more, hfold, hrest, hnext⟩ := hchain
          refine ⟨.link connective hlink d more, ?_, ?_, hnext⟩
          · rw [Grammar.Links.fold, hd, hfold]
          · calc
              connective :: rest = connective :: (d.tokens ++ rest') := congrArg _ hsplit
              _ = connective :: (d.tokens ++ (more.tokens ++ out.1.2)) := by rw [← hrest]
              _ = _ := by rw [Grammar.Links.tokens, List.cons_append, List.append_assoc]
    · rw [if_neg hlink]
      exact ⟨.done, rfl, rfl, Grammar.noLink_cons.mpr (not_or.mp hlink)⟩
termination_by (input.length, 2)

end

end Bourse.Filter
