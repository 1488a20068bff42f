import Bourse.Filter.Parser

/-! Derivations of the filter grammar

    expression := term ((and | or) term)*
    term       := comparison | "(" expression ")"
    comparison := identifier operator number

as data. A derivation knows the tokens it derives and the expression it stands for; a list of
tokens has at most one derivation. -/
namespace Bourse.Filter.Grammar

/-- The three tokens of a comparison, and the number that the last one denotes. -/
structure Comparison where
  name : Token
  operator : Token
  literal : Token
  value : Float
  name_kind : name.kind = .identifier
  operator_kind : operator.kind = .operator
  operator_known : operator.value ∈ operators
  literal_kind : literal.kind = .number
  literal_value : Numeral.float? literal.value.toList = some value

mutual

inductive Term where
  | comparison (c : Comparison)
  | group (opening : Token) (inner : Expression) (closing : Token)
      (opening_kind : opening.kind = .lparen) (closing_kind : closing.kind = .rparen)

inductive Expression where
  | chain (first : Term) (more : Links)

/-- What may follow the first term of an expression: `((and | or) term)*`. -/
inductive Links where
  | done
  | link (connective : Token) (kind : connective.kind = .and ∨ connective.kind = .or)
      (right : Term) (more : Links)

end

def Comparison.tokens (c : Comparison) : List Token := [c.name, c.operator, c.literal]

def Comparison.tree (c : Comparison) : Expr := .comparison c.operator.value c.name.value c.value

mutual

/-- The tokens that a term derives. -/
def Term.tokens : Term → List Token
  | .comparison c => c.tokens
  | .group opening inner closing _ _ => opening :: (inner.tokens ++ [closing])

/-- The tokens that an expression derives. -/
def Expression.tokens : Expression → List Token
  | .chain first more => first.tokens ++ more.tokens

/-- The tokens that links derive. -/
def Links.tokens : Links → List Token
  | .done => []
  | .link connective _ right more => connective :: (right.tokens ++ more.tokens)

end

mutual

/-- The meaning of a term; parentheses leave no trace. -/
def Term.tree : Term → Expr
  | .comparison c => c.tree
  | .group _ inner _ _ _ => inner.tree

/-- The meaning of an expression. -/
def Expression.tree : Expression → Expr
  | .chain first more => more.fold first.tree

/-- The meaning of links behind a left side: both connectives group to the left. -/
def Links.fold : Links → Expr → Expr
  | .done, left => left
  | .link connective _ right more, left =>
    more.fold (if connective.kind = .and then .and left right.tree else .or left right.tree)

end

/-- A list of tokens that does not begin with a connective. -/
def NoLink (rest : List Token) : Prop := ∀ t ∈ rest.head?, t.kind ≠ .and ∧ t.kind ≠ .or

theorem noLink_nil : NoLink [] := by simp [NoLink]

theorem noLink_cons {t : Token} {rest : List Token} :
    NoLink (t :: rest) ↔ t.kind ≠ .and ∧ t.kind ≠ .or := by simp [NoLink]

theorem not_noLink_link {connective : Token} {kind : connective.kind = .and ∨ connective.kind = .or}
    {right : Term} {more : Links} {rest : List Token} :
    ¬ NoLink ((Links.link connective kind right more).tokens ++ rest) := by
  simp only [Links.tokens, List.cons_append, noLink_cons]
  rcases kind with h | h
  · exact fun hn => hn.1 h
  · exact fun hn => hn.2 h

/-- Comparisons with the same tokens are the same, as a text denotes one number. -/
theorem Comparison.eq_of_tokens_append {c c' : Comparison} {rest rest' : List Token}
    (h : c.tokens ++ rest = c'.tokens ++ rest') : c = c' ∧ rest = rest' := by
  obtain ⟨name, operator, literal, value, _, _, _, _, hv⟩ := c
  obtain ⟨name', operator', literal', value', _, _, _, _, hv'⟩ := c'
  simp only [tokens, List.cons_append, List.nil_append, List.cons.injEq] at h
  obtain ⟨rfl, rfl, rfl, rfl⟩ := h
  have hval : value = value' := Option.some.inj (hv.symm.trans hv')
  subst hval
  exact ⟨rfl, rfl⟩

mutual

/-- A term is determined by any text that it begins. -/
theorem Term.eq_of_tokens_append (d d' : Term) (rest rest' : List Token)
    (h : d.tokens ++ rest = d'.tokens ++ rest') : d = d' ∧ rest = rest' := by
  cases d with
  | comparison c =>
    cases d' with
    | comparison c' =>
      obtain ⟨rfl, hrest⟩ := Comparison.eq_of_tokens_append h
      exact ⟨rfl, hrest⟩
    | group opening inner closing ho hc =>
      -- the first token tells a comparison from a group
      have hhead : c.name = opening := by
        simpa [Term.tokens, Comparison.tokens] using congrArg List.head? h
      rw [← hhead, c.name_kind] at ho
      contradiction
  | group opening inner closing ho hc =>
    cases d' with
    | comparison c' =>
      have hhead : opening = c'.name := by
        simpa [Term.tokens, Comparison.tokens] using congrArg List.head? h
      rw [hhead, c'.name_kind] at ho
      contradiction
    | group opening' inner' closing' ho' hc' =>
      simp only [Term.tokens, List.cons_append, List.append_assoc, List.nil_append,
        List.cons.injEq] at h
      obtain ⟨rfl, h⟩ := h
      -- a closing parenthesis is no connective, so the inner expression ends before it
      have hn : NoLink (closing :: rest) := noLink_cons.mpr (by simp [hc])
      have hn' : NoLink (closing' :: rest') := noLink_cons.mpr (by simp [hc'])
      obtain ⟨rfl, hr⟩ := Expression.eq_of_tokens_append inner inner' _ _ hn hn' h
      obtain ⟨rfl, rfl⟩ := List.cons.inj hr
      exact ⟨rfl, rfl⟩

/-- An expression is determined by any text that it begins and in which no connective follows. -/
theorem Expression.eq_of_tokens_append (d d' : Expression) (rest rest' : List Token)
    (hn : NoLink rest) (hn' : NoLink rest') (h : d.tokens ++ rest = d'.tokens ++ rest') :
    d = d' ∧ rest = rest' := by
  obtain ⟨first, more⟩ := d
  obtain ⟨first', more'⟩ := d'
  simp only [Expression.tokens, List.append_assoc] at h
  obtain ⟨rfl, hmore⟩ := Term.eq_of_tokens_append first first' _ _ h
  obtain ⟨rfl, hr⟩ := Links.eq_of_tokens_append more more' rest rest' hn hn' hmore
  exact ⟨rfl, hr⟩

theorem Links.eq_of_tokens_append (d d' : Links) (rest rest' : List Token)
    (hn : NoLink rest) (hn' : NoLink rest') (h : d.tokens ++ rest = d'.tokens ++ rest') :
    d = d' ∧ rest = rest' := by
  cases d with
  | done =>
    cases d' with
    | done => exact ⟨rfl, h⟩
    | link connective' kind' right' more' =>
      -- only one of the two texts goes on with a connective
      rw [show rest = _ from h] at hn
      exact absurd hn not_noLink_link
  | link connective kind right more =>
    cases d' with
    | done =>
      rw [show rest' = _ from h.symm] at hn'
      exact absurd hn' not_noLink_link
    | link connective' kind' right' more' =>
      simp only [Links.tokens, List.cons_append, List.append_assoc, List.cons.injEq] at h
      obtain ⟨rfl, hright⟩ := h
      obtain ⟨rfl, hmore⟩ := Term.eq_of_tokens_append right right' _ _ hright
      obtain ⟨rfl, hr⟩ := Links.eq_of_tokens_append more more' rest rest' hn hn' hmore
      exact ⟨rfl, hr⟩

end

/-- The grammar is unambiguous: a list of tokens has at most one derivation. -/
theorem Expression.tokens_injective : Function.Injective Expression.tokens := by
  intro d d' h
  have happ : d.tokens ++ [] = d'.tokens ++ [] := by rw [h]
  exact (Expression.eq_of_tokens_append d d' [] [] noLink_nil noLink_nil happ).1

end Bourse.Filter.Grammar
