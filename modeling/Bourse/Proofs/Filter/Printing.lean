import Bourse.Proofs.Filter.Parsing
import Bourse.Proofs.Filter.Scanning
import Bourse.Proofs.Number.Digits

/-! Filters written as text. A tree is written from left to right with one space between any two
tokens; the left side of a combination stands bare, and the right side in parentheses if it is a
combination itself. Read back, the text gives the tree again, and so it does with more parentheses
than it needs. -/
namespace Bourse.Filter

open Numeral

/-! Decimal texts -/

/-- A decimal text: perhaps a minus sign, digits, and perhaps a point with digits behind it. -/
inductive IsDecimal : List Char → Prop
  | whole (negative : Bool) {digits : List Char} (hne : digits ≠ [])
    (hdigits : ∀ c ∈ digits, (Text.decimalValue? c).isSome = true) :
    IsDecimal (signText negative ++ digits)
  | fraction (negative : Bool) {digits more : List Char} (hne : digits ≠ [])
    (hdigits : ∀ c ∈ digits, (Text.decimalValue? c).isSome = true)
    (hmore : ∀ c ∈ more, (Text.decimalValue? c).isSome = true) :
    IsDecimal (signText negative ++ (digits ++ '.' :: more))

theorem isDigit_of_hasPlace {c : Char} (h : (Text.decimalValue? c).isSome = true) :
    Text.isDigit c = true := by
  rw [Text.isDigit, h, Bool.true_or]

theorem isNumberChar_of_hasPlace {c : Char} (h : (Text.decimalValue? c).isSome = true) :
    isNumberChar c = true := by
  rw [isNumberChar, isDigit_of_hasPlace h, Bool.true_or]

/-- What stands behind the sign begins with a digit and goes on with digits and points. -/
theorem IsDecimal.exists_digits {text : List Char} (h : IsDecimal text) :
    ∃ negative c more, text = signText negative ++ c :: more ∧ Text.isDigit c = true ∧
      ∀ d ∈ more, isNumberChar d = true := by
  cases h with
  | @whole negative digits hne hdigits =>
    obtain ⟨c, more, rfl⟩ := List.exists_cons_of_ne_nil hne
    obtain ⟨hc, hmore⟩ := List.forall_mem_cons.mp hdigits
    refine ⟨negative, c, more, rfl, isDigit_of_hasPlace hc, ?_⟩
    intro d hd
    exact isNumberChar_of_hasPlace (hmore d hd)
  | @fraction negative digits places hne hdigits hplaces =>
    obtain ⟨c, more, rfl⟩ := List.exists_cons_of_ne_nil hne
    obtain ⟨hc, hmore⟩ := List.forall_mem_cons.mp hdigits
    refine ⟨negative, c, more ++ '.' :: places, rfl, isDigit_of_hasPlace hc, ?_⟩
    refine List.forall_mem_append.mpr ⟨?_, List.forall_mem_cons.mpr ⟨Bool.or_true _, ?_⟩⟩
    · intro d hd
      exact isNumberChar_of_hasPlace (hmore d hd)
    · intro d hd
      exact isNumberChar_of_hasPlace (hplaces d hd)

theorem isNumberChar_of_isDigit {c : Char} (h : Text.isDigit c = true) : isNumberChar c = true := by
  rw [isNumberChar, h, Bool.true_or]

/-- A number begins with a sign or a digit and takes the digits and points behind it. -/
theorem lexeme_of_number {c : Char} {tail : List Char} (hstart : startsNumber c tail = true)
    (htail : ∀ d ∈ tail, isNumberChar d = true) :
    lexeme c tail = .ok ⟨.number, c :: tail, tail⟩ := by
  have htake : tail.takeWhile isNumberChar = tail := List.takeWhile_eq_self_iff.mpr htail
  rw [lexeme_of_startsNumber hstart, numberLexeme_eq, leadsName_of_number htail, htake]
  rfl

theorem IsDecimal.lexeme_eq {text : List Char} (h : IsDecimal text) :
    ∃ c tail, text = c :: tail ∧ Text.isBlank c = false ∧
      lexeme c tail = .ok ⟨.number, c :: tail, tail⟩ := by
  obtain ⟨negative, c, more, rfl, hc, hmore⟩ := h.exists_digits
  cases negative with
  | false =>
    refine ⟨c, more, rfl, Text.isBlank_of_isDigit hc, lexeme_of_number ?_ hmore⟩
    rw [startsNumber, hc]
    rfl
  | true =>
    refine ⟨'-', c :: more, rfl, by decide +kernel, lexeme_of_number ?_ ?_⟩
    · -- a minus sign begins a number in front of a digit
      rw [startsNumber, List.head?_cons, Option.any_some, hc]
      exact Bool.or_true _
    · exact List.forall_mem_cons.mpr ⟨isNumberChar_of_isDigit hc, hmore⟩

theorem isLetter_of_isNumberChar_or_minus {c : Char} (h : c = '-' ∨ isNumberChar c = true) :
    Text.isLetter c = false := by
  rcases h with rfl | hnumber
  · decide
  · exact isLetter_of_isNumberChar hnumber

theorem isSurround_of_isNumberChar_or_minus {c : Char} (h : c = '-' ∨ isNumberChar c = true) :
    isSurround c = false := by
  rcases h with rfl | hnumber
  · decide +kernel
  · rw [isNumberChar, Bool.or_eq_true, beq_iff_eq] at hnumber
    rcases hnumber with hdigit | rfl
    · exact isSurround_of_digit hdigit
    · decide +kernel

/-- A decimal text denotes a number. -/
theorem IsDecimal.isSome_float? {text : List Char} (h : IsDecimal text) :
    (float? text).isSome = true := by
  have hchars : ∀ c ∈ text, c = '-' ∨ isNumberChar c = true := by
    obtain ⟨negative, c, more, rfl, hc, hmore⟩ := h.exists_digits
    refine List.forall_mem_append.mpr ⟨?_, ?_⟩
    · intro d hd
      cases negative with
      | true => exact .inl (List.mem_singleton.mp hd)
      | false => exact absurd hd List.not_mem_nil
    · intro d hd
      rcases List.mem_cons.mp hd with rfl | hd
      · exact .inr (isNumberChar_of_isDigit hc)
      · exact .inr (hmore d hd)
  have hletters : ∀ c ∈ text, Text.isLetter c = false := fun c hc =>
    isLetter_of_isNumberChar_or_minus (hchars c hc)
  have hbody : body text = text := body_of_not_isSurround fun c hc =>
    isSurround_of_isNumberChar_or_minus (hchars c hc)
  rw [float?_of_not_isLetter hletters, hbody, Option.isSome_map]
  cases h with
  | whole negative hne hdigits => rw [decimal?_whole negative hdigits hne]; rfl
  | fraction negative hne hdigits hmore =>
    rw [decimal?_fraction negative hdigits hne hmore]
    rfl

/-! Trees as they are written -/

/-- A comparison as it is written: a name, which is read as one word, an operator and a decimal
text. -/
structure Condition where
  name : String
  word : String
  operator : String
  literal : String
  name_read : tokens name = .ok [⟨.identifier, word, 0⟩, ⟨.eof, "", name.length⟩]
  operator_known : operator ∈ operators
  literal_decimal : IsDecimal literal.toList

namespace Condition

/-- The number that the literal of a comparison denotes. -/
def value (c : Condition) : Float :=
  (float? c.literal.toList).get c.literal_decimal.isSome_float?

def tree (c : Condition) : Expr := .comparison c.operator c.word c.value

def text (c : Condition) : String := c.name ++ " " ++ c.operator ++ " " ++ c.literal

end Condition

/-- The two ways to combine trees. -/
inductive Connective where
  | and
  | or

namespace Connective

def kind : Connective → Kind
  | and => .and
  | or => .or

def word : Connective → String
  | and => "and"
  | or => "or"

def combine : Connective → Expr → Expr → Expr
  | and => .and
  | or => .or

end Connective

/-- A tree as it is written, with further parentheses around any of its parts. -/
inductive Spelling where
  | condition (c : Condition)
  | combination (connective : Connective) (left right : Spelling)
  | wrapped (inner : Spelling)

namespace Spelling

/-- The tree that is written; parentheses leave no trace in it. -/
def tree : Spelling → Expr
  | condition c => c.tree
  | combination connective left right => connective.combine left.tree right.tree
  | wrapped inner => inner.tree

/-- Whether the tree is a combination, so that it has to be put in parentheses on the right. -/
def combines : Spelling → Bool
  | condition _ => false
  | combination _ _ _ => true
  | wrapped inner => inner.combines

def enclosed (text : String) : String := "( " ++ text ++ " )"

/-- The written text. -/
def text : Spelling → String
  | condition c => c.text
  | combination connective left right =>
    left.text ++ " " ++ connective.word ++ " " ++
      (if right.combines then enclosed right.text else right.text)
  | wrapped inner => enclosed inner.text

/-- How many parentheses are open at once. -/
def depth : Spelling → Nat
  | condition _ => 0
  | combination _ left right =>
    max left.depth (if right.combines then right.depth + 1 else right.depth)
  | wrapped inner => inner.depth + 1

end Spelling

/-! Tokens of written trees -/

/-- Whether a text is read as some tokens from a position on, with no more parentheses open at once
than a limit allows. -/
structure Reads (limit position : Nat) (text : String) (tokens : List Token) : Prop where
  scanned : Scanned [] position text.toList tokens
  nested : NestedWithin limit tokens

section Reads

variable {limit limit' position : Nat} {text text' : String} {tokens tokens' : List Token}

theorem NestedWithin.weaken (h : NestedWithin limit tokens) (hle : limit ≤ limit') :
    NestedWithin limit' tokens := by
  intro before hbefore
  have hcount := h before hbefore
  omega

/-- A token that is no parenthesis. -/
theorem nestedWithin_single {t : Token} (ht : t.opens = false) : NestedWithin limit [t] := by
  intro before hbefore
  have hopens : before.countP Token.opens = 0 := by
    apply List.countP_eq_zero.mpr
    intro t' ht'
    rw [List.mem_singleton.mp (hbefore.subset ht'), ht]
    exact Bool.false_ne_true
  omega

theorem NestedWithin.append_balanced (h : NestedWithin limit tokens)
    (hbalanced : tokens.countP Token.opens = tokens.countP Token.closes)
    (h' : NestedWithin limit tokens') : NestedWithin limit (tokens ++ tokens') := by
  refine h.append fun more hmore => ?_
  have hcount := h' more hmore
  rw [List.countP_append, List.countP_append]
  omega

theorem NestedWithin.enclosed (h : NestedWithin limit tokens) {opening closing : Token}
    (hopening : opening.kind = .lparen) (hclosing : closing.kind = .rparen) :
    NestedWithin (limit + 1) (opening :: (tokens ++ [closing])) := by
  have hopens : opening.opens = true := by simp [Token.opens, hopening]
  have hcloses : opening.closes = false := by simp [Token.closes, hopening]
  rw [← List.singleton_append]
  have hsingle : NestedWithin (limit + 1) [opening] := by
    intro before hbefore
    have hlength : before.countP Token.opens ≤ before.length := List.countP_le_length
    have hone : before.length ≤ 1 := hbefore.length_le
    omega
  refine hsingle.append fun more hmore => ?_
  -- one more parenthesis is open than inside, and closing one opens none
  have hinside : NestedWithin limit (tokens ++ [closing]) := by
    refine h.append fun last hlast => ?_
    have hlastOpens : last.countP Token.opens = 0 := by
      apply List.countP_eq_zero.mpr
      intro t ht
      rw [List.mem_singleton.mp (hlast.subset ht)]
      simp [Token.opens, hclosing]
    have hall := h tokens (List.prefix_refl tokens)
    rw [List.countP_append, List.countP_append]
    omega
  have hcount := hinside more hmore
  simp only [List.singleton_append, List.countP_cons, hopens, hcloses]
  simp
  omega

theorem Reads.weaken (h : Reads limit position text tokens) (hle : limit ≤ limit') :
    Reads limit' position text tokens :=
  ⟨h.scanned, h.nested.weaken hle⟩

/-- Two texts with a space between them. -/
theorem Reads.join (h : Reads limit position text tokens)
    (hbalanced : tokens.countP Token.opens = tokens.countP Token.closes)
    (h' : Reads limit (position + text.length + 1) text' tokens') :
    Reads limit position (text ++ " " ++ text') (tokens ++ tokens') := by
  refine ⟨?_, h.nested.append_balanced hbalanced h'.nested⟩
  have hbehind := h'.scanned
  rw [← String.length_toList] at hbehind
  have hjoined := h.scanned.join Text.isBlank_space hbehind
  rwa [String.toList_append, String.toList_append, List.append_assoc]

end Reads

/-! Single tokens -/

theorem reads_single {text : String} {c : Char} {kind : Kind} {value tail : List Char}
    (htext : text.toList = c :: tail) (hc : Text.isBlank c = false)
    (hfound : lexeme c tail = .ok ⟨kind, value, tail⟩) (hkind : kind ≠ .lparen)
    (limit position : Nat) :
    Reads limit position text [⟨kind, String.ofList value, position⟩] := by
  constructor
  · rw [htext]
    exact Scanned.single hc hfound position
  · apply nestedWithin_single
    simp [Token.opens, hkind]

theorem reads_connective (connective : Connective) (limit position : Nat) :
    ∃ t : Token, t.kind = connective.kind ∧ Reads limit position connective.word [t] := by
  cases connective with
  | and =>
    have hlexeme : lexeme 'a' ['n', 'd'] = .ok ⟨.and, ['a', 'n', 'd'], ['n', 'd']⟩ := by
      decide +kernel
    exact ⟨_, rfl, reads_single rfl (by decide +kernel) hlexeme (by decide) limit position⟩
  | or =>
    have hlexeme : lexeme 'o' ['r'] = .ok ⟨.or, ['o', 'r'], ['r']⟩ := by
      decide +kernel
    exact ⟨_, rfl, reads_single rfl (by decide +kernel) hlexeme (by decide) limit position⟩

theorem reads_operator {operator : String} (h : operator ∈ operators) (limit position : Nat) :
    Reads limit position operator [⟨.operator, operator, position⟩] := by
  have hlexeme : ∀ operator ∈ operators, ∃ c tail, operator.toList = c :: tail ∧
      Text.isBlank c = false ∧ lexeme c tail = .ok ⟨.operator, operator.toList, tail⟩ := by
    simp only [operators, List.forall_mem_cons]
    refine ⟨⟨'<', [], rfl, ?_, ?_⟩, ⟨'>', [], rfl, ?_, ?_⟩, ⟨'<', ['='], rfl, ?_, ?_⟩,
      ⟨'>', ['='], rfl, ?_, ?_⟩, ⟨'=', [], rfl, ?_, ?_⟩, ⟨'!', ['='], rfl, ?_, ?_⟩,
      List.forall_mem_nil _⟩ <;>
    decide +kernel
  obtain ⟨c, tail, htext, hc, hfound⟩ := hlexeme operator h
  have hreads := reads_single htext hc hfound (by decide) limit position
  rwa [String.ofList_toList] at hreads

theorem reads_literal {literal : String} (h : IsDecimal literal.toList) (limit position : Nat) :
    Reads limit position literal [⟨.number, literal, position⟩] := by
  obtain ⟨c, tail, htext, hc, hfound⟩ := h.lexeme_eq
  have hreads := reads_single htext hc hfound (by decide) limit position
  rwa [← htext, String.ofList_toList] at hreads

theorem reads_name (c : Condition) (limit position : Nat) :
    Reads limit position c.name [⟨.identifier, c.word, position⟩] := by
  obtain ⟨read, hscanned, hread⟩ := scanned_of_tokens c.name_read
  -- the token of the name is all that was read before the end
  have hname : read = [⟨.identifier, c.word, 0⟩] := by
    have happend : [(⟨.identifier, c.word, 0⟩ : Token)] ++ [⟨.eof, "", c.name.length⟩] =
      read ++ [⟨.eof, "", c.name.length⟩] := hread
    exact (List.append_cancel_right happend).symm
  rw [hname] at hscanned
  have hshift := hscanned.shift position
  rw [Nat.zero_add, List.map_singleton, Int.zero_add] at hshift
  exact ⟨hshift, nestedWithin_single (by simp [Token.opens])⟩

/-! Derivations of written trees -/

namespace Grammar

/-- Links with one more behind them. -/
def Links.snoc (connective : Token) (kind : connective.kind = .and ∨ connective.kind = .or)
    (right : Term) : Links → Links
  | .done => .link connective kind right .done
  | .link first hfirst term more => .link first hfirst term (more.snoc connective kind right)

variable {connective : Token} {kind : connective.kind = .and ∨ connective.kind = .or} {right : Term}

theorem Links.tokens_snoc : (more : Links) →
    (more.snoc connective kind right).tokens = more.tokens ++ connective :: right.tokens
  | .done => by simp [Links.snoc, Links.tokens]
  | .link first hfirst term more => by
    simp [Links.snoc, Links.tokens, Links.tokens_snoc more]

theorem Links.fold_snoc : (more : Links) → (left : Expr) →
    (more.snoc connective kind right).fold left =
      if connective.kind = .and then .and (more.fold left) right.tree
      else .or (more.fold left) right.tree
  | .done, left => by simp [Links.snoc, Links.fold]
  | .link first hfirst term more, left => by
    simp [Links.snoc, Links.fold, Links.fold_snoc more]

/-- An expression with one more term on its right. -/
def Expression.snoc (connective : Token) (kind : connective.kind = .and ∨ connective.kind = .or)
    (right : Term) : Expression → Expression
  | .chain first more => .chain first (more.snoc connective kind right)

theorem Expression.tokens_snoc (d : Expression) :
    (d.snoc connective kind right).tokens = d.tokens ++ connective :: right.tokens := by
  obtain ⟨first, more⟩ := d
  rw [Expression.snoc, Expression.tokens, Expression.tokens, Links.tokens_snoc, List.append_assoc]

theorem Expression.tree_snoc (d : Expression) :
    (d.snoc connective kind right).tree =
      if connective.kind = .and then .and d.tree right.tree else .or d.tree right.tree := by
  obtain ⟨first, more⟩ := d
  rw [Expression.snoc, Expression.tree, Expression.tree, Links.fold_snoc]

/-- An expression closes the parentheses that it opens. -/
theorem Expression.balanced (d : Expression) :
    d.tokens.countP Token.opens = d.tokens.countP Token.closes := by
  have hcount := Place.follow_opened (d.follow_tokens 0)
  rwa [Nat.zero_add, Nat.zero_add] at hcount

end Grammar

theorem reads_enclosed {limit position : Nat} {text : String} {tokens : List Token}
    (h : Reads limit (position + 2) text tokens) :
    ∃ opening closing : Token, opening.kind = .lparen ∧ closing.kind = .rparen ∧
      Reads (limit + 1) position (Spelling.enclosed text) (opening :: (tokens ++ [closing])) := by
  have hopening : lexeme '(' [] = .ok ⟨.lparen, ['('], []⟩ := by decide +kernel
  have hclosing : lexeme ')' [] = .ok ⟨.rparen, [')'], []⟩ := by decide +kernel
  refine ⟨⟨.lparen, String.ofList ['('], position⟩,
    ⟨.rparen, String.ofList [')'], (position + 2 + text.toList.length + 1 : Nat)⟩,
    rfl, rfl, ?_, h.nested.enclosed rfl rfl⟩
  have hfirst := Scanned.single (by decide +kernel) hopening position
  have hlast := Scanned.single (by decide +kernel) hclosing (position + 2 + text.toList.length + 1)
  have hjoined := hfirst.join Text.isBlank_space (h.scanned.join Text.isBlank_space hlast)
  have htext : (Spelling.enclosed text).toList = ['('] ++ ' ' :: (text.toList ++ ' ' :: [')']) := by
    rw [Spelling.enclosed, String.toList_append, String.toList_append]
    simp
  rw [htext]
  exact hjoined

theorem reads_condition (c : Condition) (limit position : Nat) :
    ∃ d : Grammar.Comparison, Reads limit position c.text d.tokens ∧ d.tree = c.tree := by
  have hvalue : float? c.literal.toList = some c.value := (Option.some_get _).symm
  rw [Condition.tree]
  -- what the number is does not matter here, and it is not to be computed
  generalize c.value = x at hvalue ⊢
  have hname := reads_name c limit position
  have hoperator := reads_operator c.operator_known limit (position + c.name.length + 1)
  have hboth := hname.join (by simp [Token.opens, Token.closes]) hoperator
  have hliteral := reads_literal c.literal_decimal limit
    (position + (c.name ++ " " ++ c.operator).length + 1)
  have hall := hboth.join (by simp [Token.opens, Token.closes]) hliteral
  let comparison : Grammar.Comparison :=
    ⟨⟨.identifier, c.word, position⟩,
      ⟨.operator, c.operator, (position + c.name.length + 1 : Nat)⟩,
      ⟨.number, c.literal, (position + (c.name ++ " " ++ c.operator).length + 1 : Nat)⟩,
      x, rfl, rfl, c.operator_known, rfl, hvalue⟩
  exact ⟨comparison, hall, rfl⟩

/-- Whether a written tree is read as a term with its meaning, wherever it stands. -/
def ReadsAsTerm (limit : Nat) (text : String) (tree : Expr) : Prop :=
  ∀ position, ∃ d : Grammar.Term, Reads limit position text d.tokens ∧ d.tree = tree

/-- Whether a written tree is read as an expression with its meaning, wherever it stands. -/
def ReadsAsExpression (limit : Nat) (text : String) (tree : Expr) : Prop :=
  ∀ position, ∃ d : Grammar.Expression, Reads limit position text d.tokens ∧ d.tree = tree

theorem ReadsAsTerm.expression {limit : Nat} {text : String} {tree : Expr}
    (h : ReadsAsTerm limit text tree) : ReadsAsExpression limit text tree := by
  intro position
  obtain ⟨d, hreads, htree⟩ := h position
  refine ⟨.chain d .done, ?_, ?_⟩
  · rwa [Grammar.Expression.tokens, Grammar.Links.tokens, List.append_nil]
  · rwa [Grammar.Expression.tree, Grammar.Links.fold]

theorem ReadsAsExpression.enclosed {limit : Nat} {text : String} {tree : Expr}
    (h : ReadsAsExpression limit text tree) :
    ReadsAsTerm (limit + 1) (Spelling.enclosed text) tree := by
  intro position
  obtain ⟨d, hreads, htree⟩ := h (position + 2)
  obtain ⟨opening, closing, hopening, hclosing, henclosed⟩ := reads_enclosed hreads
  exact ⟨.group opening d closing hopening hclosing, henclosed, htree⟩

theorem ReadsAsExpression.combine {limit limit' : Nat} {left right : String} {tree tree' : Expr}
    (h : ReadsAsExpression limit left tree) (connective : Connective)
    (h' : ReadsAsTerm limit' right tree') :
    ReadsAsExpression (max limit limit') (left ++ " " ++ connective.word ++ " " ++ right)
      (connective.combine tree tree') := by
  intro position
  obtain ⟨d, hleft, htree⟩ := h position
  obtain ⟨link, hkind, hword⟩ :=
    reads_connective connective (max limit limit') (position + left.length + 1)
  have hfront := (hleft.weaken (Nat.le_max_left limit limit')).join d.balanced hword
  obtain ⟨d', hright, htree'⟩ := h' (position + (left ++ " " ++ connective.word).length + 1)
  -- the connective is no parenthesis, so nothing is open in front of the right side
  have hbalanced :
      (d.tokens ++ [link]).countP Token.opens = (d.tokens ++ [link]).countP Token.closes := by
    rw [List.countP_append, List.countP_append, d.balanced]
    cases connective <;> simp [Token.opens, Token.closes, hkind, Connective.kind]
  have hall := hfront.join hbalanced (hright.weaken (Nat.le_max_right limit limit'))
  have hlink : link.kind = .and ∨ link.kind = .or := by
    cases connective with
    | and => exact .inl hkind
    | or => exact .inr hkind
  refine ⟨d.snoc link hlink d', ?_, ?_⟩
  · rw [Grammar.Expression.tokens_snoc]
    rwa [List.append_assoc] at hall
  · rw [Grammar.Expression.tree_snoc, htree, htree', hkind]
    cases connective <;> rfl

/-- A written tree is read as an expression, and as a term unless it is a combination. -/
theorem Spelling.reads (s : Spelling) : ReadsAsExpression s.depth s.text s.tree ∧
    (s.combines = false → ReadsAsTerm s.depth s.text s.tree) := by
  induction s with
  | condition c =>
    have hterm : ReadsAsTerm 0 c.text c.tree := by
      intro position
      obtain ⟨d, hreads, htree⟩ := reads_condition c 0 position
      exact ⟨.comparison d, hreads, htree⟩
    exact ⟨hterm.expression, fun _ => hterm⟩
  | combination connective left right hleft hright =>
    refine ⟨?_, nofun⟩
    rw [depth, text]
    cases hcombines : right.combines with
    | true =>
      rw [if_pos rfl, if_pos rfl]
      exact hleft.1.combine connective hright.1.enclosed
    | false =>
      rw [if_neg Bool.false_ne_true, if_neg Bool.false_ne_true]
      exact hleft.1.combine connective (hright.2 hcombines)
  | wrapped inner hinner => exact ⟨hinner.1.enclosed.expression, fun _ => hinner.1.enclosed⟩

/-- Filters are read back as they are written. A tree, written with a bare left side and a right
side in parentheses exactly if it is a combination, and with any further parentheses around any of
its parts, is parsed to itself, each literal as the number that its text denotes and each name as
the word that is read in it, as long as no more parentheses are open at once than may be. -/
theorem parseText_text (s : Spelling) (hdepth : s.depth ≤ nestingLimit) :
    parseText s.text = .ok s.tree := by
  obtain ⟨d, hreads, htree⟩ := s.reads.1 0
  have hscan : tokens s.text = .ok (d.tokens ++ [⟨.eof, "", (0 + s.text.toList.length : Nat)⟩]) :=
    hreads.scanned.scan_nil
  -- no token of a derivation is an end token, so all of them are parsed
  have hkinds : ∀ t ∈ d.tokens, t.kind ≠ .eof := by
    obtain ⟨body, hbody, hend⟩ := (hreads.scanned.laid rfl).ends_once
    intro t ht
    apply hend
    rwa [← List.append_cancel_right hbody]
  have hbefore : beforeEnd (d.tokens ++ [⟨.eof, "", (0 + s.text.toList.length : Nat)⟩]) =
      d.tokens := by
    rw [beforeEnd_append hkinds]
    exact List.append_nil d.tokens
  have hnested : NestedWithin nestingLimit d.tokens := hreads.nested.weaken hdepth
  rw [parseText, hscan, ← htree]
  apply parse_of_derivation
  · rwa [hbefore]
  · exact hbefore.symm

/-- A name in mixed case that begins with a digit, a negative literal with a fraction, and a
comparison in parentheses that it does not need. -/
def highOrCheap : Spelling :=
  .combination .or
    (.condition ⟨"52wHigh", "52whigh", ">", "1", by decide +kernel, by decide,
      show IsDecimal (signText false ++ ['1']) from
        .whole false (List.cons_ne_nil _ _) (List.forall_mem_singleton.mpr (by decide))⟩)
    (.combination .and
      (.condition ⟨"pe", "pe", "!=", "-2.5", by decide +kernel, by decide,
        show IsDecimal (signText true ++ (['2'] ++ '.' :: ['5'])) from
          .fraction true (List.cons_ne_nil _ _) (List.forall_mem_singleton.mpr (by decide))
            (List.forall_mem_singleton.mpr (by decide))⟩)
      (.wrapped (.condition ⟨"yield", "yield", ">=", "3", by decide +kernel, by decide,
        show IsDecimal (signText false ++ ['3']) from
          .whole false (List.cons_ne_nil _ _) (List.forall_mem_singleton.mpr (by decide))⟩)))

theorem high_or_cheap_is_read_back :
    highOrCheap.text = "52wHigh > 1 or ( pe != -2.5 and ( yield >= 3 ) )" ∧
    highOrCheap.depth = 2 ∧ highOrCheap.depth ≤ nestingLimit ∧
    ∃ one half three,
      parseText "52wHigh > 1 or ( pe != -2.5 and ( yield >= 3 ) )" =
        .ok (.or (.comparison ">" "52whigh" one)
          (.and (.comparison "!=" "pe" half) (.comparison ">=" "yield" three))) ∧
      float? ['1'] = some one ∧ float? ['-', '2', '.', '5'] = some half ∧
      float? ['3'] = some three := by
  have htext : highOrCheap.text = "52wHigh > 1 or ( pe != -2.5 and ( yield >= 3 ) )" := by
    decide +kernel
  have hdepth : highOrCheap.depth ≤ nestingLimit := by decide
  have hparse := parseText_text highOrCheap hdepth
  rw [htext] at hparse
  refine ⟨htext, rfl, hdepth, _, _, _, hparse, ?_, ?_, ?_⟩
  · exact (Option.some_get _).symm
  · exact (Option.some_get _).symm
  · exact (Option.some_get _).symm

end Bourse.Filter
