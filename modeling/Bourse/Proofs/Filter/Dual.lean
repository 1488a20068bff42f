import Bourse.Proofs.Filter.Compiled
import Bourse.Proofs.Number.Coding
import Bourse.Proofs.Number.Rank

/-! The dual of a filter, with its connectives exchanged and its operators turned into their
complements. Both connectives stand on one level, so the exchange leaves the grouping of a filter as
it is, and where every comparison has numbers to compare the dual holds exactly where the filter
does not. -/
namespace Bourse

/-- Whether a name stands for a field of a quote that is published and finite. -/
def Quote.HasFinite (quote : Quote) (name : String) : Prop :=
  ∃ x, quote.named? name = .ok (some x) ∧ x.isFinite = true

/-- Whether a name stands for an integer field that is too large for a number of the running kind. -/
def Quote.Overflows (quote : Quote) (name : String) : Prop :=
  ∃ fault, quote.named? name = .error fault

namespace Filter

/-! The exchange -/

/-- The operator that says the opposite. -/
def complement : String → String
  | "<" => ">="
  | ">=" => "<"
  | ">" => "<="
  | "<=" => ">"
  | "=" => "!="
  | "!=" => "="
  | operator => operator

/-- A token in the place of another: the other connective, or the opposite operator. -/
def Token.dual (t : Token) : Token :=
  match t.kind with
  | .and => { t with kind := .or, value := "or" }
  | .or => { t with kind := .and, value := "and" }
  | .operator => { t with value := complement t.value }
  | _ => t

def Expr.dual : Expr → Expr
  | .comparison operator name literal => .comparison (complement operator) name literal
  | .and left right => .or left.dual right.dual
  | .or left right => .and left.dual right.dual
  | e => e

/-- The names of the fields that an expression compares. -/
def Expr.names : Expr → List String
  | .comparison _ name _ => [name]
  | .field name => [name]
  | .and left right | .or left right => left.names ++ right.names
  | _ => []

theorem complement_mem {operator : String} (h : operator ∈ operators) :
    complement operator ∈ operators := by
  have hall : ∀ operator ∈ operators, complement operator ∈ operators := by decide
  exact hall operator h

def Kind.dual : Kind → Kind
  | .and => .or
  | .or => .and
  | kind => kind

@[simp] theorem Token.dual_kind (t : Token) : t.dual.kind = t.kind.dual := by
  unfold Token.dual
  cases h : t.kind <;> simp [Kind.dual, h]

theorem Kind.dual_eq_iff {kind other : Kind} : kind.dual = other ↔ kind = other.dual := by
  cases kind <;> cases other <;> decide

/-! The dual is read like the filter -/

/-- Whether a part of the parser gives an expression and leaves some tokens. -/
def Gives {bound : Nat}
    (result : Except SyntaxError { out : Expr × List Token // out.2.length < bound }) (e : Expr)
    (rest : List Token) : Prop :=
  ∃ h, result = .ok ⟨(e, rest), h⟩

def Grammar.Comparison.dual (c : Grammar.Comparison) : Grammar.Comparison where
  name := c.name
  operator := c.operator.dual
  literal := c.literal
  value := c.value
  name_kind := c.name_kind
  operator_kind := by rw [Token.dual_kind, c.operator_kind]; rfl
  operator_known := by
    have hvalue : c.operator.dual.value = complement c.operator.value := by
      rw [Token.dual, c.operator_kind]
    rw [hvalue]
    exact complement_mem c.operator_known
  literal_kind := c.literal_kind
  literal_value := c.literal_value

theorem Grammar.Comparison.tokens_dual (c : Grammar.Comparison) :
    c.dual.tokens = c.tokens.map Token.dual := by
  have hname : c.name.dual = c.name := by rw [Token.dual, c.name_kind]
  have hliteral : c.literal.dual = c.literal := by rw [Token.dual, c.literal_kind]
  rw [tokens, tokens, List.map_cons, List.map_cons, List.map_singleton, hname, hliteral]
  rfl

theorem Grammar.Comparison.tree_dual (c : Grammar.Comparison) : c.dual.tree = c.tree.dual := by
  have hvalue : c.operator.dual.value = complement c.operator.value := by
    rw [Token.dual, c.operator_kind]
  rw [tree, tree, Expr.dual, ← hvalue]
  rfl

theorem gives_comparison (stop : Token) (c : Grammar.Comparison) (rest : List Token) :
    Gives (comparison stop (c.tokens ++ rest)) c.tree rest := by
  have hlength : rest.length < (c.tokens ++ rest).length := by
    rw [List.length_append, Grammar.Comparison.tokens]
    simp
  refine ⟨hlength, ?_⟩
  simp [Grammar.Comparison.tokens, Grammar.Comparison.tree, comparison, c.name_kind,
    c.operator_kind, c.operator_known, c.literal_kind, c.literal_value]

-- the end tokens only stand in errors, so the two sides may end differently
variable {stop stop' : Token}

theorem comparison_dual {input : List Token} (hhead : ∀ t ∈ input.head?, t.kind ≠ .lparen)
    {e : Expr} {rest : List Token} (h : Gives (comparison stop input) e rest) :
    Gives (comparison stop' (input.map Token.dual)) e.dual (rest.map Token.dual) := by
  obtain ⟨hlength, hresult⟩ := h
  have houtcome := comparison_outcome stop 0 input hhead
  rw [hresult] at houtcome
  obtain ⟨c, rfl, hinput⟩ := houtcome
  have hdual := gives_comparison stop' c.dual (rest.map Token.dual)
  rwa [c.tokens_dual, c.tree_dual, ← List.map_append, ← hinput] at hdual

mutual

/-- Both sides open and close the same parentheses, so the recursion of the parser goes the same way
on the duals. -/
theorem term_dual (depth : Nat) (input : List Token) {e : Expr} {rest : List Token}
    (h : Gives (term stop depth input) e rest) :
    Gives (term stop' depth (input.map Token.dual)) e.dual (rest.map Token.dual) := by
  match input, h with
  | [], ⟨_, h⟩ =>
    rw [term.eq_def] at h
    contradiction
  | opening :: inside, ⟨hlength, h⟩ =>
    rw [term.eq_def] at h
    dsimp only at h
    change Gives (term stop' depth (opening.dual :: inside.map Token.dual)) _ _
    rw [term.eq_def]
    dsimp only
    have hkind : opening.dual.kind = .lparen ↔ opening.kind = .lparen := by
      rw [Token.dual_kind, Kind.dual_eq_iff]
      rfl
    by_cases hparen : opening.kind = .lparen
    · rw [if_pos hparen] at h
      rw [if_pos (hkind.mpr hparen)]
      split_ifs at h with hdepth
      rw [if_neg hdepth]
      cases hinside : expression stop (depth - 1) inside with
      | error fault =>
        rw [hinside] at h
        contradiction
      | ok out =>
        rw [hinside] at h
        obtain ⟨⟨inner, behind⟩, hshorter⟩ := out
        cases behind with
        | nil => contradiction
        | cons closing behind =>
          dsimp only at h
          split_ifs at h with hclosing
          cases h
          obtain ⟨hshorter', hdual⟩ := expression_dual (depth - 1) inside ⟨hshorter, hinside⟩
          change expression stop' (depth - 1) (inside.map Token.dual) =
            .ok ⟨(e.dual, closing.dual :: rest.map Token.dual), hshorter'⟩ at hdual
          have hclosing' : closing.dual.kind = .rparen := by
            rw [Token.dual_kind, hclosing]
            rfl
          rw [hdual]
          dsimp only
          rw [if_pos hclosing']
          exact ⟨by simpa using hlength, rfl⟩
    · rw [if_neg hparen] at h
      rw [if_neg (mt hkind.mp hparen)]
      have hhead : ∀ t ∈ (opening :: inside).head?, t.kind ≠ .lparen := by simpa using hparen
      exact comparison_dual hhead ⟨hlength, h⟩
termination_by (input.length, 0)

theorem expression_dual (depth : Nat) (input : List Token) {e : Expr} {rest : List Token}
    (h : Gives (expression stop depth input) e rest) :
    Gives (expression stop' depth (input.map Token.dual)) e.dual (rest.map Token.dual) := by
  obtain ⟨hlength, h⟩ := h
  rw [expression] at h ⊢
  cases hterm : term stop depth input with
  | error fault =>
    rw [hterm] at h
    contradiction
  | ok out =>
    rw [hterm] at h
    obtain ⟨⟨left, links⟩, hshorter⟩ := out
    dsimp only at h
    obtain ⟨hshorter', hterm'⟩ := term_dual depth input ⟨hshorter, hterm⟩
    rw [hterm']
    have hlinks : links.length < input.length := hshorter
    exact chain_dual depth left links hshorter _ ⟨hlength, h⟩
termination_by (input.length, 1)

/-- A connective stays a connective. The left side is already read on both sides, and as the two
connectives share one level, the next node joins it in the same place. -/
theorem chain_dual (depth : Nat) (left : Expr) (input : List Token) {bound bound' : Nat}
    (hbound : input.length < bound) (hbound' : (input.map Token.dual).length < bound')
    {e : Expr} {rest : List Token} (h : Gives (chain stop depth left input bound hbound) e rest) :
    Gives (chain stop' depth left.dual (input.map Token.dual) bound' hbound') e.dual
      (rest.map Token.dual) := by
  match input, hbound, hbound', h with
  | [], _, hbound', ⟨_, h⟩ =>
    rw [chain.eq_def] at h
    cases h
    rw [chain.eq_def]
    exact ⟨hbound', rfl⟩
  | connective :: more, _, hbound', ⟨hlength, h⟩ =>
    rw [chain.eq_def] at h
    dsimp only at h
    change Gives (chain stop' depth left.dual (connective.dual :: more.map Token.dual) bound'
      hbound') _ _
    rw [chain.eq_def]
    dsimp only
    have hkind : (connective.dual.kind = .and ∨ connective.dual.kind = .or) ↔
        (connective.kind = .and ∨ connective.kind = .or) := by
      rw [Token.dual_kind, Kind.dual_eq_iff, Kind.dual_eq_iff]
      exact or_comm
    by_cases hlink : connective.kind = .and ∨ connective.kind = .or
    · rw [if_pos hlink] at h
      rw [if_pos (hkind.mpr hlink)]
      cases hterm : term stop depth more with
      | error fault =>
        rw [hterm] at h
        contradiction
      | ok out =>
        rw [hterm] at h
        obtain ⟨⟨right, behind⟩, hshorter⟩ := out
        dsimp only at h
        have hbehind : behind.length < more.length := hshorter
        obtain ⟨hshorter', hterm'⟩ := term_dual depth more ⟨hshorter, hterm⟩
        rw [hterm']
        -- the exchange of the connectives is that of the nodes
        have hleft : (if connective.dual.kind = .and then Expr.and left.dual right.dual
            else .or left.dual right.dual) =
            (if connective.kind = .and then Expr.and left right else .or left right).dual := by
          rcases hlink with hand | hor
          · simp [hand, Kind.dual, Expr.dual]
          · simp [hor, Kind.dual, Expr.dual]
        dsimp only
        simp only [hleft]
        exact chain_dual depth _ behind _ _ ⟨hlength, h⟩
    · rw [if_neg hlink] at h
      cases h
      rw [if_neg (mt hkind.mp hlink)]
      exact ⟨hbound', rfl⟩
termination_by (input.length, 2)

end

theorem beforeEnd_dual (input : List Token) :
    beforeEnd (input.map Token.dual) = (beforeEnd input).map Token.dual := by
  have hkind : (fun t : Token => decide (t.kind ≠ .eof)) ∘ Token.dual =
      fun t : Token => decide (t.kind ≠ .eof) := by
    funext t
    rw [Function.comp_apply, decide_eq_decide, Token.dual_kind, ne_eq, Kind.dual_eq_iff]
    rfl
  rw [beforeEnd, beforeEnd, List.takeWhile_map, hkind]

/-- Where tokens are read, so are their duals, and what is read is the dual. -/
theorem parse_dual {input : List Token} {e : Expr} (h : parse input = .ok e) :
    parse (input.map Token.dual) = .ok e.dual := by
  unfold parse at h ⊢
  rw [splitEnd_eq] at h ⊢
  dsimp only at h ⊢
  rw [beforeEnd_dual]
  cases hresult : expression ((input.drop (beforeEnd input).length).headD suppliedEnd) nestingLimit
      (beforeEnd input) with
  | error fault =>
    rw [hresult] at h
    contradiction
  | ok out =>
    rw [hresult] at h
    obtain ⟨⟨tree, trailing⟩, hlength⟩ := out
    cases trailing with
    | cons t rest =>
      dsimp only at h
      split_ifs at h
    | nil =>
      cases h
      obtain ⟨hlength', hdual⟩ := expression_dual nestingLimit _ ⟨hlength, hresult⟩
      rw [hdual]
      rfl

/-! The names in a filter -/

/-- The names of fields among some tokens. -/
def namesIn (input : List Token) : List String :=
  (input.filter fun t => t.kind = .identifier).map Token.value

theorem namesIn_append (input more : List Token) :
    namesIn (input ++ more) = namesIn input ++ namesIn more := by
  rw [namesIn, List.filter_append, List.map_append]
  rfl

theorem namesIn_cons_of_ne {t : Token} (h : t.kind ≠ .identifier) (more : List Token) :
    namesIn (t :: more) = namesIn more := by
  rw [namesIn, List.filter_cons_of_neg (by simpa using h)]
  rfl

theorem Grammar.Comparison.names_tree (c : Grammar.Comparison) :
    c.tree.names = namesIn c.tokens := by
  simp [tree, Expr.names, tokens, namesIn, c.name_kind, c.operator_kind, c.literal_kind]

mutual

theorem Grammar.Term.names_tree (d : Grammar.Term) : d.tree.names = namesIn d.tokens := by
  cases d with
  | comparison c => exact c.names_tree
  | group opening inner closing ho hc =>
    have hopening : opening.kind ≠ .identifier := by simp [ho]
    have hclosing : closing.kind ≠ .identifier := by simp [hc]
    have hend : namesIn [closing] = [] := namesIn_cons_of_ne hclosing []
    rw [Grammar.Term.tokens, namesIn_cons_of_ne hopening, namesIn_append, hend, List.append_nil]
    exact inner.names_tree

theorem Grammar.Expression.names_tree (d : Grammar.Expression) :
    d.tree.names = namesIn d.tokens := by
  obtain ⟨first, more⟩ := d
  rw [Grammar.Expression.tokens, namesIn_append, ← first.names_tree]
  exact more.names_fold first.tree

theorem Grammar.Links.names_fold (d : Grammar.Links) (left : Expr) :
    (d.fold left).names = left.names ++ namesIn d.tokens := by
  cases d with
  | done => exact (List.append_nil _).symm
  | link connective kind right more =>
    have hconnective : connective.kind ≠ .identifier := by
      rcases kind with h | h <;> simp [h]
    rw [Grammar.Links.tokens, namesIn_cons_of_ne hconnective, namesIn_append, ← right.names_tree,
      ← List.append_assoc, Grammar.Links.fold, more.names_fold]
    split <;> rfl

end

/-- An expression compares the fields that its text names. -/
theorem mem_namesIn_of_parse {input : List Token} {e : Expr} (h : parse input = .ok e)
    {name : String} (hname : name ∈ e.names) : name ∈ namesIn input := by
  have houtcome := parse_outcome input
  rw [h] at houtcome
  obtain ⟨d, hd, rfl⟩ := houtcome
  rw [d.names_tree, hd] at hname
  have hsublist : (namesIn (beforeEnd input)).Sublist (namesIn input) :=
    ((beforeEnd_isPrefix input).sublist.filter _).map _
  exact hsublist.subset hname

/-! The dual holds where the filter does not -/

theorem compare_complement {operator : String} (h : operator ∈ operators) {value literal : Float}
    (hvalue : value.isFinite = true) (hliteral : literal.isNaN = false) :
    compare value (complement operator) literal = (compare value operator literal).map (!·) := by
  have hnumber : value.isNaN = false := Binary64.isNaN_of_isFinite hvalue
  have hdifference : (value - literal).abs.isNaN = false := by
    rw [Binary64.isNaN_abs]
    exact Binary64.isNaN_sub_of_isFinite hvalue hliteral
  have htolerance : tolerance.isNaN = false := by decide +kernel
  have hbelow : (literal ≤ value) ↔ ¬value < literal := Binary64.le_iff_not_lt hliteral hnumber
  have habove : (value ≤ literal) ↔ ¬literal < value := Binary64.le_iff_not_lt hnumber hliteral
  have hnear : (tolerance ≤ (value - literal).abs) ↔ ¬(value - literal).abs < tolerance :=
    Binary64.le_iff_not_lt htolerance hdifference
  simp only [operators, List.mem_cons, List.not_mem_nil, or_false] at h
  rcases h with rfl | rfl | rfl | rfl | rfl | rfl <;>
    simp [complement, compare, Except.map, hbelow, habove, hnear]

/-- With numbers to compare the dual of an expression has the opposite truth value, and it meets the
same error where a number cannot be converted. -/
theorem holds_dual {quote : Quote} {e : Expr} (hcondition : e.IsCondition)
    (hnames : ∀ name ∈ e.names, quote.HasFinite name ∨ quote.Overflows name) :
    e.dual.holds quote = (e.holds quote).map (!·) := by
  induction e with
  | number | field | foreign => exact hcondition.elim
  | comparison operator name literal =>
    rw [Expr.dual]
    rcases hnames name (List.mem_singleton_self name) with ⟨value, hvalue, hfinite⟩ | ⟨fault, hfault⟩
    · rw [holds_comparison_of_value hvalue, holds_comparison_of_value hvalue]
      exact compare_complement hcondition.1 hfinite hcondition.2
    · rw [holds_comparison_of_error hfault, holds_comparison_of_error hfault]
      rfl
  | and left right ihleft ihright =>
    have hleft := ihleft hcondition.1 fun name h => hnames name (List.mem_append_left _ h)
    have hright := ihright hcondition.2 fun name h => hnames name (List.mem_append_right _ h)
    rw [Expr.dual, Expr.holds, Expr.holds, hleft]
    -- the conjunction looks at its right side where the disjunction of the duals does
    rcases left.holds quote with fault | _ | _
    · rfl
    · rfl
    · exact hright
  | or left right ihleft ihright =>
    have hleft := ihleft hcondition.1 fun name h => hnames name (List.mem_append_left _ h)
    have hright := ihright hcondition.2 fun name h => hnames name (List.mem_append_right _ h)
    rw [Expr.dual, Expr.holds, Expr.holds, hleft]
    rcases left.holds quote with fault | _ | _
    · rfl
    · exact hright
    · rfl

theorem exists_holds {quote : Quote} {e : Expr} (hcondition : e.IsCondition)
    (hnames : ∀ name ∈ e.names, quote.HasFinite name) : ∃ truth, e.holds quote = .ok truth := by
  induction e with
  | number | field | foreign => exact hcondition.elim
  | comparison operator name literal =>
    obtain ⟨value, hvalue, -⟩ := hnames name (List.mem_singleton_self name)
    rw [holds_comparison_of_value hvalue]
    exact compare_of_mem_operators hcondition.1 value literal
  | and left right ihleft ihright =>
    obtain ⟨truth, hleft⟩ := ihleft hcondition.1 fun name h => hnames name (List.mem_append_left _ h)
    have hright := ihright hcondition.2 fun name h => hnames name (List.mem_append_right _ h)
    rw [Expr.holds, hleft]
    cases truth with
    | true => exact hright
    | false => exact ⟨false, rfl⟩
  | or left right ihleft ihright =>
    obtain ⟨truth, hleft⟩ := ihleft hcondition.1 fun name h => hnames name (List.mem_append_left _ h)
    have hright := ihright hcondition.2 fun name h => hnames name (List.mem_append_right _ h)
    rw [Expr.holds, hleft]
    cases truth with
    | true => exact ⟨true, rfl⟩
    | false => exact hright

/-- The tokens of a filter with its connectives exchanged and its operators turned into their
complements are a filter as well. For a quote that has a finite figure under every name in the text
its truth value is the opposite one. Figures too large to be numbers lead to the same error. -/
theorem dual_tokens_negate {text : String} {e : Expr} (h : parseText text = .ok e) :
    ∃ found dual, tokens text = .ok found ∧ parse (found.map Token.dual) = .ok dual ∧
      (∀ quote : Quote, (∀ name ∈ namesIn found, quote.HasFinite name) →
        ∃ truth, evaluate quote e = .ok truth ∧ evaluate quote dual = .ok (!truth)) ∧
      ∀ quote : Quote,
        (∀ name ∈ namesIn found, quote.HasFinite name ∨ quote.Overflows name) →
          evaluate quote dual = (evaluate quote e).map (!·) := by
  have hcondition := isCondition_of_parseText h
  unfold parseText at h
  cases hfound : tokens text with
  | error fault =>
    rw [hfound] at h
    contradiction
  | ok found =>
    rw [hfound] at h
    have hparse : parse found = .ok e := h
    have hopposite (quote : Quote)
        (hnames : ∀ name ∈ namesIn found, quote.HasFinite name ∨ quote.Overflows name) :
        evaluate quote e.dual = (evaluate quote e).map (!·) := by
      rw [evaluate_eq_holds, evaluate_eq_holds]
      exact holds_dual hcondition fun name hname => hnames name (mem_namesIn_of_parse hparse hname)
    refine ⟨found, e.dual, rfl, parse_dual hparse, fun quote hquote => ?_, hopposite⟩
    obtain ⟨truth, htruth⟩ := exists_holds hcondition fun name hname =>
      hquote name (mem_namesIn_of_parse hparse hname)
    rw [← evaluate_eq_holds] at htruth
    refine ⟨truth, htruth, ?_⟩
    rw [hopposite quote fun name hname => .inl (hquote name hname), htruth]
    rfl

/-- The tokens of a test of the volume or the price. -/
def volumeOrPrice : List Token :=
  [⟨.identifier, "vol", 0⟩, ⟨.operator, ">=", 4⟩, ⟨.number, "2", 7⟩, ⟨.or, "or", 9⟩,
    ⟨.identifier, "p", 12⟩, ⟨.operator, "=", 14⟩, ⟨.number, "2", 16⟩, ⟨.eof, "", 17⟩]

theorem volume_or_price_is_negated :
    ∃ e dual, parseText "vol >= 2 or p = 2" = .ok e ∧
      volumeOrPrice.map Token.dual =
        [⟨.identifier, "vol", 0⟩, ⟨.operator, "<", 4⟩, ⟨.number, "2", 7⟩, ⟨.and, "and", 9⟩,
          ⟨.identifier, "p", 12⟩, ⟨.operator, "!=", 14⟩, ⟨.number, "2", 16⟩, ⟨.eof, "", 17⟩] ∧
      parse (volumeOrPrice.map Token.dual) = .ok dual ∧
      evaluate { symbol := "A", price := 2 } e = .ok true ∧
      evaluate { symbol := "A", price := 2 } dual = .ok false := by
  have hfound : tokens "vol >= 2 or p = 2" = .ok volumeOrPrice := by decide +kernel
  have hsplit : splitEnd volumeOrPrice = (volumeOrPrice.take 7, ⟨.eof, "", 17⟩) := rfl
  have htwo : Numeral.float? ['2'] = some 2.0 := by decide +kernel
  have hparse : parse volumeOrPrice =
      .ok (.or (.comparison ">=" "vol" 2.0) (.comparison "=" "p" 2.0)) := by
    unfold parse
    rw [hsplit]
    simp [volumeOrPrice, expression, term, chain, comparison, htwo, operators]
  have htext : parseText "vol >= 2 or p = 2" =
      .ok (.or (.comparison ">=" "vol" 2.0) (.comparison "=" "p" 2.0)) := by
    unfold parseText
    rw [hfound]
    exact hparse
  obtain ⟨found, dual, hfound', hdual, hnegated, -⟩ := dual_tokens_negate htext
  rw [hfound] at hfound'
  cases hfound'
  have hvolume : Quote.HasFinite { symbol := "A", price := 2 } "vol" :=
    ⟨0, by decide +kernel, by decide +kernel⟩
  have hprice : Quote.HasFinite { symbol := "A", price := 2 } "p" :=
    ⟨2, by decide +kernel, by decide +kernel⟩
  have hnames : ∀ name ∈ namesIn volumeOrPrice,
      Quote.HasFinite { symbol := "A", price := 2 } name := by
    have hlist : namesIn volumeOrPrice = ["vol", "p"] := rfl
    rw [hlist]
    exact List.forall_mem_cons.mpr ⟨hvolume, List.forall_mem_singleton.mpr hprice⟩
  obtain ⟨truth, htruth, hopposite⟩ := hnegated _ hnames
  have htrue : evaluate { symbol := "A", price := 2 }
      (.or (.comparison ">=" "vol" 2.0) (.comparison "=" "p" 2.0)) = .ok true := by
    rw [evaluate_eq_holds]
    decide +kernel
  rw [htrue] at htruth
  cases htruth
  exact ⟨_, dual, htext, rfl, hdual, htrue, hopposite⟩

end Filter

end Bourse
