import Bourse.Proofs.Filter.Meaning
import Bourse.Proofs.Filter.Parsing
import Bourse.Proofs.Filter.Scanning
import Bourse.Proofs.Number.Literal
import Bourse.Proofs.Results
import Bourse.Screen

/-! What compiles can be evaluated. The tokens of a text spell numbers without letters, the parser
builds nothing but conditions from them, and a condition has a truth value for every quote whose
fields are numbers. So a screen fails, if it does, before its first quote is tested. -/
namespace Bourse

/-- Whether the integer fields of a quote are numbers of the running kind. -/
def Quote.Convertible (quote : Quote) : Prop :=
  ∀ n ∈ [quote.volume, quote.averageVolume, quote.marketCap], (Binary64.ofInt? n).isSome = true

theorem Quote.whole_ok {field : Field} {n : Int} (h : (Binary64.ofInt? n).isSome = true) :
    ∃ value?, Quote.value?.whole field n = .ok value? := by
  obtain ⟨x, hx⟩ := Option.isSome_iff_exists.mp h
  exact ⟨some x, by rw [Quote.value?.whole, hx]⟩

theorem Quote.Convertible.value? {quote : Quote} (h : quote.Convertible) (field : Field) :
    ∃ value?, quote.value? field = .ok value? := by
  have hvolume := h quote.volume (by simp)
  have haverage := h quote.averageVolume (by simp)
  have hcap := h quote.marketCap (by simp)
  cases field with
  | volume => exact whole_ok hvolume
  | averageVolume => exact whole_ok haverage
  | marketCap => exact whole_ok hcap
  | _ => exact ⟨_, rfl⟩

namespace Filter

/-! Literals of a text -/

/-- Whether a token that is a number is spelled without letters. -/
def Token.Plain (t : Token) : Prop :=
  t.kind = .number → ∀ c ∈ t.value.toList, Text.isLetter c = false

theorem wordKind_ne_number (word : List Char) : wordKind word ≠ .number := by
  unfold wordKind
  split_ifs <;> exact nofun

theorem sign_kind_ne_number {c : Char} {next? : Option Char} {found : Lexeme}
    (h : sign c next? = .ok found) : found.kind ≠ .number := by
  unfold sign signOperator at h
  split_ifs at h <;> cases h <;> exact nofun

/-- A number begins with a digit, a point or a minus sign and goes on with digits and points. -/
theorem isLetter_of_mem_number {c d : Char} {rest : List Char} {found : Lexeme}
    (h : lexeme c rest = .ok found) (hkind : found.kind = .number) (hd : d ∈ found.value) :
    Text.isLetter d = false := by
  rw [lexeme_eq] at h
  split_ifs at h with hnumber hletter
  · rw [numberLexeme_eq] at h
    split_ifs at h with hname
    · cases h
      exact absurd hkind (wordKind_ne_number _)
    · cases h
      rcases List.mem_cons.mp hd with rfl | hd
      · rw [Bool.eq_false_iff]
        intro hletter
        rw [startsNumber_of_isLetter hletter] at hnumber
        contradiction
      · exact isLetter_of_isNumberChar (List.all_eq_true.mp List.all_takeWhile d hd)
  · cases h
    exact absurd hkind (wordKind_ne_number _)
  · exact absurd hkind (sign_kind_ne_number h)

theorem Scanned.plain {text front : List Char} {position : Nat} {read : List Token}
    (h : Scanned text position front read) : ∀ t ∈ read, t.Plain := by
  induction h with
  | start => exact nofun
  | blank hc hrest ih => exact ih
  | lexeme hc hfound hrest ih =>
    rintro t (_ | ⟨_, ht⟩)
    · intro hkind c hmem
      rw [String.toList_ofList] at hmem
      exact isLetter_of_mem_number hfound hkind hmem
    · exact ih t ht

theorem plain_of_tokens {text : String} {found : List Token} (h : tokens text = .ok found) :
    ∀ t ∈ found, t.Plain := by
  obtain ⟨read, hscanned, rfl⟩ := scanned_of_tokens h
  intro t ht
  rcases List.mem_append.mp ht with ht | ht
  · exact hscanned.plain t ht
  · rw [List.mem_singleton.mp ht]
    exact nofun

/-! Conditions -/

/-- Whether an expression is a condition through and through: its operands are comparisons of a
known operator with a literal that is a number. -/
def Expr.IsCondition : Expr → Prop
  | comparison operator _ literal => operator ∈ operators ∧ literal.isNaN = false
  | and left right => left.IsCondition ∧ right.IsCondition
  | or left right => left.IsCondition ∧ right.IsCondition
  | _ => False

theorem Grammar.Comparison.isCondition_tree (c : Grammar.Comparison)
    (h : ∀ t ∈ c.tokens, t.Plain) : c.tree.IsCondition := by
  refine ⟨c.operator_known, ?_⟩
  have hliteral : c.literal.Plain := h c.literal (by simp [Grammar.Comparison.tokens])
  exact Numeral.isNaN_of_float? c.literal_value (hliteral c.literal_kind)

mutual

theorem Grammar.Term.isCondition_tree (d : Grammar.Term) (h : ∀ t ∈ d.tokens, t.Plain) :
    d.tree.IsCondition := by
  cases d with
  | comparison c => exact c.isCondition_tree h
  | group opening inner closing ho hc =>
    refine inner.isCondition_tree fun t ht => h t ?_
    exact List.mem_cons_of_mem opening (List.mem_append_left [closing] ht)

theorem Grammar.Expression.isCondition_tree (d : Grammar.Expression)
    (h : ∀ t ∈ d.tokens, t.Plain) : d.tree.IsCondition := by
  obtain ⟨first, more⟩ := d
  have hfirst := first.isCondition_tree fun t ht => h t (List.mem_append_left _ ht)
  exact more.isCondition_fold hfirst fun t ht => h t (List.mem_append_right _ ht)

/-- Links make a condition of a condition on their left side. -/
theorem Grammar.Links.isCondition_fold (d : Grammar.Links) {left : Expr} (hleft : left.IsCondition)
    (h : ∀ t ∈ d.tokens, t.Plain) : (d.fold left).IsCondition := by
  cases d with
  | done => exact hleft
  | link connective kind right more =>
    have hright := right.isCondition_tree fun t ht =>
      h t (List.mem_cons_of_mem connective (List.mem_append_left _ ht))
    refine more.isCondition_fold ?_ fun t ht =>
      h t (List.mem_cons_of_mem connective (List.mem_append_right _ ht))
    split
    · exact ⟨hleft, hright⟩
    · exact ⟨hleft, hright⟩

end

theorem isCondition_of_parseText {text : String} {e : Expr} (h : parseText text = .ok e) :
    e.IsCondition := by
  unfold parseText at h
  cases hfound : tokens text with
  | error fault =>
    rw [hfound] at h
    contradiction
  | ok found =>
    rw [hfound] at h
    have hparsed : parse found = .ok e := h
    have houtcome := parse_outcome found
    rw [hparsed] at houtcome
    obtain ⟨d, hd, rfl⟩ := houtcome
    refine d.isCondition_tree fun t ht => plain_of_tokens hfound t ?_
    rw [hd] at ht
    exact (beforeEnd_isPrefix found).subset ht

theorem compile_of_parse {source : String} {found : List Token} {e : Expr}
    (hblank : source.toList.all Text.isBlank = false) (hfound : tokens source = .ok found)
    (hparse : parse found = .ok e) : compile source = .ok ⟨source, some e⟩ := by
  unfold compile parseText
  rw [hblank, hfound]
  dsimp only
  rw [hparse]
  rfl

theorem isCondition_of_compile {source : String} {f : Filter} (h : compile source = .ok f) :
    ∀ e ∈ f.tree, e.IsCondition := by
  unfold compile at h
  split_ifs at h with hblank
  · cases h
    exact nofun
  · cases htree : parseText source with
    | error fault =>
      rw [htree] at h
      contradiction
    | ok tree =>
      rw [htree] at h
      cases h
      rintro e ⟨⟩
      exact isCondition_of_parseText htree

/-! Truth values -/

theorem compare_of_mem_operators {operator : String} (h : operator ∈ operators)
    (left right : Float) : ∃ truth, compare left operator right = .ok truth := by
  simp only [operators, List.mem_cons, List.not_mem_nil, or_false] at h
  rcases h with rfl | rfl | rfl | rfl | rfl | rfl <;> exact ⟨_, rfl⟩

/-- The only error that a condition leads to is that of a field too large to be a number. -/
theorem Means.tooLarge_of_isCondition {quote : Quote} {e : Expr} {outcome : Except EvalError Bool}
    (h : Means quote e outcome) (hcondition : e.IsCondition) {fault : EvalError}
    (hfault : outcome = .error fault) :
    ∃ field cause, fault = .tooLarge cause.field ∧ quote.value? field = .error cause := by
  induction h with
  | and_right hleft hright ihleft ihright => exact ihright hcondition.2 hfault
  | and_left hleft hsettled ih => exact ih hcondition.1 hfault
  | or_right hleft hright ihleft ihright => exact ihright hcondition.2 hfault
  | or_left hleft hsettled ih => exact ih hcondition.1 hfault
  | unknown hname => contradiction
  | absent hname hvalue => contradiction
  | @tooLarge operator name literal field cause hname hvalue =>
    exact ⟨field, cause, (Except.error.inj hfault).symm, hvalue⟩
  | @compared operator name literal value field hname hvalue =>
    obtain ⟨truth, htruth⟩ := compare_of_mem_operators hcondition.1 value literal
    rw [htruth] at hfault
    contradiction
  | number | field | foreign => exact hcondition.elim

theorem tooLarge_of_passes {f : Filter} (hconditions : ∀ e ∈ f.tree, e.IsCondition) {quote : Quote}
    {fault : EvalError} (hfault : f.passes quote = .error fault) :
    ∃ field cause, fault = .tooLarge cause.field ∧ quote.value? field = .error cause := by
  unfold passes at hfault
  cases htree : f.tree with
  | none =>
    rw [htree] at hfault
    contradiction
  | some tree =>
    rw [htree] at hfault
    have hmeans := means_holds quote tree
    rw [← evaluate_eq_holds] at hmeans
    exact hmeans.tooLarge_of_isCondition (hconditions tree htree) hfault

/-- A filter of conditions has a truth value for every quote whose fields are numbers. -/
theorem exists_passes {f : Filter} (hconditions : ∀ e ∈ f.tree, e.IsCondition) {quote : Quote}
    (hquote : quote.Convertible) : ∃ truth, f.passes quote = .ok truth := by
  cases hpasses : f.passes quote with
  | ok truth => exact ⟨truth, rfl⟩
  | error fault =>
    obtain ⟨field, cause, -, hcause⟩ := tooLarge_of_passes hconditions hpasses
    obtain ⟨value?, hvalue⟩ := hquote.value? field
    rw [hvalue] at hcause
    contradiction

/-! Screens -/

section

variable {α ε : Type} {test : α → Except ε Bool} {items : List α}

/-- Where each test has an answer, the selection is the filtered list. -/
theorem keep_of_forall_ok {p : α → Bool} (h : ∀ a ∈ items, test a = .ok (p a)) :
    keep test items = .ok (items.filter p) := by
  induction items with
  | nil => rfl
  | cons a rest ih =>
    rw [keep, h a List.mem_cons_self, ih fun b hb => h b (List.mem_cons_of_mem a hb),
      List.filter_cons]
    rfl

theorem exists_keep (h : ∀ a ∈ items, ∃ truth, test a = .ok truth) :
    ∃ kept, keep test items = .ok kept := by
  choose! p hp using h
  exact ⟨items.filter p, keep_of_forall_ok hp⟩

/-- A selection is made only where each test has an answer. -/
theorem forall_ok_of_keep {kept : List α} (h : keep test items = .ok kept) :
    ∀ a ∈ items, ∃ truth, test a = .ok truth := by
  induction items generalizing kept with
  | nil => exact nofun
  | cons a rest ih =>
    obtain ⟨truth, htruth, h⟩ := bind_eq_ok_iff.mp h
    obtain ⟨others, hothers, -⟩ := bind_eq_ok_iff.mp h
    exact List.forall_mem_cons.mpr ⟨⟨truth, htruth⟩, ih hothers⟩

end

theorem run_custom_of_compile_error {source : String} {refusal : SyntaxError}
    (h : compile source = .error refusal) (quotes : List Quote) :
    (Screen.run .custom source quotes).result = .error (.filter refusal) := by
  unfold Screen.run Screen.select
  dsimp only
  rw [h]

/-- A custom screen keeps what its filter selects. -/
theorem run_custom_eq_ok_iff {source : String} {f : Filter} (h : compile source = .ok f)
    {quotes kept : List Quote} :
    (Screen.run .custom source quotes).result = .ok kept ↔ f.select quotes = .ok kept := by
  unfold Screen.run Screen.select
  dsimp only
  rw [h]
  dsimp only
  cases f.select quotes <;> simp

theorem run_custom_of_compile {source : String} {f : Filter} (h : compile source = .ok f)
    {quotes : List Quote} (hquotes : ∀ quote ∈ quotes, quote.Convertible) :
    ∃ kept, (Screen.run .custom source quotes).result = .ok kept := by
  have hconditions := isCondition_of_compile h
  obtain ⟨kept, hkept⟩ := exists_keep fun quote hquote =>
    exists_passes hconditions (hquotes quote hquote)
  exact ⟨kept, (run_custom_eq_ok_iff h).mpr hkept⟩

/-- A filter that compiles is made of conditions and has a truth value for every quote whose integer
fields are numbers of the running kind. For any other quote the only error is about such a field. A
custom screen of quotes with numbers fails only if its filter does not compile, and then it fails
alike for all quotes. -/
theorem compile_evaluates (source : String) :
    (∀ f, compile source = .ok f →
      (∀ e ∈ f.tree, e.IsCondition) ∧
      (∀ quote : Quote, quote.Convertible → ∃ truth, f.passes quote = .ok truth) ∧
      ∀ quote fault, f.passes quote = .error fault → ∃ field, fault = .tooLarge field) ∧
    ∀ quotes : List Quote, (∀ quote ∈ quotes, quote.Convertible) → ∀ fault,
      (Screen.run .custom source quotes).result = .error fault →
        ∃ refusal, compile source = .error refusal ∧ fault = .filter refusal ∧
          ∀ others, (Screen.run .custom source others).result = .error fault := by
  constructor
  · intro f hf
    have hconditions := isCondition_of_compile hf
    refine ⟨hconditions, ?_, ?_⟩
    · intro quote hquote
      exact exists_passes hconditions hquote
    · intro quote fault hfault
      obtain ⟨field, cause, hcause, -⟩ := tooLarge_of_passes hconditions hfault
      exact ⟨cause.field, hcause⟩
  · intro quotes hquotes fault hfault
    cases hcompile : compile source with
    | ok f =>
      obtain ⟨kept, hkept⟩ := run_custom_of_compile hcompile hquotes
      rw [hkept] at hfault
      contradiction
    | error refusal =>
      rw [run_custom_of_compile_error hcompile] at hfault
      cases hfault
      exact ⟨refusal, rfl, rfl, run_custom_of_compile_error hcompile⟩

/-- The tokens of a comparison of the volume. -/
def volumeTokens : List Token :=
  [⟨.identifier, "volume", 0⟩, ⟨.operator, ">=", 7⟩, ⟨.number, "2", 10⟩, ⟨.eof, "", 11⟩]

theorem exists_compile_volume : ∃ f, compile "volume >= 2" = .ok f ∧
    ∃ x, f.tree = some (.comparison ">=" "volume" x) := by
  obtain ⟨x, hx⟩ : ∃ x, Numeral.float? ['2'] = some x :=
    Option.isSome_iff_exists.mp (by decide +kernel)
  have hfound : tokens "volume >= 2" = .ok volumeTokens := by decide +kernel
  have hsplit : splitEnd volumeTokens = (volumeTokens.take 3, ⟨.eof, "", 11⟩) := rfl
  have hparse : parse volumeTokens = .ok (.comparison ">=" "volume" x) := by
    unfold parse
    rw [hsplit]
    simp [volumeTokens, expression, term, chain, comparison, hx, operators]
  have hblank : ("volume >= 2".toList.all Text.isBlank) = false := by decide +kernel
  refine ⟨⟨"volume >= 2", some (.comparison ">=" "volume" x)⟩, ?_, x, rfl⟩
  unfold compile parseText
  rw [hblank, hfound]
  dsimp only
  rw [hparse]
  rfl

/-- A quote without any volume is tested, one with a volume beyond all numbers is not, and a screen
with a lone exclamation mark fails whatever the quotes are. -/
theorem compile_evaluates_volume :
    (∃ f, compile "volume >= 2" = .ok f ∧ (∀ e ∈ f.tree, e.IsCondition) ∧
      Quote.Convertible { symbol := "A" } ∧ (∃ truth, f.passes { symbol := "A" } = .ok truth) ∧
      ∃ fault, f.passes { symbol := "A", volume := 10 ^ 400 } = .error fault ∧
        ∃ field, fault = .tooLarge field) ∧
    ∃ fault refusal, (Screen.run .custom "!" [{ symbol := "A" }]).result = .error fault ∧
      compile "!" = .error refusal ∧ fault = .filter refusal ∧
      ∀ others, (Screen.run .custom "!" others).result = .error fault := by
  have hconvertible : Quote.Convertible { symbol := "A" } := by
    unfold Quote.Convertible
    decide +kernel
  have hhuge : Binary64.ofInt? (10 ^ 400) = none := by
    have hnone : (Binary64.ofInt? (10 ^ 400)).isNone = true := by decide +kernel
    exact Option.isNone_iff_eq_none.mp hnone
  constructor
  · obtain ⟨f, hf, x, htree⟩ := exists_compile_volume
    obtain ⟨hconditions, htotal, herrors⟩ := (compile_evaluates "volume >= 2").1 f hf
    have hname : Field.ofName? "volume" = some .volume := by decide +kernel
    have hfault : f.passes { symbol := "A", volume := 10 ^ 400 } =
        .error (.tooLarge .volume) := by
      unfold passes
      rw [htree]
      dsimp only
      rw [evaluate_eq_holds]
      simp only [Expr.holds, Expr.leaf, Quote.named?, hname, Quote.value?, Quote.value?.whole,
        hhuge]
    exact ⟨f, hf, hconditions, hconvertible, htotal _ hconvertible, _, hfault, herrors _ _ hfault⟩
  · have hbang : tokens "!" = .error (.loneBang, 0) := by decide +kernel
    have hblank : ("!".toList.all Text.isBlank) = false := by decide +kernel
    have hrefused : compile "!" = .error (.lexical .loneBang 0) := by
      unfold compile parseText
      rw [hblank, hbang]
      rfl
    have hquotes : ∀ quote ∈ [({ symbol := "A" } : Quote)], quote.Convertible := by
      intro quote hquote
      rw [List.mem_singleton.mp hquote]
      exact hconvertible
    have hresult := run_custom_of_compile_error hrefused [{ symbol := "A" }]
    obtain ⟨refusal, hcompile, hfault, hothers⟩ := (compile_evaluates "!").2 _ hquotes _ hresult
    exact ⟨_, refusal, hresult, hcompile, hfault, hothers⟩

end Filter

end Bourse
