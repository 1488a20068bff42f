import Bourse.Proofs.Filter.Compiled

/-! Presets and conditions. Each preset is a test of its own, and there is a condition that says the
same: absent figures fail both, and both compare the same numbers in the same way, so that they agree
on figures that are no numbers as well. -/
namespace Bourse

namespace Criteria

/-- What a preset tests, as the text of a filter; a custom screen has no test of its own. -/
def condition : Criteria → String
  | value => "pe > 0 and pe < 20 and yield > 2"
  | growth => "52wchange% > 20"
  | dividend => "yield > 3"
  | momentum => "change% > 0"
  | custom => ""

def tree? : Criteria → Option Filter.Expr
  | value => some (.and (.and (.comparison ">" "pe" 0.0) (.comparison "<" "pe" 20.0))
      (.comparison ">" "yield" 2.0))
  | growth => some (.comparison ">" "52wchange%" 20.0)
  | dividend => some (.comparison ">" "yield" 3.0)
  | momentum => some (.comparison ">" "change%" 0.0)
  | custom => none

end Criteria

namespace Filter

/-- A text with the tokens of one comparison compiles to it. -/
theorem compile_comparison {source : String} (c : Grammar.Comparison) {stop : Token}
    (hblank : source.toList.all Text.isBlank = false)
    (hfound : tokens source = .ok (c.tokens ++ [stop])) (hstop : stop.kind = .eof) :
    compile source = .ok ⟨source, some c.tree⟩ := by
  have hkinds : ∀ t ∈ c.tokens, t.kind ≠ .eof := by
    simp [Grammar.Comparison.tokens, c.name_kind, c.operator_kind, c.literal_kind]
  have hbefore : beforeEnd (c.tokens ++ [stop]) = c.tokens := beforeEnd_append_end hkinds hstop []
  let derivation : Grammar.Expression := .chain (.comparison c) .done
  have hderived : derivation.tokens = beforeEnd (c.tokens ++ [stop]) := by
    rw [hbefore]
    exact List.append_nil _
  have hnested : NestedWithin nestingLimit (beforeEnd (c.tokens ++ [stop])) := by
    rw [hbefore]
    exact nestedWithin_of_length_le (by simp [Grammar.Comparison.tokens, nestingLimit])
  exact compile_of_parse hblank hfound (parse_of_derivation hnested hderived)

/-- The tokens of the condition for a low price with a dividend worth having. -/
def valueTokens : List Token :=
  [⟨.identifier, "pe", 0⟩, ⟨.operator, ">", 3⟩, ⟨.number, "0", 5⟩, ⟨.and, "and", 7⟩,
    ⟨.identifier, "pe", 11⟩, ⟨.operator, "<", 14⟩, ⟨.number, "20", 16⟩, ⟨.and, "and", 19⟩,
    ⟨.identifier, "yield", 23⟩, ⟨.operator, ">", 29⟩, ⟨.number, "2", 31⟩, ⟨.eof, "", 32⟩]

theorem compile_condition (criteria : Criteria) :
    compile criteria.condition = .ok ⟨criteria.condition, criteria.tree?⟩ := by
  cases criteria with
  | value =>
    have hfound : tokens Criteria.value.condition = .ok valueTokens := by decide +kernel
    have hsplit : splitEnd valueTokens = (valueTokens.take 11, ⟨.eof, "", 32⟩) := rfl
    have hzero : Numeral.float? ['0'] = some 0.0 := by decide +kernel
    have htwo : Numeral.float? ['2'] = some 2.0 := by decide +kernel
    have htwenty : Numeral.float? ['2', '0'] = some 20.0 := by decide +kernel
    refine compile_of_parse (by decide +kernel) hfound ?_
    unfold parse
    rw [hsplit]
    simp [valueTokens, expression, term, chain, comparison, hzero, htwo, htwenty, operators]
  | growth =>
    have hfound : tokens Criteria.growth.condition = .ok [⟨.identifier, "52wchange%", 0⟩,
        ⟨.operator, ">", 11⟩, ⟨.number, "20", 13⟩, ⟨.eof, "", 15⟩] := by
      decide +kernel
    exact compile_comparison ⟨_, _, _, 20.0, rfl, rfl, by decide, rfl, by decide +kernel⟩
      (by decide +kernel) hfound rfl
  | dividend =>
    have hfound : tokens Criteria.dividend.condition = .ok [⟨.identifier, "yield", 0⟩,
        ⟨.operator, ">", 6⟩, ⟨.number, "3", 8⟩, ⟨.eof, "", 9⟩] := by
      decide +kernel
    exact compile_comparison ⟨_, _, _, 3.0, rfl, rfl, by decide, rfl, by decide +kernel⟩
      (by decide +kernel) hfound rfl
  | momentum =>
    have hfound : tokens Criteria.momentum.condition = .ok [⟨.identifier, "change%", 0⟩,
        ⟨.operator, ">", 8⟩, ⟨.number, "0", 10⟩, ⟨.eof, "", 11⟩] := by
      decide +kernel
    exact compile_comparison ⟨_, _, _, 0.0, rfl, rfl, by decide, rfl, by decide +kernel⟩
      (by decide +kernel) hfound rfl
  | custom => rfl

/-! The same answer for each quote -/

/-- A comparison is a test of the figure, if there is one. -/
theorem holds_comparison_of_any {quote : Quote} {operator name : String} {literal : Float}
    {figure : Option Float} {test : Float → Bool} (hfigure : quote.named? name = .ok figure)
    (htest : ∀ x, compare x operator literal = .ok (test x)) :
    (Expr.comparison operator name literal).holds quote = .ok (figure.any test) := by
  cases figure with
  | none => exact holds_comparison_of_absent hfigure operator literal
  | some x => exact (holds_comparison_of_value hfigure operator literal).trans (htest x)

theorem passes_value (quote : Quote) : Criteria.value.passes quote =
    ((quote.trailingPe.any (0.0 < ·) && quote.trailingPe.any (· < 20.0)) &&
      quote.dividendYield.any (2.0 < ·)) := by
  rw [Criteria.passes]
  cases quote.trailingPe with
  | none => rfl
  | some pe =>
    cases quote.dividendYield with
    | none => exact (Bool.and_false _).symm
    | some dividendYield => rfl

theorem passes_dividend (quote : Quote) :
    Criteria.dividend.passes quote = quote.dividendYield.any (3.0 < ·) := by
  rw [Criteria.passes]
  cases quote.dividendYield <;> rfl

theorem passes_condition (criteria : Criteria) (quote : Quote) :
    passes ⟨criteria.condition, criteria.tree?⟩ quote = .ok (criteria.passes quote) := by
  have hpe : quote.named? "pe" = .ok quote.trailingPe :=
    @named?_of_ofName? _ .trailingPe (by decide +kernel) quote
  have hyield : quote.named? "yield" = .ok quote.dividendYield :=
    @named?_of_ofName? _ .dividendYield (by decide +kernel) quote
  have hyear : quote.named? "52wchange%" = .ok (some quote.yearChangePercent) :=
    @named?_of_ofName? _ .yearChangePercent (by decide +kernel) quote
  have hchange : quote.named? "change%" = .ok (some quote.changePercent) :=
    @named?_of_ofName? _ .changePercent (by decide +kernel) quote
  have habove (bound x : Float) : compare x ">" bound = .ok (decide (bound < x)) := rfl
  have hbelow (bound x : Float) : compare x "<" bound = .ok (decide (x < bound)) := rfl
  cases criteria with
  | value =>
    have hcheap := holds_and_of_ok (holds_comparison_of_any hpe (habove 0.0))
      (holds_comparison_of_any hpe (hbelow 20.0))
    rw [passes_value]
    exact (evaluate_eq_holds quote _).trans
      (holds_and_of_ok hcheap (holds_comparison_of_any hyield (habove 2.0)))
  | growth =>
    exact (evaluate_eq_holds quote _).trans (holds_comparison_of_any hyear (habove 20.0))
  | dividend =>
    rw [passes_dividend]
    exact (evaluate_eq_holds quote _).trans (holds_comparison_of_any hyield (habove 3.0))
  | momentum =>
    exact (evaluate_eq_holds quote _).trans (holds_comparison_of_any hchange (habove 0.0))
  | custom => rfl

/-! Screens -/

/-- The screen with the condition of a preset has a result, which is that of the test. -/
theorem run_condition (criteria : Criteria) (quotes : List Quote) :
    (Screen.run .custom criteria.condition quotes).result =
      .ok (quotes.filter criteria.passes) := by
  rw [run_custom_eq_ok_iff (compile_condition criteria)]
  exact keep_of_forall_ok fun quote _ => passes_condition criteria quote

theorem run_preset {criteria : Criteria} (h : criteria ≠ .custom) (condition : String)
    (quotes : List Quote) :
    (Screen.run criteria condition quotes).result = .ok (quotes.filter criteria.passes) := by
  cases criteria with
  | custom => exact absurd rfl h
  | _ => rfl

/-- A preset and a custom screen with its condition keep the same quotes in the same order, whatever
the figures of the quotes are and whatever condition stands beside the preset. -/
theorem preset_is_condition {criteria : Criteria} (h : criteria ≠ .custom) (beside : String)
    (quotes : List Quote) : ∃ kept,
      (Screen.run criteria beside quotes).result = .ok kept ∧
      (Screen.run .custom criteria.condition quotes).result = .ok kept :=
  ⟨_, run_preset h beside quotes, run_condition criteria quotes⟩

/-- Quotes with an absent ratio, one that is no number, and an infinite yield. -/
def unevenQuotes : List Quote :=
  [{ symbol := "A", trailingPe := some 10, dividendYield := some (Binary64.infiniteFloat false) },
    { symbol := "B", dividendYield := some 3 },
    { symbol := "C", trailingPe := some Binary64.nanFloat, dividendYield := some 3 },
    { symbol := "D", trailingPe := some 10, dividendYield := some 3 }]

theorem value_of_uneven_quotes : Criteria.value ≠ .custom ∧ ∃ kept,
    (Screen.run .value "" unevenQuotes).result = .ok kept ∧
    (Screen.run .custom "pe > 0 and pe < 20 and yield > 2" unevenQuotes).result = .ok kept ∧
    kept.map Quote.symbol = ["A", "D"] := by
  have hvalue : Criteria.value ≠ .custom := by decide
  obtain ⟨kept, hkept, hcustom⟩ := preset_is_condition hvalue "" unevenQuotes
  have hfilter : kept = unevenQuotes.filter Criteria.value.passes :=
    Except.ok.inj (hkept.symm.trans (run_preset hvalue "" unevenQuotes))
  refine ⟨hvalue, kept, hkept, hcustom, ?_⟩
  rw [hfilter]
  decide +kernel

end Filter

end Bourse
