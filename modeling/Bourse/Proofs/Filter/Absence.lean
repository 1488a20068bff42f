import Bourse.Proofs.Filter.Compiled

/-! Figures that are taken away from quotes. A comparison without a figure fails, and there is no
negation, so a filter that holds without some figures does not fail with them. The one thing that
may stand in the way is an integer field that is too large to be a number: a filter that looks at it
only where a figure is present has no truth value then. -/
namespace Bourse

/-- A quote without some of the figures that need not be published. -/
def Quote.without (quote : Quote) (hidden : List Field) : Quote :=
  { quote with
    trailingPe := if .trailingPe ∈ hidden then none else quote.trailingPe
    forwardPe := if .forwardPe ∈ hidden then none else quote.forwardPe
    priceToBook := if .priceToBook ∈ hidden then none else quote.priceToBook
    eps := if .eps ∈ hidden then none else quote.eps
    dividendYield := if .dividendYield ∈ hidden then none else quote.dividendYield }

theorem Quote.value?_without (quote : Quote) (hidden : List Field) (field : Field) :
    (quote.without hidden).value? field = quote.value? field ∨
      (quote.without hidden).value? field = .ok none := by
  have hchoice (figure : Option Float) (field : Field) :
      (.ok (if field ∈ hidden then none else figure) : Except TooLarge _) = .ok figure ∨
        (.ok (if field ∈ hidden then none else figure) : Except TooLarge _) = .ok none := by
    split
    · exact .inr rfl
    · exact .inl rfl
  cases field with
  | trailingPe => exact hchoice quote.trailingPe .trailingPe
  | forwardPe => exact hchoice quote.forwardPe .forwardPe
  | priceToBook => exact hchoice quote.priceToBook .priceToBook
  | eps => exact hchoice quote.eps .eps
  | dividendYield => exact hchoice quote.dividendYield .dividendYield
  | _ => exact .inl rfl

theorem Quote.named?_without (quote : Quote) (hidden : List Field) (name : String) :
    (quote.without hidden).named? name = quote.named? name ∨
      (quote.without hidden).named? name = .ok none := by
  unfold named?
  cases Field.ofName? name with
  | none => exact .inl rfl
  | some field => exact quote.value?_without hidden field

theorem Quote.Convertible.without {quote : Quote} (h : quote.Convertible) (hidden : List Field) :
    (quote.without hidden).Convertible := h

namespace Filter

/-- An expression that holds without some figures does not fail with them: what they may change is
that a comparison has something to compare, or that a number too large is met. -/
theorem holds_ne_false_of_without {quote : Quote} {hidden : List Field} {e : Expr}
    (h : e.holds (quote.without hidden) = .ok true) : e.holds quote ≠ .ok false := by
  induction e with
  | number | field | foreign => contradiction
  | comparison operator name literal =>
    rcases quote.named?_without hidden name with hsame | habsent
    · have hleaf : (Expr.comparison operator name literal).holds (quote.without hidden) =
          (Expr.comparison operator name literal).holds quote := by
        rw [holds_comparison, holds_comparison, hsame]
      rw [← hleaf, h]
      simp
    · rw [holds_comparison_of_absent habsent] at h
      contradiction
  | and left right ihleft ihright =>
    obtain ⟨hleft, hright⟩ := holds_and_eq_true_iff.mp h
    intro hfalse
    rcases holds_and_eq_false_iff.mp hfalse with hfalse | ⟨-, hfalse⟩
    · exact ihleft hleft hfalse
    · exact ihright hright hfalse
  | or left right ihleft ihright =>
    intro hfalse
    obtain ⟨hleftFalse, hrightFalse⟩ := holds_or_eq_false_iff.mp hfalse
    rcases holds_or_eq_true_iff.mp h with hleft | ⟨-, hright⟩
    · exact ihleft hleft hleftFalse
    · exact ihright hright hrightFalse

theorem passes_ne_false_of_without {f : Filter} {quote : Quote} {hidden : List Field}
    (h : f.passes (quote.without hidden) = .ok true) : f.passes quote ≠ .ok false := by
  unfold passes at h ⊢
  cases htree : f.tree with
  | none => exact nofun
  | some tree =>
    rw [htree] at h
    dsimp only at h ⊢
    rw [evaluate_eq_holds] at h ⊢
    exact holds_ne_false_of_without h

/-- The only way for a filter to hold without some figures and not with them is to meet a number too
large. -/
theorem passes_of_without {f : Filter} (hconditions : ∀ e ∈ f.tree, e.IsCondition) {quote : Quote}
    {hidden : List Field} (h : f.passes (quote.without hidden) = .ok true) :
    f.passes quote = .ok true ∨ ∃ field cause,
      quote.value? field = .error cause ∧ f.passes quote = .error (.tooLarge cause.field) := by
  rcases houtcome : f.passes quote with fault | _ | _
  · obtain ⟨field, cause, rfl, hcause⟩ := tooLarge_of_passes hconditions houtcome
    exact .inr ⟨field, cause, hcause, rfl⟩
  · exact absurd houtcome (passes_ne_false_of_without h)
  · exact .inl rfl

/-! Screens -/

/-- Whether a filter matches a quote. -/
def isMatch (f : Filter) (quote : Quote) : Bool := f.passes quote = .ok true

/-- The quotes that a filter matches, with their positions. -/
def placed (f : Filter) (quotes : List Quote) : List (Quote × Nat) :=
  quotes.zipIdx.filter fun item => f.isMatch item.1

theorem placed_fst (f : Filter) (quotes : List Quote) :
    (f.placed quotes).map Prod.fst = quotes.filter f.isMatch := by
  have hquotes : quotes.zipIdx.map Prod.fst = quotes := List.zipIdx_map_fst 0 quotes
  conv_rhs => rw [← hquotes, List.filter_map]
  rfl

theorem run_custom_eq_placed {source : String} {f : Filter} (h : compile source = .ok f)
    {quotes kept : List Quote} (hkept : (Screen.run .custom source quotes).result = .ok kept) :
    kept = (f.placed quotes).map Prod.fst ∧
      ∀ quote ∈ quotes, f.passes quote = .ok (f.isMatch quote) := by
  have hselect : keep f.passes quotes = .ok kept := (run_custom_eq_ok_iff h).mp hkept
  have hanswers : ∀ quote ∈ quotes, f.passes quote = .ok (f.isMatch quote) := by
    intro quote hquote
    obtain ⟨truth, htruth⟩ := forall_ok_of_keep hselect quote hquote
    rw [isMatch, htruth]
    cases truth <;> rfl
  rw [keep_of_forall_ok hanswers] at hselect
  exact ⟨(Except.ok.inj hselect).symm.trans (f.placed_fst quotes).symm, hanswers⟩

/-- Of items made into quotes in two ways the matches are at some of the positions of the others, if
what matches in one way matches in the other. -/
theorem placed_snd_sublist {α : Type} {f : Filter} {items : List α} {narrow wide : α → Quote}
    (h : ∀ item ∈ items, f.isMatch (narrow item) = true → f.isMatch (wide item) = true) :
    ((f.placed (items.map narrow)).map Prod.snd).Sublist
      ((f.placed (items.map wide)).map Prod.snd) := by
  have hplaced (g : α → Quote) : (f.placed (items.map g)).map Prod.snd =
      (items.zipIdx.filter fun item => f.isMatch (g item.1)).map Prod.snd := by
    rw [placed, List.zipIdx_map, List.filter_map, List.map_map]
    rfl
  have hnarrow : (items.zipIdx.filter fun item => f.isMatch (narrow item.1)) =
      (items.zipIdx.filter fun item => f.isMatch (wide item.1)).filter
        fun item => f.isMatch (narrow item.1) := by
    rw [List.filter_filter]
    refine List.filter_congr fun item hitem => ?_
    have hmem : item.1 ∈ items := List.fst_mem_of_mem_zipIdx hitem
    rw [Bool.eq_iff_iff, Bool.and_eq_true]
    exact ⟨fun hmatch => ⟨hmatch, h item.1 hmem hmatch⟩, And.left⟩
  rw [hplaced, hplaced, hnarrow]
  exact List.filter_sublist.map Prod.snd

/-- Quotes, each with the figures that are to be taken away from it. -/
abbrev Reduction := List (Quote × List Field)

def Reduction.whole (items : Reduction) : List Quote := items.map Prod.fst

def Reduction.reduced (items : Reduction) : List Quote := items.map fun item => item.1.without item.2

theorem Reduction.placed_sublist {source : String} {f : Filter} (h : compile source = .ok f)
    (items : Reduction) {kept : List Quote}
    (hkept : (Screen.run .custom source items.whole).result = .ok kept) :
    ((f.placed items.reduced).map Prod.snd).Sublist ((f.placed items.whole).map Prod.snd) := by
  refine placed_snd_sublist fun item hitem hreduced => ?_
  have hmatch : f.passes (item.1.without item.2) = .ok true := of_decide_eq_true hreduced
  have hanswer := (run_custom_eq_placed h hkept).2 item.1 (List.mem_map_of_mem hitem)
  -- the screen had an answer for the whole quote, so no number stood in the way
  cases hwhole : f.isMatch item.1 with
  | true => rfl
  | false =>
    rw [hwhole] at hanswer
    exact absurd hanswer (passes_ne_false_of_without hmatch)

/-- What a filter makes of a quote without some figures it makes of the quote with them, unless it
meets an integer field that is too large. A custom screen of quotes without some figures keeps quotes
at positions at which the screen of the whole quotes keeps them as well, if both have a result, and
they have one where all integer fields are numbers. -/
theorem absence_creates_no_match {source : String} {f : Filter} (h : compile source = .ok f) :
    (∀ quote hidden, f.passes (quote.without hidden) = .ok true →
      f.passes quote = .ok true ∨ ∃ field cause,
        quote.value? field = .error cause ∧ f.passes quote = .error (.tooLarge cause.field)) ∧
    (∀ quote : Quote, quote.Convertible → ∀ hidden,
      f.passes (quote.without hidden) = .ok true → f.passes quote = .ok true) ∧
    ∀ items : Reduction,
      (∀ kept kept', (Screen.run .custom source items.whole).result = .ok kept →
        (Screen.run .custom source items.reduced).result = .ok kept' →
          kept = (f.placed items.whole).map Prod.fst ∧
          kept' = (f.placed items.reduced).map Prod.fst ∧
          ((f.placed items.reduced).map Prod.snd).Sublist ((f.placed items.whole).map Prod.snd)) ∧
      ((∀ quote ∈ items.whole, quote.Convertible) →
        (∃ kept, (Screen.run .custom source items.whole).result = .ok kept) ∧
        ∃ kept', (Screen.run .custom source items.reduced).result = .ok kept') := by
  have hconditions := isCondition_of_compile h
  refine ⟨fun quote hidden => passes_of_without hconditions, ?_, fun items => ⟨?_, ?_⟩⟩
  · intro quote hquote hidden hmatch
    obtain ⟨truth, htruth⟩ := exists_passes hconditions hquote
    have hne := passes_ne_false_of_without hmatch
    rw [htruth] at hne ⊢
    cases truth with
    | true => rfl
    | false => exact absurd rfl hne
  · intro kept kept' hkept hkept'
    exact ⟨(run_custom_eq_placed h hkept).1, (run_custom_eq_placed h hkept').1,
      items.placed_sublist h hkept⟩
  · intro hquotes
    refine ⟨run_custom_of_compile h hquotes, run_custom_of_compile h ?_⟩
    intro quote hquote
    obtain ⟨item, hitem, rfl⟩ := List.mem_map.mp hquote
    exact (hquotes item.1 (List.mem_map_of_mem hitem)).without item.2

/-- A filter that looks at the volume only where the ratio of price to earnings is present. -/
def tradedOrFree : Filter where
  source := "pe > 0 and vol > 0 or p = 0"
  tree := some (.or (.and (.comparison ">" "pe" 0.0) (.comparison ">" "vol" 0.0))
    (.comparison "=" "p" 0.0))

def tradedOrFreeTokens : List Token :=
  [⟨.identifier, "pe", 0⟩, ⟨.operator, ">", 3⟩, ⟨.number, "0", 5⟩, ⟨.and, "and", 7⟩,
    ⟨.identifier, "vol", 11⟩, ⟨.operator, ">", 15⟩, ⟨.number, "0", 17⟩, ⟨.or, "or", 19⟩,
    ⟨.identifier, "p", 22⟩, ⟨.operator, "=", 24⟩, ⟨.number, "0", 26⟩, ⟨.eof, "", 27⟩]

theorem compile_tradedOrFree : compile "pe > 0 and vol > 0 or p = 0" = .ok tradedOrFree := by
  have hfound : tokens "pe > 0 and vol > 0 or p = 0" = .ok tradedOrFreeTokens := by decide +kernel
  have hsplit : splitEnd tradedOrFreeTokens = (tradedOrFreeTokens.take 11, ⟨.eof, "", 27⟩) := rfl
  have hzero : Numeral.float? ['0'] = some 0.0 := by decide +kernel
  have hparse : parse tradedOrFreeTokens = .ok (.or (.and (.comparison ">" "pe" 0.0)
      (.comparison ">" "vol" 0.0)) (.comparison "=" "p" 0.0)) := by
    unfold parse
    rw [hsplit]
    simp [tradedOrFreeTokens, expression, term, chain, comparison, hzero, operators]
  exact compile_of_parse (by decide +kernel) hfound hparse

theorem passes_tradedOrFree (quote : Quote) : tradedOrFree.passes quote =
    (Expr.or (.and (.comparison ">" "pe" 0.0) (.comparison ">" "vol" 0.0))
      (.comparison "=" "p" 0.0)).holds quote := evaluate_eq_holds quote _

/-- A share without a price is kept, with a ratio of price to earnings and without one. -/
theorem free_share_is_kept :
    Quote.Convertible { symbol := "A", trailingPe := some 1 } ∧
    tradedOrFree.passes (Quote.without { symbol := "A", trailingPe := some 1 } [.trailingPe]) =
      .ok true ∧
    tradedOrFree.passes { symbol := "A", trailingPe := some 1 } = .ok true ∧
    ∃ kept kept',
      (Screen.run .custom "pe > 0 and vol > 0 or p = 0"
        [{ symbol := "A", trailingPe := some 1 }]).result = .ok kept ∧
      (Screen.run .custom "pe > 0 and vol > 0 or p = 0"
        [Quote.without { symbol := "A", trailingPe := some 1 } [.trailingPe]]).result =
          .ok kept' ∧
      kept.length = 1 ∧ kept'.length = 1 := by
  have hconvertible : Quote.Convertible { symbol := "A", trailingPe := some 1 } := by
    unfold Quote.Convertible
    decide +kernel
  have hmatch : tradedOrFree.passes
      (Quote.without { symbol := "A", trailingPe := some 1 } [.trailingPe]) = .ok true := by
    rw [passes_tradedOrFree]
    decide +kernel
  obtain ⟨-, hstays, hscreens⟩ := absence_creates_no_match compile_tradedOrFree
  have hwhole := hstays _ hconvertible _ hmatch
  obtain ⟨hresults, hexist⟩ := hscreens [({ symbol := "A", trailingPe := some 1 }, [.trailingPe])]
  obtain ⟨⟨kept, hkept⟩, kept', hkept'⟩ := hexist (List.forall_mem_singleton.mpr hconvertible)
  obtain ⟨hplaced, hplaced', -⟩ := hresults kept kept' hkept hkept'
  refine ⟨hconvertible, hmatch, hwhole, kept, kept', hkept, hkept', ?_, ?_⟩
  · rw [hplaced, placed_fst]
    simp [Reduction.whole, isMatch, hwhole]
  · rw [hplaced', placed_fst]
    simp [Reduction.reduced, isMatch, hmatch]

/-- With a volume beyond all numbers the share that was kept is lost: the volume is looked at only
where the ratio is present, and there it has no value. -/
theorem volume_too_large_loses_a_match :
    ¬∀ source f quote hidden, compile source = .ok f →
      f.passes (quote.without hidden) = .ok true → f.passes quote = .ok true := by
  intro hall
  have hmatch : tradedOrFree.passes (Quote.without
      { symbol := "A", trailingPe := some 1, volume := 10 ^ 400 } [.trailingPe]) = .ok true := by
    rw [passes_tradedOrFree]
    decide +kernel
  have hfault : tradedOrFree.passes { symbol := "A", trailingPe := some 1, volume := 10 ^ 400 } =
      .error (.tooLarge .volume) := by
    rw [passes_tradedOrFree]
    decide +kernel
  have hwhole := hall _ _ _ _ compile_tradedOrFree hmatch
  rw [hfault] at hwhole
  contradiction

end Filter

end Bourse
