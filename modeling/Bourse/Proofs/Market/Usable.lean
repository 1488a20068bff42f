import Bourse.Proofs.Datum
import Bourse.Proofs.Market.Published

/-! Figures that are not usable. What stands under the key of a figure and is no finite number counts
for nothing: a quote is made as if it were not there, and the next key is looked at. -/
namespace Bourse

theorem Binary64.isFinite_eq (x : Float) : x.isFinite = !(x.isNaN || x.isInf) := by
  have hfinite : x.isFinite = (unpacked x).isFinite := rfl
  have hnan : x.isNaN = (unpacked x).isNaN := rfl
  have hinfinite : x.isInf = (unpacked x).isInf := rfl
  rw [hfinite, hnan, hinfinite]
  cases unpacked x <;> rfl

namespace Datum

variable {d : Datum}

/-- Whether a datum is no figure: it is nothing, a truth value, not a number, infinite, or something
that no number can be made of. -/
def isUnusable : Datum → Bool
  | .null | .bool _ => true
  | .int _ => false
  | .real x => x.isNaN || x.isInf
  | .text s => (Numeral.float? s.toList).all fun x => x.isNaN || x.isInf
  | .date _ | .moment _ | .list _ | .mapping _ => true

/-- An integer aside, what is usable is what converts to a finite number. -/
theorem isUnusable_eq (hint : ∀ n, d ≠ .int n) :
    d.isUnusable = d.number?.all fun x => !x.isFinite := by
  simp only [Binary64.isFinite_eq, Bool.not_not]
  cases d with
  | int n => exact absurd rfl (hint n)
  | _ => rfl

theorem finiteNumber?_of_isUnusable (h : d.isUnusable = true) : d.finiteNumber? = none := by
  have hint : ∀ n, d ≠ .int n := by
    intro n hn
    rw [hn] at h
    contradiction
  rw [isUnusable_eq hint] at h
  rw [finiteNumber?]
  cases hnumber : d.number? with
  | none => rfl
  | some x =>
    rw [hnumber, Option.all_some, Bool.not_eq_true'] at h
    rw [Option.filter_some, h]
    rfl

theorem exists_number_of_usable (h : d.isUnusable = false) (hfits : ¬d.IsTooLarge) :
    ∃ x, d.number? = some x ∧ x.isFinite = true := by
  by_cases hint : ∃ n, d = .int n
  · obtain ⟨n, hn⟩ := hint
    cases hnumber : Binary64.ofInt? n with
    | none => exact absurd ⟨n, hn, hnumber⟩ hfits
    | some x =>
      refine ⟨x, ?_, Binary64.isFinite_of_ofInt? hnumber⟩
      rw [hn]
      exact hnumber
  · rw [isUnusable_eq (not_exists.mp hint)] at h
    cases hnumber : d.number? with
    | none =>
      rw [hnumber] at h
      contradiction
    | some x =>
      rw [hnumber, Option.all_some, Bool.not_eq_false'] at h
      exact ⟨x, rfl, h⟩

end Datum

namespace Published

variable {published : Published}

/-- The keys of all figures of a quote. -/
def numericKeys : List String := priceKeys ++ figureKeys.flatten

/-- Whether what stands under a key is dropped: the key is that of a figure, and the datum is
none. -/
def isDropped (key : String) (d : Datum) : Bool := numericKeys.contains key && d.isUnusable

/-- The published figures without those that are not usable. -/
def usable (published : Published) : Published :=
  published.filter fun entry => match entry.1 with
    | .text key => !isDropped key entry.2
    | _ => true

/-- Whether no key stands twice. -/
def IsMapping (published : Published) : Prop :=
  published.Pairwise fun a b => Datum.sameKey a.1 b.1 = false

/-- Whether every integer is small enough for a binary64 number. -/
def IsConvertible (published : Published) : Prop := ∀ entry ∈ published, ¬entry.2.IsTooLarge

/-! What is found -/

theorem mem_of_get? {key : String} {d : Datum} (h : Datum.get? published key = some d) :
    (.text key, d) ∈ published := by
  induction published with
  | nil => contradiction
  | cons entry rest ih =>
    obtain ⟨other, value⟩ := entry
    cases other with
    | text name =>
      rw [Datum.get?_cons_text] at h
      split_ifs at h with hname
      · cases h
        rw [hname]
        exact List.mem_cons_self
      · exact List.mem_cons_of_mem _ (ih h)
    | _ => exact List.mem_cons_of_mem _ (ih h)

theorem IsMapping.get?_of_head {key : String} {value : Datum} {rest : Published}
    (h : IsMapping ((.text key, value) :: rest)) : Datum.get? rest key = none := by
  by_contra hne
  obtain ⟨d, hd⟩ := Option.ne_none_iff_exists'.mp hne
  have hother := (List.pairwise_cons.mp h).1 _ (mem_of_get? hd)
  have hsame : Datum.sameKey (.text key) (.text key) = true := beq_self_eq_true key
  exact absurd (hsame.symm.trans hother) (by decide)

/-- Under each key stands what stood there unless it was dropped. -/
theorem IsMapping.get?_usable (h : published.IsMapping) (key : String) :
    Datum.get? published.usable key =
      (Datum.get? published key).filter fun d => !isDropped key d := by
  induction published with
  | nil => rfl
  | cons entry rest ih =>
    have hrest := ih (List.pairwise_cons.mp h).2
    obtain ⟨other, value⟩ := entry
    cases other with
    | text name =>
      rw [Datum.get?_cons_text]
      cases hdropped : isDropped name value with
      | true =>
        have hfilter : usable ((.text name, value) :: rest) = usable rest :=
          List.filter_cons_of_neg (by simp [hdropped])
        rw [hfilter, hrest]
        split_ifs with hname
        · -- nothing else stands under the key of an entry that is dropped
          subst hname
          rw [h.get?_of_head, Option.filter_some, hdropped]
          rfl
        · rfl
      | false =>
        have hfilter : usable ((.text name, value) :: rest) = (.text name, value) :: usable rest :=
          List.filter_cons_of_pos (by simp [hdropped])
        rw [hfilter, Datum.get?_cons_text, hrest]
        split_ifs with hname
        · subst hname
          rw [Option.filter_some, hdropped]
          rfl
        · rfl
    | _ => exact hrest

theorem IsConvertible.datum (h : published.IsConvertible) (key : String) :
    ¬(published.datum key).IsTooLarge := by
  unfold Published.datum
  cases hd : Datum.get? published key with
  | none =>
    intro hlarge
    obtain ⟨n, hn, -⟩ := hlarge
    contradiction
  | some d => exact h _ (mem_of_get? hd)

theorem IsConvertible.usable (h : published.IsConvertible) : published.usable.IsConvertible :=
  fun entry hentry => h entry (List.mem_of_mem_filter hentry)

theorem IsConvertible.fits (h : published.IsConvertible) (keys : List String) :
    published.Fits keys := by
  induction keys with
  | nil => trivial
  | cons key keys ih => exact ⟨h.datum key, Or.inr ih⟩

/-! Figures and labels -/

/-- The finite number under a key is that of what is left there. -/
theorem IsMapping.finiteNumber?_usable (h : published.IsMapping) (key : String) :
    (published.usable.datum key).finiteNumber? = (published.datum key).finiteNumber? := by
  unfold datum
  rw [h.get?_usable]
  cases Datum.get? published key with
  | none => rfl
  | some d =>
    rw [Option.filter_some]
    cases hdropped : isDropped key d with
    | true =>
      have hunusable := (Bool.and_eq_true_iff.mp hdropped).2
      exact (Datum.finiteNumber?_of_isUnusable hunusable).symm
    | false => rfl

theorem figure?_eq_of_isConvertible (h : published.IsConvertible) (keys : List String) :
    figure? published keys =
      .ok (keys.findSome? fun key => (published.datum key).finiteNumber?) :=
  figure?_eq_ok_iff.mpr ⟨h.fits keys, rfl⟩

theorem figure?_usable (hmapping : published.IsMapping) (hconvertible : published.IsConvertible)
    (keys : List String) : figure? published.usable keys = figure? published keys := by
  rw [figure?_eq_of_isConvertible hconvertible, figure?_eq_of_isConvertible hconvertible.usable]
  simp only [hmapping.finiteNumber?_usable]

theorem label_usable (hmapping : published.IsMapping) {keys : List String}
    (hkeys : keys ∈ labelKeys) : label published.usable keys = label published keys := by
  have hothers : ∀ key ∈ keys, numericKeys.contains key = false := by
    revert keys
    decide
  have hfound : keys.filterMap (Datum.get? published.usable) =
      keys.filterMap (Datum.get? published) := by
    apply List.filterMap_congr
    intro key hkey
    rw [hmapping.get?_usable]
    unfold isDropped
    rw [hothers key hkey]
    cases Datum.get? published key <;> rfl
  rw [label, label, hfound]

/-! Quotes -/

/-- A quote is made of nothing but the figures and labels that are looked up. -/
theorem ofPublished_congr {a b : Published} (symbol : String)
    (hfigure : ∀ keys, figure? a keys = figure? b keys)
    (hlabel : ∀ keys ∈ labelKeys, label a keys = label b keys) :
    Quote.ofPublished symbol a = Quote.ofPublished symbol b := by
  have hfigures (keys : List String) : figure a keys = figure b keys := by
    rw [figure, figure, hfigure]
  have hwhole (keys : List String) : whole a keys = whole b keys := by
    rw [whole, whole, hfigures]
  have hyear : yearChangePercent a = yearChangePercent b := by
    rw [yearChangePercent, yearChangePercent, hfigure, hfigures]
  have hname : label a ["shortName", "longName"] = label b ["shortName", "longName"] :=
    hlabel _ (by decide)
  have hcurrency : label a ["currency"] = label b ["currency"] := hlabel _ (by decide)
  have hexchange : label a ["exchange"] = label b ["exchange"] := hlabel _ (by decide)
  simp only [Quote.ofPublished, Quote.atPrice, hfigure, hfigures, hwhole, hyear, hname, hcurrency,
    hexchange]

/-- The valuation figures of a quote, and the keys of each. -/
def valuations : List ((Quote → Option Float) × List String) :=
  [(Quote.trailingPe, ["trailingPE"]), (Quote.forwardPe, ["forwardPE"]),
    (Quote.priceToBook, ["priceToBook"]), (Quote.eps, ["trailingEps", "epsTrailingTwelveMonths"]),
    (Quote.dividendYield, ["dividendYield"])]

theorem figure?_of_ofPublished {symbol : String} {quote : Quote}
    (h : Quote.ofPublished symbol published = .ok quote) :
    ∀ valuation ∈ valuations, figure? published valuation.2 = .ok (valuation.1 quote) := by
  obtain ⟨found, -, hquote⟩ := bind_eq_ok_iff.mp h
  cases found with
  | none => contradiction
  | some price =>
    simp only [Quote.atPrice, bind_eq_ok_iff] at hquote
    -- the figures and labels in front of the valuation figures, one after another
    obtain ⟨_, -, _, -, _, -, _, -, _, -, _, -, _, -, _, -, _, -, _, -, _, -, _, -, _, -, _, -, _, -,
      _, -, _, -, _, -, _, -, _, hpe, _, hforward, _, hbook, _, heps, _, hyield, heq⟩ := hquote
    obtain rfl := Except.ok.inj heq
    simp only [valuations, List.forall_mem_cons]
    exact ⟨hpe, hforward, hbook, heps, hyield, List.forall_mem_nil _⟩

variable (hmapping : published.IsMapping) (hconvertible : published.IsConvertible)

include hmapping hconvertible

/-- Under the key of a figure there is something left exactly if a finite number stands there, and
this is the number that it converts to. -/
theorem number_of_left {key : String} (hkey : key ∈ numericKeys) :
    (Datum.get? published.usable key).bind Datum.number? =
        (published.datum key).finiteNumber? ∧
      (Datum.get? published.usable key = none ↔ (published.datum key).finiteNumber? = none) := by
  have hnumeric : numericKeys.contains key = true := List.contains_iff_mem.mpr hkey
  have hlarge := hconvertible.datum key
  rw [hmapping.get?_usable]
  unfold datum at hlarge ⊢
  cases hd : Datum.get? published key with
  | none => exact ⟨rfl, iff_of_true rfl rfl⟩
  | some d =>
    rw [hd, Option.getD_some] at hlarge
    rw [Option.filter_some, Option.getD_some]
    unfold isDropped
    rw [hnumeric, Bool.true_and]
    cases hunusable : d.isUnusable with
    | true =>
      rw [Datum.finiteNumber?_of_isUnusable hunusable]
      exact ⟨rfl, iff_of_true rfl rfl⟩
    | false =>
      obtain ⟨x, hx, hfinite⟩ := Datum.exists_number_of_usable hunusable hlarge
      have hnumber : d.finiteNumber? = some x := by
        rw [Datum.finiteNumber?, hx, Option.filter_some, hfinite]
        rfl
      rw [hnumber]
      exact ⟨hx, iff_of_false (Option.some_ne_none d) (Option.some_ne_none x)⟩

theorem figure?_eq_left {keys : List String} (hkeys : keys ⊆ numericKeys) :
    figure? published keys = .ok (keys.findSome? fun key =>
      (Datum.get? published.usable key).bind Datum.number?) := by
  rw [figure?_eq_of_isConvertible hconvertible]
  refine congrArg Except.ok ?_
  induction keys with
  | nil => rfl
  | cons key keys ih =>
    obtain ⟨hkey, hrest⟩ := List.cons_subset.mp hkeys
    rw [List.findSome?_cons, List.findSome?_cons, ih hrest,
      (number_of_left hmapping hconvertible hkey).1]

theorem hasPrice_iff_left :
    published.HasPrice ↔ ∃ key ∈ priceKeys, (Datum.get? published.usable key).isSome := by
  refine exists_congr fun key => and_congr_right fun hkey => ?_
  have hleft := (number_of_left hmapping hconvertible (List.mem_append_left _ hkey)).2
  rw [Counts, ← Option.isSome_iff_exists, Option.isSome_iff_ne_none, Option.isSome_iff_ne_none]
  exact not_congr hleft.symm

/-- Figures that are not usable count as unpublished. With or without them the outcome is the same,
which is a quote exactly if there is a price among the figures that are left and the labels can be
written. Each valuation figure of the quote is the number under the first of its keys that is left,
whatever this number is, and it is absent exactly if none of its keys is left. -/
theorem unusable_counts_as_unpublished (symbol : String) :
    Quote.ofPublished symbol published.usable = Quote.ofPublished symbol published ∧
    (Succeeds (Quote.ofPublished symbol published) ↔
      (∃ key ∈ priceKeys, (Datum.get? published.usable key).isSome) ∧
        ∀ keys ∈ labelKeys, published.IsWritten keys) ∧
    ∀ quote, Quote.ofPublished symbol published = .ok quote → ∀ valuation ∈ valuations,
      valuation.1 quote = (valuation.2.findSome? fun key =>
        (Datum.get? published.usable key).bind Datum.number?) ∧
      (valuation.1 quote = none ↔
        ∀ key ∈ valuation.2, Datum.get? published.usable key = none) := by
  refine ⟨?_, ?_, ?_⟩
  · apply ofPublished_congr symbol
    · exact figure?_usable hmapping hconvertible
    · exact fun keys hkeys => label_usable hmapping hkeys
  · rw [succeeds_ofPublished_iff, ← hasPrice_iff_left hmapping hconvertible, isSound_iff]
    have hfits := hconvertible.fits
    simp only [hfits, implies_true, true_and]
  · intro quote hquote valuation hvaluation
    have hkeys : valuation.2 ⊆ numericKeys := by
      revert valuation
      decide
    have hfigure := figure?_of_ofPublished hquote valuation hvaluation
    rw [figure?_eq_left hmapping hconvertible hkeys, Except.ok.injEq] at hfigure
    refine ⟨hfigure.symm, ?_⟩
    rw [← hfigure, List.findSome?_eq_none_iff]
    refine forall₂_congr fun key hkey => ?_
    obtain ⟨hnumber, hleft⟩ := number_of_left hmapping hconvertible (hkeys hkey)
    rw [hnumber, hleft]

omit hmapping hconvertible

/-- Figures among which the preferred price is a text that is no number, the preferred earnings are no
number and the other earnings are zero. -/
def junkBeforeZero : Published :=
  [(.text "regularMarketPrice", .text "n/a"), (.text "currentPrice", .int 10),
    (.text "trailingEps", .real Binary64.nanFloat), (.text "epsTrailingTwelveMonths", .int 0),
    (.text "trailingPE", .bool true)]

/-- The price and the earnings are found behind what is not usable, and earnings of zero are not the
same as none. -/
theorem zero_behind_junk_is_found :
    junkBeforeZero.IsMapping ∧ junkBeforeZero.IsConvertible ∧
    Quote.ofPublished "A" junkBeforeZero.usable = Quote.ofPublished "A" junkBeforeZero ∧
    ∃ quote, Quote.ofPublished "A" junkBeforeZero = .ok quote ∧ quote.trailingPe = none ∧
      quote.eps = some 0 := by
  have hmapping : junkBeforeZero.IsMapping := by
    unfold IsMapping
    decide +kernel
  have hten : Binary64.ofInt? 10 ≠ none := Option.isSome_iff_ne_none.mp (by decide +kernel)
  have hzero : Binary64.ofInt? 0 ≠ none := Option.isSome_iff_ne_none.mp (by decide +kernel)
  have hconvertible : junkBeforeZero.IsConvertible := by
    simp [IsConvertible, junkBeforeZero, Datum.IsTooLarge, hten, hzero]
  obtain ⟨hsame, hsucceeds, hvaluations⟩ :=
    unusable_counts_as_unpublished hmapping hconvertible "A"
  have hnone : ∀ keys ∈ labelKeys, keys.filterMap (Datum.get? junkBeforeZero) = [] := by
    decide +kernel
  have hlabels : ∀ keys ∈ labelKeys, junkBeforeZero.IsWritten keys := by
    intro keys hkeys d hd
    rw [hnone keys hkeys] at hd
    contradiction
  obtain ⟨quote, hquote⟩ :=
    hsucceeds.mpr ⟨⟨"currentPrice", by decide, by decide +kernel⟩, hlabels⟩
  have hvalues := hvaluations quote hquote
  simp only [valuations, List.forall_mem_cons] at hvalues
  obtain ⟨hpe, -, -, heps, -⟩ := hvalues
  refine ⟨hmapping, hconvertible, hsame, quote, hquote, hpe.1.trans ?_, heps.1.trans ?_⟩
  · decide +kernel
  · decide +kernel

end Published

end Bourse
