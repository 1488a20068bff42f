import Bourse.Market.Published
import Bourse.Proofs.Number.Coding
import Bourse.Proofs.Results

/-! Which published figures make a quote. A price is all that a quote needs: any other figure may be
missing or may be something else than a number. There are two exceptions, an integer too large for a
binary64 number where a figure is looked up, and one of too many digits where a label is. -/
namespace Bourse

namespace Datum

/-- The binary64 number that a datum converts to. A truth value is no number here. -/
def number? : Datum → Option Float
  | .int n => Binary64.ofInt? n
  | .real x => some x
  | .text s => Numeral.float? s.toList
  | _ => none

/-- The finite number that a datum converts to. -/
def finiteNumber? (d : Datum) : Option Float := d.number?.filter (·.isFinite)

/-- Whether a datum is an integer too large for a binary64 number. -/
def IsTooLarge (d : Datum) : Prop := ∃ n, d = .int n ∧ Binary64.ofInt? n = none

end Datum

namespace Published

variable {published : Published} {key : String} {keys : List String}

/-- What stands under a key. -/
def datum (published : Published) (key : String) : Datum := (Datum.get? published key).getD .null

/-- Whether a finite number stands under a key. -/
def Counts (published : Published) (key : String) : Prop :=
  ∃ x, (published.datum key).finiteNumber? = some x

/-- Whether a figure can be looked up under some keys: no integer that is too large stands before
the first figure that counts. -/
def Fits (published : Published) : List String → Prop
  | [] => True
  | key :: keys => ¬(published.datum key).IsTooLarge ∧ (published.Counts key ∨ Fits published keys)

/-- Whether a label can be written: so can the first datum under its keys that counts as true. -/
def IsWritten (published : Published) (keys : List String) : Prop :=
  ∀ d, (keys.filterMap (Datum.get? published)).find? (·.isTrue) = some d → d.isWritable = true

/-! Figures -/

theorem number?_of_isTooLarge {d : Datum} (h : d.IsTooLarge) :
    number? key d = .error (.tooLarge key) := by
  obtain ⟨n, rfl, hn⟩ := h
  rw [number?, hn]

theorem number?_of_not_isTooLarge {d : Datum} (h : ¬d.IsTooLarge) :
    number? key d = .ok d.finiteNumber? := by
  have hfinite (x : Float) : finite? x = (some x).filter (·.isFinite) := by
    rw [finite?, Option.filter_some]
  cases d with
  | int n =>
    cases hn : Binary64.ofInt? n with
    | none => exact absurd ⟨n, rfl, hn⟩ h
    | some x =>
      -- an integer is finite anyway, so that is not asked of it
      rw [number?, Datum.finiteNumber?, Datum.number?, hn, Option.filter_some,
        if_pos (Binary64.isFinite_of_ofInt? hn)]
  | real x => rw [number?, hfinite, Datum.finiteNumber?, Datum.number?]
  | text s =>
    rw [number?, Datum.finiteNumber?, Datum.number?]
    cases Numeral.float? s.toList with
    | none => rfl
    | some x => rw [Option.bind_some, hfinite]
  | _ => rfl

/-- A figure that can be looked up is the first finite number under its keys. -/
theorem figure?_eq_ok_iff {found : Option Float} : figure? published keys = .ok found ↔
    published.Fits keys ∧ found = keys.findSome? fun key => (published.datum key).finiteNumber? := by
  induction keys with
  | nil =>
    rw [figure?, Fits, true_and, List.findSome?_nil, Except.ok.injEq, eq_comm]
  | cons key keys ih =>
    rw [figure?, Fits, Counts, ← datum, List.findSome?_cons]
    by_cases hlarge : (published.datum key).IsTooLarge
    · rw [number?_of_isTooLarge hlarge]
      exact iff_of_false nofun fun h => h.1.1 hlarge
    · rw [number?_of_not_isTooLarge hlarge, and_iff_right hlarge]
      cases (published.datum key).finiteNumber? with
      | some x =>
        rw [and_iff_right (.inl ⟨x, rfl⟩)]
        exact (Except.ok.injEq _ _).to_iff.trans eq_comm
      | none =>
        rw [or_iff_right nofun]
        exact ih

/-- Looking a figure up can only fail at an integer that is too large. -/
theorem failsWithin_figure? :
    FailsWithin (fun e => ∃ key ∈ keys, e = .tooLarge key) (figure? published keys) := by
  induction keys with
  | nil => exact failsWithin_ok none
  | cons key keys ih =>
    refine FailsWithin.bind (fun e he => ?_) fun found _ => ?_
    · by_cases hlarge : (published.datum key).IsTooLarge
      · rw [← datum, number?_of_isTooLarge hlarge, Except.error.injEq] at he
        exact ⟨key, List.mem_cons_self, he.symm⟩
      · rw [← datum, number?_of_not_isTooLarge hlarge] at he
        contradiction
    · cases found with
      | some x => exact failsWithin_ok _
      | none =>
        intro e he
        obtain ⟨later, hlater, rfl⟩ := ih e he
        exact ⟨later, List.mem_cons_of_mem _ hlater, rfl⟩

theorem succeeds_figure?_iff : Succeeds (figure? published keys) ↔ published.Fits keys := by
  simp only [Succeeds, figure?_eq_ok_iff, exists_eq_right]

theorem succeeds_figure_iff : Succeeds (figure published keys) ↔ published.Fits keys := by
  rw [← succeeds_figure?_iff, ← and_true (Succeeds (figure? published keys))]
  refine succeeds_bind_const_iff fun found => iff_true_intro ?_
  cases found <;> exact succeeds_ok _

theorem succeeds_whole_iff : Succeeds (whole published keys) ↔ published.Fits keys := by
  rw [whole, succeeds_bind_pure_iff, succeeds_figure_iff]

theorem succeeds_label_iff : Succeeds (label published keys) ↔ published.IsWritten keys := by
  unfold label IsWritten
  cases (keys.filterMap (Datum.get? published)).find? (·.isTrue) with
  | none => exact iff_of_true (succeeds_ok "") nofun
  | some d =>
    simp only [Option.some.injEq, forall_eq']
    split_ifs with hwritable
    · exact iff_of_true (succeeds_ok _) hwritable
    · exact iff_of_false nofun hwritable

/-- The fraction is looked up only if the percentage does not count. -/
theorem succeeds_yearChangePercent_iff : Succeeds (yearChangePercent published) ↔
    published.Fits ["fiftyTwoWeekChangePercent", "52WeekChange"] := by
  have hsingle {key : String} {found : Option Float} (hfits : published.Fits [key])
      (hfound : (published.datum key).finiteNumber? = found) :
      figure? published [key] = .ok found := by
    rw [figure?_eq_ok_iff, List.findSome?_singleton, hfound]
    exact ⟨hfits, rfl⟩
  by_cases hlarge : (published.datum "fiftyTwoWeekChangePercent").IsTooLarge
  · refine iff_of_false (fun h => ?_) fun h => h.1 hlarge
    obtain ⟨found, hfound, -⟩ := succeeds_bind_iff.mp h
    exact (figure?_eq_ok_iff.mp hfound).1.1 hlarge
  · cases hpercent : (published.datum "fiftyTwoWeekChangePercent").finiteNumber? with
    | some percent =>
      rw [yearChangePercent, hsingle ⟨hlarge, .inr trivial⟩ hpercent]
      exact iff_of_true (succeeds_ok percent) ⟨hlarge, .inl ⟨percent, hpercent⟩⟩
    | none =>
      have hcounts : ¬published.Counts "fiftyTwoWeekChangePercent" := fun ⟨_, hx⟩ =>
        nomatch hpercent.symm.trans hx
      rw [yearChangePercent, hsingle ⟨hlarge, .inr trivial⟩ hpercent, Fits, and_iff_right hlarge,
        or_iff_right hcounts]
      exact succeeds_bind_pure_iff.trans succeeds_figure_iff

/-! Quotes -/

/-- The keys of the price. -/
def priceKeys : List String := ["regularMarketPrice", "currentPrice"]

/-- The keys of the other figures of a quote. -/
def figureKeys : List (List String) :=
  [["regularMarketPreviousClose", "previousClose"], ["regularMarketChange"],
    ["regularMarketChangePercent"], ["fiftyTwoWeekChangePercent", "52WeekChange"],
    ["regularMarketOpen", "open"], ["regularMarketDayHigh", "dayHigh"],
    ["regularMarketDayLow", "dayLow"], ["regularMarketVolume", "volume"],
    ["averageVolume", "averageDailyVolume3Month"], ["bid"], ["ask"], ["marketCap"],
    ["fiftyTwoWeekHigh"], ["fiftyTwoWeekLow"], ["fiftyDayAverage"], ["twoHundredDayAverage"],
    ["trailingPE"], ["forwardPE"], ["priceToBook"], ["trailingEps", "epsTrailingTwelveMonths"],
    ["dividendYield"]]

/-- The keys of the labels of a quote. -/
def labelKeys : List (List String) := [["shortName", "longName"], ["currency"], ["exchange"]]

/-- Whether a price is published. -/
def HasPrice (published : Published) : Prop := ∃ key ∈ priceKeys, published.Counts key

/-- Whether all figures but the price can be looked up and all labels can be written. -/
structure IsSound (published : Published) : Prop where
  figures : ∀ keys ∈ figureKeys, published.Fits keys
  labels : ∀ keys ∈ labelKeys, published.IsWritten keys

theorem isSound_iff : published.IsSound ↔
    (∀ keys ∈ figureKeys, published.Fits keys) ∧ ∀ keys ∈ labelKeys, published.IsWritten keys :=
  ⟨fun h => ⟨h.figures, h.labels⟩, fun h => ⟨h.1, h.2⟩⟩

theorem succeeds_atPrice_iff {symbol : String} {price : Float} :
    Succeeds (Quote.atPrice symbol published price) ↔ published.IsSound := by
  have hfold {α : Type} (x : Except QuoteError α) : (∃ a, x = .ok a) ↔ Succeeds x := Iff.rfl
  have hpure (quote : Quote) : Succeeds (pure quote : Except QuoteError Quote) ↔ True :=
    iff_true_intro (succeeds_ok quote)
  -- whether a step succeeds does not depend on what the steps before it gave
  simp only [Quote.atPrice, succeeds_bind_iff, hpure, exists_and_right, hfold,
    succeeds_figure_iff, succeeds_figure?_iff, succeeds_whole_iff, succeeds_label_iff,
    succeeds_yearChangePercent_iff]
  simp only [isSound_iff, figureKeys, labelKeys, List.forall_mem_cons]
  tauto

/-- The price that is published: the first figure under its keys. -/
def price? (published : Published) : Option Float :=
  priceKeys.findSome? fun key => (published.datum key).finiteNumber?

theorem hasPrice_iff : published.HasPrice ↔ ∃ price, published.price? = some price := by
  rw [← Option.isSome_iff_exists, price?, List.findSome?_isSome_iff]
  simp only [HasPrice, Counts, Option.isSome_iff_exists]

theorem not_hasPrice_iff : ¬published.HasPrice ↔ published.price? = none := by
  rw [hasPrice_iff, ← Option.ne_none_iff_exists', not_not]

/-- Whether the published figures make a quote just if a price is among them, and the lack of a price
is what is reported otherwise. -/
def AnswersByPrice (symbol : String) (published : Published) : Prop :=
  (Succeeds (Quote.ofPublished symbol published) ↔ published.HasPrice) ∧
    (¬published.HasPrice → Quote.ofPublished symbol published = .error (.noPrice symbol))

theorem ofPublished_of_price? {price : Float} (symbol : String) (hfits : published.Fits priceKeys)
    (hprice : published.price? = some price) :
    Quote.ofPublished symbol published = Quote.atPrice symbol published price := by
  have hfound := figure?_eq_ok_iff.mpr ⟨hfits, hprice.symm⟩
  rw [Quote.ofPublished, ← priceKeys, hfound]
  rfl

theorem ofPublished_of_not_hasPrice (symbol : String) (hfits : published.Fits priceKeys)
    (hprice : ¬published.HasPrice) :
    Quote.ofPublished symbol published = .error (.noPrice symbol) := by
  have hfound := figure?_eq_ok_iff.mpr ⟨hfits, (not_hasPrice_iff.mp hprice).symm⟩
  rw [Quote.ofPublished, ← priceKeys, hfound]
  rfl

theorem ofPublished_of_not_fits (symbol : String) (hfits : ¬published.Fits priceKeys) :
    ∃ key ∈ priceKeys, Quote.ofPublished symbol published = .error (.tooLarge key) := by
  rw [← succeeds_figure?_iff] at hfits
  cases hfound : figure? published priceKeys with
  | ok found => exact absurd ⟨found, hfound⟩ hfits
  | error e =>
    obtain ⟨key, hkey, rfl⟩ := failsWithin_figure? e hfound
    refine ⟨key, hkey, ?_⟩
    rw [Quote.ofPublished, ← priceKeys, hfound]
    rfl

theorem succeeds_ofPublished_iff (symbol : String) (published : Published) :
    Succeeds (Quote.ofPublished symbol published) ↔
      published.Fits priceKeys ∧ published.HasPrice ∧ published.IsSound := by
  by_cases hfits : published.Fits priceKeys
  · rw [and_iff_right hfits]
    by_cases hprice : published.HasPrice
    · obtain ⟨price, hfound⟩ := hasPrice_iff.mp hprice
      rw [ofPublished_of_price? symbol hfits hfound, succeeds_atPrice_iff, and_iff_right hprice]
    · rw [ofPublished_of_not_hasPrice symbol hfits hprice]
      exact iff_of_false (not_succeeds_error _) fun h => hprice h.1
  · obtain ⟨key, -, herror⟩ := ofPublished_of_not_fits symbol hfits
    rw [herror]
    exact iff_of_false (not_succeeds_error _) fun h => hfits h.1

/-- The lack of a price is only noticed if both of its keys can be looked at. -/
theorem ofPublished_eq_noPrice_iff (symbol : String) (hprice : ¬published.HasPrice) :
    Quote.ofPublished symbol published = .error (.noPrice symbol) ↔ published.Fits priceKeys := by
  constructor
  · intro hreports
    by_contra hfits
    obtain ⟨key, -, herror⟩ := ofPublished_of_not_fits symbol hfits
    exact nomatch hreports.symm.trans herror
  · exact fun hfits => ofPublished_of_not_hasPrice symbol hfits hprice

/-- Besides a price, a quote needs that no figure looked up for it is an integer too large for a
binary64 number and that its labels can be written. Without a price, only the keys of the price are
looked at. -/
theorem answersByPrice_iff (symbol : String) (published : Published) :
    AnswersByPrice symbol published ↔
      published.Fits priceKeys ∧ (published.HasPrice → published.IsSound) := by
  rw [AnswersByPrice, succeeds_ofPublished_iff]
  by_cases hprice : published.HasPrice
  · rw [and_iff_left (absurd hprice), and_iff_right hprice, iff_true_right hprice, imp_iff_right hprice]
  · rw [imp_iff_right hprice, ofPublished_eq_noPrice_iff symbol hprice, and_iff_left (absurd · hprice)]
    exact and_iff_right (iff_of_false (fun h => hprice h.2.1) hprice)

/-- A bid of `10 ^ 400` keeps a price of 1 from making a quote. -/
theorem huge_bid_breaks_off :
    ¬AnswersByPrice "A" [(.text "regularMarketPrice", .int 1), (.text "bid", .int (10 ^ 400))] := by
  rintro ⟨hsucceeds, -⟩
  have hprice : HasPrice [(.text "regularMarketPrice", .int 1), (.text "bid", .int (10 ^ 400))] := by
    obtain ⟨x, hx⟩ : ∃ x, Binary64.ofInt? 1 = some x :=
      Option.isSome_iff_exists.mp (by decide +kernel)
    refine ⟨"regularMarketPrice", List.mem_cons_self, x, ?_⟩
    change (Binary64.ofInt? 1).filter (·.isFinite) = some x
    rw [hx, Option.filter_some, if_pos (Binary64.isFinite_of_ofInt? hx)]
  obtain ⟨-, -, hsound⟩ := (succeeds_ofPublished_iff _ _).mp (hsucceeds.mpr hprice)
  have hbid := hsound.figures ["bid"] (by decide)
  have hhuge : Binary64.ofInt? (10 ^ 400) = none := Option.isNone_iff_eq_none.mp (by decide +kernel)
  exact hbid.1 ⟨10 ^ 400, rfl, hhuge⟩

end Published

end Bourse
