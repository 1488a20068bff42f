import Bourse.Insertion
import Mathlib.Data.List.Basic
import Mathlib.Data.List.Forall2
import Mathlib.Order.Lattice

/-! Sorting by keys. A list is sorted stably if its keys ascend and the items of each key stand in the
order in which they came. There is one such list only, so any two ways of sorting give the same, and
a list whose items fall into an earlier and a later part is sorted part by part. -/
namespace Bourse

variable {α κ : Type} [LinearOrder κ] {key : α → κ} {xs ys zs : List α}

/-- Whether a list holds the items of another in the order of their keys, and those of one key in the
order in which they came. -/
structure IsSortOf (key : α → κ) (xs ys : List α) : Prop where
  pairwise : ys.Pairwise fun a b => key a ≤ key b
  filter_eq : ∀ k, (ys.filter fun a => key a = k) = xs.filter fun a => key a = k

theorem mem_filter_key (key : α → κ) {a : α} :
    (a ∈ xs.filter fun b => key b = key a) ↔ a ∈ xs := by
  rw [List.mem_filter, and_iff_left (decide_eq_true rfl)]

theorem mem_iff_of_filter_key_eq
    (h : ∀ k, (ys.filter fun a => key a = k) = xs.filter fun a => key a = k) {a : α} :
    a ∈ ys ↔ a ∈ xs := by
  have ha := h (key a)
  rw [← mem_filter_key key, ha, mem_filter_key]

theorem IsSortOf.mem_iff (h : IsSortOf key xs ys) {a : α} : a ∈ ys ↔ a ∈ xs :=
  mem_iff_of_filter_key_eq h.filter_eq

/-- Keys that ascend and the items of each key determine a list. -/
theorem eq_of_filter_key_eq (hys : ys.Pairwise fun a b => key a ≤ key b)
    (hzs : zs.Pairwise fun a b => key a ≤ key b)
    (h : ∀ k, (ys.filter fun a => key a = k) = zs.filter fun a => key a = k) : ys = zs := by
  induction ys generalizing zs with
  | nil =>
    apply Eq.symm
    apply List.eq_nil_iff_forall_not_mem.mpr
    intro a ha
    exact List.not_mem_nil ((mem_iff_of_filter_key_eq h).mpr ha)
  | cons y ys ih =>
    cases zs with
    | nil => exact absurd ((mem_iff_of_filter_key_eq h).mp List.mem_cons_self) List.not_mem_nil
    | cons z zs =>
      obtain ⟨hy, hysRest⟩ := List.pairwise_cons.mp hys
      obtain ⟨hz, hzsRest⟩ := List.pairwise_cons.mp hzs
      -- both lists begin with an item of the least key, and the first of these are the same
      have hleast {a : α} {rest : List α} (hrest : ∀ b ∈ rest, key a ≤ key b) {b : α}
          (hb : b ∈ a :: rest) : key a ≤ key b := by
        rcases List.mem_cons.mp hb with rfl | hb
        · exact le_rfl
        · exact hrest b hb
      have hkey : key z = key y := by
        apply le_antisymm
        · exact hleast hz ((mem_iff_of_filter_key_eq h).mp List.mem_cons_self)
        · exact hleast hy ((mem_iff_of_filter_key_eq h).mpr List.mem_cons_self)
      have hfirst := h (key y)
      rw [List.filter_cons, List.filter_cons, if_pos (decide_eq_true rfl),
        if_pos (decide_eq_true hkey)] at hfirst
      obtain ⟨rfl, -⟩ := List.cons.inj hfirst
      have hrest (k : κ) : (ys.filter fun a => key a = k) = zs.filter fun a => key a = k := by
        have hk := h k
        rw [List.filter_cons, List.filter_cons] at hk
        split_ifs at hk
        · exact (List.cons.inj hk).2
        · exact hk
      rw [ih hysRest hzsRest hrest]

theorem IsSortOf.unique (hys : IsSortOf key xs ys) (hzs : IsSortOf key xs zs) : ys = zs := by
  apply eq_of_filter_key_eq hys.pairwise hzs.pairwise
  intro k
  rw [hys.filter_eq, hzs.filter_eq]

theorem isSortOf_mergeSort (key : α → κ) (xs : List α) :
    IsSortOf key xs (xs.mergeSort fun a b => decide (key a ≤ key b)) := by
  have htrans (a b c : α) (hab : decide (key a ≤ key b) = true) (hbc : decide (key b ≤ key c) = true) :
      decide (key a ≤ key c) = true := by
    simp only [decide_eq_true_eq] at hab hbc ⊢
    exact hab.trans hbc
  have htotal (a b : α) : (decide (key a ≤ key b) || decide (key b ≤ key a)) = true := by
    simp only [Bool.or_eq_true, decide_eq_true_eq]
    exact le_total _ _
  constructor
  · have hsorted := List.pairwise_mergeSort htrans htotal xs
    simpa only [decide_eq_true_eq] using hsorted
  · intro k
    -- the items of one key are in order, so they stay a sublist, and none of them is added
    have hpairwise : (xs.filter fun a => key a = k).Pairwise
        fun a b => decide (key a ≤ key b) = true := by
      apply List.pairwise_of_forall_mem_list
      intro a ha b hb
      have hka := of_decide_eq_true (List.mem_filter.mp ha).2
      have hkb := of_decide_eq_true (List.mem_filter.mp hb).2
      exact decide_eq_true (hka.trans hkb.symm).le
    have hsublist := List.sublist_mergeSort htrans htotal hpairwise List.filter_sublist
    have hfiltered := hsublist.filter fun a => decide (key a = k)
    rw [List.filter_filter] at hfiltered
    simp only [Bool.and_self] at hfiltered
    apply Eq.symm
    apply hfiltered.eq_of_length
    exact ((List.mergeSort_perm xs _).filter _).length_eq.symm

/-- Nothing is lost or repeated by sorting. -/
theorem IsSortOf.perm (h : IsSortOf key xs ys) : ys.Perm xs := by
  rw [h.unique (isSortOf_mergeSort key xs)]
  exact List.mergeSort_perm _ _

/-- What holds of the items as they came holds of those of one key as they are sorted. -/
theorem IsSortOf.pairwise_lex {R : α → α → Prop} (h : IsSortOf key xs ys) (hxs : xs.Pairwise R) :
    ys.Pairwise fun a b => key a < key b ∨ key a = key b ∧ R a b := by
  apply List.pairwise_iff_forall_sublist.mpr
  intro a b hab
  rcases (List.pairwise_iff_forall_sublist.mp h.pairwise hab).lt_or_eq with hless | hequal
  · exact .inl hless
  · -- the two are items of one key, and these stand as they came
    have hpair : [a, b].filter (fun c => key c = key a) = [a, b] := by
      apply List.filter_eq_self.mpr
      intro c hc
      rcases List.mem_pair.mp hc with rfl | rfl
      · exact decide_eq_true rfl
      · exact decide_eq_true hequal.symm
    have hkey := hab.filter fun c => decide (key c = key a)
    rw [hpair, h.filter_eq] at hkey
    exact .inr ⟨hequal, List.pairwise_iff_forall_sublist.mp hxs (hkey.trans List.filter_sublist)⟩

/-- What is taken out of a list and ascends already is taken out of the sorted list as it is. -/
theorem IsSortOf.filterMap_eq {β : Type} {f : α → Option β} {key' : β → κ} (h : IsSortOf key xs ys)
    (hkey : ∀ a b, f a = some b → key' b = key a)
    (hxs : (xs.filterMap f).Pairwise fun a b => key' a ≤ key' b) :
    ys.filterMap f = xs.filterMap f := by
  have hfilter (zs : List α) (k : κ) : ((zs.filterMap f).filter fun b => key' b = k) =
      (zs.filter fun a => key a = k).filterMap f := by
    rw [List.filter_filterMap, List.filterMap_filter]
    apply List.filterMap_congr
    intro a _
    cases hf : f a with
    | none => split_ifs <;> rfl
    | some b =>
      rw [Option.filter_some, hkey a b hf]
  have hys : (ys.filterMap f).Pairwise fun a b => key' a ≤ key' b := by
    apply List.pairwise_filterMap.mpr
    apply h.pairwise.imp
    intro a b hab a' ha' b' hb'
    rw [hkey a a' ha', hkey b b' hb']
    exact hab
  apply eq_of_filter_key_eq hys hxs
  intro k
  rw [hfilter, hfilter, h.filter_eq]

/-- Lists that correspond item by item, with the same keys, do so as they are sorted. -/
theorem forall₂_mergeSort {β : Type} {R : α → β → Prop} {key' : β → κ} {others : List β}
    (h : List.Forall₂ R xs others) (hkey : ∀ a b, R a b → key a = key' b) :
    List.Forall₂ R (xs.mergeSort fun a b => decide (key a ≤ key b))
      (others.mergeSort fun a b => decide (key' a ≤ key' b)) := by
  obtain ⟨hlength, hzip⟩ := List.forall₂_iff_zip.mp h
  have hpairs : ∀ pair ∈ xs.zip others, R pair.1 pair.2 := fun pair hpair => hzip hpair
  have hsorted {γ : Type} (key' : γ → κ) (f : α × β → γ)
      (hf : ∀ pair ∈ xs.zip others, key pair.1 = key' (f pair)) :
      ((xs.zip others).mergeSort fun a b => decide (key a.1 ≤ key b.1)).map f =
        ((xs.zip others).map f).mergeSort fun a b => decide (key' a ≤ key' b) := by
    apply List.map_mergeSort
    intro a ha b hb
    rw [hf a ha, hf b hb]
  have hfirst := hsorted key Prod.fst fun _ _ => rfl
  have hsecond := hsorted key' Prod.snd fun pair hpair => hkey _ _ (hpairs pair hpair)
  rw [List.map_fst_zip hlength.le] at hfirst
  rw [List.map_snd_zip hlength.ge] at hsecond
  rw [← hfirst, ← hsecond, List.forall₂_map_left_iff, List.forall₂_map_right_iff,
    List.forall₂_same]
  exact fun pair hpair => hpairs pair (List.mem_mergeSort.mp hpair)

/-- Where the items of a first part have earlier keys than the rest, the parts are sorted one by one. -/
theorem IsSortOf.append {p : α → Bool} (hys : IsSortOf key (xs.filter p) ys)
    (hzs : IsSortOf key (xs.filter fun a => !p a) zs)
    (h : ∀ a ∈ xs, ∀ b ∈ xs, p a = true → p b = false → key a < key b) :
    IsSortOf key xs (ys ++ zs) := by
  constructor
  · apply List.pairwise_append.mpr
    refine ⟨hys.pairwise, hzs.pairwise, ?_⟩
    intro a ha b hb
    obtain ⟨ha, hpa⟩ := List.mem_filter.mp (hys.mem_iff.mp ha)
    obtain ⟨hb, hpb⟩ := List.mem_filter.mp (hzs.mem_iff.mp hb)
    exact (h a ha b hb hpa (by simpa using hpb)).le
  · intro k
    rw [List.filter_append, hys.filter_eq, hzs.filter_eq, List.filter_filter, List.filter_filter]
    -- the items of one key are all in the same part
    by_cases hfirst : ∃ a ∈ xs, p a = true ∧ key a = k
    · obtain ⟨a, ha, hpa, rfl⟩ := hfirst
      have hall : ∀ b ∈ xs, key b = key a → p b = true := by
        intro b hb hkey
        by_contra hpb
        exact (h a ha b hb hpa (Bool.eq_false_iff.mpr hpb)).ne hkey.symm
      have hright : (xs.filter fun b => decide (key b = key a) && !p b) = [] := by
        apply List.filter_eq_nil_iff.mpr
        intro b hb
        simp only [Bool.and_eq_true, decide_eq_true_eq, not_and]
        intro hkey
        rw [hall b hb hkey]
        decide
      rw [hright, List.append_nil]
      apply List.filter_congr
      intro b hb
      by_cases hkey : key b = key a
      · rw [hall b hb hkey, Bool.and_true]
      · rw [decide_eq_false hkey, Bool.false_and]
    · have hnone : ∀ b ∈ xs, key b = k → p b = false := by
        intro b hb hkey
        by_contra hpb
        exact hfirst ⟨b, hb, by simpa using hpb, hkey⟩
      have hleft : (xs.filter fun b => decide (key b = k) && p b) = [] := by
        apply List.filter_eq_nil_iff.mpr
        intro b hb
        simp only [Bool.and_eq_true, decide_eq_true_eq, not_and]
        intro hkey
        rw [hnone b hb hkey]
        decide
      rw [hleft, List.nil_append]
      apply List.filter_congr
      intro b hb
      by_cases hkey : key b = k
      · rw [hnone b hb hkey, Bool.not_false, Bool.and_true]
      · rw [decide_eq_false hkey, Bool.false_and]

/-! Binary insertion -/

namespace Insertion

variable {less : α → α → Bool} {P : α → Prop} {x : α} {sorted : List α}

/-- Whether the items before one place do not have a later key than an item, and those from another
place on have a later one. -/
def Splits (key : α → κ) (x : α) (sorted : List α) (low high : Nat) : Prop :=
  ∀ i y, sorted[i]? = some y → (i < low → key y ≤ key x) ∧ (high ≤ i → key x < key y)

theorem key_le_of_le {i j : Nat} {a b : α} (hsorted : sorted.Pairwise fun a b => key a ≤ key b)
    (ha : sorted[i]? = some a) (hb : sorted[j]? = some b) (hij : i ≤ j) : key a ≤ key b := by
  rcases Nat.eq_or_lt_of_le hij with rfl | hless
  · rw [ha] at hb
    cases hb
    exact le_rfl
  · obtain ⟨hi, rfl⟩ := List.getElem?_eq_some_iff.mp ha
    obtain ⟨hj, rfl⟩ := List.getElem?_eq_some_iff.mp hb
    exact List.pairwise_iff_getElem.mp hsorted i j hi hj hless

/-- The search halves the places that are left and keeps the items outside of them apart. -/
theorem splits_place (hless : ∀ y ∈ sorted, less x y = decide (key x < key y))
    (hsorted : sorted.Pairwise fun a b => key a ≤ key b) {low high : Nat} (hle : low ≤ high)
    (hhigh : high ≤ sorted.length) (h : Splits key x sorted low high) :
    Splits key x sorted (place less x sorted low high) (place less x sorted low high) := by
  fun_induction place less x sorted low high with
  | case1 low high hlt middle y hy hbefore ih =>
    rw [hless y (List.mem_of_getElem? hy), decide_eq_true_eq] at hbefore
    apply ih (by omega) (by omega)
    intro i z hz
    refine ⟨(h i z hz).1, fun hi => ?_⟩
    exact hbefore.trans_le (key_le_of_le hsorted hy hz hi)
  | case2 low high hlt middle y hy hbefore ih =>
    rw [hless y (List.mem_of_getElem? hy), decide_eq_true_eq, not_lt] at hbefore
    apply ih (by omega) hhigh
    intro i z hz
    refine ⟨fun hi => ?_, (h i z hz).2⟩
    exact (key_le_of_le hsorted hz hy (Nat.le_of_lt_succ hi)).trans hbefore
  | case3 low high hlt middle hnone =>
    rw [List.getElem?_eq_none_iff] at hnone
    omega
  | case4 low high hlt =>
    obtain rfl : low = high := by omega
    exact h

theorem splits_start (key : α → κ) (x : α) (sorted : List α) :
    Splits key x sorted 0 sorted.length := by
  intro i y hy
  obtain ⟨hi, -⟩ := List.getElem?_eq_some_iff.mp hy
  exact ⟨fun h => absurd h (Nat.not_lt_zero i), fun h => absurd hi (Nat.not_lt.mpr h)⟩

/-- A further item goes behind those of its key. -/
theorem isSortOf_insert (hless : ∀ y ∈ sorted, less x y = decide (key x < key y))
    (h : IsSortOf key xs sorted) : IsSortOf key (xs ++ [x]) (insert less sorted x) := by
  have hsplits := splits_place hless h.pairwise (Nat.zero_le _) (Nat.le_refl _) (splits_start key x sorted)
  unfold insert
  dsimp only
  generalize place less x sorted 0 sorted.length = index at hsplits
  have hfront : ∀ y ∈ sorted.take index, key y ≤ key x := by
    intro y hy
    obtain ⟨i, hi⟩ := List.mem_iff_getElem?.mp hy
    rw [List.getElem?_take] at hi
    split_ifs at hi with hindex
    exact (hsplits i y hi).1 hindex
  have hback : ∀ y ∈ sorted.drop index, key x < key y := by
    intro y hy
    obtain ⟨i, hi⟩ := List.mem_iff_getElem?.mp hy
    rw [List.getElem?_drop] at hi
    exact (hsplits (index + i) y hi).2 (Nat.le_add_right index i)
  have hparts := h.pairwise
  rw [← List.take_append_drop index sorted, List.pairwise_append] at hparts
  obtain ⟨hfrontSorted, hbackSorted, hacross⟩ := hparts
  constructor
  · apply List.pairwise_append.mpr
    refine ⟨hfrontSorted, ?_, ?_⟩
    · apply List.pairwise_cons.mpr
      exact ⟨fun y hy => (hback y hy).le, hbackSorted⟩
    · intro a ha b hb
      rcases List.mem_cons.mp hb with rfl | hb
      · exact hfront a ha
      · exact hacross a ha b hb
  · intro k
    have hfilter := h.filter_eq k
    rw [← List.take_append_drop index sorted, List.filter_append] at hfilter
    rw [List.filter_append, List.filter_append, ← hfilter, List.filter_cons, List.filter_cons,
      List.filter_nil]
    by_cases hkey : key x = k
    · -- behind the item there is none of its key
      have hnone : ((sorted.drop index).filter fun a => key a = k) = [] := by
        apply List.filter_eq_nil_iff.mpr
        intro y hy
        rw [decide_eq_true_eq, ← hkey]
        exact (hback y hy).ne'
      rw [hnone, List.append_nil]
    · rw [if_neg (by simpa using hkey), if_neg (by simpa using hkey), List.append_nil]

/-! The run at the front -/

theorem ascending_spec (hless : ∀ a b, P a → P b → less a b = decide (key a < key b)) {last : α}
    {items : List α} (hlast : P last) (hitems : ∀ a ∈ items, P a) :
    items = (ascending less last items).1 ++ (ascending less last items).2 ∧
      (last :: (ascending less last items).1).Pairwise fun a b => key a ≤ key b := by
  fun_induction ascending less last items with
  | case1 last => exact ⟨rfl, List.pairwise_singleton _ _⟩
  | case2 last x rest hbefore => exact ⟨rfl, List.pairwise_singleton _ _⟩
  | case3 last x rest hbefore run more hrun ih =>
    obtain ⟨hx, hrest⟩ := List.forall_mem_cons.mp hitems
    rw [hless x last hx hlast, decide_eq_true_eq, not_lt] at hbefore
    obtain ⟨hsplit, hpairwise⟩ := ih hx hrest
    rw [hrun] at hsplit hpairwise
    refine ⟨congrArg (List.cons x) hsplit, List.pairwise_cons.mpr ⟨?_, hpairwise⟩⟩
    intro a ha
    rcases List.mem_cons.mp ha with rfl | ha
    · exact hbefore
    · exact hbefore.trans ((List.pairwise_cons.mp hpairwise).1 a ha)

theorem descending_spec (hless : ∀ a b, P a → P b → less a b = decide (key a < key b)) {last : α}
    {items : List α} (hlast : P last) (hitems : ∀ a ∈ items, P a) :
    items = (descending less last items).1 ++ (descending less last items).2 ∧
      (last :: (descending less last items).1).Pairwise fun a b => key b < key a := by
  fun_induction descending less last items with
  | case1 last => exact ⟨rfl, List.pairwise_singleton _ _⟩
  | case2 last x rest hbefore run more hrun ih =>
    obtain ⟨hx, hrest⟩ := List.forall_mem_cons.mp hitems
    rw [hless x last hx hlast, decide_eq_true_eq] at hbefore
    obtain ⟨hsplit, hpairwise⟩ := ih hx hrest
    rw [hrun] at hsplit hpairwise
    refine ⟨congrArg (List.cons x) hsplit, List.pairwise_cons.mpr ⟨?_, hpairwise⟩⟩
    intro a ha
    rcases List.mem_cons.mp ha with rfl | ha
    · exact hbefore
    · exact ((List.pairwise_cons.mp hpairwise).1 a ha).trans hbefore
  | case3 last x rest hbefore => exact ⟨rfl, List.pairwise_singleton _ _⟩

/-- A list whose keys strictly descend has one item of each key, so it may be turned round. -/
theorem isSortOf_reverse (h : xs.Pairwise fun a b => key b < key a) :
    IsSortOf key xs xs.reverse := by
  constructor
  · rw [List.pairwise_reverse]
    exact h.imp fun hlt => hlt.le
  · intro k
    rw [List.filter_reverse]
    have hfiltered := h.filter fun a => decide (key a = k)
    have hkeys : ∀ a ∈ xs.filter fun a => key a = k, key a = k := fun a ha =>
      of_decide_eq_true (List.mem_filter.mp ha).2
    rcases hlist : xs.filter fun a => key a = k with _ | ⟨a, _ | ⟨b, more⟩⟩
    · rfl
    · rfl
    · -- two items of one key do not descend
      rw [hlist] at hfiltered hkeys
      have hdescends := (List.pairwise_cons.mp hfiltered).1 b List.mem_cons_self
      rw [hkeys a List.mem_cons_self, hkeys b (List.mem_cons_of_mem a List.mem_cons_self)] at hdescends
      exact absurd hdescends (lt_irrefl k)

theorem isSortOf_of_pairwise (h : xs.Pairwise fun a b => key a ≤ key b) : IsSortOf key xs xs :=
  ⟨h, fun _ => rfl⟩

theorem isSortOf_leadingRun (hless : ∀ a b, P a → P b → less a b = decide (key a < key b))
    {items : List α} (hitems : ∀ a ∈ items, P a) :
    ∃ front, items = front ++ (leadingRun less items).2 ∧
      IsSortOf key front (leadingRun less items).1 := by
  match items, hitems with
  | [], _ => exact ⟨[], rfl, isSortOf_of_pairwise List.Pairwise.nil⟩
  | [x], _ => exact ⟨[x], rfl, isSortOf_of_pairwise (List.pairwise_singleton _ _)⟩
  | x :: y :: rest, hitems =>
    obtain ⟨hx, hitems⟩ := List.forall_mem_cons.mp hitems
    obtain ⟨hy, hrest⟩ := List.forall_mem_cons.mp hitems
    have hfirst := hless y x hy hx
    have hrest' : ∀ a ∈ y :: rest, P a := List.forall_mem_cons.mpr ⟨hy, hrest⟩
    -- the first two items tell whether the run ascends
    cases hbefore : less y x with
    | true =>
      obtain ⟨hsplit, hpairwise⟩ := descending_spec hless hx hrest'
      rw [descending, hbefore, if_pos rfl] at hsplit hpairwise
      rw [leadingRun, hbefore, if_pos rfl]
      exact ⟨_, congrArg (List.cons x) hsplit, isSortOf_reverse hpairwise⟩
    | false =>
      obtain ⟨hsplit, hpairwise⟩ := ascending_spec hless hx hrest'
      rw [ascending, hbefore, if_neg Bool.false_ne_true] at hsplit hpairwise
      rw [leadingRun, hbefore, if_neg Bool.false_ne_true]
      exact ⟨_, congrArg (List.cons x) hsplit, isSortOf_of_pairwise hpairwise⟩

/-- Sorting by binary insertion is stable. -/
theorem isSortOf_sort (hless : ∀ a b, P a → P b → less a b = decide (key a < key b))
    {items : List α} (hitems : ∀ a ∈ items, P a) : IsSortOf key items (sort less items) := by
  obtain ⟨front, hsplit, hrun⟩ := isSortOf_leadingRun hless hitems
  rw [hsplit] at hitems
  obtain ⟨hfront, hrest⟩ := List.forall_mem_append.mp hitems
  unfold sort
  -- one item after another goes from the rest into the run
  have hinsert (front rest run : List α) (hrun : IsSortOf key front run) (hfront : ∀ a ∈ front, P a)
      (hrest : ∀ a ∈ rest, P a) : IsSortOf key (front ++ rest) (rest.foldl (insert less) run) := by
    induction rest generalizing front run with
    | nil =>
      rw [List.append_nil]
      exact hrun
    | cons x rest ih =>
      obtain ⟨hx, hrest⟩ := List.forall_mem_cons.mp hrest
      have hstep : IsSortOf key (front ++ [x]) (insert less run x) := by
        apply isSortOf_insert _ hrun
        intro y hy
        exact hless x y hx (hfront y (hrun.mem_iff.mp hy))
      have hfront' : ∀ a ∈ front ++ [x], P a :=
        List.forall_mem_append.mpr ⟨hfront, List.forall_mem_singleton.mpr hx⟩
      have hall := ih (front ++ [x]) (insert less run x) hstep hfront' hrest
      rwa [List.append_assoc, List.singleton_append] at hall
  have hsorted := hinsert front _ _ hrun hfront hrest
  rwa [← hsplit] at hsorted

end Insertion

end Bourse
