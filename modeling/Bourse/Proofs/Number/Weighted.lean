import Bourse.Proofs.Number.Scale
import Mathlib.Analysis.Convex.Combination
import Mathlib.Data.Set.Finite.Lemmas

/-! Weighted means. A mean takes each of its values a number of times that is not negative, one time
in all. It is known only if all of its values are, and then it belongs to every convex set that
holds them. -/
namespace Bourse.Exact

variable {K : Type} [RootField K]

open Scalar Series

/-- The sum of values, each taken as many times as its weight. -/
def weighted (weights : List K) (values : List (Exact K)) : Exact K :=
  (List.zipWith scale weights values).sum

/-- Weights of a mean stand one for each value, and a number is the mean of the values. -/
structure IsMeanOf (weights : List K) (values : List (Exact K)) (x : Exact K) : Prop where
  length_eq : weights.length = values.length
  nonneg : ∀ w ∈ weights, 0 ≤ w
  sum_eq : weights.sum = 1
  eq_weighted : x = weighted weights values

/-! Sums -/

theorem weighted_append {weights more : List K} {values others : List (Exact K)}
    (h : weights.length = values.length) :
    weighted (weights ++ more) (values ++ others) =
      weighted weights values + weighted more others := by
  rw [weighted, List.zipWith_append h, List.sum_append]
  rfl

theorem weighted_singleton (w : K) (x : Exact K) : weighted [w] [x] = scale w x :=
  add_zero (scale w x)

theorem scale_weighted (c : K) (weights : List K) (values : List (Exact K)) :
    scale c (weighted weights values) = weighted (weights.map (c * ·)) values := by
  rw [weighted, weighted, ← sum_map_scale, List.map_zipWith, List.zipWith_map_left]
  simp only [scale_scale]

theorem weighted_replicate_one (values : List (Exact K)) :
    weighted (List.replicate values.length 1) values = values.sum := by
  induction values with
  | nil => rfl
  | cons x rest ih =>
    have hcons : weighted (List.replicate (x :: rest).length 1) (x :: rest) =
        scale 1 x + weighted (List.replicate rest.length 1) rest := rfl
    rw [hcons, scale_one, ih, List.sum_cons]

theorem weighted_known (weights values : List K) :
    weighted weights (values.map known) = known (List.zipWith (· * ·) weights values).sum := by
  rw [weighted, List.zipWith_map_right, ← sum_map_known, List.map_zipWith]
  rfl

/-! Means of shares -/

theorem div_known_eq_scale (a : Exact K) {b : K} (h : b ≠ 0) : a / known b = scale (1 / b) a := by
  cases a with
  | missing => rfl
  | known x => rw [known_div x h, scale_known, one_div_mul_eq_div]

/-- Values that share a total are weighted by their parts of it. -/
theorem isMeanOf_shares {shares : List K} {values : List (Exact K)}
    (hlength : shares.length = values.length) (hnonneg : ∀ s ∈ shares, 0 ≤ s) {total : K}
    (htotal : shares.sum = total) (hne : total ≠ 0) :
    IsMeanOf (shares.map (· / total)) values (weighted shares values / known total) := by
  have hdiv : shares.map (· / total) = shares.map (1 / total * ·) := by
    apply List.map_congr_left
    intro s _
    exact (one_div_mul_eq_div total s).symm
  refine ⟨?_, ?_, ?_, ?_⟩
  · rw [List.length_map, hlength]
  · rintro w hw
    obtain ⟨s, hs, rfl⟩ := List.mem_map.mp hw
    have hpos : 0 ≤ total := htotal ▸ List.sum_nonneg hnonneg
    exact div_nonneg (hnonneg s hs) hpos
  · rw [hdiv, List.sum_map_mul_left, List.map_id', htotal, one_div_mul_cancel hne]
  · rw [hdiv, div_known_eq_scale _ hne, scale_weighted]

/-- A plain mean gives every value the same weight. -/
theorem isMeanOf_mean {p : Nat} (hp : 1 ≤ p) {values : List (Exact K)} (h : values.length = p) :
    IsMeanOf (List.replicate p (1 / (p : K))) values (mean p values) := by
  have hne : (p : K) ≠ 0 := Nat.cast_ne_zero.mpr (by omega)
  have hsum : (List.replicate p (1 : K)).sum = p := by
    rw [List.sum_replicate, nsmul_eq_mul, mul_one]
  have hlength : (List.replicate p (1 : K)).length = values.length := by
    rw [List.length_replicate, h]
  have hnonneg : ∀ s ∈ List.replicate p (1 : K), 0 ≤ s := by
    intro s hs
    rw [List.eq_of_mem_replicate hs]
    exact zero_le_one
  have hvalue : mean p values = weighted (List.replicate p 1) values / known (p : K) := by
    rw [mean, sum_eq, ofInt_eq, Int.cast_natCast, ← h, weighted_replicate_one]
  have hmean := isMeanOf_shares hlength hnonneg hsum hne
  rwa [List.map_replicate, ← hvalue] at hmean

/-! One value more -/

/-- On the way from a mean to a value, the mean keeps a part of each weight and the value gets the
rest. -/
theorem IsMeanOf.towards {weights : List K} {values : List (Exact K)} {a : Exact K}
    (h : IsMeanOf weights values a) {k : K} (hk : k ∈ Set.Icc (0 : K) 1) (x : Exact K) :
    IsMeanOf (weights.map ((1 - k) * ·) ++ [k]) (values ++ [x]) ((x - a) * known k + a) := by
  have hkeep : 0 ≤ 1 - k := sub_nonneg.mpr hk.2
  have hlength : (weights.map ((1 - k) * ·)).length = values.length := by
    rw [List.length_map, h.length_eq]
  refine ⟨?_, ?_, ?_, ?_⟩
  · rw [List.length_append, List.length_append, hlength]
    rfl
  · intro w hw
    rcases List.mem_append.mp hw with hw | hw
    · obtain ⟨v, hv, rfl⟩ := List.mem_map.mp hw
      exact mul_nonneg hkeep (h.nonneg v hv)
    · rw [List.mem_singleton.mp hw]
      exact hk.1
  · rw [List.sum_append, List.sum_map_mul_left, List.map_id', h.sum_eq, List.sum_singleton]
    ring
  · have hway : (x - a) * known k + a = scale (1 - k) a + scale k x := by
      cases a with
      | missing => cases x <;> rfl
      | known b =>
        cases x with
        | missing => rfl
        | known y =>
          rw [known_sub, known_mul, known_add, scale_known, scale_known, known_add]
          congr 1
          ring
    rw [hway, weighted_append hlength, weighted_singleton, ← scale_weighted, ← h.eq_weighted]

/-! Values -/

/-- A mean that is known is one of known numbers. -/
theorem IsMeanOf.exists_known {weights : List K} {values : List (Exact K)} {v : K}
    (h : IsMeanOf weights values (known v)) : ∃ ys : List K, values = ys.map known ∧
      weights.length = ys.length ∧ (List.zipWith (· * ·) weights ys).sum = v := by
  have hterms : ∀ y ∈ List.zipWith scale weights values, y.IsKnown := by
    apply isKnown_sum.mp
    exact ⟨v, h.eq_weighted.symm⟩
  have hvalues : ∀ x ∈ values, IsIn Set.univ x := by
    intro x hx
    -- the term that a value enters is known only with the value
    obtain ⟨i, hi⟩ := List.mem_iff_getElem?.mp hx
    have hlt : i < weights.length := by
      rw [h.length_eq]
      exact (List.getElem?_eq_some_iff.mp hi).1
    have hterm : (List.zipWith scale weights values)[i]? = some (scale weights[i] x) :=
      List.getElem?_zipWith_eq_some.mpr ⟨_, x, List.getElem?_eq_getElem hlt, hi, rfl⟩
    obtain ⟨y, rfl⟩ := (isKnown_mul.mp (hterms _ (List.mem_of_getElem? hterm))).2
    exact isIn_known.mpr (Set.mem_univ y)
  obtain ⟨ys, -, rfl⟩ := exists_map_known hvalues
  have heq := h.eq_weighted
  rw [weighted_known] at heq
  cases heq
  exact ⟨ys, rfl, by rw [h.length_eq, List.length_map], rfl⟩

theorem sum_zipWith_mul_mem {s : Set K} (hs : Convex K s) {weights values : List K}
    (hlength : weights.length = values.length) (hnonneg : ∀ w ∈ weights, 0 ≤ w)
    (hsum : weights.sum = 1) (hvalues : ∀ y ∈ values, y ∈ s) :
    (List.zipWith (· * ·) weights values).sum ∈ s := by
  let pairs := weights.zip values
  have hweights : ∑ i : Fin pairs.length, pairs[i].1 = 1 := by
    have hsums := Fin.sum_univ_fun_getElem pairs Prod.fst
    rwa [List.map_fst_zip hlength.le, hsum] at hsums
  have hterms : ∑ i : Fin pairs.length, pairs[i].1 • pairs[i].2 =
      (List.zipWith (· * ·) weights values).sum := by
    have hsums := Fin.sum_univ_fun_getElem pairs (Function.uncurry (· * ·))
    rwa [List.map_uncurry_zip_eq_zipWith] at hsums
  rw [← hterms]
  refine hs.sum_mem (fun i _ => ?_) hweights fun i _ => ?_
  · exact hnonneg _ (List.of_mem_zip (List.getElem_mem i.isLt)).1
  · exact hvalues _ (List.of_mem_zip (List.getElem_mem i.isLt)).2

/-- A mean belongs to every convex set that holds its values. -/
theorem IsMeanOf.isIn {s : Set K} (hs : Convex K s) {weights : List K} {values : List (Exact K)}
    {x : Exact K} (h : IsMeanOf weights values x) (hvalues : ∀ y ∈ values, IsIn s y) :
    IsIn s x := by
  obtain ⟨ys, hys, rfl⟩ := exists_map_known hvalues
  have hlength : weights.length = ys.length := by rw [h.length_eq, List.length_map]
  rw [h.eq_weighted, weighted_known, isIn_known]
  exact sum_zipWith_mul_mem hs hlength h.nonneg h.sum_eq hys

theorem isIn_mean {s : Set K} (hs : Convex K s) {p : Nat} (hp : 1 ≤ p) {xs : List (Exact K)}
    (hlength : xs.length = p) (h : ∀ x ∈ xs, IsIn s x) : IsIn s (mean p xs) :=
  (isMeanOf_mean hp hlength).isIn hs h

theorem isIn_towards {s : Set K} (hs : Convex K s) {k : K} (hk : k ∈ Set.Icc (0 : K) 1)
    {a x : Exact K} (ha : IsIn s a) (hx : IsIn s x) : IsIn s ((x - a) * known k + a) := by
  obtain ⟨b, hb, rfl⟩ := ha
  obtain ⟨y, hy, rfl⟩ := hx
  have hmem := hs.add_smul_sub_mem hb hy hk
  refine ⟨(y - b) * k + b, ?_, rfl⟩
  rwa [smul_eq_mul, mul_comm, add_comm] at hmem

/-! Least and greatest values -/

/-- A number that is known lies between the least and the greatest of some known numbers. -/
def IsWithin (values : List (Exact K)) (x : Exact K) : Prop :=
  ∀ v, x = known v → ∃ low high, IsLeast {y | known y ∈ values} low ∧
    IsGreatest {y | known y ∈ values} high ∧ v ∈ Set.Icc low high

/-- A known number among some numbers is within them. -/
theorem isWithin_of_mem {values : List (Exact K)} {x : Exact K} (h : x ∈ values) :
    IsWithin values x := by
  rintro v rfl
  have hfinite : {y | known y ∈ values}.Finite := by
    apply (List.finite_toSet values).preimage
    intro a _ b _ hab
    cases hab
    rfl
  obtain ⟨low, hlow, hleast⟩ := Set.exists_min_image _ id hfinite ⟨v, h⟩
  obtain ⟨high, hhigh, hgreatest⟩ := Set.exists_max_image _ id hfinite ⟨v, h⟩
  exact ⟨low, high, ⟨hlow, hleast⟩, ⟨hhigh, hgreatest⟩, hleast v h, hgreatest v h⟩

/-- A mean lies between the least and the greatest of its values. -/
theorem IsMeanOf.isWithin {weights : List K} {values : List (Exact K)} {x : Exact K}
    (h : IsMeanOf weights values x) : IsWithin values x := by
  rintro v rfl
  obtain ⟨ys, rfl, hlength, hv⟩ := h.exists_known
  -- no weights would have no sum of one
  have hne : ys ≠ [] := by
    rintro rfl
    have hsum := h.sum_eq
    rw [List.eq_nil_of_length_eq_zero hlength, List.sum_nil] at hsum
    exact zero_ne_one hsum
  obtain ⟨y, hy⟩ := List.exists_mem_of_ne_nil ys hne
  obtain ⟨low, high, hleast, hgreatest, -⟩ := isWithin_of_mem (List.mem_map_of_mem hy) y rfl
  refine ⟨low, high, hleast, hgreatest, ?_⟩
  rw [← hv]
  apply sum_zipWith_mul_mem (convex_Icc low high) hlength h.nonneg h.sum_eq
  intro z hz
  exact ⟨hleast.2 (List.mem_map_of_mem hz), hgreatest.2 (List.mem_map_of_mem hz)⟩

end Bourse.Exact
