import Mathlib.Data.List.Forall2
import Mathlib.Data.List.Infix
import Mathlib.Data.List.TakeWhile

/-! Fronts of lists: runs that end where a condition fails, and lists computed from neighbours or in
step, which grow with what they are computed from. Scans keep what each of their steps keeps. -/
namespace Bourse

variable {α β γ δ : Type}

/-! Runs -/

theorem drop_length_takeWhile (p : α → Bool) (xs : List α) :
    xs.drop (xs.takeWhile p).length = xs.dropWhile p := by
  have hfront := List.prefix_iff_eq_append.mp (List.takeWhile_prefix p : xs.takeWhile p <+: xs)
  exact List.append_cancel_left (hfront.trans List.takeWhile_append_dropWhile.symm)

theorem length_takeWhile_add_length_dropWhile (p : α → Bool) (xs : List α) :
    (xs.takeWhile p).length + (xs.dropWhile p).length = xs.length := by
  rw [← List.length_append, List.takeWhile_append_dropWhile]

theorem takeWhile_eq_nil_iff_head? {p : α → Bool} {xs : List α} :
    xs.takeWhile p = [] ↔ xs.head?.any p = false := by
  cases xs with
  | nil => exact ⟨fun _ => rfl, fun _ => rfl⟩
  | cons x rest => cases hx : p x <;> simp [hx]

theorem dropWhile_eq_self_of_head? {p : α → Bool} {xs : List α} (h : xs.head?.any p = false) :
    xs.dropWhile p = xs := by
  cases xs with
  | nil => rfl
  | cons x rest =>
    rw [List.head?_cons, Option.any_some] at h
    rw [List.dropWhile_cons_of_neg (Bool.eq_false_iff.mp h)]

/-- What is cut off at both ends of a list is what the cutting is about. -/
theorem exists_stripped (p : α → Bool) (xs : List α) :
    ∃ before after, xs = before ++ ((xs.dropWhile p).reverse.dropWhile p).reverse ++ after ∧
      (∀ x ∈ before, p x = true) ∧ ∀ x ∈ after, p x = true := by
  refine ⟨xs.takeWhile p, (((xs.dropWhile p).reverse).takeWhile p).reverse, ?_, ?_, ?_⟩
  · rw [List.append_assoc, ← List.reverse_append, List.takeWhile_append_dropWhile,
      List.reverse_reverse, List.takeWhile_append_dropWhile]
  · intro x hx
    exact List.mem_takeWhile_imp hx
  · intro x hx
    exact List.mem_takeWhile_imp (List.mem_reverse.mp hx)

theorem any_head?_dropWhile (p : α → Bool) (xs : List α) :
    (xs.dropWhile p).head?.any p = false := by
  have hhead := List.head?_dropWhile_not p xs
  cases hrest : (xs.dropWhile p).head? with
  | none => rfl
  | some x =>
    rw [hrest] at hhead
    exact hhead

/-- A list is the run at the front exactly if it keeps the condition and what follows breaks it. -/
theorem takeWhile_append_eq_left {p : α → Bool} {front rest : List α} :
    (front ++ rest).takeWhile p = front ↔
      (∀ x ∈ front, p x = true) ∧ rest.head?.any p = false := by
  constructor
  · intro h
    have hfront : ∀ x ∈ front, p x = true := by
      rw [← h]
      exact List.all_eq_true.mp List.all_takeWhile
    rw [List.takeWhile_append_of_pos hfront, List.append_right_eq_self] at h
    exact ⟨hfront, takeWhile_eq_nil_iff_head?.mp h⟩
  · rintro ⟨hfront, hrest⟩
    rw [List.takeWhile_append_of_pos hfront, takeWhile_eq_nil_iff_head?.mpr hrest,
      List.append_nil]

/-- A list that agrees with another up to one element beyond a place goes on there alike. -/
theorem exists_of_take_eq {front more other : List α} {x : α}
    (h : other.take (front.length + 2) = (front ++ x :: more).take (front.length + 2)) :
    ∃ more', other = front ++ x :: more' ∧ more'.head? = more.head? := by
  have hfront : other.take (front.length + 1) = front ++ [x] := by
    have htake := congrArg (List.take (front.length + 1)) h
    rw [List.take_take, List.take_take, Nat.min_eq_left (Nat.le_succ _)] at htake
    rw [htake, List.take_length_add_append]
    rfl
  refine ⟨other.drop (front.length + 1), ?_, ?_⟩
  · calc other
        = other.take (front.length + 1) ++ other.drop (front.length + 1) :=
          (List.take_append_drop _ _).symm
      _ = front ++ x :: other.drop (front.length + 1) := by
          rw [hfront, List.append_assoc, List.singleton_append]
  · have hnext := congrArg (fun xs => xs[front.length + 1]?) h
    simp only [List.getElem?_take, Nat.lt_succ_self, if_true] at hnext
    rw [List.head?_drop, hnext, List.getElem?_append_right (Nat.le_add_right _ 1),
      Nat.add_sub_cancel_left, List.getElem?_cons_succ, List.head?_eq_getElem?]

/-! Correspondence item by item -/

theorem exists_of_mem_forall₂ {R : α → β → Prop} {xs : List α} {ys : List β}
    (h : List.Forall₂ R xs ys) {x : α} (hx : x ∈ xs) : ∃ y ∈ ys, R x y := by
  induction h with
  | nil => contradiction
  | cons hfirst _ ih =>
    rcases List.mem_cons.mp hx with rfl | hx
    · exact ⟨_, List.mem_cons_self, hfirst⟩
    · obtain ⟨y, hy, hxy⟩ := ih hx
      exact ⟨y, List.mem_cons_of_mem _ hy, hxy⟩

theorem forall_mem_iff_of_forall₂ {R : α → β → Prop} {P : α → Prop} {Q : β → Prop}
    (hiff : ∀ x y, R x y → (P x ↔ Q y)) {xs : List α} {ys : List β} (h : List.Forall₂ R xs ys) :
    (∀ x ∈ xs, P x) ↔ ∀ y ∈ ys, Q y := by
  induction h with
  | nil => exact iff_of_true (List.forall_mem_nil _) (List.forall_mem_nil _)
  | cons hfirst _ ih => rw [List.forall_mem_cons, List.forall_mem_cons, hiff _ _ hfirst, ih]

theorem forall₂_trans {R : α → β → Prop} {S : β → γ → Prop} {xs : List α} {ys : List β}
    {zs : List γ} (h : List.Forall₂ R xs ys) (h' : List.Forall₂ S ys zs) :
    List.Forall₂ (fun x z => ∃ y, R x y ∧ S y z) xs zs := by
  induction h generalizing zs with
  | nil =>
    cases h'
    exact .nil
  | cons hfirst _ ih =>
    cases h' with
    | cons hfirst' hrest' => exact .cons ⟨_, hfirst, hfirst'⟩ (ih hrest')

/-! Separators -/

theorem intercalate_cons (separator first : List α) (rest : List (List α)) :
    separator.intercalate (first :: rest) = first ++ rest.flatMap (separator ++ ·) := by
  induction rest generalizing first with
  | nil => rw [List.intercalate_singleton, List.flatMap_nil, List.append_nil]
  | cons second rest ih =>
    rw [List.intercalate_cons_cons, ih, List.flatMap_cons, List.append_assoc, List.append_assoc]

/-- Between lists separators stand behind all of them but the last. -/
theorem intercalate_concat (separator : List α) (lists : List (List α)) (last : List α) :
    separator.intercalate (lists ++ [last]) = lists.flatMap (· ++ separator) ++ last := by
  induction lists with
  | nil => exact List.intercalate_singleton
  | cons first rest ih =>
    rw [List.flatMap_cons, List.append_assoc, ← ih]
    cases rest with
    | nil => exact List.intercalate_cons_cons
    | cons second rest => exact List.intercalate_cons_cons

/-! Growth -/

theorem isPrefix_zipWith (f : α → β → γ) {xs xs' : List α} {ys ys' : List β}
    (hxs : xs <+: xs') (hys : ys <+: ys') : List.zipWith f xs ys <+: List.zipWith f xs' ys' := by
  induction xs generalizing xs' ys ys' with
  | nil => exact List.nil_prefix
  | cons x xs ih =>
    cases ys with
    | nil => exact List.nil_prefix
    | cons y ys =>
      obtain ⟨more, rfl⟩ := hxs
      obtain ⟨more', rfl⟩ := hys
      have htail := ih (List.prefix_append xs more) (List.prefix_append ys more')
      exact List.cons_prefix_cons.mpr ⟨rfl, htail⟩

/-- The steps from each element to the next. -/
theorem isPrefix_steps (step : α → α → β) {xs xs' : List α} (h : xs <+: xs') :
    List.zipWith step xs.tail xs <+: List.zipWith step xs'.tail xs' := by
  rw [← List.drop_one, ← List.drop_one]
  exact isPrefix_zipWith step (h.drop 1) h

/-- The steps between images are images of steps if every step is. -/
theorem steps_map {f : α → γ} {step : γ → γ → δ} {step' : α → α → β} {g : β → δ}
    (h : ∀ x y, step (f x) (f y) = g (step' x y)) (xs : List α) :
    List.zipWith step (xs.map f).tail (xs.map f) = (List.zipWith step' xs.tail xs).map g := by
  rw [← List.map_tail, List.zipWith_map, List.map_zipWith]
  simp only [h]

theorem length_steps (step : α → α → β) (xs : List α) :
    (List.zipWith step xs.tail xs).length = xs.length - 1 := by
  rw [List.length_zipWith, List.length_tail]
  omega

theorem forall_mem_zipWith {P : γ → Prop} {f : α → β → γ} {xs : List α} {ys : List β}
    (h : ∀ x ∈ xs, ∀ y ∈ ys, P (f x y)) : ∀ z ∈ List.zipWith f xs ys, P z := by
  intro z hz
  obtain ⟨i, hi⟩ := List.mem_iff_getElem?.mp hz
  obtain ⟨x, y, hx, hy, rfl⟩ := List.getElem?_zipWith_eq_some.mp hi
  exact h x (List.mem_of_getElem? hx) y (List.mem_of_getElem? hy)

theorem take_eq_of_isPrefix {xs longer : List α} {n : Nat} (hlength : xs.length = n)
    (h : xs <+: longer) : longer.take n = xs := by
  rw [← hlength]
  exact (List.prefix_iff_eq_take.mp h).symm

/-! Scans -/

theorem forall_mem_scanl {P : α → Prop} {f : α → β → α} {start : α} (hstart : P start)
    {xs : List β} (hstep : ∀ x ∈ xs, ∀ a, P a → P (f a x)) : ∀ y ∈ xs.scanl f start, P y := by
  induction xs generalizing start with
  | nil =>
    rw [List.scanl_nil]
    exact List.forall_mem_singleton.mpr hstart
  | cons x rest ih =>
    obtain ⟨hx, hrest⟩ := List.forall_mem_cons.mp hstep
    rw [List.scanl_cons]
    exact List.forall_mem_cons.mpr ⟨hstart, ih (hx start hstart) hrest⟩

/-- A scan of images is the image of a scan if every step is. -/
theorem scanl_map_map {f : α → β → α} {f' : γ → δ → γ} {g : α → γ} {h : β → δ}
    (hstep : ∀ a x, f' (g a) (h x) = g (f a x)) (start : α) (xs : List β) :
    (xs.map h).scanl f' (g start) = (xs.scanl f start).map g := by
  induction xs generalizing start with
  | nil => rw [List.map_nil, List.scanl_nil, List.scanl_nil, List.map_singleton]
  | cons x rest ih =>
    rw [List.map_cons, List.scanl_cons, List.scanl_cons, List.map_cons, hstep, ih]

end Bourse
