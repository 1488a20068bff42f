import Bourse.Proofs.Lists
import Mathlib.Data.List.Basic
import Mathlib.Data.List.Forall2

/-! Steps that may fail. Of steps taken one after another the first that fails decides, and what the
later ones would do makes no difference. -/
namespace Bourse

variable {ε α β : Type}

theorem bind_eq_ok_iff {x : Except ε α} {f : α → Except ε β} {b : β} :
    (x >>= f) = .ok b ↔ ∃ a, x = .ok a ∧ f a = .ok b := by
  cases x with
  | error e => exact ⟨nofun, nofun⟩
  | ok a =>
    constructor
    · exact fun h => ⟨a, rfl, h⟩
    · rintro ⟨other, ha, h⟩
      cases ha
      exact h

theorem bind_eq_error_iff {x : Except ε α} {f : α → Except ε β} {e : ε} :
    (x >>= f) = .error e ↔ x = .error e ∨ ∃ a, x = .ok a ∧ f a = .error e := by
  cases x with
  | error other =>
    constructor
    · exact fun h => .inl (congrArg Except.error (Except.error.inj h))
    · rintro (h | ⟨a, ha, -⟩)
      · exact congrArg Except.error (Except.error.inj h)
      · contradiction
  | ok a =>
    constructor
    · exact fun h => .inr ⟨a, rfl, h⟩
    · rintro (h | ⟨other, ha, h⟩)
      · contradiction
      · cases ha
        exact h

theorem map_eq_error_iff {x : Except ε α} {f : α → β} {e : ε} :
    x.map f = .error e ↔ x = .error e := by
  cases x with
  | error other => exact ⟨fun h => congrArg Except.error (Except.error.inj h),
      fun h => congrArg Except.error (Except.error.inj h)⟩
  | ok a => exact ⟨nofun, nofun⟩

theorem map_eq_ok_iff {x : Except ε α} {f : α → β} {b : β} :
    x.map f = .ok b ↔ ∃ a, x = .ok a ∧ f a = b := by
  cases x with
  | error e => exact iff_of_false nofun fun ⟨_, h, _⟩ => nomatch h
  | ok a =>
    constructor
    · exact fun h => ⟨a, rfl, Except.ok.inj h⟩
    · rintro ⟨other, ha, rfl⟩
      cases ha
      rfl

/-- Whether a step fails, if it does, in one of some ways only. -/
def FailsWithin (ways : ε → Prop) (x : Except ε α) : Prop := ∀ e, x = .error e → ways e

variable {ways : ε → Prop}

theorem failsWithin_ok (a : α) : FailsWithin ways (.ok a : Except ε α) := nofun

theorem failsWithin_error {e : ε} (h : ways e) : FailsWithin ways (.error e : Except ε α) := by
  intro other heq
  cases heq
  exact h

theorem FailsWithin.bind {x : Except ε α} {f : α → Except ε β} (hx : FailsWithin ways x)
    (hf : ∀ a, x = .ok a → FailsWithin ways (f a)) : FailsWithin ways (x >>= f) := by
  intro e h
  rcases bind_eq_error_iff.mp h with hfirst | ⟨a, ha, hsecond⟩
  · exact hx e hfirst
  · exact hf a ha e hsecond

theorem FailsWithin.map {x : Except ε α} (hx : FailsWithin ways x) (f : α → β) :
    FailsWithin ways (x.map f) :=
  fun e h => hx e (map_eq_error_iff.mp h)

theorem FailsWithin.foldlM {f : β → α → Except ε β} (hf : ∀ b a, FailsWithin ways (f b a))
    (items : List α) (start : β) : FailsWithin ways (items.foldlM f start) := by
  induction items generalizing start with
  | nil => exact failsWithin_ok start
  | cons item rest ih =>
    rw [List.foldlM_cons]
    exact (hf start item).bind fun next _ => ih next

/-- Whether a step succeeds. -/
def Succeeds (x : Except ε α) : Prop := ∃ a, x = .ok a

theorem succeeds_iff_ne_error {x : Except ε α} : Succeeds x ↔ ∀ e, x ≠ .error e := by
  cases x with
  | error e => exact iff_of_false nofun fun h => h e rfl
  | ok a => exact iff_of_true ⟨a, rfl⟩ nofun

theorem succeeds_ok (a : α) : Succeeds (.ok a : Except ε α) := ⟨a, rfl⟩

theorem not_succeeds_error (e : ε) : ¬Succeeds (.error e : Except ε α) := nofun

theorem succeeds_of_isOk {x : Except ε α} (h : x.isOk = true) : Succeeds x := by
  cases x with
  | ok a => exact succeeds_ok a
  | error e => contradiction

theorem succeeds_map_iff {x : Except ε α} {f : α → β} : Succeeds (x.map f) ↔ Succeeds x := by
  cases x with
  | error e => exact iff_of_false nofun nofun
  | ok a => exact iff_of_true ⟨f a, rfl⟩ ⟨a, rfl⟩

theorem succeeds_bind_iff {x : Except ε α} {f : α → Except ε β} :
    Succeeds (x >>= f) ↔ ∃ a, x = .ok a ∧ Succeeds (f a) := by
  cases x with
  | error e => exact iff_of_false nofun fun ⟨_, h, _⟩ => nomatch h
  | ok a => exact ⟨fun h => ⟨a, rfl, h⟩, fun ⟨_, ha, h⟩ => Except.ok.inj ha ▸ h⟩

/-- A second step that succeeds or not whatever the first one gives. -/
theorem succeeds_bind_const_iff {x : Except ε α} {f : α → Except ε β} {p : Prop}
    (h : ∀ a, Succeeds (f a) ↔ p) : Succeeds (x >>= f) ↔ Succeeds x ∧ p := by
  cases x with
  | error e => exact iff_of_false nofun fun hx => nomatch hx.1
  | ok a => exact (h a).trans (and_iff_right (succeeds_ok a)).symm

theorem succeeds_bind_pure_iff {x : Except ε α} {f : α → β} :
    Succeeds (x >>= fun a => pure (f a)) ↔ Succeeds x := by
  cases x with
  | error e => exact iff_of_false nofun nofun
  | ok a => exact iff_of_true ⟨f a, rfl⟩ ⟨a, rfl⟩

/-- Steps over some items of which each succeeds or not whatever the state before it. -/
theorem succeeds_foldlM_iff {f : β → α → Except ε β} {p : α → Prop}
    (h : ∀ state item, Succeeds (f state item) ↔ p item) (items : List α) (start : β) :
    Succeeds (items.foldlM f start) ↔ ∀ item ∈ items, p item := by
  induction items generalizing start with
  | nil => exact iff_of_true (succeeds_ok start) nofun
  | cons item rest ih =>
    rw [List.foldlM_cons, List.forall_mem_cons, ← h start item]
    exact succeeds_bind_const_iff fun next => ih next

theorem FailsWithin.eq_error {x : Except ε α} {e : ε} (h : FailsWithin (· = e) x)
    (hfails : ¬Succeeds x) : x = .error e := by
  cases x with
  | ok a => exact absurd (succeeds_ok a) hfails
  | error other => exact congrArg Except.error (h other rfl)

/-- Whether the first step that fails, of those over some items, fails in a given way. -/
def FirstFailure (f : α → Except ε β) (items : List α) (e : ε) : Prop :=
  ∃ before item after, items = before ++ item :: after ∧ (∀ earlier ∈ before, Succeeds (f earlier)) ∧
    f item = .error e

/-- Whether a step fails in a way that has no message. -/
def FailsSilently (message? : ε → Option String) (x : Except ε α) : Prop :=
  ∃ e, x = .error e ∧ message? e = none

section Silent

variable {message? : ε → Option String}

theorem not_failsSilently_ok (a : α) : ¬FailsSilently message? (.ok a : Except ε α) := by
  rintro ⟨e, he, -⟩
  contradiction

theorem failsSilently_error_iff {e : ε} :
    FailsSilently message? (.error e : Except ε α) ↔ message? e = none := by
  constructor
  · rintro ⟨other, heq, hnone⟩
    cases heq
    exact hnone
  · exact fun hnone => ⟨e, rfl, hnone⟩

theorem failsSilently_bind_iff {x : Except ε α} {f : α → Except ε β} :
    FailsSilently message? (x >>= f) ↔
      FailsSilently message? x ∨ ∃ a, x = .ok a ∧ FailsSilently message? (f a) := by
  cases x with
  | error e =>
    have hbind : (Except.error e >>= f) = .error e := rfl
    rw [hbind, failsSilently_error_iff, failsSilently_error_iff]
    exact (or_iff_left fun ⟨a, ha, _⟩ => nomatch ha).symm
  | ok a =>
    have hbind : (Except.ok a >>= f) = f a := rfl
    rw [hbind, or_iff_right (not_failsSilently_ok a)]
    exact ⟨fun h => ⟨a, rfl, h⟩, fun ⟨_, ha, h⟩ => Except.ok.inj ha ▸ h⟩

/-- What does not fail silently succeeds or has a message. -/
theorem not_failsSilently_iff {x : Except ε α} :
    ¬FailsSilently message? x ↔
      Succeeds x ∨ ∃ e text, x = .error e ∧ message? e = some text := by
  cases x with
  | ok a => exact iff_of_true (not_failsSilently_ok a) (.inl ⟨a, rfl⟩)
  | error e =>
    rw [failsSilently_error_iff, ← ne_eq, Option.ne_none_iff_exists']
    constructor
    · rintro ⟨text, htext⟩
      exact .inr ⟨e, text, rfl, htext⟩
    · rintro (⟨a, ha⟩ | ⟨other, text, heq, htext⟩)
      · contradiction
      · cases heq
        exact ⟨text, htext⟩

end Silent

variable {f : α → Except ε β} {e : ε}

theorem not_firstFailure_nil : ¬FirstFailure f [] e := by
  rintro ⟨before, item, after, hitems, -⟩
  exact absurd hitems.symm (List.append_ne_nil_of_right_ne_nil before (List.cons_ne_nil _ _))

theorem firstFailure_cons {item : α} {rest : List α} :
    FirstFailure f (item :: rest) e ↔
      f item = .error e ∨ Succeeds (f item) ∧ FirstFailure f rest e := by
  constructor
  · rintro ⟨before, found, after, hitems, hbefore, hfound⟩
    cases before with
    | nil =>
      cases hitems
      exact .inl hfound
    | cons first before =>
      cases hitems
      obtain ⟨hfirst, hbefore⟩ := List.forall_mem_cons.mp hbefore
      exact .inr ⟨hfirst, before, found, after, rfl, hbefore, hfound⟩
  · rintro (hfirst | ⟨hfirst, before, found, after, rfl, hbefore, hfound⟩)
    · exact ⟨[], item, rest, rfl, List.forall_mem_nil _, hfirst⟩
    · exact ⟨item :: before, found, after, rfl, List.forall_mem_cons.mpr ⟨hfirst, hbefore⟩, hfound⟩

/-- A step fails in some way first exactly if the steps before it succeed. -/
theorem exists_firstFailure_and_iff {items : List α} {ways : ε → Prop} :
    (∃ e, FirstFailure f items e ∧ ways e) ↔
      ∃ before item after, items = before ++ item :: after ∧
        (∀ earlier ∈ before, Succeeds (f earlier)) ∧ ∃ e, f item = .error e ∧ ways e := by
  constructor
  · rintro ⟨e, ⟨before, item, after, hitems, hbefore, hitem⟩, he⟩
    exact ⟨before, item, after, hitems, hbefore, e, hitem, he⟩
  · rintro ⟨before, item, after, hitems, hbefore, e, hitem, he⟩
    exact ⟨e, ⟨before, item, after, hitems, hbefore, hitem⟩, he⟩

/-- Where some step fails there is a first one. -/
theorem exists_firstFailure {items : List α} :
    (∃ e, FirstFailure f items e) ↔ ¬∀ item ∈ items, Succeeds (f item) := by
  induction items with
  | nil =>
    refine iff_of_false ?_ (not_not.mpr (List.forall_mem_nil _))
    rintro ⟨e, hnil⟩
    exact not_firstFailure_nil hnil
  | cons item rest ih =>
    rw [List.forall_mem_cons, not_and, ← ih]
    constructor
    · rintro ⟨e, hfirst⟩ hitem
      rcases firstFailure_cons.mp hfirst with hfailed | ⟨-, hrest⟩
      · exact absurd hfailed (succeeds_iff_ne_error.mp hitem e)
      · exact ⟨e, hrest⟩
    · intro hrest
      cases hitem : f item with
      | error e => exact ⟨e, firstFailure_cons.mpr (.inl hitem)⟩
      | ok b =>
        obtain ⟨e, hfirst⟩ := hrest ⟨b, hitem⟩
        exact ⟨e, firstFailure_cons.mpr (.inr ⟨⟨b, hitem⟩, hfirst⟩)⟩

/-- What holds before steps over some items holds after them if every step keeps it. -/
theorem foldlM_preserves {f : β → α → Except ε β} {P : β → Prop} {items : List α}
    (hstep : ∀ item ∈ items, ∀ state next, P state → f state item = .ok next → P next)
    {start last : β} (hstart : P start) (h : items.foldlM f start = .ok last) : P last := by
  induction items generalizing start with
  | nil =>
    cases h
    exact hstart
  | cons item rest ih =>
    obtain ⟨hitem, hrest⟩ := List.forall_mem_cons.mp hstep
    rw [List.foldlM_cons] at h
    obtain ⟨next, hnext, hlast⟩ := bind_eq_ok_iff.mp h
    exact ih hrest (hitem start next hstart hnext) hlast

/-- Steps over some items succeed together if each of them does. -/
theorem succeeds_mapM_iff {items : List α} :
    Succeeds (items.mapM f) ↔ ∀ item ∈ items, Succeeds (f item) := by
  induction items with
  | nil => exact iff_of_true (succeeds_ok []) (List.forall_mem_nil _)
  | cons item rest ih =>
    rw [List.mapM_cons, List.forall_mem_cons, ← ih]
    exact succeeds_bind_const_iff fun _ => succeeds_bind_pure_iff

theorem mapM_eq_ok_map {items : List α} {g : α → β} (h : ∀ item ∈ items, f item = .ok (g item)) :
    items.mapM f = .ok (items.map g) := by
  induction items with
  | nil => rfl
  | cons item rest ih =>
    obtain ⟨hitem, hrest⟩ := List.forall_mem_cons.mp h
    rw [List.mapM_cons, hitem, ih hrest]
    rfl

/-- Steps that all succeed give one result for each item, in the order of the items. -/
theorem mapM_eq_ok_iff_forall₂ {items : List α} {found : List β} :
    items.mapM f = .ok found ↔ List.Forall₂ (fun item b => f item = .ok b) items found := by
  induction items generalizing found with
  | nil =>
    rw [List.mapM_nil, List.forall₂_nil_left_iff]
    exact (Except.ok.injEq _ _).to_iff.trans eq_comm
  | cons item rest ih =>
    rw [List.mapM_cons, bind_eq_ok_iff, List.forall₂_cons_left_iff]
    refine exists_congr fun b => ?_
    constructor
    · rintro ⟨hitem, h⟩
      obtain ⟨more, hmore, heq⟩ := bind_eq_ok_iff.mp h
      cases heq
      exact ⟨more, hitem, ih.mp hmore, rfl⟩
    · rintro ⟨more, hitem, hmore, rfl⟩
      exact ⟨hitem, bind_eq_ok_iff.mpr ⟨more, ih.mpr hmore, rfl⟩⟩

/-- Every result of steps over some items is that of one of them. -/
theorem exists_of_mem_mapM {items : List α} {found : List β} (h : items.mapM f = .ok found) {b : β}
    (hb : b ∈ found) : ∃ item ∈ items, f item = .ok b :=
  exists_of_mem_forall₂ (mapM_eq_ok_iff_forall₂.mp h).flip hb

end Bourse
