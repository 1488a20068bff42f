import Bourse.Entries
import Mathlib.Data.List.Induction
import Mathlib.Data.List.Nodup
import Mathlib.Tactic.SplitIfs

/-! Entries that are put one after another. Their names stand in the order in which they first came,
each of them once, and a name has the value that was put last. -/
namespace Bourse.Entries

variable {β : Type}

/-! Names -/

theorem eraseDups_concat (names : List String) (name : String) :
    (names ++ [name]).eraseDups =
      if name ∈ names then names.eraseDups else names.eraseDups ++ [name] := by
  rw [List.eraseDups_append]
  split_ifs with h <;> simp [List.removeAll, h, List.eraseDups_cons]

theorem nodup_eraseDups (names : List String) : names.eraseDups.Nodup := by
  induction names using List.reverseRecOn with
  | nil => exact List.nodup_nil
  | append_singleton names name ih =>
    rw [eraseDups_concat]
    split_ifs with h
    · exact ih
    · rw [← List.concat_eq_append]
      exact ih.concat fun hmem => h (List.mem_eraseDups.mp hmem)

/-- The names that are kept, each of them once, stand in the order in which they first came. -/
theorem pairwise_idxOf_eraseDups_filter (keeps : String → Bool) (names : List String) :
    (names.filter keeps).eraseDups.Pairwise fun first second =>
      names.idxOf first < names.idxOf second := by
  induction names using List.reverseRecOn with
  | nil => exact List.Pairwise.nil
  | append_singleton names name ih =>
    -- one more name at the end does not move those before it
    have hkept : ∀ other ∈ (names.filter keeps).eraseDups,
        (names ++ [name]).idxOf other = names.idxOf other := by
      intro other hother
      exact List.idxOf_append_of_mem (List.mem_of_mem_filter (List.mem_eraseDups.mp hother))
    have hbefore : (names.filter keeps).eraseDups.Pairwise fun first second =>
        (names ++ [name]).idxOf first < (names ++ [name]).idxOf second := by
      refine ih.imp_of_mem fun {first second} hfirst hsecond hlt => ?_
      rw [hkept first hfirst, hkept second hsecond]
      exact hlt
    rw [List.filter_append]
    by_cases hname : keeps name = true
    · rw [List.filter_cons_of_pos hname, List.filter_nil, eraseDups_concat]
      split_ifs with hmem
      · exact hbefore
      · have hnew : name ∉ names := fun h => hmem (List.mem_filter.mpr ⟨h, hname⟩)
        refine List.pairwise_append.mpr ⟨hbefore, List.pairwise_singleton _ _, ?_⟩
        intro other hother last hlast
        rw [List.mem_singleton.mp hlast, hkept other hother, List.idxOf_append_of_notMem hnew]
        have hlt : names.idxOf other < names.length :=
          List.idxOf_lt_length_of_mem (List.mem_of_mem_filter (List.mem_eraseDups.mp hother))
        exact Nat.lt_of_lt_of_le hlt (Nat.le_add_right _ _)
    · rw [List.filter_cons_of_neg hname, List.filter_nil, List.append_nil]
      exact hbefore

theorem map_fst_put (name : String) (value : β) (entries : List (String × β)) :
    (put name value entries).map (·.1) =
      if name ∈ entries.map (·.1) then entries.map (·.1) else entries.map (·.1) ++ [name] := by
  have hany : entries.any (·.1 == name) = true ↔ name ∈ entries.map (·.1) := by
    simp [List.any_eq_true]
  unfold put
  by_cases h : name ∈ entries.map (·.1)
  · rw [if_pos (hany.mpr h), if_pos h, List.map_map]
    refine List.map_congr_left fun entry _ => ?_
    by_cases hname : entry.1 = name <;> simp [hname]
  · rw [if_neg (mt hany.mp h), if_neg h, List.map_append]
    rfl

theorem map_fst_putAll_of_names (more : List (String × β)) {entries : List (String × β)}
    {names : List String} (h : entries.map (·.1) = names.eraseDups) :
    (putAll entries more).map (·.1) = (names ++ more.map (·.1)).eraseDups := by
  -- over what is put, for any names that came before
  induction more generalizing entries names with
  | nil =>
    rw [List.map_nil, List.append_nil]
    exact h
  | cons entry rest ih =>
    have hput : (put entry.1 entry.2 entries).map (·.1) = (names ++ [entry.1]).eraseDups := by
      rw [map_fst_put, eraseDups_concat, h]
      exact if_congr List.mem_eraseDups rfl rfl
    have hrest := ih hput
    rw [List.append_assoc] at hrest
    exact hrest

/-- The names of what was put, each once, in the order in which they first came. -/
theorem map_fst_putAll (more : List (String × β)) :
    (putAll [] more).map (·.1) = (more.map (·.1)).eraseDups :=
  map_fst_putAll_of_names more (show ([] : List (String × β)).map (·.1) = [].eraseDups from rfl)

theorem putAll_append (entries more rest : List (String × β)) :
    putAll entries (more ++ rest) = putAll (putAll entries more) rest :=
  List.foldl_append

/-- Entries of which no two have one name are put behind each other. -/
theorem putAll_eq_append {entries more : List (String × β)}
    (h : ((entries ++ more).map (·.1)).Nodup) : putAll entries more = entries ++ more := by
  induction more generalizing entries with
  | nil => exact (List.append_nil entries).symm
  | cons entry rest ih =>
    have hfresh : entry.1 ∉ entries.map (·.1) := by
      rw [List.map_append, List.nodup_append] at h
      intro hmem
      exact h.2.2 _ hmem _ List.mem_cons_self rfl
    have hput : put entry.1 entry.2 entries = entries ++ [entry] := by
      unfold put
      rw [if_neg]
      simpa using hfresh
    have hrest : putAll entries (entry :: rest) = putAll (put entry.1 entry.2 entries) rest := rfl
    rw [List.append_cons] at h ⊢
    rw [hrest, hput]
    exact ih h

theorem putAll_of_nodup {entries : List (String × β)} (h : (entries.map (·.1)).Nodup) :
    putAll [] entries = entries :=
  putAll_eq_append h

theorem mem_of_mem_put {name : String} {value : β} {entry : String × β}
    {entries : List (String × β)} (h : entry ∈ put name value entries) :
    entry = (name, value) ∨ entry ∈ entries := by
  unfold put at h
  split_ifs at h
  · obtain ⟨last, hlast, rfl⟩ := List.mem_map.mp h
    split_ifs
    · exact .inl rfl
    · exact .inr hlast
  · rcases List.mem_append.mp h with hbefore | hnew
    · exact .inr hbefore
    · exact .inl (List.mem_singleton.mp hnew)

/-- Nothing is among the entries but what was there before and what was put. -/
theorem mem_of_mem_putAll {entry : String × β} {entries more : List (String × β)}
    (h : entry ∈ putAll entries more) : entry ∈ entries ∨ entry ∈ more := by
  induction more generalizing entries with
  | nil => exact .inl h
  | cons next rest ih =>
    have hlater : entry ∈ putAll (put next.1 next.2 entries) rest := h
    rcases ih hlater with hput | hrest
    · rcases mem_of_mem_put hput with rfl | hbefore
      · exact .inr List.mem_cons_self
      · exact .inl hbefore
    · exact .inr (List.mem_cons_of_mem next hrest)

/-! Values -/

theorem get?_append (name : String) (entries more : List (String × β)) :
    get? name (entries ++ more) = (get? name entries).or (get? name more) := by
  rw [get?, List.find?_append, Option.map_or]
  rfl

theorem get?_cons (name : String) (entry : String × β) (rest : List (String × β)) :
    get? name (entry :: rest) = if entry.1 = name then some entry.2 else get? name rest := by
  by_cases h : entry.1 = name <;> simp [get?, h]

theorem get?_eq_none {name : String} {entries : List (String × β)} :
    get? name entries = none ↔ name ∉ entries.map (·.1) := by
  induction entries with
  | nil => exact iff_of_true rfl List.not_mem_nil
  | cons entry rest ih =>
    rw [get?_cons, List.map_cons, List.mem_cons, not_or, ← ih]
    split_ifs with h
    · exact iff_of_false nofun fun hne => hne.1 h.symm
    · exact (and_iff_right (Ne.symm h)).symm

theorem mem_of_get? {name : String} {value : β} {entries : List (String × β)}
    (h : get? name entries = some value) : (name, value) ∈ entries := by
  induction entries with
  | nil => contradiction
  | cons entry rest ih =>
    rw [get?_cons] at h
    split_ifs at h with hname
    · cases h
      rw [← hname]
      exact List.mem_cons_self
    · exact List.mem_cons_of_mem entry (ih h)

theorem exists_get? {name : String} {entries : List (String × β)}
    (h : name ∈ entries.map (·.1)) : ∃ value, get? name entries = some value :=
  Option.ne_none_iff_exists'.mp (mt get?_eq_none.mp (not_not.mpr h))

/-- A changed value stands where its name stood. -/
theorem get?_replace (name other : String) (value : β) (entries : List (String × β)) :
    get? other (entries.map fun entry => if entry.1 == name then (name, value) else entry) =
      (get? other entries).map fun last => if name = other then value else last := by
  induction entries with
  | nil => rfl
  | cons entry rest ih =>
    rw [List.map_cons, get?_cons, get?_cons, ih]
    by_cases hname : entry.1 = name
    · by_cases hother : name = other <;> simp [hname, hother]
    · have hentry : (if entry.1 == name then (name, value) else entry) = entry :=
        if_neg (by simpa using hname)
      rw [hentry]
      by_cases hother : entry.1 = other
      · have hne : name ≠ other := fun h => hname (hother.trans h.symm)
        simp [hother, hne]
      · rw [if_neg hother, if_neg hother]

theorem get?_put (name other : String) (value : β) (entries : List (String × β)) :
    get? other (put name value entries) =
      if name = other then some value else get? other entries := by
  unfold put
  split_ifs with hany hother hother
  · -- the name has a value already, which is changed
    obtain ⟨entry, hentry, hname⟩ := List.any_eq_true.mp hany
    have hmem : other ∈ entries.map (·.1) :=
      List.mem_map.mpr ⟨entry, hentry, (eq_of_beq hname).trans hother⟩
    obtain ⟨last, hlast⟩ := exists_get? hmem
    rw [get?_replace, hlast, Option.map_some, if_pos hother]
  · rw [get?_replace]
    simp [hother]
  · have hnone : get? other entries = none := by
      rw [get?_eq_none, ← hother]
      simpa using hany
    rw [get?_append, hnone, Option.none_or, get?_cons, if_pos hother]
  · rw [get?_append, get?_cons, if_neg hother]
    exact Option.or_none

/-- The entry that was put last hides those before it. -/
theorem get?_putAll (name : String) (entries more : List (String × β)) :
    get? name (putAll entries more) = (get? name more.reverse).or (get? name entries) := by
  induction more generalizing entries with
  | nil => rfl
  | cons entry rest ih =>
    have hrest : get? name (putAll entries (entry :: rest)) =
        (get? name rest.reverse).or (get? name (put entry.1 entry.2 entries)) := ih _
    rw [hrest, get?_put, List.reverse_cons, get?_append, Option.or_assoc, get?_cons]
    split_ifs <;> rfl

/-- A value that nothing of the same name contradicts stays, wherever it was put. -/
theorem get?_putAll_of_mem {name : String} {value : β} {more : List (String × β)}
    (hmem : (name, value) ∈ more) (hagree : ∀ other, (name, other) ∈ more → other = value) :
    get? name (putAll [] more) = some value := by
  have hname : name ∈ more.reverse.map (·.1) :=
    List.mem_map.mpr ⟨(name, value), List.mem_reverse.mpr hmem, rfl⟩
  obtain ⟨last, hlast⟩ := exists_get? hname
  have hvalue : last = value := hagree last (List.mem_reverse.mp (mem_of_get? hlast))
  rw [get?_putAll, hlast, hvalue]
  rfl

theorem get?_putAll_of_not_mem {name : String} {more : List (String × β)}
    (h : name ∉ more.map (·.1)) : get? name (putAll [] more) = none := by
  have hnone : get? name more.reverse = none := by
    rw [get?_eq_none, List.map_reverse, List.mem_reverse]
    exact h
  rw [get?_putAll, hnone]
  rfl

/-! Entries of some names, each under the name that it is made of -/

/-- Whether an entry that a name has stands under the name. -/
def KeepsName (item? : String → Option (String × β)) : Prop :=
  ∀ name entry, item? name = some entry → entry.1 = name

section Named

variable {item? : String → Option (String × β)}

theorem map_fst_filterMap (h : KeepsName item?) (names : List String) :
    (names.filterMap item?).map (·.1) = names.filter fun name => (item? name).isSome := by
  induction names with
  | nil => rfl
  | cons name rest ih =>
    cases hentry : item? name with
    | none =>
      rw [List.filterMap_cons_none hentry, ih]
      simp [hentry]
    | some entry =>
      rw [List.filterMap_cons_some hentry, List.map_cons, ih, h name entry hentry]
      simp [hentry]

theorem map_fst_putAll_filterMap (h : KeepsName item?) (names : List String) :
    (putAll [] (names.filterMap item?)).map (·.1) =
      (names.filter fun name => (item? name).isSome).eraseDups := by
  rw [map_fst_putAll, map_fst_filterMap h]

theorem mem_map_fst_putAll_filterMap (h : KeepsName item?) {name : String} {names : List String} :
    name ∈ (putAll [] (names.filterMap item?)).map (·.1) ↔ name ∈ names ∧ (item? name).isSome := by
  rw [map_fst_putAll_filterMap h, List.mem_eraseDups, List.mem_filter]

/-- A name has the same entry wherever and however often it stands among the others. -/
theorem get?_putAll_filterMap (h : KeepsName item?) {name : String} {names : List String}
    (hmem : name ∈ names) :
    get? name (putAll [] (names.filterMap item?)) = (item? name).map (·.2) := by
  cases hentry : item? name with
  | none =>
    apply get?_eq_none.mpr
    intro hname
    have hsome := (mem_map_fst_putAll_filterMap h).mp hname
    simp [hentry] at hsome
  | some entry =>
    have hput : (name, entry.2) ∈ names.filterMap item? := by
      rw [List.mem_filterMap]
      exact ⟨name, hmem, by rw [hentry, ← h name entry hentry]⟩
    apply get?_putAll_of_mem hput
    intro value hvalue
    obtain ⟨other, -, hother⟩ := List.mem_filterMap.mp hvalue
    have hname : name = other := h other _ hother
    rw [← hname, hentry] at hother
    cases hother
    rfl

theorem mem_putAll_filterMap (h : KeepsName item?) {entry : String × β} {names : List String}
    (hentry : entry ∈ putAll [] (names.filterMap item?)) : item? entry.1 = some entry := by
  rcases mem_of_mem_putAll hentry with hnone | hmem
  · contradiction
  · obtain ⟨name, -, hname⟩ := List.mem_filterMap.mp hmem
    rw [h name entry hname]
    exact hname

end Named

/-! Traces -/

theorem put_ne_nil (name : String) (value : β) (entries : List (String × β)) :
    put name value entries ≠ [] := by
  intro hnil
  have hvalue := get?_put name name value entries
  rw [hnil, if_pos rfl] at hvalue
  contradiction

theorem putAll_ne_nil {more : List (String × β)} (h : more ≠ []) (entries : List (String × β)) :
    putAll entries more ≠ [] := by
  obtain ⟨rest, last, rfl⟩ := (List.eq_nil_or_concat more).resolve_left h
  rw [List.concat_eq_append, putAll_append]
  exact put_ne_nil _ _ _

end Bourse.Entries
