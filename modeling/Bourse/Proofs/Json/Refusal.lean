import Bourse.Proofs.Json.Completeness
import Bourse.Proofs.Json.Printing

/-! Printed values that are no JSON. A number that is not finite is printed as a word with which no
value begins, so the text of a value that has such a number in it is not read, and denotes nothing. -/
namespace Bourse.Json

/-- Whether no value is taken from the front of a text, whatever follows it. -/
def IsRefused (text : List Char) : Prop :=
  ∀ fuel rest, text.length < fuel → readValue fuel (text ++ rest) = none

/-! Numbers -/

/-- The text of a number that is not finite. -/
theorem number_of_not_isFinite {x : Float} (h : ¬Binary64.IsFinite x) :
    number x = "NaN" ∨ number x = "Infinity" ∨ number x = "-Infinity" := by
  unfold number
  cases hx : Binary64.ofFloat x with
  | finite negative mantissa exponent => exact absurd ⟨negative, mantissa, exponent, hx⟩ h
  | nan => exact .inl rfl
  | infinity negative =>
    cases negative with
    | false => exact .inr (.inl rfl)
    | true => exact .inr (.inr rfl)

theorem isRefused_number {x : Float} (h : ¬Binary64.IsFinite x) : IsRefused (number x).toList := by
  intro fuel rest hfuel
  obtain ⟨fuel, rfl⟩ := Nat.exists_eq_add_one_of_ne_zero (Nat.ne_zero_of_lt hfuel)
  rcases number_of_not_isFinite h with hx | hx | hx
  all_goals
    rw [hx]
    rfl

/-- Every printed value begins with a character that closes nothing. -/
theorem opens_indented (margin : ℕ) (v : Json) : Opens (indented margin v).toList := by
  have hprintable (h : IsPrintable v) : Opens (indented margin v).toList :=
    (denotes_indented margin v h).opens
  cases v with
  | null | bool _ | int _ | text _ => exact hprintable trivial
  | real x =>
    by_cases hx : Binary64.IsFinite x
    · exact hprintable hx
    · rw [indented_eq_compact (.real x) (by simp) (by simp), compact]
      rcases number_of_not_isFinite hx with hx | hx | hx
      all_goals
        rw [hx]
        exact opens_cons rfl (by decide) (by decide) _
  | list items =>
    rw [indented]
    rcases eq_or_ne (indentedItems margin items) [] with hnil | hne
    · rw [hnil, toList_enclose_nil]
      exact opens_cons rfl (by decide) (by decide) _
    · rw [toList_enclose hne]
      exact opens_cons rfl (by decide) (by decide) _
  | record members =>
    rw [indented]
    rcases eq_or_ne (indentedMembers margin members) [] with hnil | hne
    · rw [hnil, toList_enclose_nil]
      exact opens_cons rfl (by decide) (by decide) _
    · rw [toList_enclose hne]
      exact opens_cons rfl (by decide) (by decide) _

/-! Lines -/

section Lines

variable {α : Type} {read : ℕ → List α → List Char → Option (Json × List Char)}
variable {texts : List (List Char)} {pad : List Char}

/-- Whether a sequence is read on behind a text and a comma. -/
def IsPassed (read : ℕ → List α → List Char → Option (Json × List Char)) (text : List Char) : Prop :=
  ∀ fuel seen blank rest, IsBlank blank → (blank ++ text).length < fuel →
    ∃ more, read (fuel + 1) seen (blank ++ (text ++ ',' :: rest)) = read fuel more rest

/-- Whether a sequence is not read on at a text. -/
def IsBarred (read : ℕ → List α → List Char → Option (Json × List Char)) (text : List Char) : Prop :=
  ∀ fuel seen blank rest, IsBlank blank → (blank ++ text).length < fuel →
    read (fuel + 1) seen (blank ++ (text ++ rest)) = none

/-- Whether a sequence is read up to a text at which it is not read on. -/
inductive IsSpoiled (read : ℕ → List α → List Char → Option (Json × List Char)) :
    List (List Char) → Prop
  | here {text : List Char} {texts : List (List Char)} (h : IsBarred read text) :
    IsSpoiled read (text :: texts)
  | later {text : List Char} {texts : List (List Char)} (h : IsPassed read text)
    (hrest : IsSpoiled read texts) : IsSpoiled read (text :: texts)

theorem IsSpoiled.ne_nil (h : IsSpoiled read texts) : texts ≠ [] := by
  cases h <;> exact List.cons_ne_nil _ _

theorem IsSpoiled.read_lines (h : IsSpoiled read texts) (hpad : IsBlank pad) :
    ∀ fuel seen rest, ([',', '\n'].intercalate (texts.map (pad ++ ·))).length + 2 < fuel →
      read fuel seen ('\n' :: ([',', '\n'].intercalate (texts.map (pad ++ ·)) ++ rest)) = none := by
  induction h with
  | @here text texts hbarred =>
    intro fuel seen rest hfuel
    obtain ⟨fuel, rfl⟩ := Nat.exists_eq_add_one_of_ne_zero (Nat.ne_zero_of_lt hfuel)
    obtain ⟨more, hmore⟩ : ∃ more, [',', '\n'].intercalate ((pad ++ text) :: texts.map (pad ++ ·)) =
        pad ++ text ++ more := ⟨_, intercalate_cons _ _ _⟩
    rw [List.map_cons, hmore] at hfuel ⊢
    have hnone := hbarred fuel seen ('\n' :: pad) (more ++ rest) (isBlank_feed hpad) (by
      simp only [List.length_append, List.length_cons] at hfuel ⊢
      omega)
    simpa using hnone
  | @later text texts hpassed hrest ih =>
    intro fuel seen rest hfuel
    obtain ⟨fuel, rfl⟩ := Nat.exists_eq_add_one_of_ne_zero (Nat.ne_zero_of_lt hfuel)
    obtain ⟨second, texts, rfl⟩ := List.exists_cons_of_ne_nil hrest.ne_nil
    rw [List.map_cons, List.map_cons, List.intercalate_cons_cons] at hfuel ⊢
    rw [List.map_cons] at ih
    obtain ⟨more, hread⟩ := hpassed fuel seen ('\n' :: pad)
      ('\n' :: ([',', '\n'].intercalate ((pad ++ second) :: texts.map (pad ++ ·)) ++ rest))
      (isBlank_feed hpad) (by
        simp only [List.length_append, List.length_cons] at hfuel ⊢
        omega)
    have hnone := ih fuel more rest (by
      simp only [List.length_append, List.length_cons] at hfuel
      omega)
    rw [hnone] at hread
    simpa using hread

theorem opens_lines (hopens : ∀ text ∈ texts, Opens text) (hne : texts ≠ []) (hpad : IsBlank pad)
    (rest : List Char) :
    Opens ('\n' :: ([',', '\n'].intercalate (texts.map (pad ++ ·)) ++ rest)) := by
  obtain ⟨text, texts, rfl⟩ := List.exists_cons_of_ne_nil hne
  obtain ⟨more, hmore⟩ : ∃ more, [',', '\n'].intercalate ((pad ++ text) :: texts.map (pad ++ ·)) =
      pad ++ text ++ more := ⟨_, intercalate_cons _ _ _⟩
  have hfirst := ((hopens text List.mem_cons_self).append (more ++ rest)).blank (isBlank_feed hpad)
  rw [List.map_cons, hmore]
  simpa using hfirst

end Lines

theorem isPassed_item {text : List Char} {v : Json} (h : Denotes text (.value v)) :
    IsPassed readItems text := by
  intro fuel seen blank rest hblank hfuel
  have htaken := (Denotes.padded hblank h (List.forall_mem_nil _)).isTaken
  rw [List.append_nil] at htaken
  obtain ⟨after, hafter, hread⟩ := htaken fuel (',' :: rest) hfuel rfl
  refine ⟨v :: seen, ?_⟩
  rw [← List.append_assoc, readItems_succ fuel seen hread, dropWhile_blank_cons hafter rfl]
  rfl

theorem isBarred_item {text : List Char} (h : IsRefused text) : IsBarred readItems text := by
  intro fuel seen blank rest hblank hfuel
  rw [List.length_append] at hfuel
  rw [readItems_eq, readValue_blank hblank, h fuel rest (by omega)]

/-- The text of a member with the text of its value. -/
def memberText (name : String) (text : List Char) : List Char :=
  (quotedText name).toList ++ ':' :: ' ' :: text

theorem isPassed_member (name : String) {text : List Char} {v : Json}
    (h : Denotes text (.value v)) : IsPassed readMembers (memberText name text) := by
  intro fuel seen blank rest hblank hfuel
  have hmember : DenotesAmid (memberText name text) (.member name v) := .member h
  have htaken := (hmember blank [] hblank (List.forall_mem_nil _)).isTaken
  rw [List.append_nil] at htaken
  refine ⟨Entries.put name v seen, ?_⟩
  rw [← List.append_assoc]
  exact (htaken fuel seen rest hfuel).1

theorem isBarred_member (name : String) {text : List Char} (h : IsRefused text) :
    IsBarred readMembers (memberText name text) := by
  intro fuel seen blank rest hblank hfuel
  have hshort : text.length < fuel := by
    simp only [memberText, List.length_append, List.length_cons] at hfuel
    omega
  have hvalue : readValue fuel (' ' :: (text ++ rest)) = none := by
    exact (readValue_blank (isBlank_spaces 1) fuel (text ++ rest)).trans (h fuel rest hshort)
  have hsplit : memberText name text ++ rest =
      '"' :: (name.toList.flatMap escapeChar ++ '"' :: (':' :: ' ' :: (text ++ rest))) := by
    simp [memberText, toList_quotedText]
  have hread := readMembers_eq fuel seen hblank (spells_escaped name.toList) (List.forall_mem_nil _)
    (' ' :: (text ++ rest))
  rw [hvalue] at hread
  rw [hsplit]
  exact hread

/-! Values -/

/-- A list or a record is refused with a part of it. -/
theorem isRefused_enclose {α : Type} {read : ℕ → List α → List Char → Option (Json × List Char)}
    {opening closing : String} {mark : Char} (hopening : opening.toList = [mark])
    (hread : ∀ fuel input, Opens input → readValue (fuel + 1) (mark :: input) = read fuel [] input)
    {texts : List String} (h : IsSpoiled read (texts.map String.toList))
    (hopens : ∀ text ∈ texts.map String.toList, Opens text) (margin : ℕ) :
    IsRefused (enclose opening closing margin texts).toList := by
  intro fuel rest hfuel
  obtain ⟨fuel, rfl⟩ := Nat.exists_eq_add_one_of_ne_zero (Nat.ne_zero_of_lt hfuel)
  rw [toList_enclose (List.map_eq_nil_iff.not.mp h.ne_nil), hopening] at hfuel ⊢
  have hopen := opens_lines hopens h.ne_nil (isBlank_spaces (margin + 2))
    ('\n' :: List.replicate margin ' ' ++ (closing.toList ++ rest))
  have hnone := h.read_lines (isBlank_spaces (margin + 2)) fuel []
    ('\n' :: List.replicate margin ' ' ++ (closing.toList ++ rest)) (by
      simp only [List.length_append, List.length_cons] at hfuel
      omega)
  rw [← hread _ _ hopen] at hnone
  simpa using hnone

theorem opens_memberText (name : String) (text : List Char) : Opens (memberText name text) := by
  rw [memberText, toList_quotedText]
  exact opens_cons rfl (by decide) (by decide) _

theorem opens_indentedItems (margin : ℕ) (items : List Json) :
    ∀ text ∈ (indentedItems margin items).map String.toList, Opens text := by
  induction items with
  | nil => exact List.forall_mem_nil _
  | cons item rest ih =>
    rw [indentedItems, List.map_cons]
    exact List.forall_mem_cons.mpr ⟨opens_indented (margin + 2) item, ih⟩

theorem toList_memberText (margin : ℕ) (name : String) (v : Json) :
    (quotedText name ++ ": " ++ indented margin v).toList =
      memberText name (indented margin v).toList := by
  simp [memberText]

theorem opens_indentedMembers (margin : ℕ) (members : List (String × Json)) :
    ∀ text ∈ (indentedMembers margin members).map String.toList, Opens text := by
  induction members with
  | nil => exact List.forall_mem_nil _
  | cons member rest ih =>
    rw [indentedMembers, List.map_cons, toList_memberText]
    exact List.forall_mem_cons.mpr ⟨opens_memberText _ _, ih⟩

mutual

/-- A value is printable or its text is refused. -/
theorem isPrintable_or_isRefused (margin : ℕ) : ∀ v : Json, HasDistinctNames v →
    IsPrintable v ∨ IsRefused (indented margin v).toList
  | .null, _ | .bool _, _ | .int _, _ | .text _, _ => .inl trivial
  | .real x, _ => by
    by_cases hx : Binary64.IsFinite x
    · exact .inl hx
    · rw [indented_eq_compact (.real x) (by simp) (by simp), compact]
      exact .inr (isRefused_number hx)
  | .list items, h => by
    rw [indented]
    apply (everywhere_or_isSpoiled_items margin items h).imp_right
    intro hspoiled
    exact isRefused_enclose rfl (fun fuel _ hopens => readValue_list hopens fuel) hspoiled
      (opens_indentedItems margin items) margin
  | .record members, ⟨hnames, h⟩ => by
    rw [indented]
    apply (everywhere_or_isSpoiled_members margin members h).imp (And.intro hnames)
    intro hspoiled
    exact isRefused_enclose rfl (fun fuel _ hopens => readValue_record hopens fuel) hspoiled
      (opens_indentedMembers margin members) margin

theorem everywhere_or_isSpoiled_items (margin : ℕ) : ∀ items : List Json,
    EverywhereInItems (fun _ => True) List.Nodup items →
    EverywhereInItems Binary64.IsFinite List.Nodup items ∨
      IsSpoiled readItems ((indentedItems margin items).map String.toList)
  | [], _ => .inl trivial
  | item :: rest, ⟨h, hrest⟩ => by
    rw [indentedItems, List.map_cons]
    rcases isPrintable_or_isRefused (margin + 2) item h with hitem | hitem
    · apply (everywhere_or_isSpoiled_items margin rest hrest).imp (And.intro hitem)
      exact .later (isPassed_item (denotes_indented (margin + 2) item hitem))
    · exact .inr (.here (isBarred_item hitem))

theorem everywhere_or_isSpoiled_members (margin : ℕ) : ∀ members : List (String × Json),
    EverywhereInMembers (fun _ => True) List.Nodup members →
    EverywhereInMembers Binary64.IsFinite List.Nodup members ∨
      IsSpoiled readMembers ((indentedMembers margin members).map String.toList)
  | [], _ => .inl trivial
  | (name, value) :: rest, ⟨h, hrest⟩ => by
    rw [indentedMembers, List.map_cons, toList_memberText]
    rcases isPrintable_or_isRefused (margin + 2) value h with hvalue | hvalue
    · apply (everywhere_or_isSpoiled_members margin rest hrest).imp (And.intro hvalue)
      exact .later (isPassed_member name (denotes_indented (margin + 2) value hvalue))
    · exact .inr (.here (isBarred_member name hvalue))

end

/-- A refused text is no JSON. -/
theorem IsRefused.not_isJsonText {text : String} (h : IsRefused text.toList) (v : Json) :
    ¬IsJsonText text v := by
  intro hv
  obtain ⟨blank, -, hread⟩ := hv.isTaken (text.toList.length + 1) [] (Nat.lt_succ_self _) rfl
  rw [h _ _ (Nat.lt_succ_self _)] at hread
  contradiction

/-- A value of which no record has two members of one name is printed as a text of JSON exactly if its
numbers are finite, and the text denotes the value then. -/
theorem isJsonText_indented_iff {v : Json} (hnames : HasDistinctNames v) :
    (∃ w, IsJsonText (indented 0 v) w) ↔ IsPrintable v := by
  constructor
  · rintro ⟨w, hw⟩
    rcases isPrintable_or_isRefused 0 v hnames with hv | hv
    · exact hv
    · exact absurd hw (hv.not_isJsonText w)
  · intro hv
    exact ⟨v, isJsonText_indented hv⟩

end Bourse.Json
