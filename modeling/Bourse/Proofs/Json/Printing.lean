import Bourse.Proofs.Entries
import Bourse.Proofs.Json.Numbers

/-! Printed JSON. Where every number in a value is finite and no record has two members of one name,
the text of the value, with its items on lines of their own, denotes the value. -/
namespace Bourse.Json

/-! Escapes -/

theorem toNat_lt (c : Char) : c.toNat < 0x110000 := by
  have hvalid : c.toNat < 0xd800 ∨ 0xdfff < c.toNat ∧ c.toNat < 0x110000 := c.valid
  omega

theorem hexPadded_four {n : ℕ} (h : n < 65536) : Text.hexPadded 4 n =
    [Nat.digitChar (n / 4096), Nat.digitChar (n / 256 % 16), Nat.digitChar (n / 16 % 16),
      Nat.digitChar (n % 16)] := by
  have hzero : Nat.digitChar 0 = '0' := rfl
  have hsplit (k : ℕ) (hk : 16 ≤ k) :
      Nat.toDigits 16 k = Nat.toDigits 16 (k / 16) ++ [Nat.digitChar (k % 16)] :=
    Nat.toDigits_of_base_le (by decide) hk
  have hlast (k : ℕ) (hk : k < 16) : Nat.toDigits 16 k = [Nat.digitChar k] :=
    Nat.toDigits_of_lt_base hk
  unfold Text.hexPadded
  dsimp only
  -- one case for each number of digits
  rcases Nat.lt_or_ge n 16 with h1 | h1
  · have hdivs : n / 4096 = 0 ∧ n / 256 % 16 = 0 ∧ n / 16 % 16 = 0 ∧ n % 16 = n := by omega
    obtain ⟨ha, hb, hc, hd⟩ := hdivs
    rw [hlast n h1, ha, hb, hc, hd, hzero]
    rfl
  · rw [hsplit n h1]
    rcases Nat.lt_or_ge n 256 with h2 | h2
    · have hdivs : n / 4096 = 0 ∧ n / 256 % 16 = 0 ∧ n / 16 % 16 = n / 16 ∧ n / 16 < 16 := by omega
      obtain ⟨ha, hb, hc, hd⟩ := hdivs
      rw [hlast _ hd, ha, hb, hc, hzero]
      rfl
    · rw [hsplit (n / 16) (by omega), Nat.div_div_eq_div_mul]
      rcases Nat.lt_or_ge n 4096 with h3 | h3
      · have hdivs : n / 4096 = 0 ∧ n / 256 % 16 = n / (16 * 16) ∧ n / (16 * 16) < 16 := by omega
        obtain ⟨ha, hb, hc⟩ := hdivs
        rw [hlast _ hc, ha, hb, hzero]
        rfl
      · have hdivs : n / (16 * 16) / 16 = n / 4096 ∧ n / (16 * 16) % 16 = n / 256 % 16 ∧
            n / 4096 < 16 := by omega
        obtain ⟨ha, hb, hc⟩ := hdivs
        rw [hsplit (n / (16 * 16)) (by omega), ha, hb, hlast _ hc]
        rfl

theorem hexValue?_digitChar {d : ℕ} (h : d < 16) : hexValue? (Nat.digitChar d) = some d := by
  have hdigits : ∀ d < 16, hexValue? (Nat.digitChar d) = some d := by decide
  exact hdigits d h

theorem isEscape_unitEscape {n : ℕ} (h : n < 65536) : IsEscape (unitEscape n) n := by
  rw [unitEscape, hexPadded_four h]
  constructor
  rw [unit?, hexValue?_digitChar (by omega), hexValue?_digitChar (by omega),
    hexValue?_digitChar (by omega), hexValue?_digitChar (by omega)]
  have hvalue : ((n / 4096 * 16 + n / 256 % 16) * 16 + n / 16 % 16) * 16 + n % 16 = n := by omega
  exact congrArg some hvalue

theorem spells_escapeChar {more text : List Char} (c : Char) (h : Spells more text) :
    Spells (escapeChar c ++ more) (c :: text) := by
  unfold escapeChar
  split_ifs with hquote hslash hfeed hreturn htab hback hform hplain hunit
  · obtain rfl := eq_of_beq hquote
    exact .short rfl h
  · obtain rfl := eq_of_beq hslash
    exact .short rfl h
  · obtain rfl := eq_of_beq hfeed
    exact .short rfl h
  · obtain rfl := eq_of_beq hreturn
    exact .short rfl h
  · obtain rfl := eq_of_beq htab
    exact .short rfl h
  · have hc : Char.ofNat 8 = c := by rw [← eq_of_beq hback, Char.ofNat_toNat]
    rw [← hc]
    exact .short rfl h
  · have hc : Char.ofNat 12 = c := by rw [← eq_of_beq hform, Char.ofNat_toNat]
    rw [← hc]
    exact .short rfl h
  · rw [Bool.and_eq_true, decide_eq_true_eq, decide_eq_true_eq] at hplain
    exact .plain hplain.1 (by simpa using hquote) (by simpa using hslash) h
  · -- no character is a surrogate
    have hunit' := Spells.unit (isEscape_unitEscape hunit) (not_isHigh_toNat c) (not_isLow_toNat c) h
    rwa [Char.ofNat_toNat] at hunit'
  · have hlast : c.toNat < 0x110000 := toNat_lt c
    have hhigh : IsHigh (0xd800 + (c.toNat - 0x10000) / 0x400) := by
      constructor <;> omega
    have hlow : IsLow (0xdc00 + (c.toNat - 0x10000) % 0x400) := by
      constructor <;> omega
    have hvalue : 0x10000 + (0xd800 + (c.toNat - 0x10000) / 0x400 - 0xd800) * 0x400 +
        (0xdc00 + (c.toNat - 0x10000) % 0x400 - 0xdc00) = c.toNat := by omega
    have hpair := Spells.pair (isEscape_unitEscape (by omega)) (isEscape_unitEscape (by omega))
      hhigh hlow h
    rw [hvalue, Char.ofNat_toNat] at hpair
    rw [List.append_assoc]
    exact hpair

/-- The text between quotes denotes the text. -/
theorem spells_escaped (text : List Char) : Spells (text.flatMap escapeChar) text := by
  induction text with
  | nil => exact .nil
  | cons c rest ih =>
    rw [List.flatMap_cons]
    exact spells_escapeChar c ih

theorem toList_quotedText (s : String) :
    (quotedText s).toList = '"' :: (s.toList.flatMap escapeChar ++ ['"']) := by
  rw [quotedText, String.toList_ofList]
  rfl

/-! Values -/

mutual

/-- Whether every number in a value has a property, and the names of every record another one. -/
def Everywhere (number : Float → Prop) (names : List String → Prop) : Json → Prop
  | real x => number x
  | list items => EverywhereInItems number names items
  | record members => names (members.map (·.1)) ∧ EverywhereInMembers number names members
  | null | bool _ | int _ | text _ => True

def EverywhereInItems (number : Float → Prop) (names : List String → Prop) : List Json → Prop
  | [] => True
  | item :: rest => Everywhere number names item ∧ EverywhereInItems number names rest

def EverywhereInMembers (number : Float → Prop) (names : List String → Prop) :
    List (String × Json) → Prop
  | [] => True
  | (_, value) :: rest => Everywhere number names value ∧ EverywhereInMembers number names rest

end

section Everywhere

variable {number : Float → Prop} {names : List String → Prop}

theorem everywhereInItems_iff {items : List Json} :
    EverywhereInItems number names items ↔ ∀ item ∈ items, Everywhere number names item := by
  induction items with
  | nil => exact iff_of_true trivial (List.forall_mem_nil _)
  | cons item rest ih => rw [EverywhereInItems, ih, List.forall_mem_cons]

theorem everywhereInMembers_iff {members : List (String × Json)} :
    EverywhereInMembers number names members ↔
      ∀ member ∈ members, Everywhere number names member.2 := by
  induction members with
  | nil => exact iff_of_true trivial (List.forall_mem_nil _)
  | cons member rest ih => rw [EverywhereInMembers, ih, List.forall_mem_cons]

end Everywhere

/-- Whether no record in a value has two members of one name. -/
def HasDistinctNames : Json → Prop := Everywhere (fun _ => True) List.Nodup

/-- Whether every number in a value is finite and no record has two members of one name. -/
def IsPrintable : Json → Prop := Everywhere Binary64.IsFinite List.Nodup

theorem isBlank_spaces (n : ℕ) : IsBlank (List.replicate n ' ') :=
  fun _ hc => .inl (List.eq_of_mem_replicate hc)

theorem isBlank_feed {blank : List Char} (h : IsBlank blank) : IsBlank ('\n' :: blank) :=
  List.forall_mem_cons.mpr ⟨.inr (.inr (.inl rfl)), h⟩

/-- Whether a text with any blanks around it is a part with a given meaning. -/
def DenotesAmid (text : List Char) (part : Part) : Prop :=
  ∀ before after, IsBlank before → IsBlank after → Denotes (before ++ (text ++ after)) part

section Lines

variable {α : Type} {one : α → Part} {many : List α → Part}

/-- Parts on lines of their own, with commas between them, are a sequence of the parts. -/
theorem denotes_lines (hlast : ∀ text x, Denotes text (one x) → Denotes text (many [x]))
    (hmore : ∀ text more x xs, Denotes text (one x) → Denotes more (many xs) →
      Denotes (text ++ ',' :: more) (many (x :: xs)))
    {texts : List (List Char)} {xs : List α}
    (h : List.Forall₂ (fun text x => DenotesAmid text (one x)) texts xs) (hne : texts ≠ [])
    {pad margin : List Char} (hpad : IsBlank pad) (hmargin : IsBlank margin) :
    Denotes ('\n' :: ([',', '\n'].intercalate (texts.map (pad ++ ·)) ++ '\n' :: margin))
      (many xs) := by
  induction h with
  | nil => contradiction
  | @cons text x texts xs hfirst hrest ih =>
    cases hrest with
    | nil =>
      have hone := hlast _ _ (hfirst _ _ (isBlank_feed hpad) (isBlank_feed hmargin))
      rw [List.map_singleton, List.intercalate_singleton, List.append_assoc]
      exact hone
    | @cons second y texts xs hsecond hrest =>
      have hone := hfirst _ _ (isBlank_feed hpad) (List.forall_mem_nil _)
      have hall := hmore _ _ _ _ hone (ih (List.cons_ne_nil _ _))
      rw [List.append_nil] at hall
      rw [List.map_cons, List.map_cons, List.intercalate_cons_cons]
      rw [List.map_cons] at hall
      simpa using hall

end Lines

theorem DenotesAmid.member {name : String} {text : List Char} {v : Json}
    (h : Denotes text (.value v)) :
    DenotesAmid ((quotedText name).toList ++ (':' :: ' ' :: text)) (.member name v) := by
  intro before after hbefore hafter
  have hblank : IsBlank [' '] := isBlank_spaces 1
  have hmember := Denotes.member hbefore (spells_escaped name.toList) (List.forall_mem_nil _)
    (.padded hblank h hafter)
  rw [String.ofList_toList] at hmember
  rw [toList_quotedText]
  simpa using hmember

theorem DenotesAmid.value {text : List Char} {v : Json} (h : Denotes text (.value v)) :
    DenotesAmid text (.padded v) :=
  fun _ _ hbefore hafter => .padded hbefore h hafter

theorem indented_eq_compact (v : Json) (hlist : ∀ items, v ≠ .list items)
    (hrecord : ∀ members, v ≠ .record members) (margin : ℕ) : indented margin v = compact v := by
  rw [indented]
  · exact hlist
  · exact hrecord

theorem toList_enclose_nil (opening closing : String) (margin : ℕ) :
    (enclose opening closing margin []).toList = opening.toList ++ closing.toList :=
  String.toList_append

/-- Items between brackets, as characters. -/
theorem toList_enclose {opening closing : String} {margin : ℕ} {items : List String}
    (h : items ≠ []) :
    (enclose opening closing margin items).toList = opening.toList ++
      ('\n' :: ([',', '\n'].intercalate
        ((items.map String.toList).map (List.replicate (margin + 2) ' ' ++ ·)) ++
          '\n' :: List.replicate margin ' ') ++ closing.toList) := by
  have hempty : items.isEmpty = false := List.isEmpty_eq_false_iff.mpr h
  have hlines : (items.map (String.ofList (List.replicate (margin + 2) ' ') ++ ·)).map String.toList =
      (items.map String.toList).map (List.replicate (margin + 2) ' ' ++ ·) := by
    simp [Function.comp_def]
  unfold enclose
  rw [hempty, if_neg Bool.false_ne_true]
  dsimp only
  simp only [String.toList_append, String.toList_intercalate, String.toList_ofList, hlines]
  simp

mutual

/-- The printed text of a value denotes the value. -/
theorem denotes_indented (margin : ℕ) : ∀ v : Json, IsPrintable v →
    Denotes (indented margin v).toList (.value v)
  | .null, _ => by
    rw [indented_eq_compact .null nofun nofun, compact]
    exact .null
  | .bool b, _ => by
    rw [indented_eq_compact (.bool b) nofun nofun, compact]
    cases b with
    | true => exact .true
    | false => exact .false
  | .int n, _ => by
    rw [indented_eq_compact (.int n) nofun nofun, compact]
    exact .number (isNumber_integer n)
  | .real x, h => by
    rw [indented_eq_compact (.real x) nofun nofun, compact]
    exact .number (isNumber_number h)
  | .text s, _ => by
    rw [indented_eq_compact (.text s) nofun nofun, compact]
    have htext := Denotes.text (spells_escaped s.toList)
    rw [String.ofList_toList, ← toList_quotedText] at htext
    exact htext
  | .list items, h => by
    rw [indented]
    rcases eq_or_ne items [] with rfl | hne
    · rw [indentedItems, toList_enclose_nil]
      exact .emptyList (List.forall_mem_nil _)
    · have hitems := forall₂_indentedItems margin items h
      have htexts : indentedItems margin items ≠ [] := by
        rw [← List.length_pos_iff, hitems.length_eq]
        exact List.length_pos_iff.mpr hne
      have hparts : List.Forall₂ (fun text v => DenotesAmid text (.padded v))
          ((indentedItems margin items).map String.toList) items := by
        rw [List.forall₂_map_left_iff]
        exact hitems.imp fun _ _ => DenotesAmid.value
      have hlines := denotes_lines (fun _ _ => .lastItem) (fun _ _ _ _ => .item) hparts
        (List.map_eq_nil_iff.not.mpr htexts) (isBlank_spaces (margin + 2)) (isBlank_spaces margin)
      rw [toList_enclose htexts]
      exact .list hlines
  | .record members, ⟨hnames, h⟩ => by
    rw [indented]
    rcases eq_or_ne members [] with rfl | hne
    · rw [indentedMembers, toList_enclose_nil]
      exact .emptyRecord (List.forall_mem_nil _)
    · have hmembers := forall₂_indentedMembers margin members h
      have htexts : indentedMembers margin members ≠ [] := by
        rw [← List.length_pos_iff, hmembers.length_eq]
        exact List.length_pos_iff.mpr hne
      have hparts : List.Forall₂ (fun text member => DenotesAmid text (.member member.1 member.2))
          ((indentedMembers margin members).map String.toList) members := by
        rw [List.forall₂_map_left_iff]
        apply hmembers.imp
        rintro text member ⟨inside, hinside, htext⟩
        rw [htext]
        exact .member hinside
      have hlines := denotes_lines
        (fun _ _ => .lastMember) (fun _ _ _ _ => .furtherMember) hparts
        (List.map_eq_nil_iff.not.mpr htexts) (isBlank_spaces (margin + 2)) (isBlank_spaces margin)
      rw [toList_enclose htexts]
      have hrecord := Denotes.record hlines
      rw [Entries.putAll_of_nodup hnames] at hrecord
      exact hrecord

theorem forall₂_indentedItems (margin : ℕ) : ∀ items : List Json,
    EverywhereInItems Binary64.IsFinite List.Nodup items →
    List.Forall₂ (fun text v => Denotes text.toList (.value v)) (indentedItems margin items) items
  | [], _ => .nil
  | item :: rest, h =>
    .cons (denotes_indented (margin + 2) item h.1) (forall₂_indentedItems margin rest h.2)

theorem forall₂_indentedMembers (margin : ℕ) : ∀ members : List (String × Json),
    EverywhereInMembers Binary64.IsFinite List.Nodup members →
    List.Forall₂ (fun text member => ∃ inside, Denotes inside (.value member.2) ∧
      text.toList = (quotedText member.1).toList ++ ':' :: ' ' :: inside)
      (indentedMembers margin members) members
  | [], _ => .nil
  | (name, value) :: rest, h => by
    refine .cons ⟨_, denotes_indented (margin + 2) value h.1, ?_⟩
      (forall₂_indentedMembers margin rest h.2)
    simp

end

theorem isJsonText_indented {v : Json} (h : IsPrintable v) : IsJsonText (indented 0 v) v := by
  have htext := Denotes.padded (List.forall_mem_nil _) (denotes_indented 0 v h) (List.forall_mem_nil _)
  rwa [List.append_nil] at htext

end Bourse.Json
