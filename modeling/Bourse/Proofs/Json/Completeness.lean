import Bourse.Proofs.Json.Reading

/-! What the grammar accepts is read. By induction on the text, every part of it is taken up to its
end, whatever follows it, so a JSON text is read as the value that it denotes. It denotes no other
value then. -/
namespace Bourse.Json

/-! Where values begin and end -/

/-- Whether a number cannot go on with a text. -/
def Stops (rest : List Char) : Prop := rest.head?.any isNumberChar = false

theorem stops_blank {blank : List Char} (h : IsBlank blank) {rest : List Char} (hrest : Stops rest) :
    Stops (blank ++ rest) := by
  cases blank with
  | nil => exact hrest
  | cons c more => rcases h c List.mem_cons_self with rfl | rfl | rfl | rfl <;> rfl

/-- Whether a text begins, after blanks, with a character that closes nothing. -/
def Opens (text : List Char) : Prop :=
  ∃ blank c more, text = blank ++ c :: more ∧ IsBlank blank ∧ isSpace c = false ∧
    c ≠ ']' ∧ c ≠ '\x7d'

theorem opens_cons {c : Char} (hspace : isSpace c = false) (hlist : c ≠ ']') (hrecord : c ≠ '\x7d')
    (more : List Char) : Opens (c :: more) :=
  ⟨[], c, more, rfl, List.forall_mem_nil _, hspace, hlist, hrecord⟩

theorem Opens.append {text : List Char} (h : Opens text) (rest : List Char) :
    Opens (text ++ rest) := by
  obtain ⟨blank, c, more, rfl, hblank, hc⟩ := h
  exact ⟨blank, c, more ++ rest, by simp, hblank, hc⟩

theorem Opens.blank {text blank : List Char} (hblank : IsBlank blank) (h : Opens text) :
    Opens (blank ++ text) := by
  obtain ⟨inner, c, more, rfl, hinner, hc⟩ := h
  exact ⟨blank ++ inner, c, more, by simp, List.forall_mem_append.mpr ⟨hblank, hinner⟩, hc⟩

/-- The first character of a number is a minus or a digit. -/
theorem exists_cons_of_isNumber {text : List Char} {v : Json} (h : IsNumber text v) :
    ∃ c more, text = c :: more ∧ (c = '-' ∨ c.isDigit = true) := by
  have hfirst (negative : Bool) {whole : List Char} (hwhole : IsDigits whole) (rest : List Char) :
      ∃ c more, sign negative ++ (whole ++ rest) = c :: more ∧ (c = '-' ∨ c.isDigit = true) := by
    cases negative with
    | true => exact ⟨_, _, rfl, .inl rfl⟩
    | false =>
      obtain ⟨c, more, rfl⟩ := List.exists_cons_of_ne_nil hwhole.1
      exact ⟨_, _, rfl, .inr (hwhole.2 c List.mem_cons_self)⟩
  cases h with
  | int negative hwhole =>
    have hint := hfirst negative hwhole.digits []
    rwa [List.append_nil] at hint
  | real negative hwhole _ _ _ => exact hfirst negative hwhole.digits _

theorem isSpace_of_isDigit {c : Char} (h : c.isDigit = true) : isSpace c = false := by
  rw [Bool.eq_false_iff, ne_eq, isSpace_iff]
  rintro (rfl | rfl | rfl | rfl) <;> contradiction

theorem Denotes.opens {text : List Char} {part : Part} (h : Denotes text part) : Opens text := by
  induction h with
  | null | true | false | text _ | emptyList _ | list _ _ | emptyRecord _ | record _ _ =>
    exact opens_cons rfl (by decide) (by decide) _
  | number h =>
    obtain ⟨c, more, rfl, rfl | hdigit⟩ := exists_cons_of_isNumber h
    · exact opens_cons rfl (by decide) (by decide) _
    · exact opens_cons (isSpace_of_isDigit hdigit) (Text.ne_of_isDigit hdigit rfl)
        (Text.ne_of_isDigit hdigit rfl) _
  | padded hbefore _ _ ih => exact (ih.append _).blank hbefore
  | lastItem _ ih | lastMember _ ih => exact ih
  | item _ _ ih _ | furtherMember _ _ ih _ => exact ih.append _
  | member hbefore _ _ _ _ => exact (opens_cons rfl (by decide) (by decide) _).blank hbefore

/-! Steps -/

theorem readValue_quote (fuel : ℕ) (input : List Char) :
    readValue (fuel + 1) ('"' :: input) =
      (readText [] input).map fun (s, rest) => (.text s, rest) := rfl

theorem readValue_bracket (fuel : ℕ) (input : List Char) :
    readValue (fuel + 1) ('[' :: input) =
      match input.dropWhile isSpace with
      | ']' :: rest => some (.list [], rest)
      | rest => readItems fuel [] rest := rfl

theorem readValue_brace (fuel : ℕ) (input : List Char) :
    readValue (fuel + 1) ('\x7b' :: input) =
      match input.dropWhile isSpace with
      | '\x7d' :: rest => some (.record [], rest)
      | rest => readMembers fuel [] rest := rfl

theorem readItems_eq (fuel : ℕ) (seen : List Json) (input : List Char) :
    readItems (fuel + 1) seen input =
      match readValue fuel input with
      | none => none
      | some (item, rest) =>
        match rest.dropWhile isSpace with
        | ',' :: rest => readItems fuel (item :: seen) rest
        | ']' :: rest => some (.list (item :: seen).reverse, rest)
        | _ => none := rfl

/-- Behind a name and a colon a value is read. -/
theorem readMembers_eq (fuel : ℕ) (seen : List (String × Json)) {before name chars after : List Char}
    (hbefore : IsBlank before) (hname : Spells name chars) (hafter : IsBlank after)
    (text : List Char) :
    readMembers (fuel + 1) seen (before ++ '"' :: (name ++ '"' :: (after ++ ':' :: text))) =
      match readValue fuel text with
      | none => none
      | some (value, rest) =>
        match rest.dropWhile isSpace with
        | ',' :: rest => readMembers fuel (Entries.put (String.ofList chars) value seen) rest
        | '\x7d' :: rest => some (.record (Entries.put (String.ofList chars) value seen), rest)
        | _ => none := by
  have hread := readText_spells hname [] (after ++ ':' :: text) nofun
  have hquote := dropWhile_blank_cons hbefore (rfl : isSpace '"' = false)
  have hcolon := dropWhile_blank_cons hafter (rfl : isSpace ':' = false)
  simp only [readMembers, hquote, hread, hcolon]
  rfl

/-! Blanks in front -/

theorem dropWhile_isSpace_idem (input : List Char) :
    (input.dropWhile isSpace).dropWhile isSpace = input.dropWhile isSpace :=
  dropWhile_eq_self_of_head? (any_head?_dropWhile isSpace input)

theorem readValue_dropWhile (fuel : ℕ) (input : List Char) :
    readValue fuel (input.dropWhile isSpace) = readValue fuel input := by
  cases fuel with
  | zero => rfl
  | succ fuel => rw [readValue, readValue, dropWhile_isSpace_idem]

theorem readItems_dropWhile (fuel : ℕ) (seen : List Json) (input : List Char) :
    readItems fuel seen (input.dropWhile isSpace) = readItems fuel seen input := by
  cases fuel with
  | zero => rfl
  | succ fuel => rw [readItems_eq, readItems_eq, readValue_dropWhile]

theorem readMembers_dropWhile (fuel : ℕ) (seen : List (String × Json)) (input : List Char) :
    readMembers fuel seen (input.dropWhile isSpace) = readMembers fuel seen input := by
  cases fuel with
  | zero => rfl
  | succ fuel => rw [readMembers, readMembers, dropWhile_isSpace_idem]

theorem readValue_list {input : List Char} (h : Opens input) (fuel : ℕ) :
    readValue (fuel + 1) ('[' :: input) = readItems fuel [] input := by
  obtain ⟨blank, c, more, rfl, hblank, hspace, hlist, -⟩ := h
  rw [readValue_bracket, ← readItems_dropWhile, dropWhile_blank_cons hblank hspace]
  split
  case h_1 heq => exact absurd (List.cons.inj heq).1 hlist
  all_goals rfl

theorem readValue_record {input : List Char} (h : Opens input) (fuel : ℕ) :
    readValue (fuel + 1) ('\x7b' :: input) = readMembers fuel [] input := by
  obtain ⟨blank, c, more, rfl, hblank, hspace, -, hrecord⟩ := h
  rw [readValue_brace, ← readMembers_dropWhile, dropWhile_blank_cons hblank hspace]
  split
  case h_1 heq => exact absurd (List.cons.inj heq).1 hrecord
  all_goals rfl

/-! Parts -/

theorem readItems_succ (fuel : ℕ) (seen : List Json) {input rest : List Char} {item : Json}
    (h : readValue fuel input = some (item, rest)) :
    readItems (fuel + 1) seen input =
      match rest.dropWhile isSpace with
      | ',' :: rest => readItems fuel (item :: seen) rest
      | ']' :: rest => some (.list (item :: seen).reverse, rest)
      | _ => none := by
  rw [readItems_eq, h]

theorem readMembers_succ (fuel : ℕ) (seen : List (String × Json))
    {before name chars after text rest : List Char} {v : Json} (hbefore : IsBlank before)
    (hname : Spells name chars) (hafter : IsBlank after)
    (h : readValue fuel text = some (v, rest)) :
    readMembers (fuel + 1) seen (before ++ '"' :: (name ++ '"' :: (after ++ ':' :: text))) =
      match rest.dropWhile isSpace with
      | ',' :: rest => readMembers fuel (Entries.put (String.ofList chars) v seen) rest
      | '\x7d' :: rest => some (.record (Entries.put (String.ofList chars) v seen), rest)
      | _ => none := by
  rw [readMembers_eq fuel seen hbefore hname hafter, h]

theorem readValue_number {text : List Char} {v : Json} (h : IsNumber text v) (fuel : ℕ)
    {rest : List Char} (hrest : Stops rest) :
    readValue (fuel + 1) (text ++ rest) = some (v, rest) := by
  have hchars := isNumberChar_of_isNumber h
  have htake : (text ++ rest).takeWhile isNumberChar = text :=
    takeWhile_append_eq_left.mpr ⟨hchars, hrest⟩
  have hdrop : (text ++ rest).dropWhile isNumberChar = rest := by
    rw [List.dropWhile_append_of_pos hchars, dropWhile_eq_self_of_head? hrest]
  have hread := number?_of_isNumber h
  obtain ⟨c, more, htext, hc⟩ := exists_cons_of_isNumber h
  have hspace : isSpace c = false := by
    rcases hc with rfl | hdigit
    · rfl
    · exact isSpace_of_isDigit hdigit
  have hne {mark : Char} (hminus : mark ≠ '-') (hmark : mark.isDigit = false) : c ≠ mark := by
    rcases hc with rfl | hdigit
    · exact hminus.symm
    · exact Text.ne_of_isDigit hdigit hmark
  have hinput : (text ++ rest).dropWhile isSpace = text ++ rest := by
    rw [htext]
    exact List.dropWhile_cons_of_neg (Bool.eq_false_iff.mp hspace)
  rw [readValue, hinput]
  split
  case h_7 => rw [htake, hdrop, hread]; rfl
  all_goals
    rename_i heq
    rw [htext] at heq
    exact absurd (List.cons.inj heq).1 (hne (by decide) rfl)

/-! Every part of a text -/

theorem readValue_blank {blank : List Char} (h : IsBlank blank) (fuel : ℕ) (rest : List Char) :
    readValue fuel (blank ++ rest) = readValue fuel rest := by
  rw [← readValue_dropWhile, dropWhile_blank h, readValue_dropWhile]

/-- Whether a part is taken from the front of any text with enough steps. A number ends where no
character of a number follows, a sequence where its list or record is closed. -/
def IsTaken (text : List Char) : Part → Prop
  | .value v => ∀ fuel rest, text.length < fuel → Stops rest →
    readValue fuel (text ++ rest) = some (v, rest)
  | .padded v => ∀ fuel rest, text.length < fuel → Stops rest →
    ∃ blank, IsBlank blank ∧ readValue fuel (text ++ rest) = some (v, blank ++ rest)
  | .items items => ∀ fuel seen rest, text.length + 1 < fuel →
    readItems fuel seen (text ++ ']' :: rest) = some (.list (seen.reverse ++ items), rest)
  | .member name v => ∀ fuel seen rest, text.length < fuel →
    readMembers (fuel + 1) seen (text ++ ',' :: rest) =
      readMembers fuel (Entries.put name v seen) rest ∧
    readMembers (fuel + 1) seen (text ++ '\x7d' :: rest) =
      some (.record (Entries.put name v seen), rest)
  | .members members => ∀ fuel seen rest, text.length + 1 < fuel →
    readMembers fuel seen (text ++ '\x7d' :: rest) =
      some (.record (Entries.putAll seen members), rest)

theorem isTaken_lastItem {text : List Char} {v : Json} (h : IsTaken text (.padded v)) :
    IsTaken text (.items [v]) := by
  intro fuel seen rest hfuel
  obtain ⟨fuel, rfl⟩ := Nat.exists_eq_add_one_of_ne_zero (Nat.ne_zero_of_lt hfuel)
  obtain ⟨blank, hblank, hread⟩ := h fuel (']' :: rest) (by omega) rfl
  rw [readItems_succ fuel seen hread, dropWhile_blank_cons hblank rfl]
  simp

theorem isTaken_item {text more : List Char} {v : Json} {items : List Json}
    (h : IsTaken text (.padded v)) (hmore : IsTaken more (.items items)) :
    IsTaken (text ++ ',' :: more) (.items (v :: items)) := by
  intro fuel seen rest hfuel
  rw [List.length_append, List.length_cons] at hfuel
  obtain ⟨fuel, rfl⟩ := Nat.exists_eq_add_one_of_ne_zero (Nat.ne_zero_of_lt hfuel)
  obtain ⟨blank, hblank, hread⟩ := h fuel (',' :: (more ++ ']' :: rest)) (by omega) rfl
  have htail := hmore fuel (v :: seen) rest (by omega)
  rw [List.append_assoc, List.cons_append, readItems_succ fuel seen hread,
    dropWhile_blank_cons hblank rfl]
  rw [List.reverse_cons, List.append_assoc] at htail
  exact htail

theorem isTaken_member {before name chars after text : List Char} {v : Json}
    (hbefore : IsBlank before) (hname : Spells name chars) (hafter : IsBlank after)
    (h : IsTaken text (.padded v)) :
    IsTaken (before ++ '"' :: (name ++ '"' :: (after ++ ':' :: text)))
      (.member (String.ofList chars) v) := by
  intro fuel seen rest hfuel
  have hshort : text.length < fuel := by
    simp only [List.length_append, List.length_cons] at hfuel
    omega
  have hsplit (rest : List Char) :
      (before ++ '"' :: (name ++ '"' :: (after ++ ':' :: text))) ++ rest =
        before ++ '"' :: (name ++ '"' :: (after ++ ':' :: (text ++ rest))) := by simp
  constructor
  · obtain ⟨blank, hblank, hread⟩ := h fuel (',' :: rest) hshort rfl
    rw [hsplit, readMembers_succ fuel seen hbefore hname hafter hread,
      dropWhile_blank_cons hblank rfl]
    rfl
  · obtain ⟨blank, hblank, hread⟩ := h fuel ('\x7d' :: rest) hshort rfl
    rw [hsplit, readMembers_succ fuel seen hbefore hname hafter hread,
      dropWhile_blank_cons hblank rfl]
    rfl

theorem isTaken_lastMember {text : List Char} {name : String} {v : Json}
    (h : IsTaken text (.member name v)) : IsTaken text (.members [(name, v)]) := by
  intro fuel seen rest hfuel
  obtain ⟨fuel, rfl⟩ := Nat.exists_eq_add_one_of_ne_zero (Nat.ne_zero_of_lt hfuel)
  exact (h fuel seen rest (by omega)).2

theorem isTaken_furtherMember {text more : List Char} {name : String} {v : Json}
    {members : List (String × Json)} (h : IsTaken text (.member name v))
    (hmore : IsTaken more (.members members)) :
    IsTaken (text ++ ',' :: more) (.members ((name, v) :: members)) := by
  intro fuel seen rest hfuel
  rw [List.length_append, List.length_cons] at hfuel
  obtain ⟨fuel, rfl⟩ := Nat.exists_eq_add_one_of_ne_zero (Nat.ne_zero_of_lt hfuel)
  have hfirst := (h fuel seen (more ++ '\x7d' :: rest) (by omega)).1
  rw [List.append_assoc, List.cons_append, hfirst]
  exact hmore fuel (Entries.put name v seen) rest (by omega)

theorem isTaken_text {inside chars : List Char} (h : Spells inside chars) :
    IsTaken ('"' :: (inside ++ ['"'])) (.value (.text (String.ofList chars))) := by
  intro fuel rest hfuel _
  obtain ⟨fuel, rfl⟩ := Nat.exists_eq_add_one_of_ne_zero (Nat.ne_zero_of_lt hfuel)
  have hread := readText_spells h [] rest nofun
  rw [List.cons_append, List.append_assoc, List.singleton_append, readValue_quote, hread]
  rfl

theorem isTaken_emptyList {blank : List Char} (h : IsBlank blank) :
    IsTaken ('[' :: (blank ++ [']'])) (.value (.list [])) := by
  intro fuel rest hfuel _
  obtain ⟨fuel, rfl⟩ := Nat.exists_eq_add_one_of_ne_zero (Nat.ne_zero_of_lt hfuel)
  rw [List.cons_append, List.append_assoc, readValue_bracket, List.singleton_append,
    dropWhile_blank_cons h rfl]
  rfl

theorem isTaken_emptyRecord {blank : List Char} (h : IsBlank blank) :
    IsTaken ('\x7b' :: (blank ++ ['\x7d'])) (.value (.record [])) := by
  intro fuel rest hfuel _
  obtain ⟨fuel, rfl⟩ := Nat.exists_eq_add_one_of_ne_zero (Nat.ne_zero_of_lt hfuel)
  rw [List.cons_append, List.append_assoc, readValue_brace, List.singleton_append,
    dropWhile_blank_cons h rfl]
  rfl

theorem isTaken_list {inside : List Char} {items : List Json} (hopens : Opens inside)
    (h : IsTaken inside (.items items)) : IsTaken ('[' :: (inside ++ [']'])) (.value (.list items)) := by
  intro fuel rest hfuel _
  obtain ⟨fuel, rfl⟩ := Nat.exists_eq_add_one_of_ne_zero (Nat.ne_zero_of_lt hfuel)
  rw [List.length_cons, List.length_append, List.length_singleton] at hfuel
  rw [List.cons_append, List.append_assoc, List.singleton_append,
    readValue_list (hopens.append _)]
  exact h fuel [] rest (by omega)

theorem isTaken_record {inside : List Char} {members : List (String × Json)} (hopens : Opens inside)
    (h : IsTaken inside (.members members)) :
    IsTaken ('\x7b' :: (inside ++ ['\x7d'])) (.value (.record (Entries.putAll [] members))) := by
  intro fuel rest hfuel _
  obtain ⟨fuel, rfl⟩ := Nat.exists_eq_add_one_of_ne_zero (Nat.ne_zero_of_lt hfuel)
  rw [List.length_cons, List.length_append, List.length_singleton] at hfuel
  rw [List.cons_append, List.append_assoc, List.singleton_append,
    readValue_record (hopens.append _)]
  exact h fuel [] rest (by omega)

theorem isTaken_padded {before text after : List Char} {v : Json} (hbefore : IsBlank before)
    (hafter : IsBlank after) (h : IsTaken text (.value v)) :
    IsTaken (before ++ (text ++ after)) (.padded v) := by
  intro fuel rest hfuel hrest
  rw [List.length_append, List.length_append] at hfuel
  have hread := h fuel (after ++ rest) (by omega) (stops_blank hafter hrest)
  refine ⟨after, hafter, ?_⟩
  rw [List.append_assoc, List.append_assoc, readValue_blank hbefore, hread]

/-- Every part of a text is read as what it denotes. -/
theorem Denotes.isTaken {text : List Char} {part : Part} (h : Denotes text part) :
    IsTaken text part := by
  induction h with
  | null | true | false =>
    intro fuel rest hfuel _
    obtain ⟨fuel, rfl⟩ := Nat.exists_eq_add_one_of_ne_zero (Nat.ne_zero_of_lt hfuel)
    rfl
  | number h =>
    intro fuel rest hfuel hrest
    obtain ⟨fuel, rfl⟩ := Nat.exists_eq_add_one_of_ne_zero (Nat.ne_zero_of_lt hfuel)
    exact readValue_number h fuel hrest
  | text h => exact isTaken_text h
  | emptyList h => exact isTaken_emptyList h
  | list h ih => exact isTaken_list h.opens ih
  | emptyRecord h => exact isTaken_emptyRecord h
  | record h ih => exact isTaken_record h.opens ih
  | padded hbefore _ hafter ih => exact isTaken_padded hbefore hafter ih
  | lastItem _ ih => exact isTaken_lastItem ih
  | item _ _ ih ihmore => exact isTaken_item ih ihmore
  | member hbefore hname hafter _ ih => exact isTaken_member hbefore hname hafter ih
  | lastMember _ ih => exact isTaken_lastMember ih
  | furtherMember _ _ ih ihmore => exact isTaken_furtherMember ih ihmore

/-- A JSON text is read as the value that it denotes. -/
theorem IsJsonText.read? {text : String} {v : Json} (h : IsJsonText text v) : read? text = some v := by
  obtain ⟨blank, hblank, hread⟩ :=
    h.isTaken (text.toList.length + 1) [] (Nat.lt_succ_self _) rfl
  have hspaces : blank.all isSpace = true :=
    List.all_eq_true.mpr fun c hc => isSpace_iff.mpr (hblank c hc)
  rw [List.append_nil, List.append_nil] at hread
  simp only [Json.read?, hread, hspaces, if_true]

/-- A text denotes one value at most. -/
theorem IsJsonText.unique {text : String} {v w : Json} (hv : IsJsonText text v)
    (hw : IsJsonText text w) : v = w :=
  Option.some.inj (hv.read?.symm.trans hw.read?)

end Bourse.Json
