import Bourse.Delimited.Reader
import Mathlib.Data.List.Basic
import Mathlib.Tactic.SplitIfs

/-! Records that are written are read again. The reader is followed through a field, from field to
field through a record and from record to record; what it has read of a field is the text that was
written, without the quotes that are there for its sake. The end of the text ends the last record as
a line feed does. -/
namespace Bourse.Delimited

/-- What can stand between fields: anything but a quote and the ends of lines. -/
structure IsDelimiter (delimiter : Char) : Prop where
  ne_quote : delimiter ≠ quote
  ne_feed : delimiter ≠ '\n'
  ne_return : delimiter ≠ '\r'

theorem isDelimiter_comma : IsDelimiter ',' := by
  constructor <;> decide

theorem isDelimiter_tab : IsDelimiter '\t' := by
  constructor <;> decide

/-- The fields that come back: those without carriage returns that are not too long. -/
structure IsKept (field : List Char) : Prop where
  no_return : '\r' ∉ field
  length_le : field.length ≤ mostChars

namespace Reader

variable {delimiter : Char} {reader : Reader} {mode : Mode} {text more : List Char} {c : Char}

/-- A reader within a field of which it has read a text. -/
def within (reader : Reader) (mode : Mode) (text : List Char) : Reader :=
  { reader with mode, field := text.reverse, fieldLength := text.length }

def withField (reader : Reader) (field : List Char) : Reader :=
  { reader with fields := String.ofList field :: reader.fields }

/-- A reader with one more record, which takes the fields that were read. -/
def withRecord (reader : Reader) : Reader :=
  { reader with fields := [], records := reader.fields.reverse :: reader.records }

theorem push_within (mode' : Mode) (h : text.length < mostChars) :
    (reader.within mode text).push mode' c = reader.within mode' (text ++ [c]) := by
  have hlong : ¬mostChars ≤ (reader.within mode text).fieldLength := Nat.not_le_of_lt h
  rw [push, if_neg hlong]
  simp [within]

theorem endField_within (mode' : Mode) :
    (reader.within mode text).endField mode' = (reader.withField text).within mode' [] := by
  simp [within, endField, withField]

/-! Through a field -/

/-- Whether a character goes on with a field without quotes. -/
def IsPlain (delimiter c : Char) : Prop := isLineEnd c = false ∧ c ≠ delimiter

theorem step_plain (hc : IsPlain delimiter c) (h : text.length < mostChars) :
    step delimiter (reader.within .plain text) c = reader.within .plain (text ++ [c]) := by
  have hstep : step delimiter (reader.within .plain text) c =
      inPlain delimiter (reader.within .plain text) c := rfl
  rw [hstep, inPlain, if_neg (Bool.eq_false_iff.mp hc.1), if_neg (by simpa using hc.2),
    push_within .plain h]

/-- Where each character is read from what is written for it, a text is read from what is written
for its characters. -/
theorem foldl_written {written : Char → List Char}
    (hread : ∀ text, ∀ c ∈ more, text.length < mostChars →
      (written c).foldl (step delimiter) (reader.within mode text) =
        reader.within mode (text ++ [c]))
    (h : text.length + more.length ≤ mostChars) :
    (more.flatMap written).foldl (step delimiter) (reader.within mode text) =
      reader.within mode (text ++ more) := by
  -- the text that has been read grows by one character after another
  induction more generalizing text with
  | nil => rw [List.flatMap_nil, List.foldl_nil, List.append_nil]
  | cons c rest ih =>
    rw [List.length_cons] at h
    have hlength : (text ++ [c]).length + rest.length ≤ mostChars := by
      rw [List.length_append, List.length_singleton]
      omega
    have hchar := hread text c List.mem_cons_self (by omega)
    have hrest := ih (fun text d hd => hread text d (List.mem_cons_of_mem c hd)) hlength
    rw [List.flatMap_cons, List.foldl_append, hchar, hrest, List.append_assoc]
    rfl

theorem foldl_plain (hmore : ∀ c ∈ more, IsPlain delimiter c)
    (h : text.length + more.length ≤ mostChars) :
    more.foldl (step delimiter) (reader.within .plain text) =
      reader.within .plain (text ++ more) := by
  have hread (text : List Char) (c : Char) (hc : c ∈ more) (hlength : text.length < mostChars) :
      [c].foldl (step delimiter) (reader.within .plain text) =
        reader.within .plain (text ++ [c]) :=
    step_plain (hmore c hc) hlength
  have hwritten := foldl_written hread h
  rwa [List.flatMap_singleton'] at hwritten

/-- In quotes every character is read, and a quote that is written twice is read once. -/
theorem foldl_quoted (h : text.length + more.length ≤ mostChars) :
    (more.flatMap fun c => if c == quote then [quote, quote] else [c]).foldl (step delimiter)
      (reader.within .quoted text) = reader.within .quoted (text ++ more) := by
  refine foldl_written (fun text c _ hlength => ?_) h
  split_ifs with hquote
  · rw [beq_iff_eq] at hquote
    subst hquote
    exact push_within .quoted hlength
  · have hstep : step delimiter (reader.within .quoted text) c =
        if c == quote then { reader.within .quoted text with mode := .closing }
        else (reader.within .quoted text).push .quoted c := rfl
    rw [List.foldl_cons, List.foldl_nil, hstep, if_neg hquote, push_within .quoted hlength]

/-- Where a reader can stand before a field. -/
def IsStart (mode : Mode) : Prop := mode = .recordStart ∨ mode = .fieldStart

/-- Where a reader stands behind a field that has been written. -/
def modeAfter (delimiter : Char) (mode : Mode) (field : List Char) : Mode :=
  if needsQuotes delimiter field then .closing else if field = [] then mode else .plain

theorem isPlain_of_not_needsQuotes {field : List Char} (hkept : '\r' ∉ field)
    (h : needsQuotes delimiter field = false) :
    ∀ c ∈ field, IsPlain delimiter c ∧ c ≠ quote := by
  intro c hc
  have hother := List.any_eq_false.mp h c hc
  simp only [Bool.or_eq_true, beq_iff_eq, not_or] at hother
  have hreturn : c ≠ '\r' := by
    rintro rfl
    exact hkept hc
  refine ⟨⟨?_, hother.1.1⟩, hother.1.2⟩
  simp [isLineEnd, hother.2, hreturn]

theorem step_start (hmode : IsStart mode) (hc : IsPlain delimiter c) (hquote : c ≠ quote) :
    step delimiter (reader.within mode []) c = reader.within .plain [c] := by
  have hend : ¬isLineEnd c = true := Bool.eq_false_iff.mp hc.1
  have hfield : atFieldStart delimiter (reader.within mode []) c = reader.within .plain [c] := by
    rw [atFieldStart, if_neg hend, if_neg (by simpa using hquote), if_neg (by simpa using hc.2),
      push_within .plain (by decide), List.nil_append]
  rcases hmode with rfl | rfl
  · have hstep : step delimiter (reader.within .recordStart []) c =
        atRecordStart delimiter (reader.within .recordStart []) c := rfl
    rw [hstep, atRecordStart, if_neg hend, hfield]
  · exact hfield

theorem step_start_quote (hmode : IsStart mode) :
    step delimiter (reader.within mode []) quote = reader.within .quoted [] := by
  rcases hmode with rfl | rfl <;> rfl

theorem foldl_enclosed (hmode : IsStart mode) {field : List Char}
    (h : field.length ≤ mostChars) :
    (enclosed field).foldl (step delimiter) (reader.within mode []) =
      reader.within .closing field := by
  have hlength : ([] : List Char).length + field.length ≤ mostChars := by
    rw [List.length_nil]
    omega
  rw [enclosed, List.cons_append, List.foldl_cons, step_start_quote hmode, List.foldl_append,
    foldl_quoted hlength]
  rfl

theorem foldl_fieldText (hmode : IsStart mode) {field : List Char} (hkept : IsKept field) :
    (fieldText delimiter field).foldl (step delimiter) (reader.within mode []) =
      reader.within (modeAfter delimiter mode field) field := by
  unfold fieldText modeAfter
  split_ifs with hquotes hnil
  · exact foldl_enclosed hmode hkept.length_le
  · rw [hnil, List.foldl_nil]
  · have hplain := isPlain_of_not_needsQuotes hkept.no_return (Bool.eq_false_iff.mpr hquotes)
    cases field with
    | nil => contradiction
    | cons c rest =>
      obtain ⟨⟨hc, hquote⟩, hrest⟩ := List.forall_mem_cons.mp hplain
      have hlength : [c].length + rest.length ≤ mostChars := by
        have := hkept.length_le
        rw [List.length_cons] at this
        rw [List.length_singleton]
        omega
      rw [List.foldl_cons, step_start hmode hc hquote,
        foldl_plain (fun e he => (hrest e he).1) hlength]
      rfl

/-! From field to field -/

theorem isLineEnd_of_isDelimiter (h : IsDelimiter delimiter) : isLineEnd delimiter = false := by
  simp [isLineEnd, h.ne_feed, h.ne_return]

/-- The delimiter behind a field ends it. -/
theorem step_delimiter (h : IsDelimiter delimiter) (hmode : IsStart mode) (field : List Char) :
    step delimiter (reader.within (modeAfter delimiter mode field) field) delimiter =
      (reader.withField field).within .fieldStart [] := by
  have hend : ¬isLineEnd delimiter = true := Bool.eq_false_iff.mp (isLineEnd_of_isDelimiter h)
  have hquote : ¬(delimiter == quote) = true := by simpa using h.ne_quote
  have hsame : (delimiter == delimiter) = true := BEq.rfl
  have hfield (other : Mode) : inPlain delimiter (reader.within other field) delimiter =
      (reader.withField field).within .fieldStart [] := by
    rw [inPlain, if_neg hend, if_pos hsame, endField_within]
  have hstart (other : Mode) : atFieldStart delimiter (reader.within other field) delimiter =
      (reader.withField field).within .fieldStart [] := by
    rw [atFieldStart, if_neg hend, if_neg hquote, if_pos hsame, endField_within]
  unfold modeAfter
  split_ifs with hquotes hnil
  · have hstep : step delimiter (reader.within .closing field) delimiter =
        if delimiter == quote then (reader.within .closing field).push .quoted delimiter
        else inPlain delimiter (reader.within .closing field) delimiter := rfl
    rw [hstep, if_neg hquote, hfield]
  · rcases hmode with rfl | rfl
    · have hstep : step delimiter (reader.within .recordStart field) delimiter =
          atRecordStart delimiter (reader.within .recordStart field) delimiter := rfl
      rw [hstep, atRecordStart, if_neg hend, hstart]
    · exact hstart .fieldStart
  · exact hfield .plain

/-- A line feed behind a field ends the record, unless nothing of the record has been read. -/
theorem step_feed (hmode : IsStart mode) {field : List Char}
    (h : mode = .fieldStart ∨ needsQuotes delimiter field = true ∨ field ≠ []) :
    step delimiter (reader.within (modeAfter delimiter mode field) field) '\n' =
      (reader.withField field).withRecord.within .recordStart [] := by
  unfold modeAfter
  split_ifs with hquotes hnil
  · exact congrArg (endRecord · .recordStart) (endField_within .fieldStart)
  · rcases hmode with rfl | rfl
    · exact absurd (h.resolve_left nofun) (not_or.mpr ⟨hquotes, not_not.mpr hnil⟩)
    · exact congrArg (endRecord · .recordStart) (endField_within .fieldStart)
  · exact congrArg (endRecord · .recordStart) (endField_within .fieldStart)

def withFields (reader : Reader) (fields : List (List Char)) : Reader :=
  fields.foldl withField reader

/-- Through the fields of a record and the line feed behind them. -/
theorem foldl_joined (hdelimiter : IsDelimiter delimiter) {field : List Char}
    {fields : List (List Char)} (hmode : IsStart mode)
    (hkept : ∀ f ∈ field :: fields, IsKept f)
    (h : mode = .fieldStart ∨ needsQuotes delimiter field = true ∨ field ≠ [] ∨ fields ≠ []) :
    (joined delimiter (field :: fields) ++ ['\n']).foldl (step delimiter) (reader.within mode []) =
      (reader.withFields (field :: fields)).withRecord.within .recordStart [] := by
  -- behind a delimiter an empty last field counts, so the condition is needed only at the start
  induction fields generalizing field reader mode with
  | nil =>
    have hfield := hkept field List.mem_cons_self
    have hlast : mode = .fieldStart ∨ needsQuotes delimiter field = true ∨ field ≠ [] := by
      simpa using h
    rw [joined, List.foldl_append, foldl_fieldText hmode hfield, List.foldl_cons, List.foldl_nil,
      step_feed hmode hlast]
    rfl
  | cons next rest ih =>
    obtain ⟨hfield, hrest⟩ := List.forall_mem_cons.mp hkept
    have hsplit : joined delimiter (field :: next :: rest) =
        fieldText delimiter field ++ delimiter :: joined delimiter (next :: rest) := rfl
    rw [hsplit, List.append_assoc, List.foldl_append, foldl_fieldText hmode hfield,
      List.cons_append, List.foldl_cons, step_delimiter hdelimiter hmode field,
      ih (.inr rfl) hrest (.inl rfl)]
    rfl

end Reader

/-! From record to record -/

variable {delimiter : Char}

theorem Reader.foldl_line (hdelimiter : IsDelimiter delimiter) {record : List (List Char)}
    (hkept : ∀ f ∈ record, IsKept f) (reader : Reader) :
    (line delimiter record ++ ['\n']).foldl (step delimiter) (reader.within .recordStart []) =
      (reader.withFields record).withRecord.within .recordStart [] := by
  unfold line
  split_ifs with hempty
  · -- one empty field stands in quotes
    subst hempty
    have hclosed : (enclosed []).foldl (step delimiter) (reader.within .recordStart []) =
        reader.within .closing [] := foldl_enclosed (.inl rfl) (Nat.zero_le _)
    rw [List.foldl_append, hclosed]
    exact congrArg (endRecord · .recordStart) (endField_within .fieldStart)
  · cases record with
    | nil => rfl
    | cons field fields =>
      refine foldl_joined hdelimiter (.inl rfl) hkept (.inr (.inr ?_))
      by_contra hnone
      rw [not_or, not_not, not_not] at hnone
      rw [hnone.1, hnone.2] at hempty
      exact hempty rfl

theorem Reader.records_withRecord_withFields (reader : Reader) (hfields : reader.fields = [])
    (record : List (List Char)) :
    (reader.withFields record).withRecord =
      { reader with records := record.map String.ofList :: reader.records } := by
  have hwith (fields : List (List Char)) (start : Reader) : start.withFields fields =
      { start with fields := (fields.map String.ofList).reverse ++ start.fields } := by
    induction fields generalizing start with
    | nil => rfl
    | cons field rest ih =>
      have hstep : start.withFields (field :: rest) = (start.withField field).withFields rest := rfl
      rw [hstep, ih, List.map_cons, List.reverse_cons, List.append_assoc]
      rfl
  rw [hwith, hfields, List.append_nil, withRecord]
  dsimp only
  rw [List.reverse_reverse]

theorem Reader.foldl_lines (hdelimiter : IsDelimiter delimiter) {records : List (List (List Char))}
    (hkept : ∀ record ∈ records, ∀ f ∈ record, IsKept f) (seen : List (List String)) :
    (records.flatMap fun record => line delimiter record ++ ['\n']).foldl (step delimiter)
        ({ records := seen } : Reader) =
      { records := (records.map (·.map String.ofList)).reverse ++ seen } := by
  -- the records that were read before are carried along
  induction records generalizing seen with
  | nil => rfl
  | cons record rest ih =>
    obtain ⟨hrecord, hrest⟩ := List.forall_mem_cons.mp hkept
    have hline : (line delimiter record ++ ['\n']).foldl (step delimiter)
        ({ records := seen } : Reader) = { records := record.map String.ofList :: seen } := by
      have hread := foldl_line hdelimiter hrecord { records := seen }
      rw [records_withRecord_withFields _ rfl record] at hread
      exact hread
    rw [List.flatMap_cons, List.foldl_append, hline, ih hrest, List.map_cons, List.reverse_cons,
      List.append_assoc]
    rfl

/-- Lines that are written, each with a line feed behind it, are read as the records. -/
theorem read_lines (hdelimiter : IsDelimiter delimiter) {records : List (List (List Char))}
    (hkept : ∀ record ∈ records, ∀ f ∈ record, IsKept f) :
    read delimiter (records.flatMap fun record => line delimiter record ++ ['\n']) =
      ⟨records.map (·.map String.ofList), false⟩ := by
  have hfold := Reader.foldl_lines hdelimiter hkept []
  rw [List.append_nil] at hfold
  have hempty : ({} : Reader) = { records := [] } := rfl
  rw [read, hempty, hfold]
  simp [Reader.finish, Reader.contents]

/-! A last line without a line feed -/

namespace Reader

variable {reader : Reader} {c : Char}

/-- Nothing but a line feed leads to the start of a record. -/
theorem mode_step_ne_recordStart (hc : c ≠ '\n') :
    (step delimiter reader c).mode ≠ .recordStart := by
  have hline (h : isLineEnd c = true) : afterLine c ≠ .recordStart := by
    have hreturn : (c == '\r') = true := by simpa [isLineEnd, hc] using h
    rw [afterLine, if_pos hreturn]
    nofun
  have hpush {mode : Mode} (h : mode ≠ .recordStart) :
      (reader.push mode c).mode ≠ .recordStart := by
    unfold push
    split_ifs
    · nofun
    · exact h
  have hfield : (atFieldStart delimiter reader c).mode ≠ .recordStart := by
    unfold atFieldStart
    split_ifs with hend
    · exact hline hend
    · nofun
    · nofun
    · exact hpush nofun
  have hrecord : (atRecordStart delimiter reader c).mode ≠ .recordStart := by
    unfold atRecordStart
    split_ifs with hend
    · exact hline hend
    · exact hfield
  have hplain : (inPlain delimiter reader c).mode ≠ .recordStart := by
    unfold inPlain
    split_ifs with hend
    · exact hline hend
    · nofun
    · exact hpush nofun
  unfold step
  cases hmode : reader.mode with
  | recordStart => exact hrecord
  | afterReturn =>
    have hother : ¬(c == '\n') = true := by simpa using hc
    dsimp only
    rw [if_neg hother]
    exact hrecord
  | fieldStart => exact hfield
  | plain => exact hplain
  | quoted =>
    dsimp only
    split_ifs
    · nofun
    · exact hpush nofun
  | closing =>
    dsimp only
    split_ifs
    · exact hpush nofun
    · exact hplain
  | tooLong =>
    rw [hmode]
    nofun

/-- In quotes a line feed belongs to the field. -/
theorem mode_ne_quoted (h : (step delimiter reader '\n').mode = .recordStart) :
    reader.mode ≠ .quoted := by
  intro hmode
  have hstep : step delimiter reader '\n' = reader.push .quoted '\n' := by
    rw [step, hmode]
    rfl
  rw [hstep, push] at h
  split_ifs at h

/-- The end of the text ends a record as a line feed does, once the record has begun. -/
theorem contents_finish_step_feed (hstart : reader.mode ≠ .recordStart)
    (hquoted : reader.mode ≠ .quoted) :
    (step delimiter reader '\n').finish.contents = reader.finish.contents := by
  obtain ⟨mode, field, fieldLength, fields, records⟩ := reader
  cases mode with
  | recordStart | quoted => contradiction
  | afterReturn | fieldStart | plain | closing | tooLong => rfl

end Reader

/-- A text that ends within a record is read as with a line feed behind it. -/
theorem read_concat_feed {text : List Char} (hne : text ≠ []) (hlast : text.getLast? ≠ some '\n')
    (h : ((text ++ ['\n']).foldl (Reader.step delimiter) {}).mode = .recordStart) :
    read delimiter (text ++ ['\n']) = read delimiter text := by
  obtain ⟨before, c, rfl⟩ := (List.eq_nil_or_concat' text).resolve_left hne
  rw [List.getLast?_concat] at hlast
  have hstart : ((before ++ [c]).foldl (Reader.step delimiter) {}).mode ≠ .recordStart := by
    rw [List.foldl_append]
    exact Reader.mode_step_ne_recordStart fun hc => hlast (congrArg some hc)
  rw [List.foldl_append] at h
  have hquoted := Reader.mode_ne_quoted h
  have hread (characters : List Char) : read delimiter characters =
      (characters.foldl (Reader.step delimiter) {}).finish.contents := rfl
  rw [hread, hread, List.foldl_append]
  exact Reader.contents_finish_step_feed hstart hquoted

/-! How lines end -/

theorem enclosed_ne_nil (field : List Char) : enclosed field ≠ [] :=
  List.append_ne_nil_of_right_ne_nil _ (List.cons_ne_nil _ _)

theorem getLast?_fieldText_ne (field : List Char) :
    (fieldText delimiter field).getLast? ≠ some '\n' := by
  unfold fieldText
  split_ifs with hquotes
  · have hlast : (enclosed field).getLast? = some quote := List.getLast?_concat
    rw [hlast]
    decide
  · intro hfeed
    have hother := List.any_eq_false.mp (Bool.eq_false_iff.mpr hquotes) _
      (List.mem_of_getLast? hfeed)
    simp at hother

theorem getLast?_line_ne (hdelimiter : IsDelimiter delimiter) (record : List (List Char)) :
    (line delimiter record).getLast? ≠ some '\n' := by
  have hjoined : (joined delimiter record).getLast? ≠ some '\n' := by
    fun_induction joined delimiter record with
    | case1 => nofun
    | case2 field => exact getLast?_fieldText_ne field
    | case3 field rest _ ih =>
      rw [List.getLast?_append, List.getLast?_cons]
      cases hrest : (joined delimiter rest).getLast? with
      | none =>
        intro hfeed
        exact hdelimiter.ne_feed (Option.some.inj hfeed)
      | some c =>
        rw [hrest] at ih
        exact ih
  unfold line
  split_ifs
  · decide
  · exact hjoined

theorem line_ne_nil {record : List (List Char)} (h : record ≠ []) : line delimiter record ≠ [] := by
  unfold line
  split_ifs with hempty
  · exact enclosed_ne_nil []
  · cases record with
    | nil => contradiction
    | cons field rest =>
      cases rest with
      | nil =>
        rw [joined, fieldText]
        split_ifs
        · exact enclosed_ne_nil field
        · rintro rfl
          exact hempty rfl
      | cons next rest =>
        rw [joined]
        · exact List.append_ne_nil_of_right_ne_nil _ (List.cons_ne_nil _ _)
        · nofun

end Bourse.Delimited
