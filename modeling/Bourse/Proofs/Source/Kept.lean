import Bourse.Proofs.Calendar.Order
import Bourse.Proofs.Source.Breakdown

/-! Rows that are kept. A row is kept for a symbol and a range if it counts for the symbol and its
timestamp is wanted; a row that is kept gives its bar, one that is not gives none, and so a history
is made of the bars of the rows that are kept. -/
namespace Bourse

namespace Csv

/-! What timestamps denote -/

/-- The moment of a timestamp that is no count of seconds. -/
def momentOf (settings : CsvSettings) (text : String) : Except SourceFailure Moment :=
  match settings.pattern with
  | some pattern => if pattern = "" then isoMoment text else patternMoment pattern text
  | none => isoMoment text

/-- The instant that a timestamp denotes, with the timestamp that it goes by. -/
def stamp (settings : CsvSettings) (text : String) : Except SourceFailure Stamp :=
  if isCount text then (digitTimestamp text).map Stamp.ofCount
  else (momentOf settings text).map Moment.stamp

theorem timestamp_eq_map_stamp (settings : CsvSettings) (text : String) :
    timestamp settings text = (stamp settings text).map Stamp.timestamp := by
  have hmoment (x : Except SourceFailure Moment) :
      (x >>= fun moment => pure moment.timestamp) = (x.map Moment.stamp).map Stamp.timestamp := by
    cases x <;> rfl
  unfold timestamp stamp momentOf
  split_ifs with hcount
  · cases digitTimestamp text <;> rfl
  · cases settings.pattern with
    | none => exact hmoment _
    | some pattern =>
      dsimp only
      split_ifs
      · exact hmoment _
      · exact hmoment _

theorem inCalendar_of_isoMoment {text : String} {m : Moment} (h : isoMoment text = .ok m) :
    m.InCalendar := by
  unfold isoMoment at h
  split at h
  · next moment hread =>
    cases h
    exact Iso.inCalendar_of_read hread
  · contradiction

theorem inCalendar_of_patternMoment {pattern text : String} {m : Moment}
    (h : patternMoment pattern text = .ok m) : m.InCalendar := by
  unfold patternMoment at h
  split at h
  · next moment hread =>
    cases h
    exact Pattern.inCalendar_of_read hread
  · contradiction
  · contradiction

theorem inCalendar_of_momentOf {settings : CsvSettings} {text : String} {m : Moment}
    (h : momentOf settings text = .ok m) : m.InCalendar := by
  unfold momentOf at h
  split at h
  · split_ifs at h
    · exact inCalendar_of_isoMoment h
    · exact inCalendar_of_patternMoment h
  · exact inCalendar_of_isoMoment h

theorem isSound_of_stamp {settings : CsvSettings} {text : String} {found : Stamp}
    (h : stamp settings text = .ok found) : found.IsSound := by
  unfold stamp at h
  split_ifs at h
  · obtain ⟨n, -, rfl⟩ := map_eq_ok_iff.mp h
    exact .count n
  · obtain ⟨m, hm, rfl⟩ := map_eq_ok_iff.mp h
    exact .moment (inCalendar_of_momentOf hm)

end Csv

/-- What the timestamp of a row denotes; nothing if it is empty or cannot be read. -/
def Row.stamp? (settings : CsvSettings) (row : Row) : Option Stamp :=
  (row.text? settings.columns.timestamp).bind fun text =>
    (Csv.stamp settings (Csv.trimmed text)).toOption

theorem Row.isSound_of_stamp? {settings : CsvSettings} {row : Row} {found : Stamp}
    (h : row.stamp? settings = some found) : found.IsSound := by
  obtain ⟨text, -, hstamp⟩ := Option.bind_eq_some_iff.mp h
  cases hread : Csv.stamp settings (Csv.trimmed text) with
  | error failure =>
    rw [hread] at hstamp
    contradiction
  | ok stamp =>
    rw [hread] at hstamp
    cases hstamp
    exact Csv.isSound_of_stamp hread

namespace Csv

variable {settings : CsvSettings} {symbol : String} {range : Option DateRange} {row : Row}

/-! Rows -/

/-- Whether a row counts for a symbol and denotes something that is wanted. -/
def isKept (settings : CsvSettings) (symbol : String) (wanted : Stamp → Bool) (row : Row) : Bool :=
  row.isOf settings.columns symbol && (row.stamp? settings).any wanted

/-- Whether the timestamp of a stamp is wanted. -/
def wants (range : Option DateRange) (stamp : Stamp) : Bool := isWanted range stamp.timestamp

/-- Whether the timestamp of a row can be read, should it count for a symbol and have one. -/
def IsReadable (settings : CsvSettings) (symbol : String) (row : Row) : Prop :=
  row.isOf settings.columns symbol = true → ∀ text,
    row.text? settings.columns.timestamp = some text → Succeeds (stamp settings (trimmed text))

/-- A row that counts is looked at for its stamp first, and only if that is wanted for its bar. -/
theorem bar?_of_text {text : String} (hrow : row.isOf settings.columns symbol = true)
    (htext : row.text? settings.columns.timestamp = some text) :
    bar? settings symbol range row =
      (stamp settings (trimmed text) >>= fun found =>
        if wants range found then (bar settings.columns found.timestamp row).map some
        else .ok none) := by
  rw [bar?_of_dated hrow htext, timestamp_eq_map_stamp, ← trimmed]
  cases stamp settings (trimmed text) with
  | error failure => rfl
  | ok found =>
    change (if wants range found then _ else _) = (if wants range found then _ else _)
    cases bar settings.columns found.timestamp row <;> rfl

/-- A row whose stamp is known gives its bar if the stamp is wanted. -/
theorem bar?_of_stamp {text : String} {found : Stamp} (hrow : row.isOf settings.columns symbol = true)
    (htext : row.text? settings.columns.timestamp = some text)
    (hstamp : stamp settings (trimmed text) = .ok found) :
    bar? settings symbol range row =
      if wants range found then (bar settings.columns found.timestamp row).map some
      else .ok none := by
  rw [bar?_of_text hrow htext, hstamp]
  rfl

/-- A row is read exactly if its timestamp can be read and, if the row is kept, its bar. -/
theorem bar?_eq_ok_iff {found : Option (Bar Float)} :
    bar? settings symbol range row = .ok found ↔ IsReadable settings symbol row ∧
      if isKept settings symbol (wants range) row then
        ∃ bar, found = some bar ∧ bar? settings symbol none row = .ok (some bar)
      else found = none := by
  unfold isKept IsReadable Row.stamp?
  -- a row of another symbol and one without a timestamp are passed over, whatever they hold
  cases hrow : row.isOf settings.columns symbol with
  | false =>
    rw [bar?_of_foreign hrow]
    simp [eq_comm]
  | true =>
    cases htext : row.text? settings.columns.timestamp with
    | none =>
      rw [bar?_of_undated htext]
      simp [eq_comm]
    | some text =>
      rw [Option.bind_some]
      cases hstamp : stamp settings (trimmed text) with
      | error failure =>
        rw [bar?_of_text hrow htext, hstamp]
        refine iff_of_false nofun fun h => ?_
        obtain ⟨found, hfound⟩ := h.1 rfl text rfl
        rw [hstamp] at hfound
        contradiction
      | ok s =>
        have hreadable : ∀ text', some text = some text' →
            Succeeds (stamp settings (trimmed text')) := by
          rintro _ ⟨⟩
          exact ⟨s, hstamp⟩
        have hwhole : bar? settings symbol none row =
            (bar settings.columns s.timestamp row).map some := bar?_of_stamp hrow htext hstamp
        rw [bar?_of_stamp hrow htext hstamp, hwhole, and_iff_right fun _ => hreadable, Except.toOption,
          Option.any_some, Bool.true_and]
        split_ifs with hwanted
        · simp only [map_eq_ok_iff, Option.some.injEq, exists_eq_right]
          exact exists_congr fun bar => and_comm.trans (and_congr_left fun _ => eq_comm)
        · rw [Except.ok.injEq, eq_comm]

/-- Rows are read exactly if each timestamp that counts can be read and, of the rows that are kept,
each bar; they give these bars in their order. -/
theorem bars_eq_ok_iff {rows : List Row} {found : List (Bar Float)} :
    bars settings symbol range rows = .ok found ↔
      (∀ row ∈ rows, IsReadable settings symbol row) ∧
        (rows.filter (isKept settings symbol (wants range))).mapM (bar? settings symbol none) =
          .ok (found.map some) := by
  induction rows generalizing found with
  | nil =>
    rw [bars, List.filter_nil, List.mapM_nil, and_iff_right (List.forall_mem_nil _)]
    cases found <;> simp [pure, Except.pure]
  | cons row rest ih =>
    rw [bars, bind_eq_ok_iff, List.forall_mem_cons]
    -- a row that is kept gives the first bar, and one that is not leaves all of them to the rest
    constructor
    · rintro ⟨bar?, hrow, hrest⟩
      obtain ⟨hreadable, hfound⟩ := bar?_eq_ok_iff.mp hrow
      split_ifs at hfound with hkept
      · obtain ⟨bar, rfl, hbar⟩ := hfound
        obtain ⟨more, hmore, heq⟩ := bind_eq_ok_iff.mp hrest
        cases heq
        obtain ⟨hreadables, hbars⟩ := ih.mp hmore
        refine ⟨⟨hreadable, hreadables⟩, ?_⟩
        rw [List.filter_cons_of_pos hkept, List.mapM_cons, hbar, hbars]
        rfl
      · subst hfound
        obtain ⟨hreadables, hbars⟩ := ih.mp hrest
        rw [List.filter_cons_of_neg hkept]
        exact ⟨⟨hreadable, hreadables⟩, hbars⟩
    · rintro ⟨⟨hreadable, hreadables⟩, hbars⟩
      by_cases hkept : isKept settings symbol (wants range) row = true
      · rw [List.filter_cons_of_pos hkept, List.mapM_cons] at hbars
        obtain ⟨bar?, hbar, hbars⟩ := bind_eq_ok_iff.mp hbars
        obtain ⟨more, hmore, heq⟩ := bind_eq_ok_iff.mp hbars
        cases found with
        | nil => cases heq
        | cons bar others =>
          cases heq
          have hrow := bar?_eq_ok_iff.mpr ⟨hreadable, (if_pos hkept).mpr ⟨bar, rfl, hbar⟩⟩
          refine ⟨some bar, hrow, ?_⟩
          exact bind_eq_ok_iff.mpr ⟨others, ih.mpr ⟨hreadables, hmore⟩, rfl⟩
      · rw [List.filter_cons_of_neg hkept] at hbars
        have hrow := bar?_eq_ok_iff.mpr ⟨hreadable, (if_neg hkept).mpr rfl⟩
        exact ⟨none, hrow, ih.mpr ⟨hreadables, hbars⟩⟩

/-! Files -/

/-- The rows of what is stored under the path. -/
def storedRows (settings : CsvSettings) : Stored → List Row
  | .file bytes => rows settings bytes
  | _ => []

/-- Whether what is stored under the path is read up to its end: a file that is text, without a field
that is too long, under a delimiter of one character. -/
def IsWhole (settings : CsvSettings) : Stored → Prop
  | .file bytes => (∃ delimiter, settings.delimiter.toList = [delimiter]) ∧
      (contents settings bytes).isTooLong = false ∧ (Text.decode bytes).isWhole = true
  | _ => False

theorem barsOf_eq_ok_iff {contents : Delimited.Contents} {isWhole : Bool}
    {found : List (Bar Float)} : barsOf settings symbol range contents isWhole = .ok found ↔
      (contents.isTooLong = false ∧ isWhole = true) ∧
        ∃ inFile, bars settings symbol range (Row.ofRecords contents.records) = .ok inFile ∧
          found = inOrder inFile := by
  rw [barsOf, bind_eq_ok_iff]
  cases contents.isTooLong with
  | true =>
    apply iff_of_false
    · rintro ⟨inFile, -, h⟩
      contradiction
    · rintro ⟨⟨h, -⟩, -⟩
      contradiction
  | false =>
    cases isWhole with
    | false =>
      apply iff_of_false
      · rintro ⟨inFile, -, h⟩
        contradiction
      · rintro ⟨⟨-, h⟩, -⟩
        contradiction
    | true =>
      rw [and_iff_right ⟨rfl, rfl⟩]
      refine exists_congr fun inFile => and_congr_right fun _ => ?_
      exact (Except.ok.injEq _ _).to_iff.trans eq_comm

theorem barsOfFile_eq_ok_iff {bytes : ByteArray} {found : List (Bar Float)} :
    barsOfFile settings symbol range bytes = .ok found ↔ IsWhole settings (.file bytes) ∧
      ∃ inFile, bars settings symbol range (rows settings bytes) = .ok inFile ∧
        found = inOrder inFile := by
  rw [IsWhole, and_assoc]
  by_cases hdelimiter : ∃ delimiter, settings.delimiter.toList = [delimiter]
  · rw [and_iff_right hdelimiter]
    obtain ⟨delimiter, hdelimiter⟩ := hdelimiter
    have hcontents : barsOfFile settings symbol range bytes =
        barsOf settings symbol range (contents settings bytes) (Text.decode bytes).isWhole := by
      rw [barsOfFile, contents, hdelimiter]
      rfl
    rw [hcontents, barsOf_eq_ok_iff]
    rfl
  · -- other delimiters are refused before the file is looked at
    refine iff_of_false ?_ fun h => hdelimiter h.1
    unfold barsOfFile
    split
    · next delimiter heq => exact fun _ => hdelimiter ⟨delimiter, heq⟩
    · intro h
      contradiction

theorem contents_toUTF8 {delimiter : Char} (h : settings.delimiter.toList = [delimiter])
    (text : String) : contents settings text.toUTF8 =
      Delimited.read delimiter text.toList true := by
  rw [contents, Text.decode_toUTF8, h]
  rfl

/-- There is a history exactly of files that are read up to their end and of an interval that exists;
its bars are those of the rows, in the order of time. -/
theorem history_eq_ok_iff {stored : Stored} {intervalName : String} {history : History} :
    Csv.history stored settings symbol range intervalName = .ok history ↔
      IsWhole settings stored ∧ ∃ interval found, Interval.ofName? intervalName = some interval ∧
        bars settings symbol range (storedRows settings stored) = .ok found ∧
        history = { symbol, interval, bars := inOrder found } := by
  rw [Csv.history, bind_eq_ok_iff]
  cases stored with
  | folder | missing | blocked =>
    refine iff_of_false ?_ fun h => h.1
    rintro ⟨found, h, -⟩
    contradiction
  | file bytes =>
    constructor
    · rintro ⟨found, hfound, hname⟩
      obtain ⟨hwhole, bars, hbars, rfl⟩ := barsOfFile_eq_ok_iff.mp hfound
      cases hinterval : Interval.ofName? intervalName with
      | none =>
        rw [hinterval] at hname
        contradiction
      | some interval =>
        rw [hinterval] at hname
        cases hname
        exact ⟨hwhole, interval, bars, rfl, hbars, rfl⟩
    · rintro ⟨hwhole, interval, bars, hinterval, hbars, rfl⟩
      refine ⟨inOrder bars, barsOfFile_eq_ok_iff.mpr ⟨hwhole, bars, hbars, rfl⟩, ?_⟩
      rw [hinterval]
      rfl

end Csv

end Bourse
