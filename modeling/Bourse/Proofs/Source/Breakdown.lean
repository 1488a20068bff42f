import Bourse.Proofs.Calendar.Pattern
import Bourse.Proofs.Source.Batch
import Bourse.Proofs.Source.Rows

/-! Where reading a delimited file breaks down. A row that cannot be read is reported, with two
exceptions: a count of seconds that denotes no integer, and a volume without a bound. Besides, a
file that is no text is not reported, unless something in it is before the rest of it is missed. -/
namespace Bourse

/-- Settings that are fit for use: the delimiter is one character, and a pattern of timestamps names
no directive twice. -/
structure CsvSettings.IsUsable (settings : CsvSettings) : Prop where
  delimiter : ∃ c, settings.delimiter.toList = [c]
  pattern : ∀ pattern ∈ settings.pattern, Pattern.NamesOnce pattern

/-- The columns of prices. -/
def CsvColumns.prices (columns : CsvColumns) : List String :=
  [columns.opening, columns.high, columns.low, columns.close]

namespace Csv

open Text

/-! Counts of seconds -/

/-- The hyphens in front of a count. -/
def hyphens (text : List Char) : List Char := text.takeWhile (· == '-')

/-- The digits of a count. -/
def countDigits (text : List Char) : List Char := text.dropWhile (· == '-')

/-- Whether a count denotes no integer: more than one hyphen stands in front of it, a digit of it
has no place value, or there are too many digits. -/
def IsFalseCount (text : List Char) : Prop :=
  2 ≤ (hyphens text).length ∨ (∃ c ∈ countDigits text, decimalValue? c = none) ∨
    Numeral.mostDigits < (countDigits text).length

theorem isCount_iff {text : String} :
    isCount text = true ↔
      countDigits text.toList ≠ [] ∧ ∀ c ∈ countDigits text.toList, isDigit c = true := by
  rw [isCount, Bool.and_eq_true, Bool.not_eq_true', List.all_eq_true, ← Bool.not_eq_true,
    List.isEmpty_iff]
  rfl

theorem body_of_isCount {text : List Char} (h : ∀ c ∈ countDigits text, isDigit c = true) :
    Numeral.body text = text := by
  apply Numeral.body_of_not_isSurround
  intro c hc
  rw [← List.takeWhile_append_dropWhile (p := (· == '-')) (l := text)] at hc
  rcases List.mem_append.mp hc with hhyphen | hdigit
  · have heq := List.mem_takeWhile_imp hhyphen
    rw [beq_iff_eq] at heq
    rw [heq]
    decide
  · exact Numeral.isSurround_of_digit (h c hdigit)

/-- A count has an integer unless it is a false one. -/
theorem integer?_eq_none_iff_isFalseCount {text : String} (h : isCount text = true) :
    Numeral.integer? text.toList = none ↔ IsFalseCount text.toList := by
  obtain ⟨hne, hdigits⟩ := isCount_iff.mp h
  have hbody : Numeral.body text.toList = hyphens text.toList ++ countDigits text.toList :=
    (body_of_isCount hdigits).trans List.takeWhile_append_dropWhile.symm
  have hhyphen : ∀ c ∈ hyphens text.toList, c = '-' := by
    intro c hc
    exact beq_iff_eq.mp (List.mem_takeWhile_imp (p := (· == '-')) hc)
  -- the first hyphen is the sign, and a second one stands where digits have to
  rw [IsFalseCount]
  rcases hhyphens : hyphens text.toList with _ | ⟨first, _ | ⟨second, more⟩⟩
  · have hsign : Numeral.takeSign (Numeral.body text.toList) = (false, countDigits text.toList) := by
      rw [hbody, hhyphens]
      exact Numeral.takeSign_of_digits hdigits
    rw [Numeral.integer?_eq_none_iff hsign hne hdigits]
    simp
  · have hsign : Numeral.takeSign (Numeral.body text.toList) = (true, countDigits text.toList) := by
      rw [hbody, hhyphens, hhyphen first (by rw [hhyphens]; exact List.mem_cons_self)]
      rfl
    rw [Numeral.integer?_eq_none_iff hsign hne hdigits]
    simp
  · rw [hhyphens, List.forall_mem_cons, List.forall_mem_cons] at hhyphen
    obtain ⟨rfl, rfl, -⟩ := hhyphen
    have hsign : Numeral.takeSign (Numeral.body text.toList) =
        (true, '-' :: (more ++ countDigits text.toList)) := by
      rw [hbody, hhyphens]
      rfl
    exact iff_of_true (Numeral.integer?_of_hyphen hsign) (.inl (Nat.le_add_left 2 more.length))

/-! Rows -/

/-- Whether a failure has a message. -/
def IsReported (failure : SourceFailure) : Prop := ∃ error, failure = .reported error

theorem not_isReported_broken (breakdown : Breakdown) : ¬IsReported (.broken breakdown) := nofun

theorem failsWithin_number (row : Row) (column : String) :
    FailsWithin IsReported (number row column) := by
  unfold number
  split
  · exact failsWithin_error ⟨_, rfl⟩
  · split
    · exact failsWithin_ok _
    · exact failsWithin_error ⟨_, rfl⟩
  · exact failsWithin_error ⟨_, rfl⟩

theorem failsWithin_isoMoment (text : String) : FailsWithin IsReported (isoMoment text) := by
  unfold isoMoment
  split
  · exact failsWithin_ok _
  · exact failsWithin_error ⟨_, rfl⟩

theorem failsWithin_patternMoment {pattern : String} (h : Pattern.NamesOnce pattern)
    (text : String) : FailsWithin IsReported (patternMoment pattern text) := by
  have hother := Pattern.failsWithin_read text h
  unfold patternMoment
  split
  · exact failsWithin_ok _
  · next name hread => exact absurd rfl (hother _ hread name)
  · exact failsWithin_error ⟨_, rfl⟩

variable {settings : CsvSettings} {symbol : String} {range : Option DateRange} {row : Row}
  {breakdown : Breakdown}

theorem failsWithin_timestamp (h : settings.IsUsable) {text : String} (hcount : isCount text = false) :
    FailsWithin IsReported (timestamp settings text) := by
  rw [timestamp, hcount, if_neg Bool.false_ne_true]
  cases hpattern : settings.pattern with
  | none => exact (failsWithin_isoMoment text).bind fun moment _ => failsWithin_ok _
  | some pattern =>
    dsimp only
    split_ifs
    · exact (failsWithin_isoMoment text).bind fun moment _ => failsWithin_ok _
    · have hread := failsWithin_patternMoment (h.pattern pattern hpattern) text
      exact hread.bind fun moment _ => failsWithin_ok _

/-- Only a false count breaks the reading of a timestamp. -/
theorem timestamp_eq_broken_iff (h : settings.IsUsable) {text : String} :
    timestamp settings text = .error (.broken breakdown) ↔
      (isCount text = true ∧ IsFalseCount text.toList) ∧ breakdown = .badInteger text := by
  cases hcount : isCount text with
  | false =>
    refine iff_of_false (fun heq => ?_) fun hfalse => Bool.false_ne_true hfalse.1.1
    exact not_isReported_broken breakdown (failsWithin_timestamp h hcount _ heq)
  | true =>
    rw [and_iff_right rfl, ← integer?_eq_none_iff_isFalseCount hcount, timestamp, if_pos hcount,
      digitTimestamp]
    cases Numeral.integer? text.toList with
    | some n =>
      refine iff_of_false (fun heq => ?_) fun hfalse => Option.some_ne_none n hfalse.1
      cases heq
    | none =>
      constructor
      · intro heq
        cases heq
        exact ⟨rfl, rfl⟩
      · rintro ⟨-, rfl⟩
        rfl

theorem number_bind_eq_broken_iff {α : Type} {column : String}
    {f : Float → Except SourceFailure α} :
    (number row column >>= f) = .error (.broken breakdown) ↔
      ∃ x, number row column = .ok x ∧ f x = .error (.broken breakdown) := by
  rw [bind_eq_error_iff]
  refine or_iff_right fun hbroken => ?_
  exact not_isReported_broken breakdown (failsWithin_number row column _ hbroken)

theorem number_of_decimal {column text : String} {x : Decimal}
    (hcell : Datum.get? row column = some (.text text)) (hmarks : ∀ c ∈ text.toList, Numeral.IsMark c)
    (hdecimal : Numeral.decimal? text.toList = some x) :
    number row column = .ok (Binary64.nearestDecimal x.negative x.coefficient x.exponent) := by
  have hfloat := Numeral.float?_of_isMark hmarks
  rw [hdecimal, Option.map_some] at hfloat
  exact number_of_cell hcell hfloat

/-- Whether the volume in a column has no bound. -/
def IsInfinite (row : Row) (column : String) : Prop :=
  ∃ x negative, number row column = .ok x ∧ Binary64.ofFloat x = .infinity negative

theorem volume_eq_broken_iff {column : String} :
    volume row column = .error (.broken breakdown) ↔
      IsInfinite row column ∧ breakdown = .volumeInfinite := by
  rw [volume, number_bind_eq_broken_iff]
  constructor
  · rintro ⟨x, hx, hbroken⟩
    cases hvalue : Binary64.ofFloat x with
    | nan =>
      rw [hvalue] at hbroken
      cases hbroken
    | infinity negative =>
      rw [hvalue] at hbroken
      cases hbroken
      exact ⟨⟨x, negative, hx, hvalue⟩, rfl⟩
    | finite negative mantissa exponent =>
      rw [hvalue] at hbroken
      contradiction
  · rintro ⟨⟨x, negative, hx, hvalue⟩, rfl⟩
    refine ⟨x, hx, ?_⟩
    rw [hvalue]
    rfl

theorem bar_eq_broken_iff {columns : CsvColumns} {time : Int} :
    bar columns time row = .error (.broken breakdown) ↔
      (∀ column ∈ columns.prices, Succeeds (number row column)) ∧
        IsInfinite row columns.volume ∧ breakdown = .volumeInfinite := by
  -- the prices are read first, and they are reported
  simp only [bar, number_bind_eq_broken_iff]
  simp only [bind_eq_error_iff, volume_eq_broken_iff]
  constructor
  · rintro ⟨opening, hopening, high, hhigh, low, hlow, close, hclose, hvolume | ⟨n, hn, h⟩⟩
    · refine ⟨?_, hvolume⟩
      simp only [CsvColumns.prices, List.forall_mem_cons]
      exact ⟨⟨_, hopening⟩, ⟨_, hhigh⟩, ⟨_, hlow⟩, ⟨_, hclose⟩, List.forall_mem_nil _⟩
    · contradiction
  · rintro ⟨hprices, hvolume⟩
    simp only [CsvColumns.prices, List.forall_mem_cons] at hprices
    obtain ⟨⟨opening, hopening⟩, ⟨high, hhigh⟩, ⟨low, hlow⟩, ⟨close, hclose⟩, -⟩ := hprices
    exact ⟨opening, hopening, high, hhigh, low, hlow, close, hclose, .inl hvolume⟩

/-- The timestamp of a row without the blanks around it. -/
def trimmed (text : String) : String := String.ofList (trim text.toList)

/-- How a row breaks the reading of a file for a symbol. -/
inductive Breaks (settings : CsvSettings) (symbol : String) (range : Option DateRange) (row : Row) :
    Breakdown → Prop
  /-- The timestamp of a row that counts is a false count. -/
  | falseCount {text : String} (hrow : row.isOf settings.columns symbol = true)
      (htext : row.text? settings.columns.timestamp = some text)
      (hcount : isCount (trimmed text) = true) (hfalse : IsFalseCount (trimmed text).toList) :
      Breaks settings symbol range row (.badInteger (trimmed text))
  /-- The volume of a row that is wanted has no bound, and its prices are numbers. -/
  | infiniteVolume {text : String} {time : Int} (hrow : row.isOf settings.columns symbol = true)
      (htext : row.text? settings.columns.timestamp = some text)
      (htime : timestamp settings (trimmed text) = .ok time) (hwanted : isWanted range time = true)
      (hprices : ∀ column ∈ settings.columns.prices, Succeeds (number row column))
      (hvolume : IsInfinite row settings.columns.volume) :
      Breaks settings symbol range row .volumeInfinite

/-- A row that counts fails at its timestamp, or it is wanted and fails at its numbers. -/
theorem bar?_eq_error_iff {failure : SourceFailure} :
    bar? settings symbol range row = .error failure ↔
      row.isOf settings.columns symbol = true ∧
        ∃ text, row.text? settings.columns.timestamp = some text ∧
          (timestamp settings (trimmed text) = .error failure ∨
            ∃ time, timestamp settings (trimmed text) = .ok time ∧ isWanted range time = true ∧
              bar settings.columns time row = .error failure) := by
  unfold bar?
  cases row.isOf settings.columns symbol with
  | false => exact iff_of_false nofun fun h => Bool.false_ne_true h.1
  | true =>
    rw [and_iff_right rfl, if_neg (by decide)]
    cases row.text? settings.columns.timestamp with
    | none => exact iff_of_false nofun fun ⟨_, h, _⟩ => nomatch h
    | some text =>
      have htrim : String.ofList (Text.trim text.toList) = trimmed text := rfl
      simp only [htrim, bind_eq_error_iff, Option.some.injEq, exists_eq_left']
      refine or_congr_right (exists_congr fun time => and_congr_right fun _ => ?_)
      split_ifs with hwanted
      · rw [bind_eq_error_iff, and_iff_right hwanted]
        exact or_iff_left fun ⟨_, _, h⟩ => nomatch h
      · exact iff_of_false nofun fun h => hwanted h.1

theorem bar?_eq_broken_iff (h : settings.IsUsable) :
    bar? settings symbol range row = .error (.broken breakdown) ↔
      Breaks settings symbol range row breakdown := by
  rw [bar?_eq_error_iff]
  constructor
  · rintro ⟨hrow, text, htext, htime | ⟨time, htime, hwanted, hbar⟩⟩
    · obtain ⟨⟨hcount, hfalse⟩, rfl⟩ := (timestamp_eq_broken_iff h).mp htime
      exact .falseCount hrow htext hcount hfalse
    · obtain ⟨hprices, hvolume, rfl⟩ := bar_eq_broken_iff.mp hbar
      exact .infiniteVolume hrow htext htime hwanted hprices hvolume
  · intro hbreaks
    cases hbreaks with
    | falseCount hrow htext hcount hfalse =>
      have htime := (timestamp_eq_broken_iff h).mpr ⟨⟨hcount, hfalse⟩, rfl⟩
      exact ⟨hrow, _, htext, .inl htime⟩
    | infiniteVolume hrow htext htime hwanted hprices hvolume =>
      exact ⟨hrow, _, htext, .inr ⟨_, htime, hwanted, bar_eq_broken_iff.mpr ⟨hprices, hvolume, rfl⟩⟩⟩

/-! Files -/

theorem bars_eq_error_iff {rows : List Row} {failure : SourceFailure} :
    bars settings symbol range rows = .error failure ↔
      FirstFailure (bar? settings symbol range) rows failure := by
  induction rows with
  | nil =>
    refine iff_of_false (fun heq => ?_) not_firstFailure_nil
    cases heq
  | cons row rest ih =>
    rw [firstFailure_cons, bars, bind_eq_error_iff, ← ih]
    refine or_congr_right ?_
    constructor
    · rintro ⟨bar?, hrow, hrest⟩
      refine ⟨⟨bar?, hrow⟩, ?_⟩
      cases bar? with
      | none => exact hrest
      | some bar =>
        obtain hrest | ⟨found, -, hreturn⟩ := bind_eq_error_iff.mp hrest
        · exact hrest
        · cases hreturn
    · rintro ⟨⟨bar?, hrow⟩, hrest⟩
      refine ⟨bar?, hrow, ?_⟩
      cases bar? with
      | none => exact hrest
      | some bar => exact bind_eq_error_iff.mpr (.inl hrest)

theorem succeeds_bars_iff {rows : List Row} :
    Succeeds (bars settings symbol range rows) ↔
      ∀ row ∈ rows, Succeeds (bar? settings symbol range row) := by
  rw [succeeds_iff_ne_error, ← not_iff_not, ← exists_firstFailure]
  simp only [bars_eq_error_iff, not_forall, not_not]

theorem barsOf_eq_broken_iff {contents : Delimited.Contents} {isWhole : Bool} :
    barsOf settings symbol range contents isWhole = .error (.broken breakdown) ↔
      FirstFailure (bar? settings symbol range) (Row.ofRecords contents.records)
          (.broken breakdown) ∨
        (∀ row ∈ Row.ofRecords contents.records, Succeeds (bar? settings symbol range row)) ∧
          contents.isTooLong = false ∧ isWhole = false ∧ breakdown = .undecodable := by
  rw [barsOf, bind_eq_error_iff, bars_eq_error_iff, ← succeeds_bars_iff]
  refine or_congr_right ?_
  -- the rows are read, and what is left to look at is how the reading ended
  constructor
  · rintro ⟨found, hfound, hend⟩
    cases hlong : contents.isTooLong with
    | true =>
      rw [hlong] at hend
      cases hend
    | false =>
      rw [hlong] at hend
      cases isWhole with
      | true => cases hend
      | false =>
        cases hend
        exact ⟨⟨found, hfound⟩, rfl, rfl, rfl⟩
  · rintro ⟨⟨found, hfound⟩, hlong, rfl, rfl⟩
    exact ⟨found, hfound, by rw [hlong]; rfl⟩

/-- What is read of a file. -/
def contents (settings : CsvSettings) (bytes : ByteArray) : Delimited.Contents :=
  Delimited.read (settings.delimiter.toList.headD ',') (decode bytes).text (decode bytes).isWhole

/-- The rows that are read of a file. -/
def rows (settings : CsvSettings) (bytes : ByteArray) : List Row :=
  Row.ofRecords (contents settings bytes).records

/-- How reading what is stored breaks down for a symbol. -/
inductive BreaksOff (settings : CsvSettings) (symbol : String) (range : Option DateRange) :
    Stored → Breakdown → Prop
  /-- A row breaks the reading, and those before it are read. -/
  | row {bytes : ByteArray} {before : List Row} {row : Row} {after : List Row}
      {breakdown : Breakdown} (hrows : rows settings bytes = before ++ row :: after)
      (hbefore : ∀ earlier ∈ before, Succeeds (bar? settings symbol range earlier))
      (hrow : Breaks settings symbol range row breakdown) :
      BreaksOff settings symbol range (.file bytes) breakdown
  /-- The file is no text, and everything before the fault is read. -/
  | undecodable {bytes : ByteArray}
      (hrows : ∀ row ∈ rows settings bytes, Succeeds (bar? settings symbol range row))
      (hlength : (contents settings bytes).isTooLong = false) (hbytes : ¬bytes.IsValidUTF8) :
      BreaksOff settings symbol range (.file bytes) .undecodable

theorem barsOfFile_eq_broken_iff (h : settings.IsUsable) {bytes : ByteArray} :
    barsOfFile settings symbol range bytes = .error (.broken breakdown) ↔
      BreaksOff settings symbol range (.file bytes) breakdown := by
  obtain ⟨delimiter, hdelimiter⟩ := h.delimiter
  have hbars : barsOfFile settings symbol range bytes =
      barsOf settings symbol range (contents settings bytes) (decode bytes).isWhole := by
    rw [barsOfFile, contents, hdelimiter]
    rfl
  rw [hbars, barsOf_eq_broken_iff, isWhole_decode_eq_false]
  constructor
  · rintro (⟨before, row, after, hrows, hbefore, hrow⟩ | ⟨hrows, hlength, hbytes, rfl⟩)
    · exact .row hrows hbefore ((bar?_eq_broken_iff h).mp hrow)
    · exact .undecodable hrows hlength hbytes
  · intro hbreaks
    cases hbreaks with
    | row hrows hbefore hrow =>
      exact .inl ⟨_, _, _, hrows, hbefore, (bar?_eq_broken_iff h).mpr hrow⟩
    | undecodable hrows hlength hbytes => exact .inr ⟨hrows, hlength, hbytes, rfl⟩

/-- Of usable settings and an interval that exists, nothing but the contents of a file breaks the
reading. -/
theorem history_eq_broken_iff (h : settings.IsUsable) {stored : Stored} {intervalName : String}
    {interval : Interval} (hinterval : Interval.ofName? intervalName = some interval) :
    history stored settings symbol range intervalName = .error (.broken breakdown) ↔
      BreaksOff settings symbol range stored breakdown := by
  have hbars : history stored settings symbol range intervalName = .error (.broken breakdown) ↔
      barsOfStored settings symbol range stored = .error (.broken breakdown) := by
    rw [history, bind_eq_error_iff, hinterval]
    exact or_iff_left fun ⟨_, _, h⟩ => nomatch h
  rw [hbars]
  cases stored with
  | file bytes => exact barsOfFile_eq_broken_iff h
  | folder => exact iff_of_false nofun nofun
  | missing => exact iff_of_false nofun nofun
  | blocked => exact iff_of_false nofun nofun

end Csv

namespace Source

open Csv

/-- Whether an outcome is a result or a report. -/
def IsOrderly {α : Type} (outcome : Except SourceFailure α) : Prop :=
  Succeeds outcome ∨ ∃ error, outcome = .error (.reported error)

theorem isOrderly_iff {α : Type} {outcome : Except SourceFailure α} :
    IsOrderly outcome ↔ ∀ breakdown, outcome ≠ .error (.broken breakdown) := by
  cases outcome with
  | ok a => exact iff_of_true (.inl ⟨a, rfl⟩) nofun
  | error failure =>
    cases failure with
    | reported error => exact iff_of_true (.inr ⟨error, rfl⟩) nofun
    | broken breakdown =>
      refine iff_of_false ?_ fun h => h breakdown rfl
      rintro (⟨a, ha⟩ | ⟨error, herror⟩)
      · contradiction
      · cases herror

variable (world : World) {settings : CsvSettings} (range : Option DateRange)
  {intervalName : String} {interval : Interval}

theorem isOrderly_history_iff (h : settings.IsUsable)
    (hinterval : Interval.ofName? intervalName = some interval) (symbol : String) :
    IsOrderly (history world (.csv settings) symbol range intervalName).outcome ↔
      ∀ breakdown, ¬BreaksOff settings symbol range (world.stored settings.path) breakdown := by
  rw [isOrderly_iff]
  exact forall_congr' fun breakdown => not_congr (history_eq_broken_iff h hinterval)

/-- With usable settings a file gives a history or a report, for any bytes and any symbol, exactly
where none of its rows that are reached breaks the reading and it is text up to its end. Several
symbols give a batch exactly where this holds of each of them, and then each is found in the batch
with its history or with its message. -/
theorem csv_is_orderly_iff (h : settings.IsUsable)
    (hinterval : Interval.ofName? intervalName = some interval) :
    let fetch := fun symbol => history world (.csv settings) symbol range intervalName
    let isUnbroken := fun symbol =>
      ∀ breakdown, ¬BreaksOff settings symbol range (world.stored settings.path) breakdown
    (∀ symbol, IsOrderly (fetch symbol).outcome ↔ isUnbroken symbol) ∧
      ∀ symbols : List String, symbols ≠ [] →
        (Succeeds (histories fetch symbols).outcome ↔ ∀ symbol ∈ symbols, isUnbroken symbol) ∧
          ∀ batch, (histories fetch symbols).outcome = .ok batch → ∀ symbol ∈ symbols,
            (∃ found, (fetch symbol).outcome = .ok found ∧
                Entries.get? symbol batch.histories = some found) ∨
              ∃ error, (fetch symbol).outcome = .error (.reported error) ∧
                Entries.get? symbol batch.failed = some error.message := by
  intro fetch isUnbroken
  have hone : ∀ symbol, IsOrderly (fetch symbol).outcome ↔ isUnbroken symbol :=
    isOrderly_history_iff world range h hinterval
  have hbreaks : ∀ symbol, ¬BreaksDown fetch symbol ↔ isUnbroken symbol := by
    intro symbol
    rw [← hone, isOrderly_iff, BreaksDown, not_exists]
  refine ⟨hone, fun symbols hne => ?_⟩
  rw [histories_of_ne_nil hne]
  refine ⟨?_, fun batch hbatch symbol hmem => ?_⟩
  · rw [Succeeds, exists_outcome_fetchAll_iff]
    exact forall₂_congr fun symbol _ => hbreaks symbol
  · have hsound := (exists_outcome_fetchAll_iff {} symbols).mp ⟨batch, hbatch⟩
    rw [outcome_fetchAll hsound] at hbatch
    cases hbatch
    rcases (hone symbol).mpr ((hbreaks symbol).mp (hsound symbol hmem)) with
      ⟨found, hfound⟩ | ⟨error, herror⟩
    · exact .inl ⟨found, hfound, get?_histories_batchAfter hmem hfound⟩
    · exact .inr ⟨error, herror, get?_failed_batchAfter hmem herror⟩

theorem isUsable_default (path : String) : CsvSettings.IsUsable { path } where
  delimiter := ⟨',', by simp⟩
  pattern := nofun

/-- A file of one row for a symbol, with a given timestamp and a given volume. -/
def oneRow (timestamp volume : String) : World where
  stored _ := .file ("symbol,timestamp,open,high,low,close,volume\nX," ++ timestamp ++
    ",1,2,0.5,1.5," ++ volume ++ "\n").toUTF8

/-- The row of such a file. -/
def onlyRow (timestamp volume : String) : Row :=
  Row.ofRecord ["symbol", "timestamp", "open", "high", "low", "close", "volume"]
    ["X", timestamp, "1", "2", "0.5", "1.5", volume]

theorem prices_onlyRow : ∀ column ∈ CsvColumns.prices {},
    Succeeds (number (onlyRow "1" "inf") column) := by
  have hprice (text : String) (d : Decimal) (column : String)
      (hcell : Datum.get? (onlyRow "1" "inf") column = some (.text text))
      (hmarks : ∀ c ∈ text.toList, Numeral.IsMark c)
      (hdecimal : Numeral.decimal? text.toList = some d) :
      Succeeds (number (onlyRow "1" "inf") column) :=
    ⟨_, number_of_decimal hcell hmarks hdecimal⟩
  simp only [CsvColumns.prices, List.forall_mem_cons]
  refine ⟨hprice "1" ⟨false, 1, 0⟩ "open" rfl (by simp [Numeral.IsMark]) (by cbv), ?_⟩
  refine ⟨hprice "2" ⟨false, 2, 0⟩ "high" rfl (by simp [Numeral.IsMark]) (by cbv), ?_⟩
  refine ⟨hprice "0.5" ⟨false, 5, -1⟩ "low" rfl (by simp [Numeral.IsMark]) (by cbv), ?_⟩
  refine ⟨hprice "1.5" ⟨false, 15, -1⟩ "close" rfl (by simp [Numeral.IsMark]) (by cbv), ?_⟩
  exact List.forall_mem_nil _

theorem breaksOff_oneRow : BreaksOff { path := "b.csv" } "X" none
    ((oneRow "1" "inf").stored "b.csv") .volumeInfinite := by
  have hsymbol : (onlyRow "1" "inf").isOf {} "X" = true := by
    cbv
  have htext : (onlyRow "1" "inf").text? "timestamp" = some "1" := by
    cbv
  have htime : timestamp { path := "b.csv" } (trimmed "1") = .ok 1 := by
    cbv
  have hvolume : IsInfinite (onlyRow "1" "inf") "volume" :=
    ⟨Binary64.infiniteFloat false, false, rfl, Binary64.ofFloat_infiniteFloat false⟩
  have hrow : Breaks { path := "b.csv" } "X" none (onlyRow "1" "inf") .volumeInfinite :=
    .infiniteVolume hsymbol htext htime rfl prices_onlyRow hvolume
  have hrows : rows { path := "b.csv" } ("symbol,timestamp,open,high,low,close,volume\nX," ++ "1" ++
      ",1,2,0.5,1.5," ++ "inf" ++ "\n").toUTF8 = [] ++ onlyRow "1" "inf" :: [] := by
    cbv
  exact .row hrows (List.forall_mem_nil _) hrow

/-- A volume without a bound is not reported, and it leaves no batch. -/
theorem unbounded_volume_is_not_reported :
    let fetch := fun symbol => history (oneRow "1" "inf") (.csv { path := "b.csv" }) symbol none "1d"
    ¬IsOrderly (fetch "X").outcome ∧ ¬Succeeds (histories fetch ["X"]).outcome := by
  intro fetch
  obtain ⟨hone, hmany⟩ := csv_is_orderly_iff (oneRow "1" "inf") none (isUsable_default "b.csv")
    (show Interval.ofName? "1d" = some .oneDay by decide)
  refine ⟨fun horderly => (hone "X").mp horderly _ breaksOff_oneRow, fun hbatch => ?_⟩
  have hall := (hmany ["X"] (List.cons_ne_nil _ _)).1.mp hbatch
  exact hall "X" List.mem_cons_self _ breaksOff_oneRow

/-- A count of seconds with two hyphens stops the symbols that have nothing to do with it as well. -/
theorem two_hyphens_stop_every_symbol :
    let fetch := fun symbol => history (oneRow "--5" "10") (.csv { path := "b.csv" }) symbol none "1d"
    CsvSettings.IsUsable { path := "b.csv" } ∧
      (fetch "X").outcome = .error (.broken (.badInteger "--5")) ∧
      (histories fetch ["X", "Y"]).outcome = .error (.broken (.badInteger "--5")) := by
  intro fetch
  refine ⟨isUsable_default "b.csv", ?_, ?_⟩
  · cbv
  · cbv

end Source

end Bourse
