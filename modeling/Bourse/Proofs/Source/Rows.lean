import Bourse.Proofs.Results
import Bourse.Proofs.Calendar.Iso
import Bourse.Proofs.Datum
import Bourse.Proofs.Text.Utf8
import Bourse.Source.Csv

/-! Rows that are read. Under distinct names each name is entered once, at its place, so a cell is
found under the name that stands above it. From the cells come the numbers and the timestamp of a
row, from these its bar, and the bars of a file are those of its rows in the order of time. -/
namespace Bourse

namespace Row

/-- A cell under its name. -/
def entry (cell : String × String) : Datum × Datum := (.text cell.1, .text cell.2)

theorem foldl_setEntry (before : List (String × String)) {cells : List (String × String)}
    (h : ((before ++ cells).map Prod.fst).Nodup) :
    cells.foldl (fun row cell => Datum.setEntry (.text cell.1) (.text cell.2) row)
      (before.map entry) = (before ++ cells).map entry := by
  -- the names that are entered so far are other names than the next one
  induction cells generalizing before with
  | nil => rw [List.foldl_nil, List.append_nil]
  | cons cell rest ih =>
    have hcell : cell.1 ∉ before.map Prod.fst := by
      intro hmem
      rw [List.map_append, List.map_cons] at h
      exact (List.disjoint_of_nodup_append h) hmem List.mem_cons_self
    have hfresh : ∀ e ∈ before.map entry, Datum.sameKey e.1 (.text cell.1) = false := by
      simp only [List.mem_map, forall_exists_index, and_imp, forall_apply_eq_imp_iff₂]
      intro other hother
      apply Datum.sameKey_text
      rintro hsame
      exact hcell (hsame ▸ List.mem_map_of_mem hother)
    have hstep : before.map entry ++ [entry cell] = (before ++ [cell]).map entry := by
      rw [List.map_append, List.map_singleton]
    have hentry : ((.text cell.1 : Datum), (.text cell.2 : Datum)) = entry cell := rfl
    rw [List.foldl_cons, Datum.setEntry_of_fresh hfresh, hentry, hstep,
      ih _ (by rwa [List.append_assoc]), List.append_assoc]
    rfl

variable {names record : List String}

theorem ofRecord_of_nodup (hnames : names.Nodup) (hlength : names.length = record.length) :
    ofRecord names record = (names.zip record).map entry := by
  have hcells : ((names.zip record).map Prod.fst).Nodup := by
    rwa [List.map_fst_zip (Nat.le_of_eq hlength)]
  have hfold := foldl_setEntry [] hcells
  have hsame : ¬names.length < record.length := by omega
  have hrest : names.drop record.length = [] := List.drop_eq_nil_of_le (Nat.le_of_eq hlength)
  rw [ofRecord]
  dsimp only
  rw [if_neg hsame, hrest]
  exact hfold

/-- A cell is found under the name at its place. -/
theorem get?_ofRecord (hnames : names.Nodup) (hlength : names.length = record.length) {i : Nat}
    {name : String} (hname : names[i]? = some name) :
    Datum.get? (ofRecord names record) name = record[i]?.map .text := by
  rw [ofRecord_of_nodup hnames hlength]
  induction names generalizing record i with
  | nil => contradiction
  | cons first names ih =>
    cases record with
    | nil => contradiction
    | cons cell record =>
      obtain ⟨hfirst, hrest⟩ := List.nodup_cons.mp hnames
      cases i with
      | zero =>
        cases hname
        simp [Datum.get?, entry]
      | succ i =>
        rw [List.getElem?_cons_succ] at hname
        have hother : (first == name) = false := by
          apply beq_false_of_ne
          rintro rfl
          exact hfirst (List.mem_of_getElem? hname)
        have hskip : Datum.get? (((first :: names).zip (cell :: record)).map entry) name =
            Datum.get? ((names.zip record).map entry) name := by
          simp [Datum.get?, entry, hother]
        rw [hskip, List.getElem?_cons_succ]
        exact ih hrest (Nat.succ.inj hlength) hname

end Row

namespace Csv

/-! Numbers -/

theorem number_of_cell {row : Row} {column text : String} {x : Float}
    (hcell : Datum.get? row column = some (.text text))
    (hfloat : Numeral.float? text.toList = some x) : number row column = .ok x := by
  rw [number, hcell]
  dsimp only
  rw [hfloat]

/-- An integer up to 2^53 is read back from its digits. -/
theorem volume_of_cell {row : Row} {column : String} {n : Int}
    (hcell : Datum.get? row column = some (.text (Layout.integer n)))
    (hn : n.natAbs ≤ 2 ^ 53) : volume row column = .ok n := by
  obtain ⟨mantissa, exponent, hvalue, hwhole⟩ := Binary64.exists_ofFloat_nearestDecimal hn
  rw [volume, number_of_cell hcell (Layout.float?_integer n)]
  simp only [bind, Except.bind, hvalue]
  exact congrArg Except.ok hwhole

/-! Timestamps -/

variable {m : Moment} {seconds : Int}

/-- The text of a minute is no count of seconds, since a blank stands in it. -/
theorem isCount_minuteText (hclock : m.clock < Moment.limit) (hyear : 1000 ≤ m.date.year) :
    isCount m.minuteText = false := by
  obtain ⟨first, inner, last, htext, hfirst, -, hblank⟩ := Moment.exists_minuteText hclock hyear
  have hhyphen : (first :: (inner ++ [last])).head?.any (· == '-') = false := by
    rw [List.head?_cons, Option.any_some]
    exact beq_false_of_ne (Text.ne_of_isDigit hfirst rfl)
  have hdigits : (first :: (inner ++ [last])).all Text.isDigit = false := by
    rw [List.all_eq_false]
    refine ⟨' ', List.mem_cons_of_mem _ (List.mem_append_left _ hblank), ?_⟩
    decide +kernel
  rw [isCount, htext, dropWhile_eq_self_of_head? hhyphen, hdigits, Bool.and_false]

theorem trim_minuteText (hclock : m.clock < Moment.limit) (hyear : 1000 ≤ m.date.year) :
    String.ofList (Text.trim m.minuteText.toList) = m.minuteText := by
  obtain ⟨first, inner, last, htext, hfirst, hlast, -⟩ := Moment.exists_minuteText hclock hyear
  have htrim : Text.trim m.minuteText.toList = m.minuteText.toList := by
    rw [htext]
    apply Text.trim_eq_self
    · rw [List.head?_cons, Option.any_some, Text.isBlank_of_isAsciiDigit hfirst]
    · rw [← List.cons_append, List.getLast?_concat, Option.any_some,
        Text.isBlank_of_isAsciiDigit hlast]
  rw [htrim, String.ofList_toList]

theorem spellOutZones_minuteText (hyear : 1000 ≤ m.date.year) :
    Bound.spellOutZones m.minuteText = m.minuteText := by
  have hkeep : (m.minuteText.toList.flatMap fun c => if c = 'Z' then "+00:00".toList else [c]) =
      m.minuteText.toList.flatMap fun c => [c] := by
    apply List.flatMap_congr
    intro c hc
    refine if_neg ?_
    rintro rfl
    have hchar := Moment.isMinuteChar_of_mem hyear _ hc
    revert hchar
    unfold Moment.IsMinuteChar
    decide
  rw [Bound.spellOutZones, hkeep, List.flatMap_singleton', String.ofList_toList]

/-- The text of a full minute is read as the timestamp of the minute. -/
theorem timestamp_minuteText {settings : CsvSettings} (hpattern : settings.pattern = none)
    (hm : Moment.ofTimestamp seconds = .ok m) (hyear : 1000 ≤ m.date.year)
    (hfull : 60 ∣ seconds) : timestamp settings m.minuteText = .ok seconds := by
  obtain ⟨hclock, hlimit⟩ := Moment.clock_of_ofTimestamp hm
  have hsecond : Moment.second = 1000000 := rfl
  have hepoch : Moment.epoch = 719162 * 86400000000 := rfl
  have hlast : Moment.limit = 3652059 * 86400000000 := rfl
  have hminute : 60 * Moment.second ∣ m.clock := by
    rw [hsecond] at hclock ⊢
    omega
  have hread : isoMoment m.minuteText = .ok ⟨m.clock, none⟩ := by
    rw [isoMoment, spellOutZones_minuteText hyear, Moment.read_minuteText hlimit hyear hminute]
  -- the text shows no offset, and a clock without one counts as if its offset were zero
  have hback : (⟨m.clock, none⟩ : Moment).timestamp = seconds := by
    apply Moment.timestamp_of_instant
    · simp only [Moment.instant, Option.getD_none, sub_zero]
      exact hclock
    · have hgreatest : Binary64.greatestWhole = 9007199254740992 := rfl
      rw [hsecond] at hclock
      omega
  rw [timestamp, isCount_minuteText hlimit hyear, if_neg Bool.false_ne_true, hpattern]
  simp only [hread]
  exact congrArg Except.ok hback

/-! Bars -/

variable {settings : CsvSettings} {wanted : String} {range : Option DateRange} {row : Row}

/-- A bar has the time it is given and the numbers in its columns. -/
theorem bar_eq_ok_iff {columns : CsvColumns} {time : Int} {found : Bar Float} :
    Csv.bar columns time row = .ok found ↔ found.timestamp = time ∧
      number row columns.opening = .ok found.opening ∧ number row columns.high = .ok found.high ∧
      number row columns.low = .ok found.low ∧ number row columns.close = .ok found.close ∧
      volume row columns.volume = .ok found.volume := by
  unfold Csv.bar
  simp only [bind_eq_ok_iff]
  constructor
  · rintro ⟨opening, hopening, high, hhigh, low, hlow, close, hclose, volume, hvolume, heq⟩
    cases heq
    exact ⟨rfl, hopening, hhigh, hlow, hclose, hvolume⟩
  · rintro ⟨rfl, hopening, hhigh, hlow, hclose, hvolume⟩
    exact ⟨_, hopening, _, hhigh, _, hlow, _, hclose, _, hvolume, rfl⟩

theorem bar?_of_foreign (hrow : row.isOf settings.columns wanted = false) :
    bar? settings wanted range row = .ok none := by
  rw [bar?, hrow, Bool.not_false, if_pos rfl]

theorem bar?_of_undated (htext : row.text? settings.columns.timestamp = none) :
    bar? settings wanted range row = .ok none := by
  unfold bar?
  rw [htext, ite_self]

/-- The steps over a row that counts and has a timestamp. -/
theorem bar?_of_dated {text : String} (hrow : row.isOf settings.columns wanted = true)
    (htext : row.text? settings.columns.timestamp = some text) :
    bar? settings wanted range row =
      (timestamp settings (String.ofList (Text.trim text.toList)) >>= fun time =>
        if isWanted range time then
          Csv.bar settings.columns time row >>= fun found => .ok (some found)
        else .ok none) := by
  rw [bar?, hrow, htext]
  rfl

theorem bar?_eq_ok_some {text : String} {time : Int} {found : Bar Float}
    (hrow : row.isOf settings.columns wanted = true)
    (htext : row.text? settings.columns.timestamp = some text)
    (htime : timestamp settings (String.ofList (Text.trim text.toList)) = .ok time)
    (hwanted : isWanted range time = true) (hbar : Csv.bar settings.columns time row = .ok found) :
    bar? settings wanted range row = .ok (some found) := by
  rw [bar?_of_dated hrow htext, htime]
  change (if isWanted range time then
      Csv.bar settings.columns time row >>= fun found => .ok (some found)
    else .ok none) = Except.ok (some found)
  rw [if_pos hwanted, hbar]
  rfl

/-- Rows that are read give the bars that are found in them, in their order. -/
theorem bars_map_eq_ok {α : Type} {items : List α} {row : α → Row} {found : α → Option (Bar Float)}
    (h : ∀ item ∈ items, bar? settings wanted range (row item) = .ok (found item)) :
    bars settings wanted range (items.map row) = .ok (items.filterMap found) := by
  induction items with
  | nil => rfl
  | cons item rest ih =>
    obtain ⟨hitem, hrest⟩ := List.forall_mem_cons.mp h
    rw [List.map_cons, bars, hitem, ih hrest]
    cases hfound : found item with
    | none =>
      rw [List.filterMap_cons_none hfound]
      rfl
    | some bar =>
      rw [List.filterMap_cons_some hfound]
      rfl

/-! Files -/

theorem inOrder_eq_self {found : List (Bar Float)}
    (h : found.Pairwise fun a b => a.timestamp ≤ b.timestamp) : inOrder found = found := by
  apply List.mergeSort_of_pairwise
  simpa only [decide_eq_true_eq] using h

/-- A text that is read as records up to its end gives the bars of their rows. -/
theorem barsOfFile_eq_ok {delimiter : Char} {records : List (List String)} {text : String}
    {found : List (Bar Float)} (hsettings : settings.delimiter.toList = [delimiter])
    (hread : Delimited.read delimiter text.toList true = ⟨records, false⟩)
    (hfound : bars settings wanted range (Row.ofRecords records) = .ok found) :
    barsOfFile settings wanted range text.toUTF8 = .ok (inOrder found) := by
  rw [barsOfFile, hsettings]
  dsimp only
  rw [Text.decode_toUTF8, hread, barsOf]
  dsimp only
  rw [hfound]
  rfl

end Csv

end Bourse
