import Bourse.Proofs.Datum
import Bourse.Proofs.Sheet.Batch
import Bourse.Proofs.Source.Rows
import Bourse.Proofs.Symbols

/-! A batch that is stored and read again. Each symbol finds its own rows in the file, the dates give
the timestamps back and the digits the numbers, so every history comes back with the prices that
their texts denote and with everything else as it was. -/
namespace Bourse

/-- The bars that are stored with nothing lost but decimals: on a full minute of a year of four
digits, with finite prices and with a volume up to which every integer is a value. -/
structure Bar.IsStorable (bar : Bar Float) : Prop where
  minute : 60 ∣ bar.timestamp
  year : ∃ m, Moment.ofTimestamp bar.timestamp = .ok m ∧ 1000 ≤ m.date.year
  opening : bar.opening.isFinite = true
  high : bar.high.isFinite = true
  low : bar.low.isFinite = true
  close : bar.close.isFinite = true
  volume : bar.volume.natAbs ≤ 2 ^ 53

/-- The batches that are stored so: each symbol once, and the bars of each in the order of time. -/
structure Batch.IsStorable (batch : Batch) : Prop where
  distinct : (batch.histories.map Prod.fst).Nodup
  valid : ∀ entry ∈ batch.histories, Symbols.isValid entry.1.toList = true
  ascending : ∀ entry ∈ batch.histories,
    entry.2.bars.Pairwise fun a b => a.timestamp ≤ b.timestamp
  storable : ∀ entry ∈ batch.histories, ∀ bar ∈ entry.2.bars, bar.IsStorable

/-- Whether a bar is what becomes of another one that is written with decimal places and read. -/
structure Bar.IsReadBack (places : Nat) (bar back : Bar Float) : Prop where
  timestamp : back.timestamp = bar.timestamp
  opening : Numeral.float? (Layout.fixed places bar.opening).toList = some back.opening
  high : Numeral.float? (Layout.fixed places bar.high).toList = some back.high
  low : Numeral.float? (Layout.fixed places bar.low).toList = some back.low
  close : Numeral.float? (Layout.fixed places bar.close).toList = some back.close
  volume : back.volume = bar.volume

/-- The number that the text of a number with decimal places denotes. It is irreducible, or else the
unifier would set out to read the text. -/
@[irreducible]
def readPrice (places : Nat) (x : Float) : Float :=
  (Numeral.float? (Layout.fixed places x).toList).getD x

/-- What becomes of a bar that is written and read. -/
def Bar.readBack (places : Nat) (bar : Bar Float) : Bar Float :=
  { bar with
    opening := readPrice places bar.opening
    high := readPrice places bar.high
    low := readPrice places bar.low
    close := readPrice places bar.close }

variable {bar : Bar Float} {places : Nat} {symbol : String}

/-! What is written of a bar -/

theorem Bar.IsStorable.isWritable (h : bar.IsStorable) : Sheet.IsWritable bar where
  date := h.year.imp fun _ hm => hm.1
  opening := Binary64.isNaN_of_isFinite h.opening
  high := Binary64.isNaN_of_isFinite h.high
  low := Binary64.isNaN_of_isFinite h.low
  close := Binary64.isNaN_of_isFinite h.close
  volume := by
    have hpow : 2 ^ 53 < 10 ^ 53 := Nat.pow_lt_pow_left (by decide) (by decide)
    have hmost : 10 ^ 53 ≤ 10 ^ Numeral.mostDigits := Nat.pow_le_pow_right (by decide) (by decide)
    exact Datum.isWritable_int.mpr ((h.volume.trans_lt hpow).trans_le hmost)

theorem float?_fixed {x : Float} (hx : x.isFinite = true) (places : Nat) :
    Numeral.float? (Layout.fixed places x).toList = some (readPrice places x) := by
  obtain ⟨y, hy⟩ := Layout.exists_float?_fixed hx places
  rw [readPrice, hy]
  rfl

theorem Bar.IsStorable.isReadBack (h : bar.IsStorable) (places : Nat) :
    bar.IsReadBack places (bar.readBack places) where
  timestamp := rfl
  opening := float?_fixed h.opening places
  high := float?_fixed h.high places
  low := float?_fixed h.low places
  close := float?_fixed h.close places
  volume := rfl

section Kept

open Delimited

theorem isKept_of_isMark {text : List Char} (hmarks : ∀ c ∈ text, Numeral.IsMark c)
    (hlength : text.length ≤ mostChars) : IsKept text := by
  refine ⟨fun hreturn => ?_, hlength⟩
  have hcode := (hmarks _ hreturn).toNat
  revert hcode
  decide

theorem isKept_of_isValid (h : Symbols.isValid symbol.toList = true) : IsKept symbol.toList := by
  constructor
  · intro hreturn
    have hcode := Symbols.toNat_of_isSymbolChar (Symbols.isSymbolChar_of_mem h _ hreturn)
    revert hcode
    decide
  · exact (Symbols.length_le h).trans (by decide)

theorem isKept_minuteText {m : Moment} (hclock : m.clock < Moment.limit)
    (hyear : 1000 ≤ m.date.year) : IsKept m.minuteText.toList := by
  constructor
  · intro hreturn
    have hchar := Moment.isMinuteChar_of_mem hyear _ hreturn
    revert hchar
    unfold Moment.IsMinuteChar
    decide
  · rw [Moment.length_minuteText hclock hyear]
    decide

/-- Every text of a bar comes back. -/
theorem isKept_of_mem_batchRecord (hsymbol : Symbols.isValid symbol.toList = true)
    (hbar : bar.IsStorable) (hplaces : places ≤ 1000) :
    ∀ text ∈ Sheet.batchRecord places symbol bar, IsKept text.toList := by
  have hprice {x : Float} (hx : x.isFinite = true) : IsKept (Layout.fixed places x).toList := by
    have hlength := Layout.length_fixed_le hx places
    have hmost : mostChars = 131072 := rfl
    exact isKept_of_isMark (Layout.isMark_of_mem_fixed hx) (by omega)
  have hvolume : IsKept (Layout.integer bar.volume).toList := by
    have hdigits : (Layout.digitsOf bar.volume.natAbs).length ≤ 53 :=
      Layout.length_digitsOf_le (by decide)
        (hbar.volume.trans_lt (Nat.pow_lt_pow_left (by decide) (by decide)))
    have hsign : (Numeral.signText (decide (bar.volume < 0))).length ≤ 1 := by
      cases decide (bar.volume < 0) <;> decide
    have hmost : mostChars = 131072 := rfl
    refine isKept_of_isMark (Layout.isMark_of_mem_integer _) ?_
    rw [Layout.toList_integer, List.length_append]
    omega
  obtain ⟨m, hm, hyear⟩ := hbar.year
  have hdate := isKept_minuteText (Moment.clock_of_ofTimestamp hm).2 hyear
  rw [← Sheet.dateText_of_ofTimestamp hm] at hdate
  simp only [Sheet.batchRecord, List.forall_mem_cons]
  exact ⟨isKept_of_isValid hsymbol, hdate, hprice hbar.opening, hprice hbar.high, hprice hbar.low,
    hprice hbar.close, hvolume, List.forall_mem_nil _⟩

end Kept

theorem Interval.ofName?_name (interval : Interval) : ofName? interval.name = some interval := by
  cases interval <;> decide +kernel

namespace Csv

/-! What is read of a row -/

/-- How a sheet of a batch is read: its dates are the timestamps. -/
def sheetSettings (path : String) : CsvSettings := { path, columns := { timestamp := "date" } }

def sheetNames : List String := "symbol" :: Sheet.barHeaders

/-- The row of a bar under the headers of a sheet. -/
def sheetRow (places : Nat) (symbol : String) (bar : Bar Float) : Row :=
  Row.ofRecord sheetNames (Sheet.batchRecord places symbol bar)

theorem nodup_sheetNames : sheetNames.Nodup := by
  decide +kernel

theorem get?_sheetRow (places : Nat) (symbol : String) (bar : Bar Float) {i : Nat} {name : String}
    (hname : sheetNames[i]? = some name) : Datum.get? (sheetRow places symbol bar) name =
      (Sheet.batchRecord places symbol bar)[i]?.map .text := by
  have hlength : sheetNames.length = (Sheet.batchRecord places symbol bar).length := rfl
  rw [sheetRow]
  exact Row.get?_ofRecord nodup_sheetNames hlength hname

theorem bar_sheetRow (hbar : bar.IsStorable) (places : Nat) (symbol path : String) :
    Csv.bar (sheetSettings path).columns bar.timestamp (sheetRow places symbol bar) =
      .ok (bar.readBack places) := by
  have hcell {i : Nat} {name : String} (hname : sheetNames[i]? = some name) :=
    get?_sheetRow places symbol bar hname
  have hopening := number_of_cell (hcell (i := 2) rfl) (float?_fixed hbar.opening places)
  have hhigh := number_of_cell (hcell (i := 3) rfl) (float?_fixed hbar.high places)
  have hlow := number_of_cell (hcell (i := 4) rfl) (float?_fixed hbar.low places)
  have hclose := number_of_cell (hcell (i := 5) rfl) (float?_fixed hbar.close places)
  have hvolume := volume_of_cell (hcell (i := 6) rfl) hbar.volume
  simp only [Csv.bar, sheetSettings, hopening, hhigh, hlow, hclose, hvolume]
  rfl

variable {wanted : String}

theorem isOf_sheetRow (hsymbol : Symbols.isValid symbol.toList = true)
    (hwanted : Symbols.isValid wanted.toList = true) (places : Nat) (bar : Bar Float)
    (path : String) : (sheetRow places symbol bar).isOf (sheetSettings path).columns wanted =
      (symbol == wanted) := by
  have hcell := get?_sheetRow places symbol bar (i := 0) rfl
  have hne : symbol ≠ "" := by
    rintro rfl
    contradiction
  have htext : (sheetRow places symbol bar).text? "symbol" = some symbol := by
    rw [Row.text?, hcell]
    exact if_neg hne
  simp only [Row.isOf, sheetSettings, htext, Symbols.upper_of_isValid hsymbol,
    Symbols.upper_of_isValid hwanted]

/-- A row gives its bar to its own symbol and nothing to any other. -/
theorem bar?_sheetRow (hsymbol : Symbols.isValid symbol.toList = true)
    (hwanted : Symbols.isValid wanted.toList = true) (hbar : bar.IsStorable) (places : Nat)
    (path : String) : bar? (sheetSettings path) wanted none (sheetRow places symbol bar) =
      .ok (if symbol = wanted then some (bar.readBack places) else none) := by
  obtain ⟨m, hm, hyear⟩ := hbar.year
  have hlimit := (Moment.clock_of_ofTimestamp hm).2
  have hcell := get?_sheetRow places symbol bar (i := 1) rfl
  have htext : (sheetRow places symbol bar).text? (sheetSettings path).columns.timestamp =
      some m.minuteText := by
    have hne : m.minuteText ≠ "" := by
      intro hempty
      have hlength := Moment.length_minuteText hlimit hyear
      rw [hempty] at hlength
      exact absurd hlength (by decide)
    have hplace : (Sheet.batchRecord places symbol bar)[1]? =
        some (Sheet.dateText bar.timestamp) := rfl
    have hdate : Datum.get? (sheetRow places symbol bar) "date" = some (.text m.minuteText) := by
      rw [hcell, hplace, Option.map_some, Sheet.dateText_of_ofTimestamp hm]
    rw [sheetSettings, Row.text?, hdate]
    exact if_neg hne
  -- a row of another symbol is passed over before its date is looked at
  by_cases hsame : symbol = wanted
  · have htime : timestamp (sheetSettings path) (String.ofList (Text.trim m.minuteText.toList)) =
        .ok bar.timestamp := by
      rw [trim_minuteText hlimit hyear, timestamp_minuteText rfl hm hyear hbar.minute]
    have hown := isOf_sheetRow hsymbol hwanted places bar path
    rw [beq_iff_eq.mpr hsame] at hown
    rw [if_pos hsame]
    exact bar?_eq_ok_some hown htext htime rfl (bar_sheetRow hbar places symbol path)
  · have hforeign := isOf_sheetRow hsymbol hwanted places bar path
    rw [beq_false_of_ne hsame] at hforeign
    rw [if_neg hsame]
    exact bar?_of_foreign hforeign

/-! Files -/

variable {batch : Batch}

theorem ofRecords_batchRecords (places : Nat) (items : List (String × Bar Float)) :
    Row.ofRecords (sheetNames :: items.map fun item => Sheet.batchRecord places item.1 item.2) =
      items.map fun item => sheetRow places item.1 item.2 := by
  have hfilter : (items.map fun item => Sheet.batchRecord places item.1 item.2).filter
      (!·.isEmpty) = items.map fun item => Sheet.batchRecord places item.1 item.2 := by
    rw [List.filter_eq_self]
    simp only [List.mem_map, forall_exists_index, and_imp, forall_apply_eq_imp_iff₂]
    exact fun _ _ => rfl
  simp only [Row.ofRecords, hfilter, List.map_map, Function.comp_def, sheetRow]

theorem storable_of_mem_batchBars (h : batch.IsStorable) : ∀ item ∈ Sheet.batchBars batch,
    Symbols.isValid item.1.toList = true ∧ item.2.IsStorable := by
  intro item hitem
  obtain ⟨entry, hentry, hbars⟩ := List.mem_flatMap.mp hitem
  obtain ⟨bar, hbar, rfl⟩ := List.mem_map.mp hbars
  exact ⟨h.valid entry hentry, h.storable entry hentry bar hbar⟩

def sheetRecords (places : Nat) (batch : Batch) : List (List String) :=
  sheetNames :: (Sheet.batchBars batch).map fun item => Sheet.batchRecord places item.1 item.2

/-- The text of a batch has a line for the headers and one for each bar. -/
theorem exists_render (h : batch.IsStorable) {places : Int} (hlow : 0 ≤ places)
    (hhigh : places ≤ 1000) :
    ∃ text, (Sheet.ofBatch batch >>= Sheet.render { format := .csv, places }) = .ok text ∧
      (text ++ "\n").toList = Sheet.lineText ',' (sheetRecords places.toNat batch) := by
  have hmost : Cell.mostPlaces = 2147483647 := rfl
  have hwritable : ∀ item ∈ Sheet.batchBars batch, Sheet.IsWritable item.2 := fun item hitem =>
    (storable_of_mem_batchBars h item hitem).2.isWritable
  have htexts := Sheet.texts_batchRows hlow (by omega) hwritable sheetNames ""
  have hnonempty : ∀ record ∈ sheetRecords places.toNat batch, record ≠ [] := by
    simp only [sheetRecords, List.forall_mem_cons, List.mem_map, forall_exists_index, and_imp,
      forall_apply_eq_imp_iff₂]
    exact ⟨List.cons_ne_nil _ _, fun _ _ => List.cons_ne_nil _ _⟩
  obtain ⟨text, htext, hlines⟩ := Sheet.exists_delimited
    ⟨sheetNames, (Sheet.batchBars batch).map fun item => Sheet.batchRow item.1 item.2⟩
    { format := .csv, places } Delimited.isDelimiter_comma htexts rfl hnonempty
  refine ⟨text, ?_, hlines⟩
  rw [Sheet.ofBatch_eq_ok hwritable]
  exact htext

theorem isKept_of_mem_sheetRecords (h : batch.IsStorable) (hplaces : places ≤ 1000) :
    ∀ record ∈ sheetRecords places batch, ∀ cell ∈ record, Delimited.IsKept cell.toList := by
  have hnames : ∀ name ∈ sheetNames, '\r' ∉ name.toList ∧ name.toList.length ≤ 131072 := by
    decide +kernel
  simp only [sheetRecords, List.forall_mem_cons, List.mem_map, forall_exists_index, and_imp,
    forall_apply_eq_imp_iff₂]
  refine ⟨fun name hname => ⟨(hnames name hname).1, (hnames name hname).2⟩, fun item hitem => ?_⟩
  obtain ⟨hsymbol, hbar⟩ := storable_of_mem_batchBars h item hitem
  exact isKept_of_mem_batchRecord hsymbol hbar hplaces

/-- Every symbol finds the bars of its history. -/
theorem bars_sheetRecords (h : batch.IsStorable) (places : Nat) (path : String)
    {entry : String × History} (hentry : entry ∈ batch.histories) :
    bars (sheetSettings path) entry.1 none (Row.ofRecords (sheetRecords places batch)) =
      .ok (entry.2.bars.map (Bar.readBack places)) := by
  have hitems : ∀ item ∈ Sheet.batchBars batch,
      bar? (sheetSettings path) entry.1 none (sheetRow places item.1 item.2) =
        .ok (if item.1 = entry.1 then some (item.2.readBack places) else none) := by
    intro item hitem
    obtain ⟨hsymbol, hbar⟩ := storable_of_mem_batchBars h item hitem
    exact bar?_sheetRow hsymbol (h.valid entry hentry) hbar places path
  rw [sheetRecords, ofRecords_batchRecords, bars_map_eq_ok hitems,
    Sheet.filterMap_batchBars (Bar.readBack places) h.distinct hentry]

/-- A batch that is written with decimal places and stored is read back by its symbols: the bars of
each come in their order with the same timestamps and volumes, and every price is the number that
its text denotes. -/
theorem stored_batch_is_read_back (h : batch.IsStorable) {places : Int} (hlow : 0 ≤ places)
    (hhigh : places ≤ 1000) (path : String) (interval : Interval) :
    ∃ text, (Sheet.ofBatch batch >>= Sheet.render { format := .csv, places }) = .ok text ∧
      ∀ entry ∈ batch.histories, ∃ found,
        history (.file (text ++ "\n").toUTF8) (sheetSettings path) entry.1 none interval.name =
          .ok { symbol := entry.1, interval, bars := found } ∧
        List.Forall₂ (Bar.IsReadBack places.toNat) entry.2.bars found := by
  obtain ⟨text, htext, hlines⟩ := exists_render h hlow hhigh
  have hplaces : places.toNat ≤ 1000 := by omega
  have hrecords : Delimited.read ',' (text ++ "\n").toList true =
      ⟨sheetRecords places.toNat batch, false⟩ := by
    rw [hlines]
    exact Sheet.read_lineText Delimited.isDelimiter_comma
      (isKept_of_mem_sheetRecords h hplaces)
  refine ⟨text, htext, fun entry hentry => ⟨entry.2.bars.map (Bar.readBack places.toNat), ?_, ?_⟩⟩
  · have hcomma : ",".toList = [','] := rfl
    have hdelimiter : (sheetSettings path).delimiter.toList = [','] := hcomma
    -- what is found is in the order of time already
    have hsorted : inOrder (entry.2.bars.map (Bar.readBack places.toNat)) =
        entry.2.bars.map (Bar.readBack places.toNat) := by
      apply inOrder_eq_self
      rw [List.pairwise_map]
      exact h.ascending entry hentry
    have hread : barsOfFile (sheetSettings path) entry.1 none (text ++ "\n").toUTF8 =
        .ok (entry.2.bars.map (Bar.readBack places.toNat)) := by
      rw [barsOfFile_eq_ok hdelimiter hrecords (bars_sheetRecords h places.toNat path hentry),
        hsorted]
    rw [history, barsOfStored, hread, Interval.ofName?_name]
    rfl
  · rw [List.forall₂_map_right_iff, List.forall₂_same]
    exact fun bar hbar => (h.storable entry hentry bar hbar).isReadBack places.toNat

/-- Two symbols, one with two bars on successive days and the greatest volume. -/
def twoSymbols : Batch where
  histories := [
    ("BRK-B", { symbol := "BRK-B", bars := [
      ⟨1704067200, 1.5, 2.25, 1.125, 1.75, 9007199254740992⟩,
      ⟨1704153600, 1.75, 2.5, 1.0, 0.1, 12⟩] }),
    ("^GSPC", { symbol := "^GSPC", bars := [⟨1704067200, 4769.83, 4788.43, 4751.99, 4783.35, 0⟩] })]

theorem two_symbols_are_read_back : twoSymbols.IsStorable ∧ (0 : Int) ≤ 2 ∧ (2 : Int) ≤ 1000 ∧
    ∃ text, (Sheet.ofBatch twoSymbols >>= Sheet.render { format := .csv, places := 2 }) = .ok text ∧
      ∀ entry ∈ twoSymbols.histories, ∃ found,
        history (.file (text ++ "\n").toUTF8) (sheetSettings "prices.csv") entry.1 none
            Interval.oneDay.name =
          .ok { symbol := entry.1, interval := .oneDay, bars := found } ∧
        List.Forall₂ (Bar.IsReadBack 2) entry.2.bars found := by
  have hfirst : ∃ m, Moment.ofTimestamp 1704067200 = .ok m ∧ 1000 ≤ m.date.year :=
    ⟨⟨63839664000000000, some 0⟩, by decide +kernel, by decide +kernel⟩
  have hsecond : ∃ m, Moment.ofTimestamp 1704153600 = .ok m ∧ 1000 ≤ m.date.year :=
    ⟨⟨63839750400000000, some 0⟩, by decide +kernel, by decide +kernel⟩
  have hbatch : twoSymbols.IsStorable := by
    constructor
    · decide +kernel
    · decide +kernel
    · decide +kernel
    · simp only [twoSymbols, List.forall_mem_cons]
      refine ⟨⟨?_, ?_, List.forall_mem_nil _⟩, ⟨?_, List.forall_mem_nil _⟩, List.forall_mem_nil _⟩
      · exact ⟨by decide, hfirst, by decide +kernel, by decide +kernel, by decide +kernel,
          by decide +kernel, by decide⟩
      · exact ⟨by decide, hsecond, by decide +kernel, by decide +kernel, by decide +kernel,
          by decide +kernel, by decide⟩
      · exact ⟨by decide, hfirst, by decide +kernel, by decide +kernel, by decide +kernel,
          by decide +kernel, by decide⟩
  exact ⟨hbatch, by decide, by decide,
    stored_batch_is_read_back hbatch (by decide) (by decide) "prices.csv" .oneDay⟩

end Csv

end Bourse
