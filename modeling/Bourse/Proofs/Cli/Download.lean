import Bourse.Cli.Program
import Bourse.Proofs.Cli.Run
import Bourse.Proofs.Results
import Bourse.Proofs.Source.Partition

/-! Downloads of several symbols. What a download found is shown or stored, and its status tells
whether one of the symbols failed; where that cannot be done there is no status. -/
namespace Bourse.Cli

open Run Source

/-- What a download asks for in a session: the symbols, and what fetching each of them gives. -/
structure DownloadSettings.Asks (settings : DownloadSettings) (session : Session)
    (symbols : List String) (fetch : String → Fetched History) : Prop where
  symbols_eq : (Symbols.collect settings.symbols session.input session.terminal).result = symbols
  fetch_eq : ∃ given range, Gives session (givenRange settings.bars.span) (.ok given) ∧
    Gives session (fetchRange (barSource settings.bars) given "1y") (.ok range) ∧
    fetch = fun symbol => (barSource settings.bars).history session.world symbol range
      settings.bars.interval.name

/-- Whether what a download found can be shown or stored, as its settings have it. -/
structure DownloadSettings.Delivers (settings : DownloadSettings) (session : Session)
    (batch : Batch) : Prop where
  sheet : Succeeds (Sheet.ofBatch batch >>= Sheet.render settings.display.style)
  file : ∀ path, settings.output = some path → path ≠ "" →
    writeFault? session.world.stored path = none

/-- The status of a download: one where a symbol failed, and zero otherwise. -/
def statusOf (batch : Batch) : Nat := if batch.failed.isEmpty then 0 else 1

/-- What a download does with what it found. -/
def DownloadSettings.deliver (settings : DownloadSettings) (batch : Batch) : Run Nat := do
  let text ← need .sheet (do (← Sheet.ofBatch batch).render settings.display.style)
  match settings.output with
  | none | some "" => if !batch.histories.isEmpty then say text
  | some path =>
    save path (text ++ "\n")
    warn s!"Wrote {path}"
  return statusOf batch

variable {settings : DownloadSettings} {session : Session} {symbols : List String}
  {fetch : String → Fetched History} {batch : Batch}

/-- A download gives what comes of delivering what it found. -/
theorem gives_of_deliver (hne : symbols ≠ []) (hasks : settings.Asks session symbols fetch)
    (hbatch : (histories fetch symbols).outcome = .ok batch) {result : Except Fault Nat}
    (h : Gives session (settings.deliver batch) result) :
    Gives session settings.carryOut result := by
  obtain ⟨hsymbols, given, range, hgiven, hrange, rfl⟩ := hasks
  have hwanted : ¬symbols.isEmpty = true := by simpa using hne
  apply Gives.bind (gives_collect settings.symbols)
  rw [hsymbols]
  dsimp only
  rw [if_neg hwanted]
  -- the range, then the fetches, then what is told about them
  apply Gives.bind hgiven
  apply Gives.bind hrange
  apply Gives.bind gives_read
  apply Gives.bind (gives_needFetched hbatch)
  apply Gives.bind (gives_forIn fun item => gives_warn _)
  apply Gives.bind (gives_warn _)
  exact h

theorem gives_deliver (h : settings.Delivers session batch) :
    Gives session (settings.deliver batch) (.ok (statusOf batch)) := by
  obtain ⟨text, htext⟩ := h.sheet
  apply Gives.bind (gives_need_of_ok htext)
  dsimp only
  -- without a path, with an empty one, and with one that names a file
  split
  · split
    · exact Gives.bind (gives_say text) (gives_pure _)
    · exact gives_pure _
  · split
    · exact Gives.bind (gives_say text) (gives_pure _)
    · exact gives_pure _
  · next path hempty houtput =>
    apply Gives.bind (gives_save (h.file path houtput hempty) _)
    exact Gives.bind (gives_warn _) (gives_pure _)

/-- What cannot be delivered breaks the download off without a message. -/
theorem exists_gives_deliver_fault (h : ¬settings.Delivers session batch) :
    ∃ fault : Fault, fault.message? = none ∧
      Gives session (settings.deliver batch) (.error fault) := by
  cases htext : Sheet.ofBatch batch >>= Sheet.render settings.display.style with
  | error error => exact ⟨.sheet error, rfl, Gives.stop (gives_need_of_error htext)⟩
  | ok text =>
    -- there is a text, so it is the file that stands in the way
    have hfile : ∃ path, settings.output = some path ∧ path ≠ "" ∧
        ∃ fault, writeFault? session.world.stored path = some fault := by
      by_contra hnone
      refine h ⟨⟨text, htext⟩, fun path hpath hne => ?_⟩
      by_contra hfault
      exact hnone ⟨path, hpath, hne, Option.ne_none_iff_exists'.mp hfault⟩
    obtain ⟨path, houtput, hne, fault, hfault⟩ := hfile
    refine ⟨.write fault, rfl, Gives.bind (gives_need_of_ok htext) ?_⟩
    rw [houtput]
    dsimp only
    split
    · contradiction
    · next hempty => exact absurd (Option.some.inj hempty) hne
    · next other _ hother =>
      cases hother
      exact Gives.stop (gives_save_of_fault hfault _)

/-- A download that delivers ends with the status of what it found, and no other has a status. -/
theorem outcome_carryOut_iff (hne : symbols ≠ []) (hasks : settings.Asks session symbols fetch)
    (hbatch : (histories fetch symbols).outcome = .ok batch) (transcript : Transcript) (code : Nat) :
    ((settings.carryOut.run session).run.run transcript).1 = .ok code ↔
      settings.Delivers session batch ∧ code = statusOf batch := by
  by_cases h : settings.Delivers session batch
  · rw [gives_of_deliver hne hasks hbatch (gives_deliver h) transcript, and_iff_right h]
    constructor
    · exact fun heq => (Except.ok.inj heq).symm
    · exact fun hcode => congrArg Except.ok hcode.symm
  · obtain ⟨fault, -, hfault⟩ := exists_gives_deliver_fault h
    rw [gives_of_deliver hne hasks hbatch hfault transcript]
    exact iff_of_false nofun fun hends => h hends.1

/-- The program ends with the status of a download that delivers, and breaks off at any other. -/
theorem ending_of_download (hne : symbols ≠ [])
    (hasks : settings.Asks { session with verbose := settings.display.verbose } symbols fetch)
    (hbatch : (histories fetch symbols).outcome = .ok batch) :
    (settings.Delivers session batch →
        (Program.carryOut session (.download settings)).2 = .status (statusOf batch)) ∧
      (¬settings.Delivers session batch →
        ∃ fault, (Program.carryOut session (.download settings)).2 = .broken fault) := by
  have hfinish : Program.carryOut session (.download settings) = Program.finish
      ((settings.carryOut.run { session with verbose := settings.display.verbose }).run.run {}) :=
    rfl
  have hsession : settings.Delivers session batch ↔
      settings.Delivers { session with verbose := settings.display.verbose } batch :=
    ⟨fun h => ⟨h.sheet, h.file⟩, fun h => ⟨h.sheet, h.file⟩⟩
  rw [hfinish, hsession]
  rcases hend : (settings.carryOut.run
    { session with verbose := settings.display.verbose }).run.run {} with ⟨first, after⟩
  constructor
  · intro h
    have hgives := gives_of_deliver hne hasks hbatch (gives_deliver h) {}
    rw [hend] at hgives
    rw [show first = .ok (statusOf batch) from hgives]
    rfl
  · intro h
    obtain ⟨fault, hsilent, hfault⟩ := exists_gives_deliver_fault h
    have hgives := gives_of_deliver hne hasks hbatch hfault {}
    rw [hend] at hgives
    rw [show first = .error fault from hgives, Program.finish, hsilent]
    exact ⟨fault, rfl⟩

theorem eq_statusOf_iff (h : Parts fetch symbols batch) {code : Nat} :
    code = statusOf batch ↔ code = 1 ∧ (∃ symbol ∈ symbols, IsRefused fetch symbol) ∨
      code = 0 ∧ ¬∃ symbol ∈ symbols, IsRefused fetch symbol := by
  rw [← h.failed_ne_nil_iff]
  cases hfailed : batch.failed <;> simp [statusOf, hfailed]

/-- A request for any symbols, of which none breaks down, is parted into those that are found and
those that fail. What is said of a symbol is what fetching it alone says, there are as many entries
as different symbols, and the status of a download tells whether one of its symbols failed. -/
theorem download_parts_its_symbols (hne : symbols ≠ [])
    (hfixed : ∀ symbol ∈ symbols, ¬BreaksDown fetch symbol) :
    ∃ batch, (histories fetch symbols).outcome = .ok batch ∧ Parts fetch symbols batch ∧
      (∀ symbol ∈ symbols, ∃ alone, (histories fetch [symbol]).outcome = .ok alone ∧
        batch.AgreeOn symbol alone) ∧
      batch.histories.length + batch.failed.length = symbols.toFinset.card ∧
      ∀ settings session, DownloadSettings.Asks settings session symbols fetch →
        ∀ transcript code, ((settings.carryOut.run session).run.run transcript).1 = .ok code ↔
          settings.Delivers session batch ∧
            (code = 1 ∧ (∃ symbol ∈ symbols, IsRefused fetch symbol) ∨
              code = 0 ∧ ¬∃ symbol ∈ symbols, IsRefused fetch symbol) := by
  have hparts := parts_batchAfter hfixed
  have hbatch : (histories fetch symbols).outcome = .ok (batchAfter fetch {} symbols) := by
    rw [histories_of_ne_nil hne, outcome_fetchAll hfixed]
  refine ⟨_, hbatch, hparts, fun symbol hmem => ?_, hparts.length_add_length, ?_⟩
  · have halone : ∀ other ∈ [symbol], ¬BreaksDown fetch other :=
      List.forall_mem_singleton.mpr (hfixed symbol hmem)
    refine ⟨batchAfter fetch {} [symbol], ?_, agreeOn_batchAfter hmem⟩
    rw [histories_of_ne_nil (List.cons_ne_nil _ _), outcome_fetchAll halone]
  · intro settings session hasks transcript code
    rw [outcome_carryOut_iff hne hasks hbatch, eq_statusOf_iff hparts]

/-- A session with a service that knows of no bars and fails for one symbol. -/
def oneDelisted : Session where
  world := { service := some { listings := [("PEP", { failure := some "delisted" })] } }
  now := ⟨63839664000000000, some 0⟩

/-- The settings of a download of two symbols. -/
def twoAsked : DownloadSettings where
  symbols := ["ko,pep"]

/-- What is found of them there. -/
def oneFound : Batch where
  histories := [("KO", { symbol := "KO", bars := [] })]
  failed := [("PEP", "Failed to fetch history for symbol 'PEP': delisted")]

theorem delisted_symbol_shows_in_status :
    ∃ fetch, ["KO", "PEP"] ≠ [] ∧ (∀ symbol ∈ ["KO", "PEP"], ¬BreaksDown fetch symbol) ∧
      twoAsked.Asks oneDelisted ["KO", "PEP"] fetch ∧ Parts fetch ["KO", "PEP"] oneFound ∧
      ∀ transcript, ((twoAsked.carryOut.run oneDelisted).run.run transcript).1 = .ok 1 := by
  have hresolve : Succeeds (DateRange.resolve oneDelisted.now none none none "1y") :=
    succeeds_of_isOk (by decide +kernel)
  obtain ⟨range, hrange⟩ := hresolve
  let fetch (symbol : String) : Fetched History :=
    (Source.service {}).history oneDelisted.world symbol (some range) Interval.oneDay.name
  have hKO : (fetch "KO").outcome = .ok { symbol := "KO", bars := [] } := rfl
  have hPEP : (fetch "PEP").outcome = .error (.reported (.historyFailed "PEP" "delisted")) := rfl
  have hfixed : ∀ symbol ∈ ["KO", "PEP"], ¬BreaksDown fetch symbol := by
    simp [BreaksDown, hKO, hPEP]
  have hasks : twoAsked.Asks oneDelisted ["KO", "PEP"] fetch := by
    refine ⟨by decide +kernel, none, some range, gives_pure none, ?_, rfl⟩
    exact Gives.bind gives_read (Gives.bind (gives_need_of_ok hrange) (gives_pure _))
  obtain ⟨batch, hbatch, hparts, -, -, hstatus⟩ :=
    download_parts_its_symbols (List.cons_ne_nil "KO" ["PEP"]) hfixed
  have hfound : (histories fetch ["KO", "PEP"]).outcome = .ok oneFound := rfl
  have hsame : batch = oneFound := Except.ok.inj (hbatch.symm.trans hfound)
  subst hsame
  refine ⟨fetch, List.cons_ne_nil _ _, hfixed, hasks, hparts, ?_⟩
  intro transcript
  have hdelivers : twoAsked.Delivers oneDelisted oneFound :=
    ⟨succeeds_of_isOk (by decide +kernel), nofun⟩
  have hrefused : ∃ symbol ∈ ["KO", "PEP"], IsRefused fetch symbol := ⟨"PEP", by simp, _, hPEP⟩
  exact (hstatus twoAsked oneDelisted hasks transcript 1).mpr ⟨hdelivers, .inl ⟨rfl, hrefused⟩⟩

end Bourse.Cli
