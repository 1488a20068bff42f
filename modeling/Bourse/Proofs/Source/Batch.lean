import Bourse.Proofs.Entries
import Bourse.Proofs.Results
import Bourse.Source.Basic

/-! Batches of histories. Symbols are fetched one after another, and as long as none of them breaks
down each is found in the batch, with its history or with the message about it. -/
namespace Bourse.Source

variable {fetch : String → Fetched History}

/-- Whether fetching a symbol breaks down. -/
def BreaksDown (fetch : String → Fetched History) (symbol : String) : Prop :=
  ∃ breakdown, (fetch symbol).outcome = .error (.broken breakdown)

/-- The history of a symbol under its name. -/
def found? (fetch : String → Fetched History) (symbol : String) : Option (String × History) :=
  match (fetch symbol).outcome with
  | .ok history => some (symbol, history)
  | .error _ => none

/-- The message about a symbol under its name. -/
def refused? (fetch : String → Fetched History) (symbol : String) : Option (String × String) :=
  match (fetch symbol).outcome with
  | .error (.reported error) => some (symbol, error.message)
  | _ => none

/-- A batch after symbols were fetched none of which breaks down. -/
def batchAfter (fetch : String → Fetched History) (batch : Batch) (symbols : List String) : Batch where
  histories := Entries.putAll batch.histories (symbols.filterMap (found? fetch))
  failed := Entries.putAll batch.failed (symbols.filterMap (refused? fetch))

theorem batchAfter_cons (batch : Batch) (symbol : String) (rest : List String) :
    batchAfter fetch batch (symbol :: rest) = batchAfter fetch (batchAfter fetch batch [symbol]) rest := by
  rw [← List.singleton_append]
  simp only [batchAfter, List.filterMap_append, Entries.putAll_append]

theorem enter_of_not_breaksDown {symbol : String} (h : ¬BreaksDown fetch symbol) (batch : Batch) :
    enter batch symbol (fetch symbol).outcome = .ok (batchAfter fetch batch [symbol]) := by
  cases houtcome : (fetch symbol).outcome with
  | ok history => simp [enter, houtcome, batchAfter, found?, refused?, Entries.putAll]
  | error failure =>
    cases failure with
    | reported error => simp [enter, houtcome, batchAfter, found?, refused?, Entries.putAll]
    | broken breakdown => exact absurd ⟨breakdown, houtcome⟩ h

/-- A symbol that does not break down is entered, and the run goes on. -/
theorem outcome_fetchAll_cons {symbol : String} (h : ¬BreaksDown fetch symbol) (batch : Batch)
    (rest : List String) : (fetchAll fetch batch (symbol :: rest)).outcome =
      (fetchAll fetch (batchAfter fetch batch [symbol]) rest).outcome := by
  rw [fetchAll, enter_of_not_breaksDown h]

theorem outcome_fetchAll_of_breaksDown {symbol : String} (h : BreaksDown fetch symbol) (batch : Batch)
    (rest : List String) : ∃ breakdown,
      (fetchAll fetch batch (symbol :: rest)).outcome = .error (.broken breakdown) := by
  obtain ⟨breakdown, houtcome⟩ := h
  refine ⟨breakdown, ?_⟩
  rw [fetchAll, houtcome]
  rfl

/-- A run without a breakdown ends with a batch of everything that was fetched. -/
theorem outcome_fetchAll {symbols : List String} (h : ∀ symbol ∈ symbols, ¬BreaksDown fetch symbol)
    (batch : Batch) : (fetchAll fetch batch symbols).outcome = .ok (batchAfter fetch batch symbols) := by
  induction symbols generalizing batch with
  | nil => rfl
  | cons symbol rest ih =>
    obtain ⟨hsymbol, hrest⟩ := List.forall_mem_cons.mp h
    rw [outcome_fetchAll_cons hsymbol, ih hrest, ← batchAfter_cons]

theorem exists_outcome_fetchAll_iff (batch : Batch) (symbols : List String) :
    (∃ last, (fetchAll fetch batch symbols).outcome = .ok last) ↔
      ∀ symbol ∈ symbols, ¬BreaksDown fetch symbol := by
  constructor
  · induction symbols generalizing batch with
    | nil => exact fun _ => List.forall_mem_nil _
    | cons symbol rest ih =>
      rintro ⟨last, hlast⟩
      by_cases hsymbol : BreaksDown fetch symbol
      · -- the run ends here without a batch
        obtain ⟨breakdown, hbroken⟩ := outcome_fetchAll_of_breaksDown hsymbol batch rest
        rw [hbroken] at hlast
        contradiction
      · rw [outcome_fetchAll_cons hsymbol] at hlast
        exact List.forall_mem_cons.mpr ⟨hsymbol, ih _ ⟨last, hlast⟩⟩
  · exact fun h => ⟨_, outcome_fetchAll h batch⟩

theorem histories_of_ne_nil {symbols : List String} (h : symbols ≠ []) :
    histories fetch symbols = fetchAll fetch {} symbols := by
  rw [histories, if_neg (by simpa using h)]

/-! Symbols in a batch -/

variable {symbols : List String} {symbol : String}

theorem keepsName_found? : Entries.KeepsName (found? fetch) := by
  intro name entry h
  unfold found? at h
  split at h
  · cases h
    rfl
  · contradiction

theorem keepsName_refused? : Entries.KeepsName (refused? fetch) := by
  intro name entry h
  unfold refused? at h
  split at h
  · cases h
    rfl
  · contradiction

/-- A history that was fetched is in the batch under its symbol. -/
theorem get?_histories_batchAfter {history : History} (hmem : symbol ∈ symbols)
    (houtcome : (fetch symbol).outcome = .ok history) :
    Entries.get? symbol (batchAfter fetch {} symbols).histories = some history := by
  have hentry : found? fetch symbol = some (symbol, history) := by rw [found?, houtcome]
  have hget := Entries.get?_putAll_filterMap (@keepsName_found? fetch) hmem
  rw [hentry] at hget
  exact hget

/-- A message about a symbol is in the batch under the symbol. -/
theorem get?_failed_batchAfter {error : SourceError} (hmem : symbol ∈ symbols)
    (houtcome : (fetch symbol).outcome = .error (.reported error)) :
    Entries.get? symbol (batchAfter fetch {} symbols).failed = some error.message := by
  have hentry : refused? fetch symbol = some (symbol, error.message) := by rw [refused?, houtcome]
  have hget := Entries.get?_putAll_filterMap (@keepsName_refused? fetch) hmem
  rw [hentry] at hget
  exact hget

end Bourse.Source
