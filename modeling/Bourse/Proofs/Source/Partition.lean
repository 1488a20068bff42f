import Bourse.Proofs.Source.Batch
import Mathlib.Data.Finset.Card
import Mathlib.Data.Finset.Dedup

/-! A request for several symbols is parted into those that were found and those that failed. Each
part names its symbols in the order in which they were first asked for, and what it says of a symbol
is what fetching the symbol alone says of it. -/
namespace Bourse

namespace Batch

/-- The symbols that were found. -/
def foundSymbols (batch : Batch) : List String := batch.histories.map (·.1)

/-- The symbols that failed. -/
def failedSymbols (batch : Batch) : List String := batch.failed.map (·.1)

/-- Whether two batches say the same of a symbol. -/
def AgreeOn (symbol : String) (batch other : Batch) : Prop :=
  Entries.get? symbol batch.histories = Entries.get? symbol other.histories ∧
    Entries.get? symbol batch.failed = Entries.get? symbol other.failed

end Batch

namespace Source

/-- Whether fetching a symbol fails with a message. -/
def IsRefused (fetch : String → Fetched History) (symbol : String) : Prop :=
  ∃ error, (fetch symbol).outcome = .error (.reported error)

/-- Whether some symbols come one after another in the order of a request. -/
def InOrderOf (symbols : List String) (part : List String) : Prop :=
  part.Pairwise fun first second => symbols.idxOf first < symbols.idxOf second

/-- Whether a batch is a request for some symbols, parted by what fetching each of them gives. -/
structure Parts (fetch : String → Fetched History) (symbols : List String) (batch : Batch) :
    Prop where
  /-- A symbol is in one of the parts and not in both. -/
  one : ∀ symbol ∈ symbols, Xor (symbol ∈ batch.foundSymbols) (symbol ∈ batch.failedSymbols)
  /-- Nothing else is in the parts. -/
  only : ∀ symbol, symbol ∈ batch.foundSymbols ∨ symbol ∈ batch.failedSymbols → symbol ∈ symbols
  foundOrder : InOrderOf symbols batch.foundSymbols
  failedOrder : InOrderOf symbols batch.failedSymbols
  history : ∀ entry ∈ batch.histories, (fetch entry.1).outcome = .ok entry.2
  message : ∀ entry ∈ batch.failed, ∃ error,
    (fetch entry.1).outcome = .error (.reported error) ∧ error.message = entry.2

variable {fetch : String → Fetched History} {symbols : List String} {symbol : String} {batch : Batch}

theorem InOrderOf.nodup {part : List String} (h : InOrderOf symbols part) : part.Nodup := by
  apply h.imp
  intro first second hlt hsame
  rw [hsame] at hlt
  exact Nat.lt_irrefl _ hlt

namespace Parts

theorem symbols_eq (h : Parts fetch symbols batch) :
    (batch.foundSymbols ++ batch.failedSymbols).toFinset = symbols.toFinset := by
  ext symbol
  rw [List.mem_toFinset, List.mem_toFinset, List.mem_append]
  constructor
  · exact h.only symbol
  · exact fun hmem => (h.one symbol hmem).or

theorem nodup (h : Parts fetch symbols batch) :
    (batch.foundSymbols ++ batch.failedSymbols).Nodup := by
  refine List.nodup_append'.mpr ⟨h.foundOrder.nodup, h.failedOrder.nodup, ?_⟩
  intro symbol hfound hfailed
  rcases h.one symbol (h.only symbol (.inl hfound)) with ⟨-, hnot⟩ | ⟨-, hnot⟩
  · exact hnot hfailed
  · exact hnot hfound

/-- The parts have as many entries as there are symbols, however often each is asked for. -/
theorem length_add_length (h : Parts fetch symbols batch) :
    batch.histories.length + batch.failed.length = symbols.toFinset.card :=
  calc batch.histories.length + batch.failed.length
      = (batch.foundSymbols ++ batch.failedSymbols).length := by
        rw [List.length_append, Batch.foundSymbols, Batch.failedSymbols, List.length_map,
          List.length_map]
    _ = (batch.foundSymbols ++ batch.failedSymbols).toFinset.card :=
        (List.toFinset_card_of_nodup h.nodup).symm
    _ = symbols.toFinset.card := by rw [h.symbols_eq]

/-- There are failures exactly if some symbol is refused. -/
theorem failed_ne_nil_iff (h : Parts fetch symbols batch) :
    batch.failed ≠ [] ↔ ∃ symbol ∈ symbols, IsRefused fetch symbol := by
  constructor
  · intro hfailed
    obtain ⟨entry, hentry⟩ := List.exists_mem_of_ne_nil _ hfailed
    obtain ⟨error, herror, -⟩ := h.message entry hentry
    exact ⟨entry.1, h.only entry.1 (.inr (List.mem_map_of_mem hentry)), error, herror⟩
  · rintro ⟨symbol, hmem, error, herror⟩ hnil
    -- a symbol that is refused has no history, and there is no failure that it could be in
    rcases h.one symbol hmem with ⟨hfound, -⟩ | ⟨hfailed, -⟩
    · obtain ⟨entry, hentry, rfl⟩ := List.mem_map.mp hfound
      rw [h.history entry hentry] at herror
      contradiction
    · rw [Batch.failedSymbols, hnil] at hfailed
      contradiction

end Parts

/-! The batch of a run -/

theorem mem_foundSymbols_batchAfter :
    symbol ∈ (batchAfter fetch {} symbols).foundSymbols ↔
      symbol ∈ symbols ∧ (found? fetch symbol).isSome :=
  Entries.mem_map_fst_putAll_filterMap keepsName_found?

theorem mem_failedSymbols_batchAfter :
    symbol ∈ (batchAfter fetch {} symbols).failedSymbols ↔
      symbol ∈ symbols ∧ (refused? fetch symbol).isSome :=
  Entries.mem_map_fst_putAll_filterMap keepsName_refused?

/-- A symbol that does not break down is found or refused. -/
theorem xor_found_refused (h : ¬BreaksDown fetch symbol) :
    Xor ((found? fetch symbol).isSome = true) ((refused? fetch symbol).isSome = true) := by
  cases houtcome : (fetch symbol).outcome with
  | ok history => exact .inl (by simp [found?, refused?, houtcome])
  | error failure =>
    cases failure with
    | reported error => exact .inr (by simp [found?, refused?, houtcome])
    | broken breakdown => exact absurd ⟨breakdown, houtcome⟩ h

theorem parts_batchAfter (h : ∀ symbol ∈ symbols, ¬BreaksDown fetch symbol) :
    Parts fetch symbols (batchAfter fetch {} symbols) where
  one symbol hmem := by
    rw [mem_foundSymbols_batchAfter, mem_failedSymbols_batchAfter, and_iff_right hmem,
      and_iff_right hmem]
    exact xor_found_refused (h symbol hmem)
  only symbol hpart := by
    rw [mem_foundSymbols_batchAfter, mem_failedSymbols_batchAfter] at hpart
    exact hpart.elim And.left And.left
  foundOrder := by
    rw [InOrderOf, Batch.foundSymbols, batchAfter,
      Entries.map_fst_putAll_filterMap keepsName_found?]
    exact Entries.pairwise_idxOf_eraseDups_filter _ symbols
  failedOrder := by
    rw [InOrderOf, Batch.failedSymbols, batchAfter,
      Entries.map_fst_putAll_filterMap keepsName_refused?]
    exact Entries.pairwise_idxOf_eraseDups_filter _ symbols
  history entry hentry := by
    have hfound := Entries.mem_putAll_filterMap keepsName_found? hentry
    unfold found? at hfound
    split at hfound
    · next houtcome =>
      rw [houtcome, ← Option.some.inj hfound]
    · contradiction
  message entry hentry := by
    have hrefused := Entries.mem_putAll_filterMap keepsName_refused? hentry
    unfold refused? at hrefused
    split at hrefused
    · next error houtcome =>
      exact ⟨error, houtcome, by rw [← Option.some.inj hrefused]⟩
    · contradiction

/-- What a run says of a symbol does not depend on the other symbols of the request. -/
theorem agreeOn_batchAfter (hmem : symbol ∈ symbols) :
    (batchAfter fetch {} symbols).AgreeOn symbol (batchAfter fetch {} [symbol]) := by
  have halone : symbol ∈ [symbol] := List.mem_singleton_self symbol
  constructor
  · exact (Entries.get?_putAll_filterMap keepsName_found? hmem).trans
      (Entries.get?_putAll_filterMap keepsName_found? halone).symm
  · exact (Entries.get?_putAll_filterMap keepsName_refused? hmem).trans
      (Entries.get?_putAll_filterMap keepsName_refused? halone).symm

end Source

end Bourse
