import Bourse.Proofs.Service.Provenance

/-! A cache that nobody notices. As long as the service gives one answer for each symbol, every entry
is what a fetch would give at any later time, so a request is answered as if each of its symbols were
fetched, whatever the clock reads and however long entries are used. -/
namespace Bourse

namespace QuoteCache

variable {service : String → Except String Quote} {now : Moment} {cache : QuoteCache}

/-- Whether every entry is what the service answers for its symbol. -/
def IsCurrent (service : String → Except String Quote) (cache : QuoteCache) : Prop :=
  ∀ symbol cached, cache.held? symbol = some cached → service symbol = .ok cached.quote

/-- The quotes of symbols that are all fetched; a symbol that fails is left out. -/
def fetchEach (service : String → Except String Quote) (symbols : List String) : List Quote :=
  symbols.filterMap fun name => (service (Text.upper name)).toOption

/-- Answers a request by fetching every symbol, unless the service is absent. -/
def requestEach (service? : Option (String → Except String Quote)) (symbols : List String) :
    Except SourceError (List Quote) :=
  match service? with
  | none => .error .serviceAbsent
  | some service => .ok (fetchEach service symbols)

theorem fetchEach_cons (service : String → Except String Quote) (name : String)
    (rest : List String) : fetchEach service (name :: rest) =
      (service (Text.upper name)).toOption.toList ++ fetchEach service rest := by
  rw [fetchEach, fetchEach, List.filterMap_cons]
  cases service (Text.upper name) <;> rfl

theorem isCurrent_of_no_entry (h : ∀ symbol, cache.held? symbol = none) :
    IsCurrent service cache := by
  intro symbol cached hcached
  rw [h symbol] at hcached
  contradiction

theorem IsCurrent.store (h : IsCurrent service cache) {symbol : String} {quote : Quote}
    (hservice : service symbol = .ok quote) :
    IsCurrent service (cache.store now symbol quote) := by
  intro other cached hcached
  rw [held?_store] at hcached
  split_ifs at hcached with hsymbol
  · -- the entry that was just stored
    cases hcached
    rw [← hsymbol]
    exact hservice
  · exact h other cached hcached

theorem IsCurrent.occurrence (h : IsCurrent service cache) {symbol : String}
    {own : QuoteCache × QuoteAnswer} (hown : Occurrence service now cache symbol own) :
    IsCurrent service own.1 ∧ own.2.quotes = (service symbol).toOption.toList := by
  cases hown with
  | kept hcached hyoung =>
    have hservice := h symbol _ hcached
    refine ⟨h, ?_⟩
    rw [hservice]
    rfl
  | fetched hold hservice =>
    refine ⟨h.store hservice, ?_⟩
    rw [hservice]
    rfl
  | failed hold hservice =>
    refine ⟨h, ?_⟩
    rw [hservice]
    rfl

/-- A request keeps entries current and is answered as if every symbol were fetched. -/
theorem IsCurrent.get (h : IsCurrent service cache) (symbols : List String) :
    IsCurrent service (cache.get service now symbols).1 ∧
      (cache.get service now symbols).2.quotes = fetchEach service symbols := by
  -- over the symbols: those that follow meet the cache that the first one leaves
  induction symbols generalizing cache with
  | nil => exact ⟨h, rfl⟩
  | cons name rest ih =>
    obtain ⟨hfirst, hquotes⟩ := h.occurrence (QuoteCache.occurrence service now cache name)
    obtain ⟨hrest, hmore⟩ := ih hfirst
    rw [get_cons]
    refine ⟨hrest, ?_⟩
    calc (cache.get service now [name]).2.quotes ++
          ((cache.get service now [name]).1.get service now rest).2.quotes
        = (service (Text.upper name)).toOption.toList ++ fetchEach service rest := by
          rw [hquotes, hmore]
      _ = fetchEach service (name :: rest) := (fetchEach_cons service name rest).symm

end QuoteCache

namespace QuoteSource

open QuoteCache

/-- What the requests of some steps are answered with, in order. -/
def answers (source : QuoteSource) : List Step → List (Except SourceError (List Quote))
  | [] => []
  | .get now symbols :: rest =>
    (source.cache.request source.service? now symbols).2.map (·.quotes) ::
      (source.step (.get now symbols)).answers rest
  | next :: rest => (source.step next).answers rest

/-- What the requests of some steps are answered with where no cache is kept. -/
def answersWithoutCache (service? : Option (String → Except String Quote)) :
    List Step → List (Except SourceError (List Quote))
  | [] => []
  | .get _ symbols :: rest =>
    requestEach service? symbols :: answersWithoutCache service? rest
  | .clear :: rest => answersWithoutCache service? rest
  | .change service? :: rest => answersWithoutCache service? rest

/-- Whether a step leaves the answers of a service as they are. The service may go and come back. -/
def Step.Keeps (service : String → Except String Quote) (next : Step) : Prop :=
  ∀ other, next = .change (some other) → other = service

/-- Whether a source has nothing but the answers of one service, in its cache and behind it. -/
structure ServedBy (service : String → Except String Quote) (source : QuoteSource) : Prop where
  current : IsCurrent service source.cache
  behind : ∀ other, source.service? = some other → other = service

variable {service : String → Except String Quote} {source : QuoteSource}

theorem ServedBy.step (h : ServedBy service source) {next : Step} (hkeeps : next.Keeps service) :
    ServedBy service (source.step next) := by
  obtain ⟨cache, service?⟩ := source
  cases next with
  | get now symbols =>
    refine ⟨?_, h.behind⟩
    cases service? with
    | none => exact h.current
    | some other =>
      obtain rfl := h.behind other rfl
      exact (h.current.get symbols).1
  | clear => exact ⟨isCurrent_of_no_entry (held?_clear cache), h.behind⟩
  | change service? =>
    refine ⟨h.current, ?_⟩
    rintro other rfl
    exact hkeeps other rfl

/-- From any source with nothing but the answers of one service on, the cache makes no difference. -/
theorem ServedBy.answers_eq (h : ServedBy service source) {steps : List Step}
    (hkeeps : ∀ next ∈ steps, next.Keeps service) :
    source.answers steps = answersWithoutCache source.service? steps := by
  -- along the steps: each one leaves a source of the same kind
  induction steps generalizing source with
  | nil => rfl
  | cons next rest ih =>
    obtain ⟨hnext, hrest⟩ := List.forall_mem_cons.mp hkeeps
    have htail := ih (h.step hnext) hrest
    cases next with
    | get now symbols =>
      obtain ⟨cache, service?⟩ := source
      rw [answers, answersWithoutCache, htail]
      refine congrArg (· :: _) ?_
      cases service? with
      | none => rfl
      | some other =>
        obtain rfl := h.behind other rfl
        exact congrArg Except.ok (h.current.get symbols).2
    | clear => exact htail
    | change service? => exact htail

/-- The cache is transparent. On a fresh source, along every run in which the answers of the service
do not change, with any clock readings and any lifetime, every request is answered as by a source
that keeps no cache and fetches every symbol every time. -/
theorem cache_is_transparent (lifetime : Float) (service : String → Except String Quote)
    (steps : List Step) (hkeeps : ∀ next ∈ steps, next.Keeps service) :
    (⟨{ lifetime }, some service⟩ : QuoteSource).answers steps =
      answersWithoutCache (some service) steps := by
  have hstart : ServedBy service ⟨{ lifetime }, some service⟩ := by
    refine ⟨isCurrent_of_no_entry fun symbol => rfl, ?_⟩
    intro other hother
    exact (Option.some.inj hother).symm
  exact hstart.answers_eq hkeeps

/-- Repeated symbols, one that fails, a clock that goes back, a clearing and a service that is away
for a while. -/
theorem answers_of_interrupted_service :
    let steps : List Step := [.get ⟨30000000, none⟩ ["ko", "t", "KO"], .change none,
      .get ⟨40000000, none⟩ ["ko"], .change (some oneQuote), .get ⟨0, none⟩ ["Ko"], .clear,
      .get ⟨0, none⟩ ["t", "ko"]]
    (∀ next ∈ steps, next.Keeps oneQuote) ∧
    (⟨{ lifetime := 60 }, some oneQuote⟩ : QuoteSource).answers steps =
      [.ok [{ symbol := "KO" }, { symbol := "KO" }], .error .serviceAbsent,
        .ok [{ symbol := "KO" }], .ok [{ symbol := "KO" }]] := by
  intro steps
  have hkeeps : ∀ next ∈ steps, next.Keeps oneQuote := by
    intro next hnext other hother
    rw [hother] at hnext
    simpa [steps] using hnext
  exact ⟨hkeeps, (cache_is_transparent 60 oneQuote steps hkeeps).trans rfl⟩

end QuoteSource

end Bourse
