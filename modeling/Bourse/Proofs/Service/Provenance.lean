import Bourse.Proofs.Service.Requests

/-! Where cached quotes come from. Along every run of requests, clearings and changes of the service
the cache holds for each symbol what its last successful fetch since the last clearing gave, with
the clock reading of that fetch, whichever way the clock goes. -/
namespace Bourse

/-- The cache of a source of quotes, and the service that is behind it at present, if there is
one. -/
structure QuoteSource where
  cache : QuoteCache
  service? : Option (String → Except String Quote)

namespace QuoteSource

open QuoteCache

/-- What happens to a source of quotes. -/
inductive Step where
  /-- A request at a clock reading. -/
  | get (now : Moment) (symbols : List String)
  | clear
  /-- From now on the service gives other answers, or is absent. -/
  | change (service? : Option (String → Except String Quote))

/-- The source after a step. -/
def step (source : QuoteSource) : Step → QuoteSource
  | .get now symbols => { source with cache := (source.cache.request source.service? now symbols).1 }
  | .clear => { source with cache := source.cache.clear }
  | .change service? => { source with service? }

/-- The source after some steps. -/
def run (source : QuoteSource) (steps : List Step) : QuoteSource := steps.foldl step source

/-- What bears on the cache. -/
inductive Event where
  /-- A fetch of a symbol at a clock reading, and what the service answered. -/
  | fetched (symbol : String) (time : Moment) (outcome : Except String Quote)
  | cleared

/-- The fetches that an answer reports. -/
def fetches (service : String → Except String Quote) (now : Moment) (answer : QuoteAnswer) :
    List Event :=
  answer.fetched.map fun symbol => .fetched symbol now (service symbol)

/-- What happens in a step. -/
def events (source : QuoteSource) : Step → List Event
  | .get now symbols =>
    match source.service? with
    | none => []
    | some service => fetches service now (source.cache.get service now symbols).2
  | .clear => [.cleared]
  | .change _ => []

/-- What happens in some steps, oldest first. -/
def history (source : QuoteSource) : List Step → List Event
  | [] => []
  | first :: rest => source.events first ++ (source.step first).history rest

/-! The last successful fetch -/

/-- Whether nothing that happened before an event counts for a symbol any more. -/
def Event.Supersedes (symbol : String) : Event → Prop
  | .fetched other _ (.ok _) => other = symbol
  | .fetched _ _ (.error _) => False
  | .cleared => True

/-- Whether a quote and a clock reading are those of the last successful fetch of a symbol since the
last clearing. -/
def LastFetch (symbol : String) (past : List Event) (cached : CachedQuote) : Prop :=
  ∃ earlier later, past = earlier ++ .fetched symbol cached.time (.ok cached.quote) :: later ∧
    ∀ event ∈ later, ¬event.Supersedes symbol

theorem lastFetch_concat {symbol : String} {past : List Event} {event : Event}
    {cached : CachedQuote} :
    LastFetch symbol (past ++ [event]) cached ↔
      event = .fetched symbol cached.time (.ok cached.quote) ∨
      ¬event.Supersedes symbol ∧ LastFetch symbol past cached := by
  constructor
  · rintro ⟨earlier, later, heq, hlater⟩
    rcases List.eq_nil_or_concat later with rfl | ⟨middle, last, rfl⟩
    · -- the fetch itself is the last event
      left
      obtain ⟨-, hlast⟩ := List.append_inj' heq rfl
      exact List.head_eq_of_cons_eq hlast
    · right
      rw [List.concat_eq_append, ← List.cons_append, ← List.append_assoc] at heq
      obtain ⟨hpast, hlast⟩ := List.append_inj' heq rfl
      cases hlast
      rw [List.concat_eq_append, List.forall_mem_append] at hlater
      exact ⟨hlater.2 event (List.mem_singleton_self event), earlier, middle, hpast, hlater.1⟩
  · rintro (rfl | ⟨hevent, earlier, later, rfl, hlater⟩)
    · exact ⟨past, [], rfl, List.forall_mem_nil _⟩
    · refine ⟨earlier, later ++ [event], List.append_assoc _ _ _, ?_⟩
      exact List.forall_mem_append.mpr ⟨hlater, List.forall_mem_singleton.mpr hevent⟩

/-! The invariant -/

/-- Whether a cache holds the last successful fetches of what has happened, and nothing else. -/
def Agrees (cache : QuoteCache) (past : List Event) : Prop :=
  ∀ symbol cached, cache.held? symbol = some cached ↔ LastFetch symbol past cached

variable {cache : QuoteCache} {past : List Event}

theorem Agrees.append_nil (h : Agrees cache past) : Agrees cache (past ++ []) := by
  rw [List.append_nil]
  exact h

theorem Agrees.store (h : Agrees cache past) (now : Moment) (symbol : String) (quote : Quote) :
    Agrees (cache.store now symbol quote) (past ++ [.fetched symbol now (.ok quote)]) := by
  intro other cached
  rw [held?_store, lastFetch_concat]
  split_ifs with hsymbol
  · constructor
    · intro heq
      cases heq
      exact .inl (congrArg (Event.fetched · now (.ok quote)) hsymbol)
    · rintro (hevent | ⟨hevent, -⟩)
      · cases hevent
        rfl
      · exact absurd hsymbol hevent
  · rw [h other cached]
    constructor
    · exact fun hlast => .inr ⟨hsymbol, hlast⟩
    · rintro (hevent | ⟨-, hlast⟩)
      · cases hevent
        exact absurd rfl hsymbol
      · exact hlast

theorem Agrees.failed (h : Agrees cache past) (now : Moment) (symbol text : String) :
    Agrees cache (past ++ [.fetched symbol now (.error text)]) := by
  intro other cached
  rw [h other cached, lastFetch_concat]
  constructor
  · exact fun hlast => .inr ⟨id, hlast⟩
  · rintro (hevent | ⟨-, hlast⟩)
    · cases hevent
    · exact hlast

theorem agrees_clear (cache : QuoteCache) (past : List Event) :
    Agrees cache.clear (past ++ [.cleared]) := by
  intro symbol cached
  rw [held?_clear, lastFetch_concat]
  constructor
  · exact nofun
  · rintro (hevent | ⟨hevent, -⟩)
    · cases hevent
    · exact absurd trivial hevent

theorem agrees_empty (lifetime : Float) : Agrees { lifetime } [] := by
  intro symbol cached
  constructor
  · intro h
    contradiction
  · rintro ⟨earlier, later, hnil, -⟩
    exact absurd hnil.symm (List.append_ne_nil_of_right_ne_nil earlier (List.cons_ne_nil _ later))

variable {service : String → Except String Quote} {now : Moment}

theorem fetches_append (a b : QuoteAnswer) :
    fetches service now (a ++ b) = fetches service now a ++ fetches service now b :=
  List.map_append

theorem Agrees.occurrence (h : Agrees cache past) {symbol : String}
    {own : QuoteCache × QuoteAnswer} (hown : Occurrence service now cache symbol own) :
    Agrees own.1 (past ++ fetches service now own.2) := by
  cases hown with
  | kept hcached hyoung => exact h.append_nil
  | fetched hold hservice =>
    rw [fetches, List.map_singleton, hservice]
    exact h.store now symbol _
  | failed hold hservice =>
    rw [fetches, List.map_singleton, hservice]
    exact h.failed now symbol _

/-- A request keeps the cache in agreement with what has happened, symbol by symbol. -/
theorem Agrees.get (h : Agrees cache past) (symbols : List String) :
    Agrees (cache.get service now symbols).1
      (past ++ fetches service now (cache.get service now symbols).2) := by
  -- over the symbols, from any cache on that agrees with what has happened before it
  induction symbols generalizing cache past with
  | nil => exact h.append_nil
  | cons name rest ih =>
    have hown := h.occurrence (QuoteCache.occurrence service now cache name)
    rw [get_cons, fetches_append, ← List.append_assoc]
    exact ih hown

theorem Agrees.step {source : QuoteSource} (h : Agrees source.cache past) (next : Step) :
    Agrees (source.step next).cache (past ++ source.events next) := by
  cases next with
  | get now symbols =>
    obtain ⟨cache, service?⟩ := source
    cases service? with
    | none =>
      -- without the service a request ends before the cache is touched
      exact h.append_nil
    | some service => exact h.get symbols
  | clear => exact agrees_clear source.cache past
  | change service? => exact h.append_nil

/-- Along every run the cache holds the last successful fetches. -/
theorem Agrees.run {source : QuoteSource} (h : Agrees source.cache past) (steps : List Step) :
    Agrees (source.run steps).cache (past ++ source.history steps) := by
  induction steps generalizing source past with
  | nil => exact h.append_nil
  | cons next rest ih =>
    have hrest := ih (h.step next)
    rw [List.append_assoc] at hrest
    exact hrest

theorem lifetime_step (source : QuoteSource) (next : Step) :
    (source.step next).cache.lifetime = source.cache.lifetime := by
  cases next with
  | get now symbols =>
    obtain ⟨cache, service?⟩ := source
    cases service? with
    | none => rfl
    | some service => exact lifetime_get service now cache symbols
  | clear => rfl
  | change service? => rfl

theorem lifetime_run (source : QuoteSource) (steps : List Step) :
    (source.run steps).cache.lifetime = source.cache.lifetime := by
  induction steps generalizing source with
  | nil => rfl
  | cons next rest ih => exact (ih (source.step next)).trans (lifetime_step source next)

/-! Occurrences of symbols -/

/-- Where the answer for an occurrence of a symbol, in upper case, comes from. The occurrence meets
the cache `here` after what happened in the past, leaves the first part of `own` behind and adds the
second part to the answer. -/
structure HasProvenance (lifetime : Float) (service : String → Except String Quote) (now : Moment)
    (past : List Event) (here : QuoteCache) (symbol : String) (own : QuoteCache × QuoteAnswer) :
    Prop where
  fetched_once : own.2.fetched = [symbol] ∨ own.2.fetched = []
  fetched_iff : own.2.fetched = [symbol] ↔
    ¬∃ cached, here.held? symbol = some cached ∧ secondsBetween cached.time now < lifetime
  /-- A quote is the one of the last successful fetch, which is young or was made just now. -/
  quotes : ∀ quote ∈ own.2.quotes, ∃ time,
    LastFetch symbol (past ++ fetches service now own.2) ⟨time, quote⟩ ∧
      (secondsBetween time now < lifetime ∨ time = now ∧ own.2.fetched = [symbol])
  /-- There is no quote only where a fetch failed. -/
  no_quote_iff : own.2.quotes = [] ↔
    own.2.fetched = [symbol] ∧ ∃ text, service symbol = .error text
  failed : ∀ text, service symbol = .error text → own.1 = here

theorem Agrees.hasProvenance {here : QuoteCache} (h : Agrees here past) {symbol : String}
    {own : QuoteCache × QuoteAnswer} (hown : Occurrence service now here symbol own) :
    HasProvenance here.lifetime service now past here symbol own := by
  have hafter := h.occurrence hown
  cases hown with
  | @kept cached hcached hyoung =>
    refine ⟨.inr rfl, iff_of_false (List.cons_ne_nil _ _).symm (not_not.mpr ⟨cached, hcached, hyoung⟩),
      ?_, iff_of_false (List.cons_ne_nil _ _) fun hnone => List.cons_ne_nil _ _ hnone.1.symm,
      fun _ _ => rfl⟩
    intro quote hquote
    cases List.mem_singleton.mp hquote
    exact ⟨cached.time, (hafter symbol cached).mp hcached, .inl hyoung⟩
  | @fetched quote hold hservice =>
    have hnone : ¬∃ cached, here.held? symbol = some cached ∧
        secondsBetween cached.time now < here.lifetime :=
      fun ⟨cached, hcached, hyoung⟩ => hold cached hcached hyoung
    refine ⟨.inl rfl, iff_of_true rfl hnone, ?_, ?_, ?_⟩
    · intro other hother
      cases List.mem_singleton.mp hother
      have hentry : (here.store now symbol quote).held? symbol = some ⟨now, quote⟩ := by
        rw [held?_store, if_pos rfl]
      exact ⟨now, (hafter symbol ⟨now, quote⟩).mp hentry, .inr ⟨rfl, rfl⟩⟩
    · refine iff_of_false (List.cons_ne_nil _ _) ?_
      rintro ⟨-, text, htext⟩
      rw [hservice] at htext
      contradiction
    · intro text htext
      rw [hservice] at htext
      contradiction
  | @failed text hold hservice =>
    have hnone : ¬∃ cached, here.held? symbol = some cached ∧
        secondsBetween cached.time now < here.lifetime :=
      fun ⟨cached, hcached, hyoung⟩ => hold cached hcached hyoung
    exact ⟨.inl rfl, iff_of_true rfl hnone, List.forall_mem_nil _,
      iff_of_true rfl ⟨rfl, text, hservice⟩, fun _ _ => rfl⟩

theorem run_append (source : QuoteSource) (steps more : List Step) :
    source.run (steps ++ more) = (source.run steps).run more := List.foldl_append

/-- Where cached quotes come from. Along every run, with any clock readings and any lifetime, the
cache holds for each symbol its last successful fetch since the last clearing. Without the service a
request is refused and leaves the cache alone. With it a request is answered symbol by symbol, each
occurrence from where the ones before it leave the cache. -/
theorem quotes_have_provenance (lifetime : Float)
    (service? : Option (String → Except String Quote)) (steps : List Step) :
    let start : QuoteSource := ⟨{ lifetime }, service?⟩
    let source := start.run steps
    (∀ symbol cached, source.cache.held? symbol = some cached ↔
      LastFetch symbol (start.history steps) cached) ∧
    (source.service? = none → ∀ now symbols, source.cache.request source.service? now symbols =
      (source.cache, .error .serviceAbsent)) ∧
    (∀ service, source.service? = some service → ∀ now before name after,
      let first := source.cache.get service now before
      let own := first.1.get service now [name]
      let rest := own.1.get service now after
      source.cache.request source.service? now (before ++ name :: after) =
        (rest.1, .ok (first.2 ++ (own.2 ++ rest.2))) ∧
      HasProvenance lifetime service now (start.history (steps ++ [.get now before])) first.1
        (Text.upper name) own) := by
  intro start source
  have hstart : Agrees start.cache [] := agrees_empty lifetime
  refine ⟨hstart.run steps, ?_, ?_⟩
  · intro habsent now symbols
    rw [habsent]
    rfl
  · intro service hservice now before name after first own rest
    -- the occurrence meets the cache of a run that ends with the symbols before it
    have hhere : (start.run (steps ++ [.get now before])).cache = first.1 := by
      rw [run_append]
      exact congrArg (fun service? => (source.cache.request service? now before).1) hservice
    constructor
    · rw [hservice, request, get_append, get_cons]
    · have hagrees := hstart.run (steps ++ [.get now before])
      have hlifetime : (start.run (steps ++ [.get now before])).cache.lifetime = lifetime :=
        lifetime_run start _
      rw [hhere] at hagrees hlifetime
      rw [← hlifetime]
      exact hagrees.hasProvenance (QuoteCache.occurrence service now first.1 name)

/-- A service with one quote. -/
def oneQuote (symbol : String) : Except String Quote :=
  if symbol = "KO" then .ok { symbol } else .error "gone"

/-- A cache of a minute answers with the quote of half a minute ago, and still asks for a symbol
that failed then, which leaves it as it was. -/
theorem quote_of_half_a_minute_ago :
    let start : QuoteSource := ⟨{ lifetime := 60 }, some oneQuote⟩
    let kept := (start.run [.get ⟨0, none⟩ ["ko", "t"]]).cache
    let later : Moment := ⟨30000000, none⟩
    (kept.get oneQuote later ["ko"]).2.fetched = [] ∧
    LastFetch "KO" (start.history [.get ⟨0, none⟩ ["ko", "t"]]) ⟨⟨0, none⟩, { symbol := "KO" }⟩ ∧
    (kept.get oneQuote later ["t"]).2.fetched = ["T"] ∧
    (kept.get oneQuote later ["t"]).1 = kept := by
  intro start kept later
  obtain ⟨hcache, -, hoccurrence⟩ :=
    quotes_have_provenance 60 (some oneQuote) [.get ⟨0, none⟩ ["ko", "t"]]
  obtain ⟨-, hfailed⟩ := hoccurrence oneQuote rfl later [] "t" []
  have hentry : kept.held? "KO" = some ⟨⟨0, none⟩, { symbol := "KO" }⟩ := by rfl
  have hupper : oneQuote (Text.upper "t") = .error "gone" := by rfl
  exact ⟨by decide +kernel, (hcache "KO" _).mp hentry, by decide +kernel,
    hfailed.failed "gone" hupper⟩

end QuoteSource

end Bourse
