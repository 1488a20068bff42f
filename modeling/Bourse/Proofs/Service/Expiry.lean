import Bourse.Proofs.Number.Sign
import Bourse.Proofs.Service.Transparency

/-! A cache with a lifetime of zero. The age of an entry is never below zero as long as the clock
goes forward, so every request is answered afresh. Where the clock was set back, an entry from a later
reading still counts as young. -/
namespace Bourse

namespace QuoteCache

variable {service : String → Except String Quote} {now : Moment} {cache : QuoteCache}

/-- Whether an answer is that of a source without a cache: every symbol is fetched, in the order of
the request, and the quotes are those that the service has at present. -/
structure IsAfresh (service : String → Except String Quote) (symbols : List String)
    (answer : QuoteAnswer) : Prop where
  fetched : answer.fetched = symbols.map Text.upper
  quotes : answer.quotes = fetchEach service symbols

/-- Whether the entry of a symbol is from a later clock reading. -/
def IsAhead (cache : QuoteCache) (now : Moment) (symbol : String) : Prop :=
  ∃ cached, cache.held? symbol = some cached ∧ now.instant < cached.time.instant

theorem secondsBetween_lt_zero_iff (earlier later : Moment) :
    secondsBetween earlier later < 0 ↔ later.instant < earlier.instant := by
  have hsecond : 0 < Moment.second := by decide
  have hmillion : Moment.second ≤ 1000000 := by decide
  rw [secondsBetween, Binary64.nearest_lt_zero_iff _ hsecond hmillion, decide_eq_true_iff]
  omega

theorem isYoung_iff (hlifetime : cache.lifetime = 0) (cached : CachedQuote) :
    cache.IsYoung now cached ↔ now.instant < cached.time.instant := by
  rw [IsYoung, hlifetime]
  exact secondsBetween_lt_zero_iff cached.time now

/-! One symbol -/

variable {symbol : String} {own : QuoteCache × QuoteAnswer}

theorem Occurrence.fetched_of_isAhead (hown : Occurrence service now cache symbol own)
    (hlifetime : cache.lifetime = 0) (hahead : cache.IsAhead now symbol) : own.2.fetched = [] := by
  obtain ⟨cached, hcached, hlater⟩ := hahead
  have hyoung := (isYoung_iff hlifetime cached).mpr hlater
  cases hown with
  | kept => rfl
  | fetched hold hservice => exact absurd hyoung (hold cached hcached)
  | failed hold hservice => exact absurd hyoung (hold cached hcached)

/-- An entry that is not from a later clock reading is not used. -/
theorem Occurrence.of_not_isAhead (hown : Occurrence service now cache symbol own)
    (hlifetime : cache.lifetime = 0) (hahead : ¬cache.IsAhead now symbol) :
    own.2.fetched = [symbol] ∧ own.2.quotes = (service symbol).toOption.toList := by
  cases hown with
  | kept hcached hyoung =>
    exact absurd ⟨_, hcached, (isYoung_iff hlifetime _).mp hyoung⟩ hahead
  | fetched hold hservice =>
    rw [hservice]
    exact ⟨rfl, rfl⟩
  | failed hold hservice =>
    rw [hservice]
    exact ⟨rfl, rfl⟩

theorem isAhead_store_iff (hahead : ¬cache.IsAhead now symbol) (quote : Quote) (other : String) :
    (cache.store now symbol quote).IsAhead now other ↔ cache.IsAhead now other := by
  unfold IsAhead
  rw [held?_store]
  split_ifs with hother
  · -- what is stored is from the reading itself
    subst hother
    apply iff_of_false _ hahead
    intro h
    obtain ⟨cached, hcached, hlater⟩ := h
    obtain rfl := Option.some.inj hcached
    exact lt_irrefl _ hlater
  · exact Iff.rfl

/-- An occurrence of a symbol puts nothing ahead of the clock. -/
theorem Occurrence.isAhead_iff (hown : Occurrence service now cache symbol own)
    (hahead : ¬cache.IsAhead now symbol) (other : String) :
    own.1.IsAhead now other ↔ cache.IsAhead now other := by
  cases hown with
  | kept hcached hyoung => exact Iff.rfl
  | fetched hold hservice => exact isAhead_store_iff hahead _ other
  | failed hold hservice => exact Iff.rfl

/-! A request -/

theorem length_fetched_le (service : String → Except String Quote) (now : Moment)
    (cache : QuoteCache) (symbols : List String) :
    (cache.get service now symbols).2.fetched.length ≤ symbols.length := by
  induction symbols generalizing cache with
  | nil => exact Nat.le_refl 0
  | cons name rest ih =>
    have hown := occurrence service now cache name
    have hrest := ih (cache.get service now [name]).1
    have hfirst : (cache.get service now [name]).2.fetched.length ≤ 1 := by
      generalize cache.get service now [name] = own at hown
      cases hown with
      | kept => exact Nat.zero_le 1
      | fetched => exact Nat.le_refl 1
      | failed => exact Nat.le_refl 1
    rw [get_cons]
    change ((cache.get service now [name]).2.fetched ++ _).length ≤ rest.length + 1
    rw [List.length_append]
    omega

theorem isAfresh_cons_iff {name : String} {rest : List String} {first more : QuoteAnswer}
    (hfetched : first.fetched = [Text.upper name])
    (hquotes : first.quotes = (service (Text.upper name)).toOption.toList) :
    IsAfresh service (name :: rest) (first ++ more) ↔ IsAfresh service rest more := by
  rw [QuoteAnswer.append_eq, hfetched, hquotes]
  constructor
  · intro h
    refine ⟨List.append_cancel_left h.fetched, ?_⟩
    have hall := h.quotes
    rw [fetchEach_cons] at hall
    exact List.append_cancel_left hall
  · intro h
    refine ⟨congrArg (Text.upper name :: ·) h.fetched, ?_⟩
    rw [fetchEach_cons, ← h.quotes]

/-- With a lifetime of zero a request is answered afresh unless the entry of one of its symbols is
from a later clock reading. -/
theorem isAfresh_get_iff (hlifetime : cache.lifetime = 0) (symbols : List String) :
    IsAfresh service symbols (cache.get service now symbols).2 ↔
      ∀ name ∈ symbols, ¬cache.IsAhead now (Text.upper name) := by
  induction symbols generalizing cache with
  | nil => exact iff_of_true ⟨rfl, rfl⟩ (List.forall_mem_nil _)
  | cons name rest ih =>
    have hown := occurrence service now cache name
    have hkept : (cache.get service now [name]).1.lifetime = 0 :=
      (lifetime_get service now cache [name]).trans hlifetime
    rw [get_cons, List.forall_mem_cons]
    by_cases hahead : cache.IsAhead now (Text.upper name)
    · -- the entry is used, and one fetch is missing
      refine iff_of_false ?_ fun h => h.1 hahead
      intro h
      have hlength := congrArg List.length h.fetched
      have hrest := length_fetched_le service now (cache.get service now [name]).1 rest
      change ((cache.get service now [name]).2.fetched ++ _).length = _ at hlength
      rw [hown.fetched_of_isAhead hlifetime hahead, List.nil_append, List.length_map,
        List.length_cons] at hlength
      omega
    · obtain ⟨hfetched, hquotes⟩ := hown.of_not_isAhead hlifetime hahead
      rw [isAfresh_cons_iff hfetched hquotes, ih hkept, and_iff_right hahead]
      simp only [hown.isAhead_iff hahead]

end QuoteCache

namespace QuoteSource

open QuoteCache

/-- The clock readings of the requests among some steps. -/
def readings (steps : List Step) : List Moment :=
  steps.filterMap fun next => match next with
    | .get now _ => some now
    | _ => none

theorem mem_readings_of_mem_events {source : QuoteSource} {next : Step} {symbol : String}
    {time : Moment} {outcome : Except String Quote}
    (h : Event.fetched symbol time outcome ∈ source.events next) : time ∈ readings [next] := by
  cases next with
  | get now symbols =>
    unfold events at h
    cases hservice : source.service? with
    | none =>
      rw [hservice] at h
      exact absurd h List.not_mem_nil
    | some service =>
      rw [hservice] at h
      obtain ⟨fetched, -, heq⟩ := List.mem_map.mp h
      cases heq
      exact List.mem_singleton_self time
  | clear => exact nomatch List.mem_singleton.mp h
  | change service? => exact absurd h List.not_mem_nil

/-- Every fetch of a run was made at the reading of one of its requests. -/
theorem mem_readings_of_mem_history {source : QuoteSource} {steps : List Step} {symbol : String}
    {time : Moment} {outcome : Except String Quote}
    (h : Event.fetched symbol time outcome ∈ source.history steps) : time ∈ readings steps := by
  induction steps generalizing source with
  | nil => exact absurd h List.not_mem_nil
  | cons next rest ih =>
    have hsplit : readings (next :: rest) = readings [next] ++ readings rest :=
      List.filterMap_append (l := [next])
    rw [hsplit, List.mem_append]
    rcases List.mem_append.mp h with hnow | hlater
    · exact Or.inl (mem_readings_of_mem_events hnow)
    · exact Or.inr (ih hlater)

/-- Whether a request after some steps is answered afresh by a source that started with an empty
cache and a lifetime of zero. -/
def AsksAgain (service? : Option (String → Except String Quote)) (steps : List Step) (now : Moment)
    (symbols : List String) : Prop :=
  let source := (⟨{ lifetime := 0 }, service?⟩ : QuoteSource).run steps
  ∀ service, source.service? = some service →
    IsAfresh service symbols (source.cache.get service now symbols).2

/-- Whether the clock was set back behind the last successful fetch of a symbol. -/
def SetBackBehind (past : List Event) (now : Moment) (symbol : String) : Prop :=
  ∃ cached, LastFetch symbol past cached ∧ now.instant < cached.time.instant

/-- A cache with a lifetime of zero is not used, on any run and by any request whose clock reading
is not before one of an earlier request. More exactly, a request is answered afresh unless the clock
was set back behind the last successful fetch of one of its symbols since the last clearing. -/
theorem asks_again_unless_set_back (service? : Option (String → Except String Quote))
    (steps : List Step) (now : Moment) (symbols : List String) :
    let start : QuoteSource := ⟨{ lifetime := 0 }, service?⟩
    (AsksAgain service? steps now symbols ↔ ((start.run steps).service?.isSome →
      ∀ name ∈ symbols, ¬SetBackBehind (start.history steps) now (Text.upper name))) ∧
    ((∀ earlier ∈ readings steps, earlier.instant ≤ now.instant) →
      AsksAgain service? steps now symbols) := by
  intro start
  have hstart : Agrees start.cache [] := agrees_empty 0
  have hagrees : Agrees (start.run steps).cache (start.history steps) := hstart.run steps
  have hlifetime : (start.run steps).cache.lifetime = 0 := lifetime_run start steps
  have hbehind (name : String) : SetBackBehind (start.history steps) now name ↔
      (start.run steps).cache.IsAhead now name := by
    simp only [SetBackBehind, IsAhead, hagrees name]
  have hasks : AsksAgain service? steps now symbols ↔ ((start.run steps).service?.isSome →
      ∀ name ∈ symbols, ¬SetBackBehind (start.history steps) now (Text.upper name)) := by
    simp only [hbehind, Option.isSome_iff_exists, forall_exists_index]
    exact forall₂_congr fun service _ => isAfresh_get_iff hlifetime symbols
  refine ⟨hasks, ?_⟩
  intro hforward
  apply hasks.mpr
  intro _ name _ hback
  obtain ⟨cached, hlast, hlater⟩ := hback
  -- the last fetch was made in one of the earlier requests
  obtain ⟨earlier, later, hpast, -⟩ := hlast
  have hevent : Event.fetched (Text.upper name) cached.time (.ok cached.quote) ∈
      start.history steps := by
    rw [hpast]
    exact List.mem_append_right _ List.mem_cons_self
  have hreading := hforward cached.time (mem_readings_of_mem_history hevent)
  omega

/-- The start of a day. -/
def midnight : Moment := ⟨Date.number ⟨2024, 6, 1⟩ * Moment.day, some 0⟩

/-- Ten seconds later. -/
def afterMidnight : Moment := ⟨Date.number ⟨2024, 6, 1⟩ * Moment.day + 10 * Moment.second, some 0⟩

/-- When the clock is set back by ten seconds, a cache with a lifetime of zero answers with the old
quote although the service has another one by then. -/
theorem set_back_clock_is_not_asked_again :
    ¬AsksAgain (some oneQuote)
      [.get afterMidnight ["KO"], .change (some fun symbol => .ok { symbol, price := 2 })]
      midnight ["KO"] := by
  intro hasks
  have hfetched := (hasks _ rfl).fetched
  revert hfetched
  decide +kernel

end QuoteSource

end Bourse
