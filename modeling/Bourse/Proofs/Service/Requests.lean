import Bourse.Proofs.Entries
import Bourse.Service.QuoteCache

/-! Requests for quotes, symbol by symbol. What an occurrence of a symbol gets depends on the cache
that the symbols before it leave behind, and on nothing that was answered for them. -/
namespace Bourse

/-- One answer after another. -/
instance : Append QuoteAnswer where
  append a b := ⟨a.quotes ++ b.quotes, a.fetched ++ b.fetched, a.notices ++ b.notices⟩

theorem QuoteAnswer.append_eq (a b : QuoteAnswer) :
    a ++ b = ⟨a.quotes ++ b.quotes, a.fetched ++ b.fetched, a.notices ++ b.notices⟩ :=
  rfl

namespace QuoteCache

variable {service : String → Except String Quote} {now : Moment} {cache : QuoteCache}

/-! Entries -/

theorem held?_store (cache : QuoteCache) (now : Moment) (symbol other : String) (quote : Quote) :
    (cache.store now symbol quote).held? other =
      if symbol = other then some ⟨now, quote⟩ else cache.held? other :=
  Entries.get?_put symbol other _ cache.entries

theorem held?_clear (cache : QuoteCache) (symbol : String) : cache.clear.held? symbol = none :=
  rfl

/-- Whether an entry is used at a clock reading, which may lie before the one of the entry. -/
def IsYoung (cache : QuoteCache) (now : Moment) (cached : CachedQuote) : Prop :=
  secondsBetween cached.time now < cache.lifetime

theorem fresh?_eq_some {symbol : String} {quote : Quote} :
    cache.fresh? now symbol = some quote ↔
      ∃ cached, cache.held? symbol = some cached ∧ cache.IsYoung now cached ∧
        cached.quote = quote := by
  unfold fresh? IsYoung
  cases cache.held? symbol with
  | none =>
    constructor
    · exact nofun
    · rintro ⟨_, hnone, -⟩
      contradiction
  | some cached =>
    constructor
    · intro h
      dsimp only at h
      split_ifs at h with hyoung
      exact ⟨cached, rfl, hyoung, Option.some.inj h⟩
    · rintro ⟨_, hcached, hyoung, rfl⟩
      cases hcached
      dsimp only
      rw [if_pos hyoung]

theorem fresh?_eq_none {symbol : String} :
    cache.fresh? now symbol = none ↔
      ∀ cached, cache.held? symbol = some cached → ¬cache.IsYoung now cached := by
  rw [Option.eq_none_iff_forall_not_mem]
  constructor
  · intro h cached hcached hyoung
    exact h cached.quote (fresh?_eq_some.mpr ⟨cached, hcached, hyoung, rfl⟩)
  · intro h quote hquote
    obtain ⟨cached, hcached, hyoung, -⟩ := fresh?_eq_some.mp hquote
    exact h cached hcached hyoung

/-! One symbol -/

/-- What can become of a symbol, given in upper case: its entry is used, or it is fetched with
success and stored, or its fetch fails. -/
inductive Occurrence (service : String → Except String Quote) (now : Moment) (cache : QuoteCache)
    (symbol : String) : QuoteCache × QuoteAnswer → Prop
  | kept {cached : CachedQuote} : cache.held? symbol = some cached → cache.IsYoung now cached →
    Occurrence service now cache symbol (cache, { quotes := [cached.quote] })
  | fetched {quote : Quote} :
    (∀ cached, cache.held? symbol = some cached → ¬cache.IsYoung now cached) →
    service symbol = .ok quote →
    Occurrence service now cache symbol
      (cache.store now symbol quote, { quotes := [quote], fetched := [symbol] })
  | failed {text : String} :
    (∀ cached, cache.held? symbol = some cached → ¬cache.IsYoung now cached) →
    service symbol = .error text →
    Occurrence service now cache symbol (cache, { fetched := [symbol], notices :=
      [⟨.warning, origin, s!"Skipping {symbol}: {text}"⟩] })

theorem occurrence (service : String → Except String Quote) (now : Moment) (cache : QuoteCache)
    (name : String) :
    Occurrence service now cache (Text.upper name) (cache.get service now [name]) := by
  have hget : cache.get service now [name] = ask service now (cache, {}) name := rfl
  rw [hget, ask]
  dsimp only
  cases hfresh : cache.fresh? now (Text.upper name) with
  | some quote =>
    obtain ⟨cached, hcached, hyoung, rfl⟩ := fresh?_eq_some.mp hfresh
    exact .kept hcached hyoung
  | none =>
    have hold := fresh?_eq_none.mp hfresh
    cases hservice : service (Text.upper name) with
    | ok quote => exact .fetched hold hservice
    | error text => exact .failed hold hservice

/-! Several symbols -/

theorem ask_append (cache : QuoteCache) (before answer : QuoteAnswer) (name : String) :
    ask service now (cache, before ++ answer) name =
      ((ask service now (cache, answer) name).1,
        before ++ (ask service now (cache, answer) name).2) := by
  unfold ask
  dsimp only
  cases cache.fresh? now (Text.upper name) with
  | some quote => simp [QuoteAnswer.append_eq]
  | none => cases service (Text.upper name) <;> simp [QuoteAnswer.append_eq]

theorem foldl_ask (cache : QuoteCache) (before answer : QuoteAnswer) (symbols : List String) :
    symbols.foldl (ask service now) (cache, before ++ answer) =
      ((symbols.foldl (ask service now) (cache, answer)).1,
        before ++ (symbols.foldl (ask service now) (cache, answer)).2) := by
  induction symbols generalizing cache answer with
  | nil => rfl
  | cons name rest ih => rw [List.foldl_cons, List.foldl_cons, ask_append, ih]

theorem append_empty (answer : QuoteAnswer) : answer ++ {} = answer := by
  rw [QuoteAnswer.append_eq, List.append_nil, List.append_nil, List.append_nil]

/-- A request for more symbols is one request after another at the same clock reading. -/
theorem get_append (service : String → Except String Quote) (now : Moment) (cache : QuoteCache)
    (symbols more : List String) :
    cache.get service now (symbols ++ more) =
      (((cache.get service now symbols).1.get service now more).1, (cache.get service now symbols).2
        ++ ((cache.get service now symbols).1.get service now more).2) := by
  have hsplit : symbols.foldl (ask service now) (cache, {}) =
      ((cache.get service now symbols).1, (cache.get service now symbols).2 ++ {}) := by
    rw [append_empty]
    rfl
  rw [get, List.foldl_append, hsplit, foldl_ask]
  rfl

theorem get_cons (service : String → Except String Quote) (now : Moment) (cache : QuoteCache)
    (name : String) (rest : List String) :
    cache.get service now (name :: rest) =
      (((cache.get service now [name]).1.get service now rest).1, (cache.get service now [name]).2
        ++ ((cache.get service now [name]).1.get service now rest).2) :=
  get_append service now cache [name] rest

theorem lifetime_get (service : String → Except String Quote) (now : Moment) (cache : QuoteCache)
    (symbols : List String) : (cache.get service now symbols).1.lifetime = cache.lifetime := by
  induction symbols generalizing cache with
  | nil => rfl
  | cons name rest ih =>
    have hown := occurrence service now cache name
    rw [get_cons, ih]
    generalize cache.get service now [name] = own at hown
    cases hown <;> rfl

end QuoteCache

end Bourse
