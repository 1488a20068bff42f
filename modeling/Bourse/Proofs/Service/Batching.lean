import Bourse.Proofs.Service.Requests

/-! Requests that are joined or thinned out. How symbols are grouped into requests at one clock
reading makes no difference, and neither does it for the other symbols whether one that fails is
among them. -/
namespace Bourse

/-- An answer without a trace of some symbols that fail: they are not fetched, and no notice tells
about them. -/
def QuoteAnswer.without (fails : String → Bool) (answer : QuoteAnswer) : QuoteAnswer where
  quotes := answer.quotes
  fetched := answer.fetched.filter fun symbol => !fails symbol
  notices := []

namespace QuoteCache

variable {service : String → Except String Quote} {now : Moment} {cache : QuoteCache}

/-! Symbols that fail -/

/-- Whether a symbol, given in upper case, fails: it has no young entry, and its fetch fails. -/
def fails (service : String → Except String Quote) (now : Moment) (cache : QuoteCache)
    (symbol : String) : Bool :=
  (cache.fresh? now symbol).isNone && !(service symbol).isOk

theorem fails_of_young {symbol : String} {cached : CachedQuote}
    (hcached : cache.held? symbol = some cached) (hyoung : cache.IsYoung now cached) :
    fails service now cache symbol = false := by
  have hfresh := fresh?_eq_some.mpr ⟨cached, hcached, hyoung, rfl⟩
  rw [fails, hfresh]
  exact Bool.false_and _

theorem fails_of_ok {symbol : String} {quote : Quote} (hservice : service symbol = .ok quote) :
    fails service now cache symbol = false := by
  rw [fails, hservice]
  exact Bool.and_false _

theorem fails_of_error {symbol text : String}
    (hold : ∀ cached, cache.held? symbol = some cached → ¬cache.IsYoung now cached)
    (hservice : service symbol = .error text) : fails service now cache symbol = true := by
  rw [fails, fresh?_eq_none.mpr hold, hservice]
  exact Bool.and_self _

theorem fails_store {symbol : String} {quote : Quote} (hservice : service symbol = .ok quote) :
    fails service now (cache.store now symbol quote) = fails service now cache := by
  funext other
  by_cases hother : symbol = other
  · -- a symbol that is fetched with success does not fail, whatever its entry is
    rw [← hother, fails_of_ok hservice, fails_of_ok hservice]
  · have hheld : (cache.store now symbol quote).held? other = cache.held? other := by
      rw [held?_store, if_neg hother]
    unfold fails fresh?
    rw [hheld]
    rfl

/-- After an occurrence of a symbol the same symbols fail as before it. -/
theorem Occurrence.fails_eq {symbol : String} {own : QuoteCache × QuoteAnswer}
    (hown : Occurrence service now cache symbol own) :
    fails service now own.1 = fails service now cache := by
  cases hown with
  | kept hcached hyoung => rfl
  | fetched hold hservice => exact fails_store hservice
  | failed hold hservice => rfl

/-! Requests -/

theorem without_append (fails : String → Bool) (a b : QuoteAnswer) :
    (a ++ b).without fails = a.without fails ++ b.without fails := by
  simp only [QuoteAnswer.without, QuoteAnswer.append_eq, List.filter_append, List.append_nil]

/-- An occurrence of a symbol that fails leaves nothing but a fetch and a notice. -/
theorem Occurrence.of_fails {symbol : String} {own : QuoteCache × QuoteAnswer}
    (hown : Occurrence service now cache symbol own)
    (hfails : fails service now cache symbol = true) :
    own.1 = cache ∧ own.2.without (fails service now cache) = {} := by
  cases hown with
  | kept hcached hyoung =>
    rw [fails_of_young hcached hyoung] at hfails
    contradiction
  | fetched hold hservice =>
    rw [fails_of_ok hservice] at hfails
    contradiction
  | failed hold hservice =>
    refine ⟨rfl, ?_⟩
    rw [QuoteAnswer.without, List.filter_singleton, hfails]
    rfl

/-- An occurrence of any other symbol leaves no notice. -/
theorem Occurrence.of_not_fails {symbol : String} {own : QuoteCache × QuoteAnswer}
    (hown : Occurrence service now cache symbol own)
    (hfails : fails service now cache symbol = false) :
    own.2.without (fails service now cache) = own.2 := by
  cases hown with
  | kept hcached hyoung => rfl
  | fetched hold hservice =>
    rw [QuoteAnswer.without, List.filter_singleton, hfails]
    rfl
  | failed hold hservice =>
    rw [fails_of_error hold hservice] at hfails
    contradiction

/-- The symbols of a request that do not fail are answered as they are without the others. -/
theorem get_filter_fails (service : String → Except String Quote) (now : Moment)
    (cache : QuoteCache) (symbols : List String) :
    cache.get service now
        (symbols.filter fun name => !fails service now cache (Text.upper name)) =
      ((cache.get service now symbols).1,
        (cache.get service now symbols).2.without (fails service now cache)) := by
  -- over the symbols, from any cache on: the one that the first symbol leaves has the same failures
  induction symbols generalizing cache with
  | nil => rfl
  | cons name rest ih =>
    have hown := occurrence service now cache name
    have hrest := ih (cache.get service now [name]).1
    rw [hown.fails_eq] at hrest
    rw [get_cons, without_append]
    cases hfails : fails service now cache (Text.upper name) with
    | true =>
      obtain ⟨hcache, hanswer⟩ := hown.of_fails hfails
      rw [hcache] at hrest
      rw [List.filter_cons_of_neg (by simp [hfails]), hrest, hcache, hanswer]
      rfl
    | false =>
      rw [List.filter_cons_of_pos (by simp [hfails]), get_cons, hrest, hown.of_not_fails hfails]

/-- How symbols are grouped into requests does not matter. From any cache on, two requests at one
clock reading are answered together as one request for all their symbols is, quote by quote, fetch by
fetch and notice by notice, and they leave the same cache behind. Without the symbols that fail a
request is answered with the same quotes and leaves the same cache behind, and all that is missing is
the fetches of these symbols and the notices, none of which was about another symbol. -/
theorem grouping_does_not_matter (cache : QuoteCache)
    (service? : Option (String → Except String Quote)) (now : Moment) (xs ys : List String) :
    let first := cache.request service? now xs
    let second := first.1.request service? now ys
    let fails := fun symbol => service?.any fun service => fails service now cache symbol
    cache.request service? now (xs ++ ys) =
      (second.1, do return (← first.2) ++ (← second.2)) ∧
    cache.request service? now (xs.filter fun name => !fails (Text.upper name)) =
      (first.1, first.2.map (·.without fails)) := by
  cases service? with
  | none => exact ⟨rfl, rfl⟩
  | some service =>
    intro first second fails
    constructor
    · rw [request, get_append]
      rfl
    · have hothers := get_filter_fails service now cache xs
      exact congrArg (fun answered => (answered.1, Except.ok answered.2)) hothers

end QuoteCache

end Bourse
