import Bourse.Entries
import Bourse.Log
import Bourse.Service.Listing
import Bourse.Source.Error
/-!
Quotes with a cache: a quote is fetched again when it is older than the lifetime of the cache. A
symbol that fails is left out of the answer and leaves its entry of the cache as it was.
-/
namespace Bourse

/-- A quote and when it was fetched. -/
structure CachedQuote where
  time : Moment
  quote : Quote

/-- The cached quotes by their symbols in upper case. -/
structure QuoteCache where
  /-- How many seconds a quote is used. -/
  lifetime : Float := 300
  entries : List (String × CachedQuote) := []

/-- The answer to a request for quotes. -/
structure QuoteAnswer where
  quotes : List Quote := []
  /-- The symbols that were asked of the service, in order. -/
  fetched : List String := []
  notices : List Notice := []

namespace QuoteCache

/-- The part of the program that notices about quotes name. -/
def origin : String := "tickerscope.data.quotes"

/-- The seconds from one moment to another. -/
def secondsBetween (earlier later : Moment) : Float :=
  let elapsed := later.instant - earlier.instant
  Binary64.nearest (elapsed < 0) elapsed.natAbs Moment.second

/-- The entry of a symbol. -/
def held? (cache : QuoteCache) (symbol : String) : Option CachedQuote :=
  Entries.get? symbol cache.entries

/-- The cached quote of a symbol if it is young enough. -/
def fresh? (cache : QuoteCache) (now : Moment) (symbol : String) : Option Quote :=
  match cache.held? symbol with
  | some cached =>
    if secondsBetween cached.time now < cache.lifetime then some cached.quote else none
  | none => none

/-- The cache with a quote that was just fetched. -/
def store (cache : QuoteCache) (now : Moment) (symbol : String) (quote : Quote) : QuoteCache :=
  { cache with entries := Entries.put symbol ⟨now, quote⟩ cache.entries }

/-- The cache without its entries. -/
def clear (cache : QuoteCache) : QuoteCache := { cache with entries := [] }

/-- Answers for one more symbol. -/
def ask (service : String → Except String Quote) (now : Moment) (state : QuoteCache × QuoteAnswer)
    (name : String) : QuoteCache × QuoteAnswer :=
  let (cache, answer) := state
  let symbol := Text.upper name
  match cache.fresh? now symbol with
  | some quote => (cache, { answer with quotes := answer.quotes ++ [quote] })
  | none =>
    let fetched := answer.fetched ++ [symbol]
    match service symbol with
    | .ok quote =>
      (cache.store now symbol quote, { answer with quotes := answer.quotes ++ [quote], fetched })
    | .error text =>
      let notice : Notice := ⟨.warning, origin, s!"Skipping {symbol}: {text}"⟩
      (cache, { answer with fetched, notices := answer.notices ++ [notice] })

/-- Answers a request for symbols. -/
def get (cache : QuoteCache) (service : String → Except String Quote) (now : Moment)
    (symbols : List String) : QuoteCache × QuoteAnswer :=
  symbols.foldl (ask service now) (cache, {})

/-- Answers a request for symbols, unless the service is absent. -/
def request (cache : QuoteCache) (service? : Option (String → Except String Quote)) (now : Moment)
    (symbols : List String) : QuoteCache × Except SourceError QuoteAnswer :=
  match service? with
  | none => (cache, .error .serviceAbsent)
  | some service =>
    let (cache, answer) := cache.get service now symbols
    (cache, .ok answer)

end QuoteCache

/-- Quotes that were set by hand, by their symbols in upper case. -/
structure QuoteBoard where
  entries : List (String × Quote) := []

namespace QuoteBoard

/-- The board with the given quotes; of several for one symbol the last counts. -/
def ofList (quotes : List (String × Quote)) : QuoteBoard :=
  ⟨Entries.putAll [] (quotes.map fun (symbol, quote) => (Text.upper symbol, quote))⟩

/-- The quotes of those symbols that are on the board. -/
def get (board : QuoteBoard) (symbols : List String) : List Quote :=
  symbols.filterMap fun symbol => Entries.get? (Text.upper symbol) board.entries

end QuoteBoard

end Bourse
