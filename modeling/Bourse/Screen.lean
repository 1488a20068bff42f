import Bourse.Filter.Parser
import Bourse.Log
/-!
Screening: the quotes of a list that satisfy a preset or a filter, in their order.
-/
namespace Bourse

/-- The criteria of a screen. -/
inductive Criteria where
  | value
  | growth
  | dividend
  | momentum
  /-- A filter of one's own. -/
  | custom
deriving DecidableEq, Repr

namespace Criteria

/-- The name of a criterion. -/
def name : Criteria → String
  | value => "value"
  | growth => "growth"
  | dividend => "dividend"
  | momentum => "momentum"
  | custom => "custom"

/-- Every criterion. -/
def all : List Criteria := [value, growth, dividend, momentum, custom]

/-- The criterion with a name. -/
def ofName? (name : String) : Option Criteria := all.find? (·.name == name)

/-- The test of a preset: a low price for the earnings with a dividend worth having, a rise over the
year, a high dividend, a rise today. Figures that are not published fail. -/
def passes : Criteria → Quote → Bool
  | value, quote =>
    match quote.trailingPe, quote.dividendYield with
    | some pe, some dividendYield => 0.0 < pe && pe < 20.0 && 2.0 < dividendYield
    | _, _ => false
  | growth, quote => 20.0 < quote.yearChangePercent
  | dividend, quote =>
    match quote.dividendYield with
    | some dividendYield => 3.0 < dividendYield
    | none => false
  | momentum, quote => 0.0 < quote.changePercent
  | custom, _ => true

end Criteria

/-- The reasons why a screen has no result. -/
inductive ScreenError where
  | filter (fault : Filter.SyntaxError)
  | evaluation (fault : Filter.EvalError)

namespace Screen

/-- The part of the program that the notices of a screen name. -/
def origin : String := "tickerscope.screening"

/-- The notice before a custom screen without a filter. -/
def openWarning : Notice :=
  ⟨.warning, origin, "Custom criteria without a where clause matches every symbol"⟩

/-- The notice after a screen. -/
def summary (criteria : Criteria) (kept total : Nat) : Notice :=
  ⟨.info, origin, s!"{kept} of {total} symbols match {criteria.name}"⟩

/-- The quotes that satisfy a preset, or the filter of a custom screen. The filter is compiled
before any quote is tested. -/
def select (criteria : Criteria) (condition : String) (quotes : List Quote) :
    Except ScreenError (List Quote) :=
  match criteria with
  | .custom =>
    match Filter.compile condition with
    | .error fault => .error (.filter fault)
    | .ok f =>
      match f.select quotes with
      | .error fault => .error (.evaluation fault)
      | .ok kept => .ok kept
  | preset => .ok (quotes.filter preset.passes)

/-- Screens quotes and reports how many were kept. -/
def run (criteria : Criteria) (condition : String) (quotes : List Quote) :
    Logged (Except ScreenError (List Quote)) :=
  let before := if criteria = .custom ∧ condition.toList.all Text.isBlank then [openWarning] else []
  match select criteria condition quotes with
  | .error fault => ⟨.error fault, before⟩
  | .ok kept => ⟨.ok kept, before ++ [summary criteria kept.length quotes.length]⟩

end Screen

end Bourse
