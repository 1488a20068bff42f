import Bourse.Config.Document
import Bourse.Screen
/-!
The configuration of a screen: symbols, criteria and the condition of a custom screen. The condition
is checked when the configuration is read.
-/
namespace Bourse

/-- What is to be screened, and by which criteria. -/
structure ScreenConfig where
  symbols : List String
  criteria : Criteria := .custom
  condition : String := ""

namespace ScreenConfig

/-- The reasons why there is no configuration. -/
inductive Fault where
  | document (error : Config.DocumentError)
  | noSymbols
  | badSymbols
  | badCriteria (name : String)
  | badCondition
  /-- Symbols or criteria that cannot be written as text. -/
  | unwritable
  | condition (error : Filter.SyntaxError)

/-- The text of a fault, for those that have one. -/
def Fault.message? : Fault → Option String
  | document error => error.message?
  | noSymbols => some "Missing required field: symbols"
  | badSymbols => some "'symbols' must be a non-empty list"
  | badCriteria name =>
    let options := Config.nameList (Criteria.all.map Criteria.name)
    some s!"Invalid criteria '{name}'. Valid options: {options}"
  | badCondition => some "'where' must be a string"
  | unwritable => none
  | condition error => some s!"Invalid 'where' expression: {error.message}"

/-- A datum as a symbol. -/
def symbol (datum : Datum) : String :=
  Text.upper (String.ofList (Text.trim datum.shown.toList))

/-- The symbols of a configuration. -/
def symbolsOf (entries : List (Datum × Datum)) : Except Fault (List String) :=
  match Datum.get? entries "symbols" with
  | none => .error .noSymbols
  | some (.list (first :: rest)) =>
    if Datum.areWritable (first :: rest) then .ok ((first :: rest).map symbol)
    else .error .unwritable
  | some _ => .error .badSymbols

/-- The criteria of a configuration. -/
def criteriaOf (entries : List (Datum × Datum)) : Except Fault Criteria :=
  let datum := (Datum.get? entries "criteria").getD (.text Criteria.custom.name)
  if datum.isWritable then
    let name := Text.lower datum.shown
    match Criteria.ofName? name with
    | some criteria => .ok criteria
    | none => .error (.badCriteria name)
  else .error .unwritable

/-- The condition of a configuration. -/
def conditionOf (entries : List (Datum × Datum)) : Except Fault String :=
  match (Datum.get? entries "where").getD .null with
  | .text condition =>
    match Filter.compile condition with
    | .ok _ => .ok condition
    | .error error => .error (.condition error)
  | datum => if datum.isTrue then .error .badCondition else .ok ""

/-- The configuration that entries describe. -/
def ofEntries (entries : List (Datum × Datum)) : Except Fault ScreenConfig := do
  let symbols ← symbolsOf entries
  let criteria ← criteriaOf entries
  return ⟨symbols, criteria, ← conditionOf entries⟩

/-- Reads the configuration that is stored under a path. -/
def load (path : String) (stored : Stored) : Except Fault ScreenConfig :=
  match Config.entries path stored with
  | .ok entries => ofEntries entries
  | .error error => .error (.document error)

end ScreenConfig

end Bourse
