import Bourse.Indicator.Request
import Bourse.Text.Classes
import Bourse.Text.Split
/-!
Lists of periods, written as an integer, as text with commas or as a list, and the requests that
configurations describe with them.
-/
namespace Bourse.Config

/-- The reasons why a datum is no list of periods. -/
inductive PeriodError where
  | badShape (name : String)
  | badItem (name : String) (item : Datum)
  | belowOne (name : String) (period : Int)
  /-- An infinite number. -/
  | infinite
  /-- What cannot be written in a message. -/
  | unwritable

/-- The text of an error, for those that have one. -/
def PeriodError.message? : PeriodError → Option String
  | badShape name => some s!"'{name}' must be an integer, a comma separated string or a list"
  | badItem name item => some s!"Invalid period in '{name}': {item.quoted}"
  | belowOne name period => some s!"Periods in '{name}' must be >= 1 (got {period})"
  | infinite => none
  | unwritable => none

/-- The error about an item that is no period. -/
def PeriodError.ofItem (name : String) (item : Datum) : PeriodError :=
  if item.isWritable then .badItem name item else .unwritable

/-- The error about a period that is too small. -/
def PeriodError.ofPeriod (name : String) (period : Int) : PeriodError :=
  if (Datum.int period).isWritable then .belowOne name period else .unwritable

/-- The whole part of an item, if it is a number or the text of an integer. -/
def toPeriod (name : String) (item : Datum) : Except PeriodError Int :=
  match item with
  | .bool b => .ok (if b then 1 else 0)
  | .int n => .ok n
  | .real x =>
    match Binary64.ofFloat x with
    | .nan => .error (.ofItem name item)
    | .infinity _ => .error .infinite
    | finite => .ok (Moment.wholePart finite)
  | .text s =>
    match Numeral.integer? s.toList with
    | some n => .ok n
    | none => .error (.ofItem name item)
  | _ => .error (.ofItem name item)

/-- Reads items one after another; every period is at least one. -/
def toPeriods (name : String) : List Datum → Except PeriodError (List Int)
  | [] => .ok []
  | item :: rest => do
    let period ← toPeriod name item
    if period < 1 then throw (.ofPeriod name period)
    return period :: (← toPeriods name rest)

/-- The items of a datum: the parts of a text that are not blank, or those of a list. -/
def periodItems (name : String) : Datum → Except PeriodError (List Datum)
  | .null => .ok []
  | .int n => .ok [.int n]
  | .text s =>
    let parts := (Text.split (· == ',') s.toList).map Text.trim
    .ok ((parts.filter (!·.isEmpty)).map fun part => .text (String.ofList part))
  | .list items => .ok items
  | _ => .error (.badShape name)

/-- Reads a list of periods. -/
def periodList (name : String) (value : Datum) : Except PeriodError (List Int) := do
  toPeriods name (← periodItems name value)

/-- The reasons why a datum is no request. -/
inductive RequestError where
  | notMapping
  | periods (error : PeriodError)
  | fields (error : Request.FieldsError)

/-- The text of an error; a name that is no text has none. -/
def RequestError.message? : RequestError → Option String
  | notMapping => some "'indicators' must be a mapping"
  | periods error => error.message?
  | fields (.misfits _) => some "Invalid indicators configuration"
  | fields .nameNotText => none

/-- The names of the fields that hold lists of periods. -/
def listNames : List String := ["sma", "ema", "wma"]

/-- Whether an entry stands under one of some text keys. -/
def isNamed (names : List String) (entry : Datum × Datum) : Bool :=
  match entry.1 with
  | .text name => names.contains name
  | _ => false

/-- The periods under a name, or those given where it is absent. -/
def periodsOr (usual : List Int) (entries : List (Datum × Datum)) (name : String) :
    Except RequestError (List Int) :=
  match Datum.get? entries name with
  | none => .ok usual
  | some value =>
    match periodList name value with
    | .ok periods => .ok periods
    | .error e => .error (.periods e)

/-- The request that a mapping describes. With `all` it starts from every indicator; the other
entries override it. -/
def buildRequest : Datum → Except RequestError Request
  | .mapping entries => do
    let all := ((Datum.get? entries "all").map (·.isTrue)).getD false
    let base : Request := if all then Request.usual else {}
    let sma ← periodsOr base.sma entries "sma"
    let ema ← periodsOr base.ema entries "ema"
    let wma ← periodsOr base.wma entries "wma"
    let rest := entries.filter fun entry => !isNamed ("all" :: listNames) entry
    match Request.ofEntries rest { base with sma, ema, wma } with
    | .ok request => return request
    | .error e => throw (.fields e)
  | _ => .error .notMapping

end Bourse.Config
