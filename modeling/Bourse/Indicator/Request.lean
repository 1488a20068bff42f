import Bourse.Datum
import Bourse.Number.Numeral
/-!
Requests: which indicators are wanted, with which periods. A request can be read from named data;
each field converts what plainly stands for its kind of value, and every fault is reported.
-/
namespace Bourse

/-- The indicators that are wanted. A period that is absent leaves its indicator out. -/
structure Request where
  sma : List Int := []
  ema : List Int := []
  wma : List Int := []
  rsi : Option Int := none
  macd : Bool := false
  stochastic : Bool := false
  bands : Option Int := none
  bandWidth : Float := 2
  atr : Option Int := none
  adx : Option Int := none
  obv : Bool := false
  vwap : Bool := false

namespace Request

/-- Every indicator with its usual periods. -/
def usual : Request :=
  { sma := [20, 50, 200], ema := [12, 26], rsi := some 14, macd := true, stochastic := true,
    bands := some 20, atr := some 14, adx := some 14, obv := true, vwap := true }

/-- Whether no indicator is wanted. -/
def isEmpty (r : Request) : Bool :=
  r.sma.isEmpty && r.ema.isEmpty && r.wma.isEmpty && r.rsi.isNone && !r.macd && !r.stochastic &&
    r.bands.isNone && r.atr.isNone && r.adx.isNone && !r.obv && !r.vwap

/-- Why a datum does not fit a field. -/
inductive Misfit where
  | intParsing
  | intFromFloat
  | intType
  | finiteNumber
  | floatParsing
  | floatType
  | boolParsing
  | boolType
  | listType
  /-- A field that does not exist. -/
  | extraForbidden
deriving DecidableEq, Repr

/-- The name of a misfit. -/
def Misfit.name : Misfit → String
  | intParsing => "int_parsing"
  | intFromFloat => "int_from_float"
  | intType => "int_type"
  | finiteNumber => "finite_number"
  | floatParsing => "float_parsing"
  | floatType => "float_type"
  | boolParsing => "bool_parsing"
  | boolType => "bool_type"
  | listType => "list_type"
  | extraForbidden => "extra_forbidden"

/-- A misfit with the path of the field it was found at. -/
structure FieldFault where
  path : List String
  misfit : Misfit
deriving DecidableEq, Repr

/-- The line that shows a fault. -/
def FieldFault.line (f : FieldFault) : String := ".".intercalate f.path ++ ": " ++ f.misfit.name

/-- The reasons why data are no request. -/
inductive FieldsError where
  /-- A name that is no text. -/
  | nameNotText
  | misfits (faults : List FieldFault)
deriving Repr

/-- The lines of some faults in ascending order. -/
def faultLines (faults : List FieldFault) : List String :=
  (faults.map FieldFault.line).mergeSort fun a b => decide (a ≤ b)

/-- The integer in a text: digits with sign and underscores, and perhaps a fraction of zeros. -/
def wholeText? (text : List Char) : Option Int :=
  let body := Numeral.body text
  let whole := body.takeWhile (· ≠ '.')
  let fraction := body.drop (whole.length + 1)
  let plain := fun (c : Char) => c.toNat < 128 && !Numeral.isSurround c
  if whole.all plain && fraction.all (· == '0') then Numeral.integer? whole else none

/-- The bounds between which a binary64 number is taken for an integer. -/
def wholeLimit : Int := 9223372036854775808

/-- The integer of a binary64 number without fraction. -/
def wholeReal (x : Float) : Except Misfit Int :=
  match Binary64.ofFloat x with
  | .finite negative mantissa exponent =>
    let (n, d) := scaleTwo mantissa 1 exponent
    if n % d ≠ 0 then .error .intFromFloat
    else
      let whole : Int := if negative then -(n / d : Nat) else (n / d : Nat)
      if whole < -wholeLimit ∨ wholeLimit ≤ whole then .error .intParsing else .ok whole
  | _ => .error .finiteNumber

/-- A datum as an integer. -/
def toWhole : Datum → Except Misfit Int
  | .bool b => .ok (if b then 1 else 0)
  | .int n => .ok n
  | .real x => wholeReal x
  | .text s =>
    match wholeText? s.toList with
    | some n => .ok n
    | none => .error .intParsing
  | _ => .error .intType

/-- The words for a truth value, in lower case. -/
def truthWords : List (String × Bool) :=
  [("0", false), ("off", false), ("f", false), ("false", false), ("n", false), ("no", false),
    ("1", true), ("on", true), ("t", true), ("true", true), ("y", true), ("yes", true)]

/-- The truth value of an integer. -/
def wholeTruth (n : Int) : Except Misfit Bool :=
  if n = 0 then .ok false else if n = 1 then .ok true else .error .boolParsing

/-- A datum as a truth value. -/
def toTruth : Datum → Except Misfit Bool
  | .bool b => .ok b
  | .text s =>
    match truthWords.lookup (String.ofList (s.toList.map Char.toLower)) with
    | some b => .ok b
    | none => .error .boolParsing
  | .int n => if n < -wholeLimit ∨ wholeLimit ≤ n then .error .boolType else wholeTruth n
  | .real x =>
    match wholeReal x with
    | .ok n => wholeTruth n
    | .error _ => .error .boolType
  | _ => .error .boolType

/-- A datum as a binary64 number. -/
def toNumber : Datum → Except Misfit Float
  | .bool b => .ok (if b then 1 else 0)
  | .int n =>
    match Binary64.ofInt? n with
    | some x => .ok x
    | none => .error .floatType
  | .real x => .ok x
  | .text s =>
    if (Numeral.body s.toList).all (·.toNat < 128) then
      match Numeral.float? s.toList with
      | some x => .ok x
      | none => .error .floatParsing
    else .error .floatParsing
  | _ => .error .floatType

/-- A datum as an integer or nothing. -/
def toOptionalWhole : Datum → Except Misfit (Option Int)
  | .null => .ok none
  | d => (toWhole d).map some

/-- The result of converting a field: a value, or faults with their paths. -/
abbrev Checked (α : Type) := Except (List FieldFault) α

/-- Converts a field that is one datum. -/
def single {α : Type} (name : String) (convert : Datum → Except Misfit α) (d : Datum) : Checked α :=
  match convert d with
  | .ok a => .ok a
  | .error misfit => .error [⟨[name], misfit⟩]

/-- Converts the items of a list field, from an index on. -/
def wholes (name : String) (index : Nat) : List Datum → Checked (List Int)
  | [] => .ok []
  | d :: rest =>
    match toWhole d, wholes name (index + 1) rest with
    | .ok n, .ok more => .ok (n :: more)
    | .ok _, .error faults => .error faults
    | .error misfit, .ok _ => .error [⟨[name, toString index], misfit⟩]
    | .error misfit, .error faults => .error (⟨[name, toString index], misfit⟩ :: faults)

/-- Converts a list field. -/
def periods (name : String) : Datum → Checked (List Int)
  | .list items => wholes name 0 items
  | _ => .error [⟨[name], .listType⟩]

/-- Sets the field with a name. -/
def set (r : Request) (name : String) (d : Datum) : Checked Request :=
  match name with
  | "sma" => (periods name d).map fun v => { r with sma := v }
  | "ema" => (periods name d).map fun v => { r with ema := v }
  | "wma" => (periods name d).map fun v => { r with wma := v }
  | "rsi" => (single name toOptionalWhole d).map fun v => { r with rsi := v }
  | "macd" => (single name toTruth d).map fun v => { r with macd := v }
  | "stochastic" => (single name toTruth d).map fun v => { r with stochastic := v }
  | "bb" => (single name toOptionalWhole d).map fun v => { r with bands := v }
  | "bb_std_dev" => (single name toNumber d).map fun v => { r with bandWidth := v }
  | "atr" => (single name toOptionalWhole d).map fun v => { r with atr := v }
  | "adx" => (single name toOptionalWhole d).map fun v => { r with adx := v }
  | "obv" => (single name toTruth d).map fun v => { r with obv := v }
  | "vwap" => (single name toTruth d).map fun v => { r with vwap := v }
  | _ => .error [⟨[name], .extraForbidden⟩]

/-- Sets fields one after another and gathers the faults of all. -/
def setAll (r : Request) : List (String × Datum) → Request × List FieldFault
  | [] => (r, [])
  | (name, d) :: rest =>
    match r.set name d with
    | .ok r => r.setAll rest
    | .error faults => let (r, more) := r.setAll rest; (r, faults ++ more)

/-- The names of entries, if all are texts. -/
def named? : List (Datum × Datum) → Option (List (String × Datum))
  | [] => some []
  | (.text name, d) :: rest => (named? rest).map ((name, d) :: ·)
  | _ => none

/-- The request with the fields of some entries set. -/
def ofEntries (entries : List (Datum × Datum)) (base : Request := {}) :
    Except FieldsError Request :=
  match named? entries with
  | none => .error .nameNotText
  | some fields =>
    match base.setAll fields with
    | (r, []) => .ok r
    | (_, faults) => .error (.misfits faults)

end Request

end Bourse
