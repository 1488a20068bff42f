import Bourse.Datum
import Bourse.Number.Numeral
import Bourse.Yaml.Node
/-!
The data that nodes stand for. A mapping may merge others, whose entries come first; of entries with
one key the last value counts. Of several faults the one nearest to the root counts, and of equally
near ones the first.
-/
namespace Bourse.Yaml

/-- A value, or a fault with its distance from the root. -/
abbrev Valued (α : Type) := Except (Nat × Fault) α

namespace Valued

variable {α β γ : Type}

/-- Joins two values; of two faults the nearer one counts. -/
def join (f : α → β → γ) : Valued α → Valued β → Valued γ
  | .ok a, .ok b => .ok (f a b)
  | .error e, .ok _ => .error e
  | .ok _, .error e => .error e
  | .error e, .error other => .error (if other.1 < e.1 then other else e)

end Valued

/-- A text without underscores. -/
def withoutMarks (text : String) : List Char := text.toList.filter (· != '_')

/-- Whether a number has a minus in front, and the rest of it. -/
def minus : List Char → Bool × List Char
  | '-' :: rest => (true, rest)
  | '+' :: rest => (false, rest)
  | text => (false, text)

/-- The natural in the digits of a base. -/
def ofBase? (base : Nat) (digits : List Char) : Option Int :=
  if digits.isEmpty then none
  else
    (digits.foldlM (fun n c => do
      let d ← hexDigit? c
      if d < base then some (n * base + d) else none) 0).map Int.ofNat

/-- The sum of parts that count sixty times the next one each. -/
def inSixties (parts : List Int) : Int := parts.foldl (fun total part => total * 60 + part) 0

/-- An integer without sign. -/
def whole? (digits : List Char) : Option Int :=
  match digits with
  | ['0'] => some 0
  | '0' :: 'b' :: rest => ofBase? 2 rest
  | '0' :: 'x' :: rest => ofBase? 16 rest
  | '0' :: _ => ofBase? 8 digits
  | _ =>
    if digits.contains ':' then ((Text.split (· == ':') digits).mapM Numeral.integer?).map inSixties
    else Numeral.integer? digits

/-- The value of an integer. -/
def intValue (text : String) : Except Fault Datum :=
  let (negative, digits) := minus (withoutMarks text)
  if digits.isEmpty then .error .emptyNumber
  else
    match whole? digits with
    | some n => .ok (.int (if negative then -n else n))
    | none => .error (.noNumber text)

/-- The sum of parts from the last one on, each weighing sixty times the one behind it. -/
def weigh : Float → Float → List Float → Float
  | total, _, [] => total
  | total, base, part :: parts => weigh (total + part * base) (base * 60) parts

/-- A number without sign. -/
def real? (text : List Char) : Option Float :=
  if text == ".inf".toList then some (Binary64.infiniteFloat false)
  else if text == ".nan".toList then some Binary64.nanFloat
  else if text.contains ':' then
    ((Text.split (· == ':') text).mapM Numeral.float?).map fun parts => weigh 0 1 parts.reverse
  else Numeral.float? text

/-- The value of a number that is no integer. -/
def floatValue (text : String) : Except Fault Datum :=
  let (negative, digits) := minus ((withoutMarks text).map Char.toLower)
  if (withoutMarks text).isEmpty then .error .emptyNumber
  else
    match real? digits with
    | some x => .ok (.real (if negative then -x else x))
    | none => .error (.noNumber text)

/-- The value of a truth value. -/
def boolValue (text : String) : Except Fault Datum :=
  match Tag.truthWords.lookup (String.ofList (text.toList.map Char.toLower)) with
  | some b => .ok (.bool b)
  | none => .error (.noTruth text)

/-- The microseconds in the first six digits of a fraction. -/
def microseconds (fraction : List Char) : Nat :=
  let digits := fraction.take 6
  TimeText.value (digits ++ List.replicate (6 - digits.length) '0')

/-- The offset of a time in microseconds, if it is less than a day. -/
def offsetValue? : Bool × Nat → Option Int
  | (isWest, minutes) =>
    let offset : Int := minutes * 60 * Moment.second
    if (Moment.day : Int) ≤ offset then none else some (if isWest then -offset else offset)

/-- The value of a time: a date, or a moment if a time of day is given. -/
def timeValue (text : String) : Except Fault Datum :=
  match TimeText.read? text.toList with
  | none => .error (.noTime text)
  | some time =>
    let date : Date := ⟨time.year, time.month, time.day⟩
    match time.clock with
    | none =>
      match Moment.ofFields date 0 0 0 0 none with
      | .ok _ => .ok (.date date)
      | .error _ => .error (.badTime text)
    | some (hour, minute, second, fraction) =>
      let offset := time.offset.map offsetValue?
      if offset = some none then .error (.badTime text)
      else
        match Moment.ofFields date hour minute second (microseconds fraction) offset.join with
        | .ok m => .ok (.moment m)
        | .error _ => .error (.badTime text)

/-- The value of a scalar by its tag; none where the tag is that of a collection. -/
def scalarValue? (tag : Tag) (text : String) : Option (Except Fault Datum) :=
  match tag with
  | .null => some (.ok .null)
  | .bool => some (boolValue text)
  | .int => some (intValue text)
  | .float => some (floatValue text)
  | .timestamp => some (timeValue text)
  | .text => some (.ok (.text text))
  | .sequence | .mapping => none
  | .merge | .default | .other _ => some (.error .notYaml)

/-- Whether a node is a scalar with a tag. -/
def Node.isScalarOf (tag : Tag) : Node → Bool
  | .scalar t _ => t == tag
  | _ => false

/-- The text of a scalar, or of the value that stands for a whole mapping. -/
def scalarText? : Node → Option String
  | .scalar _ text => some text
  | .sequence _ _ => none
  | .mapping _ entries => defaultText? entries
where
  /-- The text of the first value that stands for its mapping. -/
  defaultText? : List (Node × Node) → Option String
    | [] => none
    | (key, value) :: rest =>
      if key.isScalarOf .default then scalarText? value else defaultText? rest

/-- The value of a collection whose tag is that of a scalar or has no meaning. -/
def collectionAsScalar (level : Nat) (tag : Tag) (node : Node) : Valued Datum :=
  match scalarText? node with
  | none => .error (level, .notYaml)
  | some text =>
    match scalarValue? tag text with
    | some (.ok datum) => .ok datum
    | some (.error fault) => .error (level, fault)
    | none => .error (level + 1, .notYaml)

/-- Whether a datum can be a key. -/
def canBeKey : Datum → Bool
  | .list _ | .mapping _ => false
  | _ => true

/-- A key with its value; a collection is no key. -/
def entryOf (level : Nat) (key value : Valued Datum) : Valued (Datum × Datum) :=
  match key with
  | .ok datum =>
    if canBeKey datum then value.map (datum, ·) else .error (level, .notYaml)
  | .error e => Valued.join (fun k v => (k, v)) (.error e) value

/-- A mapping of entries. -/
def mappingOf (entries : List (Datum × Datum)) : Datum :=
  .mapping (entries.foldl (fun all (key, value) => Datum.setEntry key value all) [])

mutual

/-- The value of a node at a distance from the root. -/
def value (level : Nat) : Node → Valued Datum
  | .scalar tag text =>
    match scalarValue? tag text with
    | some (.ok datum) => .ok datum
    | some (.error fault) => .error (level, fault)
    | none => .error (level + 1, .notYaml)
  | .sequence tag items =>
    if tag = .sequence then (values (level + 1) items).map .list
    else if tag = .mapping then .error (level + 1, .notYaml)
    else collectionAsScalar level tag (.sequence tag items)
  | .mapping tag entries =>
    if tag = .mapping then
      (Valued.join (· ++ ·) (merged (level + 1) entries) (own (level + 1) entries)).map mappingOf
    else if tag = .sequence then .error (level + 1, .notYaml)
    else collectionAsScalar level tag (.mapping tag entries)

/-- The values of nodes. -/
def values (level : Nat) : List Node → Valued (List Datum)
  | [] => .ok []
  | node :: rest => Valued.join (· :: ·) (value level node) (values level rest)

/-- The entries of a mapping apart from those that it merges. -/
def own (level : Nat) : List (Node × Node) → Valued (List (Datum × Datum))
  | [] => .ok []
  | (key, item) :: rest =>
    if key.isScalarOf .merge then own level rest
    else
      let keyValue := if key.isScalarOf .default then .ok (.text "=") else value level key
      Valued.join (· :: ·) (entryOf level keyValue (value level item)) (own level rest)

/-- The entries that a mapping merges. -/
def merged (level : Nat) : List (Node × Node) → Valued (List (Datum × Datum))
  | [] => .ok []
  | (key, item) :: rest =>
    if key.isScalarOf .merge then
      Valued.join (· ++ ·) (mergedFrom level item) (merged level rest)
    else merged level rest

/-- The entries of a mapping, or of all mappings of a sequence, the last one first. -/
def mergedFrom (level : Nat) : Node → Valued (List (Datum × Datum))
  | .mapping _ entries => Valued.join (· ++ ·) (merged level entries) (own level entries)
  | .sequence _ items => mergedFromAll level items
  | .scalar _ _ => .error (level, .notYaml)

/-- The entries of mappings, the last one first. -/
def mergedFromAll (level : Nat) : List Node → Valued (List (Datum × Datum))
  | [] => .ok []
  | .mapping _ entries :: rest =>
    Valued.join (fun here more => more ++ here)
      (Valued.join (· ++ ·) (merged level entries) (own level entries)) (mergedFromAll level rest)
  | _ :: _ => .error (level, .notYaml)

end

/-- Reads a text; a text that holds nothing stands for nothing. -/
def read (text : List Char) : Except Fault Datum := do
  match ← node? text with
  | none => return .null
  | some node =>
    match value 0 node with
    | .ok datum => return datum
    | .error (_, fault) => throw fault

end Bourse.Yaml
