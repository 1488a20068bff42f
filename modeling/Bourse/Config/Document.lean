import Bourse.Storage.Files
import Bourse.Text.Utf8
import Bourse.Yaml.Value
/-!
Configuration files: a mapping in YAML, in UTF-8 with line ends of any kind.
-/
namespace Bourse.Config

/-- The reasons why a file is no configuration. -/
inductive DocumentError where
  | missing (path : String)
  | folder
  /-- A path through a file as if that were a folder. -/
  | blocked
  | undecodable
  | fault (fault : Yaml.Fault)
  | notMapping
deriving DecidableEq, Repr

/-- The text of an error, for those that have one. -/
def DocumentError.message? : DocumentError → Option String
  | missing path => some s!"Configuration file not found: {Path.normal path}"
  | fault .notYaml => some "Invalid YAML in configuration file"
  | notMapping => some "Configuration must be a YAML mapping"
  | _ => none

/-- A text in which every line ends with a line feed. -/
def unifyLines : List Char → List Char
  | '\r' :: '\n' :: rest => '\n' :: unifyLines rest
  | '\r' :: rest => '\n' :: unifyLines rest
  | c :: rest => c :: unifyLines rest
  | [] => []

/-- The entries of a configuration text. -/
def entriesOfText (text : List Char) : Except DocumentError (List (Datum × Datum)) :=
  match Yaml.read (unifyLines text) with
  | .error fault => .error (.fault fault)
  | .ok (.mapping entries) => .ok entries
  | .ok _ => .error .notMapping

/-- The entries of what is stored under a path. -/
def entries (path : String) : Stored → Except DocumentError (List (Datum × Datum))
  | .missing => .error (.missing path)
  | .folder => .error .folder
  | .blocked => .error .blocked
  | .file bytes =>
    let decoded := Text.decode bytes
    if decoded.isWhole then entriesOfText decoded.text else .error .undecodable

/-- Names as a list in ascending order. -/
def nameList (names : List String) : String :=
  (Datum.list ((names.mergeSort fun a b => decide (a ≤ b)).map .text)).quoted

end Bourse.Config
