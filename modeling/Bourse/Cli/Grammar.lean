import Bourse.Number.Numeral
import Bourse.Text.Quoted
/-!
Grammars of command lines: options under their names with what they do to the settings of a command,
and the words that stand for themselves.
-/
namespace Bourse.Cli

/-- The reasons why a text is no value of an option. -/
inductive ValueFault where
  /-- No number of the kind with this name. -/
  | notNumber (kind : String)
  /-- None of the words that may stand here. -/
  | notChoice (words : List String)
deriving DecidableEq, Repr

/-- What an option does to settings. -/
inductive Action (σ : Type) where
  /-- Asks for help and ends the reading. -/
  | help
  | flag (set : σ → σ)
  | value (set : String → Except ValueFault (σ → σ))

namespace Action

variable {σ : Type}

/-- An option with a text. -/
def text (set : String → σ → σ) : Action σ := value fun s => .ok (set s)

/-- An option with an integer. -/
def integer (set : Int → σ → σ) : Action σ :=
  value fun s =>
    match Numeral.integer? s.toList with
    | some n => .ok (set n)
    | none => .error (.notNumber "int")

/-- An option with a number. -/
def real (set : Float → σ → σ) : Action σ :=
  value fun s =>
    match Numeral.float? s.toList with
    | some x => .ok (set x)
    | none => .error (.notNumber "float")

/-- An option with the name of one of some things. -/
def choice {α : Type} (all : List α) (name : α → String) (set : α → σ → σ) : Action σ :=
  value fun s =>
    match all.find? fun a => name a == s with
    | some a => .ok (set a)
    | none => .error (.notChoice (all.map name))

/-- Whether an option has a value. -/
def takesValue : Action σ → Bool
  | value _ => true
  | _ => false

end Action

/-- An option under one or more names. -/
structure OptionRule (σ : Type) where
  names : List String
  action : Action σ

/-- The names of an option, as messages show them. -/
def OptionRule.label {σ : Type} (rule : OptionRule σ) : String := "/".intercalate rule.names

/-- How many words stand for themselves. -/
inductive Count where
  | one
  | optional
  | many
  /-- A word and everything behind it, options too. -/
  | tail
deriving DecidableEq, Repr

/-- The words that stand for themselves. -/
structure Positional (σ : Type) where
  name : String
  count : Count
  set : List String → σ → σ

/-- The grammar of a command line. -/
structure Grammar (σ : Type) where
  program : String
  options : List (OptionRule σ)
  positional : Positional σ

/-- The reasons why words are no command line. -/
inductive UsageError where
  /-- The start of several names. -/
  | ambiguous (word : String) (names : List String)
  /-- An option without its value. -/
  | noValue (label : String)
  /-- A value attached to an option that takes none. -/
  | strayValue (label value : String)
  | badValue (label value : String) (fault : ValueFault)
  | missing (name : String)
  | unknown (words : List String)
deriving DecidableEq, Repr

/-- What is wrong with a value. -/
def ValueFault.message (value : String) : ValueFault → String
  | notNumber kind => s!"invalid {kind} value: {Text.quoted value}"
  | notChoice words =>
    let choices := ", ".intercalate (words.map Text.quoted)
    s!"invalid choice: {Text.quoted value} (choose from {choices})"

/-- The text of an error. -/
def UsageError.message : UsageError → String
  | ambiguous word names => s!"ambiguous option: {word} could match " ++ ", ".intercalate names
  | noValue label => s!"argument {label}: expected one argument"
  | strayValue label value => s!"argument {label}: ignored explicit argument {Text.quoted value}"
  | badValue label value fault => s!"argument {label}: {fault.message value}"
  | missing name => s!"the following arguments are required: {name}"
  | unknown words => "unrecognized arguments: " ++ " ".intercalate words

namespace Grammar

variable {σ : Type}

/-- Every name of an option with its rule, in order. -/
def names (grammar : Grammar σ) : List (String × OptionRule σ) :=
  grammar.options.flatMap fun rule => rule.names.map fun name => (name, rule)

/-- The option with a name. -/
def rule? (grammar : Grammar σ) (name : String) : Option (OptionRule σ) :=
  (grammar.names.find? (·.1 == name)).map (·.2)

/-- How the words that stand for themselves appear in the usage line. -/
def positionalUsage (grammar : Grammar σ) : String :=
  let name := grammar.positional.name
  match grammar.positional.count with
  | .one => name
  | .optional => "[" ++ name ++ "]"
  | .many => "[" ++ name ++ " ...]"
  | .tail => "[" ++ name ++ " ...]"

/-- How an option appears in the usage line. -/
def optionUsage (rule : OptionRule σ) : String :=
  let name := rule.names.headD ""
  if rule.action.takesValue then "[" ++ name ++ " VALUE]" else "[" ++ name ++ "]"

/-- The line that shows how a command is used. -/
def usage (grammar : Grammar σ) : String :=
  " ".intercalate (["usage:", grammar.program] ++ grammar.options.map optionUsage ++
    [grammar.positionalUsage])

end Grammar

end Bourse.Cli
