import Bourse.Cli.Grammar
/-!
The roles of words on a command line. A word with a dash in front is an option if it is the name of
one, the start of just one name, or a short name with more text attached; a negative number and a
text with a space stand for themselves. Behind two dashes every word does.
-/
namespace Bourse.Cli

/-- What a word is. -/
inductive Role (σ : Type) where
  /-- The two dashes behind which every word stands for itself. -/
  | dashes
  | plain
  /-- An option under a name, perhaps with attached text. -/
  | option (name : String) (rule : OptionRule σ) (attached : Option (List Char))
  /-- An option that does not exist. -/
  | unknown

/-- A word with its role. -/
structure Word (σ : Type) where
  text : String
  role : Role σ

namespace Word

variable {σ : Type}

/-- Whether a word is an option, known or not. -/
def isOption (word : Word σ) : Bool :=
  match word.role with
  | .option .. => true
  | .unknown => true
  | _ => false

/-- A word that stands for itself. -/
def plain (text : String) : Word σ := ⟨text, .plain⟩

end Word

/-- Whether a text is a negative number: digits, or a point with digits behind it and perhaps before
it. A line feed may end it. -/
def isNegativeNumber (text : List Char) : Bool :=
  let isDigit := fun c => (Text.decimalValue? c).isSome
  match text with
  | '-' :: rest =>
    let body := if rest.getLast? == some '\n' then rest.dropLast else rest
    match body.dropWhile isDigit with
    | [] => !body.isEmpty
    | '.' :: fraction => !fraction.isEmpty && fraction.all isDigit
    | _ => false
  | _ => false

/-- A text up to its first equals sign, and what follows that. -/
def splitEquals (text : List Char) : List Char × Option (List Char) :=
  match text.dropWhile (· != '=') with
  | _ :: attached => (text.takeWhile (· != '='), some attached)
  | [] => (text, none)

namespace Grammar

variable {σ : Type}

/-- The option whose whole name stands before an equals sign. -/
def beforeEquals? (grammar : Grammar σ) (text : List Char) : Option (Role σ) :=
  match splitEquals text with
  | (name, some attached) =>
    (grammar.rule? (String.ofList name)).map fun rule =>
      .option (String.ofList name) rule (some attached)
  | _ => none

/-- The names that a word may stand for, each with its role. Two dashes begin the start of a name;
one dash begins a short name with attached text, or the start of a name. -/
def candidates (grammar : Grammar σ) (text : List Char) : List (String × Role σ) :=
  match text with
  | '-' :: '-' :: _ =>
    let (start, attached) := splitEquals text
    (grammar.names.filter fun entry => start.isPrefixOf entry.1.toList).map
      fun (name, rule) => (name, .option name rule attached)
  | _ =>
    grammar.names.filterMap fun (name, rule) =>
      if name.toList == text.take 2 then some (name, .option name rule (some (text.drop 2)))
      else if text.isPrefixOf name.toList then some (name, .option name rule none)
      else none

/-- The role of a word that begins with a dash and is not the name of an option. -/
def guess (grammar : Grammar σ) (text : List Char) : Except UsageError (Role σ) :=
  match grammar.candidates text with
  | [] => .ok (if isNegativeNumber text || text.contains ' ' then .plain else .unknown)
  | [(_, role)] => .ok role
  | several => .error (.ambiguous (String.ofList text) (several.map (·.1)))

/-- The role of a word. -/
def role (grammar : Grammar σ) (text : String) : Except UsageError (Role σ) :=
  if text.toList.head? ≠ some '-' then .ok .plain
  else
    match grammar.rule? text with
    | some rule => .ok (.option text rule none)
    | none =>
      if text = "-" then .ok .plain
      else
        match grammar.beforeEquals? text.toList with
        | some role => .ok role
        | none => grammar.guess text.toList

/-- The words of a command line with their roles. -/
def words (grammar : Grammar σ) : List String → Except UsageError (List (Word σ))
  | [] => .ok []
  | text :: rest =>
    if text = "--" then .ok (⟨text, .dashes⟩ :: rest.map Word.plain)
    else do
      let role ← grammar.role text
      return ⟨text, role⟩ :: (← grammar.words rest)

end Grammar

end Bourse.Cli
