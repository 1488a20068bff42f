import Bourse.Cli.Word
/-!
Reading a command line: options are applied in their order, and the words that stand for themselves
are taken at one place. Words that have no place are handed back.
-/
namespace Bourse.Cli

/-- Why a command line is not carried out. -/
inductive Rejection where
  /-- Help was asked for. -/
  | help
  | usage (error : UsageError)
deriving DecidableEq, Repr

/-- An option that is to be applied, with its value. -/
structure Applied (σ : Type) where
  rule : OptionRule σ
  value : String := ""

namespace Count

variable {σ : Type}

/-- The roles of words. -/
def roles (words : List (Word σ)) : List (Role σ) := words.map fun word => word.role

/-- How many words at the front are taken. Two dashes next to a word that is taken go with it. -/
def extent : Count → List (Word σ) → Nat
  | many, words => (words.takeWhile fun word => !word.isOption).length
  | tail, words =>
    match roles words with
    | .plain :: _ => words.length
    | .dashes :: .plain :: _ => words.length
    | _ => 0
  | one, words =>
    match roles words with
    | .dashes :: .plain :: _ => 2
    | .plain :: .dashes :: _ => 2
    | .plain :: _ => 1
    | _ => 0
  | optional, words =>
    match roles words with
    | .dashes :: .plain :: _ => 2
    | .plain :: .dashes :: _ => 2
    | .plain :: _ => 1
    | .dashes :: _ => 1
    | _ => 0

end Count

namespace Positional

variable {σ : Type}

/-- The texts of the words that are taken, without the first two dashes among them. -/
def texts (positional : Positional σ) (words : List (Word σ)) : List String :=
  let all := words.map (·.text)
  if positional.count = .tail then all else all.erase "--"

end Positional

namespace Grammar

variable {σ : Type}

/-- Applies an option without attached text. The next word is its value if it needs one; whether
that word is taken. -/
def separate (rule : OptionRule σ) (next : Option String) :
    Except UsageError (List (Applied σ) × Bool) :=
  if rule.action.takesValue then
    match next with
    | some value => .ok ([⟨rule, value⟩], true)
    | none => .error (.noValue rule.label)
  else .ok ([⟨rule, ""⟩], false)

/-- Applies an option with attached text. That is the value; behind a short name without a value it
consists of more short names. -/
def together (grammar : Grammar σ) (isShort : Bool) (rule : OptionRule σ) (next : Option String) :
    List Char → Except UsageError (List (Applied σ) × Bool)
  | [] =>
    if rule.action.takesValue then .ok ([⟨rule, ""⟩], false)
    else .error (.strayValue rule.label "")
  | c :: rest =>
    if rule.action.takesValue then .ok ([⟨rule, String.ofList (c :: rest)⟩], false)
    else
      match if isShort then grammar.rule? (String.ofList ['-', c]) else none with
      | none => .error (.strayValue rule.label (String.ofList (c :: rest)))
      | some inner => do
        let (more, taken) ←
          if rest.isEmpty then separate inner next
          else grammar.together isShort inner next rest
        return (⟨rule, ""⟩ :: more, taken)

/-- The options that a word stands for, and whether they take the next word. -/
def resolve (grammar : Grammar σ) (name : String) (rule : OptionRule σ)
    (attached : Option (List Char)) (next : Option String) :
    Except UsageError (List (Applied σ) × Bool) :=
  match attached with
  | none => separate rule next
  | some text => grammar.together (name.toList[1]? != some '-') rule next text

/-- Applies an option to settings. -/
def applyOne (settings : σ) (applied : Applied σ) : Except Rejection σ :=
  match applied.rule.action with
  | .help => .error .help
  | .flag set => .ok (set settings)
  | .value set =>
    match set applied.value with
    | .ok change => .ok (change settings)
    | .error fault => .error (.usage (.badValue applied.rule.label applied.value fault))

/-- How far a command line has been read. -/
structure Progress (σ : Type) where
  settings : σ
  /-- The words that stand for themselves, until they are taken. -/
  positional : Option (Positional σ)
  unknown : List String := []

/-- The text of the next word if that can be a value. -/
def nextValue? : List (Word σ) → Option String
  | ⟨text, .plain⟩ :: _ => some text
  | _ => none

/-- Applies the options of a word; how many words behind it are taken. -/
def applyOption (grammar : Grammar σ) (progress : Progress σ) (name : String) (rule : OptionRule σ)
    (attached : Option (List Char)) (rest : List (Word σ)) :
    Except Rejection (Progress σ × Nat) := do
  let (applied, taken) ← (grammar.resolve name rule attached (nextValue? rest)).mapError .usage
  let settings ← applied.foldlM applyOne progress.settings
  return ({ progress with settings }, if taken then 1 else 0)

/-- Takes words that stand for themselves; how many of them are taken. -/
def takePlain (progress : Progress σ) (words : List (Word σ)) : Progress σ × Nat :=
  match progress.positional with
  | none => (progress, 0)
  | some positional =>
    let count := positional.count.extent words
    if count = 0 then (progress, 0)
    else
      let settings := positional.set (positional.texts (words.take count)) progress.settings
      ({ progress with settings, positional := none }, count)

/-- A word that has no place. -/
def strand (progress : Progress σ) (word : Word σ) : Progress σ :=
  { progress with unknown := progress.unknown ++ [word.text] }

/-- Reads words one after another. -/
def consume (grammar : Grammar σ) (progress : Progress σ) :
    List (Word σ) → Except Rejection (Progress σ)
  | [] => .ok progress
  | word :: rest =>
    match word.role with
    | .unknown => grammar.consume (strand progress word) rest
    | .option name rule attached => do
      let (progress, taken) ← grammar.applyOption progress name rule attached rest
      grammar.consume progress (rest.drop taken)
    | _ =>
      let (moved, count) := takePlain progress (word :: rest)
      if count = 0 then grammar.consume (strand progress word) rest
      else grammar.consume moved (rest.drop (count - 1))
termination_by words => words.length
decreasing_by all_goals simp only [List.length_cons, List.length_drop]; omega

/-- The settings that a command line describes, and the words that have no place in it. -/
def read (grammar : Grammar σ) (initial : σ) (texts : List String) :
    Except Rejection (σ × List String) := do
  let words ← (grammar.words texts).mapError .usage
  let progress ← grammar.consume ⟨initial, some grammar.positional, []⟩ words
  match progress.positional with
  | some ⟨name, .one, _⟩ => throw (.usage (.missing name))
  | _ => return (progress.settings, progress.unknown)

end Grammar

end Bourse.Cli
