import Bourse.Cli.Options
import Bourse.Cli.Reading
import Bourse.Storage.Files
import Bourse.Symbols
/-!
Commands: the first word that stands for itself names a command, and the words behind it are read by
the grammar of that command.
-/
namespace Bourse.Cli

/-- A command with its settings. -/
inductive Command where
  | quote (settings : QuoteSettings)
  | compare (settings : QuoteSettings)
  | history (settings : HistorySettings)
  | download (settings : DownloadSettings)
  | actions (settings : ActionSettings)
  | indicators (settings : IndicatorSettings)
  | screen (settings : ScreenSettings)

/-- A rejection, with the usage line and the name of the command that it is about. -/
structure Refusal where
  usage : String
  program : String
  reason : Rejection
deriving DecidableEq, Repr

/-- A command name with the reader of its settings. -/
structure CommandRule where
  name : String
  read : List String → Except Refusal (Command × List String)

/-- The refusal of words by a grammar. -/
def Grammar.refusal {σ : Type} (grammar : Grammar σ) (reason : Rejection) : Refusal :=
  ⟨grammar.usage, grammar.program, reason⟩

/-- The rule of a command with a grammar. -/
def CommandRule.ofGrammar {σ : Type} (name : String) (grammar : String → Grammar σ) (initial : σ)
    (wrap : σ → Command) : CommandRule where
  name
  read words :=
    match (grammar name).read initial words with
    | .ok (settings, unknown) => .ok (wrap settings, unknown)
    | .error reason => .error ((grammar name).refusal reason)

namespace Command

/-- Every command, in the order in which help shows them. -/
def rules : List CommandRule := [
  .ofGrammar "quote" quoteGrammar {} quote,
  .ofGrammar "compare" quoteGrammar {} compare,
  .ofGrammar "history" historyGrammar {} history,
  .ofGrammar "download" downloadGrammar {} download,
  .ofGrammar "actions" actionGrammar {} actions,
  .ofGrammar "indicators" indicatorGrammar {} indicators,
  .ofGrammar "screen" screenGrammar {} screen]

/-- The grammar of the whole command line, which leaves the words from the command on. -/
def grammar : Grammar (List String) where
  program := program
  options := [helpOption]
  positional := ⟨"command", .tail, fun words _ => words⟩

/-- The rule of a command. -/
def rule? (name : String) : Except Refusal CommandRule :=
  match rules.find? (·.name == name) with
  | some rule => .ok rule
  | none =>
    let fault := ValueFault.notChoice (rules.map (·.name))
    .error (grammar.refusal (.usage (.badValue grammar.positional.name name fault)))

/-- Refuses words that have no place. -/
def refuseUnknown (words : List String) : Except Refusal Unit :=
  if words.isEmpty then .ok () else .error (grammar.refusal (.usage (.unknown words)))

/-- The command that a command line asks for, if it names one. -/
def read (words : List String) : Except Refusal (Option Command) := do
  let (inner, unknown) ← (grammar.read [] words).mapError grammar.refusal
  match inner with
  | [] =>
    refuseUnknown unknown
    return none
  | name :: rest =>
    let (command, more) ← (← rule? name).read rest
    refuseUnknown (unknown ++ more)
    return some command

/-- The arguments that name symbols, where a command takes them from its arguments. -/
def symbolArguments? : Command → Option (List String)
  | quote settings => some settings.symbols
  | compare settings => some settings.symbols
  | download settings => some settings.symbols
  | screen settings => if settings.config.all (· == "") then some settings.symbols else none
  | _ => none

/-- Whether a command reads the input. -/
def readsInput (terminal : Bool) (command : Command) : Bool :=
  command.symbolArguments?.any fun arguments => Symbols.readsInput arguments terminal

/-- The paths that a command looks at. -/
def paths : Command → List String
  | history settings => settings.bars.file.toList
  | download settings =>
    settings.bars.file.toList ++ settings.output.toList ++ settings.output.toList.map Path.parent
  | indicators settings => settings.config.toList ++ settings.bars.file.toList
  | screen settings => settings.config.toList
  | _ => []

end Command

end Bourse.Cli
