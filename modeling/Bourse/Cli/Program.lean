import Bourse.Cli.Execution
/-!
The program: it reads a command from a command line, carries it out and ends with a status, unless
the run breaks off at a fault without a message.
-/
namespace Bourse.Cli

/-- How the program ends. -/
inductive Ending where
  | status (code : Nat)
  /-- A fault without a message. -/
  | broken (fault : Fault)

namespace Program

/-- The status after a message about a fault. -/
def failure : Nat := 1

/-- The status after a command line that makes no sense. -/
def misuse : Nat := 2

/-- Shows help, or the usage line and what is wrong with a command line. -/
def refuse (refusal : Refusal) : Transcript × Ending :=
  match refusal.reason with
  | .help => ({ output := refusal.usage ++ "\n" }, .status 0)
  | .usage error =>
    ({ errors := refusal.usage ++ "\n" ++ s!"{refusal.program}: error: {error.message}\n" },
      .status misuse)

/-- Ends a run; a fault with a message is reported. -/
def finish : Except Fault Nat × Transcript → Transcript × Ending
  | (.ok code, transcript) => (transcript, .status code)
  | (.error fault, transcript) =>
    match fault.message? with
    | some text =>
      ({ transcript with errors := transcript.errors ++ s!"Error: {text}\n" }, .status failure)
    | none => (transcript, .broken fault)

/-- Carries out a command from an empty transcript. -/
def carryOut (session : Session) (command : Command) : Transcript × Ending :=
  let session := { session with verbose := command.display.verbose }
  finish ((command.carryOut.run session).run.run {})

/-- Runs the program on the words of a command line. -/
def run (session : Session) (words : List String) : Transcript × Ending :=
  match Command.read words with
  | .error refusal => refuse refusal
  | .ok none => refuse (Command.grammar.refusal .help)
  | .ok (some command) => carryOut session command

end Program

end Bourse.Cli
