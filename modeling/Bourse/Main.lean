import Bourse.Cli.Program
import Std.Time.DateTime
/-!
The program in its surroundings: its arguments, its input, the clock and the files that its command
looks at. No data service is connected, so bars come from files.
-/
namespace Bourse.Cli.Surroundings

/-- What is stored under a path. -/
def storedAt (path : String) : IO Stored := do
  try
    return .file (← IO.FS.readBinFile path)
  catch e =>
    match e with
    | .noFileOrDirectory .. => return .missing
    | _ => return .folder

/-- The paths that a command looks at, with what is stored under them. -/
def stored (command : Command) : IO (List (String × Stored)) :=
  command.paths.mapM fun path => do return (path, ← storedAt path)

/-- The current moment. -/
def now : IO Moment := do
  let elapsed := (← Std.Time.Timestamp.now).toNanosecondsSinceUnixEpoch.val
  return ⟨Moment.epoch + (elapsed / 1000).toNat, some 0⟩

/-- The lines of a stream up to its end. -/
partial def readAll (stream : IO.FS.Stream) (seen : String := "") : IO String := do
  let line ← stream.getLine
  if line.isEmpty then return seen
  readAll stream (seen ++ line)

/-- What a command finds. -/
def session (command : Command) : IO Session := do
  let stored ← stored command
  let stdin ← IO.getStdin
  let terminal ← stdin.isTty
  let input ← if command.readsInput terminal then readAll stdin else pure ""
  let lookup := fun (path : String) => ((stored.find? (·.1 == path)).map (·.2)).getD .missing
  return { world := { service := none, stored := lookup }, now := ← now, input, terminal }

/-- Writes what a run leaves behind; the status of the program. -/
def settle (transcript : Transcript) (ending : Ending) : IO UInt32 := do
  IO.print transcript.output
  IO.eprint transcript.errors
  transcript.written.forM fun (path, text) => IO.FS.writeFile path text
  match ending with
  | .status code => return code.toUInt32
  | .broken _ =>
    IO.eprintln "The run broke off."
    return Program.failure.toUInt32

end Bourse.Cli.Surroundings

open Bourse.Cli Surroundings in
/-- Runs the program on its arguments. -/
def main (arguments : List String) : IO UInt32 := do
  match Command.read arguments with
  | .ok (some command) =>
    let (transcript, ending) := Program.carryOut (← session command) command
    settle transcript ending
  | _ =>
    let (transcript, ending) := Program.run { now := ← now } arguments
    settle transcript ending
