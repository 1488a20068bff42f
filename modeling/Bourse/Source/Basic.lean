import Bourse.Entries
import Bourse.Market.Batch
import Bourse.Service.History
import Bourse.Source.Csv
/-!
Sources of histories: the data service or a delimited file. Several symbols are fetched one after
another; one that fails with a message does not stop the others.
-/
namespace Bourse

/-- A source of histories. -/
inductive Source where
  | service (settings : ServiceSettings)
  | csv (settings : CsvSettings)

namespace Source

/-- The source of a kind, by the name of the kind in any case. -/
def resolve (name : String) (settings : ServiceSettings) (path : Option String)
    (csv : CsvSettings) : Except SourceError Source :=
  match Text.lower name with
  | "yahoo" => .ok (.service settings)
  | "csv" =>
    match path with
    | none | some "" => .error .noFilePath
    | some path => .ok (.csv { csv with path })
  | _ => .error (.unknownSource name)

/-- Whether a source is a file. -/
def isFile : Source → Bool
  | service _ => false
  | csv _ => true

end Source

/-- Where sources find their data: the service, if it is there, and the stored files. -/
structure World where
  service : Option Service := some {}
  stored : String → Stored := fun _ => .missing

namespace Source

/-- Fetches the history of a symbol. -/
def history (world : World) (source : Source) (symbol : String) (range : Option DateRange)
    (intervalName : String) : Fetched History :=
  match source with
  | service settings => Service.history world.service settings symbol range intervalName
  | csv settings =>
    { outcome := Csv.history (world.stored settings.path) settings symbol range intervalName }

/-- Adds what became of one symbol to a batch. -/
def enter (batch : Batch) (symbol : String) : Except SourceFailure History → Except Breakdown Batch
  | .ok history => .ok { batch with histories := Entries.put symbol history batch.histories }
  | .error (.reported error) =>
    .ok { batch with failed := Entries.put symbol error.message batch.failed }
  | .error (.broken breakdown) => .error breakdown

/-- The notice about a symbol that failed. -/
def failureNotices (symbol : String) : Except SourceFailure History → List Notice
  | .error (.reported error) =>
    [⟨.warning, sourceOrigin, s!"Download failed for {symbol}: {error.message}"⟩]
  | _ => []

/-- Fetches symbols one after another and adds them to a batch. -/
def fetchAll (fetch : String → Fetched History) (batch : Batch) : List String → Fetched Batch
  | [] => { outcome := .ok batch }
  | symbol :: rest =>
    let one := fetch symbol
    let notices := one.notices ++ failureNotices symbol one.outcome
    match enter batch symbol one.outcome with
    | .error breakdown => { outcome := .error (.broken breakdown), notices, calls := one.calls }
    | .ok batch =>
      let more := fetchAll fetch batch rest
      { more with notices := notices ++ more.notices, calls := one.calls ++ more.calls }

/-- Fetches the histories of several symbols. -/
def histories (fetch : String → Fetched History) (symbols : List String) : Fetched Batch :=
  if symbols.isEmpty then .failed .noSymbols else fetchAll fetch {} symbols

end Source

end Bourse
