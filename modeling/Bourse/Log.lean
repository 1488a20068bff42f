/-!
Notices that a run leaves for its user, in order.
-/
namespace Bourse

/-- How serious a notice is. -/
inductive Level where
  | debug
  | info
  | warning
  | error
deriving DecidableEq, Repr

namespace Level

/-- The name of a level. -/
def name : Level → String
  | debug => "DEBUG"
  | info => "INFO"
  | warning => "WARNING"
  | error => "ERROR"

/-- The place of a level among the others. -/
def rank : Level → Nat
  | debug => 0
  | info => 1
  | warning => 2
  | error => 3

end Level

/-- A notice with the part of the program that it comes from. -/
structure Notice where
  level : Level
  origin : String
  message : String
deriving DecidableEq, Repr

/-- The line that shows a notice. -/
def Notice.line (n : Notice) : String := s!"{n.level.name} {n.origin}: {n.message}"

/-- A result together with the notices on the way to it. -/
structure Logged (α : Type) where
  result : α
  notices : List Notice := []

end Bourse
