/-!
Lists of named values in which a name keeps the place where it first stood.
-/
namespace Bourse.Entries

variable {β : Type}

/-- Adds an entry, or changes the value of an earlier entry of the same name where it stands. -/
def put (name : String) (value : β) (entries : List (String × β)) : List (String × β) :=
  if entries.any (·.1 == name) then
    entries.map fun entry => if entry.1 == name then (name, value) else entry
  else entries ++ [(name, value)]

/-- Puts entries one after another. -/
def putAll (entries more : List (String × β)) : List (String × β) :=
  more.foldl (fun all (name, value) => put name value all) entries

/-- The value under a name. -/
def get? (name : String) (entries : List (String × β)) : Option β :=
  (entries.find? (·.1 == name)).map (·.2)

end Bourse.Entries
