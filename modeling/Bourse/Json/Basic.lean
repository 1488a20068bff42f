/-!
JSON values. Integers and other numbers are told apart by how they are written; a record keeps its
members in order.
-/
namespace Bourse

/-- A JSON value. -/
inductive Json where
  | null
  | bool (b : Bool)
  | int (n : Int)
  | real (x : Float)
  | text (s : String)
  | list (items : List Json)
  | record (members : List (String × Json))
deriving Inhabited

namespace Json

/-- The value of a member. -/
def member? (name : String) : Json → Option Json
  | record members => (members.find? (·.1 == name)).map (·.2)
  | _ => none

/-- The members of a record; other values have none. -/
def members : Json → List (String × Json)
  | record members => members
  | _ => []

/-- The items of a list; other values have none. -/
def items : Json → List Json
  | list items => items
  | _ => []

/-- The text of a text value. -/
def text? : Json → Option String
  | text s => some s
  | _ => none

/-- The integer of an integer value. -/
def int? : Json → Option Int
  | int n => some n
  | _ => none

end Json

end Bourse
