import Bourse.Json.Basic
import Bourse.Number.Layout
import Bourse.Text.Quoted
/-!
The text of JSON values: on one line, or with one item a line and an indentation. Text is written
in ASCII; characters beyond the first plane become two escapes.
-/
namespace Bourse

/-- Numbers in JSON: shortest form, with words for NaN and the infinities. -/
def Layout.json : Layout := { Layout.plain with nan := "NaN", infinity := "Infinity" }

namespace Json

/-- An escape of a 16-bit unit. -/
def unitEscape (unit : Nat) : List Char := '\\' :: 'u' :: Text.hexPadded 4 unit

/-- One character inside quotes. -/
def escapeChar (c : Char) : List Char :=
  if c == '"' then ['\\', '"']
  else if c == '\\' then ['\\', '\\']
  else if c == '\n' then ['\\', 'n']
  else if c == '\r' then ['\\', 'r']
  else if c == '\t' then ['\\', 't']
  else if c.toNat == 8 then ['\\', 'b']
  else if c.toNat == 12 then ['\\', 'f']
  else if 32 ≤ c.toNat && c.toNat ≤ 126 then [c]
  else if c.toNat < 0x10000 then unitEscape c.toNat
  else
    unitEscape (0xd800 + (c.toNat - 0x10000) / 0x400) ++
      unitEscape (0xdc00 + (c.toNat - 0x10000) % 0x400)

/-- Text in quotes. -/
def quotedText (s : String) : String :=
  String.ofList ('"' :: s.toList.flatMap escapeChar ++ ['"'])

/-- A running number. -/
def number (x : Float) : String := Layout.json.value (Binary64.ofFloat x)

mutual

/-- A value on one line. -/
def compact : Json → String
  | null => "null"
  | bool b => if b then "true" else "false"
  | int n => Layout.integer n
  | real x => number x
  | text s => quotedText s
  | list items => "[" ++ ", ".intercalate (compactItems items) ++ "]"
  | record members => "\x7b" ++ ", ".intercalate (compactMembers members) ++ "\x7d"

/-- The items of a list, each on one line. -/
def compactItems : List Json → List String
  | [] => []
  | item :: rest => compact item :: compactItems rest

/-- The members of a record, each on one line. -/
def compactMembers : List (String × Json) → List String
  | [] => []
  | (name, value) :: rest => (quotedText name ++ ": " ++ compact value) :: compactMembers rest

end

/-- Items between brackets, one a line; nothing stands between the brackets if there are none. -/
def enclose (opening closing : String) (margin : Nat) (items : List String) : String :=
  if items.isEmpty then opening ++ closing
  else
    let pad := fun n => String.ofList (List.replicate n ' ')
    opening ++ "\n" ++ ",\n".intercalate (items.map (pad (margin + 2) ++ ·)) ++ "\n" ++
      pad margin ++ closing

mutual

/-- A value whose items stand on lines of their own, two columns right of the margin. -/
def indented (margin : Nat) : Json → String
  | list items => enclose "[" "]" margin (indentedItems margin items)
  | record members => enclose "\x7b" "\x7d" margin (indentedMembers margin members)
  | value => compact value

/-- The items of a list, each from its own line on. -/
def indentedItems (margin : Nat) : List Json → List String
  | [] => []
  | item :: rest => indented (margin + 2) item :: indentedItems margin rest

/-- The members of a record, each from its own line on. -/
def indentedMembers (margin : Nat) : List (String × Json) → List String
  | [] => []
  | (name, value) :: rest =>
    (quotedText name ++ ": " ++ indented (margin + 2) value) :: indentedMembers margin rest

end

end Json

end Bourse
