import Bourse.Yaml.Cursor
/-!
Scalars in quotes. Single quotes are written twice inside single quotes; between double quotes a
backslash begins an escape. Line ends are folded.
-/
namespace Bourse.Yaml

/-- The escapes of one letter. -/
def escapes : List (Char × Nat) :=
  [('0', 0), ('a', 7), ('b', 8), ('t', 9), ('\t', 9), ('n', 10), ('v', 11), ('f', 12), ('r', 13),
    ('e', 0x1b), (' ', 0x20), ('"', 0x22), ('\\', 0x5c), ('/', 0x2f), ('N', 0x85), ('_', 0xa0),
    ('L', 0x2028), ('P', 0x2029)]

/-- The escapes of a number, with the count of its digits. -/
def numericEscapes : List (Char × Nat) := [('x', 2), ('u', 4), ('U', 8)]

/-- The value of a hexadecimal digit. -/
def hexDigit? (c : Char) : Option Nat :=
  if '0' ≤ c ∧ c ≤ '9' then some (c.toNat - 48)
  else if 'a' ≤ c ∧ c ≤ 'f' then some (c.toNat - 87)
  else if 'A' ≤ c ∧ c ≤ 'F' then some (c.toNat - 55)
  else none

/-- The number in some hexadecimal digits. -/
def hexNumber? (digits : List Char) : Option Nat :=
  digits.foldlM (fun n c => (hexDigit? c).map (16 * n + ·)) 0

/-- The line ends and blanks after a first line end. -/
def quotedBreaks : Nat → List Char → Cursor → Except Fault (List Char × Cursor)
  | 0, seen, cursor => .ok (seen, cursor)
  | fuel + 1, seen, cursor =>
    if cursor.isDocumentMark then .error .notYaml
    else
      let cursor := cursor.skipWhile isWhite
      match cursor.lineEnd? with
      | some (c, cursor) => quotedBreaks fuel (seen ++ [c]) cursor
      | none => .ok (seen, cursor)

/-- Blanks and line ends inside quotes. -/
def quotedGap (cursor : Cursor) : Except Fault (List Char × Cursor) := do
  let (blanks, cursor) := cursor.span isWhite
  match cursor.lineEnd? with
  | some (first, cursor) =>
    let (more, cursor) ← quotedBreaks (cursor.rest.length + 1) [] cursor
    return (folded first more, cursor)
  | none => if cursor.rest.isEmpty then throw .notYaml else return (blanks, cursor)

/-- The character of a number; half a surrogate pair becomes the replacement character. -/
def charOf (code : Nat) : Char := if code.isValidChar then Char.ofNat code else Char.ofNat 0xfffd

/-- An escape of a number of hexadecimal digits. -/
def numericEscape (count : Nat) (cursor : Cursor) : Except Fault (List Char × Cursor) :=
  let digits := cursor.rest.take count
  match hexNumber? digits with
  | some code =>
    if digits.length < count then .error .notYaml
    else if 0x10ffff < code then .error (.noCharacter code)
    else .ok ([charOf code], cursor.skip count)
  | none => .error .notYaml

/-- What follows a backslash. -/
def escape (cursor : Cursor) : Except Fault (List Char × Cursor) :=
  let c := cursor.peek
  match escapes.lookup c, numericEscapes.lookup c, cursor.lineEnd? with
  | some code, _, _ => .ok ([Char.ofNat code], cursor.next)
  | none, some count, _ => numericEscape count cursor.next
  | none, none, some (_, cursor) => quotedBreaks (cursor.rest.length + 1) [] cursor
  | none, none, none => .error .notYaml

/-- Reads up to the closing quote; `seen` holds the text so far, last first. -/
def quotedParts (quote : Char) : Nat → List Char → Cursor → Except Fault (List Char × Cursor)
  | 0, _, _ => .error .notYaml
  | fuel + 1, seen, cursor =>
    let c := cursor.peek
    if cursor.rest.isEmpty then .error .notYaml
    else if c == quote then
      if quote == '\'' && cursor.peek 1 == '\'' then
        quotedParts quote fuel ('\'' :: seen) (cursor.skip 2)
      else .ok (seen.reverse, cursor.next)
    else if isWhite c || isBreak c then do
      let (gap, cursor) ← quotedGap cursor
      quotedParts quote fuel (gap.reverse ++ seen) cursor
    else if quote == '"' && c == '\\' then do
      let (text, cursor) ← escape cursor.next
      quotedParts quote fuel (text.reverse ++ seen) cursor
    else quotedParts quote fuel (c :: seen) cursor.next

/-- Reads a scalar in quotes. -/
def quotedScalar (cursor : Cursor) : Except Fault (List Char × Cursor) :=
  quotedParts cursor.peek (cursor.rest.length + 1) [] cursor.next

end Bourse.Yaml
