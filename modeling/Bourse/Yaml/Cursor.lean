/-!
Places in a text of YAML, with the column that indentation is measured by, and the classes of
characters that structure the text.
-/
namespace Bourse.Yaml

/-- The reasons why a text has no value. -/
inductive Fault where
  /-- The text breaks a rule of YAML, or names an anchor or a tag that does not exist. -/
  | notYaml
  /-- An escape with a number that no character has. -/
  | noCharacter (code : Nat)
  /-- A scalar marked as a truth value that is none. -/
  | noTruth (text : String)
  /-- A scalar marked as a number without a digit or a sign. -/
  | emptyNumber
  /-- A number that cannot be read. -/
  | noNumber (text : String)
  /-- A scalar marked as a time that does not look like one. -/
  | noTime (text : String)
  /-- A time with a field out of its range. -/
  | badTime (text : String)
deriving DecidableEq, Repr

/-- A line end: a line feed, a next-line character, or a line or paragraph separator. -/
def isBreak (c : Char) : Bool :=
  c == '\n' || c.toNat == 0x85 || c.toNat == 0x2028 || c.toNat == 0x2029

/-- A line end or the end of the text, which stands for a null character. -/
def isEnd (c : Char) : Bool := c == '\x00' || isBreak c

/-- A space or an end. -/
def isSpaceOrEnd (c : Char) : Bool := c == ' ' || isEnd c

/-- A space, a tab or an end. -/
def isGap (c : Char) : Bool := c == '\t' || isSpaceOrEnd c

/-- A space or a tab. -/
def isWhite (c : Char) : Bool := c == ' ' || c == '\t'

/-- Characters that a text of YAML may hold. -/
def isAllowed (c : Char) : Bool :=
  let n := c.toNat
  n == 9 || n == 10 || n == 13 || (0x20 ≤ n && n ≤ 0x7e) || n == 0x85 ||
    (0xa0 ≤ n && n ≤ 0xfffd) || 0x10000 ≤ n

/-- A letter, a digit, a hyphen or an underscore. -/
def isWordChar (c : Char) : Bool :=
  ('0' ≤ c && c ≤ '9') || ('A' ≤ c && c ≤ 'Z') || ('a' ≤ c && c ≤ 'z') || c == '-' || c == '_'

/-- A place in a text. -/
structure Cursor where
  rest : List Char
  index : Nat := 0
  line : Nat := 0
  column : Nat := 0

namespace Cursor

/-- The character some places ahead. -/
def peek (cursor : Cursor) (ahead : Nat := 0) : Char := cursor.rest.getD ahead '\x00'

/-- The place behind the next character. A byte order mark takes no column. -/
def next (cursor : Cursor) : Cursor :=
  match cursor.rest with
  | [] => cursor
  | c :: rest =>
    if isBreak c then ⟨rest, cursor.index + 1, cursor.line + 1, 0⟩
    else
      let column := if c.toNat = 0xfeff then cursor.column else cursor.column + 1
      ⟨rest, cursor.index + 1, cursor.line, column⟩

/-- The place behind some characters. -/
def skip (cursor : Cursor) : Nat → Cursor
  | 0 => cursor
  | n + 1 => cursor.next.skip n

/-- The longest run of characters of a class, and the place behind it. -/
def span (p : Char → Bool) (cursor : Cursor) : List Char × Cursor :=
  let run := cursor.rest.takeWhile p
  (run, cursor.skip run.length)

/-- The place behind a run of characters of a class. -/
def skipWhile (p : Char → Bool) (cursor : Cursor) : Cursor := (cursor.span p).2

/-- The place behind a comment, if one begins here. -/
def skipComment (cursor : Cursor) : Cursor :=
  if cursor.peek == '#' then cursor.skipWhile (!isEnd ·) else cursor

/-- The line end at this place as it counts in a text, and the place behind it. -/
def lineEnd? (cursor : Cursor) : Option (Char × Cursor) :=
  let c := cursor.peek
  if isBreak c then some (if c.toNat = 0x85 then '\n' else c, cursor.next) else none

/-- Whether three hyphens or three dots stand here on their own. -/
def isMarker (cursor : Cursor) (mark : Char) : Bool :=
  cursor.peek == mark && cursor.peek 1 == mark && cursor.peek 2 == mark && isGap (cursor.peek 3)

/-- Whether a document begins or ends here. -/
def isDocumentMark (cursor : Cursor) : Bool := cursor.isMarker '-' || cursor.isMarker '.'

/-- The rest of a line with nothing but spaces and a comment, up to the next line. -/
def finishLine (cursor : Cursor) : Except Fault Cursor :=
  let cursor := (cursor.skipWhile (· == ' ')).skipComment
  if isEnd cursor.peek then .ok (((cursor.lineEnd?).map (·.2)).getD cursor) else .error .notYaml

end Cursor

/-- Line ends within a scalar: a single line feed becomes a space, and of several the first one is
dropped. -/
def folded (first : Char) (more : List Char) : List Char :=
  (if first ≠ '\n' then [first] else if more.isEmpty then [' '] else []) ++ more

end Bourse.Yaml
