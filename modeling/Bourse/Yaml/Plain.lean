import Bourse.Yaml.Cursor
/-!
Scalars without quotes. They end at a colon before a gap, at a comment, and between brackets at the
characters that structure a collection; they go on over lines that are indented far enough.
-/
namespace Bourse.Yaml

/-- Characters that end a scalar between brackets. -/
def isFlowIndicator (c : Char) : Bool :=
  c == ',' || c == '[' || c == ']' || c == '\x7b' || c == '\x7d'

/-- Whether a scalar without quotes ends before a character, by the one that follows it. -/
def endsPlain (inFlow : Bool) (c following : Char) : Bool :=
  isGap c || (c == ':' && (isGap following || (inFlow && isFlowIndicator following))) ||
    (inFlow && (isFlowIndicator c || c == '?'))

/-- The length of the part of a scalar up to the next gap. -/
def plainLength (inFlow : Bool) : List Char → Nat
  | [] => 0
  | c :: rest => if endsPlain inFlow c (rest.headD '\x00') then 0 else plainLength inFlow rest + 1

/-- Whether a scalar without quotes can begin here. -/
def startsPlain (inFlow : Bool) (cursor : Cursor) : Bool :=
  let c := cursor.peek
  !(isGap c || "-?:,[]\x7b\x7d#&*!|>'\"%@`".toList.contains c) ||
    (!isGap (cursor.peek 1) && (c == '-' || (!inFlow && (c == '?' || c == ':'))))

/-- The gap between two parts of a scalar. -/
structure PlainGap where
  /-- What the gap counts as; nothing if the scalar ends here. -/
  text : List Char
  hasLineEnd : Bool
  cursor : Cursor

/-- The line ends and spaces after a first line end; none at the mark of a document. -/
def plainBreaks : Nat → List Char → Cursor → Option (List Char) × Cursor
  | 0, seen, cursor => (some seen, cursor)
  | fuel + 1, seen, cursor =>
    if cursor.peek == ' ' then plainBreaks fuel seen cursor.next
    else
      match cursor.lineEnd? with
      | none => (some seen, cursor)
      | some (c, cursor) =>
        if cursor.isDocumentMark then (none, cursor) else plainBreaks fuel (seen ++ [c]) cursor

/-- The gap at a place. -/
def plainGap (cursor : Cursor) : PlainGap :=
  let (spaces, cursor) := cursor.span (· == ' ')
  match cursor.lineEnd? with
  | none => ⟨spaces, false, cursor⟩
  | some (first, cursor) =>
    if cursor.isDocumentMark then ⟨[], true, cursor⟩
    else
      match plainBreaks (cursor.rest.length + 1) [] cursor with
      | (some more, cursor) => ⟨folded first more, true, cursor⟩
      | (none, cursor) => ⟨[], true, cursor⟩

/-- A scalar that was read, with whether a key may follow on the line where it stopped. -/
structure PlainScalar where
  text : List Char
  hasLineEnd : Bool
  cursor : Cursor

/-- Reads parts of a scalar; `text` holds the earlier parts and `gap` the gap behind them. -/
def plainParts (inFlow : Bool) (indent : Int) : Nat → List Char → PlainGap → PlainScalar
  | 0, text, gap => ⟨text, gap.hasLineEnd, gap.cursor⟩
  | fuel + 1, text, gap =>
    let cursor := gap.cursor
    let length := if cursor.peek == '#' then 0 else plainLength inFlow cursor.rest
    if length = 0 then ⟨text, gap.hasLineEnd, cursor⟩
    else
      let text := text ++ gap.text ++ cursor.rest.take length
      let gap := plainGap (cursor.skip length)
      if gap.text.isEmpty || gap.cursor.peek == '#' ||
          (!inFlow && (gap.cursor.column : Int) < indent) then
        ⟨text, gap.hasLineEnd, gap.cursor⟩
      else plainParts inFlow indent fuel text gap

/-- Reads a scalar without quotes whose further lines have at least an indentation. -/
def plainScalar (inFlow : Bool) (indent : Int) (cursor : Cursor) : PlainScalar :=
  plainParts inFlow indent (cursor.rest.length + 1) [] ⟨[], false, cursor⟩

end Bourse.Yaml
