import Bourse.Yaml.Cursor
/-!
Scalars as indented blocks: literal ones keep their lines, folded ones join lines of text. A header
says what becomes of the line ends at the end and may fix the indentation.
-/
namespace Bourse.Yaml

/-- What becomes of line ends at the end of a block. -/
inductive Chomping where
  | strip
  | clip
  | keep
deriving DecidableEq, Repr

/-- The chomping of a sign. -/
def chomping? (c : Char) : Option Chomping :=
  if c == '+' then some .keep else if c == '-' then some .strip else none

/-- The indentation of a digit. -/
def increment? (c : Char) : Option Nat :=
  if '0' ≤ c ∧ c ≤ '9' then some (c.toNat - 48) else none

/-- The header of a block. -/
structure BlockHeader where
  chomping : Chomping := .clip
  increment : Option Nat := none

/-- The signs of a header in either order. -/
def blockSigns (cursor : Cursor) : BlockHeader × Cursor :=
  match chomping? cursor.peek, increment? cursor.peek with
  | some chomping, _ =>
    match increment? (cursor.peek 1) with
    | some increment => (⟨chomping, some increment⟩, cursor.skip 2)
    | none => (⟨chomping, none⟩, cursor.next)
  | none, some increment =>
    match chomping? (cursor.peek 1) with
    | some chomping => (⟨chomping, some increment⟩, cursor.skip 2)
    | none => (⟨.clip, some increment⟩, cursor.next)
  | none, none => ({}, cursor)

/-- Reads the header of a block and the rest of its line. -/
def blockHeader (cursor : Cursor) : Except Fault (BlockHeader × Cursor) := do
  let (header, cursor) := blockSigns cursor
  if header.increment = some 0 || !isSpaceOrEnd cursor.peek then throw .notYaml
  return (header, ← cursor.finishLine)

/-- Empty lines before the first line of a block, and the widest run of spaces on the way. -/
def leadingLines : Nat → List Char → Nat → Cursor → List Char × Nat × Cursor
  | 0, seen, widest, cursor => (seen, widest, cursor)
  | fuel + 1, seen, widest, cursor =>
    match cursor.lineEnd? with
    | some (c, cursor) => leadingLines fuel (seen ++ [c]) widest cursor
    | none =>
      if cursor.peek == ' ' then leadingLines fuel seen (max widest cursor.next.column) cursor.next
      else (seen, widest, cursor)

/-- The spaces of a line up to an indentation. -/
def skipIndent (indent : Nat) (cursor : Cursor) : Cursor :=
  let spaces := (cursor.rest.takeWhile (· == ' ')).length
  cursor.skip (min spaces (indent - cursor.column))

/-- Empty lines between lines of a block with a known indentation. -/
def emptyLines (indent : Nat) : Nat → List Char → Cursor → List Char × Cursor
  | 0, seen, cursor => (seen, cursor)
  | fuel + 1, seen, cursor =>
    let cursor := skipIndent indent cursor
    match cursor.lineEnd? with
    | some (c, cursor) => emptyLines indent fuel (seen ++ [c]) cursor
    | none => (seen, cursor)

/-- The end of a block: the last line end and the empty lines behind it. -/
def chomp (chomping : Chomping) (lastEnd breaks : List Char) : List Char :=
  match chomping with
  | .strip => []
  | .clip => lastEnd
  | .keep => lastEnd ++ breaks

/-- What stands between two lines of a block. -/
def between (isFolded leadsWithText followsText : Bool) (lastEnd breaks : List Char) : List Char :=
  if isFolded && lastEnd = ['\n'] && leadsWithText && followsText then
    if breaks.isEmpty then [' '] else []
  else lastEnd

/-- Reads the lines of a block; `text` holds the earlier ones, `lastEnd` the line end behind them
and `breaks` the empty lines that followed. -/
def blockLines (isFolded : Bool) (chomping : Chomping) (indent : Nat) :
    Nat → List Char → List Char → List Char → Cursor → List Char × Cursor
  | 0, text, lastEnd, breaks, cursor => (text ++ chomp chomping lastEnd breaks, cursor)
  | fuel + 1, text, lastEnd, breaks, cursor =>
    if cursor.column ≠ indent || cursor.rest.isEmpty then
      (text ++ chomp chomping lastEnd breaks, cursor)
    else
      let leads := !isWhite cursor.peek
      let (line, cursor) := cursor.span (!isEnd ·)
      let text := text ++ breaks ++ line
      let (lastEnd, cursor) := match cursor.lineEnd? with
        | some (c, cursor) => ([c], cursor)
        | none => ([], cursor)
      let (breaks, cursor) := emptyLines indent (cursor.rest.length + 1) [] cursor
      if cursor.column = indent && !cursor.rest.isEmpty then
        let gap := between isFolded leads (!isWhite cursor.peek) lastEnd breaks
        blockLines isFolded chomping indent fuel (text ++ gap) lastEnd breaks cursor
      else (text ++ chomp chomping lastEnd breaks, cursor)

/-- Reads a block inside a collection with a given indentation. -/
def blockScalar (outer : Int) (cursor : Cursor) : Except Fault (List Char × Cursor) := do
  let isFolded := cursor.peek == '>'
  let (header, cursor) ← blockHeader cursor.next
  let least := (max 1 (outer + 1)).toNat
  let fuel := cursor.rest.length + 1
  let (indent, breaks, cursor) := match header.increment with
    | some increment =>
      let indent := least + increment - 1
      let (breaks, cursor) := emptyLines indent fuel [] cursor
      (indent, breaks, cursor)
    | none =>
      let (breaks, widest, cursor) := leadingLines fuel [] 0 cursor
      (max least widest, breaks, cursor)
  return blockLines isFolded header.chomping indent fuel [] [] breaks cursor

end Bourse.Yaml
