import Bourse.Yaml.Cursor
import Bourse.Yaml.Quoted
/-!
The tokens of YAML, and those whose text is a name: directives, anchors, aliases and tags.
-/
namespace Bourse.Yaml

/-- What a directive says. -/
inductive Directive where
  /-- The version of the language, by its main number. -/
  | version (number : Nat)
  /-- A short form for the beginning of tags. -/
  | handle (short long : String)
  | reserved

/-- A token. Collections by indentation begin and end with tokens that stand for no characters. -/
inductive Token where
  | directive (directive : Directive)
  | documentStart
  | documentEnd
  | blockSequence
  | blockMapping
  | blockEnd
  | flowSequence
  | flowSequenceEnd
  | flowMapping
  | flowMappingEnd
  | blockEntry
  | flowEntry
  | key
  | value
  | alias (name : String)
  | anchor (name : String)
  | tag (handle : Option String) (suffix : String)
  | scalar (text : String) (isPlain : Bool)

/-- A token and the place behind it. -/
abbrev Lexeme := Except Fault (Token × Cursor)

/-- A name of letters, digits, hyphens and underscores. -/
def name (cursor : Cursor) : Except Fault (String × Cursor) :=
  let (run, cursor) := cursor.span isWordChar
  if run.isEmpty then .error .notYaml else .ok (String.ofList run, cursor)

/-- Characters that may follow the name of an anchor. -/
def endsAnchor (c : Char) : Bool := isGap c || "?:,]\x7d%@`".toList.contains c

/-- Reads an anchor or an alias behind its sign. -/
def anchorName (cursor : Cursor) : Except Fault (String × Cursor) := do
  let (text, cursor) ← name cursor.next
  if endsAnchor cursor.peek then return (text, cursor) else throw .notYaml

/-- Characters of a tag, apart from the percent sign. -/
def isTagChar (c : Char) : Bool := isWordChar c || ";/?:@&=+$,.!~*'()[]".toList.contains c

/-- The bytes written as percent signs with two digits. -/
def percentBytes : Nat → List UInt8 → Cursor → Except Fault (List UInt8 × Cursor)
  | 0, seen, cursor => .ok (seen, cursor)
  | fuel + 1, seen, cursor =>
    if cursor.peek == '%' then
      match hexDigit? (cursor.peek 1), hexDigit? (cursor.peek 2) with
      | some high, some low =>
        percentBytes fuel (seen ++ [UInt8.ofNat (16 * high + low)]) (cursor.skip 3)
      | _, _ => .error .notYaml
    else .ok (seen, cursor)

/-- Reads the text of a tag. -/
def tagText : Nat → List Char → Cursor → Except Fault (List Char × Cursor)
  | 0, seen, cursor => .ok (seen, cursor)
  | fuel + 1, seen, cursor =>
    if cursor.peek == '%' then do
      let (bytes, cursor) ← percentBytes (cursor.rest.length + 1) [] cursor
      match String.fromUTF8? ⟨bytes.toArray⟩ with
      | some text => tagText fuel (seen ++ text.toList) cursor
      | none => throw .notYaml
    else
      let (run, cursor) := cursor.span isTagChar
      if run.isEmpty then .ok (seen, cursor) else tagText fuel (seen ++ run) cursor

/-- Reads the text of a tag that is not empty. -/
def tagSuffix (cursor : Cursor) : Except Fault (String × Cursor) := do
  let (text, behind) ← tagText (cursor.rest.length + 1) [] cursor
  if behind.index = cursor.index then throw .notYaml else return (String.ofList text, behind)

/-- Reads the handle of a tag: one exclamation mark, or two with a name or nothing between them. -/
def tagHandle (cursor : Cursor) : Except Fault (String × Cursor) :=
  if cursor.peek ≠ '!' then .error .notYaml
  else if cursor.peek 1 == ' ' then .ok ("!", cursor.next)
  else
    let (run, cursor) := cursor.next.span isWordChar
    if cursor.peek == '!' then .ok (String.ofList ('!' :: run ++ ['!']), cursor.next)
    else .error .notYaml

/-- Whether a second exclamation mark stands in the word that begins here. -/
def hasHandle (cursor : Cursor) : Bool :=
  (cursor.next.span (!isSpaceOrEnd ·)).1.contains '!'

/-- The handle and the rest of a tag. -/
def tagParts (cursor : Cursor) : Except Fault (Option String × String × Cursor) := do
  if cursor.peek 1 == '<' then
    let (text, cursor) ← tagSuffix (cursor.skip 2)
    if cursor.peek == '>' then return (none, text, cursor.next) else throw .notYaml
  else if isGap (cursor.peek 1) then return (none, "!", cursor.next)
  else if hasHandle cursor then
    let (handle, cursor) ← tagHandle cursor
    let (text, cursor) ← tagSuffix cursor
    return (some handle, text, cursor)
  else
    let (text, cursor) ← tagSuffix cursor.next
    return (some "!", text, cursor)

/-- Reads a tag. -/
def tag (cursor : Cursor) : Lexeme := do
  let (handle, text, cursor) ← tagParts cursor
  if isSpaceOrEnd cursor.peek then return (.tag handle text, cursor) else throw .notYaml

/-- Reads a number. -/
def number (cursor : Cursor) : Except Fault (Nat × Cursor) :=
  let (digits, cursor) := cursor.span fun c => '0' ≤ c && c ≤ '9'
  if digits.isEmpty then .error .notYaml
  else .ok (digits.foldl (fun n c => 10 * n + (c.toNat - 48)) 0, cursor)

/-- What follows the name of a directive for the version. -/
def versionDirective (cursor : Cursor) : Except Fault (Directive × Cursor) := do
  let (major, cursor) ← number (cursor.skipWhile (· == ' '))
  if cursor.peek ≠ '.' then throw .notYaml
  let (_, cursor) ← number cursor.next
  if isSpaceOrEnd cursor.peek then return (.version major, cursor) else throw .notYaml

/-- What follows the name of a directive for tags. -/
def tagDirective (cursor : Cursor) : Except Fault (Directive × Cursor) := do
  let (short, cursor) ← tagHandle (cursor.skipWhile (· == ' '))
  if cursor.peek ≠ ' ' then throw .notYaml
  let (long, cursor) ← tagSuffix (cursor.skipWhile (· == ' '))
  if isSpaceOrEnd cursor.peek then return (.handle short long, cursor) else throw .notYaml

/-- Reads a directive and its line. -/
def directive (cursor : Cursor) : Lexeme := do
  let (kind, cursor) ← name cursor.next
  if !isSpaceOrEnd cursor.peek then throw .notYaml
  let (directive, cursor) ←
    if kind = "YAML" then versionDirective cursor
    else if kind = "TAG" then tagDirective cursor
    else .ok (.reserved, cursor.skipWhile (!isEnd ·))
  return (.directive directive, ← cursor.finishLine)

end Bourse.Yaml
