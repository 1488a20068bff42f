import Bourse.Yaml.Block
import Bourse.Yaml.Plain
import Bourse.Yaml.Token
/-!
The tokens of a text. Outside of brackets the column of a token tells to which collection it
belongs; a word becomes a key when a colon follows it on its line.
-/
namespace Bourse.Yaml

/-- A token that may turn out to be a key. -/
structure KeyCandidate where
  /-- How many tokens came before it. -/
  position : Nat
  /-- Whether anything but a key breaks the indentation. -/
  isRequired : Bool
  index : Nat
  line : Nat
  column : Nat

/-- The state between two tokens. -/
structure Outline where
  cursor : Cursor
  /-- How many brackets are open. -/
  depth : Nat := 0
  /-- The column of the innermost collection by indentation. -/
  indent : Int := -1
  outer : List Int := []
  /-- Whether a key may stand here. -/
  mayBeKey : Bool := true
  /-- The last candidate at each depth of brackets. -/
  candidates : List (Nat × KeyCandidate) := []
  tokens : Array Token := #[]

namespace Outline

/-- Adds a token. -/
def push (outline : Outline) (token : Token) : Outline :=
  { outline with tokens := outline.tokens.push token }

/-- Passes spaces, comments and line ends; on a new line outside of brackets a key may stand. -/
def toNext : Nat → Outline → Outline
  | 0, outline => outline
  | fuel + 1, outline =>
    let cursor := (outline.cursor.skipWhile (· == ' ')).skipComment
    match cursor.lineEnd? with
    | some (_, cursor) =>
      toNext fuel { outline with cursor, mayBeKey := outline.mayBeKey || outline.depth == 0 }
    | none => { outline with cursor }

/-- The most characters of a key. -/
def keyLimit : Nat := 1024

/-- Whether a candidate can no longer become a key. -/
def isStale (cursor : Cursor) (candidate : KeyCandidate) : Bool :=
  candidate.line != cursor.line || keyLimit < cursor.index - candidate.index

/-- Drops the candidates that can no longer become keys. -/
def dropStale (outline : Outline) : Except Fault Outline :=
  let (stale, kept) := outline.candidates.partition fun entry => isStale outline.cursor entry.2
  if stale.any (·.2.isRequired) then .error .notYaml else .ok { outline with candidates := kept }

/-- The candidate at the present depth. -/
def candidate? (outline : Outline) : Option KeyCandidate := outline.candidates.lookup outline.depth

/-- The state without the candidate at the present depth. -/
def forget (outline : Outline) : Outline :=
  { outline with candidates := outline.candidates.filter (·.1 != outline.depth) }

/-- Gives up the candidate at the present depth. -/
def dropCandidate (outline : Outline) : Except Fault Outline :=
  match outline.candidate? with
  | some candidate => if candidate.isRequired then .error .notYaml else .ok outline.forget
  | none => .ok outline

/-- Makes the next token a candidate where a key may stand. -/
def markCandidate (outline : Outline) : Except Fault Outline :=
  if outline.mayBeKey then do
    let outline ← outline.dropCandidate
    let cursor := outline.cursor
    let isRequired := outline.depth == 0 && outline.indent == (cursor.column : Int)
    let candidate : KeyCandidate :=
      ⟨outline.tokens.size, isRequired, cursor.index, cursor.line, cursor.column⟩
    return { outline with candidates := (outline.depth, candidate) :: outline.candidates }
  else .ok outline

/-- Ends the collections that lie right of a column. -/
def closeTo (column : Int) (indent : Int) : List Int → Array Token → Int × List Int × Array Token
  | [], tokens => (indent, [], tokens)
  | next :: outer, tokens =>
    if column < indent then closeTo column next outer (tokens.push .blockEnd)
    else (indent, next :: outer, tokens)

/-- Ends the collections that lie right of a column; between brackets columns do not count. -/
def unwind (column : Int) (outline : Outline) : Outline :=
  if outline.depth ≠ 0 then outline
  else
    let (indent, outer, tokens) := closeTo column outline.indent outline.outer outline.tokens
    { outline with indent, outer, tokens }

/-- Begins a collection at a column, if it lies right of the innermost one. The token goes before
those from a position on. -/
def beginAt (column position : Nat) (token : Token) (outline : Outline) : Outline :=
  if outline.indent < column then
    { outline with
      indent := column, outer := outline.indent :: outline.outer
      tokens := outline.tokens.insertIdxIfInBounds position token }
  else outline

/-- Adds a token of some characters. -/
def take (count : Nat) (token : Token) (outline : Outline) : Outline :=
  { outline.push token with cursor := outline.cursor.skip count }

/-- The end of the text. -/
def finish (outline : Outline) : Except Fault Outline := (outline.unwind (-1)).dropCandidate

/-- A directive. -/
def readDirective (outline : Outline) : Except Fault Outline := do
  let outline ← (outline.unwind (-1)).dropCandidate
  let (token, cursor) ← directive outline.cursor
  return { outline.push token with cursor, mayBeKey := false }

/-- The mark of a document. -/
def readMark (token : Token) (outline : Outline) : Except Fault Outline := do
  let outline ← (outline.unwind (-1)).dropCandidate
  return { outline.take 3 token with mayBeKey := false }

/-- An opening bracket. -/
def openBracket (token : Token) (outline : Outline) : Except Fault Outline := do
  let outline ← outline.markCandidate
  return { outline.take 1 token with depth := outline.depth + 1, mayBeKey := true }

/-- A closing bracket. -/
def closeBracket (token : Token) (outline : Outline) : Except Fault Outline := do
  let outline ← outline.dropCandidate
  return { outline.take 1 token with depth := outline.depth - 1, mayBeKey := false }

/-- A comma between brackets. -/
def readComma (outline : Outline) : Except Fault Outline := do
  let outline ← outline.dropCandidate
  return { outline.take 1 .flowEntry with mayBeKey := true }

/-- The hyphen of an entry. -/
def readEntry (outline : Outline) : Except Fault Outline := do
  if outline.depth = 0 && !outline.mayBeKey then throw .notYaml
  let outline := if outline.depth = 0 then
    outline.beginAt outline.cursor.column outline.tokens.size .blockSequence else outline
  let outline ← outline.dropCandidate
  return { outline.take 1 .blockEntry with mayBeKey := true }

/-- The question mark of a key. -/
def readKey (outline : Outline) : Except Fault Outline := do
  if outline.depth = 0 && !outline.mayBeKey then throw .notYaml
  let outline := if outline.depth = 0 then
    outline.beginAt outline.cursor.column outline.tokens.size .blockMapping else outline
  let outline ← outline.dropCandidate
  return { outline.take 1 .key with mayBeKey := outline.depth == 0 }

/-- A colon behind a candidate, which becomes a key. -/
def settleKey (candidate : KeyCandidate) (outline : Outline) : Outline :=
  let outline := outline.forget
  let outline := { outline with
    tokens := outline.tokens.insertIdxIfInBounds candidate.position .key, mayBeKey := false }
  let outline := if outline.depth = 0 then
    outline.beginAt candidate.column candidate.position .blockMapping else outline
  outline.take 1 .value

/-- The colon of a value. -/
def readValue (outline : Outline) : Except Fault Outline :=
  match outline.candidate? with
  | some candidate => .ok (outline.settleKey candidate)
  | none => do
    if outline.depth = 0 && !outline.mayBeKey then throw .notYaml
    let outline := if outline.depth = 0 then
      outline.beginAt outline.cursor.column outline.tokens.size .blockMapping else outline
    return { outline.take 1 .value with mayBeKey := outline.depth == 0 }

/-- A token that may be a key or may begin one, with how it is read. -/
def readWord (read : Cursor → Lexeme) (outline : Outline) : Except Fault Outline := do
  let outline ← outline.markCandidate
  let (token, cursor) ← read outline.cursor
  return { outline.push token with cursor, mayBeKey := false }

/-- A scalar as an indented block. -/
def readBlock (outline : Outline) : Except Fault Outline := do
  let outline ← outline.dropCandidate
  let (text, cursor) ← blockScalar outline.indent outline.cursor
  return { outline.push (.scalar (String.ofList text) false) with cursor, mayBeKey := true }

/-- A scalar without quotes. -/
def readPlain (outline : Outline) : Except Fault Outline := do
  let outline ← outline.markCandidate
  let scalar := plainScalar (outline.depth != 0) (outline.indent + 1) outline.cursor
  return { outline.push (.scalar (String.ofList scalar.text) true) with
    cursor := scalar.cursor, mayBeKey := scalar.hasLineEnd }

/-- How an anchor is read. -/
def readAnchor (cursor : Cursor) : Lexeme := do
  let (text, cursor) ← anchorName cursor
  return (.anchor text, cursor)

/-- How an alias is read. -/
def readAlias (cursor : Cursor) : Lexeme := do
  let (text, cursor) ← anchorName cursor
  return (.alias text, cursor)

/-- How a scalar in quotes is read. -/
def readQuoted (cursor : Cursor) : Lexeme := do
  let (text, cursor) ← quotedScalar cursor
  return (.scalar (String.ofList text) false, cursor)

/-- Reads the token at a place that is not the end of the text. -/
def readToken (outline : Outline) : Except Fault Outline :=
  let cursor := outline.cursor
  let c := cursor.peek
  let isFlow := outline.depth != 0
  let atStart := cursor.column == 0
  let beforeGap := isGap (cursor.peek 1)
  if c == '%' && atStart then outline.readDirective
  else if atStart && cursor.isMarker '-' then outline.readMark .documentStart
  else if atStart && cursor.isMarker '.' then outline.readMark .documentEnd
  else if c == '[' then outline.openBracket .flowSequence
  else if c == '\x7b' then outline.openBracket .flowMapping
  else if c == ']' then outline.closeBracket .flowSequenceEnd
  else if c == '\x7d' then outline.closeBracket .flowMappingEnd
  else if c == ',' then outline.readComma
  else if c == '-' && beforeGap then outline.readEntry
  else if c == '?' && (isFlow || beforeGap) then outline.readKey
  else if c == ':' && (isFlow || beforeGap) then outline.readValue
  else if c == '*' then outline.readWord readAlias
  else if c == '&' then outline.readWord readAnchor
  else if c == '!' then outline.readWord tag
  else if (c == '|' || c == '>') && !isFlow then outline.readBlock
  else if c == '\'' || c == '"' then outline.readWord readQuoted
  else if startsPlain isFlow cursor then outline.readPlain
  else .error .notYaml

/-- Reads one token, or the end of the text. -/
def step (outline : Outline) : Except Fault (Outline × Bool) := do
  let outline := outline.toNext (outline.cursor.rest.length + 1)
  let outline ← outline.dropStale
  let outline := outline.unwind outline.cursor.column
  if outline.cursor.rest.isEmpty then return (← outline.finish, true)
  else return (← outline.readToken, false)

/-- Reads tokens up to the end of the text or a fault. -/
def run : Nat → Outline → Array Token × Option Fault
  | 0, outline => (outline.tokens, none)
  | fuel + 1, outline =>
    match outline.step with
    | .error fault => (outline.tokens, some fault)
    | .ok (outline, true) => (outline.tokens, none)
    | .ok (outline, false) => run fuel outline

end Outline

/-- The tokens of a text up to its end or up to a fault. -/
def tokens (text : List Char) : List Token × Option Fault :=
  let text := if text.head? = some '\ufeff' then text.drop 1 else text
  let (found, fault) := Outline.run (text.length + 1) { cursor := { rest := text } }
  (found.toList, fault)

end Bourse.Yaml
