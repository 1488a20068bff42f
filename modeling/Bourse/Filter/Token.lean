import Bourse.Filter.Names
import Bourse.Text.Classes
/-!
Tokens of filter expressions. Every token holds its kind, its text in normal form and the place of
its first character; the list of tokens of a text ends with an end token.
-/
namespace Bourse.Filter

/-- The kinds of tokens. -/
inductive Kind where
  | number
  | identifier
  | operator
  | and
  | or
  | lparen
  | rparen
  | eof
deriving DecidableEq, Repr

namespace Kind

/-- The name of a kind. -/
def name : Kind → String
  | number => "number"
  | identifier => "identifier"
  | operator => "operator"
  | and => "and"
  | or => "or"
  | lparen => "lparen"
  | rparen => "rparen"
  | eof => "eof"

/-- Every kind. -/
def all : List Kind := [number, identifier, operator, and, or, lparen, rparen, eof]

/-- The kind with a name. -/
def ofName? (name : String) : Option Kind := all.find? (·.name == name)

end Kind

/-- A token: identifiers and keywords are in lower case, and equality is written with one sign. -/
structure Token where
  kind : Kind
  value : String
  position : Int
deriving DecidableEq, Repr

/-- A character that starts no token. -/
inductive LexFault where
  /-- An exclamation mark that no equality sign follows. -/
  | loneBang
  | stray (c : Char)
deriving DecidableEq, Repr

/-- A token without its place. It was read from a first character and from `tail` after it. -/
structure Lexeme where
  kind : Kind
  value : List Char
  tail : List Char
deriving DecidableEq, Repr

/-- Characters of words. -/
def isWordChar (c : Char) : Bool := Text.isLetter c || Text.isDigit c || c == '_' || c == '%'

/-- Characters of numbers. -/
def isNumberChar (c : Char) : Bool := Text.isDigit c || c == '.'

/-- The kind of a word in lower case. -/
def wordKind (word : List Char) : Kind :=
  if word = ['a', 'n', 'd'] then .and else if word = ['o', 'r'] then .or else .identifier

/-- Whether a word that begins with a digit is a name and not a number with a word after it. -/
def isDigitLedName (word : List Char) : Bool :=
  (Field.ofLower? (String.ofList word)).isSome || ['5', '2', 'w'].isPrefixOf word

/-- The word at the front of a text. -/
def wordLexeme (c : Char) (rest : List Char) : Lexeme :=
  let tail := rest.takeWhile isWordChar
  let word := (c :: tail).map Char.toLower
  ⟨wordKind word, word, tail⟩

/-- The number at the front of a text, or the name that begins with its digits. -/
def numberLexeme (c : Char) (rest : List Char) : Lexeme :=
  let tail := rest.takeWhile isNumberChar
  let word := wordLexeme c rest
  if (c :: tail).all Text.isDigit && ((rest.drop tail.length).head?.any Text.isLetter) &&
      isDigitLedName word.value then word
  else ⟨.number, c :: tail, tail⟩

/-- An operator that an equality sign may extend. -/
def operatorLexeme (c : Char) (rest : List Char) : Lexeme :=
  match rest with
  | '=' :: _ => ⟨.operator, [c, '='], ['=']⟩
  | _ => ⟨.operator, [c], []⟩

/-- The token at the front of a text that begins with `c`, which is no blank. -/
def lexeme (c : Char) (rest : List Char) : Except LexFault Lexeme :=
  if Text.isDigit c || c == '.' || (c == '-' && rest.head?.any Text.isDigit) then
    .ok (numberLexeme c rest)
  else if Text.isLetter c then .ok (wordLexeme c rest)
  else if c == '<' || c == '>' then .ok (operatorLexeme c rest)
  else if c == '=' then .ok { operatorLexeme c rest with value := ['='] }
  else if c == '!' then
    if rest.head? = some '=' then .ok ⟨.operator, ['!', '='], ['=']⟩ else .error .loneBang
  else if c == '(' then .ok ⟨.lparen, ['('], []⟩
  else if c == ')' then .ok ⟨.rparen, [')'], []⟩
  else .error (.stray c)

/-- The tokens of a text that starts at a position; `seen` holds the earlier tokens, last first. -/
def scan (position : Nat) (seen : List Token) : List Char → Except (LexFault × Int) (List Token)
  | [] => .ok (⟨.eof, "", position⟩ :: seen).reverse
  | c :: rest =>
    if Text.isBlank c then scan (position + 1) seen rest
    else match lexeme c rest with
      | .error fault => .error (fault, position)
      | .ok found =>
        scan (position + 1 + found.tail.length)
          (⟨found.kind, String.ofList found.value, position⟩ :: seen)
          (rest.drop found.tail.length)
termination_by text => text.length
decreasing_by all_goals simp; try omega

/-- The tokens of a text. -/
def tokens (text : String) : Except (LexFault × Int) (List Token) := scan 0 [] text.toList

end Bourse.Filter
