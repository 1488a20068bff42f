import Bourse.Log
import Bourse.Text.Case
import Bourse.Text.Classes
import Bourse.Text.Quoted
import Bourse.Text.Split
/-!
Symbols as they are named by arguments and by the input: parts between blanks and commas, in upper
case, each once, in the order in which they appear. A part that is no symbol is left out with a
notice.
-/
namespace Bourse.Symbols

/-- Whether a character can stand in a symbol. -/
def isSymbolChar (c : Char) : Bool :=
  ('A' ≤ c && c ≤ 'Z') || ('0' ≤ c && c ≤ '9') || ['.', '-', '^', '='].contains c

/-- The most characters of a symbol. -/
def mostChars : Nat := 12

/-- Whether a text is a symbol. -/
def isValid (text : List Char) : Bool :=
  !text.isEmpty && text.length ≤ mostChars && text.all isSymbolChar

/-- Whether a character stands between two parts. -/
def isSeparator (c : Char) : Bool := c == ',' || Text.isBlank c

/-- The parts of a text between separators; no part is empty. -/
def parts (text : List Char) : List (List Char) :=
  (Text.split isSeparator text).filter (!·.isEmpty)

/-- The argument that stands for the input. -/
def inputMark : String := "-"

/-- Whether the input is read: where its mark is an argument, and where there are no arguments and
the input is no terminal. -/
def readsInput (arguments : List String) (terminal : Bool) : Bool :=
  arguments.contains inputMark || (arguments.isEmpty && !terminal)

/-- The texts that name symbols; the input comes last. -/
def sources (arguments : List String) (input : String) (terminal : Bool) : List String :=
  arguments.filter (· != inputMark) ++ (if readsInput arguments terminal then [input] else [])

/-- The part of the program that notices about symbols name. -/
def origin : String := "tickerscope"

/-- Enters a part into the symbols found so far. -/
def enter (found : Logged (List String)) (part : List Char) : Logged (List String) :=
  let symbol := Text.upper (String.ofList part)
  if found.result.contains symbol then found
  else if isValid symbol.toList then { found with result := found.result ++ [symbol] }
  else
    let text := s!"Skipping invalid symbol {Text.quoted (String.ofList part)}"
    { found with notices := found.notices ++ [⟨.warning, origin, text⟩] }

/-- The symbols that arguments and the input name. -/
def collect (arguments : List String) (input : String) (terminal : Bool) : Logged (List String) :=
  ((sources arguments input terminal).flatMap fun text => parts text.toList).foldl enter ⟨[], []⟩

end Bourse.Symbols
