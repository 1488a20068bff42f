import Bourse.Text.Printable
/-!
Quoted text: single quotes, or double quotes when the text holds a single quote and no double one.
Backslashes, the chosen quote and characters without a visible form are escaped.
-/
namespace Bourse.Text

/-- A number in lower case hexadecimal, padded with zeros to a width. -/
def hexPadded (width : Nat) (n : Nat) : List Char :=
  let digits := Nat.toDigits 16 n
  List.replicate (width - digits.length) '0' ++ digits

/-- One character inside quotes. -/
def quoteChar (quote : Char) (c : Char) : List Char :=
  if c == quote || c == '\\' then ['\\', c]
  else if c == '\n' then ['\\', 'n']
  else if c == '\r' then ['\\', 'r']
  else if c == '\t' then ['\\', 't']
  else if c.toNat < 128 && c.toNat ≥ 32 && c.toNat != 127 then [c]
  else if isPrintable c then [c]
  else if c.toNat < 0x100 then ['\\', 'x'] ++ hexPadded 2 c.toNat
  else if c.toNat < 0x10000 then ['\\', 'u'] ++ hexPadded 4 c.toNat
  else ['\\', 'U'] ++ hexPadded 8 c.toNat

/-- The quote that encloses a text. -/
def quoteFor (text : List Char) : Char :=
  if text.contains '\'' && !text.contains '"' then '"' else '\''

/-- Text in quotes. -/
def quoted (text : String) : String :=
  let quote := quoteFor text.toList
  String.ofList ([quote] ++ text.toList.flatMap (quoteChar quote) ++ [quote])

end Bourse.Text
