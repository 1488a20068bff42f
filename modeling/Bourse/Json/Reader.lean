import Bourse.Entries
import Bourse.Json.Basic
import Bourse.Number.Numeral
/-!
Reading JSON. A number with a point or an exponent is a binary64 number, any other an integer; of
repeated members of a record the last value counts, in the place of the first.
-/
namespace Bourse.Json

/-- Blanks between the parts of a value. -/
def isSpace (c : Char) : Bool := c == ' ' || c == '\n' || c == '\r' || c == '\t'

/-- The value of a hexadecimal digit. -/
def hexValue? (c : Char) : Option Nat :=
  if '0' ≤ c ∧ c ≤ '9' then some (c.toNat - 48)
  else if 'a' ≤ c ∧ c ≤ 'f' then some (c.toNat - 87)
  else if 'A' ≤ c ∧ c ≤ 'F' then some (c.toNat - 55)
  else none

/-- The 16-bit unit written in four hexadecimal digits. -/
def unit? (a b c d : Char) : Option Nat := do
  let a ← hexValue? a
  let b ← hexValue? b
  let c ← hexValue? c
  let d ← hexValue? d
  return ((a * 16 + b) * 16 + c) * 16 + d

/-- The character of a one-letter escape. -/
def shortEscape? (c : Char) : Option Char :=
  if c == '"' || c == '\\' || c == '/' then some c
  else if c == 'n' then some '\n'
  else if c == 'r' then some '\r'
  else if c == 't' then some '\t'
  else if c == 'b' then some (Char.ofNat 8)
  else if c == 'f' then some (Char.ofNat 12)
  else none

/-- Joins units that were read from escapes to characters; a surrogate without its partner becomes
the replacement character. The units come last first. -/
def joinUnit (unit : Nat) (seen : List Nat) : List Nat :=
  match seen with
  | high :: rest =>
    if 0xdc00 ≤ unit ∧ unit < 0xe000 ∧ 0xd800 ≤ high ∧ high < 0xdc00 then
      (0x10000 + (high - 0xd800) * 0x400 + (unit - 0xdc00)) :: rest
    else unit :: seen
  | [] => [unit]

/-- The text of code points that come last first. -/
def ofCodes (seen : List Nat) : String :=
  String.ofList (seen.reverse.map fun code =>
    if 0xd800 ≤ code ∧ code < 0xe000 then Char.ofNat 0xfffd else Char.ofNat code)

/-- Reads the inside of a text after `seen` (last first) up to its closing quote. -/
def readText (seen : List Nat) : List Char → Option (String × List Char)
  | [] => none
  | '"' :: rest => some (ofCodes seen, rest)
  | '\\' :: 'u' :: a :: b :: c :: d :: rest =>
    match unit? a b c d with
    | some unit => readText (joinUnit unit seen) rest
    | none => none
  | '\\' :: c :: rest =>
    match shortEscape? c with
    | some c => readText (c.toNat :: seen) rest
    | none => none
  | c :: rest => if c.toNat < 32 then none else readText (c.toNat :: seen) rest

/-- Characters of a number. -/
def isNumberChar (c : Char) : Bool :=
  ('0' ≤ c && c ≤ '9') || c == '-' || c == '+' || c == '.' || c == 'e' || c == 'E'

/-- Reads the text of a number. -/
def number? (word : List Char) : Option Json :=
  if word.any fun c => c == '.' || c == 'e' || c == 'E' then (Numeral.float? word).map real
  else
    let (negative, digits) := Numeral.takeSign word
    if digits.isEmpty || !digits.all (fun c => '0' ≤ c && c ≤ '9') then none
    else
      let n := digits.foldl (fun n c => 10 * n + (c.toNat - 48)) 0
      some (int (if negative then -Int.ofNat n else Int.ofNat n))

mutual

/-- Reads one value; the first number bounds the steps. -/
def readValue : Nat → List Char → Option (Json × List Char)
  | 0, _ => none
  | fuel + 1, input =>
    match input.dropWhile isSpace with
    | '"' :: rest => (readText [] rest).map fun (s, rest) => (Json.text s, rest)
    | '[' :: rest =>
      match rest.dropWhile isSpace with
      | ']' :: rest => some (list [], rest)
      | rest => readItems fuel [] rest
    | '\x7b' :: rest =>
      match rest.dropWhile isSpace with
      | '\x7d' :: rest => some (record [], rest)
      | rest => readMembers fuel [] rest
    | 't' :: 'r' :: 'u' :: 'e' :: rest => some (bool true, rest)
    | 'f' :: 'a' :: 'l' :: 's' :: 'e' :: rest => some (bool false, rest)
    | 'n' :: 'u' :: 'l' :: 'l' :: rest => some (null, rest)
    | rest =>
      (number? (rest.takeWhile isNumberChar)).map fun value => (value, rest.dropWhile isNumberChar)

/-- Reads items up to the closing bracket; `seen` holds the earlier ones, last first. -/
def readItems : Nat → List Json → List Char → Option (Json × List Char)
  | 0, _, _ => none
  | fuel + 1, seen, input =>
    match readValue fuel input with
    | none => none
    | some (item, rest) =>
      match rest.dropWhile isSpace with
      | ',' :: rest => readItems fuel (item :: seen) rest
      | ']' :: rest => some (list (item :: seen).reverse, rest)
      | _ => none

/-- Reads members up to the closing brace. -/
def readMembers : Nat → List (String × Json) → List Char → Option (Json × List Char)
  | 0, _, _ => none
  | fuel + 1, seen, input =>
    match input.dropWhile isSpace with
    | '"' :: rest =>
      match readText [] rest with
      | none => none
      | some (name, rest) =>
        match rest.dropWhile isSpace with
        | ':' :: rest =>
          match readValue fuel rest with
          | none => none
          | some (value, rest) =>
            match rest.dropWhile isSpace with
            | ',' :: rest => readMembers fuel (Entries.put name value seen) rest
            | '\x7d' :: rest => some (record (Entries.put name value seen), rest)
            | _ => none
        | _ => none
    | _ => none

end

/-- Reads a text that holds one value. -/
def read? (source : String) : Option Json :=
  let chars := source.toList
  match readValue (chars.length + 1) chars with
  | some (value, rest) => if rest.all isSpace then some value else none
  | none => none

end Bourse.Json
