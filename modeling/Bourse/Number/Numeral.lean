import Bourse.Number.Binary64
import Bourse.Text.Classes
/-!
Reading numbers from text. Digits of every script count, single underscores may stand between
digits, and blanks may surround the whole.
-/
namespace Bourse.Numeral

/-- Whether a character may surround a number: the six ASCII blanks and every blank beyond ASCII. -/
def isSurround (c : Char) : Bool :=
  if c.toNat < 128 then c == ' ' || (9 ≤ c.toNat && c.toNat ≤ 13) else Text.isBlank c

/-- The text between the surrounding blanks. -/
def body (text : List Char) : List Char :=
  (((text.dropWhile isSurround).reverse).dropWhile isSurround).reverse

/-- Passes one underscore that a digit follows. -/
def skipUnderscore : List Char → List Char
  | '_' :: next :: more =>
    if (Text.decimalValue? next).isSome then next :: more else '_' :: next :: more
  | text => text

theorem length_skipUnderscore_le (text : List Char) :
    (skipUnderscore text).length ≤ text.length := by
  unfold skipUnderscore
  split
  · split <;> simp
  · exact Nat.le_refl _

/-- The digits of the longest run of digits at the front, with single underscores between two of
them, and what follows the run. -/
def takeDigits : List Char → List Nat × List Char
  | [] => ([], [])
  | c :: rest =>
    match Text.decimalValue? c with
    | some d =>
      let tail := takeDigits (skipUnderscore rest)
      (d :: tail.1, tail.2)
    | none => ([], c :: rest)
termination_by text => text.length
decreasing_by exact Nat.lt_succ_of_le (length_skipUnderscore_le rest)

/-- The natural with the given decimal digits, the highest first. -/
def ofDigits (digits : List Nat) : Nat := digits.foldl (fun n d => 10 * n + d) 0

/-- An optional sign; whether it is a minus, and what follows. -/
def takeSign : List Char → Bool × List Char
  | '-' :: rest => (true, rest)
  | '+' :: rest => (false, rest)
  | text => (false, text)

/-- The most digits that an integer may have. -/
def mostDigits : Nat := 4300

/-- Reads an integer. -/
def integer? (text : List Char) : Option Int :=
  let (negative, rest) := takeSign (body text)
  match takeDigits rest with
  | ([], _) => none
  | (digits, []) =>
    if mostDigits < digits.length then none
    else some (if negative then -(ofDigits digits : Int) else ofDigits digits)
  | _ => none

/-- Whether a text is one of the given words in any case. -/
def isWord (words : List String) (text : List Char) : Bool :=
  words.contains (String.ofList (text.map Char.toLower))

/-- An optional exponent; anything else that follows the mantissa is refused. -/
def exponent? : List Char → Option Int
  | [] => some 0
  | c :: rest =>
    if c == 'e' || c == 'E' then
      let (negative, rest) := takeSign rest
      match takeDigits rest with
      | ([], _) => none
      | (digits, []) => some (if negative then -(ofDigits digits : Int) else ofDigits digits)
      | _ => none
    else none

/-- Reads a decimal number with optional fraction and exponent. -/
def decimal? (text : List Char) : Option Decimal :=
  let (negative, rest) := takeSign text
  let (whole, rest) := takeDigits rest
  let (fraction, rest) := match rest with
    | '.' :: more => takeDigits more
    | _ => ([], rest)
  if whole.isEmpty && fraction.isEmpty then none
  else (exponent? rest).map fun exponent =>
    ⟨negative, ofDigits (whole ++ fraction), exponent - fraction.length⟩

/-- Reads a binary64 number: a decimal, an infinity or no number. -/
def float? (text : List Char) : Option Float :=
  let (negative, word) := takeSign (body text)
  if isWord ["inf", "infinity"] word then some (Binary64.infiniteFloat negative)
  else if isWord ["nan"] word then some Binary64.nanFloat
  else (decimal? (body text)).map fun x =>
    Binary64.nearestDecimal x.negative x.coefficient x.exponent

end Bourse.Numeral
