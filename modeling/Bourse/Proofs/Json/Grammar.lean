import Bourse.Json.Reader
import Mathlib.Data.Int.Notation
import Mathlib.Data.Nat.Notation

/-! The grammar of JSON texts (RFC 8259), with the value that each text denotes. A number without a
fraction and without an exponent is an integer, any other number the binary64 value nearest to it. Two
escapes that are a surrogate pair denote one character, and a surrogate that is left alone denotes the
replacement character. Of members with one name the last value counts, in the place of the first. -/
namespace Bourse.Json

/-- Whether a text is blank. -/
def IsBlank (text : List Char) : Prop := ∀ c ∈ text, c = ' ' ∨ c = '\t' ∨ c = '\n' ∨ c = '\r'

/-! Numbers -/

/-- Whether a text consists of digits. -/
def IsDigits (text : List Char) : Prop := text ≠ [] ∧ ∀ c ∈ text, c.isDigit = true

/-- The natural that digits show. -/
def natural (digits : List Char) : ℕ := Nat.ofDigitChars 10 digits 0

/-- Digits without a zero in front, except for zero itself. -/
structure IsWhole (text : List Char) : Prop where
  digits : IsDigits text
  leading : text.head? = some '0' → text = ['0']

/-- A fraction with its digits, or none. -/
inductive IsFraction : List Char → List Char → Prop
  | absent : IsFraction [] []
  | point {digits : List Char} (h : IsDigits digits) : IsFraction ('.' :: digits) digits

/-- An exponent with its value, or none. -/
inductive IsExponent : List Char → ℤ → Prop
  | absent : IsExponent [] 0
  | unsigned {mark : Char} {digits : List Char} (hmark : mark = 'e' ∨ mark = 'E')
    (h : IsDigits digits) : IsExponent (mark :: digits) (natural digits)
  | plus {mark : Char} {digits : List Char} (hmark : mark = 'e' ∨ mark = 'E')
    (h : IsDigits digits) : IsExponent (mark :: '+' :: digits) (natural digits)
  | minus {mark : Char} {digits : List Char} (hmark : mark = 'e' ∨ mark = 'E')
    (h : IsDigits digits) : IsExponent (mark :: '-' :: digits) (-natural digits)

/-- The sign in front of a number. -/
def sign (negative : Bool) : List Char := if negative then ['-'] else []

/-- A number with its value. -/
inductive IsNumber : List Char → Json → Prop
  | int (negative : Bool) {whole : List Char} (hwhole : IsWhole whole) :
    IsNumber (sign negative ++ whole) (.int (if negative then -natural whole else natural whole))
  | real (negative : Bool) {whole fraction digits scale : List Char} {exponent : ℤ}
    (hwhole : IsWhole whole) (hfraction : IsFraction fraction digits)
    (hscale : IsExponent scale exponent) (hmore : fraction ++ scale ≠ []) :
    IsNumber (sign negative ++ (whole ++ (fraction ++ scale)))
      (.real (Binary64.nearestDecimal negative (natural (whole ++ digits))
        (exponent - digits.length)))

/-! Texts -/

/-- Whether a 16-bit unit is the first of a surrogate pair. -/
def IsHigh (unit : ℕ) : Prop := 0xd800 ≤ unit ∧ unit < 0xdc00

/-- Whether a 16-bit unit is the second of a surrogate pair. -/
def IsLow (unit : ℕ) : Prop := 0xdc00 ≤ unit ∧ unit < 0xe000

theorem not_isHigh_toNat (c : Char) : ¬IsHigh c.toNat := by
  rintro ⟨hlow, hhigh⟩
  have hvalid : c.toNat < 0xd800 ∨ 0xdfff < c.toNat ∧ c.toNat < 0x110000 := c.valid
  omega

theorem not_isLow_toNat (c : Char) : ¬IsLow c.toNat := by
  rintro ⟨hlow, hhigh⟩
  have hvalid : c.toNat < 0xd800 ∨ 0xdfff < c.toNat ∧ c.toNat < 0x110000 := c.valid
  omega

/-- The escape of a 16-bit unit. -/
inductive IsEscape : List Char → ℕ → Prop
  | mk {a b c d : Char} {unit : ℕ} (h : unit? a b c d = some unit) :
    IsEscape ['\\', 'u', a, b, c, d] unit

/-- The inside of a quoted text with the characters that it denotes. -/
inductive Spells : List Char → List Char → Prop
  | nil : Spells [] []
  | plain {c : Char} {more text : List Char} (hcontrol : 32 ≤ c.toNat) (hquote : c ≠ '"')
    (hslash : c ≠ '\\') (h : Spells more text) : Spells (c :: more) (c :: text)
  | short {letter c : Char} {more text : List Char} (hletter : shortEscape? letter = some c)
    (h : Spells more text) : Spells ('\\' :: letter :: more) (c :: text)
  | unit {escape more text : List Char} {unit : ℕ} (hescape : IsEscape escape unit)
    (hhigh : ¬IsHigh unit) (hlow : ¬IsLow unit) (h : Spells more text) :
    Spells (escape ++ more) (Char.ofNat unit :: text)
  | pair {first second more text : List Char} {high low : ℕ} (hfirst : IsEscape first high)
    (hsecond : IsEscape second low) (hhigh : IsHigh high) (hlow : IsLow low)
    (h : Spells more text) :
    Spells (first ++ (second ++ more))
      (Char.ofNat (0x10000 + (high - 0xd800) * 0x400 + (low - 0xdc00)) :: text)
  | lone {escape more text : List Char} {unit : ℕ} (hescape : IsEscape escape unit)
    (hsurrogate : IsHigh unit ∨ IsLow unit)
    (hlone : IsHigh unit → ∀ second rest low, IsEscape second low → IsLow low →
      more ≠ second ++ rest) (h : Spells more text) :
    Spells (escape ++ more) (Char.ofNat 0xfffd :: text)

/-! Values -/

/-- What a part of a text denotes. -/
inductive Part where
  | value (v : Json)
  /-- A value with blanks around it. -/
  | padded (v : Json)
  | items (items : List Json)
  | member (name : String) (v : Json)
  | members (members : List (String × Json))

/-- Whether a text is a part of JSON with a given meaning. -/
inductive Denotes : List Char → Part → Prop
  | null : Denotes ['n', 'u', 'l', 'l'] (.value .null)
  | true : Denotes ['t', 'r', 'u', 'e'] (.value (.bool true))
  | false : Denotes ['f', 'a', 'l', 's', 'e'] (.value (.bool false))
  | number {text : List Char} {v : Json} (h : IsNumber text v) : Denotes text (.value v)
  | text {inside chars : List Char} (h : Spells inside chars) :
    Denotes ('"' :: (inside ++ ['"'])) (.value (.text (String.ofList chars)))
  | emptyList {blank : List Char} (h : IsBlank blank) :
    Denotes ('[' :: (blank ++ [']'])) (.value (.list []))
  | list {inside : List Char} {items : List Json} (h : Denotes inside (.items items)) :
    Denotes ('[' :: (inside ++ [']'])) (.value (.list items))
  | emptyRecord {blank : List Char} (h : IsBlank blank) :
    Denotes ('\x7b' :: (blank ++ ['\x7d'])) (.value (.record []))
  | record {inside : List Char} {members : List (String × Json)}
    (h : Denotes inside (.members members)) :
    Denotes ('\x7b' :: (inside ++ ['\x7d'])) (.value (.record (Entries.putAll [] members)))
  | padded {before text after : List Char} {v : Json} (hbefore : IsBlank before)
    (h : Denotes text (.value v)) (hafter : IsBlank after) :
    Denotes (before ++ (text ++ after)) (.padded v)
  | lastItem {text : List Char} {v : Json} (h : Denotes text (.padded v)) :
    Denotes text (.items [v])
  | item {text more : List Char} {v : Json} {items : List Json} (h : Denotes text (.padded v))
    (hmore : Denotes more (.items items)) : Denotes (text ++ ',' :: more) (.items (v :: items))
  | member {before name chars after text : List Char} {v : Json} (hbefore : IsBlank before)
    (hname : Spells name chars) (hafter : IsBlank after) (h : Denotes text (.padded v)) :
    Denotes (before ++ '"' :: (name ++ '"' :: (after ++ ':' :: text)))
      (.member (String.ofList chars) v)
  | lastMember {text : List Char} {name : String} {v : Json} (h : Denotes text (.member name v)) :
    Denotes text (.members [(name, v)])
  | furtherMember {text more : List Char} {name : String} {v : Json}
    {members : List (String × Json)} (h : Denotes text (.member name v))
    (hmore : Denotes more (.members members)) :
    Denotes (text ++ ',' :: more) (.members ((name, v) :: members))

/-- Whether a text is JSON with a given value. -/
def IsJsonText (text : String) (v : Json) : Prop := Denotes text.toList (.padded v)

end Bourse.Json
