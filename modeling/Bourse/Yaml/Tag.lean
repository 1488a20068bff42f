import Bourse.Calendar.Moment
import Bourse.Text.Split
import Bourse.Yaml.Cursor
/-!
Tags, which say how a node is read, and the tags that scalars without quotes have by their form.
-/
namespace Bourse.Yaml

/-- How a node is read. -/
inductive Tag where
  | null
  | bool
  | int
  | float
  | timestamp
  | text
  | sequence
  | mapping
  /-- The key under which other mappings are merged. -/
  | merge
  /-- The key that stands for the value of a whole mapping. -/
  | default
  /-- A tag without a meaning here. -/
  | other (name : String)
deriving DecidableEq, Repr, Inhabited

namespace Tag

/-- How the standard tags begin. -/
def standard : String := "tag:yaml.org,2002:"

/-- The standard tags by their names. -/
def named : List (String × Tag) :=
  [("null", null), ("bool", bool), ("int", int), ("float", float), ("timestamp", timestamp),
    ("str", text), ("seq", sequence), ("map", mapping), ("merge", merge), ("value", default)]

/-- The tag with a full name. -/
def ofName (name : String) : Tag :=
  let found := named.find? fun entry => standard ++ entry.1 == name
  (found.map (·.2)).getD (other name)

/-- A decimal digit. -/
def isDigit (c : Char) : Bool := '0' ≤ c && c ≤ '9'

/-- A decimal digit or an underscore. -/
def isDigitOrMark (c : Char) : Bool := isDigit c || c == '_'

/-- The text behind an optional sign. -/
def unsigned : List Char → List Char
  | '+' :: rest => rest
  | '-' :: rest => rest
  | cs => cs

/-- Whether a text has characters and all of them are of a class. -/
def isRun (p : Char → Bool) (text : List Char) : Bool := !text.isEmpty && text.all p

/-- The words for truth values; each may be in lower case, in upper case or capitalised. -/
def truthWords : List (String × Bool) :=
  [("yes", true), ("no", false), ("true", true), ("false", false), ("on", true), ("off", false)]

/-- A word with a capital letter in front. -/
def capitalized (word : String) : String :=
  match word.toList with
  | c :: rest => String.ofList (c.toUpper :: rest)
  | [] => ""

/-- Whether a text is a word in lower case, in upper case or capitalised. -/
def isCased (word text : String) : Bool :=
  text == word || text == capitalized word || text == String.ofList (word.toList.map Char.toUpper)

/-- Whether a text is a truth value. -/
def isTruth (text : String) : Bool := truthWords.any fun entry => isCased entry.1 text

/-- Whether a text stands for nothing. -/
def isNull (text : String) : Bool := text == "" || text == "~" || isCased "null" text

/-- Whether a text is a number below sixty with one or two digits. -/
def isSixtieth : List Char → Bool
  | [d] => isDigit d
  | [t, d] => '0' ≤ t && t ≤ '5' && isDigit d
  | _ => false

/-- Whether a text without sign is an integer: binary, octal, decimal, hexadecimal or with parts of
sixty. -/
def isWhole (text : List Char) : Bool :=
  match text with
  | ['0'] => true
  | '0' :: 'b' :: rest => isRun (fun c => c == '0' || c == '1' || c == '_') rest
  | '0' :: 'x' :: rest =>
    isRun (fun c => isDigitOrMark c || ('a' ≤ c && c ≤ 'f') || ('A' ≤ c && c ≤ 'F')) rest
  | '0' :: rest => isRun (fun c => ('0' ≤ c && c ≤ '7') || c == '_') rest
  | c :: _ =>
    if isDigit c then
      match Text.split (· == ':') text with
      | [] => false
      | first :: parts => first.all isDigitOrMark && parts.all isSixtieth
    else false
  | [] => false

/-- Whether a text is empty or an exponent with a sign. -/
def isExponent : List Char → Bool
  | [] => true
  | [_] => false
  | e :: sign :: digits =>
    (e == 'e' || e == 'E') && (sign == '+' || sign == '-') && isRun isDigit digits

/-- Whether a text without sign is a number with a point. -/
def isPointed (text : List Char) : Bool :=
  let whole := text.takeWhile isDigitOrMark
  match text.drop whole.length with
  | '.' :: rest => isRun isDigit (whole.take 1) && isExponent (rest.dropWhile isDigitOrMark)
  | _ => false

/-- Whether a text is a number that begins with a point. -/
def isFraction (text : List Char) : Bool :=
  match text with
  | '.' :: rest => isRun isDigit (rest.take 1) && isExponent (rest.dropWhile isDigitOrMark)
  | _ => false

/-- Whether a text without sign is a number with parts of sixty and a point. -/
def isSexagesimal (text : List Char) : Bool :=
  let body := text.takeWhile (· != '.')
  match text.drop body.length, Text.split (· == ':') body with
  | '.' :: rest, first :: part :: parts =>
    isRun isDigit (first.take 1) && first.all isDigitOrMark && (part :: parts).all isSixtieth &&
      rest.all isDigitOrMark
  | _, _ => false

/-- Whether a text is a number that is no integer. -/
def isReal (text : List Char) : Bool :=
  let word := String.ofList (unsigned text)
  isPointed (unsigned text) || isFraction text || isSexagesimal (unsigned text) ||
    [".inf", ".Inf", ".INF"].contains word ||
    [".nan", ".NaN", ".NAN"].contains (String.ofList text)

end Tag

/-- A time as it is written: a date, and perhaps a time of day with a fraction and an offset. -/
structure TimeText where
  year : Nat
  month : Nat
  day : Nat
  /-- Whether the month and the day have two digits each. -/
  isWide : Bool
  clock : Option (Nat × Nat × Nat × List Char)
  /-- The offset in minutes, and whether its sign is a minus. -/
  offset : Option (Bool × Nat)

namespace TimeText

/-- The number in some digits. -/
def value (digits : List Char) : Nat := digits.foldl (fun n c => 10 * n + (c.toNat - 48)) 0

/-- One or two digits. -/
def short? (text : List Char) : Option (List Char × List Char) :=
  let digits := (text.takeWhile Tag.isDigit).take 2
  if digits.isEmpty then none else some (digits, text.drop digits.length)

/-- A number of digits. -/
def digits? (count : Nat) (text : List Char) : Option (Nat × List Char) :=
  let digits := (text.takeWhile Tag.isDigit).take count
  if digits.length = count then some (value digits, text.drop count) else none

/-- A character that has to stand here. -/
def sign? (c : Char) : List Char → Option (List Char)
  | d :: rest => if d = c then some rest else none
  | [] => none

/-- What follows the letter T or blanks between date and time. -/
def behindDate? : List Char → Option (List Char)
  | c :: rest =>
    if c == 'T' || c == 't' then some rest
    else if isWhite c then some (rest.dropWhile isWhite)
    else none
  | [] => none

/-- The minutes of an offset, behind its hours. -/
def offsetMinutes? : List Char → Option Nat
  | [] => some 0
  | ':' :: rest =>
    match digits? 2 rest with
    | some (minutes, []) => some minutes
    | _ => none
  | _ => none

/-- An offset: nothing, the letter Z, or hours with a sign and perhaps minutes. -/
def offset? (text : List Char) : Option (Option (Bool × Nat)) :=
  match text with
  | [] => some none
  | _ =>
    match text.dropWhile isWhite with
    | ['Z'] => some (some (false, 0))
    | c :: rest =>
      if c == '+' || c == '-' then do
        let (hours, rest) ← short? rest
        let minutes ← offsetMinutes? rest
        return some (c == '-', value hours * 60 + minutes)
      else none
    | [] => none

/-- Reads a time. -/
def read? (text : List Char) : Option TimeText := do
  let (year, rest) ← digits? 4 text
  let (month, rest) ← short? (← sign? '-' rest)
  let (day, rest) ← short? (← sign? '-' rest)
  let date : TimeText :=
    ⟨year, value month, value day, month.length == 2 && day.length == 2, none, none⟩
  if rest.isEmpty then return date
  let (hour, rest) ← short? (← behindDate? rest)
  let (minute, rest) ← digits? 2 (← sign? ':' rest)
  let (second, rest) ← digits? 2 (← sign? ':' rest)
  let (fraction, rest) := match rest with
    | '.' :: more => (more.takeWhile Tag.isDigit, more.dropWhile Tag.isDigit)
    | _ => ([], rest)
  let offset ← offset? rest
  return { date with clock := some (value hour, minute, second, fraction), offset }

/-- Whether a text has the form of a time: a date alone has two digits for month and day. -/
def isTime (text : List Char) : Bool :=
  match read? text with
  | some time => time.isWide || time.clock.isSome
  | none => false

end TimeText

/-- The tag of a scalar without quotes. -/
def Tag.ofPlain (text : String) : Tag :=
  let cs := text.toList
  if isNull text then null
  else if isTruth text then bool
  else if isReal cs then float
  else if isWhole (unsigned cs) then int
  else if text == "<<" then merge
  else if TimeText.isTime cs then timestamp
  else if text == "=" then default
  else if ["!", "&", "*"].contains text then other (standard ++ "yaml")
  else Tag.text

end Bourse.Yaml
