import Bourse.Text.CaseTable
import Bourse.Text.Ranges
/-!
Upper and lower case of text. A letter may map to several; a capital sigma that ends a word maps to
the final form.
-/
namespace Bourse.Text

/-- The image of a code point under a table of runs. -/
def shiftInRuns? (runs : Array (Nat × Nat × Nat × Int)) (code : Nat) : Option Nat :=
  (runs.find? fun (first, last, step, _) =>
    first ≤ code && code ≤ last && (code - first) % step == 0).map
    fun (_, _, _, shift) => (code + shift).toNat

/-- The upper case form of one character. -/
def upperChar (c : Char) : List Char :=
  if c.toNat < 128 then [c.toUpper]
  else match upperExpansions.find? (·.1 == c.toNat) with
    | some (_, codes) => codes.map Char.ofNat
    | none => [((shiftInRuns? upperRuns c.toNat).map Char.ofNat).getD c]

/-- The lower case form of one character, wherever it stands. -/
def lowerChar (c : Char) : List Char :=
  if c.toNat < 128 then [c.toLower]
  else if c.toNat == 0x130 then ['i', Char.ofNat 0x307]
  else [((shiftInRuns? lowerRuns c.toNat).map Char.ofNat).getD c]

/-- Whether the nearest character that matters for word ends is a letter with case. -/
def meetsCased (neighbours : List Char) : Bool :=
  match neighbours.dropWhile fun c => inRanges caseIgnorableRanges c.toNat with
  | [] => false
  | c :: _ => inRanges casedRanges c.toNat

/-- Lower case of `rest`, which follows the characters `seen` (the nearest first). -/
def lowerAfter (seen : List Char) : List Char → List Char
  | [] => []
  | c :: rest =>
    let image :=
      if c.toNat == 0x3a3 then
        if meetsCased seen && !meetsCased rest then [Char.ofNat 0x3c2] else [Char.ofNat 0x3c3]
      else lowerChar c
    image ++ lowerAfter (c :: seen) rest

/-- Text in upper case. -/
def upper (text : String) : String := String.ofList (text.toList.flatMap upperChar)

/-- Text in lower case. -/
def lower (text : String) : String := String.ofList (lowerAfter [] text.toList)

end Bourse.Text
