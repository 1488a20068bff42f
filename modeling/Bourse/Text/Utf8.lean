/-!
Text from bytes in UTF-8. Bytes are taken in blocks: where a block is not UTF-8, the lines that end
in the blocks before it still count.
-/
namespace Bourse.Text

/-- The text of some bytes, and whether all of them are text. -/
structure Decoded where
  text : List Char
  isWhole : Bool
deriving DecidableEq, Repr

/-- The bytes of a block. -/
def blockSize : Nat := 8192

/-- The text of the first bytes, without a character that is cut off at their end. -/
def leadingText? (bytes : ByteArray) (length : Nat) : Option String :=
  (List.range 4).findSome? fun cut => String.fromUTF8? (bytes.extract 0 (length - cut))

/-- The lines of a text that have ended for certain; after a carriage return at the end of the text
a line feed may follow. -/
def endedLines (text : List Char) : List Char :=
  let body := match text.reverse with
    | '\r' :: rest => rest
    | reversed => reversed
  (body.dropWhile fun c => c != '\n' && c != '\r').reverse

/-- The text of the first blocks, as many as can be read. -/
def readableBlocks (bytes : ByteArray) : Nat → String
  | 0 => ""
  | count + 1 => (leadingText? bytes (blockSize * (count + 1))).getD (readableBlocks bytes count)

/-- Decodes bytes. -/
def decode (bytes : ByteArray) : Decoded :=
  match String.fromUTF8? bytes with
  | some text => ⟨text.toList, true⟩
  | none => ⟨endedLines (readableBlocks bytes (bytes.size / blockSize)).toList, false⟩

end Bourse.Text
