import Bourse.Text.Utf8
import Mathlib.Tactic.SplitIfs

/-! Text and its bytes. Bytes are read up to their end exactly if they are text, and a text that is
written is read again. -/
namespace Bourse.Text

theorem isWhole_decode (bytes : ByteArray) :
    (decode bytes).isWhole = true ↔ bytes.IsValidUTF8 := by
  unfold decode String.fromUTF8?
  split_ifs with h
  · exact iff_of_true rfl h
  · exact iff_of_false nofun h

theorem isWhole_decode_eq_false (bytes : ByteArray) :
    (decode bytes).isWhole = false ↔ ¬bytes.IsValidUTF8 := by
  rw [← isWhole_decode, Bool.not_eq_true]

theorem decode_toUTF8 (text : String) : decode text.toUTF8 = ⟨text.toList, true⟩ := by
  have hread : String.fromUTF8? text.toUTF8 = some text := dif_pos text.isValidUTF8
  rw [decode, hread]

end Bourse.Text
