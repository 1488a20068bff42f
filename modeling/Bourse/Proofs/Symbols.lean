import Bourse.Proofs.Text.Words
import Bourse.Symbols

/-! Symbols. They are short, they hold no blanks, and they are in upper case already. -/
namespace Bourse.Symbols

variable {text : List Char}

theorem toNat_of_isSymbolChar {c : Char} (h : isSymbolChar c = true) :
    33 ≤ c.toNat ∧ c.toNat < 97 := by
  simp only [isSymbolChar, Bool.or_eq_true, Bool.and_eq_true, decide_eq_true_eq, Char.le_def,
    UInt32.le_iff_toNat_le, List.contains_iff_mem, List.mem_cons, List.not_mem_nil, or_false] at h
  rcases h with (⟨hlow, hhigh⟩ | ⟨hlow, hhigh⟩) | rfl | rfl | rfl | rfl
  · change 65 ≤ c.toNat at hlow
    change c.toNat ≤ 90 at hhigh
    omega
  · change 48 ≤ c.toNat at hlow
    change c.toNat ≤ 57 at hhigh
    omega
  all_goals decide

theorem isSymbolChar_of_mem (h : isValid text = true) : ∀ c ∈ text, isSymbolChar c = true := by
  simp only [isValid, Bool.and_eq_true, List.all_eq_true] at h
  exact h.2

theorem length_le (h : isValid text = true) : text.length ≤ mostChars := by
  simp only [isValid, Bool.and_eq_true, decide_eq_true_eq] at h
  exact h.1.2

theorem upper_of_isValid {symbol : String} (h : isValid symbol.toList = true) :
    Text.upper symbol = symbol :=
  Text.upper_eq_self fun c hc => (toNat_of_isSymbolChar (isSymbolChar_of_mem h c hc)).2

end Bourse.Symbols
