import Bourse.Proofs.Number.Digits

/-! Texts of integers. Such a text has digits with an optional sign before them, single underscores
between them and blanks around them; what is read from a text is the integer that it shows. -/
namespace Bourse.Numeral

open Text

/-- A run of digits, with single underscores between two of them, and the values of the digits. -/
inductive Run : List Char → List ℕ → Prop
  | last {c : Char} {d : ℕ} (hdigit : decimalValue? c = some d) : Run [c] [d]
  | next {c : Char} {d : ℕ} {text : List Char} {digits : List ℕ}
      (hdigit : decimalValue? c = some d) (hrest : Run text digits) : Run (c :: text) (d :: digits)
  | apart {c : Char} {d : ℕ} {text : List Char} {digits : List ℕ}
      (hdigit : decimalValue? c = some d) (hrest : Run text digits) :
      Run (c :: '_' :: text) (d :: digits)

/-- A sign before a number, and whether it is a minus. -/
inductive Sign : List Char → Bool → Prop
  | none : Sign [] false
  | plus : Sign ['+'] false
  | minus : Sign ['-'] true

/-- Whether a text shows an integer, in decimal digits of which the last is the lowest. -/
inductive Shows : List Char → ℤ → Prop
  | intro {before sign run after : List Char} {negative : Bool} {digits : List ℕ}
      (hbefore : ∀ c ∈ before, isSurround c = true) (hsign : Sign sign negative)
      (hrun : Run run digits) (hafter : ∀ c ∈ after, isSurround c = true) :
      Shows (before ++ (sign ++ run) ++ after)
        ((if negative then -1 else 1) * (Nat.ofDigits 10 digits.reverse : ℕ))

theorem skipUnderscore_eq (text : List Char) :
    skipUnderscore text = text ∨ text = '_' :: skipUnderscore text := by
  unfold skipUnderscore
  split
  · split_ifs
    · exact .inr rfl
    · exact .inl rfl
  · exact .inl rfl

theorem run_of_takeDigits {text : List Char} {digits : List ℕ} (h : takeDigits text = (digits, []))
    (hne : digits ≠ []) : Run text digits := by
  induction text using takeDigits.induct generalizing digits with
  | case1 =>
    rw [takeDigits] at h
    cases h
    contradiction
  | case2 c rest d hdigit ih =>
    rw [takeDigits, hdigit] at h
    obtain ⟨rfl, hrest⟩ := Prod.mk.inj h
    generalize htail : takeDigits (skipUnderscore rest) = tail at hrest ⊢
    obtain ⟨digits, left⟩ := tail
    obtain rfl : left = [] := hrest
    dsimp only
    rcases eq_or_ne digits [] with rfl | hmore
    · -- behind the last digit nothing is left
      have hend : skipUnderscore rest = [] := by
        cases hskip : skipUnderscore rest with
        | nil => rfl
        | cons next more =>
          rw [hskip, takeDigits] at htail
          split at htail <;> cases htail
      have hrest : rest = [] := by
        rcases skipUnderscore_eq rest with hsame | hunder
        · rw [← hsame, hend]
        · rw [hend] at hunder
          subst hunder
          cases hend
      rw [hrest]
      exact .last hdigit
    · have hrun : Run (skipUnderscore rest) digits := ih htail hmore
      rcases skipUnderscore_eq rest with hsame | hunder
      · rw [hsame] at hrun
        exact .next hdigit hrun
      · rw [hunder]
        exact .apart hdigit hrun
  | case3 c rest hdigit =>
    rw [takeDigits, hdigit] at h
    cases h

theorem sign_of_takeSign (text : List Char) :
    ∃ sign, text = sign ++ (takeSign text).2 ∧ Sign sign (takeSign text).1 := by
  unfold takeSign
  split
  · exact ⟨['-'], rfl, .minus⟩
  · exact ⟨['+'], rfl, .plus⟩
  · exact ⟨[], rfl, .none⟩

theorem ofDigits_eq (digits : List ℕ) : ofDigits digits = Nat.ofDigits 10 digits.reverse := by
  rw [Nat.ofDigits_eq_foldr, List.foldr_reverse, ofDigits]
  congr 1
  ext n d
  exact Nat.add_comm (10 * n) d

/-- What is read from a text as an integer is what the text shows. -/
theorem shows_of_integer? {text : List Char} {n : ℤ} (h : integer? text = some n) : Shows text n := by
  obtain ⟨before, after, htext, hbefore, hafter⟩ := exists_stripped isSurround text
  rw [← body] at htext
  obtain ⟨sign, hbody, hsign⟩ := sign_of_takeSign (body text)
  rw [integer?] at h
  dsimp only at h
  generalize takeSign (body text) = signed at h hbody hsign
  obtain ⟨negative, rest⟩ := signed
  dsimp only at h hbody hsign
  split at h
  · contradiction
  · next digits hnonempty hdigits =>
    split_ifs at h with hlong hnegative
    all_goals
      have hrun : Run rest digits := run_of_takeDigits hdigits hnonempty
      have hshows := Shows.intro hbefore hsign hrun hafter
      rw [← hbody, ← htext, ← ofDigits_eq] at hshows
      obtain rfl := Option.some.inj h
    · rwa [if_pos hnegative, neg_one_mul] at hshows
    · rwa [if_neg hnegative, one_mul] at hshows
  · contradiction

end Bourse.Numeral
