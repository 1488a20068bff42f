import Bourse.Number.Layout
import Bourse.Proofs.Number.Literal

/-! Numbers between their digits and their texts. A run of digits is read up to its end, what the
digits of a natural denote is that natural, and a text of digits with a sign and perhaps a point is
read as the decimal that it shows. -/
namespace Bourse

namespace Text

theorem toNat_of_isDigit {c : Char} (h : c.isDigit = true) : 48 ≤ c.toNat ∧ c.toNat ≤ 57 := by
  rw [Char.isDigit, Bool.and_eq_true, decide_eq_true_eq, decide_eq_true_eq] at h
  exact ⟨UInt32.le_iff_toNat_le.mp h.1, UInt32.le_iff_toNat_le.mp h.2⟩

theorem range_of_isDigit {c : Char} (h : c.isDigit = true) : '0' ≤ c ∧ c ≤ '9' := by
  rw [Char.le_def, Char.le_def, UInt32.le_iff_toNat_le, UInt32.le_iff_toNat_le]
  exact toNat_of_isDigit h

theorem ne_of_isDigit {c mark : Char} (h : c.isDigit = true) (hmark : mark.isDigit = false) :
    c ≠ mark := by
  rintro rfl
  exact Bool.false_ne_true (hmark.symm.trans h)

theorem isBlank_of_isAsciiDigit {c : Char} (h : c.isDigit = true) : isBlank c = false := by
  have hc := toNat_of_isDigit h
  exact isBlank_of_mark (by omega) (by omega)

theorem decimalValue?_of_isDigit {c : Char} (h : c.isDigit = true) :
    decimalValue? c = some (c.toNat - 48) := by
  have hc := toNat_of_isDigit h
  rw [decimalValue?, if_pos (by omega), if_pos (range_of_isDigit h)]
  rfl

theorem isLetter_of_not_alpha {c : Char} (h : c.toNat < 65) : isLetter c = false := by
  rw [Bool.eq_false_iff]
  intro hletter
  have hc := toNat_of_isLetter hletter
  omega

end Text

namespace Numeral

open Text

/-! Runs of digits -/

/-- The values of the digits in a text. -/
def values (text : List Char) : List Nat := text.filterMap decimalValue?

/-- Whether a run of digits goes on with a text. -/
def goesOn (text : List Char) : Bool :=
  text.head?.any fun c => c == '_' || (decimalValue? c).isSome

theorem skipUnderscore_of_ne {text : List Char} (h : text.head? ≠ some '_') :
    skipUnderscore text = text := by
  unfold skipUnderscore
  split
  · exact absurd rfl h
  · rfl

theorem takeDigits_of_not_goesOn {rest : List Char} (h : goesOn rest = false) :
    takeDigits rest = ([], rest) := by
  cases rest with
  | nil => rw [takeDigits]
  | cons c more =>
    have hdigit : decimalValue? c = none := by
      rw [goesOn, List.head?_cons, Option.any_some, Bool.or_eq_false_iff] at h
      exact Option.not_isSome_iff_eq_none.mp (Bool.eq_false_iff.mp h.2)
    rw [takeDigits, hdigit]

/-- A run of digits is taken up to its end, and what follows it is left. -/
theorem takeDigits_append {digits rest : List Char}
    (hdigits : ∀ c ∈ digits, (decimalValue? c).isSome = true) (hrest : goesOn rest = false) :
    takeDigits (digits ++ rest) = (values digits, rest) := by
  induction digits with
  | nil => exact takeDigits_of_not_goesOn hrest
  | cons c more ih =>
    obtain ⟨hc, hmore⟩ := List.forall_mem_cons.mp hdigits
    obtain ⟨d, hd⟩ := Option.isSome_iff_exists.mp hc
    -- no underscore follows: the next character is a digit, or it ends the run
    have hnext : (more ++ rest).head? ≠ some '_' := by
      intro hunderscore
      cases more with
      | nil =>
        have hhead : rest.head? = some '_' := hunderscore
        rw [goesOn, hhead] at hrest
        contradiction
      | cons next more =>
        cases hunderscore
        exact absurd (hmore '_' List.mem_cons_self) (by decide +kernel)
    rw [List.cons_append, takeDigits, hd, skipUnderscore_of_ne hnext, ih hmore]
    exact congrArg (·, rest) (List.filterMap_cons_some hd).symm

theorem values_append (text more : List Char) : values (text ++ more) = values text ++ values more :=
  List.filterMap_append

theorem length_values {digits : List Char}
    (h : ∀ c ∈ digits, (decimalValue? c).isSome = true) : (values digits).length = digits.length := by
  induction digits with
  | nil => rfl
  | cons c more ih =>
    obtain ⟨hc, hmore⟩ := List.forall_mem_cons.mp h
    obtain ⟨d, hd⟩ := Option.isSome_iff_exists.mp hc
    rw [values, List.filterMap_cons_some hd, List.length_cons, List.length_cons]
    exact congrArg (· + 1) (ih hmore)

theorem values_ne_nil {digits : List Char}
    (h : ∀ c ∈ digits, (decimalValue? c).isSome = true) (hne : digits ≠ []) : values digits ≠ [] := by
  rw [← List.length_pos_iff, length_values h]
  exact List.length_pos_iff.mpr hne

theorem isSome_of_isDigit {digits : List Char} (h : ∀ c ∈ digits, c.isDigit = true) :
    ∀ c ∈ digits, (decimalValue? c).isSome = true := by
  intro c hc
  rw [decimalValue?_of_isDigit (h c hc)]
  rfl

theorem takeDigits_of_hasPlace {digits : List Char}
    (h : ∀ c ∈ digits, (decimalValue? c).isSome = true) :
    takeDigits digits = (values digits, []) := by
  have hend : goesOn [] = false := rfl
  have hall := takeDigits_append h hend
  rwa [List.append_nil] at hall

/-! What digits denote -/

theorem isDigit_of_mem_digitsOf {n : Nat} : ∀ c ∈ Layout.digitsOf n, c.isDigit = true :=
  fun _ hc => Nat.isDigit_of_mem_toDigits (by decide) (by decide) hc

theorem digitsOf_ne_nil (n : Nat) : Layout.digitsOf n ≠ [] :=
  Nat.toDigits_ne_nil

theorem isDigit_of_mem_padZeros {width : Nat} {digits : List Char}
    (h : ∀ c ∈ digits, c.isDigit = true) : ∀ c ∈ Layout.padZeros width digits, c.isDigit = true := by
  intro c hc
  rcases List.mem_append.mp hc with hzero | hdigit
  · rw [List.eq_of_mem_replicate hzero]
    rfl
  · exact h c hdigit

theorem foldl_values {digits : List Char} (h : ∀ c ∈ digits, c.isDigit = true) (start : Nat) :
    (values digits).foldl (fun n d => 10 * n + d) start = Nat.ofDigitChars 10 digits start := by
  induction digits generalizing start with
  | nil => rfl
  | cons c more ih =>
    obtain ⟨hc, hmore⟩ := List.forall_mem_cons.mp h
    rw [values, List.filterMap_cons_some (decimalValue?_of_isDigit hc), List.foldl_cons]
    exact ih hmore _

/-- The digits of a natural denote it. -/
theorem ofDigits_digitsOf (n : Nat) : ofDigits (values (Layout.digitsOf n)) = n := by
  rw [ofDigits, foldl_values isDigit_of_mem_digitsOf]
  exact Nat.ofDigitChars_ten_toDigits

/-! Texts of numbers -/

/-- Whether a character can stand in the text of a number: a digit, a minus or a point. -/
def IsMark (c : Char) : Prop := c.isDigit = true ∨ c = '-' ∨ c = '.'

instance : DecidablePred IsMark := fun _ => inferInstanceAs (Decidable (_ ∨ _ ∨ _))

theorem IsMark.toNat {c : Char} (h : IsMark c) : 45 ≤ c.toNat ∧ c.toNat ≤ 57 := by
  rcases h with hdigit | rfl | rfl
  · have := toNat_of_isDigit hdigit
    omega
  · decide
  · decide

theorem isSurround_of_isMark {c : Char} (h : IsMark c) : isSurround c = false := by
  have hcodes : ∀ code < 128, 45 ≤ code →
      (code == 32 || (9 ≤ code && code ≤ 13)) = false := by
    decide +kernel
  have hc := h.toNat
  have hspace : (c == ' ') = (c.toNat == 32) := by
    rw [Bool.eq_iff_iff, beq_iff_eq, beq_iff_eq, Char.ext_iff, ← UInt32.toNat_inj]
    rfl
  rw [isSurround, if_pos (by omega), hspace]
  exact hcodes c.toNat (by omega) hc.1

theorem body_of_not_isSurround {text : List Char} (h : ∀ c ∈ text, isSurround c = false) :
    body text = text := by
  have hend : ∀ inner : List Char, (∀ c ∈ inner, isSurround c = false) →
      inner.head?.any isSurround = false := by
    intro inner hinner
    rw [Option.any_eq_false]
    exact fun c hc => hinner c (List.mem_of_mem_head? hc)
  have hreverse : ∀ c ∈ text.reverse, isSurround c = false := fun c hc =>
    h c (List.mem_reverse.mp hc)
  rw [body, dropWhile_eq_self_of_head? (hend text h),
    dropWhile_eq_self_of_head? (hend _ hreverse), List.reverse_reverse]

theorem body_of_isMark {text : List Char} (h : ∀ c ∈ text, IsMark c) : body text = text :=
  body_of_not_isSurround fun c hc => isSurround_of_isMark (h c hc)

theorem float?_of_isMark {text : List Char} (h : ∀ c ∈ text, IsMark c) :
    float? text = (decimal? text).map fun x =>
      Binary64.nearestDecimal x.negative x.coefficient x.exponent := by
  have hletter : ∀ c ∈ text, isLetter c = false := fun c hc =>
    isLetter_of_not_alpha (by have := (h c hc).toNat; omega)
  rw [float?_of_not_isLetter hletter, body_of_isMark h]

/-- The sign in front of a number. -/
def signText (negative : Bool) : List Char := if negative then ['-'] else []

theorem takeSign_of_unsigned {text : List Char} (hminus : text.head? ≠ some '-')
    (hplus : text.head? ≠ some '+') : takeSign text = (false, text) := by
  unfold takeSign
  split
  · exact absurd rfl hminus
  · exact absurd rfl hplus
  · rfl

theorem ne_of_hasPlace {c mark : Char} (h : (decimalValue? c).isSome = true)
    (hmark : decimalValue? mark = none) : c ≠ mark := by
  rintro rfl
  rw [hmark] at h
  contradiction

theorem takeSign_signText (negative : Bool) {digits : List Char} (rest : List Char)
    (h : ∀ c ∈ digits, (decimalValue? c).isSome = true) (hne : digits ≠ []) :
    takeSign (signText negative ++ (digits ++ rest)) = (negative, digits ++ rest) := by
  cases negative with
  | true => rfl
  | false =>
    -- a digit in front is no sign
    obtain ⟨c, more, rfl⟩ := List.exists_cons_of_ne_nil hne
    have hc := h c List.mem_cons_self
    apply takeSign_of_unsigned
    · intro hminus
      exact ne_of_hasPlace hc (by decide) (Option.some.inj hminus)
    · intro hplus
      exact ne_of_hasPlace hc (by decide) (Option.some.inj hplus)

variable {whole fraction : List Char}

theorem decimal?_whole (negative : Bool) (hwhole : ∀ c ∈ whole, (decimalValue? c).isSome = true)
    (hne : whole ≠ []) :
    decimal? (signText negative ++ whole) = some ⟨negative, ofDigits (values whole), 0⟩ := by
  have hsign := takeSign_signText negative [] hwhole hne
  have hdigits := takeDigits_of_hasPlace hwhole
  rw [List.append_nil] at hsign
  have hvalues := values_ne_nil hwhole hne
  simp [decimal?, hsign, hdigits, hvalues, exponent?]

theorem decimal?_fraction (negative : Bool)
    (hwhole : ∀ c ∈ whole, (decimalValue? c).isSome = true) (hne : whole ≠ [])
    (hfraction : ∀ c ∈ fraction, (decimalValue? c).isSome = true) :
    decimal? (signText negative ++ (whole ++ '.' :: fraction)) =
      some ⟨negative, ofDigits (values (whole ++ fraction)), -fraction.length⟩ := by
  have hsign := takeSign_signText negative ('.' :: fraction) hwhole hne
  have hpoint : goesOn ('.' :: fraction) = false := by
    rw [goesOn, List.head?_cons]
    decide +kernel
  have hdigits := takeDigits_append hwhole hpoint
  have hmore := takeDigits_of_hasPlace hfraction
  have hvalues := values_ne_nil hwhole hne
  have hlength := length_values hfraction
  simp [decimal?, hsign, hdigits, hmore, hvalues, exponent?, values_append, hlength]

/-! Integers -/

theorem isSurround_of_digit {c : Char} (h : Text.isDigit c = true) : isSurround c = false := by
  by_cases hc : c.toNat < 128
  · have hrange := toNat_of_isDigit_ascii h hc
    have hdigit : c.isDigit = true := by
      rw [Char.isDigit, Bool.and_eq_true, decide_eq_true_eq, decide_eq_true_eq]
      exact ⟨UInt32.le_iff_toNat_le.mpr hrange.1, UInt32.le_iff_toNat_le.mpr hrange.2⟩
    exact isSurround_of_isMark (.inl hdigit)
  · rw [isSurround, if_neg hc]
    exact isBlank_of_isDigit h

/-- Whether a digit has a place value. -/
def hasPlace (c : Char) : Bool := (decimalValue? c).isSome

/-- Without underscores the run of digits ends at the first character that has no place value. -/
theorem takeDigits_of_not_underscore {text : List Char} (h : '_' ∉ text) :
    takeDigits text = (values (text.takeWhile hasPlace), text.dropWhile hasPlace) := by
  have hstop : goesOn (text.dropWhile hasPlace) = false := by
    cases hrest : text.dropWhile hasPlace with
    | nil => rfl
    | cons c more =>
      have hne : text.dropWhile hasPlace ≠ [] := hrest ▸ List.cons_ne_nil c more
      have hplace : hasPlace c = false := by
        have hhead := List.head_dropWhile_not hasPlace hne
        simp only [hrest, List.head_cons] at hhead
        exact hhead
      have hmem : c ∈ text := (List.dropWhile_sublist _).mem (hrest ▸ List.mem_cons_self)
      have hother : c ≠ '_' := fun heq => h (heq ▸ hmem)
      rw [goesOn, List.head?_cons, Option.any_some, Bool.or_eq_false_iff]
      exact ⟨beq_false_of_ne hother, hplace⟩
  have hdigits : ∀ c ∈ text.takeWhile hasPlace, (decimalValue? c).isSome = true :=
    fun c hc => List.mem_takeWhile_imp (p := hasPlace) hc
  have htake := takeDigits_append hdigits hstop
  rwa [List.takeWhile_append_dropWhile] at htake

theorem not_underscore_of_digits {digits : List Char} (h : ∀ c ∈ digits, Text.isDigit c = true) :
    '_' ∉ digits := by
  intro hmem
  exact absurd (h '_' hmem) (by decide +kernel)

/-- Digits denote an integer unless one of them has no place value or there are too many. -/
theorem integer?_eq_none_iff {text digits : List Char} {negative : Bool}
    (hsign : takeSign (body text) = (negative, digits)) (hne : digits ≠ [])
    (hdigits : ∀ c ∈ digits, Text.isDigit c = true) :
    integer? text = none ↔ (∃ c ∈ digits, decimalValue? c = none) ∨ mostDigits < digits.length := by
  have hrun := takeDigits_of_not_underscore (not_underscore_of_digits hdigits)
  cases hrest : digits.dropWhile hasPlace with
  | nil =>
    -- the run takes every digit
    have hplaces : ∀ c ∈ digits, hasPlace c = true := List.dropWhile_eq_nil_iff.mp hrest
    have hall : digits.takeWhile hasPlace = digits := List.takeWhile_eq_self_iff.mpr hplaces
    have hnone : ¬∃ c ∈ digits, decimalValue? c = none := by
      rintro ⟨c, hc, hlone⟩
      have hplace := hplaces c hc
      rw [hasPlace, hlone] at hplace
      contradiction
    rw [hall, hrest] at hrun
    cases hvalues : values digits with
    | nil => exact absurd hvalues (values_ne_nil hplaces hne)
    | cons d rest =>
      have hlength := length_values hplaces
      rw [hvalues] at hrun hlength
      simp [integer?, hsign, hrun, ← hlength, hnone]
  | cons c more =>
    have hmem : c ∈ digits := (List.dropWhile_sublist _).mem (hrest ▸ List.mem_cons_self)
    have hlone : ∃ c ∈ digits, decimalValue? c = none := by
      by_contra hnone
      have hplaces : ∀ c ∈ digits, hasPlace c = true := by
        intro c hc
        rw [hasPlace, Option.isSome_iff_ne_none]
        exact fun hlone => hnone ⟨c, hc, hlone⟩
      rw [List.dropWhile_eq_nil_iff.mpr hplaces] at hrest
      contradiction
    rw [hrest] at hrun
    refine iff_of_true ?_ (.inl hlone)
    cases hvalues : values (digits.takeWhile hasPlace) <;> simp [integer?, hsign, hrun, hvalues]

theorem takeSign_of_digits {digits : List Char} (h : ∀ c ∈ digits, Text.isDigit c = true) :
    takeSign digits = (false, digits) := by
  apply takeSign_of_unsigned
  · intro hminus
    exact absurd (h '-' (List.mem_of_mem_head? hminus)) (by decide +kernel)
  · intro hplus
    exact absurd (h '+' (List.mem_of_mem_head? hplus)) (by decide +kernel)

/-- Digits that are not too many denote the integer that they show. -/
theorem integer?_of_isDigit {digits : List Char} (h : ∀ c ∈ digits, c.isDigit = true)
    (hne : digits ≠ []) (hlength : digits.length ≤ mostDigits) :
    integer? digits = some (ofDigits (values digits) : Int) := by
  have hbody : body digits = digits := body_of_isMark fun c hc => .inl (h c hc)
  have hsign : takeSign digits = (false, digits) := by
    apply takeSign_of_unsigned
    · intro hminus
      exact absurd (h '-' (List.mem_of_mem_head? hminus)) (by decide)
    · intro hplus
      exact absurd (h '+' (List.mem_of_mem_head? hplus)) (by decide)
  have hrun := takeDigits_of_hasPlace (isSome_of_isDigit h)
  have hshort : ¬mostDigits < (values digits).length := by
    rw [length_values (isSome_of_isDigit h)]
    exact Nat.not_lt.mpr hlength
  have hvalues := values_ne_nil (isSome_of_isDigit h) hne
  simp [integer?, hbody, hsign, hrun, hshort]

/-- A hyphen behind the sign denotes no integer. -/
theorem integer?_of_hyphen {text more : List Char} {negative : Bool}
    (hsign : takeSign (body text) = (negative, '-' :: more)) : integer? text = none := by
  have hrun : takeDigits ('-' :: more) = ([], '-' :: more) :=
    takeDigits_of_not_goesOn (by rw [goesOn, List.head?_cons]; decide +kernel)
  simp [integer?, hsign, hrun]

/-! How large an integer can be -/

theorem decimalValue?_lt {c : Char} {d : Nat} (h : decimalValue? c = some d) : d < 10 := by
  unfold decimalValue? at h
  split_ifs at h with hascii hrange
  · cases h
    have hhigh : c.toNat ≤ 57 := UInt32.le_iff_toNat_le.mp hrange.2
    change c.toNat - 48 < 10
    omega
  · obtain ⟨first, hfirst, hd⟩ := Option.map_eq_some_iff.mp h
    have hbounds := Array.find?_some hfirst
    simp only [Bool.and_eq_true, decide_eq_true_eq] at hbounds
    omega

theorem takeDigits_lt (text : List Char) : ∀ d ∈ (takeDigits text).1, d < 10 := by
  fun_induction takeDigits text with
  | case1 => exact List.forall_mem_nil _
  | case2 c rest d hd tail ih => exact List.forall_mem_cons.mpr ⟨decimalValue?_lt hd, ih⟩
  | case3 => exact List.forall_mem_nil _

theorem ofDigits_lt {digits : List Nat} (h : ∀ d ∈ digits, d < 10) :
    ofDigits digits < 10 ^ digits.length := by
  induction digits using List.reverseRecOn with
  | nil => exact Nat.one_pos
  | append_singleton digits d ih =>
    -- the last digit is the lowest one
    have hall := List.forall_mem_append.mp h
    have hdigits := ih hall.1
    have hd := hall.2 d (List.mem_singleton_self d)
    have hstep : ofDigits (digits ++ [d]) = 10 * ofDigits digits + d := List.foldl_concat ..
    rw [hstep, List.length_append, List.length_singleton, Nat.pow_succ]
    omega

/-- An integer that is read has no more digits than an integer may have. -/
theorem natAbs_lt_of_integer? {text : List Char} {n : Int} (h : integer? text = some n) :
    n.natAbs < 10 ^ mostDigits := by
  have hdigits := takeDigits_lt (takeSign (body text)).2
  simp only [integer?] at h
  split at h
  · contradiction
  · next digits _ hrun =>
    rw [hrun] at hdigits
    have hlt : ofDigits digits < 10 ^ digits.length := ofDigits_lt hdigits
    split_ifs at h with hlong hnegative <;> cases h
    all_goals
      have hpow := Nat.pow_le_pow_right (by decide : 0 < 10) (Nat.le_of_not_lt hlong)
      omega
  · contradiction

end Numeral

end Bourse
