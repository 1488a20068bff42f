import Bourse.Proofs.Json.Numbers

/-! Reading JSON. Whatever the grammar accepts is read as the value that it denotes, so a text denotes
one value at most. -/
namespace Bourse.Json

open Numeral

/-! Blanks -/

theorem isSpace_iff {c : Char} : isSpace c = true ↔ c = ' ' ∨ c = '\t' ∨ c = '\n' ∨ c = '\r' := by
  simp only [isSpace, Bool.or_eq_true, beq_iff_eq]
  tauto

theorem dropWhile_blank {blank : List Char} (h : IsBlank blank) (rest : List Char) :
    (blank ++ rest).dropWhile isSpace = rest.dropWhile isSpace :=
  List.dropWhile_append_of_pos fun c hc => isSpace_iff.mpr (h c hc)

theorem dropWhile_blank_cons {blank : List Char} (h : IsBlank blank) {c : Char}
    (hc : isSpace c = false) (rest : List Char) :
    (blank ++ c :: rest).dropWhile isSpace = c :: rest := by
  rw [dropWhile_blank h, List.dropWhile_cons_of_neg (Bool.eq_false_iff.mp hc)]

/-! Texts -/

/-- The character of a code point; surrogates are replaced. -/
def charOf (code : ℕ) : Char :=
  if 0xd800 ≤ code ∧ code < 0xe000 then Char.ofNat 0xfffd else Char.ofNat code

/-- The characters of code points that come last first. -/
def decoded (seen : List ℕ) : List Char := seen.reverse.map charOf

theorem ofCodes_eq (seen : List ℕ) : ofCodes seen = String.ofList (decoded seen) := rfl

theorem decoded_cons (code : ℕ) (seen : List ℕ) :
    decoded (code :: seen) = decoded seen ++ [charOf code] := by
  rw [decoded, List.reverse_cons, List.map_append]
  rfl

theorem charOf_of_not_surrogate {code : ℕ} (hhigh : ¬IsHigh code) (hlow : ¬IsLow code) :
    charOf code = Char.ofNat code := by
  unfold IsHigh at hhigh
  unfold IsLow at hlow
  exact if_neg (by omega)

theorem charOf_toNat (c : Char) : charOf c.toNat = c := by
  rw [charOf_of_not_surrogate (not_isHigh_toNat c) (not_isLow_toNat c), Char.ofNat_toNat]

/-- Whether a text goes on with the escape of a second surrogate. -/
def StartsLow (text : List Char) : Prop :=
  ∃ escape more low, IsEscape escape low ∧ IsLow low ∧ text = escape ++ more

/-- Whether no first surrogate was read last, to which one that follows would be joined. -/
def IsFree (seen : List ℕ) (text : List Char) : Prop :=
  ∀ high ∈ seen.head?, IsHigh high → ¬StartsLow text

theorem isFree_cons {code : ℕ} (h : ¬IsHigh code) (seen : List ℕ) (text : List Char) :
    IsFree (code :: seen) text := by
  intro high hhead hhigh
  cases hhead
  exact absurd hhigh h

theorem joinUnit_of_isFree {escape more : List Char} {unit : ℕ} (hescape : IsEscape escape unit)
    {seen : List ℕ} (h : IsFree seen (escape ++ more)) : joinUnit unit seen = unit :: seen := by
  unfold joinUnit
  cases seen with
  | nil => rfl
  | cons high rest =>
    dsimp only
    rw [if_neg]
    rintro ⟨hlow, hlow', hhigh, hhigh'⟩
    exact h high rfl ⟨hhigh, hhigh'⟩ ⟨escape, more, unit, hescape, ⟨hlow, hlow'⟩, rfl⟩

theorem joinUnit_pair {high low : ℕ} (hhigh : IsHigh high) (hlow : IsLow low) (seen : List ℕ) :
    joinUnit low (high :: seen) =
      (0x10000 + (high - 0xd800) * 0x400 + (low - 0xdc00)) :: seen :=
  if_pos ⟨hlow.1, hlow.2, hhigh.1, hhigh.2⟩

theorem readText_plain {c : Char} (hcontrol : 32 ≤ c.toNat) (hquote : c ≠ '"') (hslash : c ≠ '\\')
    (seen : List ℕ) (rest : List Char) :
    readText seen (c :: rest) = readText (c.toNat :: seen) rest := by
  rw [readText, if_neg (by omega)]
  · exact hquote
  · rintro _ _ _ _ _ rfl
    exact absurd rfl hslash
  · rintro _ _ rfl
    exact absurd rfl hslash

theorem readText_short {letter c : Char} (hletter : shortEscape? letter = some c) (seen : List ℕ)
    (rest : List Char) :
    readText seen ('\\' :: letter :: rest) = readText (c.toNat :: seen) rest := by
  rw [readText, hletter]
  rintro _ _ _ _ _ rfl
  contradiction

theorem readText_unit (seen : List ℕ) (a b c d : Char) (rest : List Char) :
    readText seen ('\\' :: 'u' :: a :: b :: c :: d :: rest) =
      match unit? a b c d with
      | some unit => readText (joinUnit unit seen) rest
      | none => none := rfl

theorem readText_escape {escape : List Char} {unit : ℕ} (h : IsEscape escape unit) (seen : List ℕ)
    (rest : List Char) : readText seen (escape ++ rest) = readText (joinUnit unit seen) rest := by
  obtain ⟨h⟩ := h
  simp only [List.cons_append, List.nil_append]
  rw [readText_unit, h]

theorem readText_spells {inside chars : List Char} (h : Spells inside chars) :
    ∀ seen rest, IsFree seen inside →
      readText seen (inside ++ '"' :: rest) = some (String.ofList (decoded seen ++ chars), rest) := by
  induction h with
  | nil =>
    intro seen rest _
    have hread : readText seen ('"' :: rest) = some (ofCodes seen, rest) := rfl
    rw [List.nil_append, hread, ofCodes_eq, List.append_nil]
  | @plain c more text hcontrol hquote hslash h ih =>
    intro seen rest _
    have hread := ih (c.toNat :: seen) rest (isFree_cons (not_isHigh_toNat c) _ _)
    rw [decoded_cons, charOf_toNat, List.append_assoc] at hread
    rw [List.cons_append, readText_plain hcontrol hquote hslash]
    exact hread
  | @short letter c more text hletter h ih =>
    intro seen rest _
    have hread := ih (c.toNat :: seen) rest (isFree_cons (not_isHigh_toNat c) _ _)
    rw [decoded_cons, charOf_toNat, List.append_assoc] at hread
    rw [List.cons_append, List.cons_append, readText_short hletter]
    exact hread
  | @unit escape more text unit hescape hhigh hlow h ih =>
    intro seen rest hfree
    have hread := ih (unit :: seen) rest (isFree_cons hhigh _ _)
    rw [decoded_cons, charOf_of_not_surrogate hhigh hlow, List.append_assoc] at hread
    rw [List.append_assoc, readText_escape hescape, joinUnit_of_isFree hescape hfree]
    exact hread
  | @pair first second more text high low hfirst hsecond hhigh hlow h ih =>
    intro seen rest hfree
    obtain ⟨hhighLow, hhighHigh⟩ := hhigh
    obtain ⟨hlowLow, hlowHigh⟩ := hlow
    have hcode : ¬IsHigh (0x10000 + (high - 0xd800) * 0x400 + (low - 0xdc00)) := by
      rintro ⟨hless, hmore⟩
      omega
    have hcode' : ¬IsLow (0x10000 + (high - 0xd800) * 0x400 + (low - 0xdc00)) := by
      rintro ⟨hless, hmore⟩
      omega
    have hread := ih _ rest (isFree_cons hcode seen more)
    rw [decoded_cons, charOf_of_not_surrogate hcode hcode', List.append_assoc] at hread
    rw [List.append_assoc, List.append_assoc, readText_escape hfirst,
      joinUnit_of_isFree hfirst hfree, readText_escape hsecond,
      joinUnit_pair ⟨hhighLow, hhighHigh⟩ ⟨hlowLow, hlowHigh⟩]
    exact hread
  | @lone escape more text unit hescape hsurrogate hlone h ih =>
    intro seen rest hfree
    have hnext : IsFree (unit :: seen) more := by
      rintro high hhead hhigh ⟨second, tail, low, hsecond, hlow, htail⟩
      cases hhead
      exact hlone hhigh second tail low hsecond hlow htail
    have hread := ih (unit :: seen) rest hnext
    have hchar : charOf unit = Char.ofNat 0xfffd := by
      unfold IsHigh IsLow at hsurrogate
      exact if_pos (by omega)
    rw [decoded_cons, hchar, List.append_assoc] at hread
    rw [List.append_assoc, readText_escape hescape, joinUnit_of_isFree hescape hfree]
    exact hread

/-! Numbers -/

theorem isNumberChar_of_isDigit {c : Char} (h : c.isDigit = true) : isNumberChar c = true := by
  obtain ⟨hlow, hhigh⟩ := Text.range_of_isDigit h
  simp [isNumberChar, hlow, hhigh]

theorem ofDigits_values {digits : List Char} (h : ∀ c ∈ digits, c.isDigit = true) :
    ofDigits (values digits) = natural digits :=
  foldl_values h 0

theorem IsFraction.isDigit {fraction digits : List Char} (h : IsFraction fraction digits) :
    ∀ c ∈ digits, c.isDigit = true := by
  cases h with
  | absent => exact List.forall_mem_nil _
  | point h => exact h.2

theorem IsFraction.isNumberChar {fraction digits : List Char} (h : IsFraction fraction digits) :
    ∀ c ∈ fraction, isNumberChar c = true := by
  cases h with
  | absent => exact List.forall_mem_nil _
  | point h => exact List.forall_mem_cons.mpr ⟨rfl, fun c hc => isNumberChar_of_isDigit (h.2 c hc)⟩

theorem isNumberChar_of_mark {mark : Char} (h : mark = 'e' ∨ mark = 'E') :
    isNumberChar mark = true := by
  rcases h with rfl | rfl
  · rfl
  · rfl

theorem IsExponent.isNumberChar {scale : List Char} {exponent : ℤ} (h : IsExponent scale exponent) :
    ∀ c ∈ scale, isNumberChar c = true := by
  cases h with
  | absent => exact List.forall_mem_nil _
  | unsigned hmark h =>
    exact List.forall_mem_cons.mpr
      ⟨isNumberChar_of_mark hmark, fun c hc => isNumberChar_of_isDigit (h.2 c hc)⟩
  | plus hmark h | minus hmark h =>
    exact List.forall_mem_cons.mpr ⟨isNumberChar_of_mark hmark,
      List.forall_mem_cons.mpr ⟨rfl, fun c hc => isNumberChar_of_isDigit (h.2 c hc)⟩⟩

theorem isNumberChar_of_isNumber {text : List Char} {v : Json} (h : IsNumber text v) :
    ∀ c ∈ text, isNumberChar c = true := by
  have hsign (negative : Bool) : ∀ c ∈ sign negative, isNumberChar c = true := by
    cases negative with
    | true => exact List.forall_mem_singleton.mpr rfl
    | false => exact List.forall_mem_nil _
  cases h with
  | int negative hwhole =>
    exact List.forall_mem_append.mpr
      ⟨hsign negative, fun c hc => isNumberChar_of_isDigit (hwhole.digits.2 c hc)⟩
  | real negative hwhole hfraction hscale hmore =>
    exact List.forall_mem_append.mpr ⟨hsign negative, List.forall_mem_append.mpr
      ⟨fun c hc => isNumberChar_of_isDigit (hwhole.digits.2 c hc),
        List.forall_mem_append.mpr ⟨hfraction.isNumberChar, hscale.isNumberChar⟩⟩⟩

theorem goesOn_mark {mark : Char} (h : mark = 'e' ∨ mark = 'E') (more : List Char) :
    goesOn (mark :: more) = false := by
  rw [goesOn, List.head?_cons, Option.any_some]
  rcases h with rfl | rfl
  · decide
  · decide

theorem IsExponent.not_goesOn {scale : List Char} {exponent : ℤ} (h : IsExponent scale exponent) :
    goesOn scale = false := by
  cases h with
  | absent => rfl
  | unsigned hmark _ | plus hmark _ | minus hmark _ => exact goesOn_mark hmark _

theorem exponent?_mark {mark : Char} (hmark : mark = 'e' ∨ mark = 'E') {rest digits : List Char}
    {negative : Bool} (hsign : takeSign rest = (negative, digits)) (h : IsDigits digits) :
    exponent? (mark :: rest) = some (if negative then -(natural digits : ℤ) else natural digits) := by
  have hletter : (mark == 'e' || mark == 'E') = true := by simpa using hmark
  have hrun := takeDigits_of_hasPlace (isSome_of_isDigit h.2)
  have hne := values_ne_nil (isSome_of_isDigit h.2) h.1
  have hvalue := ofDigits_values h.2
  unfold exponent?
  dsimp only
  rw [if_pos hletter, hsign]
  dsimp only
  rw [hrun, ← hvalue]
  cases hvalues : values digits with
  | nil => exact absurd hvalues hne
  | cons d rest => rfl

theorem takeSign_of_isDigits {digits : List Char} (h : IsDigits digits) :
    takeSign digits = (false, digits) := by
  have hsign := takeSign_signText false [] (isSome_of_isDigit h.2) h.1
  rwa [List.append_nil] at hsign

theorem exponent?_of_isExponent {scale : List Char} {exponent : ℤ} (h : IsExponent scale exponent) :
    exponent? scale = some exponent := by
  cases h with
  | absent => rfl
  | unsigned hmark h => exact exponent?_mark hmark (takeSign_of_isDigits h) h
  | @plus _ digits hmark h =>
    have hsign : takeSign ('+' :: digits) = (false, digits) := rfl
    exact exponent?_mark hmark hsign h
  | @minus _ digits hmark h =>
    have hsign : takeSign ('-' :: digits) = (true, digits) := rfl
    exact exponent?_mark hmark hsign h

/-- The digits behind a point, if there is one, and what follows them. -/
def fractionRun : List Char → List ℕ × List Char
  | '.' :: more => takeDigits more
  | rest => ([], rest)

theorem decimal?_eq (text : List Char) : decimal? text =
    if (takeDigits (takeSign text).2).1.isEmpty &&
        (fractionRun (takeDigits (takeSign text).2).2).1.isEmpty then none
    else (exponent? (fractionRun (takeDigits (takeSign text).2).2).2).map fun exponent =>
      ⟨(takeSign text).1,
        ofDigits ((takeDigits (takeSign text).2).1 ++ (fractionRun (takeDigits (takeSign text).2).2).1),
        exponent - (fractionRun (takeDigits (takeSign text).2).2).1.length⟩ := by
  unfold decimal?
  split
  next negative rest hsign =>
    rw [hsign]
    split
    next whole rest hwhole =>
      rw [hwhole]
      dsimp only
      unfold fractionRun
      rcases rest with _ | ⟨c, more⟩
      · rfl
      · by_cases hpoint : c = '.'
        · subst hpoint
          rfl
        · simp [hpoint]

theorem fractionRun_of_isFraction {fraction digits scale : List Char} {exponent : ℤ}
    (hfraction : IsFraction fraction digits) (hscale : IsExponent scale exponent) :
    fractionRun (fraction ++ scale) = (values digits, scale) := by
  cases hfraction with
  | absent =>
    -- an exponent does not begin with a point
    cases hscale with
    | absent => rfl
    | unsigned hmark _ | plus hmark _ | minus hmark _ => rcases hmark with rfl | rfl <;> rfl
  | point h => exact takeDigits_append (isSome_of_isDigit h.2) hscale.not_goesOn

theorem decimal?_of_parts (negative : Bool) {whole fraction digits scale : List Char} {exponent : ℤ}
    (hwhole : IsDigits whole) (hfraction : IsFraction fraction digits)
    (hscale : IsExponent scale exponent) :
    decimal? (sign negative ++ (whole ++ (fraction ++ scale))) =
      some ⟨negative, natural (whole ++ digits), exponent - digits.length⟩ := by
  have hwhole' := isSome_of_isDigit hwhole.2
  have hdigits := isSome_of_isDigit hfraction.isDigit
  have hsign := takeSign_signText negative (fraction ++ scale) hwhole' hwhole.1
  have hvalue : ofDigits (values whole ++ values digits) = natural (whole ++ digits) := by
    rw [← values_append]
    exact ofDigits_values (List.forall_mem_append.mpr ⟨hwhole.2, hfraction.isDigit⟩)
  have hne := values_ne_nil hwhole' hwhole.1
  have hlength := length_values hdigits
  have hexponent := exponent?_of_isExponent hscale
  have hrun : takeDigits (whole ++ (fraction ++ scale)) = (values whole, fraction ++ scale) := by
    apply takeDigits_append hwhole'
    cases hfraction with
    | absent => exact hscale.not_goesOn
    | point h =>
      rw [List.cons_append, goesOn, List.head?_cons]
      decide
  have hsigned : takeSign (sign negative ++ (whole ++ (fraction ++ scale))) =
      (negative, whole ++ (fraction ++ scale)) := hsign
  rw [decimal?_eq, hsigned]
  dsimp only
  rw [hrun]
  dsimp only
  rw [fractionRun_of_isFraction hfraction hscale]
  dsimp only
  rw [hexponent, hvalue, hlength, if_neg]
  · rfl
  · simp [hne]

theorem isSurround_of_isNumberChar {c : Char} (h : isNumberChar c = true) : isSurround c = false := by
  simp only [isNumberChar, Bool.or_eq_true, Bool.and_eq_true, decide_eq_true_eq, beq_iff_eq] at h
  rcases h with ((((hdigit | rfl) | rfl) | rfl) | rfl) | rfl
  · have hdigit : c.isDigit = true := by
      rw [Char.isDigit, Bool.and_eq_true, decide_eq_true_eq, decide_eq_true_eq]
      exact hdigit
    exact isSurround_of_isMark (.inl hdigit)
  all_goals decide

/-- What begins with a digit is none of the words that do not. -/
theorem isWord_eq_false_of_isDigit {words : List String} {c : Char} (hc : c.isDigit = true)
    (hwords : ∀ word ∈ words, word.toList.head?.any Char.isDigit = false) (more : List Char) :
    isWord words (c :: more) = false := by
  rw [isWord, Bool.eq_false_iff]
  intro hmem
  have hhead := hwords _ (List.contains_iff_mem.mp hmem)
  have hlower : c.toLower = c := Text.toLower_of_not_isLetter
    (Text.isLetter_of_not_alpha (by have := Text.toNat_of_isDigit hc; omega))
  rw [String.toList_ofList, List.map_cons, List.head?_cons, Option.any_some, hlower, hc] at hhead
  contradiction

theorem float?_of_parts (negative : Bool) {whole fraction digits scale : List Char} {exponent : ℤ}
    (hwhole : IsWhole whole) (hfraction : IsFraction fraction digits)
    (hscale : IsExponent scale exponent) (hmore : fraction ++ scale ≠ []) :
    float? (sign negative ++ (whole ++ (fraction ++ scale))) =
      some (Binary64.nearestDecimal negative (natural (whole ++ digits))
        (exponent - digits.length)) := by
  have hchars := isNumberChar_of_isNumber (.real negative hwhole hfraction hscale hmore)
  have hbody := body_of_not_isSurround fun c hc => isSurround_of_isNumberChar (hchars c hc)
  have hsign := takeSign_signText negative (fraction ++ scale) (isSome_of_isDigit hwhole.digits.2)
    hwhole.digits.1
  have hsigned : takeSign (sign negative ++ (whole ++ (fraction ++ scale))) =
      (negative, whole ++ (fraction ++ scale)) := hsign
  obtain ⟨hne, hdigits⟩ := hwhole.digits
  obtain ⟨d, rest, hd⟩ := List.exists_cons_of_ne_nil hne
  have hfirst : d.isDigit = true := hdigits d (hd ▸ List.mem_cons_self)
  have hinfinity : isWord ["inf", "infinity"] (whole ++ (fraction ++ scale)) = false := by
    rw [hd]
    exact isWord_eq_false_of_isDigit hfirst (by decide) _
  have hnan : isWord ["nan"] (whole ++ (fraction ++ scale)) = false := by
    rw [hd]
    exact isWord_eq_false_of_isDigit hfirst (by decide) _
  unfold float?
  rw [hbody, hsigned]
  dsimp only
  rw [hinfinity, hnan, decimal?_of_parts negative hwhole.digits hfraction hscale]
  rfl

/-- Whether a character tells a number from an integer. -/
def isPointOrMark (c : Char) : Bool := c == '.' || c == 'e' || c == 'E'

theorem isPointOrMark_of_isDigit {c : Char} (h : c.isDigit = true) : isPointOrMark c = false := by
  rw [isPointOrMark, Bool.or_eq_false_iff, Bool.or_eq_false_iff]
  exact ⟨⟨beq_false_of_ne (Text.ne_of_isDigit h rfl), beq_false_of_ne (Text.ne_of_isDigit h rfl)⟩,
    beq_false_of_ne (Text.ne_of_isDigit h rfl)⟩

theorem any_isPointOrMark_int (negative : Bool) {whole : List Char} (h : IsDigits whole) :
    (sign negative ++ whole).any isPointOrMark = false := by
  have hwhole : whole.any isPointOrMark = false := by
    rw [List.any_eq_false]
    exact fun c hc => Bool.eq_false_iff.mp (isPointOrMark_of_isDigit (h.2 c hc))
  rw [List.any_append, hwhole, Bool.or_false]
  cases negative with
  | true => rfl
  | false => rfl

theorem any_isPointOrMark_real {fraction digits scale : List Char} {exponent : ℤ}
    (hfraction : IsFraction fraction digits) (hscale : IsExponent scale exponent)
    (hmore : fraction ++ scale ≠ []) : (fraction ++ scale).any isPointOrMark = true := by
  cases hfraction with
  | point h => rfl
  | absent =>
    cases hscale with
    | absent => exact absurd rfl hmore
    | unsigned hmark _ | plus hmark _ | minus hmark _ => rcases hmark with rfl | rfl <;> rfl

theorem number?_of_isNumber {text : List Char} {v : Json} (h : IsNumber text v) :
    number? text = some v := by
  have hnumber (word : List Char) : number? word =
      if word.any isPointOrMark then (float? word).map real
      else if (takeSign word).2.isEmpty || !(takeSign word).2.all (fun c => '0' ≤ c && c ≤ '9') then
        none
      else some (int (if (takeSign word).1 then -Int.ofNat (natural (takeSign word).2)
        else Int.ofNat (natural (takeSign word).2))) := rfl
  rw [hnumber]
  cases h with
  | @int negative whole hwhole =>
    obtain ⟨hne, hdigits⟩ := hwhole.digits
    have hsign := takeSign_signText negative [] (isSome_of_isDigit hdigits) hne
    rw [List.append_nil] at hsign
    have hsigned : takeSign (sign negative ++ whole) = (negative, whole) := hsign
    have hall : whole.all (fun c => '0' ≤ c && c ≤ '9') = true := by
      rw [List.all_eq_true]
      intro c hc
      simpa using Text.range_of_isDigit (hdigits c hc)
    rw [any_isPointOrMark_int negative hwhole.digits, if_neg Bool.false_ne_true, hsigned, hall,
      if_neg]
    · rfl
    · simpa using hne
  | @real negative whole fraction digits scale exponent hwhole hfraction hscale hmore =>
    rw [List.any_append, List.any_append, any_isPointOrMark_real hfraction hscale hmore,
      Bool.or_true, Bool.or_true, if_pos rfl, float?_of_parts negative hwhole hfraction hscale hmore]
    rfl

end Bourse.Json
