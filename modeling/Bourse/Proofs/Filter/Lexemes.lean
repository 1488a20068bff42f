import Bourse.Filter.Token
import Bourse.Proofs.Lists
import Bourse.Proofs.Text.Words
import Mathlib.Tactic.SplitIfs

/-! Lexemes, the characters a token is read from. A lexeme is read from the front of a text, and
little of what stands behind it can change it: the next character, and the next word when that
character is a letter and the lexeme may be the digits in front of a name. -/
namespace Bourse.Filter

/-- The text of a token of a kind that was read from a lexeme: words are written in lower case and
the equality sign once. -/
def Kind.written (kind : Kind) (lexeme : List Char) : String :=
  match kind with
  | .identifier | .and | .or => Text.lower (String.ofList lexeme)
  | .operator => if lexeme = ['=', '='] then "=" else String.ofList lexeme
  | _ => String.ofList lexeme

/-- Whether a number begins with `c`. -/
def startsNumber (c : Char) (rest : List Char) : Bool :=
  Text.isDigit c || c == '.' || (c == '-' && rest.head?.any Text.isDigit)

theorem startsNumber_of_isLetter {c : Char} (h : Text.isLetter c = true) (rest : List Char) :
    startsNumber c rest = false := by
  have hdot : c ≠ '.' := fun hc => by simp [hc, Text.isLetter] at h
  have hminus : c ≠ '-' := fun hc => by simp [hc, Text.isLetter] at h
  simp [startsNumber, Text.isDigit_of_isLetter h, hdot, hminus]

theorem isWordChar_of_isDigit {c : Char} (h : Text.isDigit c = true) : isWordChar c = true := by
  simp [isWordChar, h]

theorem isWordChar_of_isLetter {c : Char} (h : Text.isLetter c = true) : isWordChar c = true := by
  simp [isWordChar, h]

theorem isNumberChar_of_isLetter {c : Char} (h : Text.isLetter c = true) :
    isNumberChar c = false := by
  have hpoint : c ≠ '.' := by
    rintro rfl
    exact absurd h (by decide)
  rw [isNumberChar, Text.isDigit_of_isLetter h, Bool.false_or, beq_eq_false_iff_ne]
  exact hpoint

theorem isLetter_of_isNumberChar {c : Char} (h : isNumberChar c = true) :
    Text.isLetter c = false := by
  rw [Bool.eq_false_iff]
  intro hletter
  rw [isNumberChar_of_isLetter hletter] at h
  contradiction

theorem ascii_or_digit_of_isWordChar {c : Char} (h : isWordChar c = true) :
    c.toNat < 128 ∨ Text.isDigit c = true := by
  simp only [isWordChar, Bool.or_eq_true, beq_iff_eq] at h
  rcases h with ((hletter | hdigit) | rfl) | rfl
  · have := Text.toNat_of_isLetter hletter
    omega
  · exact .inr hdigit
  · exact .inl (by decide)
  · exact .inl (by decide)

/-! The three kinds of lexemes -/

/-- The operator that `c` and the character behind it form. -/
def signOperator (c : Char) (next? : Option Char) : Lexeme :=
  if next? = some '=' then ⟨.operator, [c, '='], ['=']⟩ else ⟨.operator, [c], []⟩

/-- The lexeme that begins with `c`, which begins no number and no word. -/
def sign (c : Char) (next? : Option Char) : Except LexFault Lexeme :=
  if c == '<' || c == '>' then .ok (signOperator c next?)
  else if c == '=' then .ok { signOperator c next? with value := ['='] }
  else if c == '!' then
    if next? = some '=' then .ok (signOperator c next?) else .error .loneBang
  else if c == '(' then .ok ⟨.lparen, ['('], []⟩
  else if c == ')' then .ok ⟨.rparen, [')'], []⟩
  else .error (.stray c)

theorem operatorLexeme_eq (c : Char) (rest : List Char) :
    operatorLexeme c rest = signOperator c rest.head? := by
  unfold operatorLexeme signOperator
  split
  · rfl
  · next hrest =>
    rw [if_neg]
    intro hhead
    obtain ⟨tail, rfl⟩ := List.head?_eq_some_iff.mp hhead
    exact hrest tail rfl

/-- A number or a word is read as far as it goes; for a sign one character of lookahead decides. -/
theorem lexeme_eq (c : Char) (rest : List Char) :
    lexeme c rest = if startsNumber c rest then .ok (numberLexeme c rest)
      else if Text.isLetter c then .ok (wordLexeme c rest) else sign c rest.head? := by
  -- an exclamation mark alone is a fault, so the operator is formed only behind the check
  have hbang : (if rest.head? = some '=' then
      (.ok ⟨.operator, ['!', '='], ['=']⟩ : Except LexFault Lexeme) else .error .loneBang) =
      if rest.head? = some '=' then .ok (signOperator '!' rest.head?) else .error .loneBang := by
    split_ifs with hnext
    · rw [signOperator, if_pos hnext]
    · rfl
  unfold lexeme sign
  rw [operatorLexeme_eq, hbang]
  by_cases hc : c = '!'
  · subst hc
    rfl
  · simp only [beq_eq_false_iff_ne.mpr hc, startsNumber, Bool.false_eq_true, if_false]

theorem lexeme_of_startsNumber {c : Char} {rest : List Char} (h : startsNumber c rest = true) :
    lexeme c rest = .ok (numberLexeme c rest) :=
  if_pos h

theorem lexeme_of_isLetter {c : Char} (h : Text.isLetter c = true) (rest : List Char) :
    lexeme c rest = .ok (wordLexeme c rest) := by
  rw [lexeme_eq, startsNumber_of_isLetter h, if_neg Bool.false_ne_true, if_pos h]

theorem sign_ok {c : Char} {next? : Option Char} {found : Lexeme} (h : sign c next? = .ok found) :
    found.kind ≠ .eof ∧ String.ofList found.value = found.kind.written (c :: found.tail) ∧
      (found.tail = [] ∧ sign c none = .ok found ∨ found.tail = ['='] ∧ next? = some '=') := by
  -- a doubled equality sign is the one operator that is not written as it stands
  have hangle : c = '<' ∨ c = '>' → c ≠ '=' := by
    rintro (rfl | rfl) <;> decide
  unfold sign signOperator at h
  split_ifs at h <;> cases h <;> simp_all [Kind.written, sign, signOperator]

/-- Behind a sign only an equality sign matters. -/
theorem sign_of_ne {next? : Option Char} (h : next? ≠ some '=') (c : Char) :
    sign c next? = sign c none := by
  have hnone : (none : Option Char) ≠ some '=' := nofun
  unfold sign signOperator
  rw [if_neg h, if_neg h, if_neg hnone, if_neg hnone]

/-- A character that begins no lexeme is no letter, and only the next one could have helped. -/
theorem lexeme_error {c : Char} {rest : List Char} {fault : LexFault}
    (h : lexeme c rest = .error fault) : Text.isLetter c = false ∧
      ∀ other : List Char, other.head? = rest.head? → lexeme c other = .error fault := by
  rw [lexeme_eq] at h
  split_ifs at h with hnumber hletter
  refine ⟨by simpa using hletter, fun other hother => ?_⟩
  -- a minus sign looks at the next character to begin a number
  have hnumber' : ¬startsNumber c other = true := by
    rwa [startsNumber, hother]
  rw [lexeme_eq, if_neg hnumber', if_neg hletter, hother, h]

/-! Words and numbers -/

theorem wordKind_written (word lexeme : List Char) :
    (wordKind word).written lexeme = Text.lower (String.ofList lexeme) ∧ wordKind word ≠ .eof := by
  unfold wordKind
  split_ifs <;> exact ⟨rfl, by decide⟩

theorem wordLexeme_ok {c : Char} (hc : isWordChar c = true) (rest : List Char) :
    (wordLexeme c rest).kind ≠ .eof ∧ String.ofList (wordLexeme c rest).value =
      (wordLexeme c rest).kind.written (c :: (wordLexeme c rest).tail) := by
  obtain ⟨hwritten, hkind⟩ := wordKind_written ((c :: rest.takeWhile isWordChar).map Char.toLower)
    (c :: rest.takeWhile isWordChar)
  refine ⟨hkind, ?_⟩
  -- characters are put in lower case one by one, which agrees with the word as a whole
  have hascii : ∀ d ∈ c :: rest.takeWhile isWordChar, d.toNat < 128 ∨ Text.isDigit d = true := by
    intro d hd
    rcases List.mem_cons.mp hd with rfl | hd
    · exact ascii_or_digit_of_isWordChar hc
    · exact ascii_or_digit_of_isWordChar (List.all_eq_true.mp List.all_takeWhile d hd)
  exact (Text.lower_of_ascii_or_digit hascii).symm.trans hwritten.symm

/-- Whether the digits at the front of a text belong to the name that goes on behind them. -/
def leadsName (c : Char) (rest : List Char) : Bool :=
  (c :: rest.takeWhile isNumberChar).all Text.isDigit &&
    (rest.dropWhile isNumberChar).head?.any Text.isLetter && isDigitLedName (wordLexeme c rest).value

/-- Digits and points alone lead no name, since no letter is left that one could go on with. -/
theorem leadsName_of_number {c : Char} {tail : List Char} (h : ∀ d ∈ tail, isNumberChar d = true) :
    leadsName c tail = false := by
  rw [leadsName, List.dropWhile_eq_nil_iff.mpr h, List.head?_nil, Option.any_none, Bool.and_false,
    Bool.false_and]

theorem numberLexeme_eq (c : Char) (rest : List Char) :
    numberLexeme c rest = if leadsName c rest then wordLexeme c rest
      else ⟨.number, c :: rest.takeWhile isNumberChar, rest.takeWhile isNumberChar⟩ := by
  rw [leadsName, ← drop_length_takeWhile]
  rfl

theorem numberLexeme_ok {c : Char} (rest : List Char) :
    (numberLexeme c rest).kind ≠ .eof ∧ String.ofList (numberLexeme c rest).value =
      (numberLexeme c rest).kind.written (c :: (numberLexeme c rest).tail) := by
  rw [numberLexeme_eq]
  split_ifs with hname
  · rw [leadsName, List.all_cons, Bool.and_eq_true, Bool.and_eq_true, Bool.and_eq_true] at hname
    exact wordLexeme_ok (isWordChar_of_isDigit hname.1.1.1) rest
  · exact ⟨nofun, rfl⟩

/-- Each lexeme is spelled out in its token, and it is no end of the text. -/
theorem lexeme_written {c : Char} {rest : List Char} {found : Lexeme}
    (h : lexeme c rest = .ok found) :
    found.kind ≠ .eof ∧ String.ofList found.value = found.kind.written (c :: found.tail) := by
  rw [lexeme_eq] at h
  split_ifs at h with hnumber hletter
  · cases h
    exact numberLexeme_ok rest
  · cases h
    exact wordLexeme_ok (isWordChar_of_isLetter hletter) rest
  · obtain ⟨hkind, hvalue, -⟩ := sign_ok h
    exact ⟨hkind, hvalue⟩

/-- A lexeme stands at the front of its text. -/
theorem lexeme_tail {c : Char} {rest : List Char} {found : Lexeme} (h : lexeme c rest = .ok found) :
    found.tail ++ rest.drop found.tail.length = rest := by
  refine List.prefix_iff_eq_append.mp ?_
  rw [lexeme_eq] at h
  split_ifs at h with hnumber hletter
  · cases h
    rw [numberLexeme_eq]
    split_ifs
    · exact List.takeWhile_prefix isWordChar
    · exact List.takeWhile_prefix isNumberChar
  · cases h
    exact List.takeWhile_prefix isWordChar
  · obtain ⟨-, -, ⟨htail, -⟩ | ⟨htail, hnext⟩⟩ := sign_ok h
    · rw [htail]
      exact List.nil_prefix
    · obtain ⟨more, rfl⟩ := List.head?_eq_some_iff.mp hnext
      rw [htail]
      exact ⟨more, rfl⟩

/-! What stands behind a lexeme -/

/-- The word at the front decides whether its digits lead a name. -/
theorem leadsName_append (c : Char) {word text : List Char}
    (h : (word ++ text).takeWhile isWordChar = word) :
    leadsName c (word ++ text) = leadsName c word := by
  obtain ⟨hword, htext⟩ := takeWhile_append_eq_left.mp h
  have hvalue : (wordLexeme c (word ++ text)).value = (wordLexeme c word).value := by
    have hself : word.takeWhile isWordChar = word := List.takeWhile_eq_self_iff.mpr hword
    rw [wordLexeme, wordLexeme, h, hself]
  unfold leadsName
  rw [hvalue]
  by_cases hdigits : ∀ d ∈ word, isNumberChar d = true
  · -- the digits fill the word, so no letter of it is left that a name could go on with
    have hdrop : word.dropWhile isNumberChar = [] := List.dropWhile_eq_nil_iff.mpr hdigits
    rw [List.takeWhile_append_of_pos hdigits, List.dropWhile_append_of_pos hdigits, hdrop]
    cases text with
    | nil => simp
    | cons d more =>
      have hd : isWordChar d = false := htext
      simp only [isWordChar, Bool.or_eq_false_iff] at hd
      cases hnumber : isNumberChar d <;> simp [hnumber, hd]
  · -- the digits end inside the word, before the text behind it is reached
    have hdrop : word.dropWhile isNumberChar ≠ [] := fun h =>
      hdigits (List.dropWhile_eq_nil_iff.mp h)
    have htake : (word.takeWhile isNumberChar).length ≠ word.length := fun hlength =>
      hdigits (List.takeWhile_eq_self_iff.mp
        ((List.takeWhile_prefix isNumberChar).eq_of_length hlength))
    obtain ⟨d, more, hcons⟩ := List.exists_cons_of_ne_nil hdrop
    rw [List.takeWhile_append, if_neg htake, List.dropWhile_append, hcons]
    rfl

theorem leadsName_takeWhile (c : Char) (text : List Char) :
    leadsName c text = leadsName c (text.takeWhile isWordChar) := by
  have hsplit : text.takeWhile isWordChar ++ text.dropWhile isWordChar = text :=
    List.takeWhile_append_dropWhile
  have hword := leadsName_append c (congrArg (List.takeWhile isWordChar) hsplit)
  rwa [hsplit] at hword

theorem isWordChar_of_isBlank {c : Char} (h : Text.isBlank c = true) : isWordChar c = false := by
  by_contra hword
  rw [Bool.not_eq_false, isWordChar, Bool.or_eq_true, Bool.or_eq_true, Bool.or_eq_true] at hword
  rcases hword with ((hletter | hdigit) | hmark) | hmark
  · rw [Text.isBlank_of_isLetter hletter] at h
    contradiction
  · rw [Text.isBlank_of_isDigit hdigit] at h
    contradiction
  · rw [beq_iff_eq.mp hmark, Text.isBlank_of_mark (by decide) (by decide)] at h
    contradiction
  · rw [beq_iff_eq.mp hmark, Text.isBlank_of_mark (by decide) (by decide)] at h
    contradiction

theorem isNumberChar_of_isBlank {c : Char} (h : Text.isBlank c = true) :
    isNumberChar c = false := by
  by_contra hnumber
  rw [Bool.not_eq_false, isNumberChar, Bool.or_eq_true] at hnumber
  rcases hnumber with hdigit | hpoint
  · rw [Text.isBlank_of_isDigit hdigit] at h
    contradiction
  · rw [beq_iff_eq.mp hpoint, Text.isBlank_of_mark (by decide) (by decide)] at h
    contradiction

/-- One text may stand in the place of another without a change to any lexeme in front of it: it is
empty, begins with a blank or begins with the same character, and if that is a letter, with the same
word. -/
structure SameFront (text other : List Char) : Prop where
  head : (∀ c ∈ other.head?, Text.isBlank c = true) ∨ other.head? = text.head?
  word : text.head?.any Text.isLetter → other.takeWhile isWordChar = text.takeWhile isWordChar

theorem SameFront.head_of {text other : List Char} (h : SameFront text other) {p : Char → Bool}
    (hp : ∀ c, Text.isBlank c = true → p c = false) (hother : other.head?.any p = true) :
    other.head? = text.head? := by
  refine h.head.resolve_left fun hblank => ?_
  obtain ⟨c, hc, hpc⟩ := (Option.any_eq_true _ _).mp hother
  rw [hp c (hblank c hc)] at hpc
  exact Bool.false_ne_true hpc

theorem SameFront.any_head {text other : List Char} (h : SameFront text other) {p : Char → Bool}
    (hp : ∀ c, Text.isBlank c = true → p c = false) (htext : text.head?.any p = false) :
    other.head?.any p = false := by
  by_contra hother
  rw [Bool.not_eq_false] at hother
  rw [h.head_of hp hother, htext] at hother
  exact Bool.false_ne_true hother

/-- Whatever was read up to its first foreign character is read alike in front of another text, as
long as blanks are foreign to it. -/
theorem SameFront.takeWhile_append {text other : List Char} (h : SameFront text other)
    {p : Char → Bool} (hp : ∀ c, Text.isBlank c = true → p c = false) {front : List Char}
    (hfront : (front ++ text).takeWhile p = front) : (front ++ other).takeWhile p = front := by
  obtain ⟨hall, htext⟩ := takeWhile_append_eq_left.mp hfront
  exact takeWhile_append_eq_left.mpr ⟨hall, h.any_head hp htext⟩

/-- A text that begins with a blank, or an empty one, may stand in the place of any text that does
not begin with a letter. -/
theorem sameFront_of_isBlank {text other : List Char}
    (hother : ∀ c ∈ other.head?, Text.isBlank c = true)
    (htext : text.head?.any Text.isLetter = false) : SameFront text other := by
  refine ⟨.inl hother, fun hletter => ?_⟩
  rw [htext] at hletter
  exact absurd hletter Bool.false_ne_true

theorem SameFront.wordLexeme_append {text other : List Char} (h : SameFront text other) (c : Char)
    {tail : List Char} (htail : (wordLexeme c (tail ++ text)).tail = tail) :
    wordLexeme c (tail ++ other) = wordLexeme c (tail ++ text) := by
  have htext : (tail ++ text).takeWhile isWordChar = tail := htail
  rw [wordLexeme, wordLexeme, htext, h.takeWhile_append (fun _ => isWordChar_of_isBlank) htext]

theorem SameFront.leadsName_append_of_number {text other : List Char} (h : SameFront text other)
    {c : Char} {tail : List Char} (htail : (tail ++ text).takeWhile isNumberChar = tail)
    (hname : leadsName c (tail ++ text) = false) : leadsName c (tail ++ other) = false := by
  by_contra hother
  rw [Bool.not_eq_false] at hother
  have hrun := h.takeWhile_append (fun _ => isNumberChar_of_isBlank) htail
  have hdrop : (tail ++ other).dropWhile isNumberChar = other := by
    have hsplit := List.takeWhile_append_dropWhile (p := isNumberChar) (l := tail ++ other)
    rwa [hrun, List.append_cancel_left_eq] at hsplit
  have hdigits := hother
  simp only [leadsName, hrun, hdrop, List.all_cons, Bool.and_eq_true] at hdigits
  obtain ⟨⟨⟨-, hdigits⟩, hletter⟩, -⟩ := hdigits
  have htailWord : ∀ d ∈ tail, isWordChar d = true := fun d hd =>
    isWordChar_of_isDigit (List.all_eq_true.mp hdigits d hd)
  -- the letter behind the digits begins the same word in both texts
  have hword : (tail ++ other).takeWhile isWordChar = (tail ++ text).takeWhile isWordChar := by
    rw [List.takeWhile_append_of_pos htailWord, List.takeWhile_append_of_pos htailWord,
      h.word (h.head_of (fun _ => Text.isLetter_of_isBlank) hletter ▸ hletter)]
  rw [leadsName_takeWhile, hword, ← leadsName_takeWhile, hname] at hother
  exact Bool.false_ne_true hother

theorem SameFront.numberLexeme_append {text other : List Char} (h : SameFront text other) (c : Char)
    {tail : List Char} (htail : (numberLexeme c (tail ++ text)).tail = tail) :
    numberLexeme c (tail ++ other) = numberLexeme c (tail ++ text) := by
  rw [numberLexeme_eq] at htail
  rw [numberLexeme_eq, numberLexeme_eq]
  cases hname : leadsName c (tail ++ text) with
  | true =>
    rw [hname, if_pos rfl] at htail
    -- a name fills the whole lexeme, so it leads a name in front of the other text too
    have hother : leadsName c (tail ++ other) = true := by
      have hword := h.takeWhile_append (fun _ => isWordChar_of_isBlank) htail
      rw [leadsName_append c hword, ← leadsName_append c htail, hname]
    rw [if_pos hother, if_pos rfl, h.wordLexeme_append c htail]
  | false =>
    rw [hname, if_neg Bool.false_ne_true] at htail
    have htext : (tail ++ text).takeWhile isNumberChar = tail := htail
    rw [h.leadsName_append_of_number htext hname, if_neg Bool.false_ne_true,
      if_neg Bool.false_ne_true, h.takeWhile_append (fun _ => isNumberChar_of_isBlank) htext, htext]

theorem startsNumber_append {c : Char} {tail text : List Char}
    (htail : (numberLexeme c (tail ++ text)).tail = tail)
    (hnumber : startsNumber c (tail ++ text) = true) (other : List Char) :
    startsNumber c (tail ++ other) = true := by
  cases tail with
  | cons d tail => exact hnumber
  | nil =>
    simp only [startsNumber, Bool.or_eq_true, Bool.and_eq_true, beq_iff_eq, List.nil_append] at *
    refine hnumber.imp_right fun hminus => ?_
    -- a minus sign takes the digit behind it, so it has no empty tail
    obtain ⟨rfl, hdigit⟩ := hminus
    have hname : leadsName '-' text = false := by
      have hminus : Text.isDigit '-' = false := by decide +kernel
      rw [leadsName, List.all_cons, hminus]
      rfl
    rw [numberLexeme_eq, hname] at htail
    have hhead := takeWhile_eq_nil_iff_head?.mp htail
    obtain ⟨d, hd, hdigit⟩ := (Option.any_eq_true _ _).mp hdigit
    rw [hd] at hhead
    simp [isNumberChar, hdigit] at hhead

theorem SameFront.startsNumber {text other : List Char} (h : SameFront text other) {c : Char}
    (hother : startsNumber c other = true) : startsNumber c text = true := by
  simp only [Filter.startsNumber, Bool.or_eq_true, Bool.and_eq_true, beq_iff_eq] at hother ⊢
  refine hother.imp_right fun ⟨hminus, hdigit⟩ => ⟨hminus, ?_⟩
  exact h.head_of (fun _ => Text.isDigit_of_isBlank) hdigit ▸ hdigit

/-- A lexeme is the same in front of another text that may stand in the place of the one behind
it. -/
theorem SameFront.lexeme_append {text other : List Char} (h : SameFront text other) {c : Char}
    {found : Lexeme} (hfound : lexeme c (found.tail ++ text) = .ok found) :
    lexeme c (found.tail ++ other) = .ok found := by
  rw [lexeme_eq] at hfound
  split_ifs at hfound with hnumber hletter
  · -- a number, or the name that its digits lead
    have hlexeme := Except.ok.inj hfound
    have htail := congrArg Lexeme.tail hlexeme
    rw [lexeme_of_startsNumber (startsNumber_append htail hnumber other),
      h.numberLexeme_append c htail, hlexeme]
  · -- a word
    have hlexeme := Except.ok.inj hfound
    rw [lexeme_of_isLetter hletter, h.wordLexeme_append c (congrArg Lexeme.tail hlexeme), hlexeme]
  · obtain ⟨-, -, ⟨htail, hnone⟩ | ⟨htail, -⟩⟩ := sign_ok hfound
    · -- a sign of one character is formed with the next one or with none behind it
      rw [htail, List.nil_append] at hnumber hfound ⊢
      rw [lexeme_eq, if_neg (mt h.startsNumber hnumber), if_neg hletter]
      rcases h.head with hblank | hhead
      · have hnext : other.head? ≠ some '=' := by
          intro hequals
          have hmark := hblank '=' hequals
          rw [Text.isBlank_of_mark (by decide) (by decide)] at hmark
          contradiction
        rw [sign_of_ne hnext, hnone]
      · rw [hhead, hfound]
    · -- a sign of two characters holds all that it looks at
      rw [htail] at hnumber hfound ⊢
      rw [lexeme_eq, if_neg hletter]
      exact (if_neg hnumber).trans hfound

end Bourse.Filter
