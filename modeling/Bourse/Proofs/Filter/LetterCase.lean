import Bourse.Filter.Parser
import Bourse.Proofs.Filter.Lexemes

/-! The case of letters does not matter. Readers of tokens ask for classes of characters that hold a
letter in both cases or in neither, and a word is put in lower case before anything is made of it.
So a text and the same text in lower case have the same tokens at the same places. -/
namespace Bourse.Filter

/-! Classes of characters -/

theorem isBlank_comp_toLower : Text.isBlank ∘ Char.toLower = Text.isBlank := by
  apply Text.comp_toLower
  intro c d hc hd
  rw [Text.isBlank_of_isLetter hc, Text.isBlank_of_isLetter hd]

theorem isWordChar_comp_toLower : isWordChar ∘ Char.toLower = isWordChar := by
  apply Text.comp_toLower
  intro c d hc hd
  rw [isWordChar_of_isLetter hc, isWordChar_of_isLetter hd]

theorem isNumberChar_comp_toLower : isNumberChar ∘ Char.toLower = isNumberChar := by
  apply Text.comp_toLower
  intro c d hc hd
  rw [isNumberChar_of_isLetter hc, isNumberChar_of_isLetter hd]

theorem isDigit_comp_toLower : Text.isDigit ∘ Char.toLower = Text.isDigit := by
  apply Text.comp_toLower
  intro c d hc hd
  rw [Text.isDigit_of_isLetter hc, Text.isDigit_of_isLetter hd]

theorem isLetter_comp_toLower : Text.isLetter ∘ Char.toLower = Text.isLetter := by
  apply Text.comp_toLower
  intro c d hc hd
  rw [hc, hd]

theorem any_map_toLower {p : Char → Bool} (hp : p ∘ Char.toLower = p) (next? : Option Char) :
    (next?.map Char.toLower).any p = next?.any p := by
  rw [Option.any_map]
  exact congrArg (next?.any ·) hp

theorem map_toLower_map_toLower (word : List Char) :
    (word.map Char.toLower).map Char.toLower = word.map Char.toLower := by
  rw [List.map_map]
  exact List.map_congr_left fun c _ => Text.toLower_toLower c

/-! Marks -/

theorem toLower_eq_mark_iff {c mark : Char} (hmark : Text.isLetter mark = false) :
    c.toLower = mark ↔ c = mark := by
  constructor
  · intro h
    cases hc : Text.isLetter c with
    | true =>
      -- a letter stays a letter, and the mark is none
      have hlower := (Text.toLower_of_isLetter hc).1
      rw [h, hmark] at hlower
      contradiction
    | false => rwa [Text.toLower_of_not_isLetter hc] at h
  · intro h
    rw [h, Text.toLower_of_not_isLetter hmark]

theorem map_toLower_eq_mark_iff {next? : Option Char} {mark : Char}
    (hmark : Text.isLetter mark = false) :
    next?.map Char.toLower = some mark ↔ next? = some mark := by
  cases next? with
  | none => exact iff_of_false nofun nofun
  | some c => rw [Option.map_some, Option.some_inj, Option.some_inj, toLower_eq_mark_iff hmark]

theorem isLetter_of_startsNumber {c : Char} {rest : List Char} (h : startsNumber c rest = true) :
    Text.isLetter c = false := by
  by_contra hletter
  rw [Bool.not_eq_false] at hletter
  rw [startsNumber_of_isLetter hletter] at h
  exact Bool.false_ne_true h

theorem startsNumber_toLower (c : Char) (rest : List Char) :
    startsNumber c.toLower (rest.map Char.toLower) = startsNumber c rest := by
  cases hc : Text.isLetter c with
  | true =>
    have hlower := (Text.toLower_of_isLetter hc).1
    rw [startsNumber_of_isLetter hlower, startsNumber_of_isLetter hc]
  | false =>
    rw [Text.toLower_of_not_isLetter hc, startsNumber, List.head?_map,
      any_map_toLower isDigit_comp_toLower, startsNumber]

/-! Lexemes -/

/-- A lexeme that was read from the same characters in lower case. -/
def Lexeme.lowered (found : Lexeme) : Lexeme :=
  { found with tail := found.tail.map Char.toLower }

theorem wordLexeme_toLower (c : Char) (rest : List Char) :
    wordLexeme c.toLower (rest.map Char.toLower) = (wordLexeme c rest).lowered := by
  have hword := map_toLower_map_toLower (c :: rest.takeWhile isWordChar)
  rw [List.map_cons] at hword
  rw [wordLexeme, wordLexeme, List.takeWhile_map, isWordChar_comp_toLower, hword]
  rfl

theorem leadsName_toLower (c : Char) (rest : List Char) :
    leadsName c.toLower (rest.map Char.toLower) = leadsName c rest := by
  rw [leadsName, leadsName, List.takeWhile_map, List.dropWhile_map, isNumberChar_comp_toLower,
    ← List.map_cons, List.all_map, isDigit_comp_toLower, List.head?_map,
    any_map_toLower isLetter_comp_toLower, wordLexeme_toLower]
  rfl

theorem map_toLower_of_number {text : List Char} (h : ∀ c ∈ text, isNumberChar c = true) :
    text.map Char.toLower = text := by
  have hkeep : text.map Char.toLower = text.map id := by
    apply List.map_congr_left
    intro c hc
    exact Text.toLower_of_not_isLetter (isLetter_of_isNumberChar (h c hc))
  rw [hkeep, List.map_id]

theorem numberLexeme_toLower {c : Char} (hc : Text.isLetter c = false) (rest : List Char) :
    numberLexeme c.toLower (rest.map Char.toLower) = (numberLexeme c rest).lowered := by
  have hdigits : (rest.takeWhile isNumberChar).map Char.toLower = rest.takeWhile isNumberChar := by
    apply map_toLower_of_number
    exact List.all_eq_true.mp List.all_takeWhile
  rw [numberLexeme_eq, numberLexeme_eq, leadsName_toLower]
  by_cases hname : leadsName c rest = true
  · rw [if_pos hname, if_pos hname, wordLexeme_toLower]
  · rw [if_neg hname, if_neg hname, List.takeWhile_map, isNumberChar_comp_toLower, hdigits,
      Text.toLower_of_not_isLetter hc, Lexeme.lowered, hdigits]

/-- Signs are made of marks, which have one case. -/
theorem sign_toLower (c : Char) (next? : Option Char) :
    sign c (next?.map Char.toLower) = (sign c next?).map Lexeme.lowered := by
  have hnext : (next?.map Char.toLower = some '=') ↔ next? = some '=' :=
    map_toLower_eq_mark_iff (by decide)
  unfold sign signOperator
  simp only [hnext]
  split_ifs <;> rfl

/-- Lower case goes through the reading of a lexeme: its kind and its value are the same. -/
theorem lexeme_toLower (c : Char) (rest : List Char) :
    lexeme c.toLower (rest.map Char.toLower) = (lexeme c rest).map Lexeme.lowered := by
  have hletter : Text.isLetter c.toLower = Text.isLetter c := congrFun isLetter_comp_toLower c
  rw [lexeme_eq, lexeme_eq, startsNumber_toLower, hletter]
  split_ifs with hnumber hc
  · rw [numberLexeme_toLower (isLetter_of_startsNumber hnumber)]
    rfl
  · rw [wordLexeme_toLower]
    rfl
  · rw [Text.toLower_of_not_isLetter (Bool.eq_false_iff.mpr hc), List.head?_map, sign_toLower]

/-! Texts -/

theorem scan_toLower (position : Nat) (seen : List Token) (text : List Char) :
    scan position seen (text.map Char.toLower) = scan position seen text := by
  have hblank (c : Char) : Text.isBlank c.toLower = Text.isBlank c :=
    congrFun isBlank_comp_toLower c
  fun_induction scan position seen text with
  | case1 position seen => rw [List.map_nil, scan]
  | case2 position seen c rest hc ih => rw [List.map_cons, scan, hblank, if_pos hc, ih]
  | case3 position seen c rest hc fault hfault =>
    rw [List.map_cons, scan, hblank, if_neg hc, lexeme_toLower, hfault]
    rfl
  | case4 position seen c rest hc found hfound ih =>
    -- the lexeme takes as many characters off either text
    rw [List.map_cons, scan, hblank, if_neg hc, lexeme_toLower, hfound]
    simpa only [Except.map, Lexeme.lowered, List.length_map, List.map_drop] using ih

/-- Whether two texts differ in nothing but the case of letters of ASCII. -/
def SameButCase (text other : String) : Prop :=
  text.toList.map Char.toLower = other.toList.map Char.toLower

namespace SameButCase

variable {text other : String}

theorem tokens_eq (h : SameButCase text other) : tokens text = tokens other := by
  rw [tokens, tokens, ← scan_toLower, ← scan_toLower 0 [] other.toList, h]

theorem parseText_eq (h : SameButCase text other) : parseText text = parseText other := by
  rw [parseText, parseText, h.tokens_eq]

theorem all_isBlank_eq (h : SameButCase text other) :
    text.toList.all Text.isBlank = other.toList.all Text.isBlank := by
  have hall (characters : List Char) :
      (characters.map Char.toLower).all Text.isBlank = characters.all Text.isBlank := by
    rw [List.all_map, isBlank_comp_toLower]
  rw [← hall, ← hall other.toList, h]

/-- Compiled texts have the same tree, or neither has one for the same reason. -/
theorem compile_cases (h : SameButCase text other) :
    (∃ tree, compile text = .ok ⟨text, tree⟩ ∧ compile other = .ok ⟨other, tree⟩) ∨
      ∃ fault, compile text = .error fault ∧ compile other = .error fault := by
  unfold compile
  rw [h.all_isBlank_eq, h.parseText_eq]
  split_ifs with hblank
  · exact .inl ⟨none, rfl, rfl⟩
  · cases parseText other with
    | error fault => exact .inr ⟨fault, rfl, rfl⟩
    | ok tree => exact .inl ⟨some tree, rfl, rfl⟩

theorem tree_eq (h : SameButCase text other) {f g : Filter} (hf : compile text = .ok f)
    (hg : compile other = .ok g) : f.tree = g.tree := by
  rcases h.compile_cases with ⟨tree, htext, hother⟩ | ⟨fault, htext, -⟩
  · rw [htext] at hf
    rw [hother] at hg
    cases hf
    cases hg
    rfl
  · rw [htext] at hf
    contradiction

end SameButCase

/-- Letter case is ignored. Two texts that differ in nothing but the case of letters of ASCII have
the same tokens, with their kinds, texts and positions, or the same fault at the same position. They
compile to the same tree or fail with the same error, and the filters let the same quotes pass. -/
theorem letter_case_is_ignored {text other : String} (h : SameButCase text other) :
    tokens text = tokens other ∧
    ((∃ tree, compile text = .ok ⟨text, tree⟩ ∧ compile other = .ok ⟨other, tree⟩) ∨
      ∃ fault, compile text = .error fault ∧ compile other = .error fault) ∧
    ∀ f g, compile text = .ok f → compile other = .ok g →
      (∀ quote, f.passes quote = g.passes quote) ∧ ∀ quotes, f.select quotes = g.select quotes := by
  refine ⟨h.tokens_eq, h.compile_cases, ?_⟩
  intro f g hf hg
  have hpasses : f.passes = g.passes := by
    funext quote
    rw [passes, passes, h.tree_eq hf hg]
  constructor
  · exact congrFun hpasses
  · intro quotes
    rw [select, select, hpasses]

/-- The tokens of a name that begins with digits, of a number with a word right behind it and of a
digit of another script. -/
def shoutedTokens : List Token :=
  [⟨.identifier, "52whigh", 0⟩, ⟨.operator, ">", 8⟩, ⟨.number, "1", 10⟩, ⟨.and, "and", 11⟩,
    ⟨.identifier, "pe", 15⟩, ⟨.operator, "<", 17⟩, ⟨.number, "\u0663", 18⟩, ⟨.eof, "", 19⟩]

/-- Capitals make no difference to what is read, and none to the blame for a letter outside of
ASCII, which keeps its own case. -/
theorem shouting_is_read_alike :
    (SameButCase "52WHIGH > 1AND Pe<\u0663" "52whigh > 1and pE<\u0663" ∧
      tokens "52WHIGH > 1AND Pe<\u0663" = .ok shoutedTokens ∧
      tokens "52whigh > 1and pE<\u0663" = .ok shoutedTokens) ∧
    SameButCase "PE > \u00c9" "pe > \u00c9" ∧
      compile "PE > \u00c9" = .error (.lexical (.stray '\u00c9') 5) ∧
      compile "pe > \u00c9" = .error (.lexical (.stray '\u00c9') 5) := by
  have hread : SameButCase "52WHIGH > 1AND Pe<\u0663" "52whigh > 1and pE<\u0663" := by
    unfold SameButCase
    decide +kernel
  have hfail : SameButCase "PE > \u00c9" "pe > \u00c9" := by
    unfold SameButCase
    decide +kernel
  have htokens : tokens "52WHIGH > 1AND Pe<\u0663" = .ok shoutedTokens := by decide +kernel
  have hstray : tokens "PE > \u00c9" = .error (.stray '\u00c9', 5) := by decide +kernel
  have hblank : ("PE > \u00c9".toList.all Text.isBlank) = false := by decide +kernel
  have hfault : compile "PE > \u00c9" = .error (.lexical (.stray '\u00c9') 5) := by
    unfold compile parseText
    rw [hblank, hstray]
    rfl
  refine ⟨⟨hread, htokens, ?_⟩, hfail, hfault, ?_⟩
  · rw [← (letter_case_is_ignored hread).1, htokens]
  · rcases (letter_case_is_ignored hfail).2.1 with ⟨tree, htree, -⟩ | ⟨fault, htext, hother⟩
    · rw [hfault] at htree
      contradiction
    · rw [hfault] at htext
      rw [hother, ← htext]

end Bourse.Filter
