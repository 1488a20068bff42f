import Bourse.Proofs.Filter.LetterCase
import Bourse.Proofs.Filter.Place
import Bourse.Proofs.Filter.Scanning

/-! Blanks between tokens do not matter. A lexeme that is cut out of its text is a lexeme by itself,
and so is its token's text in lower case; whatever is a lexeme by itself is read as such wherever a
blank or the end of the text stands behind it. -/
namespace Bourse.Filter

/-! Lexemes by themselves -/

theorem startsNumber_of_nil {c : Char} (h : startsNumber c [] = true) (text : List Char) :
    startsNumber c text = true := by
  rw [startsNumber, List.head?_nil, Option.any_none, Bool.and_false, Bool.or_false] at h
  rw [startsNumber, h, Bool.true_or]

theorem wordLexeme_alone {c : Char} {tail text : List Char}
    (htail : (wordLexeme c (tail ++ text)).tail = tail) :
    wordLexeme c tail = wordLexeme c (tail ++ text) := by
  have htext : (tail ++ text).takeWhile isWordChar = tail := htail
  have hself : tail.takeWhile isWordChar = tail :=
    List.takeWhile_eq_self_iff.mpr (takeWhile_append_eq_left.mp htext).1
  rw [wordLexeme, wordLexeme, htext, hself]

theorem numberLexeme_alone {c : Char} {tail text : List Char}
    (htail : (numberLexeme c (tail ++ text)).tail = tail) :
    numberLexeme c tail = numberLexeme c (tail ++ text) := by
  rw [numberLexeme_eq] at htail
  rw [numberLexeme_eq, numberLexeme_eq]
  cases hname : leadsName c (tail ++ text) with
  | true =>
    rw [hname, if_pos rfl] at htail
    have hword : (tail ++ text).takeWhile isWordChar = tail := htail
    rw [← leadsName_append c hword, hname, if_pos rfl, if_pos rfl, wordLexeme_alone htail]
  | false =>
    rw [hname, if_neg Bool.false_ne_true] at htail
    have hrun : (tail ++ text).takeWhile isNumberChar = tail := htail
    have hnumber := (takeWhile_append_eq_left.mp hrun).1
    rw [leadsName_of_number hnumber, if_neg Bool.false_ne_true, if_neg Bool.false_ne_true, hrun,
      List.takeWhile_eq_self_iff.mpr hnumber]

/-- A lexeme is the same without the text behind it. -/
theorem lexeme_alone {c : Char} {text : List Char} {found : Lexeme}
    (h : lexeme c (found.tail ++ text) = .ok found) : lexeme c found.tail = .ok found := by
  rw [lexeme_eq] at h
  split_ifs at h with hnumber hletter
  · have hlexeme := Except.ok.inj h
    have htail := congrArg Lexeme.tail hlexeme
    have hstart := startsNumber_append htail hnumber []
    rw [List.append_nil] at hstart
    rw [lexeme_of_startsNumber hstart, numberLexeme_alone htail, hlexeme]
  · have hlexeme := Except.ok.inj h
    rw [lexeme_of_isLetter hletter, wordLexeme_alone (congrArg Lexeme.tail hlexeme), hlexeme]
  · obtain ⟨-, -, ⟨htail, hnone⟩ | ⟨htail, -⟩⟩ := sign_ok h
    · rw [htail] at hnumber ⊢
      rw [lexeme_eq, if_neg (mt (startsNumber_of_nil · _) hnumber), if_neg hletter]
      exact hnone
    · -- a sign of two characters holds all that it looks at
      rw [htail] at hnumber h ⊢
      rw [lexeme_eq, if_neg hletter]
      exact (if_neg hnumber).trans h

/-! Lexemes in lower case -/

theorem value_of_wordLexeme {c : Char} {kind : Kind} {value tail : List Char}
    (h : wordLexeme c tail = ⟨kind, value, tail⟩) :
    value = c.toLower :: tail.map Char.toLower := by
  have htail : tail.takeWhile isWordChar = tail := congrArg Lexeme.tail h
  have hvalue : (c :: tail.takeWhile isWordChar).map Char.toLower = value :=
    congrArg Lexeme.value h
  rw [← hvalue, htail, List.map_cons]

/-- Only a doubled equality sign is read as another one. -/
theorem value_of_sign {c : Char} {next? : Option Char} {kind : Kind} {value tail : List Char}
    (h : sign c next? = .ok ⟨kind, value, tail⟩) :
    value = c :: tail ∨ kind = .operator ∧ value = ['='] := by
  unfold sign signOperator at h
  split_ifs at h <;> cases h <;> simp_all

/-- What a lexeme is read as is read as the same again. -/
theorem lexeme_value {c : Char} {kind : Kind} {value tail : List Char}
    (hc : Text.isBlank c = false) (h : lexeme c tail = .ok ⟨kind, value, tail⟩) :
    ∃ d more, value = d :: more ∧ Text.isBlank d = false ∧
      lexeme d more = .ok ⟨kind, value, more⟩ := by
  -- a word is read again in lower case
  have hlower : Text.isBlank c.toLower = false := (congrFun isBlank_comp_toLower c).trans hc
  have hagain : lexeme c.toLower (tail.map Char.toLower) =
      .ok ⟨kind, value, tail.map Char.toLower⟩ := by
    rw [lexeme_toLower, h]
    rfl
  have hfound := h
  rw [lexeme_eq] at hfound
  split_ifs at hfound with hnumber hletter
  · have hlexeme := Except.ok.inj hfound
    rw [numberLexeme_eq] at hlexeme
    split_ifs at hlexeme with hname
    · exact ⟨_, _, value_of_wordLexeme hlexeme, hlower, hagain⟩
    · have htail := congrArg Lexeme.tail hlexeme
      have hvalue := congrArg Lexeme.value hlexeme
      dsimp only at htail hvalue
      rw [htail] at hvalue
      exact ⟨c, tail, hvalue.symm, hc, h⟩
  · exact ⟨_, _, value_of_wordLexeme (Except.ok.inj hfound), hlower, hagain⟩
  · rcases value_of_sign hfound with hvalue | ⟨rfl, rfl⟩
    · exact ⟨c, tail, hvalue, hc, h⟩
    · exact ⟨'=', [], rfl, by decide +kernel, by decide +kernel⟩

/-- Whether some characters by themselves are one lexeme, which is read as a kind and a text. -/
inductive Alone : List Char → Kind × String → Prop
  | read {c : Char} {kind : Kind} {value tail : List Char} (hc : Text.isBlank c = false)
    (hlexeme : lexeme c tail = .ok ⟨kind, value, tail⟩) :
    Alone (c :: tail) (kind, String.ofList value)

theorem Alone.value {characters : List Char} {shape : Kind × String} (h : Alone characters shape) :
    Alone shape.2.toList shape := by
  obtain ⟨hc, hlexeme⟩ := h
  obtain ⟨d, more, rfl, hd, hvalue⟩ := lexeme_value hc hlexeme
  rw [String.toList_ofList]
  exact .read hd hvalue

theorem isBlank_of_run {p : Char → Bool} (hp : ∀ c, Text.isBlank c = true → p c = false)
    {tail : List Char} (h : tail.takeWhile p = tail) : ∀ d ∈ tail, Text.isBlank d = false := by
  intro d hd
  by_contra hblank
  rw [Bool.not_eq_false] at hblank
  have hrun := List.takeWhile_eq_self_iff.mp h d hd
  rw [hp d hblank] at hrun
  exact Bool.false_ne_true hrun

theorem isBlank_of_mem_tail {c : Char} {kind : Kind} {value tail : List Char}
    (h : lexeme c tail = .ok ⟨kind, value, tail⟩) : ∀ d ∈ tail, Text.isBlank d = false := by
  rw [lexeme_eq] at h
  split_ifs at h with hnumber hletter
  · have htail := congrArg Lexeme.tail (Except.ok.inj h)
    rw [numberLexeme_eq] at htail
    split_ifs at htail
    · exact isBlank_of_run (fun _ => isWordChar_of_isBlank) htail
    · exact isBlank_of_run (fun _ => isNumberChar_of_isBlank) htail
  · have htail := congrArg Lexeme.tail (Except.ok.inj h)
    exact isBlank_of_run (fun _ => isWordChar_of_isBlank) htail
  · obtain ⟨-, -, ⟨htail, -⟩ | ⟨htail, -⟩⟩ := sign_ok h
    · rw [show tail = [] from htail]
      exact nofun
    · rw [show tail = ['='] from htail]
      exact List.forall_mem_singleton.mpr (by decide +kernel)

/-- No blank stands inside a lexeme. -/
theorem Alone.isBlank {characters : List Char} {shape : Kind × String}
    (h : Alone characters shape) : ∀ c ∈ characters, Text.isBlank c = false := by
  obtain ⟨hc, hlexeme⟩ := h
  exact List.forall_mem_cons.mpr ⟨hc, isBlank_of_mem_tail hlexeme⟩

/-! Texts with the same lexemes -/

/-- Lexemes that stand apart in a text: in their order, any blanks in front of each, and a blank or
the end of the text behind it. -/
inductive Apart : List (List Char) → List Char → Prop
  | finish {blanks : List Char} (hblanks : ∀ c ∈ blanks, Text.isBlank c = true) : Apart [] blanks
  | lexeme {blanks lexeme text : List Char} {lexemes : List (List Char)}
    (hblanks : ∀ c ∈ blanks, Text.isBlank c = true)
    (hbehind : ∀ c ∈ text.head?, Text.isBlank c = true) (hrest : Apart lexemes text) :
    Apart (lexeme :: lexemes) (blanks ++ (lexeme ++ text))

theorem Scanned.blanks_append {blanks text front : List Char} {position : Nat}
    {tokens : List Token} (hblanks : ∀ c ∈ blanks, Text.isBlank c = true)
    (h : Scanned text (position + blanks.length) front tokens) :
    Scanned text position (blanks ++ front) tokens := by
  induction blanks generalizing position with
  | nil => exact h
  | cons c rest ih =>
    obtain ⟨hc, hrest⟩ := List.forall_mem_cons.mp hblanks
    rw [List.length_cons, Nat.add_comm rest.length, ← Nat.add_assoc] at h
    exact .blank hc (ih hrest h)

/-- Lexemes that stand apart are read one by one, each as it is read by itself. -/
theorem Apart.scanned {lexemes : List (List Char)} {text : List Char} (h : Apart lexemes text)
    {shapes : List (Kind × String)} (halone : List.Forall₂ Alone lexemes shapes) (position : Nat) :
    ∃ read, Scanned [] position text read ∧ read.map Token.shape = shapes := by
  induction h generalizing shapes position with
  | @finish blanks hblanks =>
    cases halone
    have hend : Scanned [] (position + blanks.length) [] [] := .start
    have hscanned := hend.blanks_append hblanks
    rw [List.append_nil] at hscanned
    exact ⟨[], hscanned, rfl⟩
  | @lexeme blanks characters text lexemes hblanks hbehind hrest ih =>
    cases halone with
    | cons hfirst hmore =>
      obtain @⟨c, kind, value, tail, hc, hlexeme⟩ := hfirst
      obtain ⟨read, hscanned, hshapes⟩ := ih hmore (position + blanks.length + 1 + tail.length)
      have hfront : SameFront [] (text ++ []) := by
        rw [List.append_nil]
        exact sameFront_of_isBlank hbehind rfl
      let found : Lexeme := ⟨kind, value, tail⟩
      have hself : Filter.lexeme c (found.tail ++ []) = .ok found := by
        rwa [List.append_nil]
      have hfound := hfront.lexeme_append hself
      exact ⟨_, (Scanned.lexeme hc hfound hscanned).blanks_append hblanks,
        congrArg (_ :: ·) hshapes⟩

theorem tokens_of_apart {lexemes : List (List Char)} {shapes : List (Kind × String)}
    (halone : List.Forall₂ Alone lexemes shapes) {text : String} (h : Apart lexemes text.toList) :
    ∃ found, tokens text = .ok found ∧ found.map Token.shape = shapes ++ [(.eof, "")] := by
  obtain ⟨read, hscanned, hshapes⟩ := h.scanned halone 0
  refine ⟨_, hscanned.scan_nil, ?_⟩
  rw [List.map_append, hshapes]
  rfl

/-! The lexemes of a text -/

/-- The lexemes of the tokens of a text: each reaches from the place of its token to that of the
next one, less the blanks behind it. -/
def lexemes (text : List Char) : List Token → List (List Char)
  | t :: next :: rest =>
    Text.trimRight ((text.drop t.position.toNat).take (next.position - t.position).toNat) ::
      lexemes text (next :: rest)
  | _ => []

theorem trimRight_append_blanks {characters blanks : List Char}
    (hcharacters : ∀ c ∈ characters, Text.isBlank c = false)
    (hblanks : ∀ c ∈ blanks, Text.isBlank c = true) :
    Text.trimRight (characters ++ blanks) = characters := by
  have hlast : characters.reverse.head?.any Text.isBlank = false := by
    rw [List.head?_reverse]
    by_contra hlast
    rw [Bool.not_eq_false] at hlast
    obtain ⟨c, hc, hblank⟩ := (Option.any_eq_true _ _).mp hlast
    rw [hcharacters c (List.mem_of_getLast? hc)] at hblank
    exact Bool.false_ne_true hblank
  rw [Text.trimRight, Text.trimLeft, List.reverse_append,
    List.dropWhile_append_of_pos (by simpa using hblanks), dropWhile_eq_self_of_head? hlast,
    List.reverse_reverse]

/-- The next token of a text stands behind blanks only. -/
theorem Scanned.exists_next {text front : List Char} {position : Nat} {read : List Token}
    (h : Scanned text position front read) :
    ∃ (blanks rest : List Char) (next : Token) (more : List Token), front = blanks ++ rest ∧
      (∀ c ∈ blanks, Text.isBlank c = true) ∧
      read ++ [⟨.eof, "", (position + front.length : Nat)⟩] = next :: more ∧
      next.position = (position + blanks.length : Nat) := by
  induction h with
  | start => exact ⟨[], [], _, [], rfl, nofun, rfl, rfl⟩
  | @blank position c front read hc hrest ih =>
    obtain ⟨blanks, rest, next, more, rfl, hblanks, hread, hnext⟩ := ih
    have hmove (characters : List Char) :
        position + (c :: characters).length = position + 1 + characters.length := by
      rw [List.length_cons]
      omega
    refine ⟨c :: blanks, rest, next, more, rfl, List.forall_mem_cons.mpr ⟨hc, hblanks⟩, ?_, ?_⟩
    · rw [hmove, hread]
    · rw [hmove, hnext]
  | lexeme hc hfound hrest ih => exact ⟨[], _, _, _, rfl, nofun, rfl, rfl⟩

/-- Each lexeme of a text, cut out by the places of its token and of the next one, is a lexeme by
itself. -/
theorem Scanned.alone_lexemes {front : List Char} {position : Nat} {read : List Token}
    (h : Scanned [] position front read) {before : List Char} (hbefore : before.length = position) :
    List.Forall₂ Alone
      (lexemes (before ++ front) (read ++ [⟨.eof, "", (position + front.length : Nat)⟩]))
      (read.map Token.shape) := by
  induction h generalizing before with
  | start => exact .nil
  | @blank position c front read hc hrest ih =>
    have hlonger : (before ++ [c]).length = position + 1 := by
      rw [List.length_append, hbefore, List.length_singleton]
    have halone := ih hlonger
    have hmove : position + (c :: front).length = position + 1 + front.length := by
      rw [List.length_cons]
      omega
    rwa [List.append_assoc, List.singleton_append, ← hmove] at halone
  | @lexeme position c found front read hc hfound hrest ih =>
    have hlonger : (before ++ c :: found.tail).length = position + 1 + found.tail.length := by
      rw [List.length_append, hbefore, List.length_cons]
      omega
    have halone := ih hlonger
    have hmove : position + (c :: (found.tail ++ front)).length =
        position + 1 + found.tail.length + front.length := by
      rw [List.length_cons, List.length_append]
      omega
    rw [hmove]
    rw [List.append_assoc, List.cons_append] at halone
    have hself : Filter.lexeme c found.tail = .ok found := lexeme_alone hfound
    have hfirst : Alone (c :: found.tail) (found.kind, String.ofList found.value) :=
      .read hc hself
    -- the slice reaches over the lexeme and the blanks up to the next token
    obtain ⟨blanks, rest, next, more, rfl, hblanks, hread, hnext⟩ := hrest.exists_next
    rw [List.cons_append, hread, lexemes]
    rw [hread] at halone
    refine .cons ?_ halone
    have hslice : ((before ++ c :: (found.tail ++ (blanks ++ rest))).drop position).take
        (1 + found.tail.length + blanks.length) = (c :: found.tail) ++ blanks := by
      have hsplit : c :: (found.tail ++ (blanks ++ rest)) = ((c :: found.tail) ++ blanks) ++ rest := by
        rw [List.append_assoc, List.cons_append]
      have hlength : 1 + found.tail.length + blanks.length =
          ((c :: found.tail) ++ blanks).length := by
        rw [List.length_append, List.length_cons, Nat.add_comm 1]
      rw [← hbefore, List.drop_left, hsplit, hlength, List.take_left]
    have hreach : (next.position - (position : Int)).toNat =
        1 + found.tail.length + blanks.length := by
      rw [hnext]
      omega
    rw [Int.toNat_natCast, hreach, hslice, trimRight_append_blanks hfirst.isBlank hblanks]
    exact hfirst

theorem alone_lexemes_of_tokens {text : String} {found : List Token}
    (h : tokens text = .ok found) : ∃ read : List Token, found = read ++ [⟨.eof, "", text.length⟩] ∧
      List.Forall₂ Alone (lexemes text.toList found) (read.map Token.shape) := by
  obtain ⟨read, hscanned, rfl⟩ := scanned_of_tokens h
  have halone := hscanned.alone_lexemes (List.length_nil : ([] : List Char).length = 0)
  rw [Nat.zero_add, String.length_toList] at halone
  exact ⟨read, rfl, halone⟩

theorem alone_values {lexemes : List (List Char)} {shapes : List (Kind × String)}
    (h : List.Forall₂ Alone lexemes shapes) :
    List.Forall₂ Alone (shapes.map fun shape => shape.2.toList) shapes := by
  induction h with
  | nil => exact .nil
  | cons hfirst hrest ih => exact .cons hfirst.value ih

/-! Texts with single spaces -/

theorem isBlank_of_mem_head? {blank : Char} (h : Text.isBlank blank = true) {text : List Char} :
    ∀ c ∈ (blank :: text).head?, Text.isBlank c = true := by
  intro c hc
  rwa [← Option.some.inj hc]

theorem Apart.cons_blank {c : Char} (hc : Text.isBlank c = true) {lexemes : List (List Char)}
    {text : List Char} (h : Apart lexemes text) : Apart lexemes (c :: text) := by
  cases h with
  | finish hblanks => exact .finish (List.forall_mem_cons.mpr ⟨hc, hblanks⟩)
  | lexeme hblanks hbehind hrest =>
    exact .lexeme (List.forall_mem_cons.mpr ⟨hc, hblanks⟩) hbehind hrest

theorem apart_flatMap (lexemes : List (List Char)) :
    Apart lexemes (lexemes.flatMap (· ++ [' '])) := by
  have hspace := Text.isBlank_space
  induction lexemes with
  | nil => exact .finish nofun
  | cons lexeme rest ih =>
    rw [List.flatMap_cons, List.append_assoc, List.singleton_append]
    exact @Apart.lexeme [] lexeme _ rest nofun (isBlank_of_mem_head? hspace) (ih.cons_blank hspace)

/-- How the tokens of a text are spaced does not matter. A text in which the same lexemes stand in
their order, with blanks between any two of them and perhaps at both ends, has tokens of the same
kinds and texts, and so has one in which the texts of the tokens stand in the place of the lexemes;
single spaces between all of them, the empty one of the end included, are one such spacing. -/
theorem tokens_alike_of_apart {text : String} {found : List Token} (h : tokens text = .ok found) :
    (∀ other : String, Apart (lexemes text.toList found) other.toList →
      ∃ found', tokens other = .ok found' ∧ Alike found found') ∧
    (∀ other : String, Apart (found.dropLast.map fun t => t.value.toList) other.toList →
      ∃ found', tokens other = .ok found' ∧ Alike found found') ∧
    ∃ found', tokens (" ".intercalate (found.map Token.value)) = .ok found' ∧ Alike found found' := by
  obtain ⟨read, hread, halone⟩ := alone_lexemes_of_tokens h
  have hshapes : found.map Token.shape = read.map Token.shape ++ [(.eof, "")] := by
    rw [hread, List.map_append]
    rfl
  have hvalues : List.Forall₂ Alone (read.map fun t => t.value.toList) (read.map Token.shape) := by
    have hall := alone_values halone
    rwa [List.map_map] at hall
  have hfront : found.dropLast = read := by
    rw [hread, List.dropLast_concat]
  have hlexemes {parts : List (List Char)} (hparts : List.Forall₂ Alone parts (read.map Token.shape))
      (other : String) (hother : Apart parts other.toList) :
      ∃ found', tokens other = .ok found' ∧ Alike found found' := by
    obtain ⟨found', hfound', hshapes'⟩ := tokens_of_apart hparts hother
    exact ⟨found', hfound', hshapes.trans hshapes'.symm⟩
  refine ⟨hlexemes halone, ?_, ?_⟩
  · rw [hfront]
    exact hlexemes hvalues
  · refine hlexemes hvalues _ ?_
    have htext : (" ".intercalate (found.map Token.value)).toList =
        (read.map fun t => t.value.toList).flatMap (· ++ [' ']) := by
      rw [String.toList_intercalate, hread, List.map_append, List.map_append, List.map_map]
      exact (intercalate_concat _ _ _).trans (List.append_nil _)
    rw [htext]
    exact apart_flatMap _

/-- A number in front of a minus sign, a doubled equality sign and a number in front of a word. -/
def gluedTokens : List Token :=
  [⟨.number, "5", 0⟩, ⟨.number, "-3", 1⟩, ⟨.operator, "=", 3⟩, ⟨.number, "20", 5⟩, ⟨.and, "and", 7⟩,
    ⟨.eof, "", 10⟩]

theorem glued_tokens_may_be_spaced :
    tokens "5-3==20And" = .ok gluedTokens ∧
    lexemes "5-3==20And".toList gluedTokens = [['5'], ['-', '3'], ['=', '='], ['2', '0'],
      ['A', 'n', 'd']] ∧
    Apart (lexemes "5-3==20And".toList gluedTokens) " 5 -3\t== 20 And".toList ∧
    (∃ found, tokens " 5 -3\t== 20 And" = .ok found ∧ Alike gluedTokens found) ∧
    ∃ found, tokens "5 -3 = 20 and " = .ok found ∧ Alike gluedTokens found := by
  have hfound : tokens "5-3==20And" = .ok gluedTokens := by decide +kernel
  have hlexemes : lexemes "5-3==20And".toList gluedTokens = [['5'], ['-', '3'], ['=', '='],
      ['2', '0'], ['A', 'n', 'd']] := by
    decide +kernel
  have hspaced : Apart (lexemes "5-3==20And".toList gluedTokens) " 5 -3\t== 20 And".toList := by
    have hspace := Text.isBlank_space
    have htab : Text.isBlank '\t' = true := by decide +kernel
    have hspaces : ∀ c ∈ [' '], Text.isBlank c = true := List.forall_mem_singleton.mpr hspace
    have htabs : ∀ c ∈ ['\t'], Text.isBlank c = true := List.forall_mem_singleton.mpr htab
    have htext : " 5 -3\t== 20 And".toList = [' '] ++ (['5'] ++ ([' '] ++ (['-', '3'] ++
        (['\t'] ++ (['=', '='] ++ ([' '] ++ (['2', '0'] ++ ([' '] ++ (['A', 'n', 'd'] ++
          []))))))))) := by
      decide +kernel
    rw [hlexemes, htext]
    exact .lexeme hspaces (isBlank_of_mem_head? hspace) (.lexeme hspaces (isBlank_of_mem_head? htab)
      (.lexeme htabs (isBlank_of_mem_head? hspace) (.lexeme hspaces (isBlank_of_mem_head? hspace)
        (.lexeme hspaces nofun (.finish nofun)))))
  have hjoined : " ".intercalate (gluedTokens.map Token.value) = "5 -3 = 20 and " := by
    decide +kernel
  obtain ⟨hapart, -, hsingle⟩ := tokens_alike_of_apart hfound
  rw [hjoined] at hsingle
  exact ⟨hfound, hlexemes, hspaced, hapart _ hspaced, hsingle⟩

end Bourse.Filter
