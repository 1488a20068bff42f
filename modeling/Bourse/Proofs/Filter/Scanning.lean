import Bourse.Proofs.Filter.Lexemes

/-! The tokens of a text. They account for every character of it: the lexemes stand in the text in
their order with only blanks around them. Where the text cannot be read on, the part before that
place is a text of its own, and nothing beyond the next character could make a difference. -/
namespace Bourse.Filter

/-- Tokens that are laid out in a text that starts at a position: each stands for the characters of
its lexeme, and only blanks stand before, between and behind the lexemes. -/
inductive Laid : Nat → List Char → List Token → Prop
  | finish {position : Nat} {blanks : List Char} (hblanks : ∀ c ∈ blanks, Text.isBlank c = true) :
    Laid position blanks [⟨.eof, "", (position + blanks.length : Nat)⟩]
  | lexeme {position : Nat} {blanks lexeme text : List Char} {kind : Kind} {tokens : List Token}
    (hblanks : ∀ c ∈ blanks, Text.isBlank c = true) (hlexeme : lexeme ≠ []) (hkind : kind ≠ .eof)
    (hrest : Laid (position + blanks.length + lexeme.length) text tokens) :
    Laid position (blanks ++ (lexeme ++ text))
      (⟨kind, kind.written lexeme, (position + blanks.length : Nat)⟩ :: tokens)

namespace Laid

theorem cons_blank {c : Char} (hc : Text.isBlank c = true) {position : Nat} {text : List Char}
    {tokens : List Token} (h : Laid (position + 1) text tokens) :
    Laid position (c :: text) tokens := by
  have hcons {blanks : List Char} (hblanks : ∀ d ∈ blanks, Text.isBlank d = true) :
      ∀ d ∈ c :: blanks, Text.isBlank d = true := by
    rintro d (_ | ⟨_, hd⟩)
    · exact hc
    · exact hblanks d hd
  have hlength (blanks : List Char) :
      position + 1 + blanks.length = position + (c :: blanks).length := by
    rw [List.length_cons]
    omega
  cases h with
  | finish hblanks =>
    rw [hlength]
    exact .finish (hcons hblanks)
  | lexeme hblanks hlexeme hkind hrest =>
    rw [hlength] at hrest ⊢
    exact .lexeme (hcons hblanks) hlexeme hkind hrest

theorem cons_lexeme {c : Char} {position : Nat} {tail text : List Char} {kind : Kind}
    {tokens : List Token} (hkind : kind ≠ .eof)
    (h : Laid (position + 1 + tail.length) text tokens) :
    Laid position (c :: (tail ++ text)) (⟨kind, kind.written (c :: tail), position⟩ :: tokens) := by
  have hlength : position + 1 + tail.length = position + 0 + (c :: tail).length := by
    rw [List.length_cons]
    omega
  rw [hlength] at h
  exact @Laid.lexeme position [] (c :: tail) text kind tokens nofun (List.cons_ne_nil c tail) hkind
    h

theorem position_le {position : Nat} {text : List Char} {tokens : List Token}
    (h : Laid position text tokens) : ∀ t ∈ tokens, (position : Int) ≤ t.position := by
  induction h with
  | finish =>
    intro t ht
    rw [List.mem_singleton.mp ht]
    dsimp only
    omega
  | lexeme hblanks hlexeme hkind hrest ih =>
    rintro t (_ | ⟨_, ht⟩)
    · dsimp only
      omega
    · have := ih t ht
      omega

/-- Positions strictly increase, since no lexeme is empty. -/
theorem pairwise_position {position : Nat} {text : List Char} {tokens : List Token}
    (h : Laid position text tokens) : (tokens.map Token.position).Pairwise (· < ·) := by
  induction h with
  | finish => exact List.pairwise_singleton _ _
  | lexeme hblanks hlexeme hkind hrest ih =>
    refine List.Pairwise.cons ?_ ih
    intro later hlater
    obtain ⟨t, ht, rfl⟩ := List.mem_map.mp hlater
    have hle := hrest.position_le t ht
    have hpos := List.length_pos_iff.mpr hlexeme
    dsimp only
    omega

/-- The last token is the only end token and stands behind the last character. -/
theorem ends_once {position : Nat} {text : List Char} {tokens : List Token}
    (h : Laid position text tokens) :
    ∃ body, tokens = body ++ [⟨.eof, "", (position + text.length : Nat)⟩] ∧
      ∀ t ∈ body, t.kind ≠ .eof := by
  induction h with
  | finish => exact ⟨[], rfl, nofun⟩
  | @lexeme position blanks lexeme text kind tokens hblanks hlexeme hkind hrest ih =>
    obtain ⟨body, htokens, hbody⟩ := ih
    refine ⟨⟨kind, kind.written lexeme, (position + blanks.length : Nat)⟩ :: body, ?_, ?_⟩
    · rw [htokens, List.length_append, List.length_append]
      simp only [Nat.add_assoc, List.cons_append]
    · rintro t (_ | ⟨_, ht⟩)
      · exact hkind
      · exact hbody t ht

end Laid

/-- Reading `front` from a position on gives some tokens when `text` stands behind it. -/
inductive Scanned (text : List Char) : Nat → List Char → List Token → Prop
  | start {position : Nat} : Scanned text position [] []
  | blank {position : Nat} {c : Char} {front : List Char} {tokens : List Token}
    (hc : Text.isBlank c = true) (hrest : Scanned text (position + 1) front tokens) :
    Scanned text position (c :: front) tokens
  | lexeme {position : Nat} {c : Char} {found : Lexeme} {front : List Char} {tokens : List Token}
    (hc : Text.isBlank c = false)
    (hfound : Filter.lexeme c (found.tail ++ (front ++ text)) = .ok found)
    (hrest : Scanned text (position + 1 + found.tail.length) front tokens) :
    Scanned text position (c :: (found.tail ++ front))
      (⟨found.kind, String.ofList found.value, position⟩ :: tokens)

namespace Scanned

theorem scan_append {position : Nat} {front text : List Char} {tokens : List Token}
    (h : Scanned text position front tokens) (seen : List Token) :
    scan position seen (front ++ text) =
      scan (position + front.length) (tokens.reverse ++ seen) text := by
  induction h generalizing seen with
  | start => rfl
  | blank hc hrest ih =>
    rw [List.cons_append, scan, if_pos hc, ih, List.length_cons, Nat.add_right_comm, Nat.add_assoc]
  | lexeme hc hfound hrest ih =>
    rw [List.cons_append, List.append_assoc, scan, if_neg (by simp [hc]), hfound]
    simp only [List.drop_left, ih, List.reverse_cons, List.append_assoc, List.cons_append,
      List.nil_append, List.length_cons, List.length_append]
    congr 1
    omega

/-- The tokens of a whole text are laid out in it. -/
theorem laid {position last : Nat} {front : List Char} {tokens : List Token}
    (h : Scanned [] position front tokens) (hlast : last = position + front.length) :
    Laid position front (tokens ++ [⟨.eof, "", last⟩]) := by
  induction h with
  | start =>
    rw [hlast]
    exact .finish nofun
  | blank hc hrest ih =>
    rw [List.length_cons] at hlast
    exact .cons_blank hc (ih (by omega))
  | lexeme hc hfound hrest ih =>
    obtain ⟨hkind, hvalue⟩ := lexeme_written hfound
    rw [List.length_cons, List.length_append] at hlast
    rw [hvalue]
    exact .cons_lexeme hkind (ih (by omega))

/-- Reading goes on as far as there are lexemes: to the end or to a character that begins none. -/
theorem exists_scanned (position : Nat) : (text : List Char) →
    ∃ front rest tokens, text = front ++ rest ∧ Scanned rest position front tokens ∧
      (rest = [] ∨ ∃ c more fault, rest = c :: more ∧ Text.isBlank c = false ∧
        Filter.lexeme c more = .error fault)
  | [] => ⟨[], [], [], rfl, .start, .inl rfl⟩
  | c :: more => by
    cases hc : Text.isBlank c with
    | true =>
      obtain ⟨front, rest, tokens, hmore, hscanned, hrest⟩ := exists_scanned (position + 1) more
      exact ⟨c :: front, rest, tokens, congrArg (c :: ·) hmore, .blank hc hscanned, hrest⟩
    | false =>
      cases hfound : Filter.lexeme c more with
      | error fault =>
        exact ⟨[], c :: more, [], rfl, .start, .inr ⟨c, more, fault, rfl, hc, hfound⟩⟩
      | ok found =>
        -- a lexeme takes its characters off the text, and the reading goes on behind them
        have htail := lexeme_tail hfound
        obtain ⟨front, rest, tokens, hdrop, hscanned, hrest⟩ :=
          exists_scanned (position + 1 + found.tail.length) (more.drop found.tail.length)
        rw [hdrop] at htail
        rw [← htail] at hfound
        refine ⟨c :: (found.tail ++ front), rest, _, ?_, .lexeme hc hfound hscanned, hrest⟩
        rw [List.cons_append, List.append_assoc, htail]
termination_by text => text.length
decreasing_by all_goals simp; try omega

theorem sameFront_append {text other : List Char} (hother : SameFront text other) {position : Nat}
    {front : List Char} {tokens : List Token} (h : Scanned text position front tokens) :
    SameFront (front ++ text) (front ++ other) := by
  induction h with
  | start => exact hother
  | blank hc hrest ih =>
    refine ⟨.inr rfl, fun hletter => ?_⟩
    rw [List.cons_append, List.head?_cons, Option.any_some] at hletter
    rw [Text.isBlank_of_isLetter hletter] at hc
    exact absurd hc Bool.false_ne_true
  | @lexeme position c found front tokens hc hfound hrest ih =>
    refine ⟨.inr rfl, fun hletter => ?_⟩
    rw [List.cons_append, List.head?_cons, Option.any_some] at hletter
    -- a letter begins a word, which ends inside `front`
    rw [lexeme_of_isLetter hletter] at hfound
    have hword : (found.tail ++ (front ++ text)).takeWhile isWordChar = found.tail :=
      congrArg Lexeme.tail (Except.ok.inj hfound)
    simp only [List.cons_append, List.append_assoc, List.takeWhile_cons,
      isWordChar_of_isLetter hletter, if_true, hword,
      ih.takeWhile_append (fun _ => isWordChar_of_isBlank) hword]

/-- What was read stays the same in front of another text that may stand in the place of the one
behind it. -/
theorem congr {text other : List Char} (hother : SameFront text other) {position : Nat}
    {front : List Char} {tokens : List Token} (h : Scanned text position front tokens) :
    Scanned other position front tokens := by
  induction h with
  | start => exact .start
  | blank hc hrest ih => exact .blank hc ih
  | lexeme hc hfound hrest ih =>
    exact .lexeme hc ((sameFront_append hother hrest).lexeme_append hfound) ih

/-- What is read of two texts one after another. -/
theorem append {text front behind : List Char} {position : Nat} {tokens more : List Token}
    (h : Scanned (behind ++ text) position front tokens)
    (hbehind : Scanned text (position + front.length) behind more) :
    Scanned text position (front ++ behind) (tokens ++ more) := by
  induction h with
  | start => exact hbehind
  | @blank position c front tokens hc hrest ih =>
    have hlength : position + (c :: front).length = position + 1 + front.length := by
      rw [List.length_cons]
      omega
    rw [hlength] at hbehind
    exact .blank hc (ih hbehind)
  | @lexeme position c found front tokens hc hfound hrest ih =>
    have hlength : position + (c :: (found.tail ++ front)).length =
        position + 1 + found.tail.length + front.length := by
      rw [List.length_cons, List.length_append]
      omega
    rw [hlength] at hbehind
    rw [← List.append_assoc front] at hfound
    rw [List.cons_append, List.append_assoc]
    exact .lexeme hc hfound (ih hbehind)

/-- Two texts with a blank between them are read like each of them alone. -/
theorem join {front behind : List Char} {blank : Char} (hblank : Text.isBlank blank = true)
    {position : Nat} {tokens more : List Token} (h : Scanned [] position front tokens)
    (hbehind : Scanned [] (position + front.length + 1) behind more) :
    Scanned [] position (front ++ blank :: behind) (tokens ++ more) := by
  have hfront : SameFront [] ((blank :: behind) ++ []) := by
    refine sameFront_of_isBlank (fun c hc => ?_) rfl
    rwa [← Option.some.inj hc]
  exact (h.congr hfront).append (.blank hblank hbehind)

/-- A text that is one lexeme. -/
theorem single {c : Char} {kind : Kind} {value tail : List Char} (hc : Text.isBlank c = false)
    (hfound : Filter.lexeme c tail = .ok ⟨kind, value, tail⟩) (position : Nat) :
    Scanned [] position (c :: tail) [⟨kind, String.ofList value, position⟩] := by
  have hlexeme : Filter.lexeme c (tail ++ ([] ++ [])) = .ok ⟨kind, value, tail⟩ := by
    rwa [List.append_nil, List.append_nil]
  have hscanned : Scanned [] position (c :: (tail ++ [])) [⟨kind, String.ofList value, position⟩] :=
    @Scanned.lexeme [] position c ⟨kind, value, tail⟩ [] [] hc hlexeme .start
  rwa [List.append_nil] at hscanned

/-- The same text read from a later position on. -/
theorem shift {text front : List Char} {position : Nat} {tokens : List Token}
    (h : Scanned text position front tokens) (k : Nat) :
    Scanned text (position + k) front
      (tokens.map fun t => { t with position := t.position + k }) := by
  induction h with
  | start => exact .start
  | blank hc hrest ih =>
    rw [Nat.add_right_comm] at ih
    exact .blank hc ih
  | @lexeme position c found front tokens hc hfound hrest ih =>
    have hmove : position + 1 + found.tail.length + k = position + k + 1 + found.tail.length := by
      omega
    rw [hmove] at ih
    exact .lexeme hc hfound ih

end Scanned

theorem Scanned.scan_nil {front : List Char} {read : List Token} {position : Nat}
    (h : Scanned [] position front read) :
    scan position [] front = .ok (read ++ [⟨.eof, "", (position + front.length : Nat)⟩]) := by
  have hscan := h.scan_append []
  rw [List.append_nil, List.append_nil] at hscan
  rw [hscan, scan, List.reverse_cons, List.reverse_reverse]

theorem Scanned.scan_error {front more : List Char} {read : List Token} {position : Nat} {c : Char}
    {fault : LexFault} (hc : Text.isBlank c = false) (hfault : Filter.lexeme c more = .error fault)
    (h : Scanned (c :: more) position front read) :
    scan position [] (front ++ c :: more) = .error (fault, (position + front.length : Nat)) := by
  rw [h.scan_append, scan, if_neg (by simp [hc]), hfault]

/-- A character that begins no lexeme may be left out or be followed by anything that begins as
before: the lexemes in front of it stay as they are. -/
theorem sameFront_of_lexeme_error {c : Char} {more : List Char} {fault : LexFault}
    (hfault : lexeme c more = .error fault) {other : List Char}
    (hother : other = [] ∨ other.head? = some c) : SameFront (c :: more) other := by
  refine ⟨hother.imp_left fun hnil => ?_, fun hletter => ?_⟩
  · rw [hnil]
    exact nofun
  have hc : Text.isLetter c = true := hletter
  rw [(lexeme_error hfault).1] at hc
  exact absurd hc Bool.false_ne_true

theorem scanned_of_tokens {text : String} {found : List Token} (h : tokens text = .ok found) :
    ∃ read, Scanned [] 0 text.toList read ∧ found = read ++ [⟨.eof, "", text.length⟩] := by
  obtain ⟨front, rest, read, htext, hscanned, hrest⟩ := Scanned.exists_scanned 0 text.toList
  rw [tokens, htext] at h
  -- the reading came to the end, or it would have failed
  rcases hrest with rfl | ⟨c, more, fault, rfl, hc, hfault⟩
  · rw [List.append_nil] at htext h
    rw [hscanned.scan_nil, ← htext, Nat.zero_add, String.length_toList] at h
    rw [← htext] at hscanned
    exact ⟨read, hscanned, (Except.ok.inj h).symm⟩
  · rw [hscanned.scan_error hc hfault] at h
    contradiction

theorem laid_of_tokens {text : String} {found : List Token} (h : tokens text = .ok found) :
    Laid 0 text.toList found := by
  obtain ⟨read, hscanned, rfl⟩ := scanned_of_tokens h
  exact hscanned.laid (by rw [Nat.zero_add, String.length_toList])

/-- Where the tokens of a text stop short, everything in front was read and no lexeme begins. -/
theorem scanned_of_tokens_error {text : String} {fault : LexFault} {position : Int}
    (h : tokens text = .error (fault, position)) :
    ∃ front c more read, text.toList = front ++ c :: more ∧ position = (front.length : Nat) ∧
      Scanned (c :: more) 0 front read ∧ Text.isBlank c = false ∧ lexeme c more = .error fault := by
  obtain ⟨front, rest, read, htext, hscanned, hrest⟩ := Scanned.exists_scanned 0 text.toList
  rw [tokens, htext] at h
  rcases hrest with rfl | ⟨c, more, fault', rfl, hc, hfault⟩
  · rw [List.append_nil, hscanned.scan_nil] at h
    contradiction
  · rw [hscanned.scan_error hc hfault, Nat.zero_add] at h
    cases h
    exact ⟨front, c, more, read, htext, rfl, hscanned, hc, hfault⟩

/-- Tokens are read without loss. When a text has tokens, their positions strictly increase, the
only end token is the last one and stands behind the last character, and the tokens are laid out in
the text. When it has none, the blamed place lies in the text, the part before that place has
tokens, and every text that agrees up to one character beyond the place fails there too. -/
theorem tokens_lossless (text : String) :
    (∀ found, tokens text = .ok found →
      (found.map Token.position).Pairwise (· < ·) ∧
      (∃ body, found = body ++ [⟨.eof, "", text.length⟩] ∧ ∀ t ∈ body, t.kind ≠ .eof) ∧
      Laid 0 text.toList found) ∧
    (∀ fault position, tokens text = .error (fault, position) → ∃ p : Nat, position = p ∧
      p < text.length ∧ (∃ found, tokens (String.ofList (text.toList.take p)) = .ok found) ∧
      ∀ other : String, other.toList.take (p + 2) = text.toList.take (p + 2) →
        tokens other = .error (fault, position)) := by
  constructor
  · intro found hfound
    have hlaid := laid_of_tokens hfound
    obtain ⟨body, hbody, hend⟩ := hlaid.ends_once
    refine ⟨hlaid.pairwise_position, ⟨body, ?_, hend⟩, hlaid⟩
    rw [hbody, Nat.zero_add, String.length_toList]
  · intro fault position hfail
    obtain ⟨front, c, more, read, htext, rfl, hscanned, hc, hfault⟩ :=
      scanned_of_tokens_error hfail
    refine ⟨front.length, rfl, ?_, ?_, ?_⟩
    · rw [← String.length_toList, htext, List.length_append, List.length_cons]
      omega
    · -- cut off at the place, the text has all the lexemes in front of it
      have hcut := hscanned.congr (sameFront_of_lexeme_error hfault (.inl rfl))
      rw [tokens, String.toList_ofList, htext, List.take_left]
      exact ⟨_, hcut.scan_nil⟩
    · -- one character of lookahead decides that no lexeme begins at the place
      intro other hother
      rw [htext] at hother
      obtain ⟨more', hother, hhead⟩ := exists_of_take_eq hother
      have hfault' := (lexeme_error hfault).2 more' hhead
      have hsame := hscanned.congr
        (sameFront_of_lexeme_error hfault (.inr (List.head?_cons : (c :: more').head? = some c)))
      rw [tokens, hother, hsame.scan_error hc hfault', Nat.zero_add]

theorem tokens_lossless_of_digit_led_words :
    (tokens "20Or 52wHigh==1" = .ok [⟨.number, "20", 0⟩, ⟨.or, "or", 2⟩,
        ⟨.identifier, "52whigh", 5⟩, ⟨.operator, "=", 12⟩, ⟨.number, "1", 14⟩, ⟨.eof, "", 15⟩] ∧
      Laid 0 "20Or 52wHigh==1".toList [⟨.number, "20", 0⟩, ⟨.or, "or", 2⟩,
        ⟨.identifier, "52whigh", 5⟩, ⟨.operator, "=", 12⟩, ⟨.number, "1", 14⟩, ⟨.eof, "", 15⟩]) ∧
    (tokens "pe ! 20" = .error (.loneBang, 3) ∧
      ∀ other : String, other.toList.take 5 = "pe ! 20".toList.take 5 →
        tokens other = .error (.loneBang, 3)) := by
  have hread : tokens "20Or 52wHigh==1" = .ok [⟨.number, "20", 0⟩, ⟨.or, "or", 2⟩,
      ⟨.identifier, "52whigh", 5⟩, ⟨.operator, "=", 12⟩, ⟨.number, "1", 14⟩, ⟨.eof, "", 15⟩] := by
    decide +kernel
  have hfail : tokens "pe ! 20" = .error (.loneBang, 3) := by decide +kernel
  obtain ⟨p, hp, -, -, hother⟩ := (tokens_lossless "pe ! 20").2 _ _ hfail
  obtain rfl : p = 3 := by omega
  exact ⟨⟨hread, ((tokens_lossless _).1 _ hread).2.2⟩, hfail, hother⟩

end Bourse.Filter
