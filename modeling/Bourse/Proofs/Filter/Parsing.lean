import Bourse.Proofs.Filter.Reading
import Mathlib.Data.List.TakeWhile

/-! The parser against the grammar. What it accepts is what the grammar derives, with the meaning
of the derivation; what it refuses it refuses at the first token that no expression can go on
with. -/
namespace Bourse.Filter

/-- The tokens before the first end token. -/
def beforeEnd (input : List Token) : List Token := input.takeWhile fun t => t.kind ≠ .eof

/-- The end token that is supplied where a list has none. -/
def suppliedEnd : Token := ⟨.eof, "", 0⟩

def Accepted (input : List Token) : Prop := ∃ e, parse input = .ok e

theorem splitEnd_eq (input : List Token) :
    splitEnd input =
      (beforeEnd input, (input.drop (beforeEnd input).length).headD suppliedEnd) := rfl

theorem kind_of_mem_beforeEnd {input : List Token} {t : Token} (h : t ∈ beforeEnd input) :
    t.kind ≠ .eof := by simpa using List.mem_takeWhile_imp h

theorem beforeEnd_isPrefix (input : List Token) : beforeEnd input <+: input :=
  List.takeWhile_prefix _

/-- Tokens that are no end tokens stay in front of the first end token. -/
theorem beforeEnd_append {xs : List Token} (h : ∀ t ∈ xs, t.kind ≠ .eof) (ys : List Token) :
    beforeEnd (xs ++ ys) = xs ++ beforeEnd ys :=
  List.takeWhile_append_of_pos (by simpa using h)

theorem beforeEnd_eq_self {xs : List Token} (h : ∀ t ∈ xs, t.kind ≠ .eof) :
    beforeEnd xs = xs := by
  simpa [beforeEnd] using beforeEnd_append h []

theorem beforeEnd_append_end {xs : List Token} (h : ∀ t ∈ xs, t.kind ≠ .eof) {stop : Token}
    (hstop : stop.kind = .eof) (later : List Token) : beforeEnd (xs ++ stop :: later) = xs := by
  rw [beforeEnd_append h]
  simp [beforeEnd, hstop]

/-- The token that stops the reading is an end token. -/
theorem splitEnd_kind (input : List Token) : (splitEnd input).2.kind = .eof := by
  rw [splitEnd_eq]
  induction input with
  | nil => rfl
  | cons t rest ih =>
    by_cases ht : t.kind = .eof
    · simp [beforeEnd, ht]
    · simpa [beforeEnd, ht] using ih

theorem parse_congr {input input' : List Token} (h : splitEnd input = splitEnd input') :
    parse input = parse input' := by
  unfold parse
  rw [h]

/-- Only what stands before the first end token, and that token, are read. -/
theorem parse_append_end (input later : List Token) (stop : Token) (hstop : stop.kind = .eof) :
    parse (beforeEnd input ++ stop :: later) = parse (beforeEnd input ++ [stop]) := by
  have hsplit (ys : List Token) :
      splitEnd (beforeEnd input ++ stop :: ys) = (beforeEnd input, stop) := by
    have hbody : beforeEnd (beforeEnd input ++ stop :: ys) = beforeEnd input :=
      beforeEnd_append_end (fun t ht => kind_of_mem_beforeEnd ht) hstop ys
    rw [splitEnd_eq, hbody]
    simp
  exact parse_congr ((hsplit later).trans (hsplit []).symm)

theorem headD_append_singleton (xs : List Token) (t : Token) :
    (xs ++ [t]).headD t = xs.headD t := by cases xs <;> rfl

/-- A list without an end token is read as if one stood behind it. -/
theorem parse_append_suppliedEnd (input : List Token) :
    parse (input ++ [suppliedEnd]) = parse input := by
  have hbody : beforeEnd (input ++ [suppliedEnd]) = beforeEnd input := by
    induction input with
    | nil => rfl
    | cons t rest ih =>
      by_cases ht : t.kind = .eof
      · simp [beforeEnd, ht]
      · simpa [beforeEnd, ht] using ih
  apply parse_congr
  rw [splitEnd_eq, splitEnd_eq, hbody,
    List.drop_append_of_le_length (beforeEnd_isPrefix input).length_le, headD_append_singleton]

/-- Everything that parsing may end in. -/
theorem parse_outcome (input : List Token) :
    match parse input with
    | .ok e => ∃ d : Grammar.Expression, d.tokens = beforeEnd input ∧ d.tree = e
    | .error fault =>
      Refused (splitEnd input).2 .start nestingLimit (beforeEnd input) fault := by
  have hexpression := expression_outcome (splitEnd input).2 nestingLimit (beforeEnd input)
  have hpair : splitEnd input = (beforeEnd input, (splitEnd input).2) := rfl
  unfold parse
  rw [hpair]
  dsimp only
  cases hresult : expression (splitEnd input).2 nestingLimit (beforeEnd input) with
  | error fault =>
    rw [hresult] at hexpression
    exact hexpression 0
  | ok out =>
    rw [hresult] at hexpression
    obtain ⟨⟨e, rest⟩, hlength⟩ := out
    obtain ⟨d, hd, hsplit, hlink⟩ := hexpression
    dsimp only at hd hsplit hlink
    match rest with
    | [] => exact ⟨d, by simpa using hsplit.symm, hd⟩
    | trailing :: rest =>
      have hno := Grammar.noLink_cons.mp hlink
      -- behind the whole expression only a connective could follow, and it is none
      have hstuck : Place.finish.Stuck (trailing :: rest) := by
        simp [Place.Stuck, Place.advance, Place.finish, hno]
      dsimp only
      split_ifs with hclosing
      · exact Refused.after d.tokens (trailing :: rest) hsplit (d.follow_tokens 0) rfl
          (Refused.here ⟨hclosing, rfl⟩ hstuck)
      · exact Refused.after d.tokens (trailing :: rest) hsplit (d.follow_tokens 0) rfl
          (Refused.here rfl hstuck)

/-- Within the nesting limit a refusal is about a token at which reading is stuck. -/
theorem Refused.stuck {stop : Token} {limit : Nat} {input : List Token} {fault : SyntaxError}
    (hnested : NestedWithin limit input) (h : Refused stop .start limit input fault) :
    ∃ read rest s, input = read ++ rest ∧ Place.start.follow read = some s ∧
      fault.Blames (rest.headD stop) ∧ s.Stuck rest := by
  obtain ⟨read, rest, s, rfl, hread, ⟨-, hopened, t, ht, hparen⟩ | ⟨hblame, hstuck⟩⟩ := h
  · -- one parenthesis more than the limit would be open
    have hcount := Place.follow_opened hread
    obtain ⟨more, rfl⟩ := List.head?_eq_some_iff.mp ht
    have hdeep := hnested (read ++ [t]) ⟨more, by simp⟩
    simp only [List.countP_append, List.countP_singleton, Token.opens, Token.closes, hparen]
      at hdeep
    simp only [Place.start] at hopened hcount
    simp at hdeep
    omega
  · exact ⟨read, rest, s, rfl, hread, hblame, hstuck⟩

/-- A list that is rejected within the nesting limit splits where reading is stuck. -/
theorem parse_error_stuck {input : List Token} {fault : SyntaxError}
    (hnested : NestedWithin nestingLimit (beforeEnd input)) (hfault : parse input = .error fault) :
    ∃ read rest s, beforeEnd input = read ++ rest ∧ Place.start.follow read = some s ∧
      fault.Blames (rest.headD (splitEnd input).2) ∧ s.Stuck rest := by
  have houtcome := parse_outcome input
  rw [hfault] at houtcome
  exact houtcome.stuck hnested

theorem SyntaxError.Blames.position {fault : SyntaxError} {t : Token} (h : fault.Blames t) :
    fault.position? = some t.position := by
  cases fault with
  | lexical _ _ => exact h.elim
  | tooDeep => exact h.elim
  | unexpected _ found => exact congrArg (fun t : Token => some t.position) h
  | unbalanced position => exact congrArg some h.2
  | badNumber text position => exact congrArg some h.2.2

theorem SyntaxError.Blames.ne_tooDeep {fault : SyntaxError} {t : Token} (h : fault.Blames t) :
    fault ≠ .tooDeep := by
  rintro rfl
  exact h

theorem Accepted.follow {input : List Token} (h : Accepted input) :
    Place.start.follow (beforeEnd input) = some .finish := by
  obtain ⟨e, he⟩ := h
  have houtcome := parse_outcome input
  rw [he] at houtcome
  obtain ⟨d, hd, -⟩ := houtcome
  rw [← hd]
  exact d.follow_tokens 0

theorem accepted_of_follow {input : List Token}
    (hnested : NestedWithin nestingLimit (beforeEnd input))
    (h : Place.start.follow (beforeEnd input) = some .finish) : Accepted input := by
  cases hresult : parse input with
  | ok e => exact ⟨e, hresult⟩
  | error fault =>
    obtain ⟨read, rest, s, hsplit, hread, -, hstuck⟩ := parse_error_stuck hnested hresult
    rw [hsplit, Place.follow_append_of hread] at h
    exact absurd h hstuck.follow_ne_finish

/-- Derived tokens are parsed to the meaning of their derivation. -/
theorem parse_of_derivation {input : List Token} {d : Grammar.Expression}
    (hnested : NestedWithin nestingLimit (beforeEnd input)) (hd : d.tokens = beforeEnd input) :
    parse input = .ok d.tree := by
  -- the tokens can be followed to the end, so they are accepted with the meaning of some
  -- derivation, and there is only one
  have hfollow : Place.start.follow (beforeEnd input) = some .finish := by
    rw [← hd]
    exact d.follow_tokens 0
  obtain ⟨e, he⟩ := accepted_of_follow hnested hfollow
  have houtcome := parse_outcome input
  rw [he] at houtcome
  obtain ⟨d', hd', rfl⟩ := houtcome
  rw [he, Grammar.Expression.tokens_injective (hd.trans hd'.symm)]

/-- Within the nesting limit, parsing accepts exactly the lists whose tokens before the first end
token have a derivation, which is unique, and answers its meaning. All other lists are syntax
errors. Nothing behind the first end token is read, and one is supplied where there is none. -/
theorem parse_iff_derivation (input : List Token)
    (hnested : NestedWithin nestingLimit (beforeEnd input)) :
    (∀ e, parse input = .ok e ↔
      ∃ d : Grammar.Expression, d.tokens = beforeEnd input ∧ d.tree = e) ∧
    (∀ d d' : Grammar.Expression, d.tokens = beforeEnd input → d'.tokens = beforeEnd input →
      d = d') ∧
    ((∀ d : Grammar.Expression, d.tokens ≠ beforeEnd input) →
      ∃ fault, parse input = .error fault ∧ fault ≠ .tooDeep) ∧
    (∀ stop later, stop.kind = .eof →
      parse (beforeEnd input ++ stop :: later) = parse (beforeEnd input ++ [stop])) ∧
    parse (input ++ [suppliedEnd]) = parse input := by
  have hunique (d d' : Grammar.Expression) (hd : d.tokens = beforeEnd input)
      (hd' : d'.tokens = beforeEnd input) : d = d' :=
    Grammar.Expression.tokens_injective (hd.trans hd'.symm)
  have houtcome := parse_outcome input
  refine ⟨fun e => ⟨fun he => ?_, ?_⟩, hunique, fun hnone => ?_,
    fun stop later hstop => parse_append_end input later stop hstop,
    parse_append_suppliedEnd input⟩
  · rw [he] at houtcome
    exact houtcome
  · rintro ⟨d, hd, rfl⟩
    exact parse_of_derivation hnested hd
  · cases hresult : parse input with
    | ok e =>
      rw [hresult] at houtcome
      obtain ⟨d, hd, -⟩ := houtcome
      exact absurd hd (hnone d)
    | error fault =>
      obtain ⟨_, _, _, _, _, hblame, _⟩ := parse_error_stuck hnested hresult
      exact ⟨fault, rfl, hblame.ne_tooDeep⟩

theorem nestedWithin_of_length_le {limit : Nat} {tokens : List Token}
    (h : tokens.length ≤ limit) : NestedWithin limit tokens := by
  intro before hbefore
  have hcount : before.countP Token.opens ≤ before.length := List.countP_le_length
  have hlength := hbefore.length_le
  omega

/-- A comparison in parentheses, with a stray token behind the end. -/
theorem parse_grouped_comparison : ∃ x, Numeral.float? ['2', '0'] = some x ∧
    parse [⟨.lparen, "(", 0⟩, ⟨.identifier, "pe", 1⟩, ⟨.operator, "<", 4⟩, ⟨.number, "20", 6⟩,
      ⟨.rparen, ")", 8⟩, ⟨.eof, "", 9⟩, ⟨.rparen, ")", 9⟩] = .ok (.comparison "<" "pe" x) := by
  obtain ⟨x, hx⟩ : ∃ x, Numeral.float? ['2', '0'] = some x :=
    Option.isSome_iff_exists.mp (by decide +kernel)
  refine ⟨x, hx, ?_⟩
  refine ((parse_iff_derivation _ (nestedWithin_of_length_le (by decide))).1 _).mpr ?_
  let comparison : Grammar.Comparison :=
    ⟨⟨.identifier, "pe", 1⟩, ⟨.operator, "<", 4⟩, ⟨.number, "20", 6⟩, x, rfl, rfl, by decide, rfl,
      hx⟩
  exact ⟨.chain (.group ⟨.lparen, "(", 0⟩ (.chain (.comparison comparison) .done)
    ⟨.rparen, ")", 8⟩ rfl rfl) .done, rfl, rfl⟩

/-! The first mistake -/

/-- The tokens before the end, and the end token that stops the reading, stand in the list. -/
theorem getElem?_of_beforeEnd_eq {input read rest : List Token}
    (h : beforeEnd input = read ++ rest) :
    (input ++ [suppliedEnd])[read.length]? = some (rest.headD (splitEnd input).2) := by
  obtain ⟨later, hlater⟩ := beforeEnd_isPrefix input
  have hinput : input = read ++ (rest ++ later) := by rw [← hlater, h, List.append_assoc]
  -- the stop is the first token behind those before the end
  have hstop : (splitEnd input).2 = later.headD suppliedEnd := by
    have happend := List.prefix_iff_eq_append.mp (beforeEnd_isPrefix input)
    rw [splitEnd_eq, List.append_cancel_left (happend.trans hlater.symm)]
  rw [hstop, hinput, List.append_assoc, List.getElem?_append_right (Nat.le_refl _), Nat.sub_self]
  cases rest with
  | nil => cases later <;> rfl
  | cons t rest => rfl

theorem take_of_beforeEnd_eq {input read rest : List Token} (h : beforeEnd input = read ++ rest) :
    input.take read.length = read := by
  obtain ⟨later, hlater⟩ := beforeEnd_isPrefix input
  rw [← hlater, h, List.append_assoc, List.take_left]

theorem NestedWithin.mono {limit : Nat} {tokens tokens' : List Token}
    (h : NestedWithin limit tokens) (hbegin : tokens' <+: tokens) : NestedWithin limit tokens' :=
  fun before hbefore => h before (hbefore.trans hbegin)

/-- Tokens that can be followed begin an accepted list. -/
theorem exists_accepted_append {read : List Token} {s : Place}
    (hkinds : ∀ t ∈ read, t.kind ≠ .eof) (hnested : NestedWithin nestingLimit read)
    (h : Place.start.follow read = some s) : ∃ more, Accepted (read ++ more) := by
  refine ⟨s.completion, ?_⟩
  have hbody : beforeEnd (read ++ s.completion) = read ++ s.completion := by
    rw [beforeEnd_append hkinds, beforeEnd_eq_self fun t ht => (s.completion_kind t ht).1]
  apply accepted_of_follow
  · rw [hbody]
    exact Place.nestedWithin_append_completion s hnested
  · rw [hbody, Place.follow_append_of h]
    exact s.follow_completion

/-- No accepted list begins with tokens that cannot be followed. -/
theorem not_accepted_append {read : List Token} {s : Place} {t : Token}
    (hkinds : ∀ t ∈ read, t.kind ≠ .eof) (ht : t.kind ≠ .eof)
    (h : Place.start.follow read = some s) (hstuck : s.advance t = none) (more : List Token) :
    ¬ Accepted (read ++ [t] ++ more) := by
  intro haccepted
  have hfollow := haccepted.follow
  -- an accepted list could be followed through the token that the place is stuck at
  rw [List.append_assoc, beforeEnd_append hkinds, Place.follow_append_of h,
    beforeEnd_append (by simpa using ht), List.singleton_append, Place.follow_cons, hstuck]
    at hfollow
  simp at hfollow

theorem map_beforeEnd (input : List Token) :
    (beforeEnd input).map Token.shape =
      (input.map Token.shape).takeWhile fun shape => shape.1 ≠ .eof := by
  rw [List.takeWhile_map]
  rfl

/-- Lists that differ in positions only are cut at the same place. -/
theorem Alike.beforeEnd {xs ys : List Token} (h : Alike xs ys) :
    Alike (beforeEnd xs) (beforeEnd ys) := by
  rw [Alike, map_beforeEnd, map_beforeEnd, h]

/-- The blamed token stands where reading is stuck. -/
theorem error_at_reach {input : List Token} {fault : SyntaxError}
    (hnested : NestedWithin nestingLimit (Filter.beforeEnd input))
    (hfault : parse input = .error fault) :
    ∃ t, (input ++ [suppliedEnd])[Place.start.reach (Filter.beforeEnd input)]? = some t ∧
      fault.Blames t := by
  obtain ⟨read, rest, s, hsplit, hread, hblame, hstuck⟩ := parse_error_stuck hnested hfault
  have hreach : Place.start.reach (Filter.beforeEnd input) = read.length := by
    rw [hsplit, Place.reach_of_stuck hread hstuck]
  rw [hreach]
  exact ⟨_, getElem?_of_beforeEnd_eq hsplit, hblame⟩

/-- An error is about the first token that no accepted list goes on with: the tokens before it
begin an accepted list, and with it none. Its index depends on kinds and texts only, so the
position that is reported is the one that this very token carries. -/
theorem parse_error_at_first_mistake (input : List Token) (fault : SyntaxError)
    (hnested : NestedWithin nestingLimit (Filter.beforeEnd input))
    (hfault : parse input = .error fault) :
    ∃ k t, (input ++ [suppliedEnd])[k]? = some t ∧ fault.Blames t ∧
      fault.position? = some t.position ∧
      (∃ more, Accepted (input.take k ++ more)) ∧
      (t.kind ≠ .eof → ∀ more, ¬ Accepted (input.take (k + 1) ++ more)) ∧
      (t.kind = .eof → ¬ Accepted (input.take k)) ∧
      ∀ input', Alike input input' → ∃ fault' t', parse input' = .error fault' ∧
        (input' ++ [suppliedEnd])[k]? = some t' ∧ fault'.Blames t' ∧
        fault'.position? = some t'.position := by
  obtain ⟨t, ht, hblame⟩ := error_at_reach hnested hfault
  obtain ⟨read, rest, s, hsplit, hread, -, hstuck⟩ := parse_error_stuck hnested hfault
  have hreach : Place.start.reach (Filter.beforeEnd input) = read.length := by
    rw [hsplit, Place.reach_of_stuck hread hstuck]
  have hkinds : ∀ t ∈ read, t.kind ≠ .eof := fun t hmem =>
    kind_of_mem_beforeEnd (hsplit ▸ List.mem_append_left rest hmem)
  have htake : input.take read.length = read := take_of_beforeEnd_eq hsplit
  have hlast : t = rest.headD (splitEnd input).2 := by
    rw [hreach, getElem?_of_beforeEnd_eq hsplit] at ht
    exact (Option.some.inj ht).symm
  refine ⟨Place.start.reach (Filter.beforeEnd input), t, ht, hblame, hblame.position, ?_, ?_, ?_,
    ?_⟩
  · rw [hreach, htake]
    -- the place that was reached can be completed
    have hbefore : NestedWithin nestingLimit read :=
      hnested.mono (hsplit ▸ List.prefix_append read rest)
    exact exists_accepted_append hkinds hbefore hread
  · intro hkind more
    cases rest with
    | nil => exact absurd (hlast ▸ splitEnd_kind input) hkind
    | cons next rest =>
      obtain rfl : t = next := hlast
      -- no place follows the token, whatever comes behind it
      have hnext : Filter.beforeEnd input = (read ++ [t]) ++ rest := by simp [hsplit]
      have htaken : input.take (read.length + 1) = read ++ [t] := by
        simpa using take_of_beforeEnd_eq hnext
      rw [hreach, htaken]
      exact not_accepted_append hkinds hkind hread hstuck more
  · intro hkind haccepted
    rw [hreach, htake] at haccepted
    cases rest with
    | nil =>
      -- the tokens end before the expression does
      have hfollow := haccepted.follow
      rw [beforeEnd_eq_self hkinds, hread] at hfollow
      exact hstuck (Option.some.inj hfollow)
    | cons next rest =>
      have hmem : t ∈ Filter.beforeEnd input := by simp [hsplit, hlast]
      exact kind_of_mem_beforeEnd hmem hkind
  · intro input' halike
    have hnested' : NestedWithin nestingLimit (Filter.beforeEnd input') :=
      halike.beforeEnd.nestedWithin hnested
    -- places see kinds and texts only, so the other list is stuck at the same index
    cases hresult : parse input' with
    | ok e =>
      have hfollow := Accepted.follow ⟨e, hresult⟩
      rw [← Place.follow_congr halike.beforeEnd, hsplit, Place.follow_append_of hread] at hfollow
      exact absurd hfollow hstuck.follow_ne_finish
    | error fault' =>
      obtain ⟨t', ht', hblame'⟩ := error_at_reach hnested' hresult
      rw [← Place.reach_congr halike.beforeEnd] at ht'
      exact ⟨fault', t', rfl, ht', hblame', hblame'.position⟩

/-- The tokens of a comparison with a closing parenthesis behind it. -/
def strayClosing : List Token :=
  [⟨.identifier, "pe", 0⟩, ⟨.operator, "<", 3⟩, ⟨.number, "20", 5⟩, ⟨.rparen, ")", 8⟩,
    ⟨.eof, "", 9⟩]

theorem stray_closing_first_mistake :
    parse strayClosing = .error (.unbalanced 8) ∧
    ∃ k t, (strayClosing ++ [suppliedEnd])[k]? = some t ∧
      SyntaxError.Blames (.unbalanced 8) t ∧
      (∃ more, Accepted (strayClosing.take k ++ more)) ∧
      (t.kind ≠ .eof → ∀ more, ¬ Accepted (strayClosing.take (k + 1) ++ more)) := by
  have hfault : parse strayClosing = .error (.unbalanced 8) := by
    obtain ⟨x, hx⟩ : ∃ x, Numeral.float? ['2', '0'] = some x :=
      Option.isSome_iff_exists.mp (by decide +kernel)
    have hsplit : splitEnd strayClosing = (strayClosing.take 4, ⟨.eof, "", 9⟩) := rfl
    unfold parse
    rw [hsplit]
    simp [strayClosing, expression, term, chain, comparison, hx, operators]
  obtain ⟨k, t, hget, hblame, -, hmore, hnone, -, -⟩ :=
    parse_error_at_first_mistake strayClosing _ (nestedWithin_of_length_le (by decide)) hfault
  exact ⟨hfault, k, t, hget, hblame, hmore, hnone⟩

end Bourse.Filter
