import Bourse.Proofs.Entries
import Bourse.Proofs.Lists
import Bourse.Proofs.Symbols
import Bourse.Proofs.Text.Split

/-! The symbols that arguments and the input name. A text names the parts between its separators,
however many of these there are. Of all the parts in upper case those that are symbols are collected,
where they first occur. So what is collected depends on the parts and their order alone, and not on the
texts into which they are divided. -/
namespace Bourse.Symbols

/-! Parts -/

/-- Whether a text can be a part: it is not empty and has no separator. -/
structure IsPart (text : List Char) : Prop where
  ne_nil : text ≠ []
  plain : ∀ c ∈ text, isSeparator c = false

/-- Whether a text names parts: they stand in it in their order, with separators between them, and
there may be more separators than needed. -/
inductive Names : List Char → List (List Char) → Prop
  | none : Names [] []
  | one {part : List Char} (h : IsPart part) : Names part [part]
  | join {c : Char} {front back : List Char} {parts more : List (List Char)}
    (hc : isSeparator c = true) (hfront : Names front parts) (hback : Names back more) :
    Names (front ++ c :: back) (parts ++ more)

theorem parts_append_cons {c : Char} (hc : isSeparator c = true) (front back : List Char) :
    parts (front ++ c :: back) = parts front ++ parts back := by
  rw [parts, Text.split_append_cons hc, List.filter_append]
  rfl

theorem parts_of_plain {text : List Char} (h : ∀ c ∈ text, isSeparator c = false) :
    parts text = if text = [] then [] else [text] := by
  have hsplit : Text.split isSeparator text = [text] := by
    rw [Text.split_eq_splitOnP, List.splitOnP_eq_singleton h]
  rw [parts, hsplit]
  split_ifs with hempty
  · rw [hempty]
    rfl
  · exact List.filter_cons_of_pos (by simpa using hempty)

/-- Every text names the parts that are found in it. -/
theorem names_parts (text : List Char) : Names text (parts text) := by
  by_cases hplain : ∀ c ∈ text, isSeparator c = false
  · rw [parts_of_plain hplain]
    split_ifs with hempty
    · rw [hempty]
      exact .none
    · exact .one ⟨hempty, hplain⟩
  · -- at any separator the text comes apart into two shorter ones
    push Not at hplain
    obtain ⟨c, hmem, hc⟩ := hplain
    obtain ⟨front, back, htext⟩ := List.append_of_mem hmem
    rw [htext, parts_append_cons (by simpa using hc)]
    exact .join (by simpa using hc) (names_parts front) (names_parts back)
termination_by text.length
decreasing_by
  · rw [htext, List.length_append, List.length_cons]
    omega
  · rw [htext, List.length_append, List.length_cons]
    omega

theorem names_iff {text : List Char} {named : List (List Char)} :
    Names text named ↔ parts text = named := by
  constructor
  · intro h
    induction h with
    | none => rfl
    | one hpart => rw [parts_of_plain hpart.plain, if_neg hpart.ne_nil]
    | join hc _ _ ihfront ihback => rw [parts_append_cons hc, ihfront, ihback]
  · rintro rfl
    exact names_parts text

/-- Whether texts name parts one after another. -/
def NamesAll (texts : List String) (named : List (List Char)) : Prop :=
  ∃ groups, List.Forall₂ (fun text group => Names text.toList group) texts groups ∧
    groups.flatten = named

theorem namesAll_iff {texts : List String} {named : List (List Char)} :
    NamesAll texts named ↔ (texts.flatMap fun text => parts text.toList) = named := by
  have hgroups (groups : List (List (List Char))) :
      List.Forall₂ (fun text group => Names text.toList group) texts groups ↔
        texts.map (fun text => parts text.toList) = groups := by
    rw [← List.forall₂_eq_eq_eq, List.forall₂_map_left_iff]
    simp only [names_iff]
  simp only [NamesAll, hgroups, exists_eq_left', List.flatMap_def]

/-! Symbols -/

/-- The characters of symbols. -/
def alphabet : List Char := "ABCDEFGHIJKLMNOPQRSTUVWXYZ0123456789.-^=".toList

/-- Whether a text is a symbol. -/
structure IsSymbol (text : String) : Prop where
  ne_empty : 1 ≤ text.length
  length_le : text.length ≤ 12
  chars : ∀ c ∈ text.toList, c ∈ alphabet

theorem mem_alphabet_iff {c : Char} : c ∈ alphabet ↔ isSymbolChar c = true := by
  have hcodes : ∀ code < 128,
      (Char.ofNat code ∈ alphabet ↔ isSymbolChar (Char.ofNat code) = true) := by
    decide +kernel
  have hsmall : ∀ d ∈ alphabet, d.toNat < 128 := by
    have hall : (alphabet.all fun d => d.toNat < 128) = true := by decide
    simpa using hall
  -- neither side holds beyond ASCII
  rcases Nat.lt_or_ge c.toNat 128 with hc | hc
  · have hcode := hcodes c.toNat hc
    rwa [Char.ofNat_toNat] at hcode
  · apply iff_of_false
    · intro hmem
      exact absurd (hsmall c hmem) (by omega)
    · intro hsymbol
      have := toNat_of_isSymbolChar hsymbol
      omega

theorem isValid_iff {text : String} : isValid text.toList = true ↔ IsSymbol text := by
  have hparts : IsSymbol text ↔
      1 ≤ text.length ∧ text.length ≤ 12 ∧ ∀ c ∈ text.toList, c ∈ alphabet :=
    ⟨fun h => ⟨h.ne_empty, h.length_le, h.chars⟩, fun h => ⟨h.1, h.2.1, h.2.2⟩⟩
  simp only [hparts, mem_alphabet_iff, isValid, mostChars, Bool.and_eq_true, decide_eq_true_eq,
    List.all_eq_true, Bool.not_eq_true', List.isEmpty_eq_false_iff, ← List.length_pos_iff,
    String.length_toList, and_assoc]
  rfl

instance : DecidablePred IsSymbol := fun _ => decidable_of_iff _ isValid_iff

/-! Collecting -/

/-- A part in upper case. -/
def upperPart (part : List Char) : String := Text.upper (String.ofList part)

/-- The symbols among parts in upper case, where they first occur. -/
def firstSymbols (named : List (List Char)) : List String :=
  ((named.map upperPart).filter fun text => IsSymbol text).eraseDups

/-- One more part is found if it is a symbol that was not found before. -/
theorem result_enter (found : Logged (List String)) (part : List Char) :
    (enter found part).result =
      if IsSymbol (upperPart part) ∧ upperPart part ∉ found.result then
        found.result ++ [upperPart part]
      else found.result := by
  unfold enter
  dsimp only
  rw [← upperPart]
  by_cases hfound : upperPart part ∈ found.result
  · rw [if_pos (List.contains_iff_mem.mpr hfound), if_neg fun h => h.2 hfound]
  · rw [if_neg (List.contains_iff_mem.not.mpr hfound)]
    by_cases hsymbol : IsSymbol (upperPart part)
    · rw [if_pos (isValid_iff.mpr hsymbol), if_pos ⟨hsymbol, hfound⟩]
    · rw [if_neg (isValid_iff.not.mpr hsymbol), if_neg fun h => hsymbol h.1]

theorem firstSymbols_concat (named : List (List Char)) (part : List Char) :
    firstSymbols (named ++ [part]) =
      if IsSymbol (upperPart part) ∧ upperPart part ∉ firstSymbols named then
        firstSymbols named ++ [upperPart part]
      else firstSymbols named := by
  simp only [firstSymbols, List.map_append, List.map_singleton, List.filter_append,
    List.mem_eraseDups]
  by_cases hsymbol : IsSymbol (upperPart part)
  · have hkept : ([upperPart part].filter fun text => IsSymbol text) = [upperPart part] :=
      List.filter_eq_self.mpr (by simpa using hsymbol)
    rw [hkept, Entries.eraseDups_concat]
    simp only [hsymbol, true_and, ite_not]
  · have hdropped : ([upperPart part].filter fun text => IsSymbol text) = [] :=
      List.filter_eq_nil_iff.mpr (by simpa using hsymbol)
    rw [hdropped, List.append_nil, if_neg fun h => hsymbol h.1]

theorem result_foldl_enter (named : List (List Char)) :
    (named.foldl enter ⟨[], []⟩).result = firstSymbols named := by
  -- parts are entered one by one behind those that were found, so the induction is from the end
  induction named using List.reverseRecOn with
  | nil => rfl
  | append_singleton named part ih =>
    rw [List.foldl_concat, result_enter, firstSymbols_concat, ih]

/-! The texts -/

/-- The arguments that stand for themselves. -/
def ownTexts (arguments : List String) : List String := arguments.filter (· != inputMark)

/-- The texts in which parts are looked for: the arguments other than the mark, and after them the
input, if the mark is an argument, or if there are no arguments and the input is no terminal. -/
def texts (arguments : List String) (input : String) (terminal : Bool) : List String :=
  ownTexts arguments ++
    if inputMark ∈ arguments ∨ arguments = [] ∧ terminal = false then [input] else []

theorem sources_eq_texts (arguments : List String) (input : String) (terminal : Bool) :
    sources arguments input terminal = texts arguments input terminal := by
  have hreads : readsInput arguments terminal = true ↔
      inputMark ∈ arguments ∨ arguments = [] ∧ terminal = false := by
    simp [readsInput]
  simp only [sources, texts, ownTexts, hreads]

theorem result_collect {arguments : List String} {input : String} {terminal : Bool}
    {named : List (List Char)} (h : NamesAll (texts arguments input terminal) named) :
    (collect arguments input terminal).result = firstSymbols named := by
  rw [collect, sources_eq_texts, namesAll_iff.mp h, result_foldl_enter]

/-- Arguments and an input that name the same parts each name the same parts together, if the input is
read with both of them or with none. -/
theorem NamesAll.regroup {arguments arguments' : List String} {input input' : String}
    {terminal : Bool} (hmark : inputMark ∈ arguments' ↔ inputMark ∈ arguments)
    (hempty : arguments' = [] ↔ arguments = [])
    (hown : ∀ own, NamesAll (ownTexts arguments) own → NamesAll (ownTexts arguments') own)
    (hinput : ∀ more, Names input.toList more → Names input'.toList more)
    {named : List (List Char)} (h : NamesAll (texts arguments input terminal) named) :
    NamesAll (texts arguments' input' terminal) named := by
  have hsame := namesAll_iff.mp (hown _ (namesAll_iff.mpr rfl))
  have hmore := names_iff.mp (hinput _ (names_parts input.toList))
  rw [namesAll_iff] at h ⊢
  rw [← h]
  simp only [texts, hmark, hempty, List.flatMap_append, hsame]
  congr 1
  split_ifs
  · rw [List.flatMap_singleton, List.flatMap_singleton, hmore]
  · rfl

/-- What is collected are the first occurrences, in their order, of the symbols among the parts in upper
case: each of them once, and the same for all texts that name the same parts. This holds of arguments
and an input that name the same parts as others, if the mark is among both or none of the arguments,
and both or none of them are empty. -/
theorem first_symbols_are_collected (arguments : List String) (input : String) (terminal : Bool) :
    ∃ named, NamesAll (texts arguments input terminal) named ∧
      (collect arguments input terminal).result = firstSymbols named ∧
      (collect arguments input terminal).result.Nodup ∧
      (∀ symbol ∈ (collect arguments input terminal).result, IsSymbol symbol) ∧
      (∀ arguments' input' terminal', NamesAll (texts arguments' input' terminal') named →
        (collect arguments' input' terminal').result =
          (collect arguments input terminal).result) ∧
      ∀ arguments' input', (inputMark ∈ arguments' ↔ inputMark ∈ arguments) →
        (arguments' = [] ↔ arguments = []) →
        (∀ own, NamesAll (ownTexts arguments) own → NamesAll (ownTexts arguments') own) →
        (∀ more, Names input.toList more → Names input'.toList more) →
        (collect arguments' input' terminal).result =
          (collect arguments input terminal).result := by
  obtain ⟨named, hnamed⟩ : ∃ named, NamesAll (texts arguments input terminal) named :=
    ⟨_, namesAll_iff.mpr rfl⟩
  have hresult := result_collect hnamed
  refine ⟨named, hnamed, hresult, ?_, ?_, ?_, ?_⟩
  · rw [hresult]
    exact Entries.nodup_eraseDups _
  · intro symbol hsymbol
    rw [hresult, firstSymbols, List.mem_eraseDups] at hsymbol
    exact of_decide_eq_true (List.mem_filter.mp hsymbol).2
  · intro arguments' input' terminal' hsame
    rw [hresult, result_collect hsame]
  · intro arguments' input' hmark hempty hown hinput
    rw [hresult, result_collect (hnamed.regroup hmark hempty hown hinput)]

/-- A list with a repeated symbol and a part that is no symbol, divided in two ways. -/
theorem divided_list_is_collected_alike :
    let arguments := ["aapl,msft", "-", "ko"]
    let arguments' := ["aapl", " msft ,ko,", "-"]
    let input := "ko t\nbad$sym AAPL"
    let input' := "\tko,,t bad$sym\n\nAAPL\n"
    (inputMark ∈ arguments' ↔ inputMark ∈ arguments) ∧ (arguments' = [] ↔ arguments = []) ∧
      (∀ own, NamesAll (ownTexts arguments) own → NamesAll (ownTexts arguments') own) ∧
      (∀ more, Names input.toList more → Names input'.toList more) ∧
      (collect arguments' input' false).result = (collect arguments input false).result ∧
      (collect arguments input false).result = ["AAPL", "MSFT", "KO", "T"] := by
  intro arguments arguments' input input'
  have hmark : inputMark ∈ arguments' ↔ inputMark ∈ arguments := by decide
  have hempty : arguments' = [] ↔ arguments = [] := by decide
  have hown : ∀ own, NamesAll (ownTexts arguments) own → NamesAll (ownTexts arguments') own := by
    have hparts : ((ownTexts arguments').flatMap fun text => parts text.toList) =
        (ownTexts arguments).flatMap fun text => parts text.toList := by decide +kernel
    intro own h
    rw [namesAll_iff] at h ⊢
    rw [hparts, h]
  have hinput : ∀ more, Names input.toList more → Names input'.toList more := by
    have hparts : parts input'.toList = parts input.toList := by decide +kernel
    intro more h
    rw [names_iff] at h ⊢
    rw [hparts, h]
  obtain ⟨-, -, -, -, -, -, halike⟩ := first_symbols_are_collected arguments input false
  exact ⟨hmark, hempty, hown, hinput, halike arguments' input' hmark hempty hown hinput,
    by decide +kernel⟩

end Bourse.Symbols
