import Bourse.Proofs.Text.Words
import Bourse.Text.Split
import Mathlib.Data.List.DropRight

/-! Parts of texts. A text is cut at a separator in the way of lists in general, so parts without it
come back from the text in which it stands between them. With blanks around the parts and surplus
separators they come back all the same, if blanks are cut off and what is empty is left out. -/
namespace Bourse.Text

theorem split_eq_splitOnP (isSeparator : Char → Bool) (text : List Char) :
    split isSeparator text = text.splitOnP isSeparator := by
  induction text with
  | nil => rfl
  | cons c rest ih =>
    have hcons : split isSeparator (c :: rest) = consPart isSeparator c (split isSeparator rest) :=
      rfl
    rw [hcons, ih, List.splitOnP_cons_eq_if_modifyHead]
    cases hparts : rest.splitOnP isSeparator with
    | nil => exact absurd hparts (List.splitOnP_ne_nil _ _)
    | cons part parts => rfl

theorem split_intercalate {separator : Char} {parts : List (List Char)}
    (h : ∀ part ∈ parts, separator ∉ part) (hne : parts ≠ []) :
    split (· == separator) ([separator].intercalate parts) = parts := by
  rw [split_eq_splitOnP, ← List.splitOn_eq_splitOnP, List.splitOn_intercalate separator h hne]

theorem split_append_cons {isSeparator : Char → Bool} {c : Char} (hc : isSeparator c = true)
    (front back : List Char) :
    split isSeparator (front ++ c :: back) =
      split isSeparator front ++ split isSeparator back := by
  rw [split_eq_splitOnP, split_eq_splitOnP, split_eq_splitOnP, List.splitOnP_append_cons _ _ hc]

/-! Lists with commas -/

/-- Whether a text can stand in a list: it is not empty, has no comma and neither begins nor ends
with a blank. -/
structure IsPart (part : List Char) : Prop where
  ne_nil : part ≠ []
  not_mem : ',' ∉ part
  first : part.head?.any isBlank = false
  last : part.getLast?.any isBlank = false

/-- Whether a text lists some parts: commas stand between them, with any blanks, and there may be
more commas than needed. -/
inductive Lists : List Char → List (List Char) → Prop
  | none {blanks : List Char} (h : ∀ c ∈ blanks, isBlank c = true) : Lists blanks []
  | one {before part after : List Char} (hbefore : ∀ c ∈ before, isBlank c = true)
      (hpart : IsPart part) (hafter : ∀ c ∈ after, isBlank c = true) :
      Lists (before ++ part ++ after) [part]
  | join {front back : List Char} {parts more : List (List Char)} (hfront : Lists front parts)
      (hback : Lists back more) : Lists (front ++ ',' :: back) (parts ++ more)

/-- The parts of a text between commas, without blanks around them and without empty ones. -/
def listed (text : List Char) : List (List Char) :=
  ((split (· == ',') text).map trim).filter (!·.isEmpty)

theorem listed_append_cons (front back : List Char) :
    listed (front ++ ',' :: back) = listed front ++ listed back := by
  have hsplit : split (· == ',') (front ++ ',' :: back) =
      split (· == ',') front ++ split (· == ',') back := split_append_cons rfl front back
  rw [listed, hsplit, List.map_append, List.filter_append]
  rfl

theorem listed_of_not_mem {text : List Char} (h : ',' ∉ text) :
    listed text = if trim text = [] then [] else [trim text] := by
  have hsplit : split (· == ',') text = [text] := by
    have hall : ∀ part ∈ [text], ',' ∉ part := by simpa using h
    have hparts := split_intercalate hall (List.cons_ne_nil _ _)
    rwa [List.intercalate_singleton] at hparts
  rw [listed, hsplit, List.map_singleton]
  split_ifs with hempty
  · rw [hempty]
    rfl
  · exact List.filter_cons_of_pos (by simpa using hempty)

theorem trim_of_blanks {text : List Char} (h : ∀ c ∈ text, isBlank c = true) : trim text = [] := by
  have hleft : trimLeft text = [] := List.dropWhile_eq_nil_iff.mpr h
  rw [trim, hleft]
  rfl

theorem trim_of_isPart {before part after : List Char} (hbefore : ∀ c ∈ before, isBlank c = true)
    (hpart : IsPart part) (hafter : ∀ c ∈ after, isBlank c = true) :
    trim (before ++ part ++ after) = part := by
  have hfirst : (part ++ after).head?.any isBlank = false := by
    rw [List.head?_append_of_ne_nil _ hpart.ne_nil]
    exact hpart.first
  have hlast : part.reverse.head?.any isBlank = false := by
    rw [List.head?_reverse]
    exact hpart.last
  have hleft : trimLeft (before ++ part ++ after) = part ++ after := by
    rw [trimLeft, List.append_assoc, List.dropWhile_append_of_pos hbefore,
      dropWhile_eq_self_of_head? hfirst]
  have hright : trimLeft (part ++ after).reverse = part.reverse := by
    rw [trimLeft, List.reverse_append, List.dropWhile_append_of_pos (by simpa using hafter),
      dropWhile_eq_self_of_head? hlast]
  rw [trim, hleft, trimRight, hright, List.reverse_reverse]

/-- What is left of a text without commas when its blanks are cut off can stand in a list. -/
theorem isPart_trim {text : List Char} (hcomma : ',' ∉ text) (hne : trim text ≠ []) :
    IsPart (trim text) := by
  have hfront : trim text <+: trimLeft text := List.rdropWhile_prefix isBlank (trimLeft text)
  constructor
  · exact hne
  · intro hmem
    exact hcomma ((List.dropWhile_sublist isBlank).subset (hfront.subset hmem))
  · -- the first character is the first one that is not blank
    obtain ⟨after, hleft⟩ := hfront
    have hstop : (trimLeft text).head?.any isBlank = false := any_head?_dropWhile isBlank text
    rwa [← hleft, List.head?_append_of_ne_nil _ hne] at hstop
  · have hlast := List.rdropWhile_last_not isBlank (trimLeft text) hne
    rw [List.getLast?_eq_some_getLast hne, Option.any_some]
    exact Bool.eq_false_iff.mpr hlast

/-- Every text lists the parts that stand between its commas and are not blank. -/
theorem lists_listed (text : List Char) : Lists text (listed text) := by
  by_cases hcomma : ',' ∈ text
  · obtain ⟨front, back, htext⟩ := List.append_of_mem hcomma
    rw [htext, listed_append_cons]
    exact .join (lists_listed front) (lists_listed back)
  · obtain ⟨before, after, htext, hbefore, hafter⟩ := exists_stripped isBlank text
    have hstripped : text = before ++ trim text ++ after := htext
    rw [listed_of_not_mem hcomma]
    split_ifs with hempty
    · apply Lists.none
      rw [hstripped, hempty, List.append_nil]
      exact List.forall_mem_append.mpr ⟨hbefore, hafter⟩
    · have hone : Lists (before ++ trim text ++ after) [trim text] :=
        .one hbefore (isPart_trim hcomma hempty) hafter
      rwa [← hstripped] at hone
termination_by text.length
decreasing_by
  · rw [htext, List.length_append, List.length_cons]
    omega
  · rw [htext, List.length_append, List.length_cons]
    omega

theorem lists_iff {text : List Char} {parts : List (List Char)} :
    Lists text parts ↔ listed text = parts := by
  constructor
  · intro h
    have hblank {blanks : List Char} (hblanks : ∀ c ∈ blanks, isBlank c = true) :
        ',' ∉ blanks := fun hmem => absurd (hblanks ',' hmem) (by decide +kernel)
    induction h with
    | none hblanks => rw [listed_of_not_mem (hblank hblanks), if_pos (trim_of_blanks hblanks)]
    | @one before part after hbefore hpart hafter =>
      have hcomma : ',' ∉ before ++ part ++ after := by
        rw [List.mem_append, List.mem_append]
        rintro ((hmem | hmem) | hmem)
        · exact hblank hbefore hmem
        · exact hpart.not_mem hmem
        · exact hblank hafter hmem
      rw [listed_of_not_mem hcomma, trim_of_isPart hbefore hpart hafter, if_neg hpart.ne_nil]
    | join hfront hback ihfront ihback => rw [listed_append_cons, ihfront, ihback]
  · rintro rfl
    exact lists_listed text

end Bourse.Text
