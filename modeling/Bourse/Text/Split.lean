/-!
Cutting a text at its separators. The parts between separators come in order, the empty ones too,
so there is always one part more than there are separators.
-/
namespace Bourse.Text

/-- Puts a character before the parts of the text that follows it: a separator starts a part, and
any other character joins the first one. -/
def consPart (isSeparator : Char → Bool) (c : Char) : List (List Char) → List (List Char)
  | [] => [[c]]
  | part :: parts => if isSeparator c then [] :: part :: parts else (c :: part) :: parts

/-- The parts of a text between separators. -/
def split (isSeparator : Char → Bool) (text : List Char) : List (List Char) :=
  text.foldr (consPart isSeparator) [[]]

/-- There is one part more than there are separators. -/
theorem length_split (isSeparator : Char → Bool) (text : List Char) :
    (split isSeparator text).length = text.countP isSeparator + 1 := by
  induction text with
  | nil => rfl
  | cons c rest ih =>
    have hcons : split isSeparator (c :: rest) =
        consPart isSeparator c (split isSeparator rest) := rfl
    rw [hcons, List.countP_cons]
    cases h : split isSeparator rest with
    | nil => simp [h] at ih
    | cons part parts =>
      rw [h, List.length_cons] at ih
      by_cases hc : isSeparator c = true <;> simp [consPart, hc] <;> omega

end Bourse.Text
