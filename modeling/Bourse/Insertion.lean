/-!
Sorting by binary insertion. The longest run at the front that already ascends, or strictly
descends, is kept; each further item goes behind the items that it is not less than, as a binary
search finds them. Equal items keep their order.
-/
namespace Bourse.Insertion

variable {α : Type}

/-- The rest of a run that does not descend after `last`, and what follows it. -/
def ascending (less : α → α → Bool) (last : α) : List α → List α × List α
  | [] => ([], [])
  | x :: rest =>
    if less x last then ([], x :: rest)
    else let (run, rest) := ascending less x rest; (x :: run, rest)

/-- The rest of a run that strictly descends after `last`, and what follows it. -/
def descending (less : α → α → Bool) (last : α) : List α → List α × List α
  | [] => ([], [])
  | x :: rest =>
    if less x last then let (run, rest) := descending less x rest; (x :: run, rest)
    else ([], x :: rest)

/-- The run at the front in ascending order, and what follows it. -/
def leadingRun (less : α → α → Bool) : List α → List α × List α
  | [] => ([], [])
  | [x] => ([x], [])
  | x :: y :: rest =>
    if less y x then
      let (run, rest) := descending less y rest
      ((x :: y :: run).reverse, rest)
    else
      let (run, rest) := ascending less y rest
      (x :: y :: run, rest)

/-- The place of an item among sorted ones, between two bounds. -/
def place (less : α → α → Bool) (x : α) (sorted : List α) (low high : Nat) : Nat :=
  if low < high then
    let middle := (low + high) / 2
    match sorted[middle]? with
    | some y =>
      if less x y then place less x sorted low middle else place less x sorted (middle + 1) high
    | none => low
  else low
termination_by high - low

/-- Inserts an item behind those that it is not less than. -/
def insert (less : α → α → Bool) (sorted : List α) (x : α) : List α :=
  let index := place less x sorted 0 sorted.length
  sorted.take index ++ x :: sorted.drop index

/-- Sorts a list. -/
def sort (less : α → α → Bool) (items : List α) : List α :=
  let (run, rest) := leadingRun less items
  rest.foldl (insert less) run

end Bourse.Insertion
