import Bourse.Market.Bar
/-!
Batches: what became of a request for the histories of several symbols.
-/
namespace Bourse

/-- The histories that were found, and the messages for the symbols that failed. -/
structure Batch where
  histories : List (String × History) := []
  failed : List (String × String) := []

end Bourse
