/-! # First occurrences

The elements of a list that are the first of their key, in order.
-/

namespace Blueprint

/-- Keep the first element of each key. -/
def distinctBy {α β : Type} [DecidableEq β] (key : α → β) : List α → List α
  | [] => []
  | x :: xs => x :: (distinctBy key xs).filter (key · ≠ key x)

/-- The pairs of an element and a later one, in order. -/
def orderedPairs {α : Type} : List α → List (α × α)
  | [] => []
  | x :: xs => xs.map (x, ·) ++ orderedPairs xs

end Blueprint
