/-! # Sorting

Insertion sort by a comparison that is given as a function.
-/

namespace Blueprint

variable {α : Type}

/-- Put an element before the first one that it does not come after. -/
def insertBy (le : α → α → Bool) (x : α) : List α → List α
  | [] => [x]
  | y :: rest => if le x y then x :: y :: rest else y :: insertBy le x rest

def sortBy (le : α → α → Bool) : List α → List α
  | [] => []
  | x :: rest => insertBy le x (sortBy le rest)

end Blueprint
