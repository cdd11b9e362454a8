/-! # Sets of code points

A set is given by closed intervals in increasing order, so a search can stop at
the first interval that starts above the character.
-/

namespace Blueprint.Text

/-- Code points as closed intervals, in increasing order. -/
abbrev CodeSet := List (Nat × Nat)

/-- Whether one of the intervals holds the character. -/
def CodeSet.contains : CodeSet → Char → Bool
  | [], _ => false
  | (first, last) :: rest, c =>
    if c.toNat < first then false
    else if c.toNat ≤ last then true
    else CodeSet.contains rest c

end Blueprint.Text
