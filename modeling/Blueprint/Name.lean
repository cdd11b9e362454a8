import Blueprint.Text.Word

/-! # Names

A name is an identifier that every output language accepts: lowercase letters,
digits and single underscores, starting with a letter and not ending with an
underscore. Free text is brought into that form, and a node whose text leaves
nothing gets a name from its number.
-/

namespace Blueprint.Name

/-- Characters a name can hold. -/
def isNameChar (c : Char) : Bool :=
  c.isAlphanum || c = '_'

/-- Characters a name cannot start with. -/
def cannotLead (c : Char) : Bool :=
  c = '_' || c.isDigit

/-- The text with each run of underscores shortened to one. -/
def squeeze : List Char → List Char
  | [] => []
  | [c] => [c]
  | c :: d :: rest =>
    if c = '_' ∧ d = '_' then squeeze (d :: rest) else c :: squeeze (d :: rest)

/-- The name characters of a text, without what a name cannot begin or end with. -/
def clean (cs : List Char) : List Char :=
  let kept := squeeze ((cs.filter isNameChar).dropWhile cannotLead)
  (kept.reverse.dropWhile (· = '_')).reverse

/-- Bring free text into the form of a name; the result is empty if nothing is left. -/
def normalize (s : String) : String :=
  .ofList (clean (Text.LetterCase.lower (Text.Chars.snake s.toList)))

/-- The name of a node whose own name is missing or taken. -/
def fallback (n : Nat) : String :=
  "unset_" ++ toString n

/-- The normalized text, or the fallback name of node `n` if that is empty. -/
def ofText (s : String) (n : Nat) : String :=
  let name := normalize s
  if name.isEmpty then fallback n else name

end Blueprint.Name
