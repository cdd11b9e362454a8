import Blueprint.Text.LetterCase.Tables

/-! # Lowercase and uppercase forms

Full case mappings: a character may map to a sequence, and a capital sigma that
ends a word maps to the final form.
-/

namespace Blueprint.Text.LetterCase

/-- The counterpart of a code point in the run that holds it, if any. -/
def shifted? (n : Nat) : List Run → Option Nat
  | [] => none
  | run :: rest =>
    if n < run.first then none
    else if n ≤ run.last ∧ (n - run.first) % run.stride = 0 then some (n + run.shift).toNat
    else shifted? n rest

/-- The sequence listed for a code point, else its shifted counterpart, else itself. -/
def mapChar (special : List (Nat × List Nat)) (runs : List Run) (c : Char) : List Char :=
  match shifted? c.toNat runs with
  | some n => [Char.ofNat n]
  | none =>
    match special.lookup c.toNat with
    | some ns => ns.map Char.ofNat
    | none => [c]

/-- The lowercase form of a character on its own. -/
def lowerChar (c : Char) : List Char :=
  mapChar lowerSpecial lowerRuns c

/-- The uppercase form of a character. -/
def upperChar (c : Char) : List Char :=
  if c.toNat < 0x80 then [c.toUpper] else mapChar upperSpecial upperRuns c

/-- Whether the first character that is not passed over is a letter with a case. -/
def startsCased (cs : List Char) : Bool :=
  match cs.dropWhile ignorableSet.contains with
  | [] => false
  | c :: _ => casedSet.contains c

/-- Lowercase `cs`, which follows the reversed text `before`. -/
def lowerAfter (before : List Char) : List Char → List Char
  | [] => []
  | c :: rest =>
    (if c = 'Σ' then
      if startsCased before && !startsCased rest then ['ς'] else ['σ']
    else lowerChar c) ++ lowerAfter (c :: before) rest

/-- The lowercase form of a text. -/
def lower (cs : List Char) : List Char :=
  lowerAfter [] cs

/-- The uppercase form of a text. -/
def upper (cs : List Char) : List Char :=
  cs.flatMap upperChar

end LetterCase

/-- The lowercase form of a text. -/
def lower (s : String) : String :=
  .ofList (LetterCase.lower s.toList)

/-- The uppercase form of a text. -/
def upper (s : String) : String :=
  .ofList (LetterCase.upper s.toList)

end Blueprint.Text
