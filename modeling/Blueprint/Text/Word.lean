import Blueprint.Text.Cluster
import Blueprint.Text.LetterCase
import Blueprint.Text.Split

/-! # Words of an identifier

An identifier is cut into words at underscores, hyphens and spaces, at changes
between letters and digits, before a capital that follows a small letter, and
before the last capital of an acronym. Case styles join the words again.
-/

namespace Blueprint.Text

namespace Cluster

/-- A cluster that is its own uppercase form and has another lowercase form. -/
def isUpper (c : List Char) : Bool :=
  LetterCase.upper c ≠ LetterCase.lower c && c = LetterCase.upper c

/-- A cluster that is its own lowercase form and has another uppercase form. -/
def isLower (c : List Char) : Bool :=
  LetterCase.upper c ≠ LetterCase.lower c && c = LetterCase.lower c

def isDigit (c : List Char) : Bool :=
  c.all Char.isDigit

/-- A cluster that stands between two words and belongs to neither. -/
def isSeparator (c : List Char) : Bool :=
  c = ['_'] || c = ['-'] || c = [' ']

/-- Whether a word ends with `c` when `rest` follows. -/
def endsWord (c : List Char) (rest : List (List Char)) : Bool :=
  match rest with
  | [] => false
  | d :: more =>
    isLower c && (isUpper d || isDigit d) ||
    isUpper c && isDigit d ||
    isDigit c && (isLower d || isUpper d) ||
    isUpper c && isUpper d && more.head?.any isLower

/-- The words that a sequence of clusters spells; there is always at least one. -/
def words : List (List Char) → List (List Char)
  | [] => [[]]
  | c :: rest =>
    if isSeparator c then [] :: words rest
    else if endsWord c rest then c :: words rest
    else
      match words rest with
      | [] => [c]
      | word :: more => (c ++ word) :: more

end Cluster

namespace Chars

/-- The words of a text, empty ones included; the empty text has none. -/
def words (cs : List Char) : List (List Char) :=
  if cs.isEmpty then [] else Cluster.words (Cluster.split cs)

/-- The word with its first character in uppercase and the others in lowercase. -/
def capitalize : List Char → List Char
  | [] => []
  | c :: rest => LetterCase.upperChar c ++ LetterCase.lower rest

/-- Lowercase words joined by underscores. -/
def snake (cs : List Char) : List Char :=
  ['_'].intercalate ((words cs).map LetterCase.lower)

/-- Lowercase words joined by hyphens. -/
def kebab (cs : List Char) : List Char :=
  ['-'].intercalate ((words cs).map LetterCase.lower)

/-- Capitalized words without a separator. -/
def pascal (cs : List Char) : List Char :=
  (words cs).flatMap capitalize

/-- A lowercase word, then capitalized words, without a separator. -/
def camel (cs : List Char) : List Char :=
  match words cs with
  | [] => []
  | word :: more => LetterCase.lower word ++ more.flatMap capitalize

end Chars

/-- Lowercase words joined by underscores. -/
def snake (s : String) : String :=
  .ofList (Chars.snake s.toList)

/-- Lowercase words joined by hyphens. -/
def kebab (s : String) : String :=
  .ofList (Chars.kebab s.toList)

/-- Capitalized words without a separator. -/
def pascal (s : String) : String :=
  .ofList (Chars.pascal s.toList)

/-- A lowercase word, then capitalized words, without a separator. -/
def camel (s : String) : String :=
  .ofList (Chars.camel s.toList)

end Blueprint.Text
