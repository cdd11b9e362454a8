import Blueprint.Text.Blank
import Blueprint.Text.LetterCase

/-! # Kinds of attributes

What an attribute holds. A kind is written with one of several keywords and
printed with one of them.
-/

namespace Blueprint

inductive Kind where
  | unknown
  | reference
  | serial
  | int
  | char
  | string
  | bit
  | boolean
  | date
  | time
  | timestamp
  | float
  | real
  | decimal
  | money
deriving DecidableEq, Repr, Inhabited

namespace Kind

/-- Every accepted spelling of a kind, in lowercase. -/
def spellings : List (String × Kind) := [
  ("++", serial), ("auto", serial), ("auto increment", serial), ("increment", serial),
  ("int", int), ("integer", int), ("digit", int),
  ("bool", boolean), ("boolean", boolean),
  ("str", string), ("string", string), ("varchar", string),
  ("ts", timestamp), ("timestamp", timestamp), ("datetime", timestamp),
  ("date", date), ("time", time), ("bit", bit),
  ("char", char), ("character", char),
  ("dec", decimal), ("decimal", decimal),
  ("real", float), ("float", float),
  ("ref", reference), ("reference", reference),
  ("money", money)]

/-- The kind that a keyword names, whatever its letter case and the blanks around it. -/
def ofText (s : String) : Kind :=
  (spellings.lookup (Text.lower (Text.trim s))).getD unknown

/-- The keyword a kind is printed with. -/
def keyword : Kind → String
  | unknown => "???"
  | reference => "reference"
  | serial => "++"
  | int => "int"
  | char => "char"
  | string => "string"
  | bit => "bit"
  | boolean => "bool"
  | date => "date"
  | time => "time"
  | timestamp => "timestamp"
  | float => "float"
  | real => "real"
  | decimal => "decimal"
  | money => "money"

/-- Kinds whose values are dates, times or both. -/
def isTemporal : Kind → Bool
  | date | time | timestamp => true
  | _ => false

/-- Kinds whose range has numbers for bounds; for texts these bound the length. -/
def hasNumericRange : Kind → Bool
  | serial | int | char | string | float | real | decimal | money => true
  | _ => false

/-- The pattern that values of a temporal kind are written in. -/
def pattern? : Kind → Option String
  | date => some "%Y-%m-%d"
  | time => some "%H:%M:%S"
  | timestamp => some "%Y-%m-%d %H:%M:%S"
  | _ => none

end Kind

end Blueprint
