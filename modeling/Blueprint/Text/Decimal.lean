import Blueprint.Text.Blank
import Blueprint.Text.Numeral

/-! # Written decimal fractions

A decimal has an optional sign, digits with an optional point, and an optional
exponent. Its value is the nearest binary fraction with 53 significant bits, so
two decimals that differ by less than that precision compare as equal, and a
decimal too large for that format has no value.
-/

namespace Blueprint.Text

/-- The decimal `± digits * 10 ^ exponent`. -/
structure Decimal where
  negative : Bool
  digits : Nat
  exponent : Int
deriving DecidableEq, Repr

namespace Decimal

/-- The text after an optional sign, and whether that sign was a minus. -/
def sign : List Char → Bool × List Char
  | '-' :: rest => (true, rest)
  | '+' :: rest => (false, rest)
  | cs => (false, cs)

/-- The value of what follows the digits: nothing, or an exponent. -/
def exponent? : List Char → Option Int
  | [] => some 0
  | c :: rest =>
    if c = 'e' ∨ c = 'E' then
      let (negative, power) := sign rest
      (Numeral.digits? 10 power).map fun n => if negative then -(n : Int) else n
    else none

/-- The digits after a point, if there is one, and what follows them. -/
def fraction : List Char → List Char × List Char
  | '.' :: rest => (rest.takeWhile Char.isDigit, rest.dropWhile Char.isDigit)
  | cs => ([], cs)

def ofChars? (cs : List Char) : Option Decimal :=
  let (negative, rest) := sign cs
  let whole := rest.takeWhile Char.isDigit
  let (places, rest) := fraction (rest.dropWhile Char.isDigit)
  (Numeral.digits? 10 (whole ++ places)).bind fun digits =>
    (exponent? rest).map fun power => ⟨negative, digits, power - places.length⟩

/-- The whole number nearest to `num / den`; a half goes to the even neighbour. -/
def roundDiv (num den : Nat) : Nat :=
  let q := num / den
  let r := num % den
  if 2 * r < den then q
  else if den < 2 * r then q + 1
  else q + q % 2

/-- Units of `2 ^ -1074`, the spacing of the smallest binary fractions, in one. -/
def unitScale : Nat := Nat.pow 2 1074

/-- The significant bits of a binary fraction. -/
def precision : Nat := 53

/-- The magnitudes from here on are out of range. -/
def rangeEnd : Nat := Nat.pow 2 1024 * unitScale

/-- The magnitude of a decimal in units of `2 ^ -1074`, rounded to the precision. -/
def magnitude? (d : Decimal) : Option Nat :=
  if d.digits = 0 then some 0
  else
    let place := (Nat.toDigits 10 d.digits).length + d.exponent
    if 310 < place then none
    else if place < -330 then some 0
    else
      let num := d.digits * Nat.pow 10 d.exponent.toNat * unitScale
      let den := Nat.pow 10 (-d.exponent).toNat
      let spacing := Nat.pow 2 ((num / den).log2 + 1 - precision)
      let rounded := roundDiv num (den * spacing) * spacing
      if rounded < rangeEnd then some rounded else none

/-- The rounded value of a decimal in units of `2 ^ -1074`, unless it is out of range. -/
def value? (d : Decimal) : Option Int :=
  d.magnitude?.map fun m => if d.negative then -(m : Int) else m

/-- The rounded value of a written decimal; blanks around it do not count. -/
def read? (s : String) : Option Int :=
  (ofChars? (Chars.trim s.toList)).bind value?

end Decimal

end Blueprint.Text
