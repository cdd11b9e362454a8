import Blueprint.Text.Split

/-! # Written whole numbers

A numeral is a nonempty run of ASCII digits with an optional sign; nothing else
may stand before, between or after them. Readers take the bound that the value
has to stay under.
-/

namespace Blueprint.Text.Numeral

/-- The value of a digit of the given base. -/
def digit? (base : Nat) (c : Char) : Option Nat :=
  if c.isDigit && c.toNat - '0'.toNat < base then some (c.toNat - '0'.toNat) else none

/-- The value of a run of digits that continues a number of value `high`. -/
def digitsFrom? (base : Nat) (high : Nat) : List Char → Option Nat
  | [] => some high
  | c :: rest => (digit? base c).bind fun d => digitsFrom? base (base * high + d) rest

/-- The value of a nonempty run of digits. -/
def digits? (base : Nat) (cs : List Char) : Option Nat :=
  if cs.isEmpty then none else digitsFrom? base 0 cs

/-- A number below `bound`, with an optional `+`. -/
def natural? (base bound : Nat) (cs : List Char) : Option Nat :=
  (digits? base ((Chars.stripStart? ['+'] cs).getD cs)).filter (· < bound)

/-- A decimal number of size, count or handle: below `2 ^ 32`. -/
def size? (s : String) : Option Nat :=
  natural? 10 (Nat.pow 2 32) s.toList

/-- A decimal number below `2 ^ 64`. -/
def word? (s : String) : Option Nat :=
  natural? 10 (Nat.pow 2 64) s.toList

/-- A binary number below `2 ^ 64`. -/
def binaryWord? (s : String) : Option Nat :=
  natural? 2 (Nat.pow 2 64) s.toList

/-- A decimal number from `-2 ^ 63` up to and excluding `2 ^ 63`. -/
def integer? (s : String) : Option Int :=
  match s.toList with
  | '-' :: rest => ((digits? 10 rest).filter (· ≤ Nat.pow 2 63)).map fun n => -(n : Int)
  | cs => (natural? 10 (Nat.pow 2 63) cs).map fun n => (n : Int)

/-- The digits of a number in base two. -/
def binary (n : Nat) : String :=
  .ofList (Nat.toDigits 2 n)

end Blueprint.Text.Numeral
