import Blueprint.Kind
import Blueprint.Text.Numeral

/-! # Moments

Calendar dates and times of day as written in defaults and ranges. Each temporal
kind reads its own form, and all of them become a point in time so that bounds
can be compared.
-/

namespace Blueprint

/-- A point in time on the Gregorian calendar extended to all years. Second 60 is a
leap second. -/
structure Moment where
  year : Int
  month : Nat
  day : Nat
  hour : Nat
  minute : Nat
  second : Nat
deriving DecidableEq, Repr

namespace Moment

open Text

def isLeapYear (y : Int) : Bool :=
  y % 4 = 0 && (y % 100 ≠ 0 || y % 400 = 0)

def daysIn (y : Int) (month : Nat) : Nat :=
  match month with
  | 2 => if isLeapYear y then 29 else 28
  | 4 | 6 | 9 | 11 => 30
  | _ => 31

/-- Whether the date exists and its year can be represented. -/
def isDate (year : Int) (month day : Nat) : Bool :=
  -262143 ≤ year && year ≤ 262142 && 1 ≤ month && month ≤ 12 && 1 ≤ day && day ≤ daysIn year month

/-- Whether the time of day exists. -/
def isClock (hour minute second : Nat) : Bool :=
  hour ≤ 23 && minute ≤ 59 && second ≤ 60

/-- Whether every part of the moment exists. -/
def isValid (m : Moment) : Bool :=
  isDate m.year m.month m.day && isClock m.hour m.minute m.second

/-! ### Reading -/

/-- A number of up to `most` digits after any blanks, and the text after it. -/
def number? (most : Nat) (cs : List Char) : Option (Nat × List Char) :=
  let cs := Chars.trimStart cs
  let digits := (cs.take most).takeWhile Char.isDigit
  (Numeral.digits? 10 digits).map fun n => (n, cs.drop digits.length)

/-- A number of any length with no blank before it, and the text after it. -/
def unbounded? (cs : List Char) : Option (Nat × List Char) :=
  (Numeral.digits? 10 (cs.takeWhile Char.isDigit)).map fun n => (n, cs.dropWhile Char.isDigit)

/-- A year after any blanks: up to four digits, or any number of them after a sign. -/
def year? (cs : List Char) : Option (Int × List Char) :=
  match Chars.trimStart cs with
  | '-' :: rest => (unbounded? rest).map fun (n, rest) => (-(n : Int), rest)
  | '+' :: rest => (unbounded? rest).map fun (n, rest) => ((n : Int), rest)
  | cs => (number? 4 cs).map fun (n, rest) => ((n : Int), rest)

/-- The text after one expected character. -/
def expect? (c : Char) : List Char → Option (List Char)
  | [] => none
  | d :: rest => if c = d then some rest else none

/-- A year, a month and a day with hyphens between them, and the text after them. -/
def date? (cs : List Char) : Option ((Int × Nat × Nat) × List Char) := do
  let (year, cs) ← year? cs
  let cs ← expect? '-' cs
  let (month, cs) ← number? 2 cs
  let cs ← expect? '-' cs
  let (day, cs) ← number? 2 cs
  return ((year, month, day), cs)

/-- An hour, a minute and a second with colons between them, and the text after them. -/
def clock? (cs : List Char) : Option ((Nat × Nat × Nat) × List Char) := do
  let (hour, cs) ← number? 2 cs
  let cs ← expect? ':' cs
  let (minute, cs) ← number? 2 cs
  let cs ← expect? ':' cs
  let (second, cs) ← number? 2 cs
  return ((hour, minute, second), cs)

/-- The date and the time of day that a text of the kind spells, in full. -/
def fields? (kind : Kind) (cs : List Char) : Option Moment :=
  match kind with
  | .date =>
    match date? cs with
    | some ((year, month, day), []) => some ⟨year, month, day, 0, 0, 0⟩
    | _ => none
  | .time =>
    match clock? cs with
    | some ((hour, minute, second), []) => some ⟨1970, 1, 1, hour, minute, second⟩
    | _ => none
  | .timestamp =>
    match date? cs with
    | some ((year, month, day), cs) =>
      match clock? (Chars.trimStart cs) with
      | some ((hour, minute, second), []) => some ⟨year, month, day, hour, minute, second⟩
      | _ => none
    | _ => none
  | _ => none

/-- Read a value of a temporal kind. A time of day falls on the first of January 1970. -/
def read? (kind : Kind) (s : String) : Option Moment :=
  (fields? kind s.toList).filter isValid

/-! ### Order -/

/-- The order of moments in time. -/
def compare (a b : Moment) : Ordering :=
  (Ord.compare a.year b.year).then <| (Ord.compare a.month b.month).then <|
  (Ord.compare a.day b.day).then <| (Ord.compare a.hour b.hour).then <|
  (Ord.compare a.minute b.minute).then <| Ord.compare a.second b.second

/-- Whether `a` comes before `b`. -/
def before (a b : Moment) : Bool :=
  a.compare b == .lt

/-! ### Writing -/

/-- A number written with at least `width` digits. -/
def padded (width n : Nat) : String :=
  padStart '0' width (toString n)

/-- Years of four digits are written plain, all others with a sign. -/
def yearText (y : Int) : String :=
  if y < 0 then "-" ++ padded 4 y.natAbs
  else if y ≤ 9999 then padded 4 y.toNat
  else "+" ++ padded 4 y.toNat

def dateText (m : Moment) : String :=
  yearText m.year ++ "-" ++ padded 2 m.month ++ "-" ++ padded 2 m.day

def clockText (m : Moment) : String :=
  padded 2 m.hour ++ ":" ++ padded 2 m.minute ++ ":" ++ padded 2 m.second

/-- Write a moment in the form of a temporal kind. -/
def render? (kind : Kind) (m : Moment) : Option String :=
  match kind with
  | .date => some m.dateText
  | .time => some m.clockText
  | .timestamp => some (m.dateText ++ " " ++ m.clockText)
  | _ => none

/-- The one way to write the value that a text of a temporal kind spells. -/
def canonical? (kind : Kind) (s : String) : Option String :=
  (read? kind s).bind (render? kind)

end Moment

end Blueprint
