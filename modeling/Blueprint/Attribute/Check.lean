import Blueprint.Attribute.Basic
import Blueprint.Fault
import Blueprint.Moment
import Blueprint.Text.Decimal

/-! # Checks of an attribute against its kind

A serial is always a required key without a range, bounds have to be values of
the kind in order, texts and bit strings need a size, and a default value has to
be a value of the kind, which is then written in one canonical way.
-/

namespace Blueprint.Attribute

open Text

/-! ### Serials -/

/-- Serials are required keys and have no range. -/
def settleSerial (a : Attribute) : Attribute :=
  if a.kind = .serial then
    { a with primary := true, required := true, min := none, max := none }
  else a

/-! ### Ranges -/

/-- What is wrong with two bounds whose values `read` finds and `before` orders. -/
def boundDefects {α : Type} (read : String → Option α) (before : α → α → Bool)
    (min max : Option String) : List Defect :=
  (if min.any fun s => (read s).isNone then [.minMalformed] else []) ++
  (if max.any fun s => (read s).isNone then [.maxMalformed] else []) ++
  match min.bind read, max.bind read with
  | some low, some high => if before high low then [.maxUnderMin] else []
  | _, _ => []

/-- What is wrong with the range of an attribute, given its kind. -/
def rangeDefects (a : Attribute) : List Defect :=
  if a.kind = .bit then
    if a.max.isSome && a.maxSize?.isNone then [.maxMalformed] else []
  else if a.kind.isTemporal then
    boundDefects (Moment.read? a.kind) Moment.before a.min a.max
  else if a.kind.hasNumericRange then
    boundDefects Decimal.read? (fun x y => decide (x < y)) a.min a.max
  else []

/-- Note what is wrong with the range. A bit string has no lower bound. -/
def checkRange (a : Attribute) : Attribute :=
  { a.note a.rangeDefects with min := if a.kind = .bit then none else a.min }

/-! ### Sizes -/

/-- The size that a kind needs and the attribute lacks. -/
def sizeDefects (a : Attribute) : List Defect :=
  match a.kind, a.max with
  | .string, none => [.maxLengthRequired]
  | .bit, none => [.bitSizeRequired]
  | _, _ => []

/-- Note a missing size. -/
def checkSize (a : Attribute) : Attribute :=
  a.note a.sizeDefects

/-! ### Default values -/

/-- The default that stands for the current time. -/
def now : String := "now"

def truth? (s : String) : Option Bool :=
  if ["1", "t", "T", "true", "TRUE", "True"].contains s then some true
  else if ["0", "f", "F", "false", "FALSE", "False"].contains s then some false
  else none

/-- The number that a bit string spells in base two or, failing that, in base ten. -/
def bitValue? (s : String) : Option Nat :=
  (Numeral.binaryWord? s).or (Numeral.word? s)

/-- Whether a number needs at most `width` bits. Width 0 stands for an unknown size, and
from 64 bits on every number that can be read fits. -/
def fitsBits (value width : Nat) : Bool :=
  width = 0 || 64 ≤ width || value < Nat.pow 2 width

/-- The bits of a written bit string, padded to `width`. -/
def bits? (s : String) (width : Nat) : Except Fault (Option String) :=
  match bitValue? s with
  | none => .ok none
  | some value =>
    if fitsBits value width then (zeroPadded width (Numeral.binary value)).map some else .ok none

/-- The canonical form of a default value of the kind, if it is acceptable. -/
def acceptDefault (kind : Kind) (size : Option Nat) (s : String) : Except Fault (Option String) :=
  match kind with
  | .unknown | .reference => .ok none
  | .serial | .int => .ok ((Numeral.integer? s).map toString)
  | .boolean => .ok ((truth? s).map fun b => if b then "true" else "false")
  | .char => .ok (if s.toList.length = 1 then some s else none)
  | .string => .ok (some s)
  | .bit => bits? s (size.getD 0)
  | .date | .time | .timestamp =>
    .ok (if s.toList.map Char.toLower = now.toList then some now else Moment.canonical? kind s)
  | .float | .real | .decimal | .money => .ok ((Decimal.read? s).map fun _ => s)

/-- The attribute without its default value. -/
def clearDefault (a : Attribute) : Attribute :=
  { a with defaultValue := none }

/-- Keep the default value in canonical form if it is acceptable; otherwise clear it and
note the defect. -/
def settleDefault (a : Attribute) : Except Fault Attribute :=
  match a.defaultValue.bind trimmed? with
  | none => .ok a.clearDefault
  | some s =>
    (acceptDefault a.kind a.maxSize? s).map fun
      | some value => { a with defaultValue := some value }
      | none => a.clearDefault.note [.defaultMalformed]

/-! ### All checks -/

/-- The single checks of an attribute. -/
inductive Check where
  | serial
  | range
  | size
  | defaultValue
deriving DecidableEq, Repr

/-- What a check makes of an attribute, with the fault that stopped it, if any. A stopped
check has already taken the default value away. -/
def Check.run (c : Check) (a : Attribute) : Attribute × Option Fault :=
  match c with
  | .serial => (a.settleSerial, none)
  | .range => (a.checkRange, none)
  | .size => (a.checkSize, none)
  | .defaultValue =>
    match a.settleDefault with
    | .ok b => (b, none)
    | .error fault => (a.clearDefault, some fault)

/-- Every check in order. -/
def settle (a : Attribute) : Except Fault Attribute :=
  a.settleSerial.checkRange.checkSize.settleDefault

end Blueprint.Attribute
