import Blueprint.Handle
import Blueprint.Kind
import Blueprint.Text.Blank
import Blueprint.Text.Split

/-! # Attributes

An attribute is one declared property of an entity, like a column of a table.
What is wrong with it is noted on it and stops nothing else.
-/

namespace Blueprint

/-- Something wrong with a single attribute. -/
inductive Defect where
  | identifierRequired
  | kindRequired
  | kindInvalid
  | maxLengthRequired
  | bitSizeRequired
  | minMalformed
  | maxMalformed
  | maxUnderMin
  | defaultMalformed
  | referenceInvalid
deriving DecidableEq, Repr

def Defect.message : Defect → String
  | identifierRequired => "identifier required"
  | kindRequired => "kind required"
  | kindInvalid => "kind invalid"
  | maxLengthRequired => "upper range is required"
  | bitSizeRequired => "bit size is required"
  | minMalformed => "range invalid: min malformed"
  | maxMalformed => "range invalid: max malformed"
  | maxUnderMin => "range invalid: max under min"
  | defaultMalformed => "unacceptable default value"
  | referenceInvalid => "cannot find reference"

structure Attribute where
  kind : Kind := .unknown
  primary : Bool := false
  required : Bool := false
  /-- For a reference, the target as written: `entity` or `schema.entity`. -/
  name : String := ""
  /-- The name a reference goes by instead of that of its target. -/
  localName : Option String := none
  /-- Bounds keep their written form, since their meaning depends on the kind. -/
  min : Option String := none
  max : Option String := none
  defaultValue : Option String := none
  /-- Labels of the uniqueness groups the attribute belongs to. -/
  unique : List String := []
  /-- The entity a reference was resolved to. -/
  target : Option EntityId := none
  defects : List Defect := []
deriving DecidableEq, Repr, Inhabited

namespace Attribute

def isReference (a : Attribute) : Bool :=
  a.kind = .reference

def hasDefect (a : Attribute) : Bool :=
  !a.defects.isEmpty

/-- All defects in one line. -/
def defectText (a : Attribute) : String :=
  Text.joinWith ", " (a.defects.map Defect.message)

/-- What the attribute contributes to the names of columns. -/
def segment (a : Attribute) : String :=
  a.localName.getD a.name

/-- The upper bound as a size. -/
def maxSize? (a : Attribute) : Option Nat :=
  a.max.bind fun max => Text.Numeral.size? (Text.trim max)

def note (a : Attribute) (defects : List Defect) : Attribute :=
  { a with defects := a.defects ++ defects }

end Attribute

end Blueprint
