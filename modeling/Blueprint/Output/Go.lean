import Blueprint.Output.FileId
import Blueprint.Output.Grid
import Blueprint.Output.Naming
import Blueprint.Relation

/-! # Go structs

One file per schema, with one struct per entity. Fields are aligned, defective
attributes become comments, and the relations of an entity stand above its struct.
-/

namespace Blueprint.Output.Go

open Text

def typeName : Kind → String
  | .unknown | .reference => "any"
  | .serial | .int => "int"
  | .char => "rune"
  | .string | .bit => "string"
  | .boolean => "bool"
  | .date | .time | .timestamp => "time.Time"
  | .float | .real | .decimal | .money => "float64"

def fieldName (c : Column) : String :=
  pascalName c.name

/-- The type of a field. A value that may be missing is a pointer, so that it differs from
the zero value. -/
def typeText (kind : Kind) (source : Attribute) : String :=
  let base := typeName kind
  if source.required || source.primary || base = "any" then base else "*" ++ base

def fieldType (c : Column) : String :=
  typeText c.storageKind c.source.toAttribute

def tagText (name : String) : String :=
  "`json:\"" ++ name ++ "\"`"

def fieldTag (c : Column) : String :=
  tagText c.name

/-- The cells of a field line. -/
def cells (c : Column) : List String :=
  [fieldName c, fieldType c, fieldTag c]

/-- A relation in words, given the names in it. -/
def relationText (r : Relation) (base has : String) (through : Option String) : String :=
  match through with
  | some assoc => base ++ " has many " ++ has ++ " through " ++ assoc
  | none =>
    if r.many then base ++ " has many " ++ has
    else if r.optional then base ++ " has zero or one " ++ has
    else base ++ " has one " ++ has

def describe (d : Document) (r : Relation) : String :=
  relationText r (pascalName (d.entityName r.base)) (pascalName (r.hasName d))
    (r.assoc.map fun assoc => pascalName (d.entityName assoc))

/-- The comment in the place of a defective attribute. -/
def commentText (name defects : String) : String :=
  "// " ++ name ++ " has errors: " ++ defects

/-- The comment that stands for a field, if it is not valid. -/
def comment? : Field → Option String
  | .valid _ => none
  | .invalid name defects => some (commentText name defects)

/-- Lines of fields: each field that has no comment takes the next of the aligned lines. -/
def interleave {α : Type} (comment? : α → Option String) : (aligned : List String) →
    (fields : List α) → List String
  | _, [] => []
  | aligned, field :: fields =>
    match comment? field, aligned with
    | some comment, _ => ("\t" ++ comment) :: interleave comment? aligned fields
    | none, line :: rest => ("\t" ++ line) :: interleave comment? rest fields
    | none, [] => interleave comment? [] fields

/-- The lines between the brackets of a struct. The valid fields are aligned among themselves. -/
def bodyLines (fields : List Field) : List String :=
  interleave comment? (Grid.render width ((fields.filterMap Field.column?).map cells)) fields

def structLines (d : Document) (relations : List Relation) (e : Entity) : List String :=
  ((Relation.withBase e.id relations).map fun r => "// " ++ describe d r) ++
  ["type " ++ pascalName e.name ++ " struct \x7b"] ++
  bodyLines (d.fields e.id) ++
  ["\x7d"]

/-- Whether a field of the schema holds a time. -/
def usesTime (d : Document) (s : Schema) : Bool :=
  s.entities.any fun e => (d.validColumns e.id).any fun c => c.storageKind.isTemporal

def fileLines (d : Document) (relations : List Relation) (s : Schema) : List String :=
  ["// Code generated by schemagen. DO NOT EDIT.", "", "package " ++ packageName s.name] ++
  (if usesTime d s then ["", "import \"time\""] else []) ++
  s.entities.flatMap fun e => "" :: structLines d relations e

def fileId (s : Schema) : FileId :=
  let package := packageName s.name
  ⟨package, package ++ ".go"⟩

def generate (d : Document) : Files :=
  let relations := d.relations
  .ofList (d.schemas.map fun s => (fileId s, unlines (fileLines d relations s)))

end Blueprint.Output.Go
