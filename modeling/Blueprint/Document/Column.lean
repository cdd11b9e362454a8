import Blueprint.Distinct
import Blueprint.Document.Basic

/-! # Columns

An entity is stored as columns. A plain attribute is a column of its own, and a
reference stands for the key of its target: the primary attributes found there,
through further references if need be. So a column is a chain of references that
ends at a plain attribute.
-/

namespace Blueprint

/-- The kind that is stored. A serial that is reached by reference is a plain number. -/
def Kind.stored (kind : Kind) (isDirect : Bool) : Kind :=
  if kind = .serial && !isDirect then .int else kind

structure Column where
  /-- The entity the column belongs to. -/
  root : EntityId
  /-- The references followed, outermost first. -/
  hops : List Member
  /-- The plain attribute that is stored. -/
  terminal : Member
  /-- The entity that declares `terminal`. -/
  owner : EntityId
deriving DecidableEq, Repr

namespace Column

/-- Whether the stored attribute is declared by the entity itself. -/
def isDirect (c : Column) : Bool :=
  c.hops.isEmpty

/-- The attribute of the entity that the column comes from. -/
def source (c : Column) : Member :=
  c.hops.headD c.terminal

/-- The entity that the first reference points at. -/
def via? (c : Column) : Option EntityId :=
  c.hops.head?.bind fun m => m.target

/-- The segments of all attributes of the chain, outermost first. -/
def segments (c : Column) : List String :=
  (c.hops ++ [c.terminal]).map fun m => m.segment

/-- Segments as the name of a column. -/
def nameOf (segments : List String) : String :=
  Text.replaceChar '.' '_' (Text.joinWith "_" segments)

def name (c : Column) : String :=
  nameOf c.segments

/-- The segments with dots between them. -/
def path (c : Column) : String :=
  Text.joinWith "." c.segments

/-- The name of the column that is pointed at in the entity `via?`. -/
def viaColumn? (c : Column) : Option String :=
  if c.isDirect then none else some (nameOf c.segments.tail)

/-- Whether neither end of the chain has a defect. -/
def isValid (c : Column) : Bool :=
  !c.source.hasDefect && !c.terminal.hasDefect

def storageKind (c : Column) : Kind :=
  c.terminal.kind.stored c.isDirect

end Column

namespace Document

/-- The columns reached from `entity` after `hops`, over at most `depth` further attributes.
After the first attribute only primary ones are followed. -/
def columnsFrom (d : Document) (root : EntityId) :
    (depth : Nat) → (hops : List Member) → (entity : EntityId) → List Column
  | 0, _, _ => []
  | depth + 1, hops, entity =>
    (d.attributesOf entity).flatMap fun m =>
      if !hops.isEmpty && !m.primary then []
      else if m.isReference then
        match m.target with
        | some target => d.columnsFrom root depth (hops ++ [m]) target
        | none => []
      else [⟨root, hops, m, entity⟩]

/-- The columns of an entity, in the order their attributes are declared. -/
def columns (d : Document) (entity : EntityId) : List Column :=
  d.columnsFrom entity d.maxDepth [] entity

/-- Whether the stored attribute of a column lies in another schema. -/
def changesSchema (d : Document) (c : Column) : Bool :=
  (d.schemaOf? c.root).map Schema.id ≠ (d.schemaOf? c.owner).map Schema.id

/-- The columns that make up the key of an entity. -/
def primary (d : Document) (entity : EntityId) : List Column :=
  (d.columns entity).filter fun c => c.isValid && c.source.primary

/-- Whether the key of an entity has more than one column. -/
def isComposite (d : Document) (entity : EntityId) : Bool :=
  1 < (d.primary entity).length

/-- The valid columns of an entity under each of their uniqueness labels. -/
def labelled (d : Document) (entity : EntityId) : List (String × Column) :=
  ((d.columns entity).filter Column.isValid).flatMap fun c => c.source.unique.map (·, c)

/-- The uniqueness groups of an entity, by label in increasing order. -/
def uniqueGroups (d : Document) (entity : EntityId) : List (String × List Column) :=
  let pairs := d.labelled entity
  let labels := (distinctBy id (pairs.map Prod.fst)).mergeSort fun a b => decide (a ≤ b)
  labels.map fun label => (label, (pairs.filter fun p => p.1 = label).map Prod.snd)

end Document

/-- A place among the fields of an entity. -/
inductive Field where
  | valid (c : Column)
  /-- What stands in for a defective attribute. -/
  | invalid (name : String) (defects : String)
deriving DecidableEq, Repr

/-- The column of a valid field. -/
def Field.column? : Field → Option Column
  | valid c => some c
  | invalid _ _ => none

/-- A column as a field. -/
def Field.ofColumn (c : Column) : Field :=
  if c.isValid then .valid c else .invalid c.name c.terminal.defectText

namespace Document

/-- The fields of an entity: its columns in the order their attributes are declared, with
defective attributes in their places. -/
def fields (d : Document) (entity : EntityId) : List Field :=
  let columns := d.columns entity
  (d.attributesOf entity).flatMap fun m =>
    if m.hasDefect then [.invalid (Text.replaceChar '.' '_' m.segment) m.defectText]
    else (columns.filter fun c => c.source.id = m.id).map .ofColumn

/-- The columns of the valid fields, in field order. -/
def validColumns (d : Document) (entity : EntityId) : List Column :=
  (d.fields entity).filterMap Field.column?

end Document

end Blueprint
