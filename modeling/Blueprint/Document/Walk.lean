import Blueprint.Document.Column

/-! # Columns as they are kept

What is kept of a column names its attributes and entities by handle. A walk down the
references works the columns of an entity out: it carries along the segments so far and
the reference that it started with.
-/

namespace Blueprint

/-- A column, and whether its stored attribute lies in another schema. -/
structure Flat where
  column : Column
  changesSchema : Bool
deriving DecidableEq, Repr

/-- A column, with its attributes and entities given by handle. -/
structure Entry where
  source : AttrId
  terminal : AttrId
  via? : Option EntityId
  segments : List String
  isDirect : Bool
  changesSchema : Bool
deriving DecidableEq, Repr

/-- What is kept of a column. -/
def Flat.entry (f : Flat) : Entry :=
  ⟨f.column.source.id, f.column.terminal.id, f.column.via?, f.column.segments, f.column.isDirect,
    f.changesSchema⟩

namespace Document

variable (d : Document)

/-- The columns of an entity, each with whether it changes the schema. -/
def flatten (entity : EntityId) : List Flat :=
  (d.columns entity).map fun c => ⟨c, d.changesSchema c⟩

/-- The schema of the entity that declares an attribute. -/
def schemaOfAttr? (id : AttrId) : Option SchemaId :=
  (d.ownerOf? id).bind fun e => (d.schemaOf? e.id).map Schema.id

/-- The column that ends at an attribute. -/
def entryAt (head : Option (AttrId × EntityId)) (segments : List String) (depth : Nat)
    (id : AttrId) : Entry :=
  let source := (head.map Prod.fst).getD id
  ⟨source, id, head.map Prod.snd, segments, depth = 0, d.schemaOfAttr? source ≠ d.schemaOfAttr? id⟩

/-- The columns reached from `entity` at a depth, after the given segments. The head is the
reference that was followed first, with its target. -/
def walk (maxDepth depth : Nat) (segments : List String) (head : Option (AttrId × EntityId))
    (entity : EntityId) : List Entry :=
  if depth < maxDepth then
    (d.attributesOf entity).flatMap fun m =>
      if 0 < depth && !m.primary then []
      else if m.isReference then
        match m.target with
        | some target =>
          walk maxDepth (depth + 1) (segments ++ [m.segment])
            (some (head.getD (m.id, target))) target
        | none => []
      else [d.entryAt head (segments ++ [m.segment]) depth m.id]
  else []
termination_by maxDepth - depth

/-- The columns of an entity as they are kept. -/
def entries (entity : EntityId) : List Entry :=
  d.walk d.maxDepth 0 [] none entity

end Document

end Blueprint
