import Blueprint.Document.Column

/-! # Relations

References between entities amount to relations. An entity whose key has several
columns associates the entities that its key points at: they are related many to
many. Any other entity has one of each entity it refers to, and each of those in
turn has many of it.
-/

namespace Blueprint

structure Relation where
  base : EntityId
  has : EntityId
  /-- The entity that associates `base` with `has`. -/
  assoc : Option EntityId
  many : Bool
  optional : Bool
deriving DecidableEq, Repr

/-- The plural of a name. -/
def plural (name : String) : String :=
  match Text.stripEnd? "y" name with
  | some stem => stem ++ "ies"
  | none => if (Text.stripEnd? "s" name).isSome then name ++ "es" else name ++ "s"

namespace Document

/-- The columns of `entity` that hold the key of `target`. -/
def columnsInto (d : Document) (entity target : EntityId) : List Column :=
  (d.columns entity).filter fun c => !c.isDirect && c.owner = target

/-- The entities that the key of an entity is declared by, without repetition. -/
def keyOwners (d : Document) (entity : EntityId) : List EntityId :=
  distinctBy id ((d.primary entity).map Column.owner)

/-- The columns of an entity that come from references. -/
def referenceColumns (d : Document) (entity : EntityId) : List Column :=
  (d.columns entity).filter fun c => !c.isDirect

/-- The relations that the references of an entity suggest, seen from that entity. -/
def forwardRelations (d : Document) (e : EntityId) : List Relation :=
  if d.isComposite e then
    (orderedPairs (d.keyOwners e)).map fun (base, has) => ⟨base, has, some e, true, true⟩
  else
    (d.referenceColumns e).map fun c => ⟨e, c.owner, none, false, !c.source.required⟩

/-- The relations that the references of an entity suggest, seen from their targets. -/
def reverseRelations (d : Document) (e : EntityId) : List Relation :=
  if d.isComposite e then []
  else (d.referenceColumns e).map fun c => ⟨c.owner, e, none, true, true⟩

/-- Every suggested relation, the reverse ones last. -/
def suggestedRelations (d : Document) : List Relation :=
  let ids := d.entities.map Entity.id
  ids.flatMap d.forwardRelations ++ ids.flatMap d.reverseRelations

/-- The relations of a document: the first suggested for each pair of entities. -/
def relations (d : Document) : List Relation :=
  distinctBy (fun r => (r.base, r.has)) d.suggestedRelations

end Document

namespace Relation

/-- The relations that an entity is the base of. -/
def withBase (entity : EntityId) (relations : List Relation) : List Relation :=
  relations.filter fun r => r.base = entity

/-- The name of the `has` side, in the plural if there can be many. -/
def hasName (r : Relation) (d : Document) : String :=
  let name := d.entityName r.has
  if r.assoc.isSome || r.many then plural name else name

def name (r : Relation) (d : Document) : String :=
  d.entityName r.base ++ "_" ++ r.hasName d

/-- The columns of `base` that hold the key of `has`. -/
def baseToHas (r : Relation) (d : Document) : List Column :=
  d.columnsInto r.base r.has

/-- The columns of `has` that hold the key of `base`. -/
def hasToBase (r : Relation) (d : Document) : List Column :=
  d.columnsInto r.has r.base

/-- The columns of the associating entity that hold the keys of `base` and of `has`. -/
def assocKeys (r : Relation) (d : Document) : List Column × List Column :=
  match r.assoc with
  | some assoc => (d.columnsInto assoc r.base, d.columnsInto assoc r.has)
  | none => ([], [])

end Relation

end Blueprint
