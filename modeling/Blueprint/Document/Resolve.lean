import Blueprint.Document.Segment

/-! # Reference resolution

The written name of a reference is the handle of an entity, `schema.entity`, or the
name of the first entity so called in the document. Which entity is found depends on
the names of schemas and entities alone, so references are resolved independently
of each other.
-/

namespace Blueprint

/-- The entity that a written name means, and how it was found. -/
inductive Target where
  /-- Found by handle; the reference then takes the qualified name. -/
  | byHandle (id : EntityId) (qualified : String)
  | byName (id : EntityId)
deriving DecidableEq, Repr

def Target.id : Target → EntityId
  | byHandle id _ => id
  | byName id => id

/-- Whether the attribute is a reference that has no target. -/
def Attribute.isOpen (a : Attribute) : Bool :=
  a.isReference && a.target.isNone

/-- Whether the attribute was reported as a reference without a target. -/
def Attribute.isLost (a : Attribute) : Bool :=
  a.defects.contains .referenceInvalid

/-- The reference with the target that was found, or with the defect that there is none. -/
def Member.resolvedTo (found : Option Target) (m : Member) : Member :=
  match found with
  | some (.byHandle id qualified) => { m with name := qualified, target := some id }
  | some (.byName id) => { m with target := some id }
  | none =>
    if m.isLost then m else { m with toAttribute := m.note [.referenceInvalid] }

/-- The attribute as it was before it was reported as a reference without a target. -/
def Member.unreported (m : Member) : Member :=
  { m with defects := m.defects.filter (· ≠ .referenceInvalid) }

namespace Document

/-- The live entity whose handle a text is. -/
def entityByHandle? (d : Document) (s : String) : Option EntityId :=
  (Handle.ofText? s).filter fun id => (d.entity? id).isSome

/-- The entity that a written name means. -/
def findTarget? (d : Document) (name : String) : Option Target :=
  match d.entityByHandle? name with
  | some id => some (.byHandle id (d.qualifiedName id))
  | none =>
    match Text.cut? "." name with
    | some (schema, entity) => (d.findEntity? schema entity).map (.byName ·.id)
    | none => (d.entities.find? (·.name = name)).map (.byName ·.id)

/-- An open reference with the target its name means, or with the defect that there is none. -/
def resolved (d : Document) (m : Member) : Member :=
  m.resolvedTo (d.findTarget? m.name)

/-- Resolve one reference. The result says whether it has a target afterwards. -/
def resolveReference (d : Document) (id : AttrId) : Document × Bool :=
  match d.member? id with
  | none => (d, false)
  | some m =>
    if m.isOpen then (d.modifyMember id d.resolved, (d.findTarget? m.name).isSome)
    else (d, m.isReference)

/-- Resolve every open reference that was not yet reported. -/
def resolveReferences (d : Document) : Document :=
  d.mapMembers fun m => if m.isOpen && !m.isLost then d.resolved m else m

/-- Give every reported reference another chance, after an entity got a new name. -/
def retryReferences (d : Document) : Document :=
  d.mapMembers fun m =>
    if m.isOpen && m.isLost then
      d.resolved m.unreported
    else m

/-- How a reference to the entity is written: by its bare name if that was so before and
still finds it, else by its qualified name. -/
def writtenName (d : Document) (e : Entity) (bare : Bool) : String :=
  if bare && d.findTarget? e.name = some (.byName e.id) then e.name else d.qualifiedName e.id

/-- The references to the given entities: their handles, their targets, and whether their
names are bare. -/
def referencesTo (d : Document) (renamed : List EntityId) : List (AttrId × EntityId × Bool) :=
  d.members.filterMap fun m =>
    (m.target.filter renamed.contains).map fun id => (m.id, id, !Text.holds "." m.name)

/-- Rename one reference to a renamed entity. -/
def retarget (d : Document) (reference : AttrId × EntityId × Bool) : Document :=
  let (id, target, bare) := reference
  match d.entity? target with
  | none => d
  | some e => (d.modifyMember id fun m => { m with name := d.writtenName e bare }).distinguish id

/-- Rename the references to renamed entities, so that their names still mean them. -/
def retargetReferences (d : Document) (renamed : List EntityId) : Document :=
  (d.referencesTo renamed).foldl retarget d

/-- The references that have no target, in document order. -/
def lostReferences (d : Document) : List Member :=
  d.members.filter fun m => m.isOpen && m.isLost

end Document

end Blueprint
