import Blueprint.Attribute.Reader
import Blueprint.Document.Resolve

/-! # Edits

Single changes to a document. An edit that is given a stale handle fails and names
that handle; the document is then left as it was.
-/

namespace Blueprint

inductive EditError where
  | unknownSchema (id : SchemaId)
  | unknownEntity (id : EntityId)
  | unknownAttribute (id : AttrId)
  /-- An attribute line could not be read to its end. -/
  | fault (f : Fault)
deriving DecidableEq, Repr

def EditError.message : EditError → String
  | unknownSchema id => "unknown schema: " ++ id.text
  | unknownEntity id => "unknown entity: " ++ id.text
  | unknownAttribute id => "unknown attribute: " ++ id.text
  | fault f => f.message

/-- The attribute that a line declares. -/
def readLine (line : String) : Except EditError Attribute :=
  (Attribute.ofLine line).mapError .fault

/-- The attribute without its reference to an entity that is gone. -/
def Member.detach (gone : List EntityId) (m : Member) : Member :=
  if m.target.any gone.contains then
    { m with target := none, defects := m.defects ++ [.referenceInvalid] }
  else m

/-- The attribute as an open reference by handle. -/
def Member.pointed (target : EntityId) (m : Member) : Member :=
  { m with
    kind := .reference, name := target.text, target := none, defaultValue := none
    defects := m.defects.filter (· ≠ .referenceInvalid) }

/-- An attribute under a handle. It gets a fallback name if it has none. -/
def Attribute.issued (a : Attribute) (id : AttrId) : Member :=
  { a with name := if a.name.isEmpty then Name.fallback id.number else a.name, id := id }

namespace Document

def requireSchema (d : Document) (id : SchemaId) : Except EditError Schema :=
  match d.schema? id with
  | some s => .ok s
  | none => .error (.unknownSchema id)

def requireEntity (d : Document) (id : EntityId) : Except EditError Entity :=
  match d.entity? id with
  | some e => .ok e
  | none => .error (.unknownEntity id)

def requireMember (d : Document) (id : AttrId) : Except EditError Member :=
  match d.member? id with
  | some m => .ok m
  | none => .error (.unknownAttribute id)

/-! ### Schemas -/

def addSchema (d : Document) (name : String) : Document × SchemaId :=
  let id : SchemaId := .fresh d.schemaCount
  let schema : Schema := ⟨id, Name.ofText name id.number, []⟩
  ({ d with schemas := d.schemas ++ [schema], schemaCount := d.schemaCount + 1 }, id)

/-- Rename a schema; references to its entities keep their targets. -/
def renameSchema (d : Document) (id : SchemaId) (name : String) : Except EditError Document := do
  let schema ← d.requireSchema id
  let renamed := d.modifySchema id fun s => { s with name := Name.ofText name id.number }
  return (renamed.retargetReferences (schema.entities.map Entity.id)).retryReferences

/-- Remove a schema with its entities; references to them lose their targets. -/
def removeSchema (d : Document) (id : SchemaId) : Except EditError Document := do
  let schema ← d.requireSchema id
  let rest : Document := { d with schemas := d.schemas.filter (·.id ≠ id) }
  return rest.mapMembers (Member.detach (schema.entities.map Entity.id))

/-! ### Entities -/

def addEntity (d : Document) (schema : SchemaId) (name : String) :
    Except EditError (Document × EntityId) := do
  let _ ← d.requireSchema schema
  let id : EntityId := .fresh d.entityCount
  let entity : Entity := ⟨id, Name.ofText name id.number, []⟩
  let added := d.modifySchema schema fun s => { s with entities := s.entities ++ [entity] }
  let counted : Document := { added with entityCount := d.entityCount + 1 }
  return (counted.retryReferences, id)

/-- Rename an entity; references to it keep their target. -/
def renameEntity (d : Document) (id : EntityId) (name : String) : Except EditError Document := do
  let _ ← d.requireEntity id
  let renamed := d.modifyEntity id fun e => { e with name := Name.ofText name id.number }
  return (renamed.retargetReferences [id]).retryReferences

/-- Remove an entity with its attributes; references to it lose their target. -/
def removeEntity (d : Document) (id : EntityId) : Except EditError Document := do
  let _ ← d.requireEntity id
  let rest : Document := { d with
    schemas := d.schemas.map fun s => { s with entities := s.entities.filter (·.id ≠ id) } }
  return rest.mapMembers (Member.detach [id])

/-! ### Attributes -/

/-- Put an attribute at the end of an entity, leaving a reference unresolved. -/
def attach (d : Document) (entity : EntityId) (a : Attribute) :
    Except EditError (Document × AttrId) := do
  let _ ← d.requireEntity entity
  let id : AttrId := .fresh d.attrCount
  let m := a.issued id
  let added := d.modifyEntity entity fun e => { e with attributes := e.attributes ++ [m] }
  let counted : Document := { added with attrCount := d.attrCount + 1 }
  return (counted.distinguish id, id)

/-- Put an attribute at the end of an entity. -/
def insertAttribute (d : Document) (entity : EntityId) (a : Attribute) :
    Except EditError (Document × AttrId) := do
  let (attached, id) ← d.attach entity a
  return ((attached.resolveReference id).1, id)

/-- Put the attribute that a line declares at the end of an entity. -/
def addAttribute (d : Document) (entity : EntityId) (line : String) :
    Except EditError (Document × AttrId) := do
  d.insertAttribute entity (← readLine line)

/-- Put the attribute that a line declares in the place of another. -/
def replaceAttribute (d : Document) (id : AttrId) (line : String) : Except EditError Document := do
  let a ← readLine line
  let _ ← d.requireMember id
  let replaced := d.modifyMember id fun _ => { a with id := id }
  return ((replaced.distinguish id).resolveReference id).1

def removeAttribute (d : Document) (id : AttrId) : Except EditError Document := do
  let _ ← d.requireMember id
  return d.mapEntities fun e => { e with attributes := e.attributes.filter (·.id ≠ id) }

/-- Turn an attribute into a reference to the given entity. -/
def setReference (d : Document) (id : AttrId) (target : EntityId) : Except EditError Document := do
  let _ ← d.requireEntity target
  let _ ← d.requireMember id
  let pointed := d.modifyMember id (Member.pointed target)
  return (pointed.resolveReference id).1.distinguish id

def setMaxDepth (d : Document) (n : Nat) : Document :=
  { d with maxDepth := n }

end Document

/-! ### Edits as data -/

inductive Edit where
  | addSchema (name : String)
  | renameSchema (id : SchemaId) (name : String)
  | removeSchema (id : SchemaId)
  | addEntity (schema : SchemaId) (name : String)
  | renameEntity (id : EntityId) (name : String)
  | removeEntity (id : EntityId)
  | addAttribute (entity : EntityId) (line : String)
  | insertAttribute (entity : EntityId) (a : Attribute)
  | replaceAttribute (id : AttrId) (line : String)
  | removeAttribute (id : AttrId)
  | setReference (id : AttrId) (target : EntityId)
  | resolveReference (id : AttrId)
  | resolveReferences
  | setMaxDepth (n : Nat)
deriving DecidableEq, Repr

/-- What an edit answers. -/
inductive Answer where
  | done
  | schema (id : SchemaId)
  | entity (id : EntityId)
  | attr (id : AttrId)
  | resolved (isResolved : Bool)
deriving DecidableEq, Repr

/-- Carry out an edit. -/
def Document.edit (d : Document) : Edit → Except EditError (Document × Answer)
  | .addSchema name =>
    let (d, id) := d.addSchema name
    .ok (d, .schema id)
  | .renameSchema id name => (d.renameSchema id name).map (·, .done)
  | .removeSchema id => (d.removeSchema id).map (·, .done)
  | .addEntity schema name => (d.addEntity schema name).map fun (d, id) => (d, .entity id)
  | .renameEntity id name => (d.renameEntity id name).map (·, .done)
  | .removeEntity id => (d.removeEntity id).map (·, .done)
  | .addAttribute entity line => (d.addAttribute entity line).map fun (d, id) => (d, .attr id)
  | .insertAttribute entity a => (d.insertAttribute entity a).map fun (d, id) => (d, .attr id)
  | .replaceAttribute id line => (d.replaceAttribute id line).map (·, .done)
  | .removeAttribute id => (d.removeAttribute id).map (·, .done)
  | .setReference id target => (d.setReference id target).map (·, .done)
  | .resolveReference id =>
    let (d, isResolved) := d.resolveReference id
    .ok (d, .resolved isResolved)
  | .resolveReferences => .ok (d.resolveReferences, .done)
  | .setMaxDepth n => .ok (d.setMaxDepth n, .done)

end Blueprint
