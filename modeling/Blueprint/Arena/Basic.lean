import Blueprint.Document.Resolve

/-! # Arenas

A document is stored in three arenas, one for each sort of nodes. A node stands in the
slot of its handle, and a removed node leaves its slot empty for good. Who owns a node is
stored twice: the owner lists the handles of its children, and each child has the handle
of its parent.
-/

namespace Blueprint

/-! ### Slots -/

/-- The slot of a handle. -/
def Handle.slot? {sort : NodeSort} (h : Handle sort) : Option Nat :=
  if h.number = 0 then none else some (h.number - 1)

/-- The nodes of one sort, each in the slot of its handle. -/
abbrev Slots (α : Type) := List (Option α)

namespace Slots

variable {α : Type} {sort : NodeSort}

/-- The live node of a handle. -/
def find? (slots : Slots α) (h : Handle sort) : Option α :=
  h.slot?.bind fun k => slots[k]?.join

/-- Change the node of a handle, if it is live. -/
def update (h : Handle sort) (f : α → α) (slots : Slots α) : Slots α :=
  match h.slot? with
  | some k => slots.modify k (Option.map f)
  | none => slots

/-- Empty the slot of a handle. -/
def clear (h : Handle sort) (slots : Slots α) : Slots α :=
  match h.slot? with
  | some k => slots.set k none
  | none => slots

/-- Put a node into a new slot. -/
def push (node : α) (slots : Slots α) : Slots α :=
  slots ++ [some node]

/-- The live nodes, in the order of their slots. -/
def live (slots : Slots α) : List α :=
  slots.filterMap id

end Slots

/-! ### Nodes -/

structure SchemaNode where
  id : SchemaId
  name : String
  entities : List EntityId
deriving DecidableEq, Repr

structure EntityNode where
  id : EntityId
  name : String
  parent : SchemaId
  attributes : List AttrId
deriving DecidableEq, Repr

structure AttrNode extends Member where
  parent : EntityId
deriving DecidableEq, Repr

structure Arena where
  schemas : Slots SchemaNode := []
  entities : Slots EntityNode := []
  attributes : Slots AttrNode := []
  maxDepth : Nat := Document.defaultDepth
deriving DecidableEq, Repr

namespace Arena

/-- The arena without any node. -/
def empty (maxDepth : Nat) : Arena :=
  { maxDepth := maxDepth }

/-! ### Nodes by handle -/

def schema? (a : Arena) (id : SchemaId) : Option SchemaNode :=
  a.schemas.find? id

def entity? (a : Arena) (id : EntityId) : Option EntityNode :=
  a.entities.find? id

def attr? (a : Arena) (id : AttrId) : Option AttrNode :=
  a.attributes.find? id

/-- The entities that a schema lists; none if the handle is stale. -/
def entitiesOf (a : Arena) (id : SchemaId) : List EntityNode :=
  match a.schema? id with
  | some s => s.entities.filterMap a.entity?
  | none => []

/-- The attributes that an entity lists; none if the handle is stale. -/
def attributesOf (a : Arena) (id : EntityId) : List AttrNode :=
  match a.entity? id with
  | some e => e.attributes.filterMap a.attr?
  | none => []

/-! ### Nodes in document order -/

def allEntities (a : Arena) : List EntityNode :=
  a.schemas.live.flatMap fun s => a.entitiesOf s.id

def allAttributes (a : Arena) : List AttrNode :=
  a.allEntities.flatMap fun e => a.attributesOf e.id

/-! ### Names -/

/-- The first schema of the name. -/
def findSchema? (a : Arena) (name : String) : Option SchemaId :=
  (a.schemas.live.find? (·.name = name)).map SchemaNode.id

/-- The first entity of the name in the first schema of its name. -/
def findEntity? (a : Arena) (schema name : String) : Option EntityId :=
  (a.findSchema? schema).bind fun id =>
    ((a.entitiesOf id).find? (·.name = name)).map EntityNode.id

/-- An entity as `schema.entity`; empty if the handle is stale. -/
def qualifiedName (a : Arena) (id : EntityId) : String :=
  match a.entity? id with
  | none => ""
  | some e =>
    match a.schema? e.parent with
    | some s => s.name ++ "." ++ e.name
    | none => e.name

/-- The live entity whose handle a text is. -/
def entityByHandle? (a : Arena) (s : String) : Option EntityId :=
  (Handle.ofText? s).filter fun id => (a.entity? id).isSome

/-- The entity that a written name means. -/
def findTarget? (a : Arena) (name : String) : Option Target :=
  match a.entityByHandle? name with
  | some id => some (.byHandle id (a.qualifiedName id))
  | none =>
    match Text.cut? "." name with
    | some (schema, entity) => (a.findEntity? schema entity).map .byName
    | none => (a.allEntities.find? (·.name = name)).map (.byName ·.id)

/-! ### The document of an arena -/

/-- An entity with the attributes that it lists. -/
def entityView (a : Arena) (e : EntityNode) : Entity :=
  ⟨e.id, e.name, (a.attributesOf e.id).map AttrNode.toMember⟩

/-- A schema with the entities that it lists. -/
def schemaView (a : Arena) (s : SchemaNode) : Schema :=
  ⟨s.id, s.name, (a.entitiesOf s.id).map a.entityView⟩

/-- The document that an arena stores. -/
def document (a : Arena) : Document where
  schemas := a.schemas.live.map a.schemaView
  schemaCount := a.schemas.length
  entityCount := a.entities.length
  attrCount := a.attributes.length
  maxDepth := a.maxDepth

end Arena

end Blueprint
