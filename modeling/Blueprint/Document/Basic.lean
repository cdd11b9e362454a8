import Blueprint.Attribute.Basic

/-! # Documents

A document is a list of schemas, a schema a list of entities, an entity a list of
attributes. Every node has a handle, and the document counts the handles it has
issued, so that none is issued twice.
-/

namespace Blueprint

/-- An attribute that an entity holds. -/
structure Member extends Attribute where
  id : AttrId
deriving DecidableEq, Repr

/-- A named record type, like a table. -/
structure Entity where
  id : EntityId
  name : String
  attributes : List Member
deriving DecidableEq, Repr

/-- A group of entities, like a database schema or a package. -/
structure Schema where
  id : SchemaId
  name : String
  entities : List Entity
deriving DecidableEq, Repr

/-- How many attributes a column may be reached over, unless said otherwise. -/
def Document.defaultDepth : Nat := 5

structure Document where
  schemas : List Schema := []
  /-- How many schema handles were issued. -/
  schemaCount : Nat := 0
  /-- How many entity handles were issued. -/
  entityCount : Nat := 0
  /-- How many attribute handles were issued. -/
  attrCount : Nat := 0
  /-- Columns reached over more attributes than this are left out. -/
  maxDepth : Nat := Document.defaultDepth
deriving DecidableEq, Repr

/-- The line that declares the schema. -/
def Schema.line (s : Schema) : String :=
  "# " ++ s.name

/-- Whether an attribute of the schema has a defect. -/
def Schema.hasDefect (s : Schema) : Bool :=
  s.entities.any fun e => e.attributes.any fun m => m.hasDefect

/-- The line that declares the entity. -/
def Entity.line (e : Entity) : String :=
  "## " ++ e.name

namespace Document

/-- The document without any node. -/
def empty (maxDepth : Nat) : Document :=
  { maxDepth := maxDepth }

/-! ### Nodes in document order -/

def entities (d : Document) : List Entity :=
  d.schemas.flatMap Schema.entities

def members (d : Document) : List Member :=
  d.entities.flatMap Entity.attributes

/-! ### Nodes by handle -/

def schema? (d : Document) (id : SchemaId) : Option Schema :=
  d.schemas.find? (·.id = id)

def entity? (d : Document) (id : EntityId) : Option Entity :=
  d.entities.find? (·.id = id)

def member? (d : Document) (id : AttrId) : Option Member :=
  d.members.find? (·.id = id)

/-- The entities of a schema; none if the handle is stale. -/
def entitiesOf (d : Document) (id : SchemaId) : List Entity :=
  match d.schema? id with
  | some s => s.entities
  | none => []

/-- The attributes of an entity; none if the handle is stale. -/
def attributesOf (d : Document) (id : EntityId) : List Member :=
  match d.entity? id with
  | some e => e.attributes
  | none => []

/-- The schema that holds an entity. -/
def schemaOf? (d : Document) (id : EntityId) : Option Schema :=
  d.schemas.find? fun s => s.entities.any (·.id = id)

/-- The entity that holds an attribute. -/
def ownerOf? (d : Document) (id : AttrId) : Option Entity :=
  d.entities.find? fun e => e.attributes.any (·.id = id)

/-! ### Nodes by name -/

/-- The first schema of the name. -/
def findSchema? (d : Document) (name : String) : Option Schema :=
  d.schemas.find? (·.name = name)

/-- The first entity of the name in the first schema of its name. -/
def findEntity? (d : Document) (schema name : String) : Option Entity :=
  (d.findSchema? schema).bind fun s => s.entities.find? (·.name = name)

/-! ### Names of nodes -/

/-- The name of an entity; empty if the handle is stale. -/
def entityName (d : Document) (id : EntityId) : String :=
  ((d.entity? id).map Entity.name).getD ""

/-- An entity as `schema.entity`; empty if the handle is stale. -/
def qualifiedName (d : Document) (id : EntityId) : String :=
  match d.entity? id, d.schemaOf? id with
  | some e, some s => s.name ++ "." ++ e.name
  | some e, none => e.name
  | none, _ => ""

/-- An attribute as `schema/entity/attribute`; empty if the handle is stale. -/
def attrPath (d : Document) (id : AttrId) : String :=
  match d.member? id with
  | none => ""
  | some m =>
    let owner := d.ownerOf? id
    let schema := owner.bind fun e => d.schemaOf? e.id
    (schema.map Schema.name).getD "" ++ "/" ++ (owner.map Entity.name).getD "" ++ "/" ++ m.name

/-! ### Defects -/

def isEmpty (d : Document) : Bool :=
  d.schemas.isEmpty

def hasDefect (d : Document) : Bool :=
  d.schemas.any Schema.hasDefect

/-! ### Changes in place -/

def mapEntities (f : Entity → Entity) (d : Document) : Document :=
  { d with schemas := d.schemas.map fun s => { s with entities := s.entities.map f } }

def mapMembers (f : Member → Member) (d : Document) : Document :=
  d.mapEntities fun e => { e with attributes := e.attributes.map f }

def modifySchema (id : SchemaId) (f : Schema → Schema) (d : Document) : Document :=
  { d with schemas := d.schemas.map fun s => if s.id = id then f s else s }

def modifyEntity (id : EntityId) (f : Entity → Entity) (d : Document) : Document :=
  d.mapEntities fun e => if e.id = id then f e else e

def modifyMember (id : AttrId) (f : Member → Member) (d : Document) : Document :=
  d.mapMembers fun m => if m.id = id then f m else m

end Document

end Blueprint
