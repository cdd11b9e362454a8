import Blueprint.Arena.Basic
import Blueprint.Document.Reader

/-! # Edits of an arena

An edit changes the slots one after the other. A failure keeps what was changed before it.
To remove a schema is to remove its entities one by one, and to resolve references is to
go through those that wait. The document that an arena stores is changed as by
`Document.edit`.
-/

namespace Blueprint

/-- The attribute without its reference to the entity. -/
def AttrNode.detach (gone : EntityId) (m : AttrNode) : AttrNode :=
  if m.target = some gone then
    { m with target := none, defects := m.defects ++ [.referenceInvalid] }
  else m

namespace Arena

/-- Changes of an arena that may fail. -/
abbrev Change := EStateM EditError Arena

/-- The arena that changes leave behind. -/
def left {α : Type} : EStateM.Result EditError Arena α → Arena
  | .ok _ next => next
  | .error _ rest => rest

/-! ### Changes in place -/

def mapSchemas (f : Slots SchemaNode → Slots SchemaNode) (a : Arena) : Arena :=
  { a with schemas := f a.schemas }

def mapEntities (f : Slots EntityNode → Slots EntityNode) (a : Arena) : Arena :=
  { a with entities := f a.entities }

def mapAttributes (f : Slots AttrNode → Slots AttrNode) (a : Arena) : Arena :=
  { a with attributes := f a.attributes }

/-- Change what is declared of an attribute, if it is live. -/
def updateMember (id : AttrId) (f : Member → Member) : Arena → Arena :=
  mapAttributes (.update id fun m => { m with toMember := f m.toMember })

/-- Change a live schema. The result is what it was before. -/
def changeSchema (id : SchemaId) (f : SchemaNode → SchemaNode) : Change SchemaNode := do
  match (← get).schema? id with
  | none => throw (.unknownSchema id)
  | some s =>
    modify (mapSchemas (.update id f))
    return s

/-- Change a live entity. The result is what it was before. -/
def changeEntity (id : EntityId) (f : EntityNode → EntityNode) : Change EntityNode := do
  match (← get).entity? id with
  | none => throw (.unknownEntity id)
  | some e =>
    modify (mapEntities (.update id f))
    return e

/-- Change a live attribute. The result is what it was before. -/
def changeAttr (id : AttrId) (f : AttrNode → AttrNode) : Change AttrNode := do
  match (← get).attr? id with
  | none => throw (.unknownAttribute id)
  | some m =>
    modify (mapAttributes (.update id f))
    return m

/-! ### Segments and references -/

/-- Give an attribute a segment of its own among the attributes of its parent. -/
def distinguish (id : AttrId) (a : Arena) : Arena :=
  match a.attr? id with
  | none => a
  | some m =>
    let siblings := ((a.attributesOf m.parent).filter (·.id ≠ id)).map AttrNode.toMember
    a.updateMember id (Member.distinguish siblings)

/-- Resolve one reference. The result says whether it has a target afterwards. -/
def resolveReference (a : Arena) (id : AttrId) : Arena × Bool :=
  match a.attr? id with
  | none => (a, false)
  | some m =>
    if !m.isReference then (a, false)
    else if m.target.isSome then (a, true)
    else
      let found := a.findTarget? m.name
      (a.updateMember id (Member.resolvedTo found), found.isSome)

/-- Resolve every open reference that was not yet reported. -/
def resolveReferences (a : Arena) : Arena :=
  let pending := a.allAttributes.filter fun m => m.isOpen && !m.isLost
  pending.foldl (fun a m => (a.resolveReference m.id).1) a

/-- Give one reported reference another chance. -/
def retryReference (a : Arena) (id : AttrId) : Arena :=
  ((a.updateMember id Member.unreported).resolveReference id).1

/-- Give every reported reference another chance, after an entity got a new name. -/
def retryReferences (a : Arena) : Arena :=
  let lost := a.allAttributes.filter fun m => m.isOpen && m.isLost
  lost.foldl (fun a m => a.retryReference m.id) a

/-- The references to the given entities: their handles, their targets, and whether their
names are bare. -/
def referencesTo (a : Arena) (renamed : List EntityId) : List (AttrId × EntityId × Bool) :=
  a.allAttributes.filterMap fun m =>
    (m.target.filter renamed.contains).map fun id => (m.id, id, !Text.holds "." m.name)

/-- Rename one reference to a renamed entity. -/
def retarget (a : Arena) (reference : AttrId × EntityId × Bool) : Arena :=
  let (id, target, bare) := reference
  match a.entity? target with
  | none => a
  | some e =>
    let isFound := a.findTarget? e.name = some (.byName target)
    let name := if bare && isFound then e.name else a.qualifiedName target
    (a.updateMember id fun m => { m with name := name }).distinguish id

/-- Rename the references to renamed entities, so that their names still mean them. -/
def retargetReferences (a : Arena) (renamed : List EntityId) : Arena :=
  (a.referencesTo renamed).foldl retarget a

/-! ### Schemas and entities -/

def addSchema (name : String) : Change SchemaId := do
  let id : SchemaId := .fresh (← get).schemas.length
  modify (mapSchemas (.push ⟨id, Name.ofText name id.number, []⟩))
  return id

def renameSchema (id : SchemaId) (name : String) : Change Unit := do
  let s ← changeSchema id fun s => { s with name := Name.ofText name id.number }
  modify (·.retargetReferences s.entities)
  modify retryReferences

def addEntity (schema : SchemaId) (name : String) : Change EntityId := do
  let id : EntityId := .fresh (← get).entities.length
  let _ ← changeSchema schema fun s => { s with entities := s.entities ++ [id] }
  modify (mapEntities (.push ⟨id, Name.ofText name id.number, schema, []⟩))
  modify retryReferences
  return id

def renameEntity (id : EntityId) (name : String) : Change Unit := do
  let _ ← changeEntity id fun e => { e with name := Name.ofText name id.number }
  modify (·.retargetReferences [id])
  modify retryReferences

/-- The attributes of the entity go first, then its places in the schema and in its slot, and
then the references to it anywhere lose their target. -/
def removeEntity (id : EntityId) : Change Unit := do
  let e ← changeEntity id fun e => { e with attributes := [] }
  modify (mapAttributes fun slots => e.attributes.foldl (fun slots m => slots.clear m) slots)
  modify (mapSchemas (.update e.parent fun s => { s with entities := s.entities.filter (· ≠ id) }))
  modify (mapEntities (.clear id))
  modify (mapAttributes (List.map (Option.map (AttrNode.detach id))))

def removeEntities : List EntityId → Change Unit
  | [] => return
  | id :: ids => do
    removeEntity id
    removeEntities ids

def removeSchema (id : SchemaId) : Change Unit := do
  let s ← changeSchema id fun s => s
  removeEntities s.entities
  modify (mapSchemas (.clear id))

/-! ### Attributes -/

/-- Put an attribute at the end of an entity, leaving a reference unresolved. -/
def attach (entity : EntityId) (a : Attribute) : Change AttrId := do
  let id : AttrId := .fresh (← get).attributes.length
  let _ ← changeEntity entity fun e => { e with attributes := e.attributes ++ [id] }
  modify (mapAttributes (.push ⟨a.issued id, entity⟩))
  modify (distinguish id)
  return id

def insertAttribute (entity : EntityId) (a : Attribute) : Change AttrId := do
  let id ← attach entity a
  modify fun a => (a.resolveReference id).1
  return id

/-- Read a line. A fault changes nothing. -/
def readLine (line : String) : Change Attribute :=
  match Blueprint.readLine line with
  | .ok a => return a
  | .error err => throw err

def addAttribute (entity : EntityId) (line : String) : Change AttrId := do
  insertAttribute entity (← readLine line)

def replaceAttribute (id : AttrId) (line : String) : Change Unit := do
  let a ← readLine line
  let _ ← changeAttr id fun m => { a with id := m.id, parent := m.parent }
  modify (distinguish id)
  modify fun a => (a.resolveReference id).1

def removeAttribute (id : AttrId) : Change Unit := do
  let m ← changeAttr id fun m => m
  modify (mapEntities (.update m.parent fun e =>
    { e with attributes := e.attributes.filter (· ≠ id) }))
  modify (mapAttributes (.clear id))

def setReference (id : AttrId) (target : EntityId) : Change Unit := do
  if ((← get).entity? target).isNone then throw (.unknownEntity target)
  let _ ← changeAttr id fun m => { m with toMember := m.pointed target }
  modify fun a => (a.resolveReference id).1
  modify (distinguish id)

/-! ### Edits as data -/

def edit : Edit → Change Answer
  | .addSchema name => return .schema (← addSchema name)
  | .renameSchema id name => do renameSchema id name; return .done
  | .removeSchema id => do removeSchema id; return .done
  | .addEntity schema name => return .entity (← addEntity schema name)
  | .renameEntity id name => do renameEntity id name; return .done
  | .removeEntity id => do removeEntity id; return .done
  | .addAttribute entity line => return .attr (← addAttribute entity line)
  | .insertAttribute entity a => return .attr (← insertAttribute entity a)
  | .replaceAttribute id line => do replaceAttribute id line; return .done
  | .removeAttribute id => do removeAttribute id; return .done
  | .setReference id target => do setReference id target; return .done
  | .resolveReference id => do
    let (next, isResolved) := (← get).resolveReference id
    set next
    return .resolved isResolved
  | .resolveReferences => do modify resolveReferences; return .done
  | .setMaxDepth n => do modify fun a => { a with maxDepth := n }; return .done

/-- What edits leave behind, those that fail included. -/
def run (a : Arena) (es : List Edit) : Arena :=
  es.foldl (fun a e => left ((edit e).run a)) a

/-! ### Reading -/

/-- An arena that is being read, and where the next line belongs. -/
structure Cursor where
  arena : Arena
  schema : Option SchemaId
  entity : Option EntityId
deriving DecidableEq, Repr

/-- Read a line. What fails is left out. -/
def Cursor.read (c : Cursor) : Line → Except Fault Cursor
  | .schema text =>
    match (addSchema text).run c.arena with
    | .ok id next => .ok ⟨next, some id, none⟩
    | .error _ rest => .ok { c with arena := rest }
  | .entity text =>
    match c.schema with
    | none => .ok c
    | some schema =>
      match (addEntity schema (Blueprint.Cursor.entityText text)).run c.arena with
      | .ok id next => .ok { c with arena := next, entity := some id }
      | .error _ rest => .ok { c with arena := rest }
  | .attr text =>
    match c.entity with
    | none => .ok c
    | some entity =>
      (Attribute.ofLine text).map fun a => { c with arena := left ((attach entity a).run c.arena) }
  | .ignored => .ok c

/-- Read a document into an arena. -/
def read (maxDepth : Nat) (source : String) : Except Fault Arena :=
  (((Line.scan source).map Prod.snd).foldlM Cursor.read ⟨.empty maxDepth, none, none⟩).map fun c =>
    c.arena.resolveReferences

end Arena

end Blueprint
