import Blueprint.Document.Edit

/-! # What an edit does

Each edit is cut into a few elementary changes, and a relation says once what a
successful edit amounts to. Later proofs go through its cases.
-/

namespace Blueprint

theorem exists_of_map_eq_ok {ε α β : Type} {x : Except ε α} {f : α → β} {b : β}
    (h : x.map f = .ok b) : ∃ a, x = .ok a ∧ f a = b := by
  cases x with
  | error err => cases h
  | ok a => exact ⟨a, rfl, Except.ok.inj h⟩

namespace Document

/-! ### Elementary changes -/

def nameSchema (id : SchemaId) (name : String) (d : Document) : Document :=
  d.modifySchema id fun s => { s with name := Name.ofText name id.number }

def nameEntity (id : EntityId) (name : String) (d : Document) : Document :=
  d.modifyEntity id fun e => { e with name := Name.ofText name id.number }

/-- The entity that the next handle is issued to. -/
def nextEntity (d : Document) (name : String) : Entity :=
  let id : EntityId := .fresh d.entityCount
  ⟨id, Name.ofText name id.number, []⟩

/-- The attribute that the next handle is issued to. -/
def nextMember (d : Document) (a : Attribute) : Member :=
  a.issued (.fresh d.attrCount)

/-- Put an entity at the end of a schema. -/
def placeEntity (schema : SchemaId) (e : Entity) (d : Document) : Document :=
  { d.modifySchema schema fun s => { s with entities := s.entities ++ [e] } with
    entityCount := d.entityCount + 1 }

/-- Put an attribute at the end of an entity. -/
def placeMember (entity : EntityId) (m : Member) (d : Document) : Document :=
  { d.modifyEntity entity fun e => { e with attributes := e.attributes ++ [m] } with
    attrCount := d.attrCount + 1 }

/-- Put a new attribute at the end of an entity, under a segment of its own. -/
def attached (entity : EntityId) (a : Attribute) (d : Document) : Document :=
  (d.placeMember entity (d.nextMember a)).distinguish (.fresh d.attrCount)

def dropSchema (id : SchemaId) (d : Document) : Document :=
  { d with schemas := d.schemas.filter (·.id ≠ id) }

def dropEntity (id : EntityId) (d : Document) : Document :=
  { d with schemas := d.schemas.map fun s => { s with entities := s.entities.filter (·.id ≠ id) } }

def dropMember (id : AttrId) (d : Document) : Document :=
  d.mapEntities fun e => { e with attributes := e.attributes.filter (·.id ≠ id) }

/-- Put an attribute in the place of another. -/
def putMember (id : AttrId) (a : Attribute) (d : Document) : Document :=
  d.modifyMember id fun _ => { a with id := id }

def pointMember (id : AttrId) (target : EntityId) (d : Document) : Document :=
  d.modifyMember id (Member.pointed target)

/-! ### Successful edits -/

variable {d next : Document}

theorem requireSchema_bind_ok {α : Type} {id : SchemaId} {f : Schema → Except EditError α} {r : α}
    (h : d.requireSchema id >>= f = .ok r) : ∃ s, d.schema? id = some s ∧ f s = .ok r := by
  unfold requireSchema at h
  cases hs : d.schema? id with
  | none => rw [hs] at h; cases h
  | some s => rw [hs] at h; exact ⟨s, rfl, h⟩

theorem requireEntity_bind_ok {α : Type} {id : EntityId} {f : Entity → Except EditError α} {r : α}
    (h : d.requireEntity id >>= f = .ok r) : ∃ e, d.entity? id = some e ∧ f e = .ok r := by
  unfold requireEntity at h
  cases he : d.entity? id with
  | none => rw [he] at h; cases h
  | some e => rw [he] at h; exact ⟨e, rfl, h⟩

theorem requireMember_bind_ok {α : Type} {id : AttrId} {f : Member → Except EditError α} {r : α}
    (h : d.requireMember id >>= f = .ok r) : ∃ m, d.member? id = some m ∧ f m = .ok r := by
  unfold requireMember at h
  cases hm : d.member? id with
  | none => rw [hm] at h; cases h
  | some m => rw [hm] at h; exact ⟨m, rfl, h⟩

theorem readLine_bind_ok {α : Type} {line : String} {f : Attribute → Except EditError α} {r : α}
    (h : readLine line >>= f = .ok r) : ∃ a, Attribute.ofLine line = .ok a ∧ f a = .ok r := by
  unfold readLine at h
  cases ha : Attribute.ofLine line with
  | error fault => rw [ha] at h; cases h
  | ok a => rw [ha] at h; exact ⟨a, rfl, h⟩

/-- A successful edit: what it finds under the handles it is given, the document it leads
to, and its answer. -/
inductive Step (d : Document) : Edit → Document → Answer → Prop where
  | addSchema (name : String) :
      Step d (.addSchema name) (d.addSchema name).1 (.schema (.fresh d.schemaCount))
  | renameSchema {id : SchemaId} {s : Schema} (hs : d.schema? id = some s) (name : String) :
      Step d (.renameSchema id name)
        ((d.nameSchema id name).retargetReferences (s.entities.map Entity.id)).retryReferences
        .done
  | removeSchema {id : SchemaId} {s : Schema} (hs : d.schema? id = some s) :
      Step d (.removeSchema id)
        ((d.dropSchema id).mapMembers (Member.detach (s.entities.map Entity.id))) .done
  | addEntity {schema : SchemaId} {s : Schema} (hs : d.schema? schema = some s) (name : String) :
      Step d (.addEntity schema name)
        (d.placeEntity schema (d.nextEntity name)).retryReferences (.entity (.fresh d.entityCount))
  | renameEntity {id : EntityId} {e : Entity} (he : d.entity? id = some e) (name : String) :
      Step d (.renameEntity id name)
        ((d.nameEntity id name).retargetReferences [id]).retryReferences .done
  | removeEntity {id : EntityId} {e : Entity} (he : d.entity? id = some e) :
      Step d (.removeEntity id) ((d.dropEntity id).mapMembers (Member.detach [id])) .done
  | addAttribute {entity : EntityId} {e : Entity} (he : d.entity? entity = some e)
      {line : String} {a : Attribute} (ha : Attribute.ofLine line = .ok a) :
      Step d (.addAttribute entity line)
        ((d.attached entity a).resolveReference (.fresh d.attrCount)).1 (.attr (.fresh d.attrCount))
  | insertAttribute {entity : EntityId} {e : Entity} (he : d.entity? entity = some e)
      (a : Attribute) :
      Step d (.insertAttribute entity a)
        ((d.attached entity a).resolveReference (.fresh d.attrCount)).1 (.attr (.fresh d.attrCount))
  | replaceAttribute {id : AttrId} {m : Member} (hm : d.member? id = some m)
      {line : String} {a : Attribute} (ha : Attribute.ofLine line = .ok a) :
      Step d (.replaceAttribute id line)
        (((d.putMember id a).distinguish id).resolveReference id).1 .done
  | removeAttribute {id : AttrId} {m : Member} (hm : d.member? id = some m) :
      Step d (.removeAttribute id) (d.dropMember id) .done
  | setReference {id : AttrId} {m : Member} (hm : d.member? id = some m)
      {target : EntityId} {e : Entity} (he : d.entity? target = some e) :
      Step d (.setReference id target)
        (((d.pointMember id target).resolveReference id).1.distinguish id) .done
  | resolveReference (id : AttrId) :
      Step d (.resolveReference id) (d.resolveReference id).1 (.resolved (d.resolveReference id).2)
  | resolveReferences : Step d .resolveReferences d.resolveReferences .done
  | setMaxDepth (n : Nat) : Step d (.setMaxDepth n) (d.setMaxDepth n) .done

theorem attach_ok {entity : EntityId} {a : Attribute} {id : AttrId}
    (h : d.attach entity a = .ok (next, id)) :
    ∃ e, d.entity? entity = some e ∧ id = .fresh d.attrCount ∧ next = d.attached entity a := by
  obtain ⟨e, he, h⟩ := requireEntity_bind_ok h
  obtain ⟨hnext, hid⟩ := Prod.mk.inj (Except.ok.inj h)
  exact ⟨e, he, hid.symm, hnext.symm⟩

theorem addEntity_ok {schema : SchemaId} {name : String} {id : EntityId}
    (h : d.addEntity schema name = .ok (next, id)) :
    ∃ s, d.schema? schema = some s ∧ id = .fresh d.entityCount ∧
      next = (d.placeEntity schema (d.nextEntity name)).retryReferences := by
  obtain ⟨s, hs, h⟩ := requireSchema_bind_ok h
  obtain ⟨hnext, hid⟩ := Prod.mk.inj (Except.ok.inj h)
  exact ⟨s, hs, hid.symm, hnext.symm⟩

theorem attach_of_entity? {entity : EntityId} {e : Entity} (he : d.entity? entity = some e)
    (a : Attribute) : d.attach entity a = .ok (d.attached entity a, .fresh d.attrCount) := by
  unfold attach requireEntity
  rw [he]
  rfl

theorem addEntity_of_schema? {schema : SchemaId} {s : Schema} (hs : d.schema? schema = some s)
    (name : String) :
    d.addEntity schema name =
      .ok ((d.placeEntity schema (d.nextEntity name)).retryReferences, .fresh d.entityCount) := by
  unfold addEntity requireSchema
  rw [hs]
  rfl

theorem insertAttribute_ok {entity : EntityId} {a : Attribute} {id : AttrId}
    (h : d.insertAttribute entity a = .ok (next, id)) :
    ∃ e, d.entity? entity = some e ∧ id = .fresh d.attrCount ∧
      next = ((d.attached entity a).resolveReference id).1 := by
  unfold insertAttribute at h
  cases hattach : d.attach entity a with
  | error err => rw [hattach] at h; cases h
  | ok result =>
      obtain ⟨e, he, hid, hattached⟩ := attach_ok hattach
      rw [hattach] at h
      obtain ⟨hnext, rfl⟩ := Prod.mk.inj (Except.ok.inj h)
      exact ⟨e, he, hid, hattached ▸ hnext.symm⟩

theorem insertAttribute_of_entity? {entity : EntityId} {e : Entity}
    (he : d.entity? entity = some e) (a : Attribute) :
    d.insertAttribute entity a =
      .ok (((d.attached entity a).resolveReference (.fresh d.attrCount)).1, .fresh d.attrCount) := by
  unfold insertAttribute
  rw [attach_of_entity? he]
  rfl

theorem Step.of_edit {e : Edit} {answer : Answer} (h : d.edit e = .ok (next, answer)) :
    Step d e next answer := by
  -- An edit looks up the handles it is given before it changes anything.
  cases e with
  | addSchema name =>
      obtain ⟨rfl, rfl⟩ := Prod.mk.inj (Except.ok.inj h)
      exact .addSchema name
  | renameSchema id name =>
      change (d.renameSchema id name).map (·, Answer.done) = _ at h
      obtain ⟨_, hok, heq⟩ := exists_of_map_eq_ok h
      obtain ⟨rfl, rfl⟩ := Prod.mk.inj heq
      obtain ⟨s, hs, hok⟩ := requireSchema_bind_ok hok
      exact Except.ok.inj hok ▸ .renameSchema hs name
  | removeSchema id =>
      change (d.removeSchema id).map (·, Answer.done) = _ at h
      obtain ⟨_, hok, heq⟩ := exists_of_map_eq_ok h
      obtain ⟨rfl, rfl⟩ := Prod.mk.inj heq
      obtain ⟨s, hs, hok⟩ := requireSchema_bind_ok hok
      exact Except.ok.inj hok ▸ .removeSchema hs
  | addEntity schema name =>
      change (d.addEntity schema name).map (fun r => (r.1, Answer.entity r.2)) = _ at h
      obtain ⟨r, hok, heq⟩ := exists_of_map_eq_ok h
      obtain ⟨rfl, rfl⟩ := Prod.mk.inj heq
      obtain ⟨s, hs, hid, hnext⟩ := addEntity_ok hok
      exact hid ▸ hnext ▸ .addEntity hs name
  | renameEntity id name =>
      change (d.renameEntity id name).map (·, Answer.done) = _ at h
      obtain ⟨_, hok, heq⟩ := exists_of_map_eq_ok h
      obtain ⟨rfl, rfl⟩ := Prod.mk.inj heq
      obtain ⟨e, he, hok⟩ := requireEntity_bind_ok hok
      exact Except.ok.inj hok ▸ .renameEntity he name
  | removeEntity id =>
      change (d.removeEntity id).map (·, Answer.done) = _ at h
      obtain ⟨_, hok, heq⟩ := exists_of_map_eq_ok h
      obtain ⟨rfl, rfl⟩ := Prod.mk.inj heq
      obtain ⟨e, he, hok⟩ := requireEntity_bind_ok hok
      exact Except.ok.inj hok ▸ .removeEntity he
  | addAttribute entity line =>
      change (d.addAttribute entity line).map (fun r => (r.1, Answer.attr r.2)) = _ at h
      obtain ⟨r, hok, heq⟩ := exists_of_map_eq_ok h
      obtain ⟨rfl, rfl⟩ := Prod.mk.inj heq
      obtain ⟨a, ha, hok⟩ := readLine_bind_ok hok
      obtain ⟨e, he, hid, hnext⟩ := insertAttribute_ok hok
      rw [hnext, hid]
      exact .addAttribute he ha
  | insertAttribute entity a =>
      change (d.insertAttribute entity a).map (fun r => (r.1, Answer.attr r.2)) = _ at h
      obtain ⟨r, hok, heq⟩ := exists_of_map_eq_ok h
      obtain ⟨rfl, rfl⟩ := Prod.mk.inj heq
      obtain ⟨e, he, hid, hnext⟩ := insertAttribute_ok hok
      rw [hnext, hid]
      exact .insertAttribute he a
  | replaceAttribute id line =>
      change (d.replaceAttribute id line).map (·, Answer.done) = _ at h
      obtain ⟨_, hok, heq⟩ := exists_of_map_eq_ok h
      obtain ⟨rfl, rfl⟩ := Prod.mk.inj heq
      obtain ⟨a, ha, hok⟩ := readLine_bind_ok hok
      obtain ⟨m, hm, hok⟩ := requireMember_bind_ok hok
      exact Except.ok.inj hok ▸ .replaceAttribute hm ha
  | removeAttribute id =>
      change (d.removeAttribute id).map (·, Answer.done) = _ at h
      obtain ⟨_, hok, heq⟩ := exists_of_map_eq_ok h
      obtain ⟨rfl, rfl⟩ := Prod.mk.inj heq
      obtain ⟨m, hm, hok⟩ := requireMember_bind_ok hok
      exact Except.ok.inj hok ▸ .removeAttribute hm
  | setReference id target =>
      change (d.setReference id target).map (·, Answer.done) = _ at h
      obtain ⟨_, hok, heq⟩ := exists_of_map_eq_ok h
      obtain ⟨rfl, rfl⟩ := Prod.mk.inj heq
      obtain ⟨e, he, hok⟩ := requireEntity_bind_ok hok
      obtain ⟨m, hm, hok⟩ := requireMember_bind_ok hok
      exact Except.ok.inj hok ▸ .setReference hm he
  | resolveReference id =>
      obtain ⟨rfl, rfl⟩ := Prod.mk.inj (Except.ok.inj h)
      exact .resolveReference id
  | resolveReferences =>
      obtain ⟨rfl, rfl⟩ := Prod.mk.inj (Except.ok.inj h)
      exact .resolveReferences
  | setMaxDepth n =>
      obtain ⟨rfl, rfl⟩ := Prod.mk.inj (Except.ok.inj h)
      exact .setMaxDepth n

end Document

end Blueprint
