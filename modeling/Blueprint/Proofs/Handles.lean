import Blueprint.Proofs.Run
import Blueprint.Proofs.Segments
import Blueprint.Proofs.Step
import Blueprint.Proofs.Tree
import Mathlib.Data.List.Flatten
import Mathlib.Data.List.Perm.Basic

/-! # Handles of a document

No handle stands on two nodes, and every handle was issued. An elementary change
keeps the handles of each sort, takes some away, or adds the one issued next.
-/

namespace Blueprint.Document

variable {d d' next : Document}

/-- The handles of the nodes of a sort, in document order. -/
def handles (d : Document) : (sort : NodeSort) → List (Handle sort)
  | .schema => d.schemas.map Schema.id
  | .entity => d.entities.map Entity.id
  | .attr => d.members.map Member.id

/-- How many handles of a sort were issued. -/
def issued (d : Document) : NodeSort → Nat
  | .schema => d.schemaCount
  | .entity => d.entityCount
  | .attr => d.attrCount

structure HandlesSound (d : Document) : Prop where
  nodup : ∀ sort, (d.handles sort).Nodup
  /-- Handles are numbered from one on. -/
  issued : ∀ sort, ∀ h ∈ d.handles sort, 0 < h.number ∧ h.number ≤ d.issued sort

/-! ### Lookups -/

theorem HandlesSound.schema?_eq (hd : d.HandlesSound) {s : Schema} (hs : s ∈ d.schemas) :
    d.schema? s.id = some s :=
  find?_eq_some_of_nodup (hd.nodup .schema) hs

theorem HandlesSound.entity?_eq (hd : d.HandlesSound) {e : Entity} (he : e ∈ d.entities) :
    d.entity? e.id = some e :=
  find?_eq_some_of_nodup (hd.nodup .entity) he

theorem HandlesSound.member?_eq (hd : d.HandlesSound) {m : Member} (hm : m ∈ d.members) :
    d.member? m.id = some m :=
  find?_eq_some_of_nodup (hd.nodup .attr) hm

theorem HandlesSound.schemaOf?_eq (hd : d.HandlesSound) {s : Schema} {e : Entity}
    (hs : s ∈ d.schemas) (he : e ∈ s.entities) : d.schemaOf? e.id = some s :=
  find?_any_eq_some_of_nodup (hd.nodup .entity) hs he

theorem HandlesSound.ownerOf?_eq (hd : d.HandlesSound) {e : Entity} {m : Member}
    (he : e ∈ d.entities) (hm : m ∈ e.attributes) : d.ownerOf? m.id = some e :=
  find?_any_eq_some_of_nodup (hd.nodup .attr) he hm

/-- A handle stands on one attribute of one entity. -/
theorem HandlesSound.eq_of_attr_id (hd : d.HandlesSound) {e e' : Entity} {m m' : Member}
    (he : e ∈ d.entities) (hm : m ∈ e.attributes) (he' : e' ∈ d.entities)
    (hm' : m' ∈ e'.attributes) (hid : m'.id = m.id) : e' = e ∧ m' = m := by
  constructor
  · have howner := hd.ownerOf?_eq he' hm'
    rw [hid, hd.ownerOf?_eq he hm] at howner
    exact (Option.some.inj howner).symm
  · exact eq_of_key_eq (hd.nodup .attr) (mem_members.mpr ⟨e', he', hm'⟩)
      (mem_members.mpr ⟨e, he, hm⟩) hid

theorem HandlesSound.qualifiedName_eq (hd : d.HandlesSound) {s : Schema} {e : Entity}
    (hs : s ∈ d.schemas) (he : e ∈ s.entities) :
    d.qualifiedName e.id = s.name ++ "." ++ e.name := by
  simp only [qualifiedName, hd.entity?_eq (mem_entities.mpr ⟨s, hs, he⟩), hd.schemaOf?_eq hs he]

theorem mem_of_schema? {id : SchemaId} {s : Schema} (hs : d.schema? id = some s) :
    s ∈ d.schemas ∧ s.id = id :=
  ⟨List.mem_of_find?_eq_some hs, by simpa using List.find?_some hs⟩

theorem mem_of_entity? {id : EntityId} {e : Entity} (he : d.entity? id = some e) :
    e ∈ d.entities ∧ e.id = id :=
  ⟨List.mem_of_find?_eq_some he, by simpa using List.find?_some he⟩

theorem mem_of_member? {id : AttrId} {m : Member} (hm : d.member? id = some m) :
    m ∈ d.members ∧ m.id = id :=
  ⟨List.mem_of_find?_eq_some hm, by simpa using List.find?_some hm⟩

theorem exists_schema?_iff {id : SchemaId} :
    (∃ s, d.schema? id = some s) ↔ id ∈ d.handles .schema := by
  simp [← Option.isSome_iff_exists, schema?, handles, List.find?_isSome]

theorem exists_entity?_iff {id : EntityId} :
    (∃ e, d.entity? id = some e) ↔ id ∈ d.handles .entity := by
  simp [← Option.isSome_iff_exists, entity?, handles, List.find?_isSome]

/-! ### Steps -/

/-- The handles of a document, nested as its nodes are. -/
def handleTree (d : Document) : List (SchemaId × List (EntityId × List AttrId)) :=
  d.schemas.map fun s => (s.id, s.entities.map fun e => (e.id, e.attributes.map Member.id))

/-- Whether a change keeps all handles in their places and issues none. -/
structure SameHandles (d d' : Document) : Prop where
  tree : d'.handleTree = d.handleTree
  issued : ∀ sort, d'.issued sort = d.issued sort

theorem handles_eq_of_tree (htree : d'.handleTree = d.handleTree) (sort : NodeSort) :
    d'.handles sort = d.handles sort := by
  have hschemas : ∀ d : Document, d.handles .schema = d.handleTree.map Prod.fst := by
    intro d
    simp only [handles, handleTree, List.map_map, Function.comp_def]
  have hentities : ∀ d : Document,
      d.handles .entity = (d.handleTree.flatMap Prod.snd).map Prod.fst := by
    intro d
    simp only [handles, handleTree, entities, List.flatMap_map, List.map_flatMap, List.map_map,
      Function.comp_def]
  have hmembers : ∀ d : Document,
      d.handles .attr = (d.handleTree.flatMap Prod.snd).flatMap Prod.snd := by
    intro d
    simp only [handles, handleTree, members, entities, List.flatMap_map, List.map_flatMap,
      List.flatMap_assoc]
  cases sort with
  | schema => rw [hschemas, hschemas, htree]
  | entity => rw [hentities, hentities, htree]
  | attr => rw [hmembers, hmembers, htree]

theorem SameHandles.handles (hsame : SameHandles d d') (sort : NodeSort) :
    d'.handles sort = d.handles sort :=
  handles_eq_of_tree hsame.tree sort

/-- What one change can do to the handles of each sort. -/
def HandleStep (d d' : Document) : Prop :=
  ∀ sort, ((d'.handles sort).Sublist (d.handles sort) ∧ d'.issued sort = d.issued sort) ∨
    ((d'.handles sort).Perm (.fresh (d.issued sort) :: d.handles sort) ∧
      d'.issued sort = d.issued sort + 1)

/-- Every handle of the later document is one of the earlier or was issued since. -/
structure Extends (d d' : Document) : Prop where
  issued_le : ∀ sort, d.issued sort ≤ d'.issued sort
  old_or_new : ∀ sort, ∀ h ∈ d'.handles sort, h ∈ d.handles sort ∨ d.issued sort < h.number

theorem SameHandles.refl (d : Document) : SameHandles d d :=
  ⟨rfl, fun _ => rfl⟩

theorem SameHandles.trans {d'' : Document} (hfirst : SameHandles d d')
    (hsecond : SameHandles d' d'') : SameHandles d d'' :=
  ⟨hsecond.tree.trans hfirst.tree, fun sort => (hsecond.issued sort).trans (hfirst.issued sort)⟩

theorem SameHandles.step (hsame : SameHandles d d') : HandleStep d d' :=
  fun sort => Or.inl ⟨hsame.handles sort ▸ List.Sublist.refl _, hsame.issued sort⟩

theorem HandleStep.then_same {d'' : Document} (hstep : HandleStep d d')
    (hsame : SameHandles d' d'') : HandleStep d d'' := by
  intro sort
  rw [hsame.handles sort, hsame.issued sort]
  exact hstep sort

theorem Extends.refl (d : Document) : Extends d d :=
  ⟨fun _ => Nat.le_refl _, fun _ _ hmem => Or.inl hmem⟩

theorem Extends.trans {d'' : Document} (hfirst : Extends d d') (hsecond : Extends d' d'') :
    Extends d d'' := by
  refine ⟨fun sort => Nat.le_trans (hfirst.issued_le sort) (hsecond.issued_le sort), ?_⟩
  intro sort h hmem
  rcases hsecond.old_or_new sort h hmem with hold | hnew
  · exact hfirst.old_or_new sort h hold
  · exact Or.inr (Nat.lt_of_le_of_lt (hfirst.issued_le sort) hnew)

theorem HandleStep.extends (hstep : HandleStep d d') : Extends d d' := by
  constructor
  · intro sort
    rcases hstep sort with ⟨_, hcount⟩ | ⟨_, hcount⟩ <;> omega
  · intro sort h hmem
    rcases hstep sort with ⟨hsub, _⟩ | ⟨hperm, _⟩
    · exact Or.inl (hsub.subset hmem)
    · rcases List.mem_cons.mp (hperm.subset hmem) with rfl | hold
      · exact Or.inr (Nat.lt_succ_self _)
      · exact Or.inl hold

/-- The handle issued next is not in use. -/
theorem HandlesSound.fresh_not_mem (hd : d.HandlesSound) (sort : NodeSort) :
    .fresh (d.issued sort) ∉ d.handles sort := by
  intro hmem
  have hbound := (hd.issued sort _ hmem).2
  simp only [Handle.fresh] at hbound
  omega

theorem HandlesSound.step (hd : d.HandlesSound) (hstep : HandleStep d d') : d'.HandlesSound := by
  constructor
  · intro sort
    rcases hstep sort with ⟨hsub, _⟩ | ⟨hperm, _⟩
    · exact hsub.nodup (hd.nodup sort)
    · exact hperm.nodup_iff.mpr (List.nodup_cons.mpr ⟨hd.fresh_not_mem sort, hd.nodup sort⟩)
  · intro sort h hmem
    rcases hstep sort with ⟨hsub, hcount⟩ | ⟨hperm, hcount⟩
    · rw [hcount]
      exact hd.issued sort h (hsub.subset hmem)
    · rw [hcount]
      rcases List.mem_cons.mp (hperm.subset hmem) with rfl | hold
      · exact ⟨Nat.succ_pos _, Nat.le_refl _⟩
      · have hbound := hd.issued sort h hold
        exact ⟨hbound.1, Nat.le_succ_of_le hbound.2⟩

/-! ### Changes that keep the handles -/

theorem sameHandles_mapEntities {f : Entity → Entity} (hid : ∀ e, (f e).id = e.id)
    (hattrs : ∀ e, (f e).attributes.map Member.id = e.attributes.map Member.id) :
    SameHandles d (d.mapEntities f) where
  tree := by simp only [handleTree, mapEntities, List.map_map, Function.comp_def, hid, hattrs]
  issued sort := by cases sort <;> rfl

theorem sameHandles_mapMembers {f : Member → Member} (hid : ∀ m, (f m).id = m.id) :
    SameHandles d (d.mapMembers f) :=
  sameHandles_mapEntities (fun _ => rfl) fun e => by simp [hid]

theorem sameHandles_modifyMember {id : AttrId} {f : Member → Member}
    (hid : ∀ m, m.id = id → (f m).id = id) : SameHandles d (d.modifyMember id f) := by
  apply sameHandles_mapMembers
  intro m
  split
  next heq => rw [hid m heq, heq]
  next => rfl

end Blueprint.Document

namespace Blueprint.Member

@[simp] theorem resolvedTo_id (found : Option Target) (m : Member) :
    (m.resolvedTo found).id = m.id := by
  unfold resolvedTo
  split <;> try rfl
  split <;> rfl

@[simp] theorem detach_id (gone : List EntityId) (m : Member) : (m.detach gone).id = m.id := by
  unfold detach
  split <;> rfl

end Blueprint.Member

namespace Blueprint.Document

variable {d d' next : Document}

@[simp] theorem resolved_id (m : Member) : (d.resolved m).id = m.id :=
  Member.resolvedTo_id _ m

theorem sameHandles_distinguish (id : AttrId) : SameHandles d (d.distinguish id) := by
  refine sameHandles_mapEntities (fun _ => rfl) fun e => ?_
  simp only [Entity.distinguish, List.map_map]
  apply List.map_congr_left
  intro m _
  simp only [Function.comp_apply]
  split
  · exact Member.distinguish_id _ _
  · rfl

theorem sameHandles_resolveReference (id : AttrId) : SameHandles d (d.resolveReference id).1 := by
  unfold resolveReference
  split
  · exact SameHandles.refl d
  · split
    · exact sameHandles_modifyMember fun m hm => (resolved_id m).trans hm
    · exact SameHandles.refl d

theorem sameHandles_resolveReferences : SameHandles d d.resolveReferences := by
  apply sameHandles_mapMembers
  intro m
  split
  · exact resolved_id m
  · rfl

theorem sameHandles_retryReferences : SameHandles d d.retryReferences := by
  apply sameHandles_mapMembers
  intro m
  split
  · exact resolved_id _
  · rfl

theorem sameHandles_retarget (reference : AttrId × EntityId × Bool) :
    SameHandles d (d.retarget reference) := by
  unfold retarget
  dsimp only
  split
  · exact SameHandles.refl d
  next e _ =>
    have hname : SameHandles d (d.modifyMember reference.1 fun m =>
        { m with name := d.writtenName e reference.2.2 }) :=
      sameHandles_modifyMember fun _ hm => hm
    exact hname.trans (sameHandles_distinguish _)

theorem sameHandles_retargetReferences (renamed : List EntityId) :
    SameHandles d (d.retargetReferences renamed) := by
  unfold retargetReferences
  generalize d.referencesTo renamed = references
  induction references generalizing d with
  | nil => exact SameHandles.refl d
  | cons reference rest ih => exact (sameHandles_retarget reference).trans ih

theorem entities_nameSchema (id : SchemaId) (name : String) :
    (d.nameSchema id name).entities = d.entities := by
  simp only [entities, nameSchema, modifySchema, List.flatMap_map]
  congr 1
  funext s
  split <;> rfl

theorem members_nameEntity (id : EntityId) (name : String) :
    (d.nameEntity id name).members = d.members := by
  rw [nameEntity, modifyEntity, members_mapEntities, members]
  congr 1
  funext e
  split <;> rfl

theorem handles_modifySchema {id : SchemaId} {f : Schema → Schema} (hid : ∀ s, (f s).id = s.id) :
    (d.modifySchema id f).handles .schema = d.handles .schema := by
  simp only [handles, modifySchema, List.map_map]
  apply List.map_congr_left
  intro s _
  simp only [Function.comp_apply]
  split
  · exact hid s
  · rfl

theorem sameHandles_nameSchema (id : SchemaId) (name : String) :
    SameHandles d (d.nameSchema id name) where
  tree := by
    simp only [handleTree, nameSchema, modifySchema, List.map_map]
    apply List.map_congr_left
    intro s _
    simp only [Function.comp_apply]
    split <;> rfl
  issued sort := by cases sort <;> rfl

theorem sameHandles_nameEntity (id : EntityId) (name : String) :
    SameHandles d (d.nameEntity id name) := by
  apply sameHandles_mapEntities
  · intro e
    split <;> rfl
  · intro e
    split <;> rfl

theorem sameHandles_putMember (id : AttrId) (a : Attribute) :
    SameHandles d (d.putMember id a) :=
  sameHandles_modifyMember fun _ _ => rfl

theorem sameHandles_pointMember (id : AttrId) (target : EntityId) :
    SameHandles d (d.pointMember id target) :=
  sameHandles_modifyMember fun _ hm => hm

/-! ### Changes that take handles away -/

theorem entities_dropSchema_sublist (id : SchemaId) :
    (d.dropSchema id).entities.Sublist d.entities :=
  List.filter_sublist.flatMap _

theorem entities_dropEntity (id : EntityId) :
    (d.dropEntity id).entities = d.entities.filter (·.id ≠ id) := by
  simp only [entities, dropEntity, List.flatMap_map, List.filter_flatMap]

theorem handleStep_dropSchema (id : SchemaId) : HandleStep d (d.dropSchema id) := by
  have hentities := entities_dropSchema_sublist (d := d) id
  intro sort
  cases sort with
  | schema => exact Or.inl ⟨List.filter_sublist.map _, rfl⟩
  | entity => exact Or.inl ⟨hentities.map _, rfl⟩
  | attr => exact Or.inl ⟨(hentities.flatMap _).map _, rfl⟩

theorem handleStep_dropEntity (id : EntityId) : HandleStep d (d.dropEntity id) := by
  have hentities : (d.dropEntity id).entities.Sublist d.entities :=
    entities_dropEntity (d := d) id ▸ List.filter_sublist
  intro sort
  cases sort with
  | schema => exact Or.inl ⟨by simp [handles, dropEntity, Function.comp_def], rfl⟩
  | entity => exact Or.inl ⟨hentities.map _, rfl⟩
  | attr => exact Or.inl ⟨(hentities.flatMap _).map _, rfl⟩

theorem members_dropMember (id : AttrId) :
    (d.dropMember id).members = d.members.filter (·.id ≠ id) := by
  rw [dropMember, members_mapEntities, members, List.filter_flatMap]

theorem handleStep_dropMember (id : AttrId) : HandleStep d (d.dropMember id) := by
  intro sort
  cases sort with
  | schema => exact Or.inl ⟨by simp [handles, dropMember, mapEntities, Function.comp_def], rfl⟩
  | entity => exact Or.inl ⟨by simp [handles, dropMember, Function.comp_def], rfl⟩
  | attr =>
      refine Or.inl ⟨?_, rfl⟩
      rw [handles, handles, members_dropMember]
      exact List.filter_sublist.map _

/-! ### Changes that issue a handle -/

/-- The schema of a handle is the only one that a change under this handle reaches. -/
theorem HandlesSound.exists_split_schema (hd : d.HandlesSound) {id : SchemaId} {s : Schema}
    (hs : d.schema? id = some s) :
    ∃ before after, d.schemas = before ++ s :: after ∧
      ∀ f, (d.modifySchema id f).schemas = before ++ f s :: after := by
  obtain ⟨hid, before, after, hsplit, _⟩ := List.find?_eq_some_iff_append.mp hs
  obtain rfl : s.id = id := by simpa using hid
  refine ⟨before, after, hsplit, fun f => ?_⟩
  have hnodup := hd.nodup .schema
  rw [handles, hsplit] at hnodup
  rw [modifySchema, hsplit]
  exact map_update_of_nodup hnodup

/-- The entity of a handle is the only one that a change under this handle reaches. -/
theorem HandlesSound.exists_split_entity (hd : d.HandlesSound) {id : EntityId} {e : Entity}
    (he : d.entity? id = some e) :
    ∃ before after, d.entities = before ++ e :: after ∧
      ∀ f, (d.modifyEntity id f).entities = before ++ f e :: after := by
  obtain ⟨hid, before, after, hsplit, _⟩ := List.find?_eq_some_iff_append.mp he
  obtain rfl : e.id = id := by simpa using hid
  refine ⟨before, after, hsplit, fun f => ?_⟩
  have hnodup := hd.nodup .entity
  rw [handles, hsplit] at hnodup
  rw [modifyEntity, entities_mapEntities, hsplit]
  exact map_update_of_nodup hnodup

theorem entities_addSchema (name : String) : (d.addSchema name).1.entities = d.entities := by
  simp [entities, addSchema]

theorem handleStep_addSchema (name : String) : HandleStep d (d.addSchema name).1 := by
  have hentities := entities_addSchema (d := d) name
  intro sort
  cases sort with
  | schema =>
      refine Or.inr ⟨?_, rfl⟩
      rw [handles, handles, addSchema, List.map_append]
      exact List.perm_append_singleton _ _
  | entity => exact Or.inl ⟨by rw [handles, handles, hentities], rfl⟩
  | attr => exact Or.inl ⟨by rw [handles, handles, members, members, hentities], rfl⟩

/-- A new entity brings no attributes. -/
theorem members_placeEntity (schema : SchemaId) (name : String) :
    (d.placeEntity schema (d.nextEntity name)).members = d.members := by
  simp only [members, entities, placeEntity, modifySchema, List.flatMap_map, List.flatMap_assoc]
  congr 1
  funext s
  split
  · simp [nextEntity]
  · rfl

theorem handles_placeEntity_schema (schema : SchemaId) (e : Entity) :
    (d.placeEntity schema e).handles .schema = d.handles .schema :=
  handles_modifySchema (d := d) (f := fun s => { s with entities := s.entities ++ [e] })
    fun _ => rfl

theorem HandlesSound.step_placeEntity (hd : d.HandlesSound) {schema : SchemaId} {s : Schema}
    (hs : d.schema? schema = some s) (name : String) :
    HandleStep d (d.placeEntity schema (d.nextEntity name)) := by
  obtain ⟨before, after, hsplit, hmodify⟩ := hd.exists_split_schema hs
  have hplaced : (d.placeEntity schema (d.nextEntity name)).schemas =
      before ++ { s with entities := s.entities ++ [d.nextEntity name] } :: after :=
    hmodify fun s => { s with entities := s.entities ++ [d.nextEntity name] }
  intro sort
  cases sort with
  | schema => exact Or.inl ⟨handles_placeEntity_schema (d := d) schema _ ▸ .refl _, rfl⟩
  | entity =>
      refine Or.inr ⟨?_, rfl⟩
      simp only [handles, entities, hplaced, hsplit, List.flatMap_append, List.flatMap_cons,
        List.map_append, List.map_cons, List.append_assoc]
      rw [← List.append_assoc, ← List.append_assoc (List.map Entity.id (before.flatMap _))]
      exact List.perm_middle
  | attr => exact Or.inl ⟨by rw [handles, handles, members_placeEntity], rfl⟩

/-- A new entity of the last schema comes last. -/
theorem HandlesSound.schemas_placeEntity_last (hd : d.HandlesSound) {before : List Schema}
    {s : Schema} (hsplit : d.schemas = before ++ [s]) (e : Entity) :
    (d.placeEntity s.id e).schemas = before ++ [{ s with entities := s.entities ++ [e] }] := by
  have hnodup := hd.nodup .schema
  rw [handles, hsplit] at hnodup
  simp only [placeEntity, modifySchema, hsplit]
  exact map_update_of_nodup hnodup

theorem handles_placeMember_schema (entity : EntityId) (m : Member) :
    (d.placeMember entity m).handles .schema = d.handles .schema := by
  simp [handles, placeMember, modifyEntity, mapEntities, Function.comp_def]

theorem HandlesSound.step_placeMember (hd : d.HandlesSound) {entity : EntityId} {e : Entity}
    (he : d.entity? entity = some e) (a : Attribute) :
    HandleStep d (d.placeMember entity (d.nextMember a)) := by
  obtain ⟨before, after, hsplit, hmodify⟩ := hd.exists_split_entity he
  have hplaced : (d.placeMember entity (d.nextMember a)).entities =
      before ++ { e with attributes := e.attributes ++ [d.nextMember a] } :: after :=
    hmodify fun e => { e with attributes := e.attributes ++ [d.nextMember a] }
  intro sort
  cases sort with
  | schema => exact Or.inl ⟨handles_placeMember_schema (d := d) entity _ ▸ .refl _, rfl⟩
  | entity => exact Or.inl ⟨by simp [handles, hplaced, hsplit], rfl⟩
  | attr =>
      refine Or.inr ⟨?_, rfl⟩
      simp only [handles, members, hplaced, hsplit, List.flatMap_append, List.flatMap_cons,
        List.map_append, List.map_cons, List.append_assoc]
      rw [← List.append_assoc, ← List.append_assoc (List.map Member.id (before.flatMap _))]
      exact List.perm_middle

/-! ### Edits and runs -/

theorem HandlesSound.step_attached (hd : d.HandlesSound) {entity : EntityId} {e : Entity}
    (he : d.entity? entity = some e) (a : Attribute) : HandleStep d (d.attached entity a) :=
  (hd.step_placeMember he a).then_same (sameHandles_distinguish _)

theorem HandlesSound.handleStep (hd : d.HandlesSound) {e : Edit} {answer : Answer}
    (hstep : Step d e next answer) : HandleStep d next := by
  cases hstep with
  | addSchema name => exact handleStep_addSchema name
  | renameSchema _ name =>
      exact (((sameHandles_nameSchema _ name).trans (sameHandles_retargetReferences _)).trans
        sameHandles_retryReferences).step
  | removeSchema _ =>
      exact (handleStep_dropSchema _).then_same
        (sameHandles_mapMembers fun m => Member.detach_id _ m)
  | addEntity hs name => exact (hd.step_placeEntity hs name).then_same sameHandles_retryReferences
  | renameEntity _ name =>
      exact (((sameHandles_nameEntity _ name).trans (sameHandles_retargetReferences _)).trans
        sameHandles_retryReferences).step
  | removeEntity _ =>
      exact (handleStep_dropEntity _).then_same
        (sameHandles_mapMembers fun m => Member.detach_id _ m)
  | addAttribute he _ =>
      exact (hd.step_attached he _).then_same (sameHandles_resolveReference _)
  | insertAttribute he a =>
      exact (hd.step_attached he a).then_same (sameHandles_resolveReference _)
  | replaceAttribute _ _ =>
      exact (((sameHandles_putMember _ _).trans (sameHandles_distinguish _)).trans
        (sameHandles_resolveReference _)).step
  | removeAttribute _ => exact handleStep_dropMember _
  | setReference _ _ =>
      exact (((sameHandles_pointMember _ _).trans (sameHandles_resolveReference _)).trans
        (sameHandles_distinguish _)).step
  | resolveReference id => exact (sameHandles_resolveReference id).step
  | resolveReferences => exact sameHandles_resolveReferences.step
  | setMaxDepth n => exact (SameHandles.refl d).step

/-- An edit hands out the handle whose turn it is. -/
theorem Step.issues {e : Edit} {answer : Answer} (hstep : Step d e next answer)
    {sort : NodeSort} {h : Handle sort} (hissues : answer.Issues h) :
    h = .fresh (d.issued sort) ∧ next.issued sort = d.issued sort + 1 := by
  have hresolve : ∀ (d : Document) id, (d.resolveReference id).1.attrCount = d.attrCount :=
    fun d id => (sameHandles_resolveReference (d := d) id).issued .attr
  cases hstep with
  | addSchema name =>
      cases hissues
      exact ⟨rfl, rfl⟩
  | addEntity _ name =>
      cases hissues
      exact ⟨rfl, rfl⟩
  | addAttribute _ _ =>
      cases hissues
      exact ⟨rfl, hresolve _ _⟩
  | insertAttribute _ a =>
      cases hissues
      exact ⟨rfl, hresolve _ _⟩
  | _ => cases hissues

theorem HandleStep.fresh_mem (hstep : HandleStep d d') {sort : NodeSort}
    (hcount : d'.issued sort = d.issued sort + 1) :
    .fresh (d.issued sort) ∈ d'.handles sort := by
  rcases hstep sort with ⟨_, hsame⟩ | ⟨hperm, _⟩
  · omega
  · exact hperm.mem_iff.mpr List.mem_cons_self

theorem HandlesSound.perform (hd : d.HandlesSound) (e : Edit) :
    (d.perform e).HandlesSound ∧ Extends d (d.perform e) := by
  cases hedit : d.edit e with
  | ok result =>
      have hstep := hd.handleStep (Step.of_edit hedit)
      rw [perform_of_ok hedit]
      exact ⟨hd.step hstep, hstep.extends⟩
  | error err =>
      rw [perform_of_error hedit]
      exact ⟨hd, Extends.refl d⟩

theorem HandlesSound.run (hd : d.HandlesSound) (es : List Edit) :
    (d.run es).HandlesSound ∧ Extends d (d.run es) := by
  induction es generalizing d with
  | nil => exact ⟨hd, Extends.refl d⟩
  | cons e es ih =>
      have hfirst := hd.perform e
      have hrest := ih hfirst.1
      exact ⟨hrest.1, hfirst.2.trans hrest.2⟩

/-- What a longer run leads to extends what a shorter one leads to. -/
theorem HandlesSound.extends_take (hd : d.HandlesSound) (es : List Edit) {i j : Nat}
    (hij : i ≤ j) : Extends (d.run (es.take i)) (d.run (es.take j)) := by
  obtain ⟨n, rfl⟩ := Nat.exists_eq_add_of_le hij
  rw [List.take_add, run_append]
  exact ((hd.run (es.take i)).1.run _).2

theorem handlesSound_empty (maxDepth : Nat) : (empty maxDepth).HandlesSound := by
  constructor
  · intro sort
    cases sort <;> exact List.nodup_nil
  · intro sort h hmem
    cases sort <;> cases hmem

end Blueprint.Document
