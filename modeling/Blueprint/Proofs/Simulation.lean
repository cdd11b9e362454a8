import Blueprint.Proofs.ArenaNodes
import Blueprint.Proofs.Failures

/-! # Edits of an arena

An edit of the arena of a document ends in the arena of the edited document, with the same
answer, or it fails as the edit of the document does and has changed nothing. So every run
of edits on an arena follows the run on its document, and so does reading.
-/

namespace Blueprint

/-! ### Running changes -/

namespace Arena

variable {a : Arena} {α β : Type}

/-- Go on where the result of the first changes is no failure. -/
def andThen (r : EStateM.Result EditError Arena α) (k : α → Change β) :
    EStateM.Result EditError Arena β :=
  match r with
  | .ok x next => (k x).run next
  | .error err rest => .error err rest

theorem run_bind (p : Change α) (k : α → Change β) : (p >>= k).run a = andThen (p.run a) k := by
  change EStateM.bind p k a = _
  unfold EStateM.bind andThen EStateM.run
  cases p a <;> rfl

@[simp] theorem andThen_ok (x : α) (next : Arena) (k : α → Change β) :
    andThen (.ok x next) k = (k x).run next :=
  rfl

@[simp] theorem andThen_error (err : EditError) (rest : Arena) (k : α → Change β) :
    andThen (.error err rest) k = .error err rest :=
  rfl

theorem run_pure (x : α) : (pure x : Change α).run a = .ok x a :=
  rfl

theorem run_get : (get : Change Arena).run a = .ok a a :=
  rfl

theorem run_modify (f : Arena → Arena) : (modify f : Change Unit).run a = .ok () (f a) :=
  rfl

/-- The result of changes is turned into an answer. -/
theorem run_answer {p : Change α} {x : α} {next : Arena} (hp : p.run a = .ok x next)
    (f : α → Answer) : (do return f (← p)).run a = .ok (f x) next := by
  rw [run_bind, hp]
  rfl

theorem run_changeSchema (id : SchemaId) (f : SchemaNode → SchemaNode) :
    (changeSchema id f).run a = match a.schema? id with
      | some s => .ok s (a.mapSchemas (.update id f))
      | none => .error (.unknownSchema id) a := by
  rw [changeSchema, run_bind, run_get, andThen_ok]
  cases a.schema? id <;> rfl

theorem run_changeEntity (id : EntityId) (f : EntityNode → EntityNode) :
    (changeEntity id f).run a = match a.entity? id with
      | some e => .ok e (a.mapEntities (.update id f))
      | none => .error (.unknownEntity id) a := by
  rw [changeEntity, run_bind, run_get, andThen_ok]
  cases a.entity? id <;> rfl

theorem run_changeAttr (id : AttrId) (f : AttrNode → AttrNode) :
    (changeAttr id f).run a = match a.attr? id with
      | some m => .ok m (a.mapAttributes (.update id f))
      | none => .error (.unknownAttribute id) a := by
  rw [changeAttr, run_bind, run_get, andThen_ok]
  cases a.attr? id <;> rfl

theorem run_readLine_of_ok {line : String} {x : Attribute} (hx : Attribute.ofLine line = .ok x) :
    (readLine line).run a = .ok x a := by
  unfold readLine Blueprint.readLine
  rw [hx]
  rfl

theorem run_readLine_of_error {line : String} {f : Fault} (hf : Attribute.ofLine line = .error f) :
    (readLine line).run a = .error (.fault f) a := by
  unfold readLine Blueprint.readLine
  rw [hf]
  rfl

end Arena

namespace Document

variable {d next : Document}

/-! ### Removals one by one -/

/-- The document without some of its entities. -/
def dropEntities (ids : List EntityId) (d : Document) : Document :=
  { d with schemas := d.schemas.map fun s =>
      { s with entities := s.entities.filter (·.id ∉ ids) } }

theorem detach_nil (m : Member) : m.detach [] = m := by
  unfold Member.detach
  cases m.target <;> simp

theorem detach_cons (id : EntityId) (ids : List EntityId) (m : Member) :
    m.detach (id :: ids) = (m.detach [id]).detach ids := by
  unfold Member.detach
  cases htarget : m.target with
  | none => simp [htarget]
  | some t =>
      by_cases heq : t = id
      · simp [heq]
      · simp [htarget, heq]

theorem dropEntities_nil : (d.dropEntities []).mapMembers (Member.detach []) = d := by
  have hdetach : (Member.detach [] : Member → Member) = id := funext detach_nil
  simp [dropEntities, mapMembers, mapEntities, hdetach]

theorem dropEntities_cons (id : EntityId) (ids : List EntityId) :
    (((d.dropEntity id).mapMembers (Member.detach [id])).dropEntities ids).mapMembers
        (Member.detach ids) =
      (d.dropEntities (id :: ids)).mapMembers (Member.detach (id :: ids)) := by
  have hdetach : (Member.detach (id :: ids)) = Member.detach ids ∘ Member.detach [id] :=
    funext (detach_cons id ids)
  have hkept : ∀ es : List Entity, es.filter (·.id ∉ id :: ids) =
      (es.filter (·.id ≠ id)).filter (·.id ∉ ids) := by
    intro es
    rw [List.filter_filter]
    refine List.filter_congr fun e _ => ?_
    simp [Bool.and_comm]
  simp only [dropEntities, mapMembers, mapEntities, dropEntity, hdetach, hkept, List.map_map,
    Function.comp_def, List.filter_map]

theorem dropSchema_mapMembers (id : SchemaId) (f : Member → Member) :
    (d.mapMembers f).dropSchema id = (d.dropSchema id).mapMembers f := by
  simp only [dropSchema, mapMembers, mapEntities, List.filter_map, Function.comp_def]

/-- No entity of a schema is in another one, so only the schema itself is left over. -/
theorem HandlesSound.dropSchema_dropEntities (hd : d.HandlesSound) {s : Schema}
    (hs : s ∈ d.schemas) :
    ((d.dropEntities (s.entities.map Entity.id)).mapMembers
        (Member.detach (s.entities.map Entity.id))).dropSchema s.id =
      (d.dropSchema s.id).mapMembers (Member.detach (s.entities.map Entity.id)) := by
  have hothers : ∀ s' ∈ d.schemas, s'.id ≠ s.id →
      s'.entities.filter (·.id ∉ s.entities.map Entity.id) = s'.entities := by
    intro s' hs' hne
    refine List.filter_eq_self.mpr fun e he => ?_
    simp only [decide_eq_true_eq, List.mem_map, not_exists, not_and]
    intro e' he' heq
    have hhome := hd.schemaOf?_eq hs' he
    rw [← heq, hd.schemaOf?_eq hs he'] at hhome
    exact hne (congrArg Schema.id (Option.some.inj hhome)).symm
  have hschemas : ((d.schemas.filter (·.id ≠ s.id)).map fun s' =>
      { s' with entities := s'.entities.filter (·.id ∉ s.entities.map Entity.id) }) =
        d.schemas.filter (·.id ≠ s.id) := by
    refine (List.map_congr_left fun s' hs' => ?_).trans (List.map_id _)
    obtain ⟨hmem, hne⟩ := List.mem_filter.mp hs'
    rw [hothers s' hmem (by simpa using hne)]
    rfl
  have hdrop : (d.dropEntities (s.entities.map Entity.id)).dropSchema s.id = d.dropSchema s.id := by
    simp only [dropSchema, dropEntities, List.filter_map, Function.comp_def]
    rw [hschemas]
  rw [dropSchema_mapMembers, hdrop]

/-! ### Successful edits -/

section Sound

variable (hd : d.HandlesSound)

include hd

theorem HandlesSound.run_addSchema (name : String) :
    (Arena.addSchema name).run d.arena =
      .ok (.fresh d.schemaCount) (d.addSchema name).1.arena := by
  have hlength : d.arena.schemas.length = d.schemaCount := Slots.length_layOut
  rw [← hd.arena_addSchema]
  simp only [Arena.addSchema, Arena.run_bind, Arena.run_get, Arena.andThen_ok, Arena.run_modify,
    Arena.run_pure, hlength]
  rfl

theorem HandlesSound.run_attach {entity : EntityId} {e : Entity}
    (he : d.entity? entity = some e) (a : Attribute) :
    (Arena.attach entity a).run d.arena = .ok (.fresh d.attrCount) (d.attached entity a).arena := by
  have hlength : d.arena.attributes.length = d.attrCount := Slots.length_layOut
  obtain ⟨s, _, _, hnode⟩ := hd.arena_entity?_of_some he
  have hplaced := hd.step (hd.step_placeMember he a)
  rw [attached, ← hplaced.arena_distinguish, ← hd.arena_placeMember he]
  simp only [Arena.attach, Arena.run_bind, Arena.run_get, Arena.andThen_ok, Arena.run_changeEntity,
    hnode, Arena.run_modify, Arena.run_pure, hlength]
  rfl

theorem HandlesSound.run_removeEntity {id : EntityId} (hid : id ∈ d.handles .entity) :
    (Arena.removeEntity id).run d.arena =
      .ok () ((d.dropEntity id).mapMembers (Member.detach [id])).arena := by
  obtain ⟨e, hmem, rfl⟩ := List.mem_map.mp hid
  obtain ⟨s, hs, he⟩ := mem_entities.mp hmem
  rw [← arena_detach, ← hd.arena_dropEntity hs he fun e => { e with attributes := [] }]
  simp only [Arena.removeEntity, Arena.run_bind, Arena.run_changeEntity,
    hd.arena_entity?_of_mem hs he, Arena.andThen_ok, Arena.run_modify]
  rfl

theorem HandlesSound.run_removeAttribute {id : AttrId} {m : Member} (hm : d.member? id = some m) :
    (Arena.removeAttribute id).run d.arena = .ok () (d.dropMember id).arena := by
  obtain ⟨e, he, hlisted, hnode⟩ := hd.arena_attr?_of_some hm
  obtain ⟨_, rfl⟩ := mem_of_member? hm
  have hsame : d.arena.mapAttributes (.update m.id fun m => m) = d.arena := by
    rw [Arena.mapAttributes, Slots.update_id]
  rw [← hd.arena_dropMember he hlisted]
  simp only [Arena.removeAttribute, Arena.run_bind, Arena.run_changeAttr, hnode, hsame,
    Arena.andThen_ok, Arena.run_modify]
  rfl

variable (hordered : d.Ordered)

include hordered

/-- The entities of a list are removed one by one, if all of them are there. -/
theorem HandlesSound.run_removeEntities {ids : List EntityId} (hnodup : ids.Nodup)
    (hlive : ∀ id ∈ ids, id ∈ d.handles .entity) :
    (Arena.removeEntities ids).run d.arena =
      .ok () ((d.dropEntities ids).mapMembers (Member.detach ids)).arena := by
  induction ids generalizing d with
  | nil =>
      rw [dropEntities_nil]
      rfl
  | cons id ids ih =>
      obtain ⟨hid, hnodup⟩ := List.nodup_cons.mp hnodup
      obtain ⟨hfirst, hlive⟩ := List.forall_mem_cons.mp hlive
      have hdetach : SameHandles (d.dropEntity id)
          ((d.dropEntity id).mapMembers (Member.detach [id])) :=
        sameHandles_mapMembers fun m => Member.detach_id _ m
      rw [Arena.removeEntities, Arena.run_bind, hd.run_removeEntity hfirst, Arena.andThen_ok,
        ih (hd.step ((handleStep_dropEntity id).then_same hdetach))
          ((hordered.dropEntity id).same hdetach) hnodup, dropEntities_cons]
      -- The entities that are left to remove are others.
      intro other hother
      rw [hdetach.handles .entity, handles, entities_dropEntity]
      obtain ⟨e, he, rfl⟩ := List.mem_map.mp (hlive other hother)
      refine List.mem_map.mpr ⟨e, List.mem_filter.mpr ⟨he, ?_⟩, rfl⟩
      simpa using fun heq : e.id = id => hid (heq ▸ hother)

theorem HandlesSound.run_removeSchema {id : SchemaId} {s : Schema} (hs : d.schema? id = some s) :
    (Arena.removeSchema id).run d.arena =
      .ok () ((d.dropSchema id).mapMembers (Member.detach (s.entities.map Entity.id))).arena := by
  obtain ⟨hmem, rfl⟩ := mem_of_schema? hs
  have hnode := hd.arena_schema?_of_some hs
  have hnodup : (s.entities.map Entity.id).Nodup := nodup_children (hd.nodup .entity) hmem
  have hlive : ∀ id ∈ s.entities.map Entity.id, id ∈ d.handles .entity := by
    intro id hid
    obtain ⟨e, he, rfl⟩ := List.mem_map.mp hid
    exact List.mem_map.mpr ⟨e, mem_entities.mpr ⟨s, hmem, he⟩, rfl⟩
  have hsame : d.arena.mapSchemas (.update s.id fun s => s) = d.arena := by
    rw [Arena.mapSchemas, Slots.update_id]
  have hempty : ∀ s' ∈ ((d.dropEntities (s.entities.map Entity.id)).mapMembers
      (Member.detach (s.entities.map Entity.id))).schemas, s'.id = s.id → s'.entities = [] := by
    intro s' hs' hid
    simp only [mapMembers, mapEntities, dropEntities, List.map_map] at hs'
    obtain ⟨s₀, hs₀, rfl⟩ := List.mem_map.mp hs'
    obtain rfl := eq_of_key_eq (hd.nodup .schema) hs₀ hmem hid
    refine List.map_eq_nil_iff.mpr (List.filter_eq_nil_iff.mpr fun e he hkept => ?_)
    exact of_decide_eq_true hkept (List.mem_map_of_mem he)
  rw [← hd.dropSchema_dropEntities hmem, ← arena_dropSchema hempty]
  simp only [Arena.removeSchema, Arena.run_bind, Arena.run_changeSchema, hnode, hsame,
    Arena.andThen_ok]
  have hentities : s.node.entities = s.entities.map Entity.id := rfl
  rw [hentities, hd.run_removeEntities hordered hnodup hlive]
  rfl

theorem HandlesSound.run_addEntity {schema : SchemaId} {s : Schema}
    (hs : d.schema? schema = some s) (name : String) :
    (Arena.addEntity schema name).run d.arena =
      .ok (.fresh d.entityCount)
        (d.placeEntity schema (d.nextEntity name)).retryReferences.arena := by
  have hlength : d.arena.entities.length = d.entityCount := Slots.length_layOut
  have hnode := hd.arena_schema?_of_some hs
  have hplaced := hd.step (hd.step_placeEntity hs name)
  rw [← hplaced.arena_retryReferences (hordered.placeEntity hd schema name),
    ← hd.arena_placeEntity hs]
  simp only [Arena.addEntity, Arena.run_bind, Arena.run_get, Arena.andThen_ok,
    Arena.run_changeSchema, hnode, Arena.run_modify, Arena.run_pure, hlength]
  rfl

theorem HandlesSound.run_insertAttribute {entity : EntityId} {e : Entity}
    (he : d.entity? entity = some e) (a : Attribute) :
    (Arena.insertAttribute entity a).run d.arena =
      .ok (.fresh d.attrCount)
        ((d.attached entity a).resolveReference (.fresh d.attrCount)).1.arena := by
  have hattached := hd.step (hd.step_attached he a)
  simp only [Arena.insertAttribute, Arena.run_bind, hd.run_attach he, Arena.andThen_ok,
    Arena.run_modify, Arena.run_pure,
    hattached.arena_resolveReference (hordered.attached hd entity a)]

/-- Once nodes have new names, so have the references to them, and lost ones are tried again. -/
theorem HandlesSound.arena_renamed (renamed : List EntityId) :
    (d.arena.retargetReferences renamed).retryReferences =
      (d.retargetReferences renamed).retryReferences.arena := by
  have hsame := sameHandles_retargetReferences (d := d) renamed
  rw [hd.arena_retargetReferences hordered,
    (hd.step hsame.step).arena_retryReferences (hordered.same hsame)]

theorem HandlesSound.run_replaceAttribute {id : AttrId} {m : Member} (hm : d.member? id = some m)
    {line : String} {a : Attribute} (ha : Attribute.ofLine line = .ok a) :
    (Arena.replaceAttribute id line).run d.arena =
      .ok () (((d.putMember id a).distinguish id).resolveReference id).1.arena := by
  obtain ⟨e, _, _, hnode⟩ := hd.arena_attr?_of_some hm
  have hput := sameHandles_putMember (d := d) id a
  have hsame := hput.trans (sameHandles_distinguish id)
  have hreplaced : d.arena.mapAttributes (.update id fun m =>
      { a with id := m.id, parent := m.parent }) = (d.putMember id a).arena := by
    apply arena_update
    · exact fun _ hid => hid
    · rintro e _ m _ rfl
      rfl
  simp only [Arena.replaceAttribute, Arena.run_bind, Arena.run_readLine_of_ok ha,
    Arena.andThen_ok, Arena.run_changeAttr, hnode, Arena.run_modify, hreplaced,
    (hd.step hput.step).arena_distinguish,
    (hd.step hsame.step).arena_resolveReference (hordered.same hsame)]

theorem HandlesSound.run_setReference {id : AttrId} {m : Member} (hm : d.member? id = some m)
    {target : EntityId} {e : Entity} (he : d.entity? target = some e) :
    (Arena.setReference id target).run d.arena =
      .ok () (((d.pointMember id target).resolveReference id).1.distinguish id).arena := by
  obtain ⟨_, _, _, hnode⟩ := hd.arena_attr?_of_some hm
  obtain ⟨_, _, _, htarget⟩ := hd.arena_entity?_of_some he
  have hpoint := sameHandles_pointMember (d := d) id target
  have hsame := hpoint.trans (sameHandles_resolveReference id)
  have hpointed : d.arena.mapAttributes (.update id fun m =>
      { m with toMember := m.pointed target }) = (d.pointMember id target).arena :=
    arena_updateMember fun _ hid => hid
  simp only [Arena.setReference, Arena.run_bind, Arena.run_get, Arena.andThen_ok, htarget,
    Option.isNone_some, Bool.false_eq_true, if_false, Arena.run_changeAttr, hnode, Arena.run_modify,
    hpointed, (hd.step hpoint.step).arena_resolveReference (hordered.same hpoint),
    (hd.step hsame.step).arena_distinguish]

theorem HandlesSound.run_renameSchema {id : SchemaId} {s : Schema} (hs : d.schema? id = some s)
    (name : String) :
    (Arena.renameSchema id name).run d.arena =
      .ok () ((d.nameSchema id name).retargetReferences
        (s.entities.map Entity.id)).retryReferences.arena := by
  have hnode := hd.arena_schema?_of_some hs
  have hsame := sameHandles_nameSchema (d := d) id name
  rw [← (hd.step hsame.step).arena_renamed (hordered.same hsame), ← arena_nameSchema]
  simp only [Arena.renameSchema, Arena.run_bind, Arena.run_changeSchema, hnode, Arena.andThen_ok,
    Arena.run_modify]
  rfl

theorem HandlesSound.run_renameEntity {id : EntityId} {e : Entity} (he : d.entity? id = some e)
    (name : String) :
    (Arena.renameEntity id name).run d.arena =
      .ok () ((d.nameEntity id name).retargetReferences [id]).retryReferences.arena := by
  obtain ⟨s, _, _, hnode⟩ := hd.arena_entity?_of_some he
  have hsame := sameHandles_nameEntity (d := d) id name
  rw [← (hd.step hsame.step).arena_renamed (hordered.same hsame), ← arena_nameEntity]
  simp only [Arena.renameEntity, Arena.run_bind, Arena.run_changeEntity, hnode, Arena.andThen_ok,
    Arena.run_modify]

theorem HandlesSound.run_addAttribute {entity : EntityId} {e : Entity}
    (he : d.entity? entity = some e) {line : String} {a : Attribute}
    (ha : Attribute.ofLine line = .ok a) :
    (Arena.addAttribute entity line).run d.arena =
      .ok (.fresh d.attrCount)
        ((d.attached entity a).resolveReference (.fresh d.attrCount)).1.arena := by
  rw [Arena.addAttribute, Arena.run_bind, Arena.run_readLine_of_ok ha, Arena.andThen_ok,
    hd.run_insertAttribute hordered he]

/-- Where an edit of a document succeeds, so does the edit of its arena. -/
theorem HandlesSound.run_step {e : Edit} {answer : Answer} (hstep : Step d e next answer) :
    (Arena.edit e).run d.arena = .ok answer next.arena := by
  cases hstep with
  | addSchema name => exact Arena.run_answer (hd.run_addSchema name) .schema
  | renameSchema hs name =>
      exact Arena.run_answer (hd.run_renameSchema hordered hs name) fun _ => .done
  | removeSchema hs => exact Arena.run_answer (hd.run_removeSchema hordered hs) fun _ => .done
  | addEntity hs name => exact Arena.run_answer (hd.run_addEntity hordered hs name) .entity
  | renameEntity he name =>
      exact Arena.run_answer (hd.run_renameEntity hordered he name) fun _ => .done
  | removeEntity he =>
      have hlive := exists_entity?_iff.mp ⟨_, he⟩
      exact Arena.run_answer (hd.run_removeEntity hlive) fun _ => .done
  | addAttribute he ha => exact Arena.run_answer (hd.run_addAttribute hordered he ha) .attr
  | insertAttribute he a => exact Arena.run_answer (hd.run_insertAttribute hordered he a) .attr
  | replaceAttribute hm ha =>
      exact Arena.run_answer (hd.run_replaceAttribute hordered hm ha) fun _ => .done
  | removeAttribute hm => exact Arena.run_answer (hd.run_removeAttribute hm) fun _ => .done
  | setReference hm he =>
      exact Arena.run_answer (hd.run_setReference hordered hm he) fun _ => .done
  | resolveReference id =>
      simp only [Arena.edit, Arena.run_bind, Arena.run_get, Arena.andThen_ok,
        hd.arena_resolveReference hordered]
      rfl
  | resolveReferences =>
      rw [← hd.arena_resolveReferences hordered]
      rfl
  | setMaxDepth n => rfl

end Sound

end Document

/-! ### Failing edits -/

namespace Arena

variable {a : Arena} {e : Edit}

/-- Whether a handle is on a node. -/
def isLive (a : Arena) : {sort : NodeSort} → Handle sort → Bool
  | .schema, id => (a.schema? id).isSome
  | .entity, id => (a.entity? id).isSome
  | .attr, id => (a.attr? id).isSome

/-- The first of the handles given to an edit that is on no node. -/
def firstStale? (a : Arena) (e : Edit) : Option (Σ sort, Handle sort) :=
  e.given.find? fun h => !a.isLive h.2

theorem run_changeSchema_of_stale {id : SchemaId} (hid : a.isLive id = false)
    (f : SchemaNode → SchemaNode) :
    (changeSchema id f).run a = .error (.unknown ⟨.schema, id⟩) a := by
  have hnone : a.schema? id = none := by simpa [isLive] using hid
  rw [run_changeSchema, hnone]
  rfl

theorem run_changeEntity_of_stale {id : EntityId} (hid : a.isLive id = false)
    (f : EntityNode → EntityNode) :
    (changeEntity id f).run a = .error (.unknown ⟨.entity, id⟩) a := by
  have hnone : a.entity? id = none := by simpa [isLive] using hid
  rw [run_changeEntity, hnone]
  rfl

theorem run_changeAttr_of_stale {id : AttrId} (hid : a.isLive id = false)
    (f : AttrNode → AttrNode) :
    (changeAttr id f).run a = .error (.unknown ⟨.attr, id⟩) a := by
  have hnone : a.attr? id = none := by simpa [isLive] using hid
  rw [run_changeAttr, hnone]
  rfl

theorem eq_of_firstStale? {h g : Σ sort, Handle sort} (hgiven : e.given = [g])
    (hstale : a.firstStale? e = some h) : h = g ∧ a.isLive g.2 = false := by
  rw [firstStale?, hgiven] at hstale
  cases hlive : a.isLive g.2 with
  | true => simp [hlive] at hstale
  | false => simp_all

/-- The target is looked up before the attribute. -/
theorem run_setReference_of_stale {id : AttrId} {target : EntityId} {h : Σ sort, Handle sort}
    (hstale : a.firstStale? (.setReference id target) = some h) :
    (setReference id target).run a = .error (.unknown h) a := by
  simp only [setReference, run_bind, run_get, andThen_ok]
  cases htarget : a.entity? target with
  | none =>
      obtain rfl : ⟨.entity, target⟩ = h := by
        simpa [firstStale?, Edit.given, isLive, htarget] using hstale
      rfl
  | some e =>
      obtain ⟨hid, rfl⟩ : a.isLive id = false ∧ ⟨.attr, id⟩ = h := by
        simpa [firstStale?, Edit.given, isLive, htarget] using hstale
      simp only [Option.isNone_some, Bool.false_eq_true, if_false, run_bind,
        run_changeAttr_of_stale hid, andThen_error]

/-- An edit ends in the fault of its line before it has looked at a handle. -/
theorem run_edit_of_fault {f : Fault} (hfault : e.fault? = some f) :
    (edit e).run a = .error (.fault f) a := by
  cases e with
  | addAttribute entity line =>
      simp only [Edit.fault?, Document.lineFault?_eq_some_iff] at hfault
      simp only [edit, addAttribute, run_bind, run_readLine_of_error hfault, andThen_error]
  | replaceAttribute id line =>
      simp only [Edit.fault?, Document.lineFault?_eq_some_iff] at hfault
      simp only [edit, replaceAttribute, run_bind, run_readLine_of_error hfault, andThen_error]
  | _ => cases hfault

/-- An edit fails on a stale handle before it has changed anything. -/
theorem run_edit_of_stale {h : Σ sort, Handle sort} (hfault : e.fault? = none)
    (hstale : a.firstStale? e = some h) : (edit e).run a = .error (.unknown h) a := by
  cases e with
  | renameSchema id name =>
      obtain ⟨rfl, hid⟩ := eq_of_firstStale? rfl hstale
      simp only [edit, renameSchema, run_bind, run_changeSchema_of_stale hid, andThen_error]
  | removeSchema id =>
      obtain ⟨rfl, hid⟩ := eq_of_firstStale? rfl hstale
      simp only [edit, removeSchema, run_bind, run_changeSchema_of_stale hid, andThen_error]
  | addEntity schema name =>
      obtain ⟨rfl, hid⟩ := eq_of_firstStale? rfl hstale
      simp only [edit, addEntity, run_bind, run_get, andThen_ok, run_changeSchema_of_stale hid,
        andThen_error]
  | renameEntity id name =>
      obtain ⟨rfl, hid⟩ := eq_of_firstStale? rfl hstale
      simp only [edit, renameEntity, run_bind, run_changeEntity_of_stale hid, andThen_error]
  | removeEntity id =>
      obtain ⟨rfl, hid⟩ := eq_of_firstStale? rfl hstale
      simp only [edit, removeEntity, run_bind, run_changeEntity_of_stale hid, andThen_error]
  | addAttribute entity line =>
      simp only [Edit.fault?, Document.lineFault?_eq_none_iff] at hfault
      obtain ⟨x, hx⟩ := hfault
      obtain ⟨rfl, hid⟩ := eq_of_firstStale? rfl hstale
      simp only [edit, addAttribute, insertAttribute, attach, run_bind, run_readLine_of_ok hx,
        run_get, andThen_ok, run_changeEntity_of_stale hid, andThen_error]
  | insertAttribute entity x =>
      obtain ⟨rfl, hid⟩ := eq_of_firstStale? rfl hstale
      simp only [edit, insertAttribute, attach, run_bind, run_get, andThen_ok,
        run_changeEntity_of_stale hid, andThen_error]
  | replaceAttribute id line =>
      simp only [Edit.fault?, Document.lineFault?_eq_none_iff] at hfault
      obtain ⟨x, hx⟩ := hfault
      obtain ⟨rfl, hid⟩ := eq_of_firstStale? rfl hstale
      simp only [edit, replaceAttribute, run_bind, run_readLine_of_ok hx, andThen_ok,
        run_changeAttr_of_stale hid, andThen_error]
  | removeAttribute id =>
      obtain ⟨rfl, hid⟩ := eq_of_firstStale? rfl hstale
      simp only [edit, removeAttribute, run_bind, run_changeAttr_of_stale hid, andThen_error]
  | setReference id target =>
      simp only [edit, run_bind, run_setReference_of_stale hstale, andThen_error]
  | _ => cases hstale

end Arena

/-! ### Edits and runs -/

namespace Document

variable {d : Document}

/-- The outcome of an edit as that of changes of the arena: a failed one has changed nothing. -/
def outcome (d : Document) :
    Except EditError (Document × Answer) → EStateM.Result EditError Arena Answer
  | .ok (next, answer) => .ok answer next.arena
  | .error err => .error err d.arena

theorem left_outcome (d : Document) (e : Edit) :
    Arena.left (d.outcome (d.edit e)) = (d.perform e).arena := by
  unfold perform
  cases d.edit e <;> rfl

section Sound

variable (hd : d.HandlesSound)

include hd

theorem HandlesSound.isLive_arena {sort : NodeSort} (h : Handle sort) :
    d.arena.isLive h ↔ h ∈ d.handles sort := by
  cases sort with
  | schema =>
      rw [Arena.isLive, hd.arena_schema?, Option.isSome_map, Option.isSome_iff_exists,
        exists_schema?_iff]
  | entity =>
      rw [Arena.isLive, hd.isSome_arena_entity?, Option.isSome_iff_exists, exists_entity?_iff]
  | attr =>
      rw [Arena.isLive, hd.arena_attr?, List.find?_isSome, ← map_id_attrNodes, List.mem_map]
      simp only [decide_eq_true_eq]

theorem HandlesSound.firstStale?_arena (e : Edit) : d.arena.firstStale? e = d.firstStale? e := by
  unfold Arena.firstStale? firstStale?
  congr 1
  funext h
  rw [Bool.eq_iff_iff, Bool.not_eq_true', decide_eq_true_eq, ← hd.isLive_arena,
    Bool.not_eq_true]

variable (hordered : d.Ordered)

include hordered

/-- An edit does to the arena of a document what it does to the document. -/
theorem HandlesSound.edit_arena (e : Edit) :
    (Arena.edit e).run d.arena = d.outcome (d.edit e) := by
  rcases d.edit_cases e with
    ⟨f, hfault, hedit⟩ | ⟨hfault, ⟨h, hstale, hedit⟩ | ⟨_, next, answer, hedit⟩⟩
  · rw [Arena.run_edit_of_fault hfault, hedit]
    rfl
  · rw [Arena.run_edit_of_stale hfault ((hd.firstStale?_arena e).trans hstale), hedit]
    rfl
  · rw [hd.run_step hordered (Step.of_edit hedit), hedit]
    rfl

/-- Edits of the arena of a document lead to the arena of the document that they lead to. -/
theorem HandlesSound.run_arena (es : List Edit) : d.arena.run es = (d.run es).arena := by
  induction es generalizing d with
  | nil => rfl
  | cons e es ih =>
      have hstep : Arena.left ((Arena.edit e).run d.arena) = (d.perform e).arena := by
        rw [hd.edit_arena hordered, left_outcome]
      calc d.arena.run (e :: es)
          = (Arena.left ((Arena.edit e).run d.arena)).run es := rfl
        _ = (d.perform e).arena.run es := by rw [hstep]
        _ = (d.run (e :: es)).arena := ih (hd.perform e).1 (hordered.run hd [e])

end Sound

end Document

/-! ### Reading -/

namespace Cursor

variable {c : Cursor}

/-- A document that is being read, laid out in slots. -/
def laidOut (c : Cursor) : Arena.Cursor :=
  ⟨c.document.arena, c.schema, c.entity⟩

theorem Reading.read_laidOut (hc : c.Reading) (line : Line) :
    c.laidOut.read line = (c.read line).map laidOut := by
  cases line with
  | schema text =>
      simp only [Arena.Cursor.read, laidOut, hc.handles.run_addSchema]
      rfl
  | entity text =>
      cases hschema : c.schema with
      | none =>
          simp only [Arena.Cursor.read, laidOut, Cursor.read, hschema, Except.map]
      | some schema =>
          obtain ⟨s, hs⟩ := hc.schema?_isSome hschema
          rw [hc.read_entity_eq hschema, ← hc.retryReferences_placeEntity]
          simp only [Arena.Cursor.read, laidOut, hschema, hc.handles.run_addEntity hc.ordered hs]
          rfl
  | attr text =>
      cases hentity : c.entity with
      | none =>
          simp only [Arena.Cursor.read, laidOut, Cursor.read, hentity, Except.map]
      | some entity =>
          obtain ⟨e, he⟩ := hc.entity?_isSome hentity
          rw [hc.read_attr_eq hentity]
          simp only [Arena.Cursor.read, laidOut, hentity, hc.handles.run_attach he]
          cases Attribute.ofLine text <;> rfl
  | ignored => rfl

theorem Reading.foldlM_laidOut (hc : c.Reading) (lines : List Line) :
    lines.foldlM Arena.Cursor.read c.laidOut = (lines.foldlM Cursor.read c).map laidOut := by
  induction lines generalizing c with
  | nil => rfl
  | cons line lines ih =>
      rw [List.foldlM_cons, List.foldlM_cons, hc.read_laidOut]
      cases hline : c.read line with
      | error fault => rfl
      | ok next => exact ih (hc.read hline)

end Cursor

/-- A document is read into its arena. -/
theorem Arena.read_eq (maxDepth : Nat) (source : String) :
    Arena.read maxDepth source = (Document.read maxDepth source).map Document.arena := by
  have hstart := Cursor.reading_start maxDepth
  rw [Arena.read, Document.read]
  generalize (Line.scan source).map Prod.snd = lines
  have hlines := hstart.foldlM_laidOut lines
  have hempty : (Blueprint.Cursor.start maxDepth).laidOut = ⟨.empty maxDepth, none, none⟩ := rfl
  rw [hempty] at hlines
  rw [hlines]
  cases hread : lines.foldlM Blueprint.Cursor.read (.start maxDepth) with
  | error fault => rfl
  | ok c =>
      have hc := hstart.foldlM hread
      exact congrArg Except.ok (hc.handles.arena_resolveReferences hc.ordered)

/-! ### Where runs start -/

namespace Arena

variable {a : Arena}

inductive IsOrigin : Arena → Prop where
  | empty (maxDepth : Nat) : IsOrigin (.empty maxDepth)
  | read {maxDepth : Nat} {source : String} {a : Arena}
      (hread : Arena.read maxDepth source = .ok a) : IsOrigin a

/-- An arena that runs start from stores a document that they start from. -/
theorem IsOrigin.document (ha : a.IsOrigin) : a.document.IsOrigin ∧ a = a.document.arena := by
  have hlaidOut : ∀ d : Document, d.IsOrigin → d.arena.document = d := fun d hd =>
    hd.sound.handles.document_arena hd.sound.ordered
  cases ha with
  | empty maxDepth => exact ⟨.empty maxDepth, rfl⟩
  | @read maxDepth source a hread =>
      rw [read_eq] at hread
      obtain ⟨d, hd, rfl⟩ := exists_of_map_eq_ok hread
      rw [hlaidOut d (.read hd)]
      exact ⟨.read hd, rfl⟩

/-- Along every run an arena stores the document that the same edits lead to. -/
theorem IsOrigin.run_eq (ha : a.IsOrigin) (es : List Edit) :
    a.run es = (a.document.run es).arena ∧ (a.run es).document = a.document.run es := by
  obtain ⟨hd, hstored⟩ := ha.document
  have hrun : a.run es = (a.document.run es).arena := by
    have hfollows := hd.sound.handles.run_arena hd.sound.ordered es
    rwa [← hstored] at hfollows
  refine ⟨hrun, ?_⟩
  rw [hrun]
  exact (hd.handles_run es).document_arena (hd.ordered_run es)

end Arena

end Blueprint
