import Blueprint.Proofs.Sound

/-! # Reading

Between two lines the document that is being read has sound handles and plain names,
and the next line belongs at its end. Its references are open and none of them is
reported yet, so resolving them at the end settles all attributes. Together with what
edits preserve, this makes every document that a run leads to sound.
-/

namespace Blueprint

namespace Cursor

variable {c c' : Cursor}

/-- What holds between two lines. -/
structure Reading (c : Cursor) : Prop where
  handles : c.document.HandlesSound
  ordered : c.document.Ordered
  plain : c.document.PlainNames
  unresolved : ∀ m ∈ c.document.members, m.target = none ∧ m.isLost = false
  /-- Entities go to the last schema. -/
  schema : (c.document.schemas.getLast?).map Schema.id = c.schema
  /-- Attributes go to the last entity of the last schema. -/
  entity : (c.document.schemas.getLast?.bind fun s => s.entities.getLast?).map Entity.id = c.entity

theorem reading_start (maxDepth : Nat) : (start maxDepth).Reading where
  handles := Document.handlesSound_empty maxDepth
  ordered := Document.ordered_empty maxDepth
  plain := fun _ hs => absurd hs List.not_mem_nil
  unresolved := fun _ hm => absurd hm List.not_mem_nil
  schema := rfl
  entity := rfl

theorem Reading.exists_last_schema (hc : c.Reading) {schema : SchemaId}
    (hschema : c.schema = some schema) :
    ∃ before s, c.document.schemas = before ++ [s] ∧ s.id = schema := by
  have hlast := hc.schema.trans hschema
  obtain ⟨s, hs, hid⟩ := Option.map_eq_some_iff.mp hlast
  obtain ⟨before, hsplit⟩ := List.getLast?_eq_some_iff.mp hs
  exact ⟨before, s, hsplit, hid⟩

theorem Reading.exists_last_entity (hc : c.Reading) {entity : EntityId}
    (hentity : c.entity = some entity) :
    ∃ before s es e, c.document.schemas = before ++ [s] ∧ s.entities = es ++ [e] ∧
      e.id = entity := by
  have hlast := hc.entity.trans hentity
  obtain ⟨e, he, hid⟩ := Option.map_eq_some_iff.mp hlast
  obtain ⟨s, hs, he⟩ := Option.bind_eq_some_iff.mp he
  obtain ⟨before, hsplit⟩ := List.getLast?_eq_some_iff.mp hs
  obtain ⟨es, hentities⟩ := List.getLast?_eq_some_iff.mp he
  exact ⟨before, s, es, e, hsplit, hentities, hid⟩

theorem Reading.schema?_isSome (hc : c.Reading) {schema : SchemaId}
    (hschema : c.schema = some schema) : ∃ s, c.document.schema? schema = some s := by
  obtain ⟨before, s, hsplit, rfl⟩ := hc.exists_last_schema hschema
  exact ⟨s, hc.handles.schema?_eq (by simp [hsplit])⟩

theorem Reading.entity?_isSome (hc : c.Reading) {entity : EntityId}
    (hentity : c.entity = some entity) : ∃ e, c.document.entity? entity = some e := by
  obtain ⟨before, s, es, e, hsplit, hentities, rfl⟩ := hc.exists_last_entity hentity
  have hmem : e ∈ c.document.entities :=
    Document.mem_entities.mpr ⟨s, by simp [hsplit], by simp [hentities]⟩
  exact ⟨e, hc.handles.entity?_eq hmem⟩

theorem Reading.addSchema (hc : c.Reading) (name : String) :
    Reading ⟨(c.document.addSchema name).1, some (.fresh c.document.schemaCount), none⟩ where
  handles := hc.handles.step (Document.handleStep_addSchema name)
  ordered := hc.ordered.addSchema hc.handles name
  plain := Document.EveryName.addSchema Name.ofText_isPlain hc.plain name
  unresolved := by
    intro m hm
    rw [Document.members, Document.entities_addSchema] at hm
    exact hc.unresolved m hm
  schema := by simp [Document.addSchema]
  entity := by simp [Document.addSchema]

/-- Nothing was reported yet, so a new entity changes no reference. -/
theorem Reading.retryReferences_placeEntity (hc : c.Reading) (schema : SchemaId)
    (name : String) :
    (c.document.placeEntity schema (c.document.nextEntity name)).retryReferences =
      c.document.placeEntity schema (c.document.nextEntity name) := by
  apply Document.mapMembers_eq_self
  intro m hm
  rw [Document.members_placeEntity] at hm
  simp only [(hc.unresolved m hm).2, Bool.and_false, Bool.false_eq_true, if_false]

theorem Reading.placeEntity (hc : c.Reading) {schema : SchemaId}
    (hschema : c.schema = some schema) (name : String) :
    Reading ⟨c.document.placeEntity schema (c.document.nextEntity name), c.schema,
      some (.fresh c.document.entityCount)⟩ := by
  obtain ⟨s, hs⟩ := hc.schema?_isSome hschema
  obtain ⟨before, last, hsplit, rfl⟩ := hc.exists_last_schema hschema
  have hplaced := hc.handles.schemas_placeEntity_last hsplit (c.document.nextEntity name)
  exact {
    handles := hc.handles.step (hc.handles.step_placeEntity hs name)
    ordered := hc.ordered.placeEntity hc.handles last.id name
    plain := Document.EveryName.placeEntity Name.ofText_isPlain hc.plain last.id name
    unresolved := by
      intro m hm
      rw [Document.members_placeEntity] at hm
      exact hc.unresolved m hm
    schema := by simp [hplaced, hschema]
    entity := by
      rw [hplaced]
      simp [Document.nextEntity] }

theorem Reading.attached (hc : c.Reading) {entity : EntityId} {e : Entity}
    (he : c.document.entity? entity = some e) {line : String} {a : Attribute}
    (ha : Attribute.ofLine line = .ok a) :
    Reading { c with document := c.document.attached entity a } where
  handles := hc.handles.step (hc.handles.step_attached he a)
  ordered := hc.ordered.attached hc.handles entity a
  plain := (Document.plainNames_congr (Document.outline_attached entity a)).mpr hc.plain
  unresolved := by
    intro m hm
    -- A line gives no target, and distinguishing it from its siblings adds no defect.
    obtain ⟨htarget, hdefect, _⟩ := Attribute.ofLine_frame ha
    rcases hc.handles.mem_members_attached hm with hold | ⟨siblings, rfl⟩
    · exact hc.unresolved m hold
    · rw [Member.distinguish_target, Attribute.isLost, Member.distinguish_defects]
      exact ⟨htarget, by simpa [Document.nextMember, Attribute.issued] using hdefect⟩
  schema := by
    rw [hc.handles.attached_eq, ← hc.schema]
    simp [Document.appendMember, Document.mapEntities, Function.comp_def]
  entity := by
    rw [hc.handles.attached_eq, ← hc.entity]
    generalize c.document.nextMember a = m
    have hid : ∀ e : Entity, (if e.id = entity then
        { e with attributes := e.attributes ++ [m.distinguish e.attributes] } else e).id = e.id := by
      intro e
      split <;> rfl
    simp only [Document.appendMember, Document.mapEntities, List.getLast?_map, Option.bind_map,
      Function.comp_def, Option.map_bind, Option.map_map, hid]

theorem read_schema_eq (c : Cursor) (text : String) :
    c.read (.schema text) =
      .ok ⟨(c.document.addSchema text).1, some (.fresh c.document.schemaCount), none⟩ :=
  rfl

/-- An entity line puts an entity at the end of the last schema. -/
theorem Reading.read_entity_eq (hc : c.Reading) {schema : SchemaId}
    (hschema : c.schema = some schema) (text : String) :
    c.read (.entity text) =
      .ok ⟨c.document.placeEntity schema (c.document.nextEntity (entityText text)), c.schema,
        some (.fresh c.document.entityCount)⟩ := by
  obtain ⟨s, hs⟩ := hc.schema?_isSome hschema
  simp only [Cursor.read, hschema, Document.addEntity_of_schema? hs,
    hc.retryReferences_placeEntity]

/-- An attribute line puts an attribute at the end of the last entity. -/
theorem Reading.read_attr_eq (hc : c.Reading) {entity : EntityId}
    (hentity : c.entity = some entity) (text : String) :
    c.read (.attr text) = (Attribute.ofLine text).map fun a =>
      { c with document := c.document.attached entity a } := by
  obtain ⟨e, he⟩ := hc.entity?_isSome hentity
  simp only [Cursor.read, hentity, Document.attach_of_entity? he]

theorem Reading.read (hc : c.Reading) {line : Line} (hread : c.read line = .ok c') :
    c'.Reading := by
  cases line with
  | schema text => exact Except.ok.inj hread ▸ hc.addSchema text
  | entity text =>
      cases hschema : c.schema with
      | none =>
          simp only [Cursor.read, hschema] at hread
          exact Except.ok.inj hread ▸ hc
      | some schema =>
          rw [hc.read_entity_eq hschema] at hread
          exact Except.ok.inj hread ▸ hc.placeEntity hschema _
  | attr text =>
      cases hentity : c.entity with
      | none =>
          simp only [Cursor.read, hentity] at hread
          exact Except.ok.inj hread ▸ hc
      | some entity =>
          rw [hc.read_attr_eq hentity] at hread
          obtain ⟨a, ha, rfl⟩ := exists_of_map_eq_ok hread
          obtain ⟨e, he⟩ := hc.entity?_isSome hentity
          exact hc.attached he ha
  | ignored => exact Except.ok.inj hread ▸ hc

theorem Reading.foldlM (hc : c.Reading) {lines : List Line}
    (hread : lines.foldlM Cursor.read c = .ok c') : c'.Reading := by
  induction lines generalizing c with
  | nil => exact Except.ok.inj hread ▸ hc
  | cons line lines ih =>
      rw [List.foldlM_cons] at hread
      cases hline : c.read line with
      | error fault => rw [hline] at hread; cases hread
      | ok next =>
          rw [hline] at hread
          exact ih (hc.read hline) hread

/-- What schemas, entities and attribute lines keep of a document. -/
structure Keeps (motive : Document → Prop) : Prop where
  schema : ∀ d name, motive d → motive (d.addSchema name).1
  entity : ∀ d id name, motive d → motive (d.placeEntity id (d.nextEntity name))
  attr : ∀ (d : Document) id line a, d.HandlesSound → '\n' ∉ line.toList →
    Attribute.ofLine line = .ok a → motive d → motive (d.attached id a)

variable {motive : Document → Prop}

theorem Keeps.read (hkeeps : Keeps motive) (hc : c.Reading) (hmotive : motive c.document)
    {line : Line} (hline : ∀ text, line = .attr text → '\n' ∉ text.toList)
    (hread : c.read line = .ok c') : motive c'.document := by
  cases line with
  | schema text => exact Except.ok.inj hread ▸ hkeeps.schema _ text hmotive
  | entity text =>
      cases hschema : c.schema with
      | none =>
          simp only [Cursor.read, hschema] at hread
          exact Except.ok.inj hread ▸ hmotive
      | some schema =>
          rw [hc.read_entity_eq hschema] at hread
          exact Except.ok.inj hread ▸ hkeeps.entity _ schema _ hmotive
  | attr text =>
      cases hentity : c.entity with
      | none =>
          simp only [Cursor.read, hentity] at hread
          exact Except.ok.inj hread ▸ hmotive
      | some entity =>
          rw [hc.read_attr_eq hentity] at hread
          obtain ⟨a, ha, rfl⟩ := exists_of_map_eq_ok hread
          exact hkeeps.attr _ entity text a hc.handles (hline text rfl) ha hmotive
  | ignored => exact Except.ok.inj hread ▸ hmotive

theorem Keeps.foldlM (hkeeps : Keeps motive) (hc : c.Reading) (hmotive : motive c.document)
    {lines : List Line} (hlines : ∀ text, .attr text ∈ lines → '\n' ∉ text.toList)
    (hread : lines.foldlM Cursor.read c = .ok c') : motive c'.document := by
  induction lines generalizing c with
  | nil => exact Except.ok.inj hread ▸ hmotive
  | cons line lines ih =>
      rw [List.foldlM_cons] at hread
      cases hline : c.read line with
      | error fault => rw [hline] at hread; cases hread
      | ok next =>
          rw [hline] at hread
          refine ih (hc.read hline) (hkeeps.read hc hmotive ?_ hline) ?_ hread
          · rintro text rfl
            exact hlines text List.mem_cons_self
          · exact fun text htext => hlines text (List.mem_cons_of_mem _ htext)

end Cursor

namespace Document

theorem sound_empty (maxDepth : Nat) : (empty maxDepth).Sound :=
  ⟨handlesSound_empty maxDepth, ordered_empty maxDepth, fun _ hs => absurd hs List.not_mem_nil,
    fun _ hm => absurd hm List.not_mem_nil⟩

/-- A document that was read is what the last line left, with its references resolved. -/
theorem exists_reading {maxDepth : Nat} {source : String} {d : Document}
    (hread : Document.read maxDepth source = .ok d) :
    ∃ c : Cursor, c.Reading ∧ d = c.document.resolveReferences := by
  obtain ⟨c, hfold, rfl⟩ := exists_of_map_eq_ok hread
  exact ⟨c, (Cursor.reading_start maxDepth).foldlM hfold, rfl⟩

theorem sound_read {maxDepth : Nat} {source : String} {d : Document}
    (hread : Document.read maxDepth source = .ok d) : d.Sound := by
  obtain ⟨c, hc, rfl⟩ := exists_reading hread
  refine ⟨hc.handles.step sameHandles_resolveReferences.step,
    hc.ordered.same sameHandles_resolveReferences,
    (plainNames_congr (outline_mapMembers _)).mpr hc.plain, ?_⟩
  apply hc.handles.membersSettled_resolveReferences
  intro m hm t ht
  rw [(hc.unresolved m hm).1] at ht
  cases ht

theorem IsOrigin.sound {d : Document} (hd : d.IsOrigin) : d.Sound := by
  cases hd with
  | empty maxDepth => exact sound_empty maxDepth
  | read hread => exact sound_read hread

theorem IsOrigin.handles_run {d : Document} (hd : d.IsOrigin) (es : List Edit) :
    (d.run es).HandlesSound :=
  (hd.sound.handles.run es).1

theorem IsOrigin.ordered_run {d : Document} (hd : d.IsOrigin) (es : List Edit) :
    (d.run es).Ordered :=
  hd.sound.ordered.run hd.sound.handles es

/-- Every document that a run leads to is sound. -/
theorem IsOrigin.sound_run {d : Document} (hd : d.IsOrigin) {es : List Edit}
    (hes : ∀ e ∈ es, e.isWritten) : (d.run es).Sound :=
  run_induction (fun _ _ _ _ hsound hwritten hedit => hsound.step (Step.of_edit hedit) hwritten)
    hd.sound hes

end Document

end Blueprint
