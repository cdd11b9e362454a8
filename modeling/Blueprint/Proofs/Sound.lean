import Blueprint.Proofs.AttributeLine
import Blueprint.Proofs.HandleOrder
import Blueprint.Proofs.References

/-! # What every document keeps

Handles are sound, names hold nothing but name characters, and attributes are
settled: this holds of a document that was read, and every written edit preserves it.
-/

namespace Blueprint.Document

variable {d d' next : Document}

/-- Whether the names of schemas and entities hold nothing but name characters. -/
def PlainNames (d : Document) : Prop :=
  ∀ s ∈ d.schemas, Name.IsPlain s.name ∧ ∀ e ∈ s.entities, Name.IsPlain e.name

structure Sound (d : Document) : Prop where
  handles : d.HandlesSound
  ordered : d.Ordered
  plain : d.PlainNames
  settled : d.MembersSettled

/-! ### Changes of the outline -/

/-- Whether the names of all schemas and entities have a property. -/
def EveryName (p : String → Prop) (d : Document) : Prop :=
  ∀ s ∈ d.schemas, p s.name ∧ ∀ e ∈ s.entities, p e.name

theorem everyName_congr {p : String → Prop} (houtline : d.outline = d'.outline) :
    d.EveryName p ↔ d'.EveryName p := by
  have hiff : ∀ d : Document, d.EveryName p ↔
      ∀ s ∈ d.outline, p s.name ∧ ∀ e ∈ s.entities, p e.name := by
    intro d
    simp [EveryName, outline, mapEntities]
  rw [hiff, hiff, houtline]

theorem plainNames_congr (houtline : d.outline = d'.outline) : d.PlainNames ↔ d'.PlainNames :=
  everyName_congr houtline

section EveryName

variable {p : String → Prop} (hp : ∀ text n, p (Name.ofText text n))
include hp

theorem EveryName.addSchema (hd : d.EveryName p) (name : String) :
    (d.addSchema name).1.EveryName p := by
  intro s hs
  rcases List.mem_append.mp hs with hs | hs
  · exact hd s hs
  · obtain rfl := List.mem_singleton.mp hs
    dsimp only
    exact ⟨hp _ _, by simp⟩

omit hp in
theorem EveryName.modifySchema (hd : d.EveryName p) {id : SchemaId} {f : Schema → Schema}
    (hf : ∀ s ∈ d.schemas, p (f s).name ∧ ∀ e ∈ (f s).entities, p e.name) :
    (d.modifySchema id f).EveryName p := by
  intro s hs
  obtain ⟨old, hold, rfl⟩ := List.mem_map.mp hs
  split
  next => exact hf old hold
  next => exact hd old hold

theorem EveryName.nameSchema (hd : d.EveryName p) (id : SchemaId) (name : String) :
    (d.nameSchema id name).EveryName p := by
  apply hd.modifySchema
  intro s hs
  dsimp only
  exact ⟨hp _ _, (hd s hs).2⟩

theorem EveryName.placeEntity (hd : d.EveryName p) (schema : SchemaId) (name : String) :
    (d.placeEntity schema (d.nextEntity name)).EveryName p := by
  apply hd.modifySchema
  intro s hs
  refine ⟨(hd s hs).1, fun e he => ?_⟩
  rcases List.mem_append.mp he with he | he
  · exact (hd s hs).2 e he
  · rw [List.mem_singleton.mp he]
    dsimp only [nextEntity]
    exact hp _ _

theorem EveryName.nameEntity (hd : d.EveryName p) (id : EntityId) (name : String) :
    (d.nameEntity id name).EveryName p := by
  intro s hs
  obtain ⟨old, hold, rfl⟩ := List.mem_map.mp hs
  refine ⟨(hd old hold).1, fun e he => ?_⟩
  obtain ⟨e, hmem, rfl⟩ := List.mem_map.mp he
  split
  next =>
    dsimp only
    exact hp _ _
  next => exact (hd old hold).2 e hmem

omit hp in
theorem EveryName.dropSchema (hd : d.EveryName p) (id : SchemaId) :
    (d.dropSchema id).EveryName p :=
  fun s hs => hd s (List.mem_filter.mp hs).1

omit hp in
theorem EveryName.dropEntity (hd : d.EveryName p) (id : EntityId) :
    (d.dropEntity id).EveryName p := by
  intro s hs
  obtain ⟨old, hold, rfl⟩ := List.mem_map.mp hs
  exact ⟨(hd old hold).1, fun e he => (hd old hold).2 e (List.mem_filter.mp he).1⟩

end EveryName

/-- A name that an entity goes by is no handle. -/
theorem PlainNames.no_handle (hd : d.PlainNames) {name : String} {t : EntityId}
    (h : d.Denotes name t) : (Handle.ofText? name : Option EntityId) = none := by
  obtain ⟨s, hs, e, he, _, rfl | rfl⟩ := h
  · exact Handle.ofText?_eq_none ((hd s hs).2 e he).not_mem_hyphen
  · apply Handle.ofText?_eq_none
    simp [(hd s hs).1.not_mem_hyphen, ((hd s hs).2 e he).not_mem_hyphen]

theorem Denotes.addSchema {written : String} {t : EntityId} (h : d.Denotes written t)
    (name : String) : (d.addSchema name).1.Denotes written t := by
  obtain ⟨s, hs, hrest⟩ := h
  exact ⟨s, List.mem_append_left _ hs, hrest⟩

theorem Denotes.placeEntity {written : String} {t : EntityId} (h : d.Denotes written t)
    (schema : SchemaId) (new : Entity) : (d.placeEntity schema new).Denotes written t := by
  obtain ⟨s, hs, e, he, hrest⟩ := h
  by_cases hid : s.id = schema
  · refine ⟨{ s with entities := s.entities ++ [new] },
      List.mem_map.mpr ⟨s, hs, if_pos hid⟩, e, List.mem_append_left _ he, hrest⟩
  · exact ⟨s, List.mem_map.mpr ⟨s, hs, if_neg hid⟩, e, he, hrest⟩

/-- A schema that holds none of the entities of another is another one. -/
theorem HandlesSound.schema_ne (hd : d.HandlesSound) {id : SchemaId} {s s' : Schema} {e : Entity}
    (hs : d.schema? id = some s) (hs' : s' ∈ d.schemas) (he : e ∈ s'.entities)
    (hout : e.id ∉ s.entities.map Entity.id) : s'.id ≠ id := by
  intro heq
  obtain ⟨hmem, hid⟩ := mem_of_schema? hs
  obtain rfl := eq_of_key_eq (hd.nodup .schema) hs' hmem (heq.trans hid.symm)
  exact hout (List.mem_map.mpr ⟨e, he, rfl⟩)

theorem HandlesSound.denotes_nameSchema (hd : d.HandlesSound) {id : SchemaId} {s : Schema}
    (hs : d.schema? id = some s) (name : String) {written : String} {t : EntityId}
    (hout : t ∉ s.entities.map Entity.id) (h : d.Denotes written t) :
    (d.nameSchema id name).Denotes written t := by
  obtain ⟨s', hs', e, he, rfl, hname⟩ := h
  have hne := hd.schema_ne hs hs' he hout
  exact ⟨s', List.mem_map.mpr ⟨s', hs', if_neg hne⟩, e, he, rfl, hname⟩

theorem HandlesSound.denotes_dropSchema (hd : d.HandlesSound) {id : SchemaId} {s : Schema}
    (hs : d.schema? id = some s) {written : String} {t : EntityId}
    (hout : t ∉ s.entities.map Entity.id) (h : d.Denotes written t) :
    (d.dropSchema id).Denotes written t := by
  obtain ⟨s', hs', e, he, rfl, hname⟩ := h
  have hne := hd.schema_ne hs hs' he hout
  exact ⟨s', List.mem_filter.mpr ⟨hs', by simpa using hne⟩, e, he, rfl, hname⟩

theorem Denotes.nameEntity {written : String} {t : EntityId} (h : d.Denotes written t)
    {id : EntityId} (hne : t ≠ id) (name : String) :
    (d.nameEntity id name).Denotes written t := by
  obtain ⟨s, hs, e, he, rfl, hname⟩ := h
  exact ⟨_, List.mem_map.mpr ⟨s, hs, rfl⟩, e, List.mem_map.mpr ⟨e, he, if_neg hne⟩, rfl, hname⟩

theorem Denotes.dropEntity {written : String} {t : EntityId} (h : d.Denotes written t)
    {id : EntityId} (hne : t ≠ id) : (d.dropEntity id).Denotes written t := by
  obtain ⟨s, hs, e, he, rfl, hname⟩ := h
  exact ⟨_, List.mem_map.mpr ⟨s, hs, rfl⟩, e, List.mem_filter.mpr ⟨he, by simpa using hne⟩, rfl,
    hname⟩

/-! ### Edits -/

theorem MembersSettled.addSchema (hd : d.MembersSettled) (name : String) :
    (d.addSchema name).1.MembersSettled := by
  intro m hm
  rw [members, entities_addSchema] at hm
  have hsettled := hd m hm
  exact ⟨fun t ht => ⟨(hsettled.denotes t ht).1, (hsettled.denotes t ht).2.addSchema name⟩,
    hsettled.reported⟩

theorem MembersSettled.placeEntity (hd : d.MembersSettled) (schema : SchemaId) (name : String) :
    (d.placeEntity schema (d.nextEntity name)).MembersSettled := by
  intro m hm
  rw [members_placeEntity] at hm
  have hsettled := hd m hm
  exact ⟨fun t ht => ⟨(hsettled.denotes t ht).1, (hsettled.denotes t ht).2.placeEntity _ _⟩,
    hsettled.reported⟩

theorem Sound.settled_renameSchema (hd : d.Sound) {id : SchemaId} {s : Schema}
    (hs : d.schema? id = some s) (name : String) :
    ((d.nameSchema id name).retargetReferences (s.entities.map Entity.id)).MembersSettled := by
  have hsame := sameHandles_nameSchema (d := d) id name
  apply (hd.handles.step hsame.step).membersSettled_retargetReferences
  intro m hm
  rw [members, entities_nameSchema] at hm
  have hsettled := hd.settled m hm
  refine ⟨hsettled.reported, fun t ht => ?_⟩
  obtain ⟨href, hdenotes⟩ := hsettled.denotes t ht
  refine ⟨href, hsame.handles .entity ▸ hdenotes.live, fun hout => ?_⟩
  exact hd.handles.denotes_nameSchema hs name hout hdenotes

theorem Sound.settled_renameEntity (hd : d.Sound) (id : EntityId) (name : String) :
    ((d.nameEntity id name).retargetReferences [id]).MembersSettled := by
  have hsame := sameHandles_nameEntity (d := d) id name
  apply (hd.handles.step hsame.step).membersSettled_retargetReferences
  intro m hm
  rw [members_nameEntity] at hm
  have hsettled := hd.settled m hm
  refine ⟨hsettled.reported, fun t ht => ?_⟩
  obtain ⟨href, hdenotes⟩ := hsettled.denotes t ht
  refine ⟨href, hsame.handles .entity ▸ hdenotes.live, fun hout => ?_⟩
  exact hdenotes.nameEntity (by simpa using hout) name

/-- What is left after a removal is settled once references to what is gone are detached. -/
theorem MembersSettled.detach (hd : d.MembersSettled) {gone : List EntityId}
    (hmembers : ∀ m ∈ d'.members, m ∈ d.members)
    (hkeep : ∀ name t, t ∉ gone → d.Denotes name t → d'.Denotes name t) :
    (d'.mapMembers (Member.detach gone)).MembersSettled :=
  membersSettled_mapMembers fun m hm => (hd m (hmembers m hm)).detach hkeep

theorem outline_placeMember (entity : EntityId) (new : Member) :
    (d.placeMember entity new).outline = d.outline := by
  apply outline_mapEntities
  intro e
  dsimp only
  split <;> exact ⟨rfl, rfl⟩

theorem outline_attached (entity : EntityId) (a : Attribute) :
    (d.attached entity a).outline = d.outline :=
  (outline_distinguish _).trans (outline_placeMember _ _)

/-- Put an attribute with a segment of its own at the end of an entity. -/
def appendMember (entity : EntityId) (m : Member) (d : Document) : Document :=
  { d.mapEntities fun e =>
      if e.id = entity then { e with attributes := e.attributes ++ [m.distinguish e.attributes] }
      else e with
    attrCount := d.attrCount + 1 }

/-- Distinguishing a new attribute reaches no other one. -/
theorem HandlesSound.attached_eq (hd : d.HandlesSound) (entity : EntityId) (a : Attribute) :
    d.attached entity a = d.appendMember entity (d.nextMember a) := by
  have hfresh : ∀ e ∈ d.entities, ∀ m ∈ e.attributes, m.id ≠ .fresh d.attrCount := by
    intro e he m hm heq
    exact hd.fresh_not_mem .attr
      (heq ▸ List.mem_map.mpr ⟨m, mem_members.mpr ⟨e, he, hm⟩, rfl⟩)
  have hkeep : ∀ e ∈ d.entities, ∀ f : Member → Member,
      (e.attributes.map fun m => if m.id = .fresh d.attrCount then f m else m) = e.attributes := by
    intro e he f
    rw [List.map_congr_left fun m hm => if_neg (hfresh e he m hm), List.map_id']
  have hothers : ∀ e ∈ d.entities,
      e.attributes.filter (·.id ≠ .fresh d.attrCount) = e.attributes := by
    intro e he
    rw [List.filter_eq_self]
    intro m hm
    simpa using hfresh e he m hm
  -- Only the new attribute has the new handle, so it alone is distinguished.
  have hmap : (d.mapEntities fun e => Entity.distinguish (.fresh d.attrCount)
        (if e.id = entity then { e with attributes := e.attributes ++ [d.nextMember a] } else e)) =
      d.mapEntities fun e => if e.id = entity then
        { e with attributes := e.attributes ++ [(d.nextMember a).distinguish e.attributes] }
      else e := by
    apply mapEntities_congr
    intro e he
    split
    · simp only [Entity.distinguish, List.map_append, hkeep e he, List.filter_append, hothers e he,
        List.map_cons, List.map_nil, nextMember, Attribute.issued, if_true, ne_eq, not_true_eq_false, decide_false,
        List.filter_cons, Bool.false_eq_true, if_false, List.filter_nil, List.append_nil]
    · simp only [Entity.distinguish, hkeep e he]
  simp only [appendMember, ← hmap]
  simp only [attached, placeMember, modifyEntity, Document.distinguish, mapEntities, List.map_map,
    Function.comp_def]

/-- A new attribute stands beside those that were there before. -/
theorem HandlesSound.mem_members_attached (hd : d.HandlesSound) {entity : EntityId}
    {a : Attribute} {m : Member} (hm : m ∈ (d.attached entity a).members) :
    m ∈ d.members ∨ ∃ siblings, m = (d.nextMember a).distinguish siblings := by
  rw [hd.attached_eq] at hm
  have hm : m ∈ (d.mapEntities _).members := hm
  rw [members_mapEntities] at hm
  obtain ⟨e, he, hm⟩ := List.mem_flatMap.mp hm
  split at hm
  · rcases List.mem_append.mp hm with hm | hm
    · exact Or.inl (mem_members.mpr ⟨e, he, hm⟩)
    · exact Or.inr ⟨e.attributes, List.mem_singleton.mp hm⟩
  · exact Or.inl (mem_members.mpr ⟨e, he, hm⟩)

/-- A new attribute is settled once it is resolved. -/
theorem Sound.settled_addAttribute (hd : d.Sound) {entity : EntityId} {e : Entity}
    (he : d.entity? entity = some e) {a : Attribute} (ha : a.target = none) :
    ((d.attached entity a).resolveReference (.fresh d.attrCount)).1.MembersSettled := by
  have hhandles := hd.handles.step (hd.handles.step_attached he a)
  apply hhandles.membersSettled_resolveReference
  · intro m hm hid
    apply (Member.settled_congr (outline_attached entity a)).mpr
    rcases hd.handles.mem_members_attached hm with hold | ⟨siblings, rfl⟩
    · exact hd.settled m hold
    · exact absurd (Member.distinguish_id siblings (d.nextMember a)) hid
  · intro m hm hid
    rcases hd.handles.mem_members_attached hm with hold | ⟨siblings, rfl⟩
    · right
      exact (Member.settled_congr (outline_attached entity a)).mpr (hd.settled m hold)
    · exact Or.inl ((Member.distinguish_target siblings (d.nextMember a)).trans ha)

/-- A changed attribute without a target stands beside those that were left alone. -/
theorem mem_members_modifyMember {id : AttrId} {f : Member → Member}
    (hid : ∀ m, m.id = id → (f m).id = id) (htarget : ∀ m, (f m).target = none) {m : Member}
    (hm : m ∈ (d.modifyMember id f).members) :
    m.id ≠ id ∧ m ∈ d.members ∨ m.id = id ∧ m.target = none := by
  rw [modifyMember, members_mapMembers] at hm
  obtain ⟨old, hold, rfl⟩ := List.mem_map.mp hm
  split
  next heq => exact Or.inr ⟨hid old heq, htarget old⟩
  next hne => exact Or.inl ⟨hne, hold⟩

theorem mem_members_replaced {id : AttrId} {a : Attribute} (ha : a.target = none) {m : Member}
    (hm : m ∈ ((d.putMember id a).distinguish id).members) :
    m.id ≠ id ∧ m ∈ d.members ∨ m.id = id ∧ m.target = none := by
  have hput : ∀ m ∈ (d.putMember id a).members,
      m.id ≠ id ∧ m ∈ d.members ∨ m.id = id ∧ m.target = none := fun _ =>
    mem_members_modifyMember (f := fun _ => { a with id := id }) (fun _ _ => rfl) fun _ => ha
  obtain ⟨old, hold, rfl | ⟨hid, siblings, rfl⟩⟩ := mem_members_distinguish hm
  · exact hput _ hold
  · obtain ⟨_, htarget⟩ := (hput old hold).resolve_left fun h => h.1 hid
    exact Or.inr ⟨(Member.distinguish_id _ _).trans hid,
      (Member.distinguish_target _ _).trans htarget⟩

theorem mem_members_pointMember {id : AttrId} {target : EntityId} {m : Member}
    (hm : m ∈ (d.pointMember id target).members) :
    m.id ≠ id ∧ m ∈ d.members ∨ m.id = id ∧ m.target = none :=
  mem_members_modifyMember (f := Member.pointed target) (fun _ h => h) (fun _ => rfl) hm

/-- A replaced attribute is settled once it is resolved. -/
theorem Sound.settled_replaceAttribute (hd : d.Sound) (id : AttrId) {a : Attribute}
    (ha : a.target = none) :
    (((d.putMember id a).distinguish id).resolveReference id).1.MembersSettled := by
  have hsame := (sameHandles_putMember (d := d) id a).trans (sameHandles_distinguish id)
  have houtline : ((d.putMember id a).distinguish id).outline = d.outline :=
    (outline_distinguish id).trans (outline_modifyMember _ _)
  apply (hd.handles.step hsame.step).membersSettled_resolveReference
  · intro m hm hid
    apply (Member.settled_congr houtline).mpr
    exact hd.settled m ((mem_members_replaced ha hm).resolve_right fun h => hid h.1).2
  · intro m hm hid
    exact Or.inl ((mem_members_replaced ha hm).resolve_left fun h => h.1 hid).2

/-- An attribute that was pointed at an entity is settled once it is resolved. -/
theorem Sound.settled_setReference (hd : d.Sound) (id : AttrId) (target : EntityId) :
    ((d.pointMember id target).resolveReference id).1.MembersSettled := by
  apply (hd.handles.step (sameHandles_pointMember id target).step).membersSettled_resolveReference
  · intro m hm hid
    apply (Member.settled_congr (outline_modifyMember _ _)).mpr
    exact hd.settled m ((mem_members_pointMember hm).resolve_right fun h => hid h.1).2
  · intro m hm hid
    exact Or.inl ((mem_members_pointMember hm).resolve_left fun h => h.1 hid).2

theorem outline_resolveReference (id : AttrId) :
    (d.resolveReference id).1.outline = d.outline := by
  unfold resolveReference
  split
  · rfl
  · split
    · exact outline_modifyMember _ _
    · rfl

/-- Whatever names that are brought into form have, every edit preserves. -/
theorem EveryName.step {p : String → Prop} (hp : ∀ text n, p (Name.ofText text n))
    (hd : d.EveryName p) {e : Edit} {answer : Answer} (hstep : Step d e next answer) :
    next.EveryName p := by
  cases hstep with
  | addSchema name => exact hd.addSchema hp name
  | renameSchema _ name =>
      exact (everyName_congr ((outline_mapMembers _).trans (outline_retargetReferences _))).mpr
        (hd.nameSchema hp _ name)
  | removeSchema _ => exact (everyName_congr (outline_mapMembers _)).mpr (hd.dropSchema _)
  | addEntity _ name =>
      exact (everyName_congr (outline_mapMembers _)).mpr (hd.placeEntity hp _ name)
  | renameEntity _ name =>
      exact (everyName_congr ((outline_mapMembers _).trans (outline_retargetReferences _))).mpr
        (hd.nameEntity hp _ name)
  | removeEntity _ => exact (everyName_congr (outline_mapMembers _)).mpr (hd.dropEntity _)
  | addAttribute | insertAttribute =>
      exact (everyName_congr ((outline_resolveReference _).trans (outline_attached _ _))).mpr hd
  | replaceAttribute =>
      exact (everyName_congr ((outline_resolveReference _).trans
        ((outline_distinguish _).trans (outline_modifyMember _ _)))).mpr hd
  | removeAttribute =>
      exact (everyName_congr (outline_mapEntities (keepsOutline_attributes _))).mpr hd
  | setReference =>
      exact (everyName_congr ((outline_distinguish _).trans ((outline_resolveReference _).trans
        (outline_modifyMember _ _)))).mpr hd
  | resolveReference => exact (everyName_congr (outline_resolveReference _)).mpr hd
  | resolveReferences => exact (everyName_congr (outline_mapMembers _)).mpr hd
  | setMaxDepth => exact hd

theorem Sound.settled_step (hd : d.Sound) {e : Edit} {answer : Answer}
    (hstep : Step d e next answer) (hwritten : e.isWritten) : next.MembersSettled := by
  cases hstep with
  | addSchema name => exact hd.settled.addSchema name
  -- Renames settle the references to what was renamed, then open ones are tried again.
  | @renameSchema id _ hs name =>
      have hsame := sameHandles_nameSchema (d := d) id name
      refine HandlesSound.membersSettled_retryReferences ?_ (hd.settled_renameSchema hs name)
      exact hd.handles.step (hsame.trans (sameHandles_retargetReferences _)).step
  | removeSchema hs =>
      -- What is left keeps its names, so only references to what is gone are detached.
      apply hd.settled.detach
      · exact fun m hm => ((entities_dropSchema_sublist _).flatMap _).subset hm
      · exact fun name t hout => hd.handles.denotes_dropSchema hs hout
  | addEntity hs name =>
      exact (hd.handles.step (hd.handles.step_placeEntity hs name)).membersSettled_retryReferences
        (hd.settled.placeEntity _ name)
  | @renameEntity id _ _ name =>
      have hsame := sameHandles_nameEntity (d := d) id name
      refine HandlesSound.membersSettled_retryReferences ?_ (hd.settled_renameEntity id name)
      exact hd.handles.step (hsame.trans (sameHandles_retargetReferences _)).step
  | removeEntity _ =>
      apply hd.settled.detach
      · intro m hm
        rw [members, entities_dropEntity] at hm
        exact (List.filter_sublist.flatMap _).subset hm
      · exact fun name t hout h => h.dropEntity (by simpa using hout)
  | addAttribute he ha => exact hd.settled_addAttribute he (Attribute.ofLine_frame ha).1
  | insertAttribute _ _ => cases hwritten
  | replaceAttribute _ ha => exact hd.settled_replaceAttribute _ (Attribute.ofLine_frame ha).1
  | @removeAttribute id _ _ =>
      have houtline : (d.dropMember id).outline = d.outline :=
        outline_mapEntities (keepsOutline_attributes _)
      intro m hm
      rw [members_dropMember] at hm
      exact (Member.settled_congr houtline).mpr (hd.settled m (List.mem_filter.mp hm).1)
  | setReference _ _ => exact (hd.settled_setReference _ _).distinguish _
  | resolveReference id =>
      exact hd.handles.membersSettled_resolveReference (fun m hm _ => hd.settled m hm)
        fun m hm _ => Or.inr (hd.settled m hm)
  | resolveReferences =>
      exact hd.handles.membersSettled_resolveReferences fun m hm => (hd.settled m hm).denotes
  | setMaxDepth n =>
      have houtline : (d.setMaxDepth n).outline = d.outline := rfl
      exact fun m hm => (Member.settled_congr houtline).mpr (hd.settled m hm)

theorem Sound.step (hd : d.Sound) {e : Edit} {answer : Answer}
    (hstep : Step d e next answer) (hwritten : e.isWritten) : next.Sound :=
  ⟨hd.handles.step (hd.handles.handleStep hstep), hd.ordered.step hd.handles hstep,
    EveryName.step Name.ofText_isPlain hd.plain hstep, hd.settled_step hstep hwritten⟩

end Blueprint.Document
