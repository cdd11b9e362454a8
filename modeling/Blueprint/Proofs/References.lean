import Blueprint.Proofs.Handles
import Blueprint.Proofs.Text

/-! # Targets of references

A recorded target is a live entity, and the written name is its own name or its
qualified name, however the document was edited. A reference without a target is
reported as such.
-/

namespace Blueprint

namespace Document

variable {d d' : Document}

/-- Whether a written name is the bare or the qualified name of an entity. -/
def Denotes (d : Document) (name : String) (t : EntityId) : Prop :=
  ∃ s ∈ d.schemas, ∃ e ∈ s.entities, e.id = t ∧ (name = e.name ∨ name = s.name ++ "." ++ e.name)

theorem Denotes.live {name : String} {t : EntityId} (h : d.Denotes name t) :
    t ∈ d.handles .entity := by
  obtain ⟨s, hs, e, he, rfl, _⟩ := h
  exact List.mem_map.mpr ⟨e, mem_entities.mpr ⟨s, hs, he⟩, rfl⟩

theorem denotes_iff_outline {name : String} {t : EntityId} :
    d.Denotes name t ↔ ∃ s ∈ d.outline, ∃ e ∈ s.entities, e.id = t ∧
      (name = e.name ∨ name = s.name ++ "." ++ e.name) := by
  simp [Denotes, outline, mapEntities]

theorem denotes_congr (houtline : d.outline = d'.outline) {name : String} {t : EntityId} :
    d.Denotes name t ↔ d'.Denotes name t := by
  rw [denotes_iff_outline, denotes_iff_outline, houtline]

theorem HandlesSound.denotes_qualifiedName (hd : d.HandlesSound) {e : Entity}
    (he : e ∈ d.entities) : d.Denotes (d.qualifiedName e.id) e.id := by
  obtain ⟨s, hs, he⟩ := mem_entities.mp he
  exact ⟨s, hs, e, he, rfl, Or.inr (hd.qualifiedName_eq hs he)⟩

/-- The entity that a written name means, handles aside. -/
def entityByName? (d : Document) (name : String) : Option EntityId :=
  match Text.cut? "." name with
  | some (schema, entity) => (d.findEntity? schema entity).map Entity.id
  | none => (d.entities.find? (·.name = name)).map Entity.id

theorem findTarget?_eq (name : String) :
    d.findTarget? name =
      match d.entityByHandle? name with
      | some id => some (.byHandle id (d.qualifiedName id))
      | none => (d.entityByName? name).map .byName := by
  unfold findTarget? entityByName?
  cases d.entityByHandle? name with
  | some id => rfl
  | none => cases Text.cut? "." name <;> simp only [Option.map_map, Function.comp_def]

theorem entityByName?_congr (houtline : d.outline = d'.outline) (name : String) :
    d.entityByName? name = d'.entityByName? name := by
  have hstrip := keepsOutline_attributes fun _ => []
  have hmap : ∀ d : Document, d.entityByName? name =
      (d.mapEntities fun e => { e with attributes := [] }).entityByName? name := by
    intro d
    unfold entityByName?
    split
    · rw [findEntity?_mapEntities hstrip, Option.map_map]
      rfl
    · rw [entities_mapEntities, List.find?_map, Option.map_map]
      rfl
  rw [hmap d, hmap d']
  simp only [outline] at houtline
  simp only [entityByName?, entities, findEntity?, findSchema?, houtline]

theorem entityByName?_addSchema (name : String) (written : String) :
    (d.addSchema name).1.entityByName? written = d.entityByName? written := by
  unfold entityByName?
  rw [entities_addSchema]
  split
  next schema entity _ =>
    congr 1
    simp only [findEntity?, findSchema?, addSchema, List.find?_append]
    cases d.schemas.find? (·.name = schema) with
    | some s => rfl
    | none =>
        -- The new schema may be the first of that name, but it holds nothing.
        generalize Name.ofText name (Handle.fresh d.schemaCount : SchemaId).number = new
        by_cases hname : new = schema
        · simp [hname]
        · simp [hname]
  next => rfl

/-- A name that is no handle is looked up as a name. -/
theorem findTarget?_of_no_handle {name : String}
    (hname : (Handle.ofText? name : Option EntityId) = none) :
    d.findTarget? name = (d.entityByName? name).map .byName := by
  rw [findTarget?_eq, entityByHandle?, hname]
  rfl

theorem denotes_of_entityByName? {name : String} {t : EntityId}
    (h : d.entityByName? name = some t) : d.Denotes name t := by
  unfold entityByName? at h
  split at h
  next schema entity hcut =>
    obtain ⟨e, he, rfl⟩ := Option.map_eq_some_iff.mp h
    obtain ⟨s, hs, he⟩ := Option.bind_eq_some_iff.mp he
    have hschema : s.name = schema := by simpa using List.find?_some hs
    have hentity : e.name = entity := by simpa using List.find?_some he
    refine ⟨s, List.mem_of_find?_eq_some hs, e, List.mem_of_find?_eq_some he, rfl, Or.inr ?_⟩
    rw [Text.eq_of_cut?_eq_some hcut, hschema, hentity]
  next =>
    obtain ⟨e, he, rfl⟩ := Option.map_eq_some_iff.mp h
    have hname : e.name = name := by simpa using List.find?_some he
    obtain ⟨s, hs, hmem⟩ := mem_entities.mp (List.mem_of_find?_eq_some he)
    exact ⟨s, hs, e, hmem, rfl, Or.inl hname.symm⟩

/-- The target found by name goes by that name. -/
theorem denotes_of_findTarget?_byName {name : String} {t : EntityId}
    (h : d.findTarget? name = some (.byName t)) : d.Denotes name t := by
  rw [findTarget?_eq] at h
  split at h
  next => cases h
  next =>
    obtain ⟨found, hfound, heq⟩ := Option.map_eq_some_iff.mp h
    exact Target.byName.inj heq ▸ denotes_of_entityByName? hfound

/-- The target found by handle is live, and the name it comes with is the qualified one. -/
theorem of_findTarget?_byHandle {name qualified : String} {t : EntityId}
    (h : d.findTarget? name = some (.byHandle t qualified)) :
    (∃ e ∈ d.entities, e.id = t) ∧ qualified = d.qualifiedName t := by
  rw [findTarget?_eq] at h
  split at h
  next id hid =>
    obtain ⟨rfl, rfl⟩ := Target.byHandle.inj (Option.some.inj h)
    obtain ⟨e, he⟩ := Option.isSome_iff_exists.mp (Option.filter_eq_some_iff.mp hid).2
    exact ⟨⟨e, mem_of_entity? he⟩, rfl⟩
  next =>
    obtain ⟨_, _, heq⟩ := Option.map_eq_some_iff.mp h
    cases heq

/-- Resolving a reference whose name is no handle. -/
theorem resolved_of_no_handle {m : Member}
    (hname : (Handle.ofText? m.name : Option EntityId) = none) :
    d.resolved m =
      match d.entityByName? m.name with
      | some t => { m with target := some t }
      | none => if m.isLost then m else { m with toAttribute := m.note [.referenceInvalid] } := by
  rw [resolved, findTarget?_of_no_handle hname]
  cases d.entityByName? m.name <;> rfl

end Document

/-- What holds of an attribute once it has been resolved, whatever happens later. -/
structure Member.Settled (d : Document) (m : Member) : Prop where
  denotes : ∀ t, m.target = some t → m.isReference ∧ d.Denotes m.name t
  reported : m.isOpen → m.isLost

namespace Member

variable {d d' : Document} {m : Member}

theorem settled_congr (houtline : d.outline = d'.outline) : m.Settled d ↔ m.Settled d' := by
  constructor
  · exact fun h => ⟨fun t ht => ⟨(h.denotes t ht).1,
      (Document.denotes_congr houtline).mp (h.denotes t ht).2⟩, h.reported⟩
  · exact fun h => ⟨fun t ht => ⟨(h.denotes t ht).1,
      (Document.denotes_congr houtline).mpr (h.denotes t ht).2⟩, h.reported⟩

theorem settled_of_not_reference (htarget : m.target = none) (href : m.isReference = false) :
    m.Settled d := by
  constructor
  · intro t ht
    rw [htarget] at ht
    cases ht
  · intro hopen
    simp [Attribute.isOpen, href] at hopen

theorem settled_of_lost (htarget : m.target = none) (hlost : m.isLost) : m.Settled d := by
  constructor
  · intro t ht
    rw [htarget] at ht
    cases ht
  · exact fun _ => hlost

/-- Resolving an open reference settles it. -/
theorem settled_resolved (hd : d.HandlesSound) (hopen : m.isOpen) : (d.resolved m).Settled d := by
  obtain ⟨href, htarget⟩ : m.isReference ∧ m.target = none := by
    simpa [Attribute.isOpen] using hopen
  unfold Document.resolved Member.resolvedTo
  split
  next t qualified hfind =>
    obtain ⟨⟨e, he, rfl⟩, rfl⟩ := Document.of_findTarget?_byHandle hfind
    constructor
    · rintro t ⟨⟩
      exact ⟨href, hd.denotes_qualifiedName he⟩
    · intro hopen
      simp [Attribute.isOpen] at hopen
  next t hfind =>
    constructor
    · rintro t ⟨⟩
      exact ⟨href, Document.denotes_of_findTarget?_byName hfind⟩
    · intro hopen
      simp [Attribute.isOpen] at hopen
  next =>
    split
    next hlost => exact settled_of_lost htarget hlost
    next => exact settled_of_lost htarget (by simp [Attribute.isLost, Attribute.note])

/-- Losing a target is reported. -/
theorem Settled.detach (hm : m.Settled d) {gone : List EntityId}
    (hkeep : ∀ name t, t ∉ gone → d.Denotes name t → d'.Denotes name t) :
    (m.detach gone).Settled d' := by
  unfold Member.detach
  split
  next => exact settled_of_lost rfl (by simp [Attribute.isLost])
  next hgone =>
    refine ⟨fun t ht => ⟨(hm.denotes t ht).1, hkeep _ t ?_ (hm.denotes t ht).2⟩, hm.reported⟩
    simpa [ht] using hgone

end Member

namespace Document

variable {d d' : Document}

/-! ### Changes of attributes -/

/-- An attribute that is settled unless one of the given references is its own and has
still to be renamed. -/
def Pending (d : Document) (references : List (AttrId × EntityId × Bool)) (m : Member) : Prop :=
  (m.isOpen → m.isLost) ∧ ∀ t, m.target = some t →
    m.isReference ∧ (d.Denotes m.name t ∨ ∃ bare, (m.id, t, bare) ∈ references)

theorem pending_nil_iff {m : Member} : d.Pending [] m ↔ m.Settled d := by
  constructor
  · rintro ⟨hreported, hnamed⟩
    exact ⟨fun t ht => ⟨(hnamed t ht).1, (hnamed t ht).2.resolve_right (by simp)⟩, hreported⟩
  · rintro ⟨hdenotes, hreported⟩
    exact ⟨hreported, fun t ht => ⟨(hdenotes t ht).1, Or.inl (hdenotes t ht).2⟩⟩

theorem Pending.distinguish {references : List (AttrId × EntityId × Bool)} {m : Member}
    (hm : d.Pending references m) (siblings : List Member) :
    d.Pending references (m.distinguish siblings) := by
  constructor
  · simpa using hm.1
  · intro t ht
    rw [Member.distinguish_target] at ht
    obtain ⟨href, hnamed⟩ := hm.2 t ht
    rw [Member.distinguish_name siblings href, Member.distinguish_id]
    exact ⟨by simpa using href, hnamed⟩

/-- Whether every attribute of the document is settled. -/
def MembersSettled (d : Document) : Prop :=
  ∀ m ∈ d.members, m.Settled d

theorem membersSettled_mapMembers {f : Member → Member}
    (hf : ∀ m ∈ d.members, (f m).Settled d) : (d.mapMembers f).MembersSettled := by
  intro m hm
  rw [members_mapMembers] at hm
  obtain ⟨old, hold, rfl⟩ := List.mem_map.mp hm
  exact (Member.settled_congr (outline_mapMembers f)).mpr (hf old hold)

theorem mem_members_distinguish {id : AttrId} {m : Member} (hm : m ∈ (d.distinguish id).members) :
    ∃ old ∈ d.members, m = old ∨ old.id = id ∧ ∃ siblings, m = old.distinguish siblings := by
  rw [distinguish, members_mapEntities] at hm
  obtain ⟨e, he, hm⟩ := List.mem_flatMap.mp hm
  obtain ⟨old, hold, rfl⟩ := List.mem_map.mp hm
  refine ⟨old, mem_members.mpr ⟨e, he, hold⟩, ?_⟩
  split
  next hid => exact Or.inr ⟨hid, _, rfl⟩
  next => exact Or.inl rfl

theorem MembersSettled.distinguish (hd : d.MembersSettled) (id : AttrId) :
    (d.distinguish id).MembersSettled := by
  intro m hm
  apply (Member.settled_congr (outline_distinguish id)).mpr
  obtain ⟨old, hold, rfl | ⟨_, siblings, rfl⟩⟩ := mem_members_distinguish hm
  · exact hd _ hold
  · exact pending_nil_iff.mp ((pending_nil_iff.mpr (hd old hold)).distinguish siblings)

/-- Resolving one reference reaches no other one. -/
theorem HandlesSound.resolveReference_eq (hd : d.HandlesSound) (id : AttrId) :
    (d.resolveReference id).1 =
      d.mapMembers fun m => if m.id = id ∧ m.isOpen then d.resolved m else m := by
  unfold resolveReference
  split
  next hnone =>
    symm
    apply mapMembers_eq_self
    intro m hm
    apply if_neg
    rintro ⟨hid, _⟩
    exact absurd hid (by simpa using List.find?_eq_none.mp hnone m hm)
  next found hfound =>
    obtain ⟨hmem, hid⟩ := mem_of_member? hfound
    have hunique : ∀ m ∈ d.members, m.id = id → m = found := fun m hm heq =>
      eq_of_key_eq (hd.nodup .attr) hm hmem (heq.trans hid.symm)
    split
    next hopen =>
      apply mapMembers_congr
      intro m hm
      by_cases heq : m.id = id
      · rw [if_pos heq, if_pos ⟨heq, hunique m hm heq ▸ hopen⟩]
      · rw [if_neg heq, if_neg fun h => heq h.1]
    next hclosed =>
      symm
      apply mapMembers_eq_self
      intro m hm
      apply if_neg
      rintro ⟨heq, hopen⟩
      exact hclosed (hunique m hm heq ▸ hopen)

/-- Resolving one reference settles the document if nothing else was left open. -/
theorem HandlesSound.membersSettled_resolveReference (hd : d.HandlesSound) {id : AttrId}
    (hothers : ∀ m ∈ d.members, m.id ≠ id → m.Settled d)
    (hself : ∀ m ∈ d.members, m.id = id → m.target = none ∨ m.Settled d) :
    (d.resolveReference id).1.MembersSettled := by
  rw [hd.resolveReference_eq]
  apply membersSettled_mapMembers
  intro m hm
  split
  next h => exact Member.settled_resolved hd h.2
  next hclosed =>
    by_cases heq : m.id = id
    · rcases hself m hm heq with htarget | hsettled
      · have hopen : ¬ m.isOpen := fun hopen => hclosed ⟨heq, hopen⟩
        exact Member.settled_of_not_reference htarget
          (by simpa [Attribute.isOpen, htarget] using hopen)
      · exact hsettled
    · exact hothers m hm heq

theorem HandlesSound.membersSettled_resolveReferences (hd : d.HandlesSound)
    (htargets : ∀ m ∈ d.members, ∀ t, m.target = some t → m.isReference ∧ d.Denotes m.name t) :
    d.resolveReferences.MembersSettled := by
  apply membersSettled_mapMembers
  intro m hm
  split
  next hopen =>
    exact Member.settled_resolved hd (Bool.and_eq_true_iff.mp hopen).1
  next hopen =>
    refine ⟨htargets m hm, fun hm' => ?_⟩
    simpa [hm'] using hopen

theorem HandlesSound.membersSettled_retryReferences (hd : d.HandlesSound)
    (hsettled : d.MembersSettled) : d.retryReferences.MembersSettled := by
  apply membersSettled_mapMembers
  intro m hm
  split
  next hopen =>
    exact Member.settled_resolved hd (Bool.and_eq_true_iff.mp hopen).1
  next => exact hsettled m hm

/-! ### Renaming -/

theorem HandlesSound.denotes_writtenName (hd : d.HandlesSound) {e : Entity}
    (he : e ∈ d.entities) (bare : Bool) : d.Denotes (d.writtenName e bare) e.id := by
  unfold writtenName
  split
  next =>
    obtain ⟨s, hs, he⟩ := mem_entities.mp he
    exact ⟨s, hs, e, he, rfl, Or.inl rfl⟩
  next => exact hd.denotes_qualifiedName he

theorem outline_retarget (reference : AttrId × EntityId × Bool) :
    (d.retarget reference).outline = d.outline := by
  unfold retarget
  dsimp only
  split
  · rfl
  · rw [outline_distinguish, outline_modifyMember]

theorem outline_retargetReferences (renamed : List EntityId) :
    (d.retargetReferences renamed).outline = d.outline := by
  unfold retargetReferences
  generalize d.referencesTo renamed = references
  induction references generalizing d with
  | nil => rfl
  | cons reference rest ih => exact ih.trans (outline_retarget reference)

/-- Renaming one reference settles it and leaves every other attribute alone. -/
theorem HandlesSound.pending_retarget (hd : d.HandlesSound) {id : AttrId} {t : EntityId}
    {bare : Bool} {rest : List (AttrId × EntityId × Bool)} (hlive : t ∈ d.handles .entity)
    (hself : ∀ m ∈ d.members, m.id = id → m.target = some t)
    (hpending : ∀ m ∈ d.members, d.Pending ((id, t, bare) :: rest) m) {m : Member}
    (hm : m ∈ (d.retarget (id, t, bare)).members) :
    ∃ old ∈ d.members, old.id = m.id ∧ old.target = m.target ∧ d.Pending rest m := by
  obtain ⟨e, he, rfl⟩ := List.mem_map.mp hlive
  simp only [retarget, hd.entity?_eq he] at hm
  obtain ⟨renamed, hrenamed, hm⟩ := mem_members_distinguish hm
  rw [modifyMember, members_mapMembers] at hrenamed
  obtain ⟨old, hold, rfl⟩ := List.mem_map.mp hrenamed
  have hpend := hpending old hold
  refine ⟨old, hold, ?_⟩
  by_cases hid : old.id = id
  · -- The reference itself: whatever its local name becomes, it goes by the new name.
    subst hid
    rw [if_pos rfl] at hm
    have hnamed : d.Pending rest { old with name := d.writtenName e bare } := by
      refine ⟨hpend.1, fun t ht => ⟨(hpend.2 t ht).1, Or.inl ?_⟩⟩
      obtain rfl : e.id = t := Option.some.inj ((hself old hold rfl).symm.trans ht)
      exact hd.denotes_writtenName he bare
    rcases hm with rfl | ⟨_, siblings, rfl⟩
    · exact ⟨rfl, rfl, hnamed⟩
    · exact ⟨by simp, by simp, hnamed.distinguish siblings⟩
  · rw [if_neg hid] at hm
    obtain rfl : m = old := hm.resolve_right fun h => hid h.1
    refine ⟨rfl, rfl, hpend.1, fun t ht => ?_⟩
    obtain ⟨href, hdenotes | ⟨b, hmem⟩⟩ := hpend.2 t ht
    · exact ⟨href, Or.inl hdenotes⟩
    · rcases List.mem_cons.mp hmem with heq | hmem
      · exact absurd (Prod.mk.inj heq).1 hid
      · exact ⟨href, Or.inr ⟨b, hmem⟩⟩

theorem HandlesSound.membersSettled_foldl_retarget
    {references : List (AttrId × EntityId × Bool)} (hd : d.HandlesSound)
    (hlive : ∀ r ∈ references, r.2.1 ∈ d.handles .entity)
    (hself : ∀ r ∈ references, ∀ m ∈ d.members, m.id = r.1 → m.target = some r.2.1)
    (hpending : ∀ m ∈ d.members, d.Pending references m) :
    (references.foldl retarget d).MembersSettled := by
  induction references generalizing d with
  | nil => exact fun m hm => pending_nil_iff.mp (hpending m hm)
  | cons reference rest ih =>
      obtain ⟨id, t, bare⟩ := reference
      have hsame := sameHandles_retarget (d := d) (id, t, bare)
      -- The first reference is settled after this, and the rest stay pending.
      have hstep := fun m => hd.pending_retarget (m := m) (hlive _ List.mem_cons_self)
        (hself _ List.mem_cons_self) hpending
      apply ih (hd.step hsame.step)
      · intro r hr
        rw [hsame.handles .entity]
        exact hlive r (List.mem_cons_of_mem _ hr)
      · intro r hr m hm hid
        obtain ⟨old, hold, hold_id, htarget, _⟩ := hstep m hm
        exact htarget ▸ hself r (List.mem_cons_of_mem _ hr) old hold (hold_id.trans hid)
      · intro m hm
        obtain ⟨_, _, _, _, hreported, hnamed⟩ := hstep m hm
        refine ⟨hreported, fun t' ht => ⟨(hnamed t' ht).1, (hnamed t' ht).2.imp_left ?_⟩⟩
        exact (denotes_congr (outline_retarget _)).mpr

/-- After a change of names, renaming the references to the renamed entities settles them. -/
theorem HandlesSound.membersSettled_retargetReferences (hd : d.HandlesSound)
    {renamed : List EntityId}
    (hmembers : ∀ m ∈ d.members, (m.isOpen → m.isLost) ∧ ∀ t, m.target = some t →
      m.isReference ∧ t ∈ d.handles .entity ∧ (t ∉ renamed → d.Denotes m.name t)) :
    (d.retargetReferences renamed).MembersSettled := by
  have hreference : ∀ r ∈ d.referencesTo renamed, ∃ m ∈ d.members,
      m.id = r.1 ∧ m.target = some r.2.1 := by
    intro r hr
    obtain ⟨m, hm, heq⟩ := List.mem_filterMap.mp hr
    obtain ⟨t, ht, rfl⟩ := Option.map_eq_some_iff.mp heq
    exact ⟨m, hm, rfl, (Option.filter_eq_some_iff.mp ht).1⟩
  apply hd.membersSettled_foldl_retarget
  · intro r hr
    obtain ⟨m, hm, _, htarget⟩ := hreference r hr
    exact ((hmembers m hm).2 _ htarget).2.1
  · intro r hr m hm hid
    obtain ⟨m', hm', hid', htarget⟩ := hreference r hr
    exact eq_of_key_eq (hd.nodup .attr) hm' hm (hid'.trans hid.symm) ▸ htarget
  · intro m hm
    refine ⟨(hmembers m hm).1, fun t ht => ?_⟩
    obtain ⟨href, _, hdenotes⟩ := (hmembers m hm).2 t ht
    -- A reference is pending exactly if its target was renamed.
    by_cases hin : t ∈ renamed
    · refine ⟨href, Or.inr ⟨!Text.holds "." m.name, List.mem_filterMap.mpr ⟨m, hm, ?_⟩⟩⟩
      simp [ht, hin, Option.filter]
    · exact ⟨href, Or.inl (hdenotes hin)⟩

end Document

end Blueprint
