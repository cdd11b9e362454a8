import Blueprint.Proofs.Renaming

/-! # Attributes across edits

Two edits write an attribute anew: one puts the attribute of a line in its place, and one makes
it a reference to an entity. All others leave attributes what they are: a reference may get or
lose its target, take the name of its target and change its local name, and that is all. So an
attribute after an edit is one from before, one that the edit read from a line, or one that it
made a reference.
-/

namespace Blueprint

/-- The attribute that an edit writes anew. -/
def Edit.rewrites? : Edit → Option AttrId
  | .replaceAttribute id _ => some id
  | .setReference id _ => some id
  | _ => none

namespace Member

variable {m m' : Member}

/-! ### Attributes that are not written anew -/

/-- What an attribute keeps as long as it is not written anew: it only takes another name while
it has a target, a local name may be dropped or replaced by the fallback, and what is wrong with it
stays, but for a target that was missing. -/
structure Carries (m m' : Member) : Prop where
  id : m'.id = m.id
  kind : m'.kind = m.kind
  name : m'.target = none → m'.name = m.name
  localName : m'.localName ∈ [m.localName, none, some (Name.fallback m.id.number)]
  defects : ∀ defect ∈ m.defects, defect ≠ .referenceInvalid → defect ∈ m'.defects

theorem Carries.reference (h : m.Carries m') : m'.isReference = m.isReference := by
  rw [Attribute.isReference, h.kind, Attribute.isReference]

theorem carries_refl (m : Member) : m.Carries m :=
  ⟨rfl, rfl, fun _ => rfl, by simp, fun _ hdefect _ => hdefect⟩

theorem carries_detach (gone : List EntityId) (m : Member) : m.Carries (m.detach gone) := by
  unfold detach
  split
  · exact ⟨rfl, rfl, fun _ => rfl, by simp, fun _ hdefect _ => List.mem_append_left _ hdefect⟩
  · exact carries_refl m

/-- Resolving an open reference changes its name only if it finds a target. -/
theorem Carries.resolved (h : m.Carries m') (hopen : m'.isOpen) (d : Document) :
    m.Carries (d.resolved m') := by
  obtain ⟨hid, hkind, hname, hlocal, hdefects⟩ := h
  have htarget : m'.target = none := by simpa using (Bool.and_eq_true_iff.mp hopen).2
  unfold Document.resolved Member.resolvedTo
  split
  · exact ⟨hid, hkind, fun hnone => absurd hnone (by simp), hlocal, hdefects⟩
  · exact ⟨hid, hkind, fun hnone => absurd hnone (by simp), hlocal, hdefects⟩
  · split
    · exact ⟨hid, hkind, hname, hlocal, hdefects⟩
    · exact ⟨hid, hkind, fun _ => hname htarget, hlocal, fun defect hmem hother =>
        List.mem_append_left _ (hdefects defect hmem hother)⟩

/-- A reference is kept apart from its siblings without a change of its name. -/
theorem Carries.distinguish (h : m.Carries m') (href : m'.isReference) (siblings : List Member) :
    m.Carries (m'.distinguish siblings) := by
  refine ⟨(distinguish_id siblings m').trans h.id, (distinguish_kind siblings m').trans h.kind,
    fun hnone => ?_, ?_, by simpa using h.defects⟩
  · rw [distinguish_name siblings href]
    exact h.name (by simpa using hnone)
  · have hdistinguished := distinguish_localName m' siblings
    have hlocal := h.localName
    rw [h.id] at hdistinguished
    simp only [List.mem_cons, List.not_mem_nil, or_false] at hdistinguished hlocal ⊢
    rcases hdistinguished with hsame | hnone | hfallback
    · rwa [hsame]
    · exact Or.inr (Or.inl hnone)
    · exact Or.inr (Or.inr hfallback)

end Member

namespace Document

variable {d d' next : Document} {e : Edit} {answer : Answer} {m m' : Member}

/-- Whether every attribute of a document comes from one of another and was not written anew. -/
def Carried (d d' : Document) : Prop :=
  ∀ m' ∈ d'.members, ∃ m ∈ d.members, m.Carries m'

theorem carried_of_subset (h : d'.members ⊆ d.members) : d.Carried d' :=
  fun m hm => ⟨m, h hm, m.carries_refl⟩

theorem Carried.mapMembers (h : d.Carried d') {f : Member → Member}
    (hf : ∀ m m' : Member, m.Carries m' → m.Carries (f m')) :
    d.Carried (d'.mapMembers f) := by
  intro m hm
  rw [members_mapMembers] at hm
  obtain ⟨m', hm', rfl⟩ := List.mem_map.mp hm
  obtain ⟨old, hold, hcarries⟩ := h m' hm'
  exact ⟨old, hold, hf old m' hcarries⟩

theorem carried_mapMembers {f : Member → Member} (hf : ∀ m : Member, m.Carries (f m))
    (h : d'.members ⊆ d.members) : d.Carried (d'.mapMembers f) := by
  intro m hm
  rw [members_mapMembers] at hm
  obtain ⟨m', hm', rfl⟩ := List.mem_map.mp hm
  exact ⟨m', h hm', hf m'⟩

theorem Carried.resolveReferences (h : d.Carried d') : d.Carried d'.resolveReferences := by
  apply h.mapMembers
  intro m m' hcarries
  split
  next hopen => exact hcarries.resolved (Bool.and_eq_true_iff.mp hopen).1 d'
  next => exact hcarries

theorem Carried.retryReferences (h : d.Carried d') : d.Carried d'.retryReferences := by
  apply h.mapMembers
  intro m m' hcarries
  split
  next hopen =>
    apply Member.Carries.resolved
    · exact ⟨hcarries.id, hcarries.kind, hcarries.name, hcarries.localName,
        fun defect hmem hother => List.mem_filter.mpr
          ⟨hcarries.defects defect hmem hother, by simpa using hother⟩⟩
    · exact (Bool.and_eq_true_iff.mp hopen).1
  next => exact hcarries

/-- Writing references to renamed entities anew changes only names of references with a target. -/
theorem HandlesSound.carried_retargetReferences (hd : d.HandlesSound)
    (htargets : ∀ m ∈ d.members, ∀ t, m.target = some t → m.isReference ∧ t ∈ d.handles .entity)
    (renamed : List EntityId) : d.Carried (d.retargetReferences renamed) := by
  intro m' hm'
  have hlive : ∀ r ∈ d.referencesTo renamed, r.2.1 ∈ d.handles .entity := by
    intro r hr
    obtain ⟨m, hm, t, _, htarget, rfl⟩ := mem_referencesTo_iff.mp hr
    exact (htargets m hm t htarget).2
  obtain ⟨m, hm, hrewritten⟩ := hd.rewritten_foldl (hd.nodup_referencesTo renamed) hlive hm'
  refine ⟨m, hm, ?_⟩
  cases hrewritten with
  | kept => exact Member.carries_refl _
  | @named t bare hmem siblings =>
      obtain ⟨named, hnamed, t', _, htarget, heq⟩ := mem_referencesTo_iff.mp hmem
      obtain rfl : m = named :=
        eq_of_key_eq (hd.nodup .attr) hm hnamed (congrArg Prod.fst heq)
      apply Member.Carries.distinguish
      · refine ⟨rfl, rfl, fun hnone => ?_, by simp, fun _ hdefect _ => hdefect⟩
        rw [htarget] at hnone
        cases hnone
      · exact (htargets m hm t' htarget).1

/-- Where an attribute comes from that is there after an edit: it was there before, it was read
from a line, or it was made a reference. -/
inductive Source (d : Document) : Edit → Member → Prop where
  | kept {e : Edit} {m : Member} (hm : m ∈ d.members) (hother : e.rewrites? ≠ some m.id) :
      Source d e m
  | added {line : String} {a : Attribute} (ha : Attribute.ofLine line = .ok a) (entity : EntityId)
      (siblings : List Member) :
      Source d (.addAttribute entity line) ((d.nextMember a).distinguish siblings)
  | replaced {entity : Entity} {old : Member} (hentity : entity ∈ d.entities)
      (hold : old ∈ entity.attributes) {line : String} {a : Attribute}
      (ha : Attribute.ofLine line = .ok a) :
      Source d (.replaceAttribute old.id line)
        (({ a with id := old.id } : Member).distinguish
          (entity.attributes.filter (·.id ≠ old.id)))
  | pointed {old : Member} (hold : old ∈ d.members) (target : EntityId) :
      Source d (.setReference old.id target) (Member.pointed target old)

theorem HandlesSound.carries_resolveReference (hd : d.HandlesSound) {id : AttrId}
    (hm' : m' ∈ (d.resolveReference id).1.members) :
    ∃ m ∈ d.members, m.Carries m' := by
  rw [hd.resolveReference_eq, members_mapMembers] at hm'
  obtain ⟨m, hm, rfl⟩ := List.mem_map.mp hm'
  refine ⟨m, hm, ?_⟩
  split
  next hopen => exact m.carries_refl.resolved hopen.2 d
  next => exact m.carries_refl

/-- A replaced attribute is told apart from the siblings of the one before it. -/
theorem mem_members_put_distinguish {id : AttrId} {a : Attribute}
    (hm' : m' ∈ ((d.putMember id a).distinguish id).members) :
    ∃ entity ∈ d.entities, ∃ m ∈ entity.attributes, m.id ≠ id ∧ m' = m ∨
      m.id = id ∧ m' = ({ a with id := id } : Member).distinguish
        (entity.attributes.filter (·.id ≠ id)) := by
  rw [distinguish, members_mapEntities, putMember, modifyMember, mapMembers,
    entities_mapEntities, List.flatMap_map] at hm'
  obtain ⟨entity, hentity, hm'⟩ := List.mem_flatMap.mp hm'
  -- The attribute in the place of another is the only one with its handle.
  have hsiblings : (entity.attributes.map fun m =>
      if m.id = id then { a with id := id } else m).filter (·.id ≠ id) =
        entity.attributes.filter (·.id ≠ id) := by
    induction entity.attributes with
    | nil => rfl
    | cons m ms ih =>
        by_cases hid : m.id = id
        · simpa [hid] using ih
        · simpa [hid] using ih
  simp only [Entity.distinguish, hsiblings, List.map_map] at hm'
  obtain ⟨m, hm, rfl⟩ := List.mem_map.mp hm'
  refine ⟨entity, hentity, m, hm, ?_⟩
  by_cases hid : m.id = id
  · exact Or.inr ⟨hid, by simp [hid]⟩
  · exact Or.inl ⟨hid, by simp [hid]⟩

/-- Every attribute after an edit carries on one that the edit found or made. -/
theorem Sound.exists_source (hd : d.Sound) (hstep : Step d e next answer)
    (hwritten : e.isWritten) (hm' : m' ∈ next.members) :
    ∃ m, d.Source e m ∧ m.Carries m' := by
  have htargets : ∀ m ∈ d.members, ∀ t, m.target = some t →
      m.isReference ∧ t ∈ d.handles .entity := fun m hm t ht =>
    ⟨((hd.settled m hm).denotes t ht).1, ((hd.settled m hm).denotes t ht).2.live⟩
  -- Most edits write no attribute anew.
  have hkept : e.rewrites? = none → d.Carried next → ∃ m, d.Source e m ∧ m.Carries m' := by
    intro hnone hcarried
    obtain ⟨m, hm, hcarries⟩ := hcarried m' hm'
    exact ⟨m, .kept hm (by simp [hnone]), hcarries⟩
  cases hstep with
  | addSchema name =>
      refine hkept rfl (carried_of_subset ?_)
      rw [members, entities_addSchema]
      exact List.Subset.refl _
  | @renameSchema id s hs name =>
      have hsame := sameHandles_nameSchema (d := d) id name
      have hmembers : (d.nameSchema id name).members = d.members := by
        rw [members, entities_nameSchema, members]
      refine hkept rfl (Carried.retryReferences ?_)
      rw [Carried, ← hmembers]
      refine (hd.handles.step hsame.step).carried_retargetReferences ?_ _
      rwa [hmembers, hsame.handles .entity]
  | removeSchema _ =>
      exact hkept rfl (carried_mapMembers (Member.carries_detach _)
        ((entities_dropSchema_sublist _).flatMap _).subset)
  | addEntity _ name =>
      refine hkept rfl (Carried.retryReferences (carried_of_subset ?_))
      rw [members_placeEntity]
      exact List.Subset.refl _
  | @renameEntity id _ _ name =>
      have hsame := sameHandles_nameEntity (d := d) id name
      have hmembers := members_nameEntity (d := d) id name
      refine hkept rfl (Carried.retryReferences ?_)
      rw [Carried, ← hmembers]
      refine (hd.handles.step hsame.step).carried_retargetReferences ?_ _
      rwa [hmembers, hsame.handles .entity]
  | removeEntity _ =>
      refine hkept rfl (carried_mapMembers (Member.carries_detach _) ?_)
      rw [members, entities_dropEntity]
      exact (List.filter_sublist.flatMap _).subset
  | @addAttribute entity _ he _ a ha =>
      have hhandles := hd.handles.step (hd.handles.step_attached he a)
      obtain ⟨m, hm, hcarries⟩ := hhandles.carries_resolveReference hm'
      rcases hd.handles.mem_members_attached hm with hold | ⟨siblings, rfl⟩
      · exact ⟨m, .kept hold (by simp [Edit.rewrites?]), hcarries⟩
      · exact ⟨_, .added ha entity siblings, hcarries⟩
  | insertAttribute => cases hwritten
  | @replaceAttribute id _ _ _ a ha =>
      have hsame := (sameHandles_putMember (d := d) id a).trans (sameHandles_distinguish id)
      obtain ⟨m, hm, hcarries⟩ := (hd.handles.step hsame.step).carries_resolveReference hm'
      obtain ⟨entity, hentity, old, hold, ⟨hne, rfl⟩ | ⟨rfl, rfl⟩⟩ := mem_members_put_distinguish hm
      · have hmem := mem_members.mpr ⟨entity, hentity, hold⟩
        exact ⟨m, .kept hmem fun heq => hne (Option.some.inj heq).symm, hcarries⟩
      · exact ⟨_, .replaced hentity hold ha, hcarries⟩
  | removeAttribute _ =>
      refine hkept rfl (carried_of_subset ?_)
      rw [members_dropMember]
      exact List.filter_sublist.subset
  | @setReference id _ _ target _ _ =>
      obtain ⟨between, hbetween, hlater⟩ := mem_members_distinguish hm'
      have hhandles := hd.handles.step (sameHandles_pointMember id target).step
      obtain ⟨m, hm, hcarries⟩ := hhandles.carries_resolveReference hbetween
      rw [pointMember, modifyMember, members_mapMembers] at hm
      obtain ⟨old, hold, rfl⟩ := List.mem_map.mp hm
      by_cases hid : old.id = id
      · subst hid
        rw [if_pos rfl] at hcarries
        refine ⟨_, .pointed hold target, ?_⟩
        rcases hlater with rfl | ⟨_, siblings, rfl⟩
        · exact hcarries
        · exact hcarries.distinguish (hcarries.reference.trans rfl) siblings
      · rw [if_neg hid] at hcarries
        obtain rfl := hlater.resolve_right fun h => hid (hcarries.id.symm.trans h.1)
        exact ⟨old, .kept hold fun heq => hid (Option.some.inj heq).symm, hcarries⟩
  | resolveReference id =>
      exact hkept rfl fun m hm => hd.handles.carries_resolveReference hm
  | resolveReferences =>
      exact hkept rfl (Carried.resolveReferences (carried_of_subset (List.Subset.refl _)))
  | setMaxDepth n => exact hkept rfl (carried_of_subset (List.Subset.refl _))

end Document

end Blueprint
