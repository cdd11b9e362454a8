import Blueprint.Arena.Edit
import Blueprint.Proofs.Layout
import Blueprint.Proofs.Reading
import Blueprint.Proofs.Siblings

/-! # References in an arena

Segments, targets and names of references are changed in the slots of the attributes, one
attribute after the other. On the arena of a document this leads to the arena of the
document in which they are changed together.
-/

namespace Blueprint

namespace Document

variable {d d' : Document}

/-! ### Attributes in place -/

/-- Attributes that are changed where they stand. -/
theorem arena_mapAttributes {f : Entity → Member → Member} {g : AttrNode → AttrNode}
    (hg : ∀ e ∈ d.entities, ∀ m ∈ e.attributes, g (m.node e.id) = (f e m).node e.id)
    (hf : ∀ e ∈ d.entities, ∀ m ∈ e.attributes, (f e m).id = m.id) :
    (d.mapEntities fun e => { e with attributes := e.attributes.map (f e) }).arena =
      { d.arena with attributes := .layOut (fun m => m.id) d.attrCount (d.attrNodes.map g) } := by
  have hschemas : (d.mapEntities fun e =>
      { e with attributes := e.attributes.map (f e) }).schemaNodes = d.schemaNodes := by
    simp only [schemaNodes, mapEntities, List.map_map]
    refine List.map_congr_left fun s _ => ?_
    simp only [Function.comp_apply, Schema.node, List.map_map]
    rfl
  have hentities : (d.mapEntities fun e =>
      { e with attributes := e.attributes.map (f e) }).entityNodes = d.entityNodes := by
    simp only [entityNodes, mapEntities, List.flatMap_map, List.map_map]
    refine List.flatMap_congr fun s hs => List.map_congr_left fun e he => ?_
    have hids : (e.attributes.map (f e)).map Member.id = e.attributes.map Member.id := by
      rw [List.map_map]
      exact List.map_congr_left (hf e (mem_entities.mpr ⟨s, hs, he⟩))
    simp only [Function.comp_apply, Entity.node, hids]
  have hattributes : (d.mapEntities fun e =>
      { e with attributes := e.attributes.map (f e) }).attrNodes = d.attrNodes.map g := by
    simp only [attrNodes, entities_mapEntities, List.flatMap_map, List.map_flatMap, List.map_map]
    refine List.flatMap_congr fun e he => List.map_congr_left fun m hm => ?_
    exact (hg e he m hm).symm
  unfold arena
  rw [hschemas, hentities, hattributes]
  rfl

/-- The attribute of a handle is changed in its slot. -/
theorem arena_update {id : AttrId} {f : Member → Member} {g : AttrNode → AttrNode}
    (hid : ∀ n, n.id = id → (g n).id = id)
    (hg : ∀ e ∈ d.entities, ∀ m ∈ e.attributes, m.id = id → g (m.node e.id) = (f m).node e.id) :
    d.arena.mapAttributes (.update id g) = (d.modifyMember id f).arena := by
  have hchanged := arena_mapAttributes (d := d) (f := fun _ m => if m.id = id then f m else m)
    (g := fun n => if n.id = id then g n else n) ?_ ?_
  · rw [modifyMember, mapMembers, hchanged, Arena.mapAttributes, ← Slots.update_layOut hid]
    rfl
  · intro e he m hm
    have hnode : (m.node e.id).id = m.id := rfl
    rw [hnode]
    split
    next heq => exact hg e he m hm heq
    next => rfl
  · intro e he m hm
    split
    next heq =>
      have hnode : ((f m).node e.id).id = id := hg e he m hm heq ▸ hid _ heq
      exact hnode.trans heq.symm
    next => rfl

theorem arena_updateMember {id : AttrId} {f : Member → Member}
    (hf : ∀ m, m.id = id → (f m).id = id) :
    d.arena.updateMember id f = (d.modifyMember id f).arena :=
  arena_update (fun n => hf n.toMember) fun _ _ _ _ _ => rfl

section Sound

variable (hd : d.HandlesSound)

include hd

theorem HandlesSound.arena_distinguish (id : AttrId) :
    d.arena.distinguish id = (d.distinguish id).arena := by
  rw [Arena.distinguish]
  cases hm : d.member? id with
  | none =>
      have hstale : d.distinguish id = d := by
        refine (mapEntities_congr fun e he => ?_).trans mapEntities_id
        have hkept : ∀ m ∈ e.attributes, (if m.id = id then
            m.distinguish (e.attributes.filter (·.id ≠ id)) else m) = m := by
          intro m hmem
          refine if_neg ?_
          simpa using List.find?_eq_none.mp hm m (mem_members.mpr ⟨e, he, hmem⟩)
        rw [Entity.distinguish, List.map_congr_left hkept, List.map_id']
      rw [hd.arena_attr?_of_none hm, hstale]
  | some m =>
      obtain ⟨e, he, hlisted, hnode⟩ := hd.arena_attr?_of_some hm
      obtain ⟨_, rfl⟩ := mem_of_member? hm
      have hparent : (m.node e.id).parent = e.id := rfl
      have hsiblings : ((d.arena.attributesOf e.id).filter (·.id ≠ m.id)).map AttrNode.toMember =
          e.siblings m.id := by
        rw [hd.arena_attributesOf he, List.filter_map, List.map_map]
        exact List.map_id' _
      rw [hnode, hd.distinguish_eq_modifyMember he hlisted]
      dsimp only
      rw [hparent, hsiblings]
      apply arena_update
      · intro n hn
        exact (Member.distinguish_id _ _).trans hn
      · intro e' he' m' hm' heq
        obtain ⟨rfl, rfl⟩ := hd.eq_of_attr_id he hlisted he' hm' heq
        rfl

variable (hordered : d.Ordered)

include hordered

theorem HandlesSound.arena_resolveReference (id : AttrId) :
    d.arena.resolveReference id =
      ((d.resolveReference id).1.arena, (d.resolveReference id).2) := by
  rw [Arena.resolveReference, resolveReference]
  cases hm : d.member? id with
  | none => rw [hd.arena_attr?_of_none hm]
  | some m =>
      obtain ⟨e, he, hlisted, hnode⟩ := hd.arena_attr?_of_some hm
      obtain ⟨_, rfl⟩ := mem_of_member? hm
      have hreference : (m.node e.id).isReference = m.isReference := rfl
      have htarget : (m.node e.id).target = m.target := rfl
      have hname : (m.node e.id).name = m.name := rfl
      rw [hnode]
      dsimp only
      by_cases hopen : m.isOpen
      · obtain ⟨href, hnone⟩ : m.isReference ∧ m.target = none := by
          simpa [Attribute.isOpen] using hopen
        rw [if_pos hopen, if_neg (by simp [hreference, href]), if_neg (by simp [htarget, hnone]),
          hname, hd.arena_findTarget? hordered]
        refine Prod.ext (arena_update ?_ ?_) rfl
        · intro n hn
          exact (Member.resolvedTo_id _ _).trans hn
        · intro e' he' m' hm' heq
          obtain ⟨rfl, rfl⟩ := hd.eq_of_attr_id he hlisted he' hm' heq
          rfl
      · rw [if_neg hopen, hreference, htarget]
        cases href : m.isReference with
        | false => rfl
        | true =>
            have hsome : m.target.isSome := by
              simpa [Attribute.isOpen, href, Option.isSome_iff_ne_none] using hopen
            rw [if_neg (by simp), if_pos hsome]

/-! ### References one by one -/

/-- Attributes that are changed one after the other, each on its own, are changed together. -/
theorem HandlesSound.arena_foldl (step : Arena → AttrId → Arena) {p : Member → Bool}
    {g : Member → Member} (hg : ∀ m, (g m).id = m.id)
    (hstep : ∀ d' : Document, d'.outline = d.outline → d'.HandlesSound → d'.Ordered →
      ∀ m ∈ d'.members, p m → step d'.arena m.id = (d'.modifyMember m.id g).arena) :
    ((d.members.filter p).map Member.id).foldl step d.arena =
      (d.mapMembers fun m => if p m then g m else m).arena := by
  -- What is changed already is left alone, and what is still to be changed is as it was.
  have hfold : ∀ (ms : List Member) (d' : Document), (ms.map Member.id).Nodup →
      d'.outline = d.outline → d'.HandlesSound → d'.Ordered →
      (∀ m ∈ ms, m ∈ d'.members ∧ p m) →
      (ms.map Member.id).foldl step d'.arena =
        (d'.mapMembers fun m => if m.id ∈ ms.map Member.id then g m else m).arena := by
    intro ms
    induction ms with
    | nil =>
        intro d' _ _ _ _ _
        rw [mapMembers_eq_self (by simp)]
        rfl
    | cons m ms ih =>
        intro d' hnodup houtline hd' hordered' hms
        obtain ⟨hnot, hnodup⟩ := List.nodup_cons.mp hnodup
        obtain ⟨⟨hm, hp⟩, hms⟩ := List.forall_mem_cons.mp hms
        have hsame : SameHandles d' (d'.modifyMember m.id g) :=
          sameHandles_modifyMember fun m' hm' => (hg m').trans hm'
        rw [List.map_cons, List.foldl_cons, hstep d' houtline hd' hordered' m hm hp,
          ih _ hnodup ((outline_modifyMember _ _).trans houtline) (hd'.step hsame.step)
            (hordered'.same hsame), modifyMember, mapMembers_mapMembers]
        · congr 2
          funext m'
          by_cases heq : m'.id = m.id
          · rw [if_pos heq, if_neg (by rw [hg, heq]; exact hnot),
              if_pos (List.mem_cons.mpr (Or.inl heq))]
          · rw [if_neg heq]
            simp only [List.mem_cons, heq, false_or]
        · intro m' hm'
          obtain ⟨hmem, hp'⟩ := hms m' hm'
          have hne : m'.id ≠ m.id := fun heq => hnot (heq ▸ List.mem_map_of_mem hm')
          refine ⟨?_, hp'⟩
          rw [modifyMember, members_mapMembers]
          exact List.mem_map.mpr ⟨m', hmem, if_neg hne⟩
  have hpending : ∀ m ∈ d.members, (m.id ∈ (d.members.filter p).map Member.id ↔ p m) := by
    intro m hm
    constructor
    · intro hmem
      obtain ⟨m', hm', heq⟩ := List.mem_map.mp hmem
      obtain ⟨hm', hp⟩ := List.mem_filter.mp hm'
      exact eq_of_key_eq (hd.nodup .attr) hm' hm heq ▸ hp
    · exact fun hp => List.mem_map_of_mem (List.mem_filter.mpr ⟨hm, hp⟩)
  have hnodup : ((d.members.filter p).map Member.id).Nodup :=
    (List.filter_sublist.map _).nodup (hd.nodup .attr)
  rw [hfold _ d hnodup rfl hd hordered fun m hm => List.mem_filter.mp hm]
  congr 1
  apply mapMembers_congr
  intro m hm
  simp only [hpending m hm]

/-- The attributes that are gone through are those of the document. -/
theorem HandlesSound.arena_pending (p : Member → Bool) :
    (d.arena.allAttributes.filter fun m => p m.toMember).map (fun m => m.id) =
      (d.members.filter p).map Member.id := by
  rw [hd.arena_allAttributes hordered, ← map_toMember_attrNodes, List.filter_map, List.map_map]
  rfl

omit hd hordered in
/-- An open reference is resolved in its place. -/
theorem HandlesSound.resolveReference_of_isOpen (hd : d.HandlesSound) {m : Member}
    (hm : m ∈ d.members) (hopen : m.isOpen) :
    (d.resolveReference m.id).1 = d.modifyMember m.id d.resolved := by
  rw [resolveReference, hd.member?_eq hm]
  dsimp only
  rw [if_pos hopen]

theorem HandlesSound.arena_resolveReferences :
    d.arena.resolveReferences = d.resolveReferences.arena := by
  rw [Arena.resolveReferences, resolveReferences]
  rw [← hd.arena_foldl hordered (fun a id => (a.resolveReference id).1)
      (p := fun m => m.isOpen && !m.isLost) (g := d.resolved) resolved_id,
    ← hd.arena_pending hordered, List.foldl_map]
  intro d' houtline hd' hordered' m hm hp
  rw [hd'.arena_resolveReference hordered', hd'.resolveReference_of_isOpen hm (by simp_all),
    resolved_congr houtline]

theorem HandlesSound.arena_retryReferences :
    d.arena.retryReferences = d.retryReferences.arena := by
  rw [Arena.retryReferences, retryReferences]
  rw [← hd.arena_foldl hordered Arena.retryReference (p := fun m => m.isOpen && m.isLost)
      (g := fun m => d.resolved m.unreported) fun m => resolved_id _,
    ← hd.arena_pending hordered, List.foldl_map]
  intro d' houtline hd' hordered' m hm hp
  have hopen : m.unreported.isOpen := by
    have hboth : m.isOpen ∧ m.isLost := by simpa using hp
    exact hboth.1
  have hsame : SameHandles d' (d'.modifyMember m.id Member.unreported) :=
    sameHandles_modifyMember fun _ hm' => hm'
  have hmem : m.unreported ∈ (d'.modifyMember m.id Member.unreported).members := by
    rw [modifyMember, members_mapMembers]
    exact List.mem_map.mpr ⟨m, hm, if_pos rfl⟩
  have hsound := hd'.step hsame.step
  have hresolved : ((d'.modifyMember m.id Member.unreported).resolveReference m.id).1 =
      d'.modifyMember m.id fun m => d.resolved m.unreported := by
    refine (hsound.resolveReference_of_isOpen hmem hopen).trans ?_
    rw [resolved_congr ((outline_modifyMember _ _).trans houtline), modifyMember, modifyMember,
      mapMembers_mapMembers]
    congr 1
    funext m'
    by_cases heq : m'.id = m.id
    · have hid : m'.unreported.id = m.unreported.id := heq
      rw [if_pos heq, if_pos hid, if_pos heq]
    · have hid : ¬ m'.id = m.unreported.id := heq
      rw [if_neg heq, if_neg hid, if_neg heq]
  rw [Arena.retryReference, arena_updateMember (f := Member.unreported) fun _ hm' => hm',
    hsound.arena_resolveReference (hordered'.same hsame), hresolved]

/-! ### Renamed references -/

theorem HandlesSound.arena_referencesTo (renamed : List EntityId) :
    d.arena.referencesTo renamed = d.referencesTo renamed := by
  rw [Arena.referencesTo, hd.arena_allAttributes hordered, referencesTo,
    ← map_toMember_attrNodes, List.filterMap_map]
  rfl

theorem HandlesSound.arena_retarget (reference : AttrId × EntityId × Bool) :
    d.arena.retarget reference = (d.retarget reference).arena := by
  obtain ⟨id, target, bare⟩ := reference
  rw [Arena.retarget, retarget]
  dsimp only
  cases he : d.entity? target with
  | none => rw [hd.arena_entity?_of_none he]
  | some e =>
      obtain ⟨s, _, _, hnode⟩ := hd.arena_entity?_of_some he
      obtain ⟨_, rfl⟩ := mem_of_entity? he
      have hname : (e.node s.id).name = e.name := rfl
      have hsame : SameHandles d (d.modifyMember id fun m =>
          { m with name := d.writtenName e bare }) := sameHandles_modifyMember fun _ hm => hm
      rw [hnode]
      dsimp only
      rw [hname, hd.arena_findTarget? hordered, hd.arena_qualifiedName, ← writtenName,
        ← (hd.step hsame.step).arena_distinguish]
      exact congrArg (Arena.distinguish id) (arena_updateMember fun _ hm => hm)

theorem HandlesSound.arena_retargetReferences (renamed : List EntityId) :
    d.arena.retargetReferences renamed = (d.retargetReferences renamed).arena := by
  rw [Arena.retargetReferences, retargetReferences, hd.arena_referencesTo hordered]
  generalize d.referencesTo renamed = references
  induction references generalizing d with
  | nil => rfl
  | cons reference references ih =>
      have hsame := sameHandles_retarget (d := d) reference
      rw [List.foldl_cons, List.foldl_cons, hd.arena_retarget hordered,
        ih (hd.step hsame.step) (hordered.same hsame)]

end Sound

end Document

end Blueprint
