import Blueprint.Proofs.Handles

/-! # Segments of siblings

Distinguishing an attribute of a document reaches that attribute alone. If its siblings have
different segments and none of them has its fallback name for one, then all attributes of the
entity have different segments afterwards, and distinguishing it once more changes nothing.
-/

namespace Blueprint

namespace Entity

variable {e : Entity} {m : Member} {id : AttrId}

/-- The attributes of the entity besides the one of the handle. -/
def siblings (id : AttrId) (e : Entity) : List Member :=
  e.attributes.filter (·.id ≠ id)

/-- Distinguishing an attribute leaves its siblings alone. -/
theorem siblings_distinguish (id : AttrId) (e : Entity) :
    (e.distinguish id).siblings id = e.siblings id := by
  have hid : ∀ m : Member,
      (if m.id = id then m.distinguish (e.siblings id) else m).id = m.id := by
    intro m
    split
    · exact Member.distinguish_id _ _
    · rfl
  have hkept : ∀ m ∈ e.siblings id,
      (if m.id = id then m.distinguish (e.siblings id) else m) = m := by
    intro m hm
    exact if_neg (by simpa using (List.mem_filter.mp hm).2)
  -- The handles stay, so the same places are left out.
  calc (e.distinguish id).siblings id
    _ = (e.siblings id).map fun m => if m.id = id then m.distinguish (e.siblings id) else m := by
      simp only [siblings, distinguish, List.filter_map, Function.comp_def] at hid ⊢
      simp only [hid]
    _ = e.siblings id := by
      rw [List.map_congr_left hkept, List.map_id']

theorem distinguish_eq_self
    (hfree : ∀ m ∈ e.attributes, m.id = id → m.IsFree (e.siblings id)) : e.distinguish id = e := by
  have hkept : ∀ m ∈ e.attributes,
      (if m.id = id then m.distinguish (e.siblings id) else m) = m := by
    intro m hm
    split
    next hid => exact (hfree m hm hid).distinguish_eq_self
    next => rfl
  unfold distinguish
  exact congrArg (fun attributes => { e with attributes := attributes })
    ((List.map_congr_left hkept).trans (List.map_id' _))

/-- An attribute that was left with a free segment is distinguished once and for all. -/
theorem distinguish_distinguish
    (hfree : ∀ m ∈ e.attributes, m.id = id →
      (m.distinguish (e.siblings id)).IsFree (e.siblings id)) :
    (e.distinguish id).distinguish id = e.distinguish id := by
  apply distinguish_eq_self
  intro m' hm' hid
  obtain ⟨m, hm, rfl⟩ := List.mem_map.mp hm'
  rw [siblings_distinguish]
  by_cases heq : m.id = id
  · rw [if_pos heq]
    exact hfree m hm heq
  · rw [if_neg heq] at hid
    exact absurd hid heq

/-- The siblings of an attribute are what stands before and after it. -/
theorem exists_split_siblings (hnodup : (e.attributes.map Member.id).Nodup)
    (hm : m ∈ e.attributes) :
    ∃ before after, e.attributes = before ++ m :: after ∧ e.siblings m.id = before ++ after := by
  obtain ⟨before, after, hsplit⟩ := List.append_of_mem hm
  refine ⟨before, after, hsplit, ?_⟩
  rw [hsplit, List.map_append, List.map_cons, List.nodup_middle, List.nodup_cons,
    ← List.map_append] at hnodup
  have hkept : (before ++ after).filter (·.id ≠ m.id) = before ++ after := by
    rw [List.filter_eq_self]
    intro s hs
    have hother : s.id ≠ m.id := fun heq => hnodup.1 (heq ▸ List.mem_map_of_mem hs)
    simpa using hother
  rw [← hkept, siblings, hsplit, List.filter_append, List.filter_append, List.filter_cons_of_neg]
  simp

/-- An attribute that is left with a free segment completes the different segments of its
siblings. -/
theorem nodup_segments_distinguish (hnodup : (e.attributes.map Member.id).Nodup)
    (hm : m ∈ e.attributes) (hsiblings : ((e.siblings m.id).map fun s => s.segment).Nodup)
    (hfree : (m.distinguish (e.siblings m.id)).IsFree (e.siblings m.id)) :
    ((e.distinguish m.id).attributes.map fun s => s.segment).Nodup := by
  obtain ⟨before, after, hsplit, hrest⟩ := exists_split_siblings hnodup hm
  have hafter : (e.distinguish m.id).attributes =
      before ++ m.distinguish (e.siblings m.id) :: after := by
    rw [hsplit] at hnodup
    unfold distinguish siblings
    rw [hsplit]
    exact map_update_of_nodup hnodup
  rw [hafter, List.map_append, List.map_cons, List.nodup_middle, List.nodup_cons,
    ← List.map_append, ← hrest]
  refine ⟨fun hmem => ?_, hsiblings⟩
  obtain ⟨s, hs, hsame⟩ := List.mem_map.mp hmem
  exact hfree s hs hsame

end Entity

namespace Document

variable {d : Document} {e : Entity} {m : Member}

/-- Distinguishing an attribute puts another one in its place and does nothing else. -/
theorem HandlesSound.distinguish_eq_modifyMember (hd : d.HandlesSound) (he : e ∈ d.entities)
    (hm : m ∈ e.attributes) :
    d.distinguish m.id = d.modifyMember m.id fun _ => m.distinguish (e.siblings m.id) := by
  apply mapEntities_congr
  intro e' he'
  unfold Entity.distinguish
  congr 1
  apply List.map_congr_left
  intro m' hm'
  by_cases hid : m'.id = m.id
  · obtain ⟨rfl, rfl⟩ := hd.eq_of_attr_id he hm he' hm' hid
    rw [if_pos hid, if_pos hid, Entity.siblings]
  · rw [if_neg hid, if_neg hid]

theorem HandlesSound.attributesOf_distinguish (hd : d.HandlesSound) (he : e ∈ d.entities)
    (id : AttrId) : (d.distinguish id).attributesOf e.id = (e.distinguish id).attributes := by
  have hkeeps : KeepsOutline (Entity.distinguish id) := keepsOutline_attributes _
  rw [attributesOf, distinguish, entity?_mapEntities hkeeps, hd.entity?_eq he, Option.map_some]

theorem member?_modifyMember {id : AttrId} {f : Member → Member}
    (hid : ∀ m, m.id = id → (f m).id = id) (other : AttrId) :
    (d.modifyMember id f).member? other =
      (d.member? other).map fun m => if m.id = id then f m else m := by
  have hsame : ∀ m : Member, ((if m.id = id then f m else m).id = other) ↔ m.id = other := by
    intro m
    split
    next heq => rw [hid m heq, heq]
    next => rfl
  rw [member?, modifyMember, members_mapMembers, List.find?_map]
  simp only [Function.comp_def, hsame, member?]

/-- Changing one attribute does not change what another handle stands on. -/
theorem member?_modifyMember_of_ne {id other : AttrId} {f : Member → Member}
    (hid : ∀ m, m.id = id → (f m).id = id) (hne : other ≠ id) :
    (d.modifyMember id f).member? other = d.member? other := by
  rw [member?_modifyMember hid]
  cases hfound : d.member? other with
  | none => rfl
  | some m =>
      obtain rfl := (mem_of_member? hfound).2
      rw [Option.map_some, if_neg hne]

/-- Distinguishing an attribute of an entity once more changes nothing. -/
theorem HandlesSound.distinguish_distinguish (hd : d.HandlesSound) (he : e ∈ d.entities)
    (hm : m ∈ e.attributes)
    (hfree : (m.distinguish (e.siblings m.id)).IsFree (e.siblings m.id)) :
    (d.distinguish m.id).distinguish m.id = d.distinguish m.id := by
  have htwice : (d.distinguish m.id).distinguish m.id =
      d.mapEntities fun e => (e.distinguish m.id).distinguish m.id := by
    simp only [distinguish, mapEntities, List.map_map, Function.comp_def]
  rw [htwice]
  -- In an entity without the handle there is nothing to show.
  apply mapEntities_congr
  intro e' he'
  apply Entity.distinguish_distinguish
  intro m' hm' hid
  obtain ⟨rfl, rfl⟩ := hd.eq_of_attr_id he hm he' hm' hid
  exact hfree

/-- What keeping an attribute of an entity apart from its siblings comes to, with `d'` the
document afterwards and `m'` the attribute in it. -/
structure KeptApart (d : Document) (e : Entity) (m : Member) (d' : Document) (m' : Member) :
    Prop where
  found : d'.member? m.id = some m'
  /-- The segments of the entity are different. -/
  apart : ((d'.attributesOf e.id).map fun s => s.segment).Nodup
  /-- Nothing else is replaced or moved. -/
  alone : d' = d.modifyMember m.id fun _ => m'
  others : ∀ other, other ≠ m.id → d'.member? other = d.member? other
  written : m.isReference → m'.isReference ∧ m'.name = m.name
  unchanged : m.IsFree (e.siblings m.id) → m' = m
  /-- Doing it again changes nothing. -/
  stable : d'.distinguish m.id = d'

/-- If the siblings of an attribute have different segments and none of them has its fallback
name for one, distinguishing the attribute keeps all of them apart. -/
theorem HandlesSound.keptApart_distinguish (hd : d.HandlesSound) (he : e ∈ d.entities)
    (hm : m ∈ e.attributes) (hlocal : m.isReference ∨ m.localName = none)
    (hsiblings : ((e.siblings m.id).map fun s => s.segment).Nodup)
    (hfallback : ∀ s ∈ e.siblings m.id, s.segment ≠ Name.fallback m.id.number) :
    KeptApart d e m (d.distinguish m.id) (m.distinguish (e.siblings m.id)) := by
  have hfree : (m.distinguish (e.siblings m.id)).IsFree (e.siblings m.id) := by
    refine Member.isFree_distinguish (fun hsome => hlocal.resolve_right fun hnone => ?_) hfallback
    simp [hnone] at hsome
  have halone := hd.distinguish_eq_modifyMember he hm
  have hid : ∀ k : Member, k.id = m.id → (m.distinguish (e.siblings m.id)).id = m.id :=
    fun _ _ => Member.distinguish_id _ _
  constructor
  case found =>
    rw [halone, member?_modifyMember hid, hd.member?_eq (mem_members.mpr ⟨e, he, hm⟩),
      Option.map_some, if_pos rfl]
  case apart =>
    rw [hd.attributesOf_distinguish he]
    exact Entity.nodup_segments_distinguish (nodup_children (hd.nodup .attr) he) hm hsiblings hfree
  case alone => exact halone
  case others =>
    intro other hne
    rw [halone]
    exact member?_modifyMember_of_ne hid hne
  case written =>
    intro href
    exact ⟨(Member.distinguish_isReference _ m).trans href, Member.distinguish_name _ href⟩
  case unchanged => exact Member.IsFree.distinguish_eq_self
  case stable => exact hd.distinguish_distinguish he hm hfree

/-- A reference placed beside another one of the same local name and an attribute that is
called like its target. -/
def newcomer : Member :=
  { id := ⟨3⟩, kind := .reference, name := "staff", localName := some "boss" }

def staff : Entity :=
  { id := ⟨1⟩, name := "staff"
    attributes := [
      { id := ⟨1⟩, kind := .int, name := "staff" },
      { id := ⟨2⟩, kind := .reference, name := "staff", localName := some "boss" },
      newcomer] }

def firm : Document :=
  { schemas := [{ id := ⟨1⟩, name := "firm", entities := [staff] }]
    schemaCount := 1, entityCount := 1, attrCount := 3 }

theorem handlesSound_firm : firm.HandlesSound := by
  constructor
  · intro sort
    cases sort <;> decide
  · intro sort
    cases sort <;> decide

/-- Without its local name the newcomer would have a taken name, so it gets its fallback name. -/
theorem keptApart_distinguish_newcomer :
    firm.HandlesSound ∧ newcomer ∈ staff.attributes ∧
      ((staff.siblings newcomer.id).map fun s => s.segment) = ["staff", "boss"] ∧
      KeptApart firm staff newcomer (firm.distinguish newcomer.id)
        { newcomer with localName := some "unset_3" } :=
  ⟨handlesSound_firm, by decide, by decide,
    handlesSound_firm.keptApart_distinguish (e := staff) (m := newcomer) (by decide)
      (by decide) (by decide) (by decide) (by decide)⟩

end Document

end Blueprint
