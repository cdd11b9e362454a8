import Blueprint.Proofs.Handles
import Blueprint.Proofs.Renumbering
import Mathlib.Data.List.GetD

/-! # Documents that say the same

Two documents with sound handles that agree apart from handles and targets are
renumberings of each other once their targets are put aside: the handle at each place
of the one is exchanged for the handle at that place of the other.
-/

namespace Blueprint

/-! ### What a text can say -/

/-- The attribute without its handle and its target. -/
def Member.unnumbered (m : Member) : Member :=
  { m with id := .nowhere, target := none }

/-- The entity without handles and targets. -/
def Entity.unnumbered (e : Entity) : Entity :=
  ⟨.nowhere, e.name, e.attributes.map Member.unnumbered⟩

/-- The schema without handles and targets. -/
def Schema.unnumbered (s : Schema) : Schema :=
  ⟨.nowhere, s.name, s.entities.map Entity.unnumbered⟩

/-- What a document says apart from handles and targets. -/
def Document.unnumbered (d : Document) : List Schema :=
  d.schemas.map Schema.unnumbered

/-- The attribute without its target. -/
def Member.unbound (m : Member) : Member :=
  { m with target := none }

/-! ### The handles at the same places -/

namespace Renumbering

open Document

variable {d d' : Document}

/-- The handle at the same place of another list; a handle that stands nowhere goes above
a bound. -/
def exchange {sort : NodeSort} (handles handles' : List (Handle sort)) (bound : Nat)
    (h : Handle sort) : Handle sort :=
  if h ∈ handles then handles'.getD (handles.idxOf h) .nowhere else ⟨bound + 1 + h.number⟩

theorem exchange_injective {sort : NodeSort} {handles handles' : List (Handle sort)} {bound : Nat}
    (hlength : handles.length = handles'.length) (hnodup : handles'.Nodup)
    (hbound : ∀ h ∈ handles', h.number ≤ bound) :
    Function.Injective (exchange handles handles' bound) := by
  have hget : ∀ h ∈ handles, ∃ hlt : handles.idxOf h < handles'.length,
      exchange handles handles' bound h = handles'.get ⟨handles.idxOf h, hlt⟩ := by
    intro h hmem
    have hlt : handles.idxOf h < handles'.length := hlength ▸ List.idxOf_lt_length_iff.mpr hmem
    exact ⟨hlt, by rw [exchange, if_pos hmem, List.getD_eq_getElem _ _ hlt]; rfl⟩
  -- A handle of the list stays within the bound, and any other one goes above it.
  have hcross : ∀ h ∈ handles, ∀ h' ∉ handles,
      exchange handles handles' bound h ≠ exchange handles handles' bound h' := by
    intro h hmem h' hmem' heq
    obtain ⟨hlt, heq'⟩ := hget h hmem
    have hle := hbound _ (List.get_mem handles' ⟨_, hlt⟩)
    rw [← heq', heq, exchange, if_neg hmem'] at hle
    simp only at hle
    omega
  intro h h' heq
  by_cases hmem : h ∈ handles <;> by_cases hmem' : h' ∈ handles
  · obtain ⟨hlt, hh⟩ := hget h hmem
    obtain ⟨hlt', hh'⟩ := hget h' hmem'
    rw [hh, hh'] at heq
    have hidx := List.nodup_iff_injective_get.mp hnodup heq
    exact (List.idxOf_inj hmem).mp (Fin.mk.inj_iff.mp hidx)
  · exact absurd heq (hcross h hmem h' hmem')
  · exact absurd heq.symm (hcross h' hmem' h hmem)
  · rw [exchange, exchange, if_neg hmem, if_neg hmem'] at heq
    cases h
    cases h'
    simpa using heq

theorem map_exchange {sort : NodeSort} {handles handles' : List (Handle sort)} (bound : Nat)
    (hlength : handles.length = handles'.length) (hnodup : handles.Nodup) :
    handles.map (exchange handles handles' bound) = handles' := by
  apply List.ext_getElem
  · simpa using hlength
  · intro i hi hi'
    have hi : i < handles.length := by simpa using hi
    rw [List.getElem_map, exchange, if_pos (List.getElem_mem hi), hnodup.idxOf_getElem i hi,
      List.getD_eq_getElem _ _ hi']

end Renumbering

namespace Document

variable {d d' : Document}

theorem entities_unnumbered :
    d.unnumbered.flatMap Schema.entities = d.entities.map Entity.unnumbered := by
  simp only [unnumbered, entities, List.flatMap_map, List.map_flatMap, Schema.unnumbered]

theorem members_unnumbered :
    (d.unnumbered.flatMap Schema.entities).flatMap Entity.attributes =
      d.members.map Member.unnumbered := by
  simp only [entities_unnumbered, members, List.flatMap_map, List.map_flatMap, Entity.unnumbered]

theorem length_handles_of_unnumbered (hsame : d'.unnumbered = d.unnumbered) (sort : NodeSort) :
    (d.handles sort).length = (d'.handles sort).length := by
  cases sort with
  | schema => simpa [handles, unnumbered] using (congrArg List.length hsame).symm
  | entity =>
      have hentities := congrArg (List.flatMap Schema.entities) hsame
      rw [entities_unnumbered, entities_unnumbered] at hentities
      simpa [handles] using (congrArg List.length hentities).symm
  | attr =>
      have hmembers := congrArg
        (fun ss => (List.flatMap Schema.entities ss).flatMap Entity.attributes) hsame
      rw [members_unnumbered, members_unnumbered] at hmembers
      simpa [handles] using (congrArg List.length hmembers).symm

theorem HandlesSound.exists_renumbering (hd : d.HandlesSound) (hd' : d'.HandlesSound)
    (hsame : d'.unnumbered = d.unnumbered) :
    ∃ ρ : Renumbering, ∀ sort, d'.handles sort = (d.handles sort).map ρ.apply := by
  have hlength := length_handles_of_unnumbered hsame
  refine ⟨⟨fun {sort} => Renumbering.exchange (d.handles sort) (d'.handles sort) (d'.issued sort),
    fun sort => ?_⟩, fun sort => ?_⟩
  · exact Renumbering.exchange_injective (hlength sort) (hd'.nodup sort)
      fun h hmem => (hd'.issued sort h hmem).2
  · exact (Renumbering.map_exchange _ (hlength sort) (hd.nodup sort)).symm

/-! ### Node by node -/

variable {ρ : Renumbering}

theorem members_eq_map_renumber {ms ms' : List Member}
    (hsame : ms'.map Member.unnumbered = ms.map Member.unnumbered)
    (hids : ms'.map Member.id = (ms.map Member.id).map ρ.apply)
    (hunbound : ∀ m ∈ ms', m.target = none) :
    ms' = (ms.map Member.unbound).map (Member.renumber ρ) := by
  induction ms generalizing ms' with
  | nil => simpa using hsame
  | cons m ms ih =>
      cases ms' with
      | nil => simp at hsame
      | cons m' ms' =>
          obtain ⟨htarget, hunbound⟩ := List.forall_mem_cons.mp hunbound
          obtain ⟨hhead, hsame⟩ := List.cons.inj hsame
          obtain ⟨hid, hids⟩ := List.cons.inj hids
          rw [List.map_cons, List.map_cons, ← ih hsame hids hunbound]
          congr 1
          calc m' = { m'.unnumbered with id := m'.id, target := m'.target } := rfl
            _ = { m.unnumbered with id := ρ.apply m.id, target := none } := by
              rw [hhead, hid, htarget]
            _ = m.unbound.renumber ρ := rfl

theorem entities_eq_map_renumber {es es' : List Entity}
    (hsame : es'.map Entity.unnumbered = es.map Entity.unnumbered)
    (hids : es'.map Entity.id = (es.map Entity.id).map ρ.apply)
    (hattrs : (es'.flatMap Entity.attributes).map Member.id =
      ((es.flatMap Entity.attributes).map Member.id).map ρ.apply)
    (hunbound : ∀ m ∈ es'.flatMap Entity.attributes, m.target = none) :
    es' = (es.map fun e => { e with attributes := e.attributes.map Member.unbound }).map
      (Entity.renumber ρ) := by
  induction es generalizing es' with
  | nil => simpa using hsame
  | cons e es ih =>
      cases es' with
      | nil => simp at hsame
      | cons e' es' =>
          obtain ⟨hhead, hsame⟩ := List.cons.inj hsame
          obtain ⟨hid, hids⟩ := List.cons.inj hids
          obtain ⟨_, hname, hmembers⟩ := Entity.mk.inj hhead
          have hlength : e'.attributes.length = e.attributes.length := by
            simpa using congrArg List.length hmembers
          -- The handles of attributes come in one list: cut it where the first entity ends.
          simp only [List.flatMap_cons, List.map_append, List.forall_mem_append] at hattrs hunbound
          obtain ⟨hfirst, hrest⟩ := List.append_inj hattrs (by simpa using hlength)
          rw [List.map_cons, List.map_cons, ← ih hsame hids hrest hunbound.2]
          congr 1
          calc e' = ⟨e'.id, e'.name, e'.attributes⟩ := rfl
            _ = ⟨ρ.apply e.id, e.name,
                (e.attributes.map Member.unbound).map (Member.renumber ρ)⟩ := by
              rw [hid, hname, ← members_eq_map_renumber hmembers hfirst hunbound.1]

theorem schemas_eq_map_renumber {ss ss' : List Schema}
    (hsame : ss'.map Schema.unnumbered = ss.map Schema.unnumbered)
    (hids : ss'.map Schema.id = (ss.map Schema.id).map ρ.apply)
    (hentities : (ss'.flatMap Schema.entities).map Entity.id =
      ((ss.flatMap Schema.entities).map Entity.id).map ρ.apply)
    (hattrs : ((ss'.flatMap Schema.entities).flatMap Entity.attributes).map Member.id =
      (((ss.flatMap Schema.entities).flatMap Entity.attributes).map Member.id).map ρ.apply)
    (hunbound : ∀ m ∈ (ss'.flatMap Schema.entities).flatMap Entity.attributes, m.target = none) :
    ss' = (ss.map fun s => { s with
      entities := s.entities.map fun e =>
        { e with attributes := e.attributes.map Member.unbound } }).map (Schema.renumber ρ) := by
  induction ss generalizing ss' with
  | nil => simpa using hsame
  | cons s ss ih =>
      cases ss' with
      | nil => simp at hsame
      | cons s' ss' =>
          obtain ⟨hhead, hsame⟩ := List.cons.inj hsame
          obtain ⟨hid, hids⟩ := List.cons.inj hids
          obtain ⟨_, hname, hes⟩ := Schema.mk.inj hhead
          have hlength : s'.entities.length = s.entities.length := by
            simpa using congrArg List.length hes
          have hlength' : (s'.entities.flatMap Entity.attributes).length =
              (s.entities.flatMap Entity.attributes).length := by
            have hms := congrArg (List.flatMap Entity.attributes) hes
            simp only [List.flatMap_map, Entity.unnumbered, ← List.map_flatMap] at hms
            simpa using congrArg List.length hms
          -- Here two lists are cut, that of the entities and that of the attributes.
          simp only [List.flatMap_cons, List.map_append, List.flatMap_append,
            List.forall_mem_append] at hentities hattrs hunbound
          obtain ⟨hfirst, hentities⟩ := List.append_inj hentities (by simpa using hlength)
          obtain ⟨hfirst', hattrs⟩ := List.append_inj hattrs (by simpa using hlength')
          rw [List.map_cons, List.map_cons, ← ih hsame hids hentities hattrs hunbound.2]
          congr 1
          calc s' = ⟨s'.id, s'.name, s'.entities⟩ := rfl
            _ = ⟨ρ.apply s.id, s.name, (s.entities.map fun e =>
                { e with attributes := e.attributes.map Member.unbound }).map
                  (Entity.renumber ρ)⟩ := by
              rw [hid, hname, ← entities_eq_map_renumber hes hfirst hfirst' hunbound.1]

/-- A document without targets is a renumbering of every document that says the same. -/
theorem HandlesSound.exists_renumbers (hd : d.HandlesSound) (hd' : d'.HandlesSound)
    (hsame : d'.unnumbered = d.unnumbered) (hdepth : d'.maxDepth = d.maxDepth)
    (hunbound : ∀ m ∈ d'.members, m.target = none) :
    ∃ ρ, Renumbers ρ (d.mapMembers Member.unbound) d' := by
  obtain ⟨ρ, hρ⟩ := hd.exists_renumbering hd' hsame
  exact ⟨ρ, schemas_eq_map_renumber hsame (hρ .schema) (hρ .entity) (hρ .attr) hunbound, hdepth⟩

end Document

end Blueprint
