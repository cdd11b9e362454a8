import Blueprint.Proofs.HandleMaps
import Blueprint.Proofs.Handles

/-! # Handles in the order of their issue

New nodes are put at the end of a list, and no edit moves a node. So along every list of
siblings the handles increase, whatever was removed between them.
-/

namespace Blueprint

namespace Document

variable {d d' next : Document}

/-- Whether the handles of siblings stand in the order of their issue. -/
structure Ordered (d : Document) : Prop where
  schemas : Increasing (d.handles .schema)
  entities : ∀ s ∈ d.schemas, Increasing (s.entities.map Entity.id)
  attributes : ∀ e ∈ d.entities, Increasing (e.attributes.map Member.id)

theorem ordered_empty (maxDepth : Nat) : (empty maxDepth).Ordered where
  schemas := List.Pairwise.nil
  entities := fun _ hs => absurd hs List.not_mem_nil
  attributes := fun _ he => absurd he List.not_mem_nil

/-! ### Changes that issue no handle -/

theorem Ordered.same (hd : d.Ordered) (hsame : SameHandles d d') : d'.Ordered := by
  -- A schema of the one document has the place of a schema of the other.
  have hplace : ∀ s' ∈ d'.schemas, ∃ s ∈ d.schemas,
      (s.entities.map fun e => (e.id, e.attributes.map Member.id)) =
        s'.entities.map fun e => (e.id, e.attributes.map Member.id) := by
    intro s' hs'
    have hmem : _ ∈ d'.handleTree := List.mem_map_of_mem hs'
    rw [hsame.tree] at hmem
    obtain ⟨s, hs, heq⟩ := List.mem_map.mp hmem
    exact ⟨s, hs, (Prod.mk.inj heq).2⟩
  refine ⟨hsame.handles .schema ▸ hd.schemas, ?_, ?_⟩
  · intro s' hs'
    obtain ⟨s, hs, heq⟩ := hplace s' hs'
    have hids := congrArg (List.map Prod.fst) heq
    simp only [List.map_map, Function.comp_def] at hids
    exact hids ▸ hd.entities s hs
  · intro e' he'
    obtain ⟨s', hs', he'⟩ := mem_entities.mp he'
    obtain ⟨s, hs, heq⟩ := hplace s' hs'
    have hmem : (e'.id, e'.attributes.map Member.id) ∈
        s'.entities.map fun e => (e.id, e.attributes.map Member.id) := List.mem_map_of_mem he'
    rw [← heq] at hmem
    obtain ⟨e, he, heq⟩ := List.mem_map.mp hmem
    exact (Prod.mk.inj heq).2 ▸ hd.attributes e (mem_entities.mpr ⟨s, hs, he⟩)

theorem Ordered.dropSchema (hd : d.Ordered) (id : SchemaId) : (d.dropSchema id).Ordered where
  schemas := hd.schemas.sublist (List.filter_sublist.map _)
  entities := fun s hs => hd.entities s (List.mem_of_mem_filter hs)
  attributes := fun e he => hd.attributes e ((entities_dropSchema_sublist id).subset he)

theorem Ordered.dropEntity (hd : d.Ordered) (id : EntityId) : (d.dropEntity id).Ordered where
  schemas := by
    have hids := hd.schemas
    simpa [handles, Document.dropEntity, Function.comp_def] using hids
  entities := by
    intro s' hs'
    obtain ⟨s, hs, rfl⟩ := List.mem_map.mp hs'
    exact (hd.entities s hs).sublist (List.filter_sublist.map _)
  attributes := by
    intro e he
    rw [entities_dropEntity] at he
    exact hd.attributes e (List.mem_of_mem_filter he)

theorem Ordered.dropMember (hd : d.Ordered) (id : AttrId) : (d.dropMember id).Ordered where
  schemas := by
    have hids := hd.schemas
    simpa [handles, Document.dropMember, mapEntities, Function.comp_def] using hids
  entities := by
    intro s' hs'
    obtain ⟨s, hs, rfl⟩ := List.mem_map.mp hs'
    have hids := hd.entities s hs
    simpa [Function.comp_def] using hids
  attributes := by
    intro e' he'
    rw [Document.dropMember, entities_mapEntities] at he'
    obtain ⟨e, he, rfl⟩ := List.mem_map.mp he'
    exact (hd.attributes e he).sublist (List.filter_sublist.map _)

/-! ### Changes that issue a handle -/

theorem Ordered.addSchema (hd : d.Ordered) (hhandles : d.HandlesSound) (name : String) :
    (d.addSchema name).1.Ordered where
  schemas := by
    simp only [handles, Document.addSchema, List.map_append, List.map_cons, List.map_nil]
    exact hd.schemas.concat fun h hmem => (hhandles.issued .schema h hmem).2
  entities := by
    intro s hs
    rcases List.mem_append.mp hs with hold | hnew
    · exact hd.entities s hold
    · rw [List.mem_singleton.mp hnew]
      exact List.Pairwise.nil
  attributes := by
    intro e he
    rw [entities_addSchema] at he
    exact hd.attributes e he

theorem Ordered.placeEntity (hd : d.Ordered) (hhandles : d.HandlesSound) (schema : SchemaId)
    (name : String) : (d.placeEntity schema (d.nextEntity name)).Ordered where
  schemas := handles_placeEntity_schema (d := d) schema _ ▸ hd.schemas
  entities := by
    intro s' hs'
    obtain ⟨s, hs, rfl⟩ := List.mem_map.mp hs'
    have hle : ∀ h ∈ s.entities.map Entity.id, h.number ≤ d.entityCount := by
      intro h hmem
      obtain ⟨e, he, rfl⟩ := List.mem_map.mp hmem
      exact (hhandles.issued .entity e.id
        (List.mem_map_of_mem (mem_entities.mpr ⟨s, hs, he⟩))).2
    split
    · rw [List.map_append]
      exact (hd.entities s hs).concat hle
    · exact hd.entities s hs
  attributes := by
    intro e he
    obtain ⟨s', hs', he⟩ := mem_entities.mp he
    obtain ⟨s, hs, rfl⟩ := List.mem_map.mp hs'
    split at he
    · rcases List.mem_append.mp he with hold | hnew
      · exact hd.attributes e (mem_entities.mpr ⟨s, hs, hold⟩)
      · rw [List.mem_singleton.mp hnew]
        exact List.Pairwise.nil
    · exact hd.attributes e (mem_entities.mpr ⟨s, hs, he⟩)

theorem Ordered.placeMember (hd : d.Ordered) (hhandles : d.HandlesSound) (entity : EntityId)
    (a : Attribute) : (d.placeMember entity (d.nextMember a)).Ordered where
  schemas := handles_placeMember_schema (d := d) entity _ ▸ hd.schemas
  entities := by
    intro s' hs'
    obtain ⟨s, hs, rfl⟩ := List.mem_map.mp hs'
    have hids : ∀ e : Entity, (if e.id = entity then
        { e with attributes := e.attributes ++ [d.nextMember a] } else e).id = e.id := by
      intro e
      split <;> rfl
    simp only [List.map_map, Function.comp_def, hids]
    exact hd.entities s hs
  attributes := by
    intro e' he'
    have hmem : e' ∈ (d.modifyEntity entity fun e =>
        { e with attributes := e.attributes ++ [d.nextMember a] }).entities := he'
    rw [modifyEntity, entities_mapEntities] at hmem
    obtain ⟨e, he, rfl⟩ := List.mem_map.mp hmem
    have hle : ∀ h ∈ e.attributes.map Member.id, h.number ≤ d.attrCount := by
      intro h hmem
      obtain ⟨m, hm, rfl⟩ := List.mem_map.mp hmem
      exact (hhandles.issued .attr m.id (List.mem_map_of_mem (mem_members.mpr ⟨e, he, hm⟩))).2
    split
    · rw [List.map_append]
      exact (hd.attributes e he).concat hle
    · exact hd.attributes e he

theorem Ordered.attached (hd : d.Ordered) (hhandles : d.HandlesSound) (entity : EntityId)
    (a : Attribute) : (d.attached entity a).Ordered :=
  (hd.placeMember hhandles entity a).same (sameHandles_distinguish _)

/-! ### Edits -/

theorem Ordered.step (hd : d.Ordered) (hhandles : d.HandlesSound) {e : Edit} {answer : Answer}
    (hstep : Step d e next answer) : next.Ordered := by
  cases hstep with
  | addSchema name => exact hd.addSchema hhandles name
  | renameSchema _ name =>
      exact hd.same (((sameHandles_nameSchema _ name).trans
        (sameHandles_retargetReferences _)).trans sameHandles_retryReferences)
  | removeSchema _ =>
      exact (hd.dropSchema _).same (sameHandles_mapMembers fun m => Member.detach_id _ m)
  | addEntity _ name => exact (hd.placeEntity hhandles _ name).same sameHandles_retryReferences
  | renameEntity _ name =>
      exact hd.same (((sameHandles_nameEntity _ name).trans
        (sameHandles_retargetReferences _)).trans sameHandles_retryReferences)
  | removeEntity _ =>
      exact (hd.dropEntity _).same (sameHandles_mapMembers fun m => Member.detach_id _ m)
  | addAttribute _ _ => exact (hd.attached hhandles _ _).same (sameHandles_resolveReference _)
  | insertAttribute _ a => exact (hd.attached hhandles _ a).same (sameHandles_resolveReference _)
  | replaceAttribute _ _ =>
      exact hd.same (((sameHandles_putMember _ _).trans (sameHandles_distinguish _)).trans
        (sameHandles_resolveReference _))
  | removeAttribute _ => exact hd.dropMember _
  | setReference _ _ =>
      exact hd.same (((sameHandles_pointMember _ _).trans (sameHandles_resolveReference _)).trans
        (sameHandles_distinguish _))
  | resolveReference id => exact hd.same (sameHandles_resolveReference id)
  | resolveReferences => exact hd.same sameHandles_resolveReferences
  | setMaxDepth n => exact hd.same ⟨rfl, fun sort => by cases sort <;> rfl⟩

theorem Ordered.run (hd : d.Ordered) (hhandles : d.HandlesSound) (es : List Edit) :
    (d.run es).Ordered := by
  induction es generalizing d with
  | nil => exact hd
  | cons e es ih =>
      rw [run_cons]
      apply ih _ (hhandles.perform e).1
      cases hedit : d.edit e with
      | ok result =>
          rw [perform_of_ok hedit]
          exact hd.step hhandles (Step.of_edit hedit)
      | error err =>
          rw [perform_of_error hedit]
          exact hd

end Document

end Blueprint
