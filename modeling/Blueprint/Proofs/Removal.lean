import Blueprint.Proofs.Columns
import Blueprint.Proofs.Reading
import Blueprint.Recall

/-! # Columns after a removal

An entity that is removed takes its attributes with it, and the references to it stay without
a target. A column is a chain of references, so other entities lose the columns whose chain
leads over such a reference, however deep it lies. All the other columns are there as they
were and in the same order, and so is the rest of the document.
-/

namespace Blueprint

theorem Member.detach_singleton (id : EntityId) (m : Member) :
    m.detach [id] =
      if m.target = some id then
        { m with target := none, defects := m.defects ++ [.referenceInvalid] }
      else m := by
  unfold Member.detach
  cases m.target with
  | none => simp
  | some t => simp

/-- Whether the chain of a column has no reference to the entity. -/
def Column.avoids (id : EntityId) (c : Column) : Bool :=
  c.hops.all (·.target ≠ some id)

theorem Column.avoids_iff {id : EntityId} {c : Column} :
    c.avoids id ↔ ∀ m ∈ c.hops, m.target ≠ some id := by
  simp [Column.avoids]

namespace Document

variable {d : Document} {id x : EntityId} {m : Member}

/-- What removing an entity leaves. -/
def withoutEntity (id : EntityId) (d : Document) : Document :=
  (d.dropEntity id).mapMembers (Member.detach [id])

/-! ### Nodes that stay -/

theorem entity?_withoutEntity (hne : x ≠ id) :
    (d.withoutEntity id).entity? x =
      (d.entity? x).map fun e => { e with attributes := e.attributes.map (Member.detach [id]) } := by
  have hkept : (d.dropEntity id).entity? x = d.entity? x := by
    rw [entity?, entities_dropEntity, List.find?_filter, entity?]
    congr 1
    funext e
    by_cases hid : e.id = x
    · simp [hid, hne]
    · simp [hid]
  rw [withoutEntity, mapMembers, entity?_mapEntities (keepsOutline_attributes _), hkept]

theorem entity?_withoutEntity_self : (d.withoutEntity id).entity? id = none := by
  have hgone : (d.dropEntity id).entity? id = none := by
    simp [entity?, entities_dropEntity]
  rw [withoutEntity, mapMembers, entity?_mapEntities (keepsOutline_attributes _), hgone]
  rfl

theorem attributesOf_withoutEntity (hne : x ≠ id) :
    (d.withoutEntity id).attributesOf x = (d.attributesOf x).map (Member.detach [id]) := by
  unfold attributesOf
  rw [entity?_withoutEntity hne]
  cases d.entity? x <;> rfl

theorem schemaOf?_withoutEntity (hne : x ≠ id) :
    ((d.withoutEntity id).schemaOf? x).map Schema.id = (d.schemaOf? x).map Schema.id := by
  rw [withoutEntity, mapMembers, schemaOf?_mapEntities (keepsOutline_attributes _), schemaOf?,
    dropEntity, List.find?_map, schemaOf?, Option.map_map, Option.map_map]
  congr 1
  congr 1
  funext s
  rw [Function.comp_apply, List.any_filter]
  congr 1
  funext e
  by_cases hid : e.id = x
  · simp [hid, hne]
  · simp [hid]

/-! ### Chains that stay -/

/-- What an attribute contributes once the entity is gone, given what its target does. -/
theorem columnsAt_withoutEntity {root : EntityId} {depth : Nat} {hops : List Member}
    (hm : ∀ t, m.target = some t → m.isReference) (hhops : ∀ m ∈ hops, m.target ≠ some id)
    (htarget : ∀ t, m.target = some t → t ≠ id →
      (d.withoutEntity id).columnsFrom root depth (hops ++ [m]) t =
        (d.columnsFrom root depth (hops ++ [m]) t).filter (Column.avoids id)) :
    (d.withoutEntity id).columnsAt root depth hops x (m.detach [id]) =
      (d.columnsAt root depth hops x m).filter (Column.avoids id) := by
  rw [Member.detach_singleton]
  by_cases hlost : m.target = some id
  · -- All that the reference stood for leads over it.
    have href : m.isReference := hm id hlost
    have hnone : ∀ c ∈ d.columnsAt root depth hops x m, ¬ c.avoids id := by
      intro c hc havoids
      rcases of_mem_columnsAt hc with ⟨hplain, _⟩ | ⟨_, t, _, hc⟩
      · simp [href] at hplain
      · obtain ⟨_, _, more, hway, _⟩ := way_of_mem_columnsFrom hc
        exact Column.avoids_iff.mp havoids m (by simp [hway]) hlost
    rw [if_pos hlost, List.filter_eq_nil_iff.mpr hnone]
    apply List.eq_nil_iff_forall_not_mem.mpr
    intro c hc
    rcases of_mem_columnsAt hc with ⟨hplain, _⟩ | ⟨_, t, hnone, _⟩
    · exact absurd (href.symm.trans hplain) (by simp)
    · cases hnone
  · rw [if_neg hlost]
    by_cases hfollow : hops = [] ∨ m.primary
    · cases href : m.isReference with
      | false =>
          have hkept : (⟨root, hops, m, x⟩ : Column).avoids id := Column.avoids_iff.mpr hhops
          rw [columnsAt_plain hfollow href, columnsAt_plain hfollow href,
            List.filter_cons_of_pos hkept, List.filter_nil]
      | true =>
          rw [columnsAt_reference hfollow href, columnsAt_reference hfollow href]
          cases hto : m.target with
          | none => rfl
          | some t =>
              have hne : t ≠ id := fun heq => hlost (heq ▸ hto)
              exact htarget t hto hne
    · obtain ⟨hstarted, hprimary⟩ := not_or.mp hfollow
      rw [columnsAt_eq_nil hstarted hprimary, columnsAt_eq_nil hstarted hprimary, List.filter_nil]

theorem MembersSettled.columnsFrom_withoutEntity (hd : d.MembersSettled) (root : EntityId)
    (depth : Nat) {hops : List Member} (hhops : ∀ m ∈ hops, m.target ≠ some id) (hne : x ≠ id) :
    (d.withoutEntity id).columnsFrom root depth hops x =
      (d.columnsFrom root depth hops x).filter (Column.avoids id) := by
  -- What was followed before has no reference to the entity; this carries the induction.
  induction depth generalizing hops x with
  | zero => rfl
  | succ depth ih =>
      rw [columnsFrom_succ, columnsFrom_succ, attributesOf_withoutEntity hne, List.flatMap_map,
        List.filter_flatMap]
      apply List.flatMap_congr
      intro m hm
      have hsettled := hd m (mem_members_of_mem_attributesOf hm)
      apply columnsAt_withoutEntity (fun t ht => (hsettled.denotes t ht).1) hhops
      intro t ht hne
      apply ih ?_ hne
      intro other hother
      rcases List.mem_append.mp hother with hother | hother
      · exact hhops other hother
      · rw [List.mem_singleton.mp hother, ht]
        exact fun heq => hne (Option.some.inj heq)

theorem MembersSettled.flatten_withoutEntity (hd : d.MembersSettled) (hne : x ≠ id) :
    (d.withoutEntity id).flatten x = (d.flatten x).filter fun f => f.column.avoids id := by
  have hcolumns : (d.withoutEntity id).columns x = (d.columns x).filter (Column.avoids id) :=
    hd.columnsFrom_withoutEntity x d.maxDepth (by simp) hne
  rw [flatten, flatten, List.filter_map, Function.comp_def, ← hcolumns]
  apply List.map_congr_left
  intro c hc
  -- The stored attribute belongs to an entity that is still there.
  have howner : c.owner ≠ id := by
    intro heq
    have hlive := mem_handles_of_mem_attributesOf (terminal_mem_attributesOf hc)
    obtain ⟨e, he⟩ := exists_entity?_iff.mpr hlive
    rw [heq, entity?_withoutEntity_self] at he
    cases he
  have hroot : c.root = x := root_of_mem_columnsFrom hc
  simp only [changesSchema, hroot, schemaOf?_withoutEntity hne, schemaOf?_withoutEntity howner]

/-! ### Attributes that stay -/

theorem HandlesSound.withoutEntity (hd : d.HandlesSound) (id : EntityId) :
    (d.withoutEntity id).HandlesSound :=
  hd.step ((handleStep_dropEntity id).then_same (sameHandles_mapMembers (Member.detach_id [id])))

theorem HandlesSound.member?_withoutEntity (hd : d.HandlesSound) (hne : x ≠ id)
    (hm : m ∈ d.attributesOf x) : (d.withoutEntity id).member? m.id = some (m.detach [id]) := by
  have hmem : m.detach [id] ∈ (d.withoutEntity id).attributesOf x := by
    rw [attributesOf_withoutEntity hne]
    exact List.mem_map_of_mem hm
  have hfound := (hd.withoutEntity id).member?_eq (mem_members_of_mem_attributesOf hmem)
  rwa [Member.detach_id] at hfound

/-- The attributes of the entity are gone, as no other entity has them. -/
theorem HandlesSound.member?_withoutEntity_self (hd : d.HandlesSound)
    (hm : m ∈ d.attributesOf id) : (d.withoutEntity id).member? m.id = none := by
  rw [Option.eq_none_iff_forall_ne_some]
  intro m' hfound
  obtain ⟨hm', hsame⟩ := mem_of_member? hfound
  obtain ⟨e, he, hm'⟩ := mem_members.mp hm'
  have hentity := (hd.withoutEntity id).entity?_eq he
  have hne : e.id ≠ id := by
    intro heq
    rw [heq, entity?_withoutEntity_self] at hentity
    cases hentity
  have hlisted : m' ∈ (d.withoutEntity id).attributesOf e.id := by
    rwa [attributesOf, hentity]
  rw [attributesOf_withoutEntity hne] at hlisted
  obtain ⟨old, hold, rfl⟩ := List.mem_map.mp hlisted
  rw [Member.detach_id] at hsame
  have howner := hd.ownerOf?_of_mem_attributesOf hold
  rw [hsame, hd.ownerOf?_of_mem_attributesOf hm] at howner
  exact hne (Option.some.inj howner).symm

/-! ### Removals -/

/-- Whether a document is another one with an entity removed. -/
structure Removes (d : Document) (id : EntityId) (next : Document) : Prop where
  /-- The columns of the others, without those that lead over a reference to the entity. -/
  flatten : ∀ x ∈ d.handles .entity, x ≠ id →
    next.flatten x = (d.flatten x).filter fun f => f.column.hops.all (·.target ≠ some id)
  /-- References to the entity lose their target and report it; other attributes of the other
  entities are as they were. -/
  member : ∀ x, x ≠ id → ∀ m ∈ d.attributesOf x, next.member? m.id = some
    (if m.target = some id then
      { m with target := none, defects := m.defects ++ [.referenceInvalid] }
    else m)
  gone : next.entity? id = none ∧ ∀ m ∈ d.attributesOf id, next.member? m.id = none
  /-- The other entities keep their names and attributes. -/
  entity : ∀ x, x ≠ id →
    (next.entity? x).map (fun e => (e.name, e.attributes.map Member.id)) =
      (d.entity? x).map fun e => (e.name, e.attributes.map Member.id)
  /-- Schemas keep their names and their other entities. -/
  schemas : next.schemas.map (fun s => (s.id, s.name, s.entities.map Entity.id)) =
    d.schemas.map fun s => (s.id, s.name, (s.entities.map Entity.id).filter (· ≠ id))
  issued : next.issued = d.issued
  maxDepth : next.maxDepth = d.maxDepth

theorem Sound.removes_withoutEntity (hd : d.Sound) (id : EntityId) :
    d.Removes id (d.withoutEntity id) where
  flatten _ _ hne := hd.settled.flatten_withoutEntity hne
  member x hne m hm := by
    rw [← Member.detach_singleton]
    exact hd.handles.member?_withoutEntity hne hm
  gone := ⟨entity?_withoutEntity_self, fun m hm => hd.handles.member?_withoutEntity_self hm⟩
  entity x hne := by
    rw [entity?_withoutEntity hne, Option.map_map]
    congr 1
    funext e
    simp [Function.comp_def]
  schemas := by
    simp [withoutEntity, mapMembers, mapEntities, dropEntity, List.filter_map, Function.comp_def]
  issued := by
    funext sort
    cases sort <;> rfl
  maxDepth := rfl

/-- After every run, removing an entity that is live succeeds, and takes away the entity, the
columns over references to it, the targets of these references, and nothing else. -/
theorem IsOrigin.removes_run (hd : d.IsOrigin) {es : List Edit} (hes : ∀ e ∈ es, e.isWritten)
    (hlive : id ∈ (d.run es).handles .entity) :
    ∃ next, (d.run es).edit (.removeEntity id) = .ok (next, .done) ∧
      (d.run es).Removes id next := by
  obtain ⟨e, he⟩ := exists_entity?_iff.mpr hlive
  have hedit : (d.run es).edit (.removeEntity id) =
      .ok ((d.run es).withoutEntity id, .done) := by
    simp only [edit, removeEntity, requireEntity, he]
    rfl
  exact ⟨_, hedit, (hd.sound_run hes).removes_withoutEntity id⟩

/-- A run with entities that refer to each other in a circle, and one that refers to the circle. -/
def circle : List Edit :=
  [.addSchema "hr", .addEntity ⟨1⟩ "team", .addEntity ⟨1⟩ "user", .addSchema "shop",
    .addEntity ⟨2⟩ "order", .addAttribute ⟨1⟩ "- code as int with p",
    .addAttribute ⟨1⟩ "- @user as lead with p", .addAttribute ⟨2⟩ "- id as ++",
    .addAttribute ⟨2⟩ "- @team with p", .addAttribute ⟨3⟩ "- no as int",
    .addAttribute ⟨3⟩ "- @user as buyer"]

/-- A reference two steps away leads over the entity that is removed. -/
theorem removes_run_circle :
    ⟨1⟩ ∈ ((empty 4).run circle).handles .entity ∧
      (((empty 4).run circle).flatten ⟨3⟩).map (·.column.path) =
        ["no", "buyer.id", "buyer.team.code", "buyer.team.lead.id"] ∧
      (((empty 4).run (circle ++ [.removeEntity ⟨1⟩])).flatten ⟨3⟩).map (·.column.path) =
        ["no", "buyer.id"] ∧
      ∃ next, ((empty 4).run circle).edit (.removeEntity ⟨1⟩) = .ok (next, .done) ∧
        ((empty 4).run circle).Removes ⟨1⟩ next := by
  -- One evaluation for all three, as each of them has to run the edits.
  obtain ⟨hlive, hbefore, hafter⟩ : ⟨1⟩ ∈ ((empty 4).run circle).handles .entity ∧
      (((empty 4).run circle).flatten ⟨3⟩).map (·.column.path) =
        ["no", "buyer.id", "buyer.team.code", "buyer.team.lead.id"] ∧
      (((empty 4).run (circle ++ [.removeEntity ⟨1⟩])).flatten ⟨3⟩).map (·.column.path) =
        ["no", "buyer.id"] := by decide +kernel
  exact ⟨hlive, hbefore, hafter,
    IsOrigin.removes_run (.empty 4) (by simp [circle, Edit.isWritten]) hlive⟩

end Document

end Blueprint
