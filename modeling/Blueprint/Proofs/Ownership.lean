import Blueprint.Proofs.Simulation

/-! # Ownership

Who owns a node is stored twice in an arena, in the list of the owner and in the parent of
the node. Along every run both say the same, no reference dangles, and a handle names one
node only, before its removal and ever after.
-/

namespace Blueprint

/-! ### Well-formed arenas -/

namespace Arena

/-- Whether the slots, the lists and the parents of an arena agree. -/
structure WellFormed (a : Arena) : Prop where
  schema_slot : ∀ k s, a.schemas[k]? = some (some s) → s.id.number = k + 1
  entity_slot : ∀ k e, a.entities[k]? = some (some e) → e.id.number = k + 1
  attr_slot : ∀ k m, a.attributes[k]? = some (some m) → m.id.number = k + 1
  entities_nodup : ∀ id s, a.schema? id = some s → s.entities.Nodup
  /-- What a schema lists are entities that have it as their parent. -/
  entities_owned : ∀ id s, a.schema? id = some s →
    ∀ e ∈ s.entities, ∃ n, a.entity? e = some n ∧ n.parent = id
  /-- The parent of an entity is a schema that lists it. -/
  entity_listed : ∀ id e, a.entity? id = some e →
    ∃ s, a.schema? e.parent = some s ∧ id ∈ s.entities
  attributes_nodup : ∀ id e, a.entity? id = some e → e.attributes.Nodup
  /-- What an entity lists are attributes that have it as their parent. -/
  attributes_owned : ∀ id e, a.entity? id = some e →
    ∀ m ∈ e.attributes, ∃ n, a.attr? m = some n ∧ n.parent = id
  /-- The parent of an attribute is an entity that lists it. -/
  attribute_listed : ∀ id m, a.attr? id = some m →
    ∃ e, a.entity? m.parent = some e ∧ id ∈ e.attributes
  /-- A reference alone has a target, and that is an entity of the arena. -/
  targets : ∀ id m, a.attr? id = some m →
    ∀ t, m.target = some t → m.isReference ∧ (a.entity? t).isSome

end Arena

namespace Document

variable {d : Document}

section Lookups

variable (hd : d.HandlesSound)

include hd

/-- A schema that is found is one of the document. -/
theorem HandlesSound.exists_of_arena_schema? {id : SchemaId} {n : SchemaNode}
    (hn : d.arena.schema? id = some n) : ∃ s ∈ d.schemas, s.id = id ∧ n = s.node := by
  rw [hd.arena_schema?] at hn
  obtain ⟨s, hs, rfl⟩ := Option.map_eq_some_iff.mp hn
  obtain ⟨hmem, hid⟩ := mem_of_schema? hs
  exact ⟨s, hmem, hid, rfl⟩

/-- An entity that is found is one of a schema of the document. -/
theorem HandlesSound.exists_of_arena_entity? {id : EntityId} {n : EntityNode}
    (hn : d.arena.entity? id = some n) :
    ∃ s ∈ d.schemas, ∃ e ∈ s.entities, e.id = id ∧ n = e.node s.id := by
  rw [hd.arena_entity?] at hn
  have hid : n.id = id := by simpa using List.find?_some hn
  obtain ⟨s, hs, hmem⟩ := List.mem_flatMap.mp (List.mem_of_find?_eq_some hn)
  obtain ⟨e, he, rfl⟩ := List.mem_map.mp hmem
  exact ⟨s, hs, e, he, hid, rfl⟩

/-- An attribute that is found is one of an entity of the document. -/
theorem HandlesSound.exists_of_arena_attr? {id : AttrId} {n : AttrNode}
    (hn : d.arena.attr? id = some n) :
    ∃ e ∈ d.entities, ∃ m ∈ e.attributes, m.id = id ∧ n = m.node e.id := by
  rw [hd.arena_attr?] at hn
  have hid : n.id = id := by simpa using List.find?_some hn
  obtain ⟨e, he, hmem⟩ := List.mem_flatMap.mp (List.mem_of_find?_eq_some hn)
  obtain ⟨m, hm, rfl⟩ := List.mem_map.mp hmem
  exact ⟨e, he, m, hm, hid, rfl⟩

end Lookups

theorem Sound.wellFormed_arena (hd : d.Sound) : d.arena.WellFormed where
  schema_slot k s hs := congrArg Handle.number (Slots.key_of_getElem?_layOut SchemaNode.id hs)
  entity_slot k e he := congrArg Handle.number (Slots.key_of_getElem?_layOut EntityNode.id he)
  attr_slot k m hm :=
    congrArg Handle.number (Slots.key_of_getElem?_layOut (fun n : AttrNode => n.id) hm)
  entities_nodup id n hn := by
    obtain ⟨s, hs, _, rfl⟩ := hd.handles.exists_of_arena_schema? hn
    exact nodup_children (hd.handles.nodup .entity) hs
  entities_owned id n hn h hmem := by
    obtain ⟨s, hs, rfl, rfl⟩ := hd.handles.exists_of_arena_schema? hn
    obtain ⟨e, he, rfl⟩ := List.mem_map.mp hmem
    exact ⟨_, hd.handles.arena_entity?_of_mem hs he, rfl⟩
  entity_listed id n hn := by
    obtain ⟨s, hs, e, he, rfl, rfl⟩ := hd.handles.exists_of_arena_entity? hn
    exact ⟨s.node, hd.handles.arena_schema?_of_some (hd.handles.schema?_eq hs),
      List.mem_map_of_mem he⟩
  attributes_nodup id n hn := by
    obtain ⟨s, hs, e, he, _, rfl⟩ := hd.handles.exists_of_arena_entity? hn
    exact nodup_children (hd.handles.nodup .attr) (mem_entities.mpr ⟨s, hs, he⟩)
  attributes_owned id n hn h hmem := by
    obtain ⟨s, hs, e, he, rfl, rfl⟩ := hd.handles.exists_of_arena_entity? hn
    obtain ⟨m, hm, rfl⟩ := List.mem_map.mp hmem
    exact ⟨_, hd.handles.arena_attr?_of_mem (mem_entities.mpr ⟨s, hs, he⟩) hm, rfl⟩
  attribute_listed id n hn := by
    obtain ⟨e, he, m, hm, rfl, rfl⟩ := hd.handles.exists_of_arena_attr? hn
    obtain ⟨s, hs, he⟩ := mem_entities.mp he
    exact ⟨e.node s.id, hd.handles.arena_entity?_of_mem hs he, List.mem_map_of_mem hm⟩
  targets id n hn t ht := by
    obtain ⟨e, he, m, hm, _, rfl⟩ := hd.handles.exists_of_arena_attr? hn
    obtain ⟨href, hdenotes⟩ := (hd.settled m (mem_members.mpr ⟨e, he, hm⟩)).denotes t ht
    exact ⟨href, (hd.handles.isLive_arena t).mpr hdenotes.live⟩

/-! ### Handles along a run -/

/-- A handle that is gone does not come back. -/
theorem HandlesSound.not_mem_of_removed (hd : d.HandlesSound) (es : List Edit) {sort : NodeSort}
    {h : Handle sort} {i j k : Nat} (hij : i ≤ j) (hjk : j ≤ k)
    (hlive : h ∈ (d.run (es.take i)).handles sort)
    (hgone : h ∉ (d.run (es.take j)).handles sort) :
    h ∉ (d.run (es.take k)).handles sort := by
  intro hback
  have hissued := ((hd.run (es.take i)).1.issued sort h hlive).2
  have hmono := (hd.extends_take es hij).issued_le sort
  rcases (hd.extends_take es hjk).old_or_new sort h hback with hold | hnew
  · exact hgone hold
  · omega

/-- A handle that is handed out is in use from then on and was not before. -/
theorem HandlesSound.new_of_issues (hd : d.HandlesSound) {es : List Edit} {i : Nat} {e : Edit}
    (he : es[i]? = some e) {next : Document} {answer : Answer}
    (hedit : (d.run (es.take i)).edit e = .ok (next, answer))
    {sort : NodeSort} {h : Handle sort} (hissues : answer.Issues h) :
    h ∈ (d.run (es.take (i + 1))).handles sort ∧
      ∀ j ≤ i, h ∉ (d.run (es.take j)).handles sort := by
  have hbefore := (hd.run (es.take i)).1
  have hstep := Step.of_edit hedit
  obtain ⟨rfl, hcount⟩ := hstep.issues hissues
  constructor
  · have hafter : d.run (es.take (i + 1)) = next := by
      rw [List.take_add_one, he, run_append]
      exact perform_of_ok hedit
    rw [hafter]
    exact (hbefore.handleStep hstep).fresh_mem hcount
  · intro j hji hmem
    have hissued := ((hd.run (es.take j)).1.issued sort _ hmem).2
    have hmono := (hd.extends_take es hji).issued_le sort
    simp only [Handle.fresh] at hissued
    omega

end Document

namespace Arena

variable {a : Arena}

/-- Along every run of written edits, failed ones included: the arena is well-formed and stores
the document that the same edits lead to, a handle that is gone does not come back, and a
handle that is handed out was never in use. -/
theorem IsOrigin.wellFormed_run (ha : a.IsOrigin) {es : List Edit}
    (hes : ∀ e ∈ es, e.isWritten) :
    (a.run es).WellFormed ∧
      (a.document.IsOrigin ∧ (a.run es).document = a.document.run es) ∧
      (∀ (sort : NodeSort) (h : Handle sort) (i j k : Nat), i ≤ j → j ≤ k →
        (a.run (es.take i)).isLive h → ¬ (a.run (es.take j)).isLive h →
          ¬ (a.run (es.take k)).isLive h) ∧
      ∀ (i : Nat) (e : Edit) (answer : Answer) (next : Arena), es[i]? = some e →
        (edit e).run (a.run (es.take i)) = .ok answer next →
          ∀ (sort : NodeSort) (h : Handle sort), answer.Issues h →
            (a.run (es.take (i + 1))).isLive h ∧
              ∀ j ≤ i, ¬ (a.run (es.take j)).isLive h := by
  obtain ⟨hd, _⟩ := ha.document
  have hlive : ∀ (es : List Edit) {sort : NodeSort} (h : Handle sort),
      (a.run es).isLive h ↔ h ∈ (a.document.run es).handles sort := by
    intro es sort h
    rw [(ha.run_eq es).1]
    exact (hd.handles_run es).isLive_arena h
  refine ⟨?_, ⟨hd, (ha.run_eq es).2⟩, ?_, ?_⟩
  · rw [(ha.run_eq es).1]
    exact (hd.sound_run hes).wellFormed_arena
  · intro sort h i j k hij hjk
    simp only [hlive]
    exact hd.sound.handles.not_mem_of_removed es hij hjk
  · intro i e answer next he hedit sort h hissues
    have hboth := (hd.handles_run (es.take i)).edit_arena (hd.ordered_run (es.take i)) e
    rw [← (ha.run_eq (es.take i)).1, hedit] at hboth
    cases hdocument : (a.document.run (es.take i)).edit e with
    | error err => rw [hdocument] at hboth; cases hboth
    | ok result =>
        obtain ⟨document, answer'⟩ := result
        rw [hdocument] at hboth
        obtain ⟨rfl, rfl⟩ := EStateM.Result.ok.inj hboth
        simp only [hlive]
        exact hd.sound.handles.new_of_issues he hdocument hissues

/-- A run that removes an entity, to which there is a reference, and adds one of the same name. -/
def readdition : List Edit :=
  [.addSchema "shop", .addEntity ⟨1⟩ "item", .addAttribute ⟨1⟩ "- code", .addEntity ⟨1⟩ "order",
    .addAttribute ⟨2⟩ "- @item", .removeEntity ⟨1⟩, .addEntity ⟨1⟩ "item"]

/-- The reference loses its target with the entity and finds the new one, which has a new
handle. The slots of the old entity and of its attribute stay empty. -/
theorem wellFormed_run_readdition :
    ((empty 5).run readdition).WellFormed ∧
      ((empty 5).run readdition).schemas = [some ⟨⟨1⟩, "shop", [⟨2⟩, ⟨3⟩]⟩] ∧
      ((empty 5).run readdition).entities =
        [none, some ⟨⟨2⟩, "order", ⟨1⟩, [⟨2⟩]⟩, some ⟨⟨3⟩, "item", ⟨1⟩, []⟩] ∧
      ([5, 6, 7].map fun n => ((empty 5).run (readdition.take n)).attributes.map
          (Option.map fun m => (m.id, m.parent, m.target))) =
        [[some (⟨1⟩, ⟨1⟩, none), some (⟨2⟩, ⟨2⟩, some ⟨1⟩)], [none, some (⟨2⟩, ⟨2⟩, none)],
          [none, some (⟨2⟩, ⟨2⟩, some ⟨3⟩)]] ∧
      ¬ ((empty 5).run (readdition.take 7)).isLive (⟨1⟩ : EntityId) ∧
      ∀ j ≤ 6, ¬ ((empty 5).run (readdition.take j)).isLive (⟨3⟩ : EntityId) := by
  have hwritten : ∀ e ∈ readdition, e.isWritten := by simp [readdition, Edit.isWritten]
  obtain ⟨hwell, _, hgone, hnew⟩ := IsOrigin.wellFormed_run (.empty 5) hwritten
  have hlive : ((empty 5).run (readdition.take 5)).isLive (⟨1⟩ : EntityId) ∧
      ¬ ((empty 5).run (readdition.take 6)).isLive (⟨1⟩ : EntityId) := by
    decide +kernel
  have hanswer : (match (edit (.addEntity ⟨1⟩ "item")).run ((empty 5).run (readdition.take 6)) with
      | .ok answer _ => decide (answer = .entity ⟨3⟩)
      | .error _ _ => false : Bool) = true := by decide +kernel
  have hslots : ((empty 5).run readdition).schemas = [some ⟨⟨1⟩, "shop", [⟨2⟩, ⟨3⟩]⟩] ∧
      ((empty 5).run readdition).entities =
        [none, some ⟨⟨2⟩, "order", ⟨1⟩, [⟨2⟩]⟩, some ⟨⟨3⟩, "item", ⟨1⟩, []⟩] ∧
      ([5, 6, 7].map fun n => ((empty 5).run (readdition.take n)).attributes.map
          (Option.map fun m => (m.id, m.parent, m.target))) =
        [[some (⟨1⟩, ⟨1⟩, none), some (⟨2⟩, ⟨2⟩, some ⟨1⟩)], [none, some (⟨2⟩, ⟨2⟩, none)],
          [none, some (⟨2⟩, ⟨2⟩, some ⟨3⟩)]] := by
    decide +kernel
  refine ⟨hwell, hslots.1, hslots.2.1, hslots.2.2,
    hgone .entity ⟨1⟩ 5 6 7 (by decide) (by decide) hlive.1 hlive.2, ?_⟩
  split at hanswer
  next answer after hafter =>
    obtain rfl := of_decide_eq_true hanswer
    exact (hnew 6 _ _ after rfl hafter .entity ⟨3⟩ (.entity _)).2
  next => cases hanswer

end Arena

end Blueprint
