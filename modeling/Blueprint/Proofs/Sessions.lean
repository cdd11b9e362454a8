import Blueprint.Proofs.LookupOutput
import Blueprint.Proofs.Reading
import Blueprint.Session

/-! # Questions between edits

The columns of an entity depend on the attributes of entities, on the depth, and on which
schemas hold them. The edits that a session does not forget change none of these for the
entities that are there. So in every session what is remembered is fresh, and a question
is answered the same whatever was asked before.
-/

namespace Blueprint

namespace Document

variable {d d' next : Document}

/-! ### What columns depend on -/

theorem columnsFrom_congr (hattributes : ∀ e, d'.attributesOf e = d.attributesOf e)
    (root : EntityId) (depth : Nat) (hops : List Member) (entity : EntityId) :
    d'.columnsFrom root depth hops entity = d.columnsFrom root depth hops entity := by
  induction depth generalizing hops entity with
  | zero => rfl
  | succ depth ih => simp only [columnsFrom, hattributes, ih]

theorem flatten_congr (hattributes : ∀ e, d'.attributesOf e = d.attributesOf e)
    (hdepth : d'.maxDepth = d.maxDepth)
    (hschema : ∀ e ∈ d.handles .entity,
      (d'.schemaOf? e).map Schema.id = (d.schemaOf? e).map Schema.id) (entity : EntityId) :
    d'.flatten entity = d.flatten entity := by
  have hcolumns : d'.columns entity = d.columns entity := by
    rw [columns, columns, hdepth, columnsFrom_congr hattributes]
  rw [flatten, flatten, hcolumns]
  apply List.map_congr_left
  intro c hc
  have hroot := hschema c.root (root_of_mem_columnsFrom hc ▸ mem_handles_of_mem_columns hc)
  have howner := hschema c.owner (mem_handles_of_mem_attributesOf (terminal_mem_attributesOf hc))
  simp only [changesSchema, hroot, howner]

/-- Whether the entities of a document are there in another, with the same columns. -/
def KeepsColumns (d d' : Document) : Prop :=
  ∀ e, (d.entity? e).isSome → (d'.entity? e).isSome ∧ d'.flatten e = d.flatten e

theorem KeepsColumns.refl (d : Document) : KeepsColumns d d :=
  fun _ hlive => ⟨hlive, rfl⟩

theorem KeepsColumns.fresh (hkeeps : KeepsColumns d d') (hd : d.HandlesSound)
    (hd' : d'.HandlesSound) {memo : Memo} (hmemo : Memo.Fresh d memo) : Memo.Fresh d' memo := by
  intro entry hentry
  obtain ⟨hlive, hentries⟩ := hmemo entry hentry
  obtain ⟨hlive', hkept⟩ := hkeeps entry.1 hlive
  exact ⟨hlive', by rw [hentries, hd.entries_eq, hd'.entries_eq, hkept]⟩

/-! ### Edits that are not forgotten -/

theorem keepsColumns_addSchema (name : String) : KeepsColumns d (d.addSchema name).1 := by
  have hentity : ∀ e, (d.addSchema name).1.entity? e = d.entity? e := by
    intro e
    rw [entity?, entity?, entities_addSchema]
  have hschema : ∀ e, (d.addSchema name).1.schemaOf? e = d.schemaOf? e := by
    intro e
    simp [schemaOf?, addSchema]
  intro e hlive
  refine ⟨by rw [hentity, hlive], flatten_congr ?_ ?_ ?_ e⟩
  · intro e
    rw [attributesOf, attributesOf, hentity]
  · rfl
  · intro e _
    rw [hschema]

/-- A new entity is out of the way of the others. -/
theorem entity?_placeEntity {e : EntityId} {entity : Entity} (hne : entity.id ≠ e)
    (schema : SchemaId) : (d.placeEntity schema entity).entity? e = d.entity? e := by
  simp only [entity?, entities, placeEntity, modifySchema, List.flatMap_map, List.find?_flatMap]
  congr 1
  funext s
  split
  · simp [List.find?_append, hne]
  · rfl

theorem map_schemaOf?_placeEntity {e : EntityId} {entity : Entity} (hne : entity.id ≠ e)
    (schema : SchemaId) :
    ((d.placeEntity schema entity).schemaOf? e).map Schema.id = (d.schemaOf? e).map Schema.id := by
  simp only [schemaOf?, placeEntity, modifySchema, List.find?_map, Option.map_map]
  have hholds : ((fun s : Schema => s.entities.any fun x => decide (x.id = e)) ∘ fun s =>
      if s.id = schema then { s with entities := s.entities ++ [entity] } else s) =
      fun s => s.entities.any fun x => decide (x.id = e) := by
    funext s
    dsimp only [Function.comp]
    split
    · simp [hne]
    · rfl
  rw [hholds]
  congr 1
  funext s
  dsimp only [Function.comp]
  split <;> rfl

theorem mem_entities_placeEntity {schema : SchemaId} {s : Schema} (hs : d.schema? schema = some s)
    (entity : Entity) : entity ∈ (d.placeEntity schema entity).entities := by
  obtain ⟨hmem, hid⟩ := mem_of_schema? hs
  refine mem_entities.mpr ⟨_, List.mem_map_of_mem hmem, ?_⟩
  simp [hid]

/-- A new entity has no attributes, and neither has a handle that is not issued yet. -/
theorem HandlesSound.attributesOf_placeEntity (hd : d.HandlesSound) {schema : SchemaId}
    {s : Schema} (hs : d.schema? schema = some s) (name : String) (e : EntityId) :
    (d.placeEntity schema (d.nextEntity name)).attributesOf e = d.attributesOf e := by
  by_cases hnew : (d.nextEntity name).id = e
  · subst hnew
    have hplaced := (hd.step (hd.step_placeEntity hs name)).entity?_eq
      (mem_entities_placeEntity hs (d.nextEntity name))
    have hstale : d.attributesOf (d.nextEntity name).id = [] := by
      rw [List.eq_nil_iff_forall_not_mem]
      exact fun m hm => hd.fresh_not_mem .entity (mem_handles_of_mem_attributesOf hm)
    rw [hstale, attributesOf, hplaced]
    rfl
  · rw [attributesOf, attributesOf, entity?_placeEntity hnew]

theorem HandlesSound.keepsColumns_placeEntity (hd : d.HandlesSound) {schema : SchemaId}
    {s : Schema} (hs : d.schema? schema = some s) (name : String) :
    KeepsColumns d (d.placeEntity schema (d.nextEntity name)) := by
  have hne : ∀ e ∈ d.handles .entity, (d.nextEntity name).id ≠ e := by
    rintro e he rfl
    exact hd.fresh_not_mem .entity he
  intro e hlive
  have he : e ∈ d.handles .entity := exists_entity?_iff.mp (Option.isSome_iff_exists.mp hlive)
  refine ⟨by rw [entity?_placeEntity (hne e he), hlive], flatten_congr ?_ ?_ ?_ e⟩
  · exact hd.attributesOf_placeEntity hs name
  · rfl
  · exact fun e he => map_schemaOf?_placeEntity (hne e he) schema

theorem retryReferences_eq_self (hnone : d.lostReferences = []) : d.retryReferences = d := by
  rw [lostReferences, List.filter_eq_nil_iff] at hnone
  apply mapMembers_eq_self
  intro m hm
  exact if_neg (hnone m hm)

theorem lostReferences_placeEntity (schema : SchemaId) (name : String) :
    (d.placeEntity schema (d.nextEntity name)).lostReferences = d.lostReferences := by
  rw [lostReferences, members_placeEntity, lostReferences]

theorem resolveReferences_eq_self (hnone : ∀ m ∈ d.members, ¬ (m.isOpen && !m.isLost)) :
    d.resolveReferences = d := by
  apply mapMembers_eq_self
  intro m hm
  exact if_neg (hnone m hm)

theorem resolveReference_eq_self {id : AttrId} (hclosed : ∀ m, d.member? id = some m → ¬ m.isOpen) :
    (d.resolveReference id).1 = d := by
  unfold resolveReference
  split
  next => rfl
  next m hm => rw [if_neg (hclosed m hm)]

/-- An edit that is not forgotten changes nothing about the columns of what is there. -/
theorem HandlesSound.keepsColumns_step (hd : d.HandlesSound) {e : Edit} {answer : Answer}
    (hstep : Step d e next answer) (hkept : d.forgets e = false) : KeepsColumns d next := by
  cases hstep with
  | addSchema name => exact keepsColumns_addSchema name
  | addEntity hs name =>
      have hnone : d.lostReferences = [] := by simpa [forgets] using hkept
      rw [retryReferences_eq_self ((lostReferences_placeEntity _ name).trans hnone)]
      exact hd.keepsColumns_placeEntity hs name
  | resolveReference id =>
      rw [resolveReference_eq_self]
      · exact .refl d
      · intro m hm
        simpa [forgets, hm] using hkept
  | resolveReferences =>
      rw [resolveReferences_eq_self]
      · exact .refl d
      · exact List.any_eq_false.mp hkept
  | _ => exact absurd hkept (by simp [forgets])

end Document

/-! ### Questions -/

/-- The answer from the columns of the document, without a memo and without handles. -/
def Query.view (d : Document) : Query → Except Fault View
  | flatten entity => .ok (.entries (d.entries entity))
  | primary entity => .ok (.entries ((d.primary entity).map d.entry))
  | isComposite entity => .ok (.isComposite (d.isComposite entity))
  | uniqueGroups entity =>
    .ok (.groups ((d.uniqueGroups entity).map fun group => (group.1, group.2.map d.entry)))
  | fields entity => .ok (.fields ((d.fields entity).map d.entryField))
  | relations => .ok (.relations d.relations)
  | generate b => (b.generate d).map .files

/-- From a fresh memo every question is answered as the document answers it. -/
theorem Document.HandlesSound.looks_view {d : Document} (hd : d.HandlesSound) (q : Query) :
    Looks d (q.lookup d) (q.view d) := by
  cases q with
  | flatten entity =>
      rw [Query.view, hd.entries_eq_map]
      exact (Lookup.looks_flatten hd entity).map _
  | primary entity => exact (Lookup.looks_primary hd entity).map _
  | isComposite entity => exact (Lookup.looks_isComposite hd entity).map _
  | uniqueGroups entity => exact (Lookup.looks_uniqueGroups hd entity).map _
  | fields entity => exact (Lookup.looks_fields hd entity).map _
  | relations => exact (Lookup.looks_relations hd).map _
  | generate b => exact (Lookup.looks_generate hd b).map _

/-! ### Sessions -/

/-- The edit among the actions. -/
def Action.edit? : Action → Option Edit
  | .edit e => some e
  | .ask _ => none

namespace Session

variable {d : Document} {s : Session}

theorem document_act (a : Action) :
    (s.act a).document = a.edit?.elim s.document s.document.perform := by
  cases a with
  | ask q => rfl
  | edit e =>
      cases hedit : s.document.edit e with
      | ok result => simp only [act, hedit, Action.edit?, Option.elim, Document.perform_of_ok hedit]
      | error err =>
          simp only [act, hedit, Action.edit?, Option.elim, Document.perform_of_error hedit]

theorem document_run (actions : List Action) :
    (s.run actions).document = s.document.run (actions.filterMap Action.edit?) := by
  induction actions generalizing s with
  | nil => rfl
  | cons a actions ih =>
      rw [run, List.foldl_cons, ← run, ih, document_act]
      cases a <;> rfl

/-- No action leaves anything stale behind. -/
theorem fresh_act (hd : s.document.HandlesSound) (hfresh : Memo.Fresh s.document s.memo)
    (a : Action) : Memo.Fresh (s.act a).document (s.act a).memo := by
  cases a with
  | ask q => exact (hd.looks_view q s.memo hfresh).2
  | edit e =>
      cases hedit : s.document.edit e with
      | error err => simpa only [act, hedit] using hfresh
      | ok result =>
          simp only [act, hedit]
          cases hkept : s.document.forgets e with
          | true => exact Memo.fresh_nil _
          | false =>
              have hstep := Document.Step.of_edit hedit
              have hkeeps := hd.keepsColumns_step hstep hkept
              exact hkeeps.fresh hd (hd.step (hd.handleStep hstep)) hfresh

theorem fresh_run (hd : s.document.HandlesSound) (hfresh : Memo.Fresh s.document s.memo)
    (actions : List Action) :
    Memo.Fresh (s.run actions).document (s.run actions).memo := by
  induction actions generalizing s with
  | nil => exact hfresh
  | cons a actions ih =>
      refine ih ?_ (fresh_act hd hfresh a)
      rw [document_act]
      cases a with
      | ask q => exact hd
      | edit e => exact (hd.perform e).1

/-- What was asked for once is remembered. -/
theorem lookup_act_flatten (hfresh : Memo.Fresh s.document s.memo) {e : EntityId}
    (hlive : (s.document.entity? e).isSome) :
    (s.act (.ask (.flatten e))).memo.lookup e = some (s.document.entries e) := by
  change ((Recall.flatten s.document e).run s.memo).2.lookup e = _
  cases hfound : s.memo.lookup e with
  | some entries =>
      rw [Recall.flatten_run_hit hlive hfound, hfound]
      exact congrArg some (hfresh _ (Recall.mem_of_lookup hfound)).2
  | none =>
      rw [Recall.flatten_run_miss hlive hfound]
      simp

/-- In every session of edits and questions, whatever their order, all that is remembered is of
entities that are there and equal to what a walk of the document gives at that moment. The
columns of an entity are remembered once they were asked for. Every question is answered as the
document answers it without a memo, so the answer depends on the edits alone. -/
theorem answer_run (hd : d.IsOrigin) (actions : List Action) :
    let s := (start d).run actions
    s.document = d.run (actions.filterMap Action.edit?) ∧
      (∀ e entries, (e, entries) ∈ s.memo →
        (s.document.entity? e).isSome ∧ entries = s.document.entries e) ∧
      (∀ e, (s.document.entity? e).isSome →
        (s.act (.ask (.flatten e))).memo.lookup e = some (s.document.entries e)) ∧
      (∀ q, s.answer q = q.view s.document) ∧
      ∀ others : List Action, others.filterMap Action.edit? = actions.filterMap Action.edit? →
        ∀ q, ((start d).run others).answer q = s.answer q := by
  intro s
  have hfresh : ∀ actions : List Action,
      Memo.Fresh ((start d).run actions).document ((start d).run actions).memo :=
    fresh_run hd.sound.handles (Memo.fresh_nil d)
  have hanswer : ∀ (actions : List Action) (q : Query),
      ((start d).run actions).answer q = q.view (d.run (actions.filterMap Action.edit?)) := by
    intro actions q
    have hdocument : ((start d).run actions).document = _ := document_run actions
    have hsound := (hd.sound.handles.run (actions.filterMap Action.edit?)).1
    exact hdocument ▸ ((hdocument ▸ hsound).looks_view q _ (hfresh actions)).1
  have hdocument : s.document = d.run (actions.filterMap Action.edit?) := document_run actions
  refine ⟨hdocument, fun e entries hentry => hfresh actions _ hentry,
    fun e hlive => lookup_act_flatten (hfresh actions) hlive, ?_, ?_⟩
  · intro q
    rw [hdocument]
    exact hanswer actions q
  · intro others hedits q
    rw [hanswer others q, hedits, ← hanswer actions q]

/-- A customer and an order that refers to it. -/
def shop : String :=
  "# shop\n## customer\n- id as ++\n## order\n- @customer\n"

/-- The columns of the order are asked for, then the key of the customer is replaced, and they
are asked for again. What follows is not forgotten, or fails. -/
def rekeying : List Action :=
  [.ask (.flatten ⟨2⟩), .edit (.replaceAttribute ⟨1⟩ "- code as str with primary"),
    .ask (.flatten ⟨2⟩), .edit (.addSchema "stock"), .edit (.addEntity ⟨2⟩ "item"),
    .edit (.resolveReference ⟨2⟩), .edit (.removeEntity ⟨9⟩)]

theorem answer_run_rekeying :
    ∃ d, Document.read 5 shop = .ok d ∧
      (((start d).run (rekeying.take 1)).memo.map fun entry =>
        (entry.1, entry.2.map Entry.name)) = [(⟨2⟩, ["customer_id"])] ∧
      ((start d).run (rekeying.take 2)).memo = [] ∧
      (((start d).run rekeying).memo.map fun entry =>
        (entry.1, entry.2.map Entry.name)) = [(⟨2⟩, ["customer_code"])] ∧
      ∀ q, ((start d).run rekeying).answer q =
        q.view (d.run [.replaceAttribute ⟨1⟩ "- code as str with primary", .addSchema "stock",
          .addEntity ⟨2⟩ "item", .resolveReference ⟨2⟩, .removeEntity ⟨9⟩]) := by
  have hall : (Document.read 5 shop).toOption.any fun d =>
      (((start d).run (rekeying.take 1)).memo.map fun entry =>
        (entry.1, entry.2.map Entry.name)) = [(⟨2⟩, ["customer_id"])] ∧
      ((start d).run (rekeying.take 2)).memo = [] ∧
      (((start d).run rekeying).memo.map fun entry =>
        (entry.1, entry.2.map Entry.name)) = [(⟨2⟩, ["customer_code"])] := by
    decide +kernel
  cases hread : Document.read 5 shop with
  | error fault => rw [hread] at hall; cases hall
  | ok d =>
      rw [hread, Except.toOption, Option.any_some, decide_eq_true_eq] at hall
      obtain ⟨hfirst, hforgotten, hlast⟩ := hall
      obtain ⟨hdocument, _, _, hanswer, _⟩ := answer_run (.read hread) rekeying
      exact ⟨d, rfl, hfirst, hforgotten, hlast, fun q => hdocument ▸ hanswer q⟩

end Session

end Blueprint
