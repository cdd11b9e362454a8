import Blueprint.Proofs.Reading

/-! # What references mean

The target of a reference is recorded, and edits can change what its name means. A
recorded target always goes by the written name, but a namesake may come to stand
before it. An open reference has a name that means nothing, unless entities were
removed since open references last had another chance.
-/

namespace Blueprint

/-- Whether an edit takes entities away. -/
def Edit.removes : Edit → Bool
  | .removeSchema _ => true
  | .removeEntity _ => true
  | _ => false

/-- Whether an edit gives open references another chance. -/
def Edit.retries : Edit → Bool
  | .renameSchema _ _ => true
  | .addEntity _ _ => true
  | .renameEntity _ _ => true
  | _ => false

namespace Document

variable {d next : Document} {name : String} {t : EntityId}

/-! ### Names by place -/

/-- Where an entity stands in the document. -/
structure Stands (d : Document) (before : List Schema) (s : Schema) (first : List Entity)
    (e : Entity) : Prop where
  schema : ∃ after, d.schemas = before ++ s :: after
  entity : ∃ rest, s.entities = first ++ e :: rest

theorem exists_stands {s : Schema} {e : Entity} (hs : s ∈ d.schemas) (he : e ∈ s.entities) :
    ∃ before first, d.Stands before s first e := by
  obtain ⟨before, after, hschemas⟩ := List.append_of_mem hs
  obtain ⟨first, rest, hentities⟩ := List.append_of_mem he
  exact ⟨before, first, ⟨after, hschemas⟩, ⟨rest, hentities⟩⟩

/-- Whether a namesake stands before an entity: another entity, if it goes by its bare
name, and another schema or an entity of its own schema, if it goes by its qualified name. -/
def Shadowed (d : Document) (name : String) (t : EntityId) : Prop :=
  ∃ before s first e, d.Stands before s first e ∧ e.id = t ∧
    (name = e.name ∧ (∃ e' ∈ before.flatMap Schema.entities ++ first, e'.name = e.name) ∨
      name = s.name ++ "." ++ e.name ∧
        ((∃ s' ∈ before, s'.name = s.name) ∨ ∃ e' ∈ first, e'.name = e.name))

/-- What a written name means: the live entity whose handle it is, or the first one that
goes by it. -/
def Means (d : Document) (name : String) (t : EntityId) : Prop :=
  Handle.ofText? name = some t ∧ t ∈ d.handles .entity ∨ d.Denotes name t ∧ ¬ d.Shadowed name t

section Stands

variable {before : List Schema} {s : Schema} {first : List Entity} {e : Entity}

theorem HandlesSound.entityByName?_bare_iff (hd : d.HandlesSound) (hplain : d.PlainNames)
    (h : d.Stands before s first e) :
    d.entityByName? e.name = some e.id ↔
      ∀ e' ∈ before.flatMap Schema.entities ++ first, e'.name ≠ e.name := by
  obtain ⟨⟨after, hschemas⟩, ⟨rest, hentities⟩⟩ := h
  have hs : s ∈ d.schemas := by simp [hschemas]
  have he : e ∈ s.entities := by simp [hentities]
  have hsplit : d.entities = before.flatMap Schema.entities ++ first ++
      e :: (rest ++ after.flatMap Schema.entities) := by
    simp [entities, hschemas, hentities]
  have hnodup := hd.nodup .entity
  rw [handles, hsplit] at hnodup
  rw [entityByName?, Text.cut?_dot_eq_none.mpr ((hplain s hs).2 e he).not_mem_dot, hsplit]
  simpa using find?_map_eq_some_iff_of_nodup (p := (·.name = e.name)) hnodup (by simp)

theorem HandlesSound.entityByName?_qualified_iff (hd : d.HandlesSound) (hplain : d.PlainNames)
    (h : d.Stands before s first e) :
    d.entityByName? (s.name ++ "." ++ e.name) = some e.id ↔
      (∀ s' ∈ before, s'.name ≠ s.name) ∧ ∀ e' ∈ first, e'.name ≠ e.name := by
  obtain ⟨⟨after, hschemas⟩, ⟨rest, hentities⟩⟩ := h
  have hs : s ∈ d.schemas := by simp [hschemas]
  have hnodup := hd.nodup .entity
  rw [handles, entities, hschemas, List.flatMap_append, List.flatMap_cons, hentities,
    List.map_append, List.nodup_append, List.map_append, List.nodup_append] at hnodup
  obtain ⟨_, ⟨hown, _⟩, hdisjoint⟩ := hnodup
  rw [entityByName?, Text.cut?_dot (hplain s hs).1.not_mem_dot]
  dsimp only
  rw [findEntity?, findSchema?, hschemas, List.find?_append, List.find?_cons_of_pos (by simp)]
  cases hfound : before.find? (·.name = s.name) with
  | none =>
      have hbefore : ∀ s' ∈ before, s'.name ≠ s.name := by
        simpa using List.find?_eq_none.mp hfound
      rw [Option.none_or, Option.bind_some, hentities, and_iff_right hbefore]
      simpa using find?_map_eq_some_iff_of_nodup (p := (·.name = e.name)) hown (by simp)
  | some s' =>
      -- The entity found there is another one.
      have hs' := List.mem_of_find?_eq_some hfound
      have hname : s'.name = s.name := by simpa using List.find?_some hfound
      constructor
      · intro hsome
        obtain ⟨e', he', hid⟩ := Option.map_eq_some_iff.mp hsome
        have hmem := List.mem_flatMap.mpr ⟨s', hs', List.mem_of_find?_eq_some he'⟩
        exact absurd hid (hdisjoint _ (List.mem_map_of_mem hmem) _ (by simp))
      · intro hnone
        exact absurd hname (hnone.1 s' hs')

end Stands

/-- A name means the first entity that goes by it. -/
theorem HandlesSound.entityByName?_eq_some_iff (hd : d.HandlesSound) (hplain : d.PlainNames) :
    d.entityByName? name = some t ↔ d.Denotes name t ∧ ¬ d.Shadowed name t := by
  constructor
  · refine fun hfound => ⟨denotes_of_entityByName? hfound, ?_⟩
    rintro ⟨before, s, first, e, hstands, rfl, ⟨rfl, e', he', hname⟩ | ⟨rfl, hshadow⟩⟩
    · exact (hd.entityByName?_bare_iff hplain hstands).mp hfound e' he' hname
    · have hclear := (hd.entityByName?_qualified_iff hplain hstands).mp hfound
      rcases hshadow with ⟨s', hs', hname⟩ | ⟨e', he', hname⟩
      · exact hclear.1 s' hs' hname
      · exact hclear.2 e' he' hname
  · rintro ⟨⟨s, hs, e, he, rfl, hname⟩, hclear⟩
    obtain ⟨before, first, hstands⟩ := exists_stands hs he
    rcases hname with rfl | rfl
    · apply (hd.entityByName?_bare_iff hplain hstands).mpr
      intro e' he' hname
      exact hclear ⟨before, s, first, e, hstands, rfl, Or.inl ⟨rfl, e', he', hname⟩⟩
    · apply (hd.entityByName?_qualified_iff hplain hstands).mpr
      constructor
      · intro s' hs' hname
        exact hclear ⟨before, s, first, e, hstands, rfl, Or.inr ⟨rfl, Or.inl ⟨s', hs', hname⟩⟩⟩
      · intro e' he' hname
        exact hclear ⟨before, s, first, e, hstands, rfl, Or.inr ⟨rfl, Or.inr ⟨e', he', hname⟩⟩⟩

/-- The target that is found is what the name means. -/
theorem HandlesSound.findTarget?_iff_means (hd : d.HandlesSound) (hplain : d.PlainNames) :
    (d.findTarget? name).map Target.id = some t ↔ d.Means name t := by
  have hhandle : d.entityByHandle? name = some t ↔
      Handle.ofText? name = some t ∧ t ∈ d.handles .entity := by
    rw [entityByHandle?, Option.filter_eq_some_iff, ← exists_entity?_iff, Option.isSome_iff_exists]
  rw [Means, ← hhandle, ← hd.entityByName?_eq_some_iff hplain, findTarget?_eq]
  cases hfound : d.entityByHandle? name with
  | none => simp [Function.comp_def, Target.id]
  | some id =>
      have hname : d.entityByName? name ≠ some t := by
        intro hname
        have hno := hplain.no_handle (denotes_of_entityByName? hname)
        rw [entityByHandle?, hno] at hfound
        cases hfound
      simp [Target.id, hname]

/-! ### Open references -/

/-- Whether the name of an open reference means something. -/
def Stranded (d : Document) (m : Member) : Prop :=
  m.isOpen ∧ ∃ t, d.Means m.name t

/-- Whether the names of open references mean nothing. -/
def NoneStranded (d : Document) : Prop :=
  ∀ m ∈ d.members, m.isOpen → d.findTarget? m.name = none

theorem findTarget?_resolved {m : Member} (hopen : (d.resolved m).isOpen) :
    d.findTarget? (d.resolved m).name = none := by
  unfold resolved Member.resolvedTo at hopen ⊢
  cases hfind : d.findTarget? m.name with
  | some target => cases target <;> simp [hfind, Attribute.isOpen] at hopen
  | none =>
      dsimp only
      split <;> exact hfind

theorem noneStranded_mapMembers {f : Member → Member}
    (hf : ∀ m ∈ d.members, (f m).isOpen → d.findTarget? (f m).name = none) :
    (d.mapMembers f).NoneStranded := by
  intro m hm hopen
  rw [members_mapMembers] at hm
  obtain ⟨old, hold, rfl⟩ := List.mem_map.mp hm
  rw [findTarget?_congr (outline_mapMembers f)]
  exact hf old hold hopen

theorem NoneStranded.distinguish (hd : d.NoneStranded) (id : AttrId) :
    (d.distinguish id).NoneStranded := by
  intro m hm hopen
  rw [findTarget?_congr (outline_distinguish id)]
  obtain ⟨old, hold, rfl | ⟨_, siblings, rfl⟩⟩ := mem_members_distinguish hm
  · exact hd _ hold hopen
  · rw [Member.distinguish_isOpen] at hopen
    rw [Member.distinguish_name siblings (Bool.and_eq_true_iff.mp hopen).1]
    exact hd old hold hopen

theorem HandlesSound.noneStranded_resolveReference (hd : d.HandlesSound) {id : AttrId}
    (hothers : ∀ m ∈ d.members, m.id ≠ id → m.isOpen → d.findTarget? m.name = none) :
    (d.resolveReference id).1.NoneStranded := by
  rw [hd.resolveReference_eq]
  apply noneStranded_mapMembers
  intro m hm
  split
  next => exact findTarget?_resolved
  next hother => exact fun hopen => hothers m hm (fun hid => hother ⟨hid, hopen⟩) hopen

theorem noneStranded_resolveReferences
    (hlost : ∀ m ∈ d.members, m.isOpen → m.isLost → d.findTarget? m.name = none) :
    d.resolveReferences.NoneStranded := by
  apply noneStranded_mapMembers
  intro m hm
  split
  next => exact findTarget?_resolved
  next hother => exact fun hopen => hlost m hm hopen (by simpa [hopen] using hother)

/-- Open references have all been reported, so another chance reaches every one. -/
theorem MembersSettled.noneStranded_retryReferences (hd : d.MembersSettled) :
    d.retryReferences.NoneStranded := by
  apply noneStranded_mapMembers
  intro m hm
  split
  next => exact findTarget?_resolved
  next hother =>
    exact fun hopen => absurd (Bool.and_eq_true_iff.mpr ⟨hopen, (hd m hm).reported hopen⟩) hother

theorem findTarget?_addSchema (schema : String) (hnone : d.findTarget? name = none) :
    (d.addSchema schema).1.findTarget? name = none := by
  have hhandle : (d.addSchema schema).1.entityByHandle? name = d.entityByHandle? name := by
    unfold entityByHandle? entity?
    rw [entities_addSchema]
  rw [findTarget?_eq] at hnone ⊢
  rw [hhandle, entityByName?_addSchema]
  cases hfound : d.entityByHandle? name with
  | some id => simp [hfound] at hnone
  | none => simpa [hfound] using hnone

theorem Sound.noneStranded_step (hd : d.Sound) {e : Edit} {answer : Answer}
    (hstep : Step d e next answer) (hwritten : e.isWritten) (hkeeps : e.removes = false)
    (hnone : e.retries = false → d.NoneStranded) : next.NoneStranded := by
  -- Renames and new entities try all open references again. Every other edit leaves the
  -- meaning of names alone and resolves what it adds.
  cases hstep with
  | addSchema name =>
      intro m hm hopen
      rw [members, entities_addSchema] at hm
      exact findTarget?_addSchema name (hnone rfl m hm hopen)
  | renameSchema hs name => exact (hd.settled_renameSchema hs name).noneStranded_retryReferences
  | removeSchema _ => cases hkeeps
  | addEntity _ name => exact (hd.settled.placeEntity _ name).noneStranded_retryReferences
  | renameEntity _ name => exact (hd.settled_renameEntity _ name).noneStranded_retryReferences
  | removeEntity _ => cases hkeeps
  | @addAttribute entity _ he _ a ha =>
      have hhandles := hd.handles.step (hd.handles.step_attached he a)
      apply hhandles.noneStranded_resolveReference
      intro m hm hid hopen
      rw [findTarget?_congr (outline_attached entity a)]
      rcases hd.handles.mem_members_attached hm with hold | ⟨siblings, rfl⟩
      · exact hnone rfl m hold hopen
      · exact absurd (Member.distinguish_id siblings (d.nextMember a)) hid
  | insertAttribute _ _ => cases hwritten
  | @replaceAttribute id _ _ _ a ha =>
      have hsame := (sameHandles_putMember (d := d) id a).trans (sameHandles_distinguish id)
      have houtline : ((d.putMember id a).distinguish id).outline = d.outline :=
        (outline_distinguish id).trans (outline_modifyMember _ _)
      apply (hd.handles.step hsame.step).noneStranded_resolveReference
      intro m hm hid hopen
      rw [findTarget?_congr houtline]
      have hold := (mem_members_replaced (Attribute.ofLine_frame ha).1 hm).resolve_right
        fun h => hid h.1
      exact hnone rfl m hold.2 hopen
  | @removeAttribute id _ _ =>
      intro m hm hopen
      have houtline : (d.dropMember id).outline = d.outline :=
        outline_mapEntities (keepsOutline_attributes _)
      rw [members_dropMember] at hm
      rw [findTarget?_congr houtline]
      exact hnone rfl m (List.mem_filter.mp hm).1 hopen
  | @setReference id _ _ target _ _ =>
      apply NoneStranded.distinguish
      have hhandles := hd.handles.step (sameHandles_pointMember id target).step
      apply hhandles.noneStranded_resolveReference
      intro m hm hid hopen
      have houtline : (d.pointMember id target).outline = d.outline := outline_modifyMember _ _
      rw [findTarget?_congr houtline]
      exact hnone rfl m ((mem_members_pointMember hm).resolve_right fun h => hid h.1).2 hopen
  | resolveReference id =>
      exact hd.handles.noneStranded_resolveReference fun m hm _ => hnone rfl m hm
  | resolveReferences =>
      exact noneStranded_resolveReferences fun m hm hopen _ => hnone rfl m hm hopen
  | setMaxDepth n =>
      intro m hm hopen
      have houtline : (d.setMaxDepth n).outline = d.outline := rfl
      rw [findTarget?_congr houtline]
      exact hnone rfl m hm hopen

/-! ### Runs -/

/-- Whether entities have been removed since open references last had another chance,
after a run that starts with the given answer. -/
def isOverdue (d : Document) (overdue : Bool) : List Edit → Bool
  | [] => overdue
  | e :: es =>
    match d.edit e with
    | .ok (next, _) => next.isOverdue (e.removes || overdue && !e.retries) es
    | .error _ => d.isOverdue overdue es

theorem Sound.noneStranded_run (hd : d.Sound) {overdue : Bool}
    (hnone : overdue = false → d.NoneStranded) {es : List Edit} (hes : ∀ e ∈ es, e.isWritten)
    (hrun : d.isOverdue overdue es = false) : (d.run es).NoneStranded := by
  induction es generalizing d overdue with
  | nil => exact hnone hrun
  | cons e es ih =>
      obtain ⟨hwritten, hes⟩ := List.forall_mem_cons.mp hes
      rw [run_cons]
      unfold isOverdue at hrun
      cases hedit : d.edit e with
      | error err =>
          rw [perform_of_error hedit]
          rw [hedit] at hrun
          exact ih hd hnone hes hrun
      | ok result =>
          obtain ⟨next, answer⟩ := result
          rw [perform_of_ok hedit]
          rw [hedit] at hrun
          have hstep := Step.of_edit hedit
          refine ih (hd.step hstep hwritten) (fun hclear => ?_) hes hrun
          obtain ⟨hkeeps, hcase⟩ := Bool.or_eq_false_iff.mp hclear
          -- What was stranded before does not matter to an edit that retries.
          refine hd.noneStranded_step hstep hwritten hkeeps fun hretries => hnone ?_
          simpa [hretries] using hcase

theorem IsOrigin.noneStranded (hd : d.IsOrigin) : d.NoneStranded := by
  cases hd with
  | empty maxDepth => exact fun m hm => absurd hm List.not_mem_nil
  | read hread =>
      obtain ⟨c, hc, rfl⟩ := exists_reading hread
      apply noneStranded_resolveReferences
      intro m hm _ hlost
      rw [(hc.unresolved m hm).2] at hlost
      cases hlost

/-! ### Recorded targets -/

/-- Whether the recorded target of a reference is the one found by its name. -/
def Faithful (d : Document) (m : Member) : Prop :=
  ∀ t, m.target = some t ↔ (d.findTarget? m.name).map Target.id = some t

theorem Sound.faithful_iff (hd : d.Sound) {m : Member} (hm : m ∈ d.members)
    (href : m.isReference) :
    d.Faithful m ↔ (∀ t, m.target = some t → ¬ d.Shadowed m.name t) ∧ ¬ d.Stranded m := by
  have hmeans : ∀ {t}, (d.findTarget? m.name).map Target.id = some t ↔ d.Means m.name t :=
    hd.handles.findTarget?_iff_means hd.plain
  have hdenotes := fun t ht => ((hd.settled m hm).denotes t ht).2
  constructor
  · intro hfaithful
    constructor
    · intro t ht hshadow
      rcases hmeans.mp ((hfaithful t).mp ht) with ⟨hhandle, _⟩ | ⟨_, hclear⟩
      · rw [hd.plain.no_handle (hdenotes t ht)] at hhandle
        cases hhandle
      · exact hclear hshadow
    · rintro ⟨hopen, t, ht⟩
      simp [Attribute.isOpen, (hfaithful t).mpr (hmeans.mpr ht)] at hopen
  · rintro ⟨hclear, hstranded⟩ t
    cases htarget : m.target with
    | none =>
        have hopen : m.isOpen := by simp [Attribute.isOpen, href, htarget]
        constructor
        · intro hnone
          cases hnone
        · exact fun hfound => absurd ⟨hopen, t, hmeans.mp hfound⟩ hstranded
    | some target =>
        -- The target goes by the name and nothing stands before it, so it is the one found.
        have hfound : (d.findTarget? m.name).map Target.id = some target :=
          hmeans.mpr (Or.inr ⟨hdenotes target htarget, hclear target htarget⟩)
        rw [hfound]

/-- After every run, the recorded target of a reference goes by the written name. It is the
one found by that name unless a namesake stands before it, and a reference without a target
has a name that means nothing unless entities were removed since it last had another chance. -/
theorem IsOrigin.faithful_run_iff (hd : d.IsOrigin) {es : List Edit}
    (hes : ∀ e ∈ es, e.isWritten) {m : Member} (hm : m ∈ (d.run es).members)
    (href : m.isReference) :
    ((d.run es).Faithful m ↔
        (∀ t, m.target = some t → ¬ (d.run es).Shadowed m.name t) ∧ ¬ (d.run es).Stranded m) ∧
      (∀ t, m.target = some t → (d.run es).Denotes m.name t) ∧
      ((d.run es).Stranded m → d.isOverdue false es) := by
  have hsound := hd.sound_run hes
  refine ⟨hsound.faithful_iff hm href, fun t ht => ((hsound.settled m hm).denotes t ht).2, ?_⟩
  rintro ⟨hopen, t, ht⟩
  by_contra hclear
  have hnone := hd.sound.noneStranded_run (fun _ => hd.noneStranded) hes
    (Bool.eq_false_iff.mpr hclear) m hm hopen
  have hfound := (hsound.handles.findTarget?_iff_means hsound.plain).mpr ht
  rw [hnone] at hfound
  cases hfound

/-- A run that removes the target of a reference while another entity has its name. -/
def bereavement : List Edit :=
  [.addSchema "blog", .addEntity ⟨1⟩ "tag", .addSchema "shop", .addEntity ⟨2⟩ "tag",
    .addEntity ⟨2⟩ "post", .addAttribute ⟨3⟩ "- @tag", .removeEntity ⟨1⟩]

theorem faithful_run_iff_bereavement :
    ∃ m ∈ ((empty 5).run bereavement).members, m.isReference ∧ m.target = none ∧
      ((empty 5).run bereavement).findTarget? m.name = some (.byName ⟨2⟩) ∧
      (((empty 5).run bereavement).Faithful m ↔
        (∀ t, m.target = some t → ¬ ((empty 5).run bereavement).Shadowed m.name t) ∧
          ¬ ((empty 5).run bereavement).Stranded m) ∧
      (∀ t, m.target = some t → ((empty 5).run bereavement).Denotes m.name t) ∧
      (((empty 5).run bereavement).Stranded m → (empty 5).isOverdue false bereavement) := by
  obtain ⟨m, hm, href, hopen, hfind⟩ : ∃ m ∈ ((empty 5).run bereavement).members,
      m.isReference ∧ m.target = none ∧
        ((empty 5).run bereavement).findTarget? m.name = some (.byName ⟨2⟩) := by
    decide +kernel
  exact ⟨m, hm, href, hopen, hfind,
    IsOrigin.faithful_run_iff (.empty 5) (by simp [bereavement, Edit.isWritten]) hm href⟩

end Document

end Blueprint
