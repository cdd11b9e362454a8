import Blueprint.Proofs.Meaning

/-! # Reports on references

A reference without a target is reported as such, once, and nothing else is. One relation
says what an edit can do to the report on an attribute, and what runs preserve follows
from its cases. Only one of them leaves a report behind that no longer holds: a reported
reference is resolved on request, after a removal gave its name a meaning again.
-/

namespace Blueprint

namespace Attribute

variable {a b : Attribute}

/-- Whether the attribute is reported exactly if it is a reference without a target. -/
structure WellReported (a : Attribute) : Prop where
  lost_iff : a.isReference → (.referenceInvalid ∈ a.defects ↔ a.target = none)
  once : a.defects.count .referenceInvalid ≤ 1
  other : ¬ a.isReference → .referenceInvalid ∉ a.defects

/-- Whether a change of the attribute kept its kind, its target and its defects. -/
structure SameReport (a b : Attribute) : Prop where
  kind : b.kind = a.kind
  target : b.target = a.target
  defects : b.defects = a.defects

theorem SameReport.refl (a : Attribute) : SameReport a a :=
  ⟨rfl, rfl, rfl⟩

theorem SameReport.trans {c : Attribute} (hfirst : SameReport a b) (hsecond : SameReport b c) :
    SameReport a c :=
  ⟨hsecond.kind.trans hfirst.kind, hsecond.target.trans hfirst.target,
    hsecond.defects.trans hfirst.defects⟩

theorem SameReport.isReference (hsame : SameReport a b) : b.isReference = a.isReference := by
  rw [Attribute.isReference, Attribute.isReference, hsame.kind]

theorem WellReported.congr (ha : a.WellReported) (hsame : SameReport a b) : b.WellReported := by
  constructor
  · rw [hsame.isReference, hsame.defects, hsame.target]
    exact ha.lost_iff
  · rw [hsame.defects]
    exact ha.once
  · rw [hsame.isReference, hsame.defects]
    exact ha.other

theorem isLost_iff : a.isLost ↔ .referenceInvalid ∈ a.defects := by
  simp [Attribute.isLost]

theorem isLost_eq_false_iff : a.isLost = false ↔ .referenceInvalid ∉ a.defects := by
  simp [Attribute.isLost]

/-- Without a report there must be nothing to report. -/
theorem wellReported_of_closed (hlost : a.isLost = false) (hclosed : a.isOpen = false) :
    a.WellReported := by
  have hnot := isLost_eq_false_iff.mp hlost
  refine ⟨fun href => ?_, by simp [List.count_eq_zero.mpr hnot], fun _ => hnot⟩
  have htarget : a.target ≠ none := by
    intro hnone
    simp [isOpen, href, hnone] at hclosed
  simp [hnot, htarget]

/-- One report after none is right for a reference without a target. -/
theorem wellReported_note (hlost : a.isLost = false) (href : a.isReference)
    (htarget : a.target = none) : (a.note [.referenceInvalid]).WellReported := by
  have hnot := isLost_eq_false_iff.mp hlost
  refine ⟨fun _ => by simp [note, htarget], ?_, fun hother => absurd href hother⟩
  simp [note, List.count_append, List.count_eq_zero.mpr hnot]

end Attribute

namespace Document

open Attribute

variable {d next : Document} {m : Member}

/-- Resolving a reference that has not been reported reports it if need be. -/
theorem wellReported_resolved (hopen : m.isOpen) (hlost : m.isLost = false) :
    (d.resolved m).WellReported := by
  obtain ⟨href, htarget⟩ : m.isReference ∧ m.target = none := by
    simpa [Attribute.isOpen] using hopen
  unfold resolved Member.resolvedTo
  split
  next t qualified _ => exact wellReported_of_closed hlost (by simp [Attribute.isOpen])
  next t _ => exact wellReported_of_closed hlost (by simp [Attribute.isOpen])
  next =>
    rw [if_neg (by simp [hlost])]
    exact wellReported_note hlost href htarget

/-- What an edit can do to the report on an attribute that it leaves in the document. -/
inductive ReportStep (d : Document) (e : Edit) (m : Member) : Prop where
  | kept {old : Member} (hold : old ∈ d.members) (hsame : SameReport old.toAttribute m.toAttribute)
  /-- The attribute is new, or its report was taken back before it was resolved. -/
  | renewed (hm : m.WellReported)
  | detached {old : Member} (hold : old ∈ d.members) (htarget : old.target ≠ none)
      (hsame : SameReport
        { old.toAttribute with target := none, defects := old.defects ++ [.referenceInvalid] }
        m.toAttribute)
  /-- A reported reference found its target, and nothing took the report back. -/
  | left {old : Member} (hold : old ∈ d.members) (hedit : e = .resolveReference old.id)
      (hopen : old.isOpen) (hfound : (d.findTarget? old.name).isSome)
      (hsame : SameReport { old.toAttribute with target := m.target } m.toAttribute)

theorem ReportStep.of_mem {e : Edit} (hm : m ∈ d.members) : ReportStep d e m :=
  .kept hm (.refl _)

/-! ### Changes of attributes -/

theorem sameReport_distinguish (siblings : List Member) (m : Member) :
    SameReport m.toAttribute (m.distinguish siblings).toAttribute :=
  ⟨by simp, by simp, by simp⟩

theorem exists_sameReport_retarget {reference : AttrId × EntityId × Bool}
    (hm : m ∈ (d.retarget reference).members) :
    ∃ old ∈ d.members, SameReport old.toAttribute m.toAttribute := by
  unfold retarget at hm
  dsimp only at hm
  split at hm
  next => exact ⟨m, hm, .refl _⟩
  next e _ =>
    obtain ⟨renamed, hrenamed, hm⟩ := mem_members_distinguish hm
    rw [modifyMember, members_mapMembers] at hrenamed
    obtain ⟨old, hold, rfl⟩ := List.mem_map.mp hrenamed
    have hnamed : SameReport old.toAttribute (if old.id = reference.1 then
        { old with name := d.writtenName e reference.2.2 } else old).toAttribute := by
      split <;> exact ⟨rfl, rfl, rfl⟩
    refine ⟨old, hold, ?_⟩
    rcases hm with rfl | ⟨_, siblings, rfl⟩
    · exact hnamed
    · exact hnamed.trans (sameReport_distinguish siblings _)

theorem exists_sameReport_retargetReferences {renamed : List EntityId}
    (hm : m ∈ (d.retargetReferences renamed).members) :
    ∃ old ∈ d.members, SameReport old.toAttribute m.toAttribute := by
  unfold retargetReferences at hm
  generalize d.referencesTo renamed = references at hm
  induction references generalizing d with
  | nil => exact ⟨m, hm, .refl _⟩
  | cons reference rest ih =>
      obtain ⟨middle, hmiddle, hlater⟩ := ih hm
      obtain ⟨old, hold, hfirst⟩ := exists_sameReport_retarget hmiddle
      exact ⟨old, hold, hfirst.trans hlater⟩

/-- Another chance takes the report back first. -/
theorem wellReported_retryReferences (hm : m ∈ d.retryReferences.members) :
    m ∈ d.members ∨ m.WellReported := by
  rw [retryReferences, members_mapMembers] at hm
  obtain ⟨old, hold, rfl⟩ := List.mem_map.mp hm
  split
  next hretry =>
    right
    apply wellReported_resolved
    · exact (Bool.and_eq_true_iff.mp hretry).1
    · simp [Member.unreported, Attribute.isLost]
  next => exact Or.inl hold

theorem reportStep_detach {e : Edit} {gone : List EntityId} {old : Member}
    (hold : old ∈ d.members) : ReportStep d e (old.detach gone) := by
  unfold Member.detach
  split
  next hgone =>
    refine .detached hold ?_ (.refl _)
    intro hnone
    simp [hnone] at hgone
  next => exact .of_mem hold

/-- Resolving an attribute that has not been reported leaves the others alone. -/
theorem HandlesSound.wellReported_resolveReference (hd : d.HandlesSound) {id : AttrId}
    (hself : ∀ m ∈ d.members, m.id = id → m.isLost = false)
    (hm : m ∈ (d.resolveReference id).1.members) :
    m.id ≠ id ∧ m ∈ d.members ∨ m.WellReported := by
  rw [hd.resolveReference_eq, members_mapMembers] at hm
  obtain ⟨old, hold, rfl⟩ := List.mem_map.mp hm
  by_cases hid : old.id = id
  · have hlost := hself old hold hid
    right
    by_cases hopen : old.isOpen
    · rw [if_pos ⟨hid, hopen⟩]
      exact wellReported_resolved hopen hlost
    · rw [if_neg fun h => hopen h.2]
      exact wellReported_of_closed hlost (by simpa using hopen)
  · rw [if_neg fun h => hid h.1]
    exact Or.inl ⟨hid, hold⟩

theorem isLost_replaced {id : AttrId} {a : Attribute} (ha : a.isLost = false)
    (hm : m ∈ ((d.putMember id a).distinguish id).members) (hid : m.id = id) :
    m.isLost = false := by
  have hput : ∀ m ∈ (d.putMember id a).members, m.id = id → m.isLost = false := by
    intro m hm hid
    rw [putMember, modifyMember, members_mapMembers] at hm
    obtain ⟨old, hold, rfl⟩ := List.mem_map.mp hm
    by_cases heq : old.id = id
    · rw [if_pos heq]
      exact ha
    · rw [if_neg heq] at hid
      exact absurd hid heq
  obtain ⟨old, hold, rfl | ⟨heq, siblings, rfl⟩⟩ := mem_members_distinguish hm
  · exact hput _ hold hid
  · rw [Member.distinguish_isLost]
    exact hput old hold heq

theorem isLost_pointMember {id : AttrId} {target : EntityId}
    (hm : m ∈ (d.pointMember id target).members) (hid : m.id = id) : m.isLost = false := by
  rw [pointMember, modifyMember, members_mapMembers] at hm
  obtain ⟨old, hold, rfl⟩ := List.mem_map.mp hm
  by_cases heq : old.id = id
  · rw [if_pos heq]
    simp [Member.pointed, Attribute.isLost]
  · rw [if_neg heq] at hid
    exact absurd hid heq

/-! ### Edits -/

/-- A reference that is resolved on request keeps the report that it had. -/
theorem Sound.reportStep_resolveReference (hd : d.Sound) {id : AttrId}
    (hm : m ∈ (d.resolveReference id).1.members) : ReportStep d (.resolveReference id) m := by
  rw [hd.handles.resolveReference_eq, members_mapMembers] at hm
  obtain ⟨old, hold, rfl⟩ := List.mem_map.mp hm
  split
  next h =>
    obtain ⟨rfl, hopen⟩ := h
    have hlost := (hd.settled old hold).reported hopen
    unfold resolved Member.resolvedTo
    split
    next t qualified hfind => exact .left hold rfl hopen (by simp [hfind]) ⟨rfl, rfl, rfl⟩
    next t hfind => exact .left hold rfl hopen (by simp [hfind]) ⟨rfl, rfl, rfl⟩
    next =>
      rw [if_pos hlost]
      exact .of_mem hold
  next => exact .of_mem hold

theorem Sound.reportStep (hd : d.Sound) {e : Edit} {answer : Answer}
    (hstep : Step d e next answer) (hwritten : e.isWritten) (hm : m ∈ next.members) :
    ReportStep d e m := by
  cases hstep with
  | addSchema name =>
      rw [members, entities_addSchema] at hm
      exact .of_mem hm
  | renameSchema hs name =>
      rcases wellReported_retryReferences hm with hm | hrenewed
      · obtain ⟨old, hold, hsame⟩ := exists_sameReport_retargetReferences hm
        rw [members, entities_nameSchema] at hold
        exact .kept hold hsame
      · exact .renewed hrenewed
  | @removeSchema id s hs =>
      rw [members_mapMembers] at hm
      obtain ⟨old, hold, rfl⟩ := List.mem_map.mp hm
      exact reportStep_detach (((entities_dropSchema_sublist id).flatMap _).subset hold)
  | addEntity hs name =>
      rcases wellReported_retryReferences hm with hm | hrenewed
      · rw [members_placeEntity] at hm
        exact .of_mem hm
      · exact .renewed hrenewed
  | renameEntity _ name =>
      rcases wellReported_retryReferences hm with hm | hrenewed
      · obtain ⟨old, hold, hsame⟩ := exists_sameReport_retargetReferences hm
        rw [members_nameEntity] at hold
        exact .kept hold hsame
      · exact .renewed hrenewed
  | @removeEntity id _ _ =>
      rw [members_mapMembers] at hm
      obtain ⟨old, hold, rfl⟩ := List.mem_map.mp hm
      rw [members, entities_dropEntity] at hold
      exact reportStep_detach ((List.filter_sublist.flatMap _).subset hold)
  | @addAttribute entity _ he _ a ha =>
      have hunreported := isLost_eq_false_iff.mpr (Attribute.ofLine_frame ha).2.1
      have hhandles := hd.handles.step (hd.handles.step_attached he a)
      -- Of the attributes there, the new one alone has the new handle.
      have hself : ∀ m ∈ (d.attached entity a).members, m.id = .fresh d.attrCount →
          m.isLost = false := by
        intro m hm hid
        rcases hd.handles.mem_members_attached hm with hold | ⟨siblings, rfl⟩
        · exact absurd (List.mem_map.mpr ⟨m, hold, hid⟩) (hd.handles.fresh_not_mem .attr)
        · rw [Member.distinguish_isLost]
          exact hunreported
      rcases hhandles.wellReported_resolveReference hself hm with ⟨hid, hm⟩ | hrenewed
      · rcases hd.handles.mem_members_attached hm with hold | ⟨siblings, rfl⟩
        · exact .of_mem hold
        · exact absurd (Member.distinguish_id siblings (d.nextMember a)) hid
      · exact .renewed hrenewed
  | insertAttribute _ _ => cases hwritten
  | @replaceAttribute id _ _ _ a ha =>
      obtain ⟨htarget, hdefects, _⟩ := Attribute.ofLine_frame ha
      have hsame := (sameHandles_putMember (d := d) id a).trans (sameHandles_distinguish id)
      rcases (hd.handles.step hsame.step).wellReported_resolveReference
        (fun _ hm => isLost_replaced (isLost_eq_false_iff.mpr hdefects) hm) hm with
        ⟨hid, hm⟩ | hrenewed
      · exact .of_mem ((mem_members_replaced htarget hm).resolve_right fun h => hid h.1).2
      · exact .renewed hrenewed
  | removeAttribute _ =>
      rw [members_dropMember] at hm
      exact .of_mem (List.mem_filter.mp hm).1
  | @setReference id _ _ target _ _ =>
      have hhandles := hd.handles.step (sameHandles_pointMember id target).step
      obtain ⟨old, hold, hm⟩ := mem_members_distinguish hm
      have hsame : SameReport old.toAttribute m.toAttribute := by
        rcases hm with rfl | ⟨_, siblings, rfl⟩
        · exact .refl _
        · exact sameReport_distinguish siblings old
      rcases hhandles.wellReported_resolveReference (fun _ hm => isLost_pointMember hm) hold with
        ⟨hid, hold⟩ | hrenewed
      · exact .kept ((mem_members_pointMember hold).resolve_right fun h => hid h.1).2 hsame
      · exact .renewed (hrenewed.congr hsame)
  | resolveReference id => exact hd.reportStep_resolveReference hm
  | resolveReferences =>
      rw [resolveReferences, members_mapMembers] at hm
      obtain ⟨old, hold, rfl⟩ := List.mem_map.mp hm
      split
      next hpending =>
        obtain ⟨hopen, hlost⟩ := Bool.and_eq_true_iff.mp hpending
        exact .renewed (wellReported_resolved hopen (by simpa using hlost))
      next => exact .of_mem hold
  | setMaxDepth n => exact .of_mem hm

/-- Whether every attribute is reported exactly if it is a reference without a target. -/
def AllReported (d : Document) : Prop :=
  ∀ m ∈ d.members, m.WellReported

/-- Whether an edit asks to resolve a reference without a target, and its name means one. -/
def FindsOnRequest (d : Document) (e : Edit) : Prop :=
  ∃ m ∈ d.members, e = .resolveReference m.id ∧ m.isOpen ∧ (d.findTarget? m.name).isSome

theorem Sound.allReported_step (hd : d.Sound) (hall : d.AllReported) {e : Edit} {answer : Answer}
    (hstep : Step d e next answer) (hwritten : e.isWritten) (hfinds : ¬ d.FindsOnRequest e) :
    next.AllReported := by
  intro m hm
  cases hd.reportStep hstep hwritten hm with
  | kept hold hsame => exact (hall _ hold).congr hsame
  | renewed hm => exact hm
  | @detached old hold htarget hsame =>
      -- What had a target was a reference, and not reported.
      obtain ⟨t, ht⟩ := Option.ne_none_iff_exists'.mp htarget
      have href := ((hd.settled old hold).denotes t ht).1
      have hlost : old.isLost = false := by
        rw [isLost_eq_false_iff, (hall old hold).lost_iff href]
        exact htarget
      exact WellReported.congr (wellReported_note (a := { old.toAttribute with target := none })
        hlost href rfl) hsame
  | left hold hedit hopen hfound _ => exact absurd ⟨_, hold, hedit, hopen, hfound⟩ hfinds

/-- Whatever is reported is a reference. -/
def ReportsReferences (d : Document) : Prop :=
  ∀ m ∈ d.members, .referenceInvalid ∈ m.defects → m.isReference

theorem Sound.reportsReferences_step (hd : d.Sound) (hrefs : d.ReportsReferences) {e : Edit}
    {answer : Answer} (hstep : Step d e next answer) (hwritten : e.isWritten) :
    next.ReportsReferences := by
  intro m hm hlost
  cases hd.reportStep hstep hwritten hm with
  | kept hold hsame =>
      rw [hsame.isReference]
      exact hrefs _ hold (hsame.defects ▸ hlost)
  | renewed hm =>
      by_contra hother
      exact hm.other hother hlost
  | @detached old hold htarget hsame =>
      obtain ⟨t, ht⟩ := Option.ne_none_iff_exists'.mp htarget
      rw [hsame.isReference]
      exact ((hd.settled old hold).denotes t ht).1
  | left hold hedit hopen _ hsame =>
      rw [hsame.isReference]
      exact (Bool.and_eq_true_iff.mp hopen).1

/-- The report on a reference that is found on request is wrong from then on. -/
theorem Sound.not_allReported_perform (hd : d.Sound) {e : Edit} (hfinds : d.FindsOnRequest e) :
    ¬ (d.perform e).AllReported := by
  obtain ⟨m, hm, rfl, hopen, hfound⟩ := hfinds
  have hperform : d.perform (.resolveReference m.id) = (d.resolveReference m.id).1 := rfl
  have hmem : d.resolved m ∈ (d.perform (.resolveReference m.id)).members := by
    rw [hperform, hd.handles.resolveReference_eq, members_mapMembers]
    exact List.mem_map.mpr ⟨m, hm, if_pos ⟨rfl, hopen⟩⟩
  have hlost := isLost_iff.mp ((hd.settled m hm).reported hopen)
  have href := (Bool.and_eq_true_iff.mp hopen).1
  intro hall
  have hreport := hall _ hmem
  unfold resolved Member.resolvedTo at hreport
  split at hreport
  next => simpa using (hreport.lost_iff href).mp hlost
  next => simpa using (hreport.lost_iff href).mp hlost
  next hnone => simp [hnone] at hfound

/-! ### Runs -/

theorem IsOrigin.allReported (hd : d.IsOrigin) : d.AllReported := by
  cases hd with
  | empty maxDepth => exact fun m hm => absurd hm List.not_mem_nil
  | read hread =>
      -- Before references are resolved none has been reported.
      obtain ⟨c, hc, rfl⟩ := exists_reading hread
      intro m hm
      rw [resolveReferences, members_mapMembers] at hm
      obtain ⟨old, hold, rfl⟩ := List.mem_map.mp hm
      have hlost := (hc.unresolved old hold).2
      split
      next hopen => exact wellReported_resolved (Bool.and_eq_true_iff.mp hopen).1 hlost
      next hclosed => exact wellReported_of_closed hlost (by simpa [hlost] using hclosed)

theorem run_take_succ (d : Document) {es : List Edit} {i : Nat} {e : Edit}
    (he : es[i]? = some e) : d.run (es.take (i + 1)) = (d.run (es.take i)).perform e := by
  rw [List.take_add_one, he, run_append]
  rfl

theorem IsOrigin.allReported_run (hd : d.IsOrigin) {es : List Edit}
    (hes : ∀ e ∈ es, e.isWritten)
    (hfinds : ∀ i e, es[i]? = some e → ¬ (d.run (es.take i)).FindsOnRequest e) (i : Nat) :
    (d.run (es.take i)).AllReported := by
  induction i with
  | zero => exact hd.allReported
  | succ i ih =>
      cases he : es[i]? with
      | none =>
          rw [List.take_add_one, he]
          simpa using ih
      | some e =>
          have hsound : (d.run (es.take i)).Sound :=
            hd.sound_run fun e he => hes e (List.mem_of_mem_take he)
          rw [run_take_succ d he]
          cases hedit : (d.run (es.take i)).edit e with
          | error err =>
              rw [perform_of_error hedit]
              exact ih
          | ok result =>
              rw [perform_of_ok hedit]
              exact hsound.allReported_step ih (Step.of_edit hedit)
                (hes e (List.mem_of_getElem? he)) (hfinds i e he)

theorem IsOrigin.reportsReferences_run (hd : d.IsOrigin) {es : List Edit}
    (hes : ∀ e ∈ es, e.isWritten) : (d.run es).ReportsReferences := by
  have hrun : (d.run es).Sound ∧ (d.run es).ReportsReferences := by
    refine run_induction (motive := fun d => d.Sound ∧ d.ReportsReferences) ?_ ⟨hd.sound, ?_⟩ hes
    · rintro d e next a ⟨hsound, hrefs⟩ hwritten hedit
      have hstep := Step.of_edit hedit
      exact ⟨hsound.step hstep hwritten, hsound.reportsReferences_step hrefs hstep hwritten⟩
    · intro m hm hlost
      by_contra hother
      exact (hd.allReported m hm).other hother hlost
  exact hrun.2

/-- After every run, a reference without a target is reported, and nothing but references is.
Along a run every attribute is reported exactly if it is a reference without a target, and
once, unless a reference without a target is resolved on request and found. That needs a
removal since open references last had another chance. -/
theorem IsOrigin.allReported_run_iff (hd : d.IsOrigin) {es : List Edit}
    (hes : ∀ e ∈ es, e.isWritten) :
    (∀ m ∈ (d.run es).members,
        (m.isReference → m.target = none → .referenceInvalid ∈ m.defects) ∧
        (¬ m.isReference → .referenceInvalid ∉ m.defects)) ∧
      ((∀ i, (d.run (es.take i)).AllReported) ↔
        ∀ i e, es[i]? = some e → ¬ (d.run (es.take i)).FindsOnRequest e) ∧
      ∀ i e, (d.run (es.take i)).FindsOnRequest e → d.isOverdue false (es.take i) := by
  have htake : ∀ i, ∀ e ∈ es.take i, e.isWritten := fun i e he => hes e (List.mem_of_mem_take he)
  refine ⟨fun m hm => ⟨fun href htarget => ?_, fun hother hlost => ?_⟩, ⟨?_, ?_⟩, ?_⟩
  · apply isLost_iff.mp
    apply ((hd.sound_run hes).settled m hm).reported
    simp [Attribute.isOpen, href, htarget]
  · exact hother (hd.reportsReferences_run hes m hm hlost)
  · intro hall i e he hfinds
    have hnext := hall (i + 1)
    rw [run_take_succ d he] at hnext
    exact (hd.sound_run (htake i)).not_allReported_perform hfinds hnext
  · exact hd.allReported_run hes
  · rintro i e ⟨m, hm, -, hopen, hfound⟩
    by_contra hclear
    have hnone := hd.sound.noneStranded_run (fun _ => hd.noneStranded) (htake i)
      (Bool.eq_false_iff.mpr hclear) m hm hopen
    simp [hnone] at hfound

/-- A text with two entities of one name and a reference to it. -/
def namesakes : String :=
  "# blog\n## tag\n# shop\n## tag\n## post\n- @tag\n"

/-- The first of them is removed, and the reference is resolved on request. -/
def reunion : List Edit :=
  [.removeEntity ⟨1⟩, .resolveReference ⟨1⟩]

theorem allReported_run_iff_reunion :
    ∃ d, Document.read 5 namesakes = .ok d ∧
      (∃ m ∈ (d.run reunion).members, m.target = some ⟨2⟩ ∧ m.defects = [.referenceInvalid]) ∧
      (∃ i e, reunion[i]? = some e ∧ (d.run (reunion.take i)).FindsOnRequest e) ∧
      ¬ ∀ i, (d.run (reunion.take i)).AllReported := by
  have hall : (Document.read 5 namesakes).toOption.any fun d =>
      (∃ m ∈ (d.run reunion).members, m.target = some ⟨2⟩ ∧ m.defects = [.referenceInvalid]) ∧
      ∃ m ∈ (d.run (reunion.take 1)).members, m.id = ⟨1⟩ ∧ m.isOpen ∧
        ((d.run (reunion.take 1)).findTarget? m.name).isSome := by
    decide +kernel
  cases hread : Document.read 5 namesakes with
  | error fault => rw [hread] at hall; cases hall
  | ok d =>
      rw [hread, Except.toOption, Option.any_some, decide_eq_true_eq] at hall
      obtain ⟨hreport, m, hm, hid, hopen, hfound⟩ := hall
      have hfinds : (d.run (reunion.take 1)).FindsOnRequest (.resolveReference ⟨1⟩) :=
        ⟨m, hm, by rw [hid], hopen, hfound⟩
      have hiff := (IsOrigin.allReported_run_iff (.read hread)
        (by simp [reunion, Edit.isWritten] : ∀ e ∈ reunion, e.isWritten)).2.1
      exact ⟨d, rfl, hreport, ⟨1, _, rfl, hfinds⟩, fun hgood => hiff.mp hgood 1 _ rfl hfinds⟩

end Document

end Blueprint
