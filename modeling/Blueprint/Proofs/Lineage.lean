import Blueprint.Proofs.Declared
import Blueprint.Proofs.Stability

/-! # Where the options of attributes come from

Edits rename attributes, resolve them and turn them into references, and none of this
touches what their options set. So the flags, the range and the labels of an attribute are
those of the attribute that was there before, or those that the edit brings along. What
holds of the labels on every line holds of them after every run.
-/

namespace Blueprint

/-- What options set on an attribute, the default value apart: the flags, the range and the
labels. -/
def Attribute.options (a : Attribute) :
    Bool × Bool × Option String × Option String × List String :=
  (a.primary, a.required, a.min, a.max, a.unique)

theorem Attribute.unique_eq_of_options {a b : Attribute} (h : b.options = a.options) :
    b.unique = a.unique :=
  congrArg (fun options => options.2.2.2.2) h

/-- Whether an edit brings an attribute along. -/
def Edit.Supplies : Edit → Attribute → Prop
  | addAttribute _ line, a | replaceAttribute _ line, a => Attribute.ofLine line = .ok a
  | insertAttribute _ given, a => a = given
  | _, _ => False

namespace Document

open Attribute

variable {d middle next : Document} {m : Member}

/-- Whether every attribute has the options of one that was there before. -/
def Inherits (d next : Document) : Prop :=
  ∀ m ∈ next.members, ∃ old ∈ d.members, m.options = old.options

theorem Inherits.trans (hfirst : d.Inherits middle) (hsecond : middle.Inherits next) :
    d.Inherits next := by
  intro m hm
  obtain ⟨between, hbetween, hlater⟩ := hsecond m hm
  obtain ⟨old, hold, hearlier⟩ := hfirst between hbetween
  exact ⟨old, hold, hlater.trans hearlier⟩

theorem inherits_of_subset (h : next.members ⊆ d.members) : d.Inherits next :=
  fun m hm => ⟨m, h hm, rfl⟩

theorem inherits_mapMembers {f : Member → Member}
    (hf : ∀ m, (f m).options = m.options) : d.Inherits (d.mapMembers f) := by
  intro m hm
  rw [members_mapMembers] at hm
  obtain ⟨old, hold, rfl⟩ := List.mem_map.mp hm
  exact ⟨old, hold, hf old⟩

/-! ### Changes of attributes -/

theorem options_distinguish (siblings : List Member) (m : Member) :
    (m.distinguish siblings).options = m.options := by
  obtain ⟨name, localName, heq⟩ := Member.exists_distinguish_eq siblings m
  rw [heq]
  rfl

theorem options_resolved (d : Document) (m : Member) :
    (d.resolved m).options = m.options := by
  unfold resolved Member.resolvedTo
  split
  · rfl
  · rfl
  · split <;> rfl

theorem options_detach (gone : List EntityId) (m : Member) :
    (m.detach gone).options = m.options := by
  unfold Member.detach
  split <;> rfl

theorem inherits_distinguish (id : AttrId) : d.Inherits (d.distinguish id) := by
  intro m hm
  obtain ⟨old, hold, rfl | ⟨_, siblings, rfl⟩⟩ := mem_members_distinguish hm
  · exact ⟨m, hold, rfl⟩
  · exact ⟨old, hold, options_distinguish siblings old⟩

theorem inherits_modifyMember (id : AttrId) {f : Member → Member}
    (hf : ∀ m, (f m).options = m.options) : d.Inherits (d.modifyMember id f) := by
  apply inherits_mapMembers
  intro m
  split
  · exact hf m
  · rfl

theorem inherits_resolveReference (id : AttrId) : d.Inherits (d.resolveReference id).1 := by
  unfold resolveReference
  split
  · exact inherits_of_subset (List.Subset.refl _)
  · split
    · exact inherits_modifyMember id d.options_resolved
    · exact inherits_of_subset (List.Subset.refl _)

theorem inherits_resolveReferences : d.Inherits d.resolveReferences := by
  apply inherits_mapMembers
  intro m
  split
  · exact d.options_resolved m
  · rfl

theorem inherits_retryReferences : d.Inherits d.retryReferences := by
  apply inherits_mapMembers
  intro m
  split
  · exact d.options_resolved { m with defects := m.defects.filter (· ≠ .referenceInvalid) }
  · rfl

theorem inherits_retarget (reference : AttrId × EntityId × Bool) :
    d.Inherits (d.retarget reference) := by
  unfold retarget
  dsimp only
  split
  · exact inherits_of_subset (List.Subset.refl _)
  · refine Inherits.trans (inherits_modifyMember _ fun _ => ?_) (inherits_distinguish _)
    rfl

theorem inherits_retargetReferences (renamed : List EntityId) :
    d.Inherits (d.retargetReferences renamed) := by
  unfold retargetReferences
  generalize d.referencesTo renamed = references
  induction references generalizing d with
  | nil => exact inherits_of_subset (List.Subset.refl _)
  | cons reference rest ih => exact (inherits_retarget reference).trans ih

/-! ### Edits -/

/-- The options of an attribute after an edit are those of one before, or come with the edit. -/
theorem HandlesSound.options_step (hd : d.HandlesSound) {e : Edit} {answer : Answer}
    (hstep : Step d e next answer) (hm : m ∈ next.members) :
    (∃ old ∈ d.members, m.options = old.options) ∨
      ∃ a, e.Supplies a ∧ m.options = a.options := by
  have hattached : ∀ {entity : EntityId} {a : Attribute} {id : AttrId},
      m ∈ ((d.attached entity a).resolveReference id).1.members →
        (∃ old ∈ d.members, m.options = old.options) ∨
          m.options = a.options := by
    intro entity a id hm
    obtain ⟨between, hbetween, hlater⟩ := inherits_resolveReference id m hm
    rcases hd.mem_members_attached hbetween with hold | ⟨siblings, rfl⟩
    · exact Or.inl ⟨between, hold, hlater⟩
    · exact Or.inr (hlater.trans (options_distinguish siblings (d.nextMember a)))
  cases hstep with
  | addSchema name =>
      rw [members, entities_addSchema] at hm
      exact Or.inl ⟨m, hm, rfl⟩
  | renameSchema hs name =>
      refine Or.inl ((Inherits.trans ?_ inherits_retryReferences) m hm)
      refine Inherits.trans (inherits_of_subset ?_) (inherits_retargetReferences _)
      rw [members, entities_nameSchema]
      exact List.Subset.refl _
  | @removeSchema id s hs =>
      refine Or.inl ((Inherits.trans ?_ (inherits_mapMembers (options_detach _))) m hm)
      exact inherits_of_subset ((entities_dropSchema_sublist id).flatMap _).subset
  | addEntity hs name =>
      refine Or.inl ((Inherits.trans ?_ inherits_retryReferences) m hm)
      rw [Inherits, members_placeEntity]
      exact fun m hm => ⟨m, hm, rfl⟩
  | renameEntity _ name =>
      refine Or.inl ((Inherits.trans ?_ inherits_retryReferences) m hm)
      refine Inherits.trans (inherits_of_subset ?_) (inherits_retargetReferences _)
      rw [members_nameEntity]
      exact List.Subset.refl _
  | @removeEntity id _ _ =>
      refine Or.inl ((Inherits.trans ?_ (inherits_mapMembers (options_detach _))) m hm)
      apply inherits_of_subset
      rw [members, entities_dropEntity]
      exact (List.filter_sublist.flatMap _).subset
  | addAttribute he ha => exact (hattached hm).imp_right fun hsame => ⟨_, ha, hsame⟩
  | insertAttribute he a => exact (hattached hm).imp_right fun hsame => ⟨a, rfl, hsame⟩
  | @replaceAttribute id _ _ _ a ha =>
      obtain ⟨between, hbetween, hlater⟩ :=
        (inherits_distinguish id).trans (inherits_resolveReference id) m hm
      rw [putMember, modifyMember, members_mapMembers] at hbetween
      obtain ⟨old, hold, rfl⟩ := List.mem_map.mp hbetween
      split at hlater
      · exact Or.inr ⟨a, ha, hlater⟩
      · exact Or.inl ⟨old, hold, hlater⟩
  | removeAttribute _ =>
      rw [members_dropMember] at hm
      exact Or.inl ⟨m, (List.mem_filter.mp hm).1, rfl⟩
  | @setReference id _ _ target _ _ =>
      have hpointed : d.Inherits (d.pointMember id target) :=
        inherits_modifyMember id fun _ => rfl
      exact Or.inl ((hpointed.trans (inherits_resolveReference id)).trans
        (inherits_distinguish id) m hm)
  | resolveReference id => exact Or.inl (inherits_resolveReference id m hm)
  | resolveReferences => exact Or.inl (inherits_resolveReferences m hm)
  | setMaxDepth n => exact Or.inl ⟨m, hm, rfl⟩

/-! ### Labels -/

/-- Whether no attribute has a uniqueness label twice. -/
def LabelsDistinct (d : Document) : Prop :=
  ∀ m ∈ d.members, m.unique.Nodup

theorem Inherits.labelsDistinct (h : d.Inherits next) (hd : d.LabelsDistinct) :
    next.LabelsDistinct := by
  intro m hm
  obtain ⟨old, hold, hsame⟩ := h m hm
  exact unique_eq_of_options hsame ▸ hd old hold

theorem nodup_unique_of_ofLine {line : String} {a : Attribute} (h : ofLine line = .ok a) :
    a.unique.Nodup := by
  rcases ofDeclaration_cases h with hunread | ⟨_, hsettle⟩
  · rw [hunread.unique]
    exact List.nodup_nil
  · rw [(settle_fields hsettle).2.1, checks_unique]
    exact (spelled_labels _).1

theorem keeps_labelsDistinct : Cursor.Keeps LabelsDistinct where
  schema d name hlabels := by
    rwa [LabelsDistinct, members, entities_addSchema]
  entity d id name hlabels := by
    rwa [LabelsDistinct, members_placeEntity]
  attr d id line a hhandles _ ha hlabels := by
    intro m hm
    rcases hhandles.mem_members_attached hm with hold | ⟨siblings, rfl⟩
    · exact hlabels m hold
    · have hsame : ((d.nextMember a).distinguish siblings).options = a.options :=
        options_distinguish siblings (d.nextMember a)
      exact unique_eq_of_options hsame ▸ nodup_unique_of_ofLine ha

theorem IsOrigin.labelsDistinct (hd : d.IsOrigin) : d.LabelsDistinct := by
  cases hd with
  | empty maxDepth => exact fun _ hm => absurd hm List.not_mem_nil
  | read hread =>
      obtain ⟨c, _, hlabels, rfl⟩ := exists_reading_of keeps_labelsDistinct
        (fun _ hm => absurd hm List.not_mem_nil) hread
      exact inherits_resolveReferences.labelsDistinct hlabels

theorem HandlesSound.labelsDistinct_step (hd : d.HandlesSound) (hlabels : d.LabelsDistinct)
    {e : Edit} {answer : Answer} (hstep : Step d e next answer) (hwritten : e.isWritten) :
    next.LabelsDistinct := by
  intro m hm
  rcases hd.options_step hstep hm with ⟨old, hold, hsame⟩ | ⟨a, ha, hsame⟩
  · exact unique_eq_of_options hsame ▸ hlabels old hold
  · rw [unique_eq_of_options hsame]
    cases hstep with
    | addAttribute | replaceAttribute => exact nodup_unique_of_ofLine ha
    | insertAttribute => cases hwritten
    | _ => cases ha

/-- No label is there twice after any run of written edits. -/
theorem IsOrigin.labelsDistinct_run (hd : d.IsOrigin) {es : List Edit}
    (hes : ∀ e ∈ es, e.isWritten) : (d.run es).LabelsDistinct := by
  have hboth : (d.run es).Sound ∧ (d.run es).LabelsDistinct :=
    run_induction (motive := fun d => d.Sound ∧ d.LabelsDistinct)
      (fun _ _ _ _ ⟨hsound, hlabels⟩ hwritten hedit =>
        ⟨hsound.step (Step.of_edit hedit) hwritten,
          hsound.handles.labelsDistinct_step hlabels (Step.of_edit hedit) hwritten⟩)
      ⟨hd.sound, hd.labelsDistinct⟩ hes
  exact hboth.2

end Document

end Blueprint
