import Blueprint.Document.Resolve

/-! # Attributes kept apart

Keeping an attribute apart from its siblings ends in one of three ways. It is left with a
segment that no sibling has; or it is a reference and takes its fallback name as its local
name; or it is none and takes it as its name. Only what it is called can change, and not
even that does if its segment was free from the start.
-/

namespace Blueprint.Member

variable {m : Member} {siblings : List Member}

/-- Whether no sibling has the segment of the attribute. -/
def IsFree (siblings : List Member) (m : Member) : Prop :=
  ∀ s ∈ siblings, s.segment ≠ m.segment

instance (siblings : List Member) (m : Member) : Decidable (m.IsFree siblings) :=
  inferInstanceAs (Decidable (∀ s ∈ siblings, s.segment ≠ m.segment))

/-- Dropping a taken local name changes nothing else. -/
theorem exists_dropTakenLocalName_eq (siblings : List Member) (m : Member) :
    ∃ localName ∈ [m.localName, none],
      m.dropTakenLocalName siblings = { m with localName := localName } := by
  unfold dropTakenLocalName
  split
  · exact ⟨none, by simp, rfl⟩
  · exact ⟨m.localName, by simp, rfl⟩

/-- A sibling with the same local name has the same segment. -/
theorem IsFree.dropTakenLocalName_eq_self (hm : m.IsFree siblings) :
    m.dropTakenLocalName siblings = m := by
  apply if_neg
  intro htaken
  obtain ⟨hsome, s, hs, hsame⟩ :
      m.localName.isSome ∧ ∃ s ∈ siblings, s.localName = m.localName := by
    simpa [localNameTaken] using htaken
  obtain ⟨name, hname⟩ := Option.isSome_iff_exists.mp hsome
  apply hm s hs
  rw [Attribute.segment, Attribute.segment, hsame, hname, Option.getD_some, Option.getD_some]

/-! ### The three outcomes -/

theorem distinguish_eq (siblings : List Member) (m : Member) :
    m.distinguish siblings =
      if (m.dropTakenLocalName siblings).IsFree siblings then m.dropTakenLocalName siblings
      else if m.isReference then { m with localName := some (Name.fallback m.id.number) }
      else { m.dropTakenLocalName siblings with name := Name.fallback m.id.number } := by
  obtain ⟨localName, _, hdrop⟩ := exists_dropTakenLocalName_eq siblings m
  unfold distinguish
  rw [hdrop]
  unfold replaceTakenSegment
  by_cases hfree : ({ m with localName := localName } : Member).IsFree siblings
  · rw [if_pos hfree, if_neg (by simpa [IsFree] using hfree)]
  · rw [if_neg hfree, if_pos (by simpa [IsFree] using hfree)]
    rfl

/-- Only what the attribute is called changes. -/
theorem exists_distinguish_eq (siblings : List Member) (m : Member) :
    ∃ name localName, m.distinguish siblings = { m with name := name, localName := localName } := by
  obtain ⟨localName, _, hdrop⟩ := exists_dropTakenLocalName_eq siblings m
  rw [distinguish_eq, hdrop]
  split
  · exact ⟨_, _, rfl⟩
  · split <;> exact ⟨_, _, rfl⟩

@[simp] theorem distinguish_id (siblings : List Member) (m : Member) :
    (m.distinguish siblings).id = m.id := by
  obtain ⟨name, localName, heq⟩ := exists_distinguish_eq siblings m
  rw [heq]

@[simp] theorem distinguish_kind (siblings : List Member) (m : Member) :
    (m.distinguish siblings).kind = m.kind := by
  obtain ⟨name, localName, heq⟩ := exists_distinguish_eq siblings m
  rw [heq]

@[simp] theorem distinguish_target (siblings : List Member) (m : Member) :
    (m.distinguish siblings).target = m.target := by
  obtain ⟨name, localName, heq⟩ := exists_distinguish_eq siblings m
  rw [heq]

@[simp] theorem distinguish_defects (siblings : List Member) (m : Member) :
    (m.distinguish siblings).defects = m.defects := by
  obtain ⟨name, localName, heq⟩ := exists_distinguish_eq siblings m
  rw [heq]

@[simp] theorem distinguish_isReference (siblings : List Member) (m : Member) :
    (m.distinguish siblings).isReference = m.isReference := by
  simp [Attribute.isReference]

@[simp] theorem distinguish_isOpen (siblings : List Member) (m : Member) :
    (m.distinguish siblings).isOpen = m.isOpen := by
  simp [Attribute.isOpen]

@[simp] theorem distinguish_isLost (siblings : List Member) (m : Member) :
    (m.distinguish siblings).isLost = m.isLost := by
  simp [Attribute.isLost]

theorem distinguish_localName (m : Member) (siblings : List Member) :
    (m.distinguish siblings).localName ∈
      [m.localName, none, some (Name.fallback m.id.number)] := by
  obtain ⟨localName, hlocal, hdrop⟩ := exists_dropTakenLocalName_eq siblings m
  rw [distinguish_eq, hdrop]
  split
  · exact List.mem_append_left [_] hlocal
  · split
    · simp
    · exact List.mem_append_left [_] hlocal

/-- A reference is kept apart from its siblings by its local name alone. -/
theorem exists_localName_of_distinguish (href : m.isReference) (siblings : List Member) :
    ∃ localName ∈ [m.localName, none, some (Name.fallback m.id.number)],
      m.distinguish siblings = { m with localName := localName } := by
  refine ⟨_, distinguish_localName m siblings, ?_⟩
  obtain ⟨localName, _, hdrop⟩ := exists_dropTakenLocalName_eq siblings m
  rw [distinguish_eq, if_pos href, hdrop]
  split <;> rfl

/-- A reference keeps its written name. -/
theorem distinguish_name (siblings : List Member) (href : m.isReference) :
    (m.distinguish siblings).name = m.name := by
  obtain ⟨localName, _, heq⟩ := exists_localName_of_distinguish href siblings
  rw [heq]

/-- An attribute other than a reference takes its fallback name only if a sibling has the
segment that it is left with. -/
theorem distinguish_name_of_not_isReference (href : m.isReference = false)
    (siblings : List Member) :
    (m.distinguish siblings).name =
      if ∀ s ∈ siblings, s.segment ≠ (m.dropTakenLocalName siblings).segment then m.name
      else Name.fallback m.id.number := by
  obtain ⟨localName, _, hdrop⟩ := exists_dropTakenLocalName_eq siblings m
  rw [distinguish_eq, if_neg (Bool.eq_false_iff.mp href), hdrop]
  split
  next hfree => exact (if_pos hfree).symm
  next htaken => exact (if_neg htaken).symm

/-! ### Free segments -/

theorem IsFree.distinguish_eq_self (hm : m.IsFree siblings) : m.distinguish siblings = m := by
  have hdrop := hm.dropTakenLocalName_eq_self
  rw [distinguish_eq, hdrop, if_pos hm]

theorem distinguish_nil (m : Member) : m.distinguish [] = m :=
  IsFree.distinguish_eq_self fun _ hs => absurd hs List.not_mem_nil

/-- An attribute is left with a free segment or with its fallback name, unless it has a local
name and is no reference: then the fallback name does not become its segment. -/
theorem isFree_distinguish_or_fallback (hlocal : m.localName.isSome → m.isReference)
    (siblings : List Member) :
    (m.distinguish siblings).IsFree siblings ∨
      (m.distinguish siblings).segment = Name.fallback m.id.number := by
  obtain ⟨localName, hmem, hdrop⟩ := exists_dropTakenLocalName_eq siblings m
  rw [distinguish_eq, hdrop]
  split
  next hfree => exact Or.inl hfree
  next =>
    right
    split
    next => rfl
    next href =>
      have hnone : localName = none := by
        have hbare : m.localName = none := by simpa using fun hsome => href (hlocal hsome)
        simpa [hbare] using hmem
      rw [hnone]
      rfl

/-- If no sibling has the fallback name, the attribute is left with a free segment. -/
theorem isFree_distinguish (hlocal : m.localName.isSome → m.isReference)
    (hfallback : ∀ s ∈ siblings, s.segment ≠ Name.fallback m.id.number) :
    (m.distinguish siblings).IsFree siblings := by
  rcases isFree_distinguish_or_fallback hlocal siblings with hfree | hsegment
  · exact hfree
  · intro s hs
    rw [hsegment]
    exact hfallback s hs

end Blueprint.Member
