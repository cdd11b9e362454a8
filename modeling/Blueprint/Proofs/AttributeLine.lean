import Blueprint.Attribute.Reader

/-! # What a line declares

Options and checks leave the name, the kind and the target of an attribute alone. So
an attribute that was read has no target yet, and nothing is said about the reference
it may be; it lacks a name only if that is noted.
-/

namespace Blueprint.Attribute

/-- Options say nothing about what the attribute is called and what it refers to. -/
theorem apply_frame (a : Attribute) (o : Setting) :
    (a.apply o).kind = a.kind ∧ (a.apply o).name = a.name ∧ (a.apply o).target = a.target ∧
      (a.apply o).defects = a.defects := by
  cases o with
  | unique =>
      simp only [apply, addUnique]
      split <;> exact ⟨rfl, rfl, rfl, rfl⟩
  | label name =>
      simp only [apply, addUnique]
      split <;> exact ⟨rfl, rfl, rfl, rfl⟩
  | _ => exact ⟨rfl, rfl, rfl, rfl⟩

theorem foldl_apply_frame (a : Attribute) (os : List Setting) :
    (os.foldl apply a).kind = a.kind ∧ (os.foldl apply a).name = a.name ∧
      (os.foldl apply a).target = a.target ∧ (os.foldl apply a).defects = a.defects := by
  induction os generalizing a with
  | nil => exact ⟨rfl, rfl, rfl, rfl⟩
  | cons o os ih =>
      obtain ⟨hkind, hname, htarget, hdefects⟩ := apply_frame a o
      obtain ⟨hkind', hname', htarget', hdefects'⟩ := ih (a.apply o)
      exact ⟨hkind'.trans hkind, hname'.trans hname, htarget'.trans htarget,
        hdefects'.trans hdefects⟩

theorem not_mem_boundDefects {α : Type} (read : String → Option α) (before : α → α → Bool)
    (min max : Option String) : .referenceInvalid ∉ boundDefects read before min max := by
  unfold boundDefects
  simp only [List.mem_append, not_or]
  refine ⟨⟨?_, ?_⟩, ?_⟩
  · split <;> simp
  · split <;> simp
  · split
    · split <;> simp
    · simp

theorem not_mem_rangeDefects (a : Attribute) : .referenceInvalid ∉ a.rangeDefects := by
  unfold rangeDefects
  split
  · split <;> simp
  · split
    · exact not_mem_boundDefects _ _ _ _
    · split
      · exact not_mem_boundDefects _ _ _ _
      · simp

theorem not_mem_sizeDefects (a : Attribute) : .referenceInvalid ∉ a.sizeDefects := by
  unfold sizeDefects
  split <;> simp

/-- The checks before the one of the default value. -/
def checks (a : Attribute) : Attribute :=
  a.settleSerial.checkRange.checkSize

theorem settle_eq (a : Attribute) : a.settle = a.checks.settleDefault :=
  rfl

theorem checks_frame (a : Attribute) :
    a.checks.kind = a.kind ∧ a.checks.name = a.name ∧ a.checks.target = a.target ∧
      (.referenceInvalid ∈ a.checks.defects ↔ .referenceInvalid ∈ a.defects) := by
  have hserial : a.settleSerial.kind = a.kind ∧ a.settleSerial.name = a.name ∧
      a.settleSerial.target = a.target ∧ a.settleSerial.defects = a.defects := by
    unfold settleSerial
    split <;> exact ⟨rfl, rfl, rfl, rfl⟩
  obtain ⟨hkind, hname, htarget, hdefects⟩ := hserial
  refine ⟨hkind, hname, htarget, ?_⟩
  simp [checks, checkSize, checkRange, note, hdefects, not_mem_rangeDefects, not_mem_sizeDefects]

theorem settle_frame {a b : Attribute} (h : a.settle = .ok b) :
    b.kind = a.kind ∧ b.name = a.name ∧ b.target = a.target ∧
      (.referenceInvalid ∈ b.defects ↔ .referenceInvalid ∈ a.defects) := by
  obtain ⟨hkind, hname, htarget, hdefects⟩ := checks_frame a
  rw [settle_eq] at h
  -- Only the default value is still to be checked, whatever the other checks found.
  generalize a.checks = c at *
  unfold settleDefault at h
  split at h
  next =>
    cases h
    exact ⟨hkind, hname, htarget, hdefects⟩
  next s _ =>
    cases haccept : acceptDefault c.kind c.maxSize? s with
    | error fault => rw [haccept] at h; cases h
    | ok accepted =>
        rw [haccept] at h
        cases accepted with
        | some value =>
            cases h
            exact ⟨hkind, hname, htarget, hdefects⟩
        | none =>
            cases h
            refine ⟨hkind, hname, htarget, ?_⟩
            simpa [clearDefault, note] using hdefects

theorem ofDeclaration_frame {decl : Declaration} {a : Attribute} (h : ofDeclaration decl = .ok a) :
    a.target = none ∧ .referenceInvalid ∉ a.defects ∧
      (a.name = "" → .identifierRequired ∈ a.defects) := by
  unfold ofDeclaration at h
  dsimp only at h
  -- What was read does not matter, only how far the checks get.
  generalize identifier decl.ident (Kind.ofText (Text.trim decl.kind)) = name at h
  generalize (decl.localName.map Name.normalize).filter (!·.isEmpty) = localName at h
  generalize Kind.ofText (Text.trim decl.kind) = kind at h
  split at h
  next =>
    cases h
    exact ⟨rfl, by simp [note], by simp [note]⟩
  next hname =>
    have hne : name ≠ "" := by simpa using hname
    split at h
    next =>
      cases h
      exact ⟨rfl, by simp [note], fun hempty => absurd hempty hne⟩
    next =>
      split at h
      next =>
        cases h
        exact ⟨rfl, by simp [note], fun hempty => absurd hempty hne⟩
      next =>
        obtain ⟨_, hname₁, htarget₁, hdefects₁⟩ := settle_frame h
        obtain ⟨_, hname₂, htarget₂, hdefects₂⟩ := foldl_apply_frame
          { name := name, localName := localName, kind := kind } (settings decl.options)
        refine ⟨htarget₁.trans htarget₂, ?_, fun hempty => absurd ?_ hne⟩
        · rw [hdefects₁, hdefects₂]
          simp
        · exact (hname₁.trans hname₂).symm.trans hempty

theorem ofLine_frame {line : String} {a : Attribute} (h : ofLine line = .ok a) :
    a.target = none ∧ .referenceInvalid ∉ a.defects ∧
      (a.name = "" → .identifierRequired ∈ a.defects) :=
  ofDeclaration_frame h

end Blueprint.Attribute
