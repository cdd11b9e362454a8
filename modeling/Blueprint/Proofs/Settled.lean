import Blueprint.Proofs.Declared
import Blueprint.Proofs.Values

/-! # Checks made again

The checks of an attribute only take bounds away, rewrite the default value and note what
is wrong. What they have rewritten they accept as it stands, and what they have found wrong
they find again, but for a rejected default value, which is gone. So an attribute in which
they find nothing wrong has passed them for good: made again, they leave it as it is.
-/

namespace Blueprint.Attribute

open Text

variable {a b : Attribute}

/-- What the checks before the one of the default value find wrong. -/
def findings (a : Attribute) : List Defect :=
  a.settleSerial.rangeDefects ++ a.settleSerial.sizeDefects

theorem checks_kind (a : Attribute) : a.checks.kind = a.kind :=
  (checks_frame a).1

theorem checks_unique (a : Attribute) : a.checks.unique = a.unique := by
  unfold checks settleSerial
  split <;> rfl

/-- The checks look neither at the default value nor at what was noted before. -/
theorem checks_update (a : Attribute) (value : Option String) (defects : List Defect) :
    checks { a with defaultValue := value, defects := defects } =
      { a.checks with defaultValue := value, defects := defects ++ a.findings } := by
  unfold checks findings settleSerial
  dsimp only
  split
  · simp [checkSize, checkRange, note, rangeDefects, sizeDefects, maxSize?]
  · simp [checkSize, checkRange, note, rangeDefects, sizeDefects, maxSize?]

theorem checks_defects (a : Attribute) : a.checks.defects = a.defects ++ a.findings :=
  congrArg defects (checks_update a a.defaultValue a.defects)

/-- A bit string has no lower bound. -/
theorem checks_bit (h : a.checks.kind = .bit) : a.checks.min = none := by
  unfold checks at h ⊢
  generalize a.settleSerial = c at h ⊢
  exact if_pos h

theorem settleSerial_checks (a : Attribute) : a.checks.settleSerial = a.checks := by
  have hkind : a.checks.kind = a.kind := a.checks_kind
  by_cases hserial : a.kind = .serial
  · have hsettled : a.settleSerial =
        { a with primary := true, required := true, min := none, max := none } := if_pos hserial
    rw [settleSerial, if_pos (hkind.trans hserial), checks, hsettled]
    simp [checkSize, checkRange, note]
  · exact if_neg fun h => hserial (hkind ▸ h)

theorem findings_checks (a : Attribute) : a.checks.findings = a.findings := by
  unfold findings
  rw [settleSerial_checks]
  unfold checks
  generalize a.settleSerial = c
  exact congrArg (· ++ c.sizeDefects) (rangeDefects_checkRange c)

/-- Made again, the checks note the same once more and change nothing else. -/
theorem checks_checks (a : Attribute) : a.checks.checks = a.checks.note a.findings := by
  have hmin : (if a.checks.kind = .bit then none else a.checks.min) = a.checks.min := by
    split
    next hkind => exact (checks_bit hkind).symm
    next => rfl
  have hfindings : a.checks.rangeDefects ++ a.checks.sizeDefects = a.findings := by
    rw [← findings_checks, findings, settleSerial_checks]
  have hagain : a.checks.checks = a.checks.checkRange.checkSize := by
    rw [checks, settleSerial_checks]
  rw [hagain, ← hfindings]
  -- Only the bounds and the defects that are there matter from here on.
  generalize a.checks = c at hmin
  rw [checkSize, checkRange, hmin]
  exact congrArg (fun ds => { c with defects := ds }) (List.append_assoc _ _ _)

/-! ### Default values -/

/-- The canonical form of a written default value is accepted as it stands. -/
theorem default_again {kind : Kind} {size : Option Nat} {written s v : String}
    (htrimmed : trimmed? written = some s) (haccept : acceptDefault kind size s = .ok (some v)) :
    trimmed? v = some v ∧ acceptDefault kind size v = .ok (some v) := by
  refine ⟨?_, acceptDefault_again haccept⟩
  rcases eq_or_isItem_of_acceptDefault haccept with rfl | ⟨hitem, _⟩
  · obtain ⟨rfl, hne⟩ := trimmed?_eq_some_iff.mp htrimmed
    exact trimmed?_eq_some_iff.mpr ⟨trim_trim written, hne⟩
  · exact hitem.trimmed?_eq

/-- The last check keeps everything but the default value, unless it rejects that. -/
theorem settleDefault_cases (h : a.settleDefault = .ok b) :
    (∃ value, b = { a with defaultValue := value } ∧
      ∀ v, value = some v → ∃ s, a.defaultValue.bind trimmed? = some s ∧
        acceptDefault a.kind a.maxSize? s = .ok (some v)) ∨
      b = a.clearDefault.note [.defaultMalformed] := by
  unfold settleDefault at h
  split at h
  next =>
    cases h
    exact Or.inl ⟨none, rfl, by simp⟩
  next s hs =>
    obtain ⟨accepted, haccept, rfl⟩ := exists_of_map_eq_ok h
    cases accepted with
    | some value =>
        refine Or.inl ⟨some value, rfl, ?_⟩
        rintro _ ⟨⟩
        exact ⟨s, hs, haccept⟩
    | none => exact Or.inr rfl

theorem settleDefault_none (h : a.defaultValue = none) : a.settleDefault = .ok a := by
  rw [settleDefault, h]
  exact congrArg (fun value => Except.ok { a with defaultValue := value }) h.symm

theorem settleDefault_again {v : String} (h : a.defaultValue = some v)
    (htrimmed : trimmed? v = some v) (haccept : acceptDefault a.kind a.maxSize? v = .ok (some v)) :
    a.settleDefault = .ok a := by
  rw [settleDefault, h, Option.bind_some, htrimmed]
  dsimp only
  rw [haccept]
  exact congrArg (fun value => Except.ok { a with defaultValue := value }) h.symm

/-! ### All checks -/

/-- What the checks leave, whether they find something wrong or not. -/
theorem settle_result (h : a.settle = .ok b) :
    (∃ value, b = { a.checks with defaultValue := value } ∧
      ∀ v, value = some v → ∃ s, a.defaultValue.bind trimmed? = some s ∧
        acceptDefault a.checks.kind a.checks.maxSize? s = .ok (some v)) ∨
      b = a.checks.clearDefault.note [.defaultMalformed] := by
  have hvalue : a.checks.defaultValue = a.defaultValue := (checks_bounds a).2.2.1
  rw [← hvalue]
  exact settleDefault_cases h

theorem settle_cases (h : a.settle = .ok b) (hclean : b.defects = []) :
    a.checks.defects = [] ∧ ∃ value, b = { a.checks with defaultValue := value } ∧
      ∀ v, value = some v → ∃ s, a.defaultValue.bind trimmed? = some s ∧
        acceptDefault a.checks.kind a.checks.maxSize? s = .ok (some v) := by
  rcases settle_result h with ⟨value, rfl, hvalue⟩ | rfl
  · exact ⟨hclean, value, rfl, hvalue⟩
  · simp [clearDefault, note] at hclean

/-- Made again without what was noted, the checks change nothing and note what the first ones
found wrong, except for a default value they rejected. -/
theorem settle_again (h : a.settle = .ok b) :
    settle { b with defects := [] } = .ok { b with defects := a.findings } := by
  have hupdate := fun value => checks_update a.checks value []
  rw [checks_checks, findings_checks] at hupdate
  have hresult := settle_result h
  generalize a.checks = c at hupdate hresult
  have hsettle : ∀ value, settle { c with defaultValue := value, defects := [] } =
      settleDefault { c with defaultValue := value, defects := a.findings } :=
    fun value => congrArg settleDefault (hupdate value)
  rcases hresult with ⟨value, rfl, hvalue⟩ | rfl
  · refine (hsettle value).trans ?_
    cases value with
    | none => exact settleDefault_none rfl
    | some v =>
        obtain ⟨s, hs, haccept⟩ := hvalue v rfl
        obtain ⟨written, _, htrimmed⟩ := Option.bind_eq_some_iff.mp hs
        obtain ⟨htrimmed', haccept'⟩ := default_again htrimmed haccept
        exact settleDefault_again rfl htrimmed' haccept'
  · exact (hsettle none).trans (settleDefault_none rfl)

theorem findings_eq_nil (h : a.settle = .ok b) (hclean : b.defects = []) : a.findings = [] := by
  have hchecks := (settle_cases h hclean).1
  rw [checks_defects] at hchecks
  exact (List.append_eq_nil_iff.mp hchecks).2

/-- An attribute that has passed the checks passes them again, as it is. -/
theorem settle_settle (h : a.settle = .ok b) (hclean : b.defects = []) : b.settle = .ok b := by
  have hagain := settle_again h
  rwa [findings_eq_nil h hclean, ← hclean] at hagain

theorem settle_range (h : a.settle = .ok b) (hclean : b.defects = []) :
    (∀ s, b.min = some s → a.min = some s) ∧ (∀ s, b.max = some s → a.max = some s) ∧
      b.unique = a.unique := by
  obtain ⟨hmin, hmax, _⟩ := checks_bounds a
  obtain ⟨_, value, rfl, _⟩ := settle_cases h hclean
  exact ⟨hmin, hmax, checks_unique a⟩

end Blueprint.Attribute
