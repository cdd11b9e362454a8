import Blueprint.Proofs.Reprinting

/-! # Attributes as they are read

Reading stops at a missing identifier or kind, and the attribute then has that one defect
and nothing that options set. Any other attribute has been through the checks of its kind,
and it is stable under them: made again they leave every field as it is and find wrong what
they found before. Only a default value that they rejected is gone and not reported again.
-/

namespace Blueprint.Attribute

open Text

variable {a b : Attribute}

/-- Whether reading stopped before the options were looked at. -/
structure IsUnread (a : Attribute) : Prop where
  kind : a.kind = .unknown
  defects : ∃ stop ∈ [Defect.identifierRequired, .kindRequired, .kindInvalid], a.defects = [stop]
  flags : a.primary = false ∧ a.required = false
  range : a.min = none ∧ a.max = none
  defaultValue : a.defaultValue = none
  unique : a.unique = []

/-- Whether an attribute is in the form that the checks of its kind leave it in. -/
structure IsStable (a : Attribute) : Prop where
  kind : a.kind ≠ .unknown
  serial : a.kind = .serial → a.primary ∧ a.required ∧ a.min = none ∧ a.max = none
  reference : a.kind = .reference → a.defaultValue = none
  bit : a.kind = .bit → a.min = none
  labels : a.unique.Nodup ∧ "" ∉ a.unique
  defects : a.defects.Nodup ∧ .referenceInvalid ∉ a.defects
  /-- The checks, made again with nothing noted yet. -/
  again : settle { a with defects := [] } =
    .ok { a with defects := a.defects.filter (· ≠ .defaultMalformed) }

/-! ### What the checks find -/

theorem boundDefects_sublist {α : Type} (read : String → Option α) (before : α → α → Bool)
    (min max : Option String) :
    (boundDefects read before min max).Sublist [.minMalformed, .maxMalformed, .maxUnderMin] := by
  unfold boundDefects
  rw [List.append_assoc]
  refine List.Sublist.append (?_ : List.Sublist _ [Defect.minMalformed])
    (List.Sublist.append (?_ : List.Sublist _ [Defect.maxMalformed]) ?_)
  · split <;> simp
  · split <;> simp
  · split
    · split <;> simp
    · simp

theorem rangeDefects_sublist (a : Attribute) :
    a.rangeDefects.Sublist [.minMalformed, .maxMalformed, .maxUnderMin] := by
  unfold rangeDefects
  split
  · split <;> simp
  split
  · exact boundDefects_sublist _ _ _ _
  split
  · exact boundDefects_sublist _ _ _ _
  · simp

theorem sizeDefects_sublist (a : Attribute) :
    a.sizeDefects.Sublist [.maxLengthRequired, .bitSizeRequired] := by
  unfold sizeDefects
  split <;> simp

/-- The findings stand in a fixed order, each at most once. -/
theorem findings_sublist (a : Attribute) :
    a.findings.Sublist [.minMalformed, .maxMalformed, .maxUnderMin, .maxLengthRequired,
      .bitSizeRequired] :=
  (rangeDefects_sublist _).append (sizeDefects_sublist _)

/-- What is noted in the end: the findings, and a default value if it was rejected. -/
theorem settle_defects (h : a.settle = .ok b) :
    b.defects = a.defects ++ a.findings ∨
      b.defects = a.defects ++ a.findings ++ [.defaultMalformed] := by
  have hresult := settle_result h
  have hdefects := checks_defects a
  generalize a.checks = c at hresult hdefects
  rw [← hdefects]
  rcases hresult with ⟨value, rfl, _⟩ | rfl
  · exact Or.inl rfl
  · exact Or.inr rfl

theorem settle_fields (h : a.settle = .ok b) :
    b.kind = a.checks.kind ∧ b.unique = a.checks.unique ∧ b.primary = a.checks.primary ∧
      b.required = a.checks.required ∧ b.min = a.checks.min ∧ b.max = a.checks.max := by
  have hresult := settle_result h
  generalize a.checks = c at hresult
  rcases hresult with ⟨value, rfl, _⟩ | rfl
  · exact ⟨rfl, rfl, rfl, rfl, rfl, rfl⟩
  · exact ⟨rfl, rfl, rfl, rfl, rfl, rfl⟩

theorem checks_serial (h : a.kind = .serial) :
    a.checks.primary ∧ a.checks.required ∧ a.checks.min = none ∧ a.checks.max = none := by
  have hsettled : a.settleSerial =
      { a with primary := true, required := true, min := none, max := none } := if_pos h
  rw [checks, hsettled]
  simp [checkSize, checkRange, note]

/-- A reference accepts no default value. -/
theorem defaultValue_of_reference (h : a.settle = .ok b) (href : a.kind = .reference) :
    b.defaultValue = none := by
  have hkind : a.checks.kind = .reference := a.checks_kind.trans href
  have hresult := settle_result h
  generalize a.checks = c at hkind hresult
  rcases hresult with ⟨value, rfl, hvalue⟩ | rfl
  · cases value with
    | none => rfl
    | some v =>
        obtain ⟨s, _, haccept⟩ := hvalue v rfl
        rw [hkind] at haccept
        cases haccept
  · rfl

/-- What has been through the checks is stable, if its labels are in order. -/
theorem isStable_of_settle (h : a.settle = .ok b) (hkind : a.kind ≠ .unknown)
    (hclean : a.defects = []) (hlabels : a.unique.Nodup ∧ "" ∉ a.unique) : b.IsStable := by
  obtain ⟨hchecks, hunique, hprimary, hrequired, hmin, hmax⟩ := settle_fields h
  have hkind' : b.kind = a.kind := hchecks.trans a.checks_kind
  have hdefects := settle_defects h
  rw [hclean, List.nil_append] at hdefects
  have hsublist := findings_sublist a
  have hfilter : b.defects.filter (· ≠ .defaultMalformed) = a.findings := by
    have hkept : a.findings.filter (· ≠ .defaultMalformed) = a.findings := by
      refine List.filter_eq_self.mpr fun found hfound => ?_
      have hother : ∀ other ∈ [Defect.minMalformed, .maxMalformed, .maxUnderMin,
          .maxLengthRequired, .bitSizeRequired], decide (other ≠ .defaultMalformed) := by decide
      exact hother found (hsublist.subset hfound)
    rcases hdefects with hdefects | hdefects
    · rw [hdefects, hkept]
    · rw [hdefects, List.filter_append, hkept]
      simp
  have hall : b.defects.Sublist [.minMalformed, .maxMalformed, .maxUnderMin, .maxLengthRequired,
      .bitSizeRequired, .defaultMalformed] := by
    rcases hdefects with hdefects | hdefects
    · rw [hdefects]
      exact hsublist.trans (by decide)
    · rw [hdefects]
      exact hsublist.append (List.Sublist.refl [Defect.defaultMalformed])
  exact
    { kind := hkind' ▸ hkind
      serial := fun hserial => by
        rw [hprimary, hrequired, hmin, hmax]
        exact checks_serial (hkind' ▸ hserial)
      reference := fun href => defaultValue_of_reference h (hkind' ▸ href)
      bit := fun hbit => hmin.trans (checks_bit (hchecks ▸ hbit))
      labels := by rwa [hunique, checks_unique]
      defects := ⟨hall.nodup (by decide), fun hmem => absurd (hall.subset hmem) (by decide)⟩
      again := by rw [hfilter]; exact settle_again h }

/-! ### What was read -/

theorem isUnread_note (name : String) (localName : Option String) {stop : Defect}
    (hstop : stop ∈ [Defect.identifierRequired, .kindRequired, .kindInvalid]) :
    (note { name := name, localName := localName } [stop]).IsUnread :=
  ⟨rfl, ⟨stop, hstop, rfl⟩, ⟨rfl, rfl⟩, ⟨rfl, rfl⟩, rfl, rfl⟩

/-- Reading stops early or ends with the checks. -/
theorem ofDeclaration_cases {d : Declaration} (h : ofDeclaration d = .ok a) :
    a.IsUnread ∨ Kind.ofText (trim d.kind) ≠ .unknown ∧ d.spelled.settle = .ok a := by
  unfold ofDeclaration at h
  dsimp only at h
  split at h
  · cases h
    exact Or.inl (isUnread_note _ _ (by decide))
  split at h
  · cases h
    exact Or.inl (isUnread_note _ _ (by decide))
  split at h
  · cases h
    exact Or.inl (isUnread_note _ _ (by decide))
  next hkind => exact Or.inr ⟨hkind, h⟩

theorem spelled_frame (d : Declaration) :
    d.spelled.kind = Kind.ofText (trim d.kind) ∧ d.spelled.defects = [] := by
  unfold Declaration.spelled
  generalize (d.localName.map Name.normalize).filter (!·.isEmpty) = localName
  generalize identifier d.ident (Kind.ofText (trim d.kind)) = name
  generalize Kind.ofText (trim d.kind) = kind
  obtain ⟨hkind, _, _, hdefects⟩ := foldl_apply_frame
    { kind := kind, name := name, localName := localName } (settings d.options)
  exact ⟨hkind, hdefects⟩

theorem spelled_labels (d : Declaration) :
    d.spelled.unique.Nodup ∧ "" ∉ d.spelled.unique := by
  have hname := isWordChar_identifier d.ident (Kind.ofText (trim d.kind))
  have hlocal := fun s => @isWord_of_filter d.localName s
  unfold Declaration.spelled
  generalize (d.localName.map Name.normalize).filter (!·.isEmpty) = localName at hlocal ⊢
  generalize identifier d.ident (Kind.ofText (trim d.kind)) = name at hname ⊢
  generalize Kind.ofText (trim d.kind) = kind
  have hlegible := @legible_settings kind name localName hname hlocal d.options
  exact ⟨hlegible.nodup, fun hmem => (hlegible.labels "" hmem).1.ne_empty rfl⟩

/-- Whatever a line holds, the attribute read from it lacks a kind and everything that options
set, for one defect that stopped the reading, or the checks leave it as it is and find the same
defects again, in the same order, but for a rejected default value. -/
theorem ofLine_unread_or_stable {line : String} (h : ofLine line = .ok a) :
    a.IsUnread ∨ a.IsStable := by
  rcases ofDeclaration_cases h with hunread | ⟨hkind, hsettle⟩
  · exact Or.inl hunread
  · obtain ⟨hspelled, hclean⟩ := spelled_frame (Declaration.ofText (lineBody line))
    exact Or.inr (isStable_of_settle hsettle (hspelled.trans_ne hkind) hclean (spelled_labels _))

/-- A bit string whose size cannot be read, with a default value that was rewritten. -/
def mask : Attribute where
  kind := .bit
  name := "mask"
  max := some "x"
  defaultValue := some "1100"
  unique := ["mask"]
  defects := [.maxMalformed]

theorem ofLine_unread_or_stable_mask :
    ofLine "- mask as bit with 4..x, u, d:12" = .ok mask ∧ mask.IsStable := by
  have hread : ofLine "- mask as bit with 4..x, u, d:12" = .ok mask := by decide +kernel
  rcases ofLine_unread_or_stable hread with hunread | hstable
  · exact absurd hunread.kind (by decide)
  · exact ⟨hread, hstable⟩

end Blueprint.Attribute
