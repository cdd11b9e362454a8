import Blueprint.Proofs.Spelling
import Blueprint.Proofs.Stability
import Blueprint.Proofs.Succession

/-! # Attributes of written documents

Attributes come from lines, whatever edits do to them later. So they are called by characters of
names, unless they are references, and a kind that could not be read is noted on them for good. A
valid column therefore has a plain name and stores a kind that is known.
-/

namespace Blueprint

namespace Attribute

variable {a : Attribute}

/-- What holds of an attribute that was read from a line, also after edits. -/
structure Described (a : Attribute) : Prop where
  named : a.Named
  unknown : a.kind = .unknown → ∃ defect ∈ a.defects, defect ≠ .referenceInvalid

theorem ofLine_described {line : String} (h : ofLine line = .ok a) : a.Described := by
  refine ⟨ofLine_named h, fun hkind => ?_⟩
  rcases ofDeclaration_cases h with hunread | ⟨hknown, hsettle⟩
  · obtain ⟨stop, hstop, hdefects⟩ := hunread.defects
    refine ⟨stop, by simp [hdefects], ?_⟩
    rintro rfl
    simp at hstop
  · rw [(settle_frame hsettle).1, (spelled_frame _).1] at hkind
    exact absurd hkind hknown

end Attribute

namespace Member

variable {m m' : Member}

theorem described_distinguish (hm : m.Described) (siblings : List Member) :
    (m.distinguish siblings).Described :=
  ⟨named_distinguish hm.named siblings, by simpa using hm.unknown⟩

end Member

namespace Document

variable {d next : Document} {e : Edit} {answer : Answer} {m m' : Member}

/-- A name that an entity goes by has no line end. -/
theorem PlainNames.not_mem_newline_of_denotes (hd : d.PlainNames) {name : String} {t : EntityId}
    (h : d.Denotes name t) : '\n' ∉ name.toList := by
  obtain ⟨s, hs, e, he, _, rfl | rfl⟩ := h
  · exact ((hd s hs).2 e he).not_mem_newline
  · simp [(hd s hs).1.not_mem_newline, ((hd s hs).2 e he).not_mem_newline]

/-- An attribute that is not written anew stays described. -/
theorem Sound.described_of_carries (hnext : next.Sound) (hm' : m' ∈ next.members)
    (h : m.Carries m') (hm : m.Described) : m'.Described := by
  obtain ⟨⟨hlocal, hname, hline⟩, hunknown⟩ := hm
  have hdenotes := (hnext.settled m' hm').denotes
  refine ⟨⟨fun s hs => ?_, fun href => ?_, ?_⟩, fun hkind => ?_⟩
  · have hmem := h.localName
    simp only [hs, List.mem_cons, List.not_mem_nil, or_false] at hmem
    rcases hmem with hold | hnone | hfallback
    · exact hlocal s hold.symm
    · cases hnone
    · exact Option.some.inj hfallback ▸ Name.fallback_isPlain _
  · have htarget : m'.target = none := by
      rw [Option.eq_none_iff_forall_ne_some]
      intro t ht
      exact absurd ((hdenotes t ht).1.symm.trans href) (by decide)
    rw [h.name htarget]
    exact hname (h.reference.symm.trans href)
  · cases htarget : m'.target with
    | none => exact h.name htarget ▸ hline
    | some t => exact hnext.plain.not_mem_newline_of_denotes (hdenotes t htarget).2
  · obtain ⟨defect, hmem, hother⟩ := hunknown (h.kind.symm.trans hkind)
    exact ⟨defect, h.defects defect hmem hother, hother⟩

theorem described_of_source (hd : ∀ m ∈ d.members, m.Described) (hsource : d.Source e m) :
    m.Described := by
  cases hsource with
  | kept hm _ => exact hd m hm
  | added ha _ siblings =>
      have ha := Attribute.ofLine_described ha
      exact Member.described_distinguish ⟨named_nextMember ha.named, ha.unknown⟩ siblings
  | replaced _ _ ha =>
      have ha := Attribute.ofLine_described ha
      exact Member.described_distinguish ⟨ha.named, ha.unknown⟩ _
  | @pointed old hold target =>
      refine ⟨⟨(hd old hold).named.localName, fun href => ?_, ?_⟩, fun hkind => ?_⟩
      · cases href
      · exact Attribute.not_mem_newline_text target
      · cases hkind

theorem Sound.described_step (hd : d.Sound) (hdescribed : ∀ m ∈ d.members, m.Described)
    (hstep : Step d e next answer) (hwritten : e.isWritten) :
    ∀ m ∈ next.members, m.Described := by
  intro m' hm'
  obtain ⟨m, hsource, hcarries⟩ := hd.exists_source hstep hwritten hm'
  exact (hd.step hstep hwritten).described_of_carries hm' hcarries
    (described_of_source hdescribed hsource)

/-- Every line of a document keeps its attributes described. -/
theorem keeps_described : Cursor.Keeps fun d => ∀ m ∈ d.members, m.Described where
  schema d name hmembers := by
    rwa [members, entities_addSchema]
  entity d id name hmembers := by
    rwa [members_placeEntity]
  attr d id line a hhandles _ ha hmembers := by
    intro m hm
    rcases hhandles.mem_members_attached hm with hold | ⟨siblings, rfl⟩
    · exact hmembers m hold
    · have ha := Attribute.ofLine_described ha
      exact Member.described_distinguish ⟨named_nextMember ha.named, ha.unknown⟩ siblings

theorem IsOrigin.described (hd : d.IsOrigin) : ∀ m ∈ d.members, m.Described := by
  have hsound := hd.sound
  cases hd with
  | empty maxDepth => exact fun _ hm => absurd hm List.not_mem_nil
  | read hread =>
      obtain ⟨c, _, hmembers, rfl⟩ := exists_reading_of keeps_described
        (fun _ hm => absurd hm List.not_mem_nil) hread
      intro m' hm'
      obtain ⟨m, hm, hcarries⟩ :=
        Carried.resolveReferences (carried_of_subset (List.Subset.refl _)) m' hm'
      exact hsound.described_of_carries hm' hcarries (hmembers m hm)

/-- Every attribute is described after any run of written edits. -/
theorem IsOrigin.described_run (hd : d.IsOrigin) {es : List Edit}
    (hes : ∀ e ∈ es, e.isWritten) :
    (d.run es).Sound ∧ ∀ m ∈ (d.run es).members, m.Described :=
  run_induction (motive := fun d => d.Sound ∧ ∀ m ∈ d.members, m.Described)
    (fun _ _ _ _ h hwritten hedit =>
      ⟨h.1.step (Step.of_edit hedit) hwritten,
        h.1.described_step h.2 (Step.of_edit hedit) hwritten⟩)
    ⟨hd.sound, hd.described⟩ hes

/-! ### Columns -/

variable {entity : EntityId} {c : Column}

theorem mem_validColumns_iff : c ∈ d.validColumns entity ↔ .valid c ∈ d.fields entity := by
  rw [validColumns, List.mem_filterMap]
  constructor
  · rintro ⟨field, hfield, hcolumn⟩
    cases field with
    | valid c' => exact Option.some.inj hcolumn ▸ hfield
    | invalid name defects => cases hcolumn
  · exact fun hfield => ⟨_, hfield, rfl⟩

/-- A valid column has a plain name and stores a kind of values. -/
theorem Sound.of_mem_validColumns (hd : d.Sound) (hdescribed : ∀ m ∈ d.members, m.Described)
    (hc : c ∈ d.validColumns entity) :
    Name.IsPlain c.name ∧ c.storageKind ≠ .unknown ∧ c.storageKind ≠ .reference := by
  rw [hd.handles.validColumns_eq] at hc
  obtain ⟨hcolumn, hvalid⟩ := List.mem_filter.mp hc
  obtain ⟨hmember, hplain, _⟩ := way_of_mem_columnsFrom hcolumn
  have hclean : c.terminal.defects = [] := by
    simpa [Column.isValid, Attribute.hasDefect] using (Bool.and_eq_true_iff.mp hvalid).2
  refine ⟨hd.isPlain_name (fun m hm => (hdescribed m hm).named) hcolumn, ?_, ?_⟩
  · unfold Column.storageKind Kind.stored
    split
    · decide
    · intro hkind
      obtain ⟨defect, hmem, _⟩ := (hdescribed _ hmember).unknown hkind
      simp [hclean] at hmem
  · unfold Column.storageKind Kind.stored
    split
    · decide
    · simpa [Attribute.isReference] using hplain

end Document

end Blueprint
