import Blueprint.Proofs.Lines
import Blueprint.Proofs.Reading

/-! # Declared attributes

Bounds and default values are pieces of a line, so they hold no line end. An attribute
without a defect has bounds of its kind and a default value in canonical form, and what
it is called is plain unless it is a reference. Nothing that happens to an attribute
while its document is read changes that.
-/

namespace Blueprint.Text

/-! ### Pieces of a text -/

namespace Chars

theorem trim_subset (cs : List Char) : trim cs ⊆ cs := by
  intro c hc
  have hstart := List.dropWhile_subset _ (List.mem_reverse.mp hc)
  exact List.dropWhile_subset _ (List.mem_reverse.mp hstart)

/-- The pieces between the occurrences of a character do not hold it, and hold nothing else
than the text. -/
theorem of_mem_splitOn {mark : Char} {cs piece : List Char} (hpiece : piece ∈ cs.splitOn mark) :
    mark ∉ piece ∧ piece ⊆ cs := by
  induction cs generalizing piece with
  | nil =>
      obtain rfl := List.mem_singleton.mp hpiece
      simp
  | cons c cs ih =>
      rw [List.splitOn_cons_eq_if_modifyHead] at hpiece
      split at hpiece
      next =>
        rcases List.mem_cons.mp hpiece with rfl | hpiece
        · simp
        · exact ⟨(ih hpiece).1, List.subset_cons_of_subset c (ih hpiece).2⟩
      next hc =>
        cases hrest : cs.splitOn mark with
        | nil => exact absurd hrest (List.splitOn_ne_nil mark cs)
        | cons first more =>
            rw [hrest, List.modifyHead_cons] at hpiece
            rcases List.mem_cons.mp hpiece with rfl | hpiece
            · obtain ⟨hmark, hsubset⟩ := ih (hrest ▸ List.mem_cons_self)
              refine ⟨?_, List.cons_subset_cons c hsubset⟩
              simpa [hmark] using fun h : mark = c => hc (by simp [h])
            · obtain ⟨hmark, hsubset⟩ := ih (hrest ▸ List.mem_cons_of_mem _ hpiece)
              exact ⟨hmark, List.subset_cons_of_subset c hsubset⟩

theorem stripEnd?_subset {tail cs rest : List Char} (h : stripEnd? tail cs = some rest) :
    rest ⊆ cs := by
  obtain ⟨_, ⟨⟩⟩ := Option.ite_none_right_eq_some.mp h
  exact List.take_subset _ _

theorem not_mem_of_mem_lines {cs l : List Char} (hl : l ∈ lines cs) : '\n' ∉ l := by
  unfold lines at hl
  rcases List.mem_append.mp hl with hl | hl
  · obtain ⟨piece, hpiece, rfl⟩ := List.mem_map.mp hl
    have hnot := (of_mem_splitOn (List.dropLast_subset _ hpiece)).1
    cases hstrip : stripEnd? ['\r'] piece with
    | none => exact hnot
    | some rest => exact fun hmem => hnot (stripEnd?_subset hstrip hmem)
  · have hlast := Option.mem_toList.mp (List.mem_filter.mp hl).1
    exact (of_mem_splitOn (List.mem_of_getLast? hlast)).1

end Chars

theorem trim_subset (s : String) : (trim s).toList ⊆ s.toList := by
  rw [trim, String.toList_ofList]
  exact Chars.trim_subset _

theorem trimStart_subset (s : String) : (trimStart s).toList ⊆ s.toList := by
  rw [trimStart, String.toList_ofList]
  exact List.dropWhile_subset _

theorem eq_trim_of_trimmed? {s t : String} (h : trimmed? s = some t) : t = trim s := by
  unfold trimmed? at h
  dsimp only at h
  split at h
  · cases h
  · exact (Option.some.inj h).symm

theorem cut?_subset {mark s before after : String} (h : cut? mark s = some (before, after)) :
    before.toList ⊆ s.toList ∧ after.toList ⊆ s.toList := by
  rw [eq_of_cut?_eq_some h]
  simp only [String.toList_append]
  constructor <;> intro c hc <;> simp [hc]

theorem stripStart?_subset {head s rest : String} (h : stripStart? head s = some rest) :
    rest.toList ⊆ s.toList := by
  rw [stripStart?_eq_some_iff.mp h, String.toList_append]
  exact List.subset_append_right _ _

theorem stripEnd?_subset {tail s rest : String} (h : stripEnd? tail s = some rest) :
    rest.toList ⊆ s.toList := by
  obtain ⟨cs, hcs, rfl⟩ := Option.map_eq_some_iff.mp h
  rw [String.toList_ofList]
  exact Chars.stripEnd?_subset hcs

theorem splitOn_subset {mark : Char} {s piece : String} (h : piece ∈ splitOn mark s) :
    piece.toList ⊆ s.toList := by
  obtain ⟨cs, hcs, rfl⟩ := List.mem_map.mp h
  rw [String.toList_ofList]
  exact (Chars.of_mem_splitOn hcs).2

theorem not_mem_of_mem_lines {source l : String} (hl : l ∈ lines source) : '\n' ∉ l.toList := by
  obtain ⟨cs, hcs, rfl⟩ := List.mem_map.mp hl
  rw [String.toList_ofList]
  exact Chars.not_mem_of_mem_lines hcs

end Blueprint.Text

namespace Blueprint.Attribute

open Text

variable {a b : Attribute} {cs : List Char}

/-! ### Options -/

theorem cutOptions_subset (s : String) : (cutOptions s).2.toList ⊆ s.toList := by
  unfold cutOptions
  dsimp only
  split
  next hcut => exact List.Subset.trans (cut?_subset hcut).2 (trim_subset s)
  next =>
    split
    next hstrip => exact List.Subset.trans (stripStart?_subset hstrip) (trim_subset s)
    next => split <;> simp

theorem options_subset (body : String) :
    (Declaration.ofText body).options.toList ⊆ body.toList := by
  unfold Declaration.ofText
  split
  next rest hrest =>
    have hbody := stripStart?_subset hrest
    split
    next target after hcut =>
      dsimp only
      exact List.Subset.trans (cutOptions_subset after)
        (List.Subset.trans (cut?_subset hcut).2 hbody)
    next =>
      dsimp only
      exact List.Subset.trans (cutOptions_subset rest) hbody
  next =>
    dsimp only
    refine List.Subset.trans (cutOptions_subset _) ?_
    cases hcut : cut? Line.asMark body with
    | none => simp
    | some parts => exact (cut?_subset hcut).2

theorem lineBody_subset (line : String) : (lineBody line).toList ⊆ line.toList := by
  refine List.Subset.trans (trimStart_subset _) (List.Subset.trans ?_ (trim_subset line))
  cases hstrip : stripStart? Line.attributeMark (trim line) with
  | none => exact List.Subset.refl _
  | some rest => exact stripStart?_subset hstrip

theorem ofText_range {s : String} {min max : Option String}
    (h : Setting.ofText s = .range min max) {bound : String}
    (hbound : min = some bound ∨ max = some bound) :
    trim bound = bound ∧ bound.toList ⊆ s.toList := by
  have hpiece : ∀ {piece : String}, piece.toList ⊆ s.toList → trimmed? piece = some bound →
      trim bound = bound ∧ bound.toList ⊆ s.toList := by
    intro piece hsubset htrimmed
    rw [eq_trim_of_trimmed? htrimmed]
    exact ⟨trim_trim piece, List.Subset.trans (trim_subset piece) hsubset⟩
  unfold Setting.ofText at h
  dsimp only at h
  split at h
  · cases h
  split at h
  · cases h
  split at h
  · cases h
  split at h
  next before after hcut =>
    obtain ⟨rfl, rfl⟩ := Setting.range.inj h
    rcases hbound with hmin | hmax
    · exact hpiece (cut?_subset hcut).1 hmin
    · exact hpiece (cut?_subset hcut).2 hmax
  next =>
    split at h
    · split at h
      · cases h
      · split at h <;> cases h
    · cases h

theorem ofText_defaultValue {s value : String} (h : Setting.ofText s = .defaultValue value) :
    value.toList ⊆ s.toList := by
  unfold Setting.ofText at h
  dsimp only at h
  split at h
  · cases h
  split at h
  · cases h
  split at h
  · cases h
  split at h
  · cases h
  split at h
  next head written hcut =>
    split at h
    · cases h
    · split at h
      · obtain rfl := Setting.defaultValue.inj h
        exact List.Subset.trans (trim_subset written) (cut?_subset hcut).2
      · cases h
  next => cases h

/-- Whether the bounds and the default value of an attribute are made of the given characters. -/
structure WrittenIn (cs : List Char) (a : Attribute) : Prop where
  bounds : ∀ s, a.min = some s ∨ a.max = some s → trim s = s ∧ s.toList ⊆ cs
  value : ∀ s, a.defaultValue = some s → s.toList ⊆ cs

theorem WrittenIn.addUnique (ha : a.WrittenIn cs) (label : String) :
    (a.addUnique label).WrittenIn cs := by
  unfold Attribute.addUnique
  split <;> exact ⟨ha.bounds, ha.value⟩

theorem WrittenIn.apply (ha : a.WrittenIn cs) {s : String} (hs : s.toList ⊆ cs) :
    (a.apply (.ofText s)).WrittenIn cs := by
  cases hsetting : Setting.ofText s with
  | range min max =>
      refine ⟨fun bound hbound => ?_, ha.value⟩
      obtain ⟨htrim, hsubset⟩ := ofText_range hsetting hbound
      exact ⟨htrim, List.Subset.trans hsubset hs⟩
  | defaultValue value =>
      refine ⟨ha.bounds, ?_⟩
      rintro _ ⟨⟩
      exact List.Subset.trans (ofText_defaultValue hsetting) hs
  | unique => exact ha.addUnique _
  | label name => exact ha.addUnique _
  | primary => exact ⟨ha.bounds, ha.value⟩
  | required => exact ⟨ha.bounds, ha.value⟩
  | ignored => exact ha

theorem WrittenIn.foldl (ha : a.WrittenIn cs) {options : List String}
    (hoptions : ∀ s ∈ options, s.toList ⊆ cs) :
    ((options.map Setting.ofText).foldl Attribute.apply a).WrittenIn cs := by
  induction options generalizing a with
  | nil => exact ha
  | cons s options ih =>
      obtain ⟨hs, hoptions⟩ := List.forall_mem_cons.mp hoptions
      exact ih (ha.apply hs) hoptions

theorem writtenIn_settings {kind : Kind} {name : String} {localName : Option String}
    (options : String) :
    ((settings options).foldl Attribute.apply
      { kind := kind, name := name, localName := localName }).WrittenIn options.toList := by
  refine WrittenIn.foldl ⟨by simp, by simp⟩ ?_
  intro s hs
  obtain ⟨piece, hpiece, htrimmed⟩ := List.mem_filterMap.mp hs
  rw [eq_trim_of_trimmed? htrimmed]
  exact List.Subset.trans (trim_subset piece) (splitOn_subset hpiece)

/-! ### Checks -/

/-- What holds of an attribute that was read from one line, unless it has a defect. -/
structure Checked (a : Attribute) : Prop where
  range : a.rangeDefects = []
  bounds : ∀ s, a.min = some s ∨ a.max = some s → trim s = s ∧ '\n' ∉ s.toList
  /-- The default value is the canonical form of an acceptable text. -/
  value : ∀ v, a.defaultValue = some v → ∃ s, trim s = s ∧ '\n' ∉ s.toList ∧
    acceptDefault a.kind a.maxSize? s = .ok (some v)

theorem Checked.congr (ha : a.Checked) (hkind : b.kind = a.kind) (hmin : b.min = a.min)
    (hmax : b.max = a.max) (hvalue : b.defaultValue = a.defaultValue) : b.Checked := by
  have hsize : b.maxSize? = a.maxSize? := by rw [maxSize?, maxSize?, hmax]
  refine ⟨?_, ?_, ?_⟩
  · have hrange := ha.range
    unfold rangeDefects at hrange ⊢
    rwa [hkind, hmin, hmax, hsize]
  · rw [hmin, hmax]
    exact ha.bounds
  · rw [hkind, hvalue, hsize]
    exact ha.value

/-- What the checks before the one of the default value leave of an attribute. -/
theorem checks_bounds (a : Attribute) :
    (∀ s, a.checks.min = some s → a.min = some s) ∧
      (∀ s, a.checks.max = some s → a.max = some s) ∧
      a.checks.defaultValue = a.defaultValue ∧ a.checks.localName = a.localName := by
  have hserial : (∀ s, a.settleSerial.min = some s → a.min = some s) ∧
      (∀ s, a.settleSerial.max = some s → a.max = some s) ∧
      a.settleSerial.defaultValue = a.defaultValue ∧
      a.settleSerial.localName = a.localName := by
    unfold settleSerial
    split
    · exact ⟨by simp, by simp, rfl, rfl⟩
    · exact ⟨fun _ h => h, fun _ h => h, rfl, rfl⟩
  obtain ⟨hmin, hmax, hvalue, hlocal⟩ := hserial
  dsimp only [checks, checkSize, checkRange, note]
  refine ⟨fun s hs => hmin s ?_, hmax, hvalue, hlocal⟩
  split at hs
  · cases hs
  · exact hs

/-- The lower bound that a bit string loses was not looked at. -/
theorem rangeDefects_checkRange (a : Attribute) : a.checkRange.rangeDefects = a.rangeDefects := by
  unfold rangeDefects
  simp only [checkRange, note, maxSize?]
  split <;> rfl

theorem rangeDefects_of_checks (hclean : a.checks.hasDefect = false) :
    a.checks.rangeDefects = [] := by
  have hrange : a.checks.rangeDefects = a.settleSerial.rangeDefects :=
    rangeDefects_checkRange a.settleSerial
  simp only [hasDefect, checks, checkSize, checkRange, note, Bool.not_eq_false', List.isEmpty_iff,
    List.append_eq_nil_iff] at hclean
  exact hrange.trans hclean.1.2

theorem settleDefault_checked (h : a.settleDefault = .ok b) (hclean : b.hasDefect = false) :
    a.hasDefect = false ∧ b.rangeDefects = a.rangeDefects ∧ b.min = a.min ∧ b.max = a.max ∧
      ∀ v, b.defaultValue = some v → ∃ s, a.defaultValue.bind trimmed? = some s ∧
        acceptDefault b.kind b.maxSize? s = .ok (some v) := by
  unfold settleDefault at h
  split at h
  next =>
    cases h
    exact ⟨hclean, rfl, rfl, rfl, by simp [clearDefault]⟩
  next s hs =>
    obtain ⟨accepted, haccept, rfl⟩ := exists_of_map_eq_ok h
    cases accepted with
    | some value =>
        refine ⟨hclean, rfl, rfl, rfl, ?_⟩
        rintro _ ⟨⟩
        exact ⟨s, hs, haccept⟩
    | none => simp [hasDefect, clearDefault, note] at hclean

theorem WrittenIn.checked (ha : a.WrittenIn cs) (hcs : '\n' ∉ cs) (h : a.settle = .ok b)
    (hclean : b.hasDefect = false) : b.Checked := by
  obtain ⟨hmin, hmax, hvalue, _⟩ := checks_bounds a
  rw [settle_eq] at h
  obtain ⟨hclean, hrange, hmin', hmax', haccept⟩ := settleDefault_checked h hclean
  refine ⟨hrange.trans (rangeDefects_of_checks hclean), ?_, ?_⟩
  · intro s hs
    have hwritten : a.min = some s ∨ a.max = some s := by
      rcases hs with hs | hs
      · exact Or.inl (hmin s (hmin' ▸ hs))
      · exact Or.inr (hmax s (hmax' ▸ hs))
    obtain ⟨htrim, hsubset⟩ := ha.bounds s hwritten
    exact ⟨htrim, fun hmem => hcs (hsubset hmem)⟩
  · intro v hv
    obtain ⟨s, hs, haccept⟩ := haccept v hv
    rw [hvalue] at hs
    obtain ⟨written, hwritten, htrimmed⟩ := Option.bind_eq_some_iff.mp hs
    obtain rfl := eq_trim_of_trimmed? htrimmed
    refine ⟨_, trim_trim written, fun hmem => hcs ?_, haccept⟩
    exact ha.value written hwritten (trim_subset written hmem)

/-! ### Names -/

/-- What an attribute is called. -/
structure Named (a : Attribute) : Prop where
  localName : ∀ s, a.localName = some s → Name.IsPlain s
  name : a.isReference = false → Name.IsPlain a.name
  line : '\n' ∉ a.name.toList

theorem identifier_isPlain (ident : String) {kind : Kind} (hkind : kind ≠ .reference) :
    Name.IsPlain (identifier ident kind) := by
  unfold identifier
  dsimp only
  rw [if_neg hkind]
  split <;> exact Name.normalize_isPlain _

theorem not_mem_newline_text (id : EntityId) : '\n' ∉ id.text.toList := by
  intro hmem
  simp only [Handle.text, String.toList_append, List.mem_append] at hmem
  rcases hmem with hmem | hmem
  · exact absurd hmem (by decide)
  · rw [Nat.toString_eq_repr, Nat.toList_repr] at hmem
    exact absurd (Nat.isDigit_of_mem_toDigits (by decide) (by decide) hmem) (by decide)

theorem not_mem_newline_identifier (ident : String) (kind : Kind) :
    '\n' ∉ (identifier ident kind).toList := by
  have hplain : ∀ s, '\n' ∉ (Name.normalize s).toList :=
    fun s => (Name.normalize_isPlain s).not_mem_newline
  by_cases hkind : kind = .reference
  · unfold identifier
    dsimp only
    rw [if_pos hkind]
    split
    next handle _ => exact not_mem_newline_text handle
    next =>
      cases cut? "." (trim ident) with
      | none => exact hplain _
      | some parts => simp [String.toList_append, hplain]
  · exact (identifier_isPlain ident hkind).not_mem_newline

theorem foldl_apply_localName (a : Attribute) (os : List Setting) :
    (os.foldl Attribute.apply a).localName = a.localName := by
  induction os generalizing a with
  | nil => rfl
  | cons o os ih =>
      rw [List.foldl_cons, ih]
      cases o with
      | unique => simp only [Attribute.apply, Attribute.addUnique]; split <;> rfl
      | label name => simp only [Attribute.apply, Attribute.addUnique]; split <;> rfl
      | _ => rfl

theorem settle_localName (h : a.settle = .ok b) : b.localName = a.localName := by
  refine Eq.trans ?_ (checks_bounds a).2.2.2
  unfold settle settleDefault at h
  split at h
  · cases h
    rfl
  · obtain ⟨accepted, _, rfl⟩ := exists_of_map_eq_ok h
    cases accepted <;> rfl

/-! ### Lines -/

/-- What holds of an attribute that was read from one line. -/
structure Declared (a : Attribute) : Prop where
  named : a.Named
  checked : a.hasDefect = false → a.Checked

theorem kind_of_empty {word : String} (h : word.isEmpty) : Kind.ofText word = .unknown := by
  have hnil : word = "" := by simpa using h
  rw [hnil]
  decide

theorem ofDeclaration_named {decl : Declaration} (h : ofDeclaration decl = .ok a) : a.Named := by
  unfold ofDeclaration at h
  dsimp only at h
  have hblank := @kind_of_empty (trim decl.kind)
  have hplain := @identifier_isPlain decl.ident (Kind.ofText (trim decl.kind))
  have hname := not_mem_newline_identifier decl.ident (Kind.ofText (trim decl.kind))
  have hlocal : ∀ s, (decl.localName.map Name.normalize).filter (!·.isEmpty) = some s →
      Name.IsPlain s := by
    intro s hs
    obtain ⟨written, _, rfl⟩ := Option.map_eq_some_iff.mp (Option.filter_eq_some_iff.mp hs).1
    exact Name.normalize_isPlain written
  -- What was read does not matter any more, only how far the checks get.
  generalize identifier decl.ident (Kind.ofText (trim decl.kind)) = name at h hplain hname
  generalize (decl.localName.map Name.normalize).filter (!·.isEmpty) = localName at h hlocal
  generalize Kind.ofText (trim decl.kind) = kind at h hplain hblank
  split at h
  next hempty =>
    cases h
    have hnil : name = "" := by simpa using hempty
    refine ⟨hlocal, fun _ c hc => ?_, hname⟩
    simp [note, hnil] at hc
  next =>
    split at h
    next hempty =>
      cases h
      exact ⟨hlocal, fun _ => hplain (by simp [hblank hempty]), hname⟩
    next =>
      split at h
      next hunknown =>
        cases h
        exact ⟨hlocal, fun _ => hplain (by simp [hunknown]), hname⟩
      next =>
        obtain ⟨hkind₁, hname₁, _, _⟩ := settle_frame h
        obtain ⟨hkind₂, hname₂, _, _⟩ := foldl_apply_frame
          { name := name, localName := localName, kind := kind } (settings decl.options)
        have hlocal₁ := (settle_localName h).trans (foldl_apply_localName _ _)
        refine ⟨?_, ?_, ?_⟩
        · rw [hlocal₁]
          exact hlocal
        · intro href
          rw [hname₁, hname₂]
          refine hplain fun hkind => ?_
          rw [isReference, hkind₁, hkind₂, decide_eq_false_iff_not] at href
          exact href hkind
        · rw [hname₁, hname₂]
          exact hname

theorem ofDeclaration_checked {decl : Declaration} (hoptions : '\n' ∉ decl.options.toList)
    (h : ofDeclaration decl = .ok a) (hclean : a.hasDefect = false) : a.Checked := by
  unfold ofDeclaration at h
  dsimp only at h
  generalize identifier decl.ident (Kind.ofText (trim decl.kind)) = name at h
  generalize (decl.localName.map Name.normalize).filter (!·.isEmpty) = localName at h
  generalize Kind.ofText (trim decl.kind) = kind at h
  -- An attribute whose options are not looked at has a defect.
  split at h
  · cases h
    simp [hasDefect, note] at hclean
  split at h
  · cases h
    simp [hasDefect, note] at hclean
  split at h
  · cases h
    simp [hasDefect, note] at hclean
  · exact (writtenIn_settings decl.options).checked hoptions h hclean

theorem ofLine_named {line : String} (h : ofLine line = .ok a) : a.Named :=
  ofDeclaration_named h

theorem ofLine_declared {line : String} (hline : '\n' ∉ line.toList) (h : ofLine line = .ok a) :
    a.Declared :=
  ⟨ofLine_named h, ofDeclaration_checked
    (fun hmem => hline (lineBody_subset line (options_subset _ hmem))) h⟩

end Blueprint.Attribute

namespace Blueprint

/-! ### Members -/

namespace Member

variable {m : Member}

theorem named_dropTakenLocalName (hm : m.Named) (siblings : List Member) :
    (m.dropTakenLocalName siblings).Named := by
  unfold dropTakenLocalName
  split
  · exact ⟨by simp, hm.name, hm.line⟩
  · exact hm

theorem named_replaceTakenSegment (hm : m.Named) (siblings : List Member) :
    (m.replaceTakenSegment siblings).Named := by
  have hfallback := Name.fallback_isPlain m.id.number
  unfold replaceTakenSegment
  split
  · split
    · refine ⟨?_, hm.name, hm.line⟩
      rintro _ ⟨⟩
      exact hfallback
    · exact ⟨hm.localName, fun _ => hfallback, hfallback.not_mem_newline⟩
  · exact hm

theorem named_distinguish (hm : m.Named) (siblings : List Member) :
    (m.distinguish siblings).Named :=
  named_replaceTakenSegment (named_dropTakenLocalName hm siblings) siblings

theorem declared_distinguish (hm : m.Declared) (siblings : List Member) :
    (m.distinguish siblings).Declared := by
  refine ⟨named_distinguish hm.named siblings, fun hclean => ?_⟩
  have hfields : (m.distinguish siblings).min = m.min ∧ (m.distinguish siblings).max = m.max ∧
      (m.distinguish siblings).defaultValue = m.defaultValue := by
    obtain ⟨name, localName, heq⟩ := exists_distinguish_eq siblings m
    rw [heq]
    exact ⟨rfl, rfl, rfl⟩
  obtain ⟨hmin, hmax, hvalue⟩ := hfields
  rw [Attribute.hasDefect, distinguish_defects] at hclean
  exact (hm.checked hclean).congr (distinguish_kind siblings m) hmin hmax hvalue

end Member

namespace Document

variable {d : Document} {m : Member}

theorem named_nextMember {a : Attribute} (ha : a.Named) : (d.nextMember a).Named := by
  have hfallback := Name.fallback_isPlain (Handle.fresh d.attrCount : AttrId).number
  refine ⟨ha.localName, fun href => ?_, ?_⟩
  · dsimp only [nextMember, Attribute.issued]
    split
    · exact hfallback
    · exact ha.name href
  · dsimp only [nextMember, Attribute.issued]
    split
    · exact hfallback.not_mem_newline
    · exact ha.line

theorem declared_nextMember {a : Attribute} (ha : a.Declared) : (d.nextMember a).Declared :=
  ⟨named_nextMember ha.named, fun hclean => (ha.checked hclean).congr rfl rfl rfl rfl⟩

theorem PlainNames.of_mem_entities (hd : d.PlainNames) {e : Entity} (he : e ∈ d.entities) :
    Name.IsPlain e.name := by
  obtain ⟨s, hs, he⟩ := mem_entities.mp he
  exact (hd s hs).2 e he

theorem PlainNames.of_mem_qualifiedName (hd : d.PlainNames) {id : EntityId} {c : Char}
    (hc : c ∈ (d.qualifiedName id).toList) : Name.isNameChar c ∨ c = '.' := by
  unfold qualifiedName at hc
  split at hc
  next e s he hs =>
    have hschema := (hd s (List.mem_of_find?_eq_some hs)).1
    have hentity := hd.of_mem_entities (List.mem_of_find?_eq_some he)
    simp only [String.toList_append, List.mem_append] at hc
    rcases hc with (hc | hc) | hc
    · exact Or.inl (hschema c hc)
    · exact Or.inr (List.mem_singleton.mp hc)
    · exact Or.inl (hentity c hc)
  next e he _ => exact Or.inl (hd.of_mem_entities (List.mem_of_find?_eq_some he) c hc)
  next => simp at hc

theorem declared_resolved (hd : d.PlainNames) (hm : m.Declared) (href : m.isReference) :
    (d.resolved m).Declared := by
  obtain ⟨⟨hlocal, hname, hline⟩, hchecked⟩ := hm
  unfold resolved Member.resolvedTo
  split
  next t qualified hfind =>
    obtain ⟨_, rfl⟩ := of_findTarget?_byHandle hfind
    refine ⟨⟨hlocal, fun hplain => ?_, fun hmem => ?_⟩, fun hclean =>
      (hchecked hclean).congr rfl rfl rfl rfl⟩
    · exact absurd (hplain.symm.trans href) (by decide)
    · exact absurd (hd.of_mem_qualifiedName hmem) (by decide)
  next =>
    exact ⟨⟨hlocal, hname, hline⟩, fun hclean => (hchecked hclean).congr rfl rfl rfl rfl⟩
  next =>
    split
    · exact ⟨⟨hlocal, hname, hline⟩, hchecked⟩
    · exact ⟨⟨hlocal, hname, hline⟩, by simp [Attribute.hasDefect, Attribute.note]⟩

end Document

/-! ### Reading -/

/-- What the lines of a source hold has no line end. -/
theorem Line.not_mem_of_mem_scan {source text : String}
    (h : .attr text ∈ (Line.scan source).map Prod.snd) : '\n' ∉ text.toList := by
  rw [Line.map_snd_scan] at h
  obtain ⟨l, hl, hline⟩ := List.mem_map.mp (List.mem_filter.mp h).1
  have htext : text = Text.trim l := by
    unfold Line.ofText at hline
    dsimp only at hline
    split at hline
    · cases hline
    · split at hline
      · cases hline
      · split at hline
        · exact (Line.attr.inj hline).symm
        · cases hline
  rw [htext]
  exact fun hmem => Text.not_mem_of_mem_lines hl (Text.trim_subset l hmem)

/-- What every line keeps holds of what the last line left. -/
theorem Document.exists_reading_of {motive : Document → Prop} (hkeeps : Cursor.Keeps motive)
    {maxDepth : Nat} (hempty : motive (.empty maxDepth)) {source : String} {d : Document}
    (hread : Document.read maxDepth source = .ok d) :
    ∃ c : Cursor, c.Reading ∧ motive c.document ∧ d = c.document.resolveReferences := by
  obtain ⟨c, hfold, rfl⟩ := exists_of_map_eq_ok hread
  have hstart := Cursor.reading_start maxDepth
  exact ⟨c, hstart.foldlM hfold, hkeeps.foldlM hstart hempty
    (fun _ => Line.not_mem_of_mem_scan) hfold, rfl⟩

/-- Every line of a document keeps its attributes declared. -/
theorem Document.keeps_declared : Cursor.Keeps fun d => ∀ m ∈ d.members, m.Declared where
  schema d name hmembers := by
    rwa [members, entities_addSchema]
  entity d id name hmembers := by
    rwa [members_placeEntity]
  attr d id line a hhandles hline ha hmembers := by
    intro m hm
    rcases hhandles.mem_members_attached hm with hold | ⟨siblings, rfl⟩
    · exact hmembers m hold
    · exact Member.declared_distinguish
        (declared_nextMember (Attribute.ofLine_declared hline ha)) siblings

/-- Every attribute of a document that was read is declared. -/
theorem Document.declared_read {maxDepth : Nat} {source : String} {d : Document}
    (hread : Document.read maxDepth source = .ok d) : ∀ m ∈ d.members, m.Declared := by
  obtain ⟨c, hreading, hmembers, rfl⟩ := exists_reading_of keeps_declared
    (fun _ hm => absurd hm List.not_mem_nil) hread
  intro m hm
  rw [resolveReferences, members_mapMembers] at hm
  obtain ⟨old, hold, rfl⟩ := List.mem_map.mp hm
  split
  next hopen =>
    have href : old.isReference := by
      simp only [Attribute.isOpen, Bool.and_eq_true] at hopen
      exact hopen.1.1
    exact declared_resolved hreading.plain (hmembers old hold) href
  next => exact hmembers old hold

end Blueprint
