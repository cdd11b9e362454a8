import Blueprint.Proofs.ColumnNames
import Blueprint.Proofs.Printing
import Blueprint.Proofs.Settled

/-! # Printing what was read

An attribute that was read from a line without a defect can be printed and read again,
and it is then the same attribute again exactly if nothing in the printed line is taken
for a mark or changed: the lower bound does not end with a dot, the uniqueness labels are
names already, and the range of a reference without a local name does not seem to hold
one. The options of a line are read one by one, and each leaves an attribute whose parts
can be told apart when they are printed; the checks change nothing that they have passed.
-/

namespace Blueprint.Attribute

open Text

variable {a b : Attribute}

/-! ### Options -/

/-- What an option can be read as. -/
theorem ofText_cases (s : String) :
    (∃ before after min max, Setting.ofText s = .range min max ∧
        cut? Line.rangeMark s = some (before, after) ∧
          trimmed? before = min ∧ trimmed? after = max) ∨
      (∃ head written, cut? Line.rangeMark s = none ∧
        cut? Line.labelMark s = some (head, written) ∧
          (Setting.ofText s = .label (Name.normalize written) ∨
            ∃ value, Setting.ofText s = .defaultValue value ∧ trim written = value)) ∨
      Setting.ofText s ∈ [.primary, .required, .unique, .ignored] := by
  cases hrange : cut? Line.rangeMark s with
  | some parts => exact Or.inl ⟨_, _, _, _, ofText_of_cut? hrange, rfl, rfl, rfl⟩
  | none =>
      refine Or.inr ?_
      cases hlabel : cut? Line.labelMark s with
      | none => exact Or.inr (ofText_of_no_label hrange hlabel)
      | some parts =>
          rw [ofText_of_label hrange hlabel]
          split
          · exact Or.inl ⟨parts.1, parts.2, rfl, rfl, Or.inl rfl⟩
          split
          · exact Or.inl ⟨parts.1, parts.2, rfl, rfl, Or.inr ⟨_, rfl, rfl⟩⟩
          · exact Or.inr (by simp)

/-- Whether the parts of an attribute can be told apart when they are printed, as far as
options set them. -/
structure Legible (a : Attribute) : Prop where
  segment : ∀ c ∈ a.segment.toList, isWordChar c
  bounds : ∀ s, a.min = some s ∨ a.max = some s → IsItem s
  lower : ∀ s, a.min = some s → ¬ Line.rangeMark.toList <:+: s.toList
  labels : ∀ l ∈ a.unique, IsWord l ∧ '.' ∉ l.toList
  nodup : a.unique.Nodup
  value : ∀ s, a.defaultValue = some s → ',' ∉ s.toList ∧ ¬ Line.rangeMark.toList <:+: s.toList

theorem Legible.addUnique (ha : a.Legible) {label : String}
    (hlabel : ∀ c ∈ label.toList, isWordChar c ∧ c ≠ '.') : (a.addUnique label).Legible := by
  unfold Attribute.addUnique
  split
  · exact ha
  next hnew =>
    obtain ⟨hne, hmem⟩ : label ≠ "" ∧ label ∉ a.unique := by simpa using hnew
    refine ⟨ha.segment, ha.bounds, ha.lower, ?_, ?_, ha.value⟩
    · intro l hl
      rcases List.mem_append.mp hl with hl | hl
      · exact ha.labels l hl
      · obtain rfl := List.mem_singleton.mp hl
        exact ⟨⟨hne, fun c hc => (hlabel c hc).1⟩, fun hdot => (hlabel _ hdot).2 rfl⟩
    · exact List.nodup_append.mpr ⟨ha.nodup, List.nodup_singleton label, fun l hl l' hl' heq =>
        hmem (by rwa [← List.mem_singleton.mp hl', ← heq])⟩

/-- A piece of an option between its marks, without the blanks around it. -/
theorem isItem_of_trimmed? {s piece bound : String} (hs : ',' ∉ s.toList)
    (hpiece : piece.toList ⊆ s.toList) (hbound : trimmed? piece = some bound) : IsItem bound := by
  obtain ⟨rfl, hne⟩ := trimmed?_eq_some_iff.mp hbound
  exact ⟨hne, trim_trim piece, fun hmem => hs (hpiece (trim_subset piece hmem))⟩

theorem not_infix_trim {mark : List Char} {s : String} (hs : ¬ mark <:+: s.toList) :
    ¬ mark <:+: (trim s).toList := by
  rw [trim, String.toList_ofList]
  exact fun hwithin => hs (hwithin.trans (Chars.isInfix_trim _))

/-- One option without a comma keeps the parts apart. -/
theorem Legible.apply (ha : a.Legible) {s : String} (hs : ',' ∉ s.toList) :
    (a.apply (.ofText s)).Legible := by
  rcases ofText_cases s with ⟨before, after, min, max, hread, hcut, hmin, hmax⟩ |
    ⟨head, written, hrange, hcut, hread⟩ | hread
  · obtain ⟨hbefore, hafter⟩ := cut?_subset hcut
    have hfirst : ¬ Line.rangeMark.toList <:+: before.toList := by
      obtain ⟨⟨front, back⟩, hchars, heq⟩ := Option.map_eq_some_iff.mp hcut
      obtain ⟨rfl, _⟩ := Prod.mk.inj heq
      rw [String.toList_ofList]
      exact Chars.not_infix_of_cut? (by decide) hchars
    rw [hread]
    refine ⟨ha.segment, ?_, ?_, ha.labels, ha.nodup, ha.value⟩
    · rintro bound (rfl | rfl)
      · exact isItem_of_trimmed? hs hbefore hmin
      · exact isItem_of_trimmed? hs hafter hmax
    · rintro bound rfl
      rw [eq_trim_of_trimmed? hmin]
      exact not_infix_trim hfirst
  · rcases hread with hread | ⟨value, hread, hvalue⟩
    · rw [hread]
      refine ha.addUnique fun c hc => ?_
      have hname := Name.normalize_isPlain written c hc
      exact ⟨by simp [isWordChar, hname], fun hdot => absurd (hdot ▸ hname) (by decide)⟩
    · rw [hread]
      refine ⟨ha.segment, ha.bounds, ha.lower, ha.labels, ha.nodup, ?_⟩
      rintro _ ⟨⟩
      rw [← hvalue]
      refine ⟨fun hmem => hs ((cut?_subset hcut).2 (trim_subset written hmem)), ?_⟩
      refine not_infix_trim fun hwithin => (cut?_eq_none_iff (by decide)).mp hrange ?_
      rw [eq_of_cut?_eq_some hcut, String.toList_append]
      exact hwithin.trans List.infix_append_right
  · simp only [List.mem_cons, List.not_mem_nil, or_false] at hread
    rcases hread with hread | hread | hread | hread
    · rw [hread]
      exact ⟨ha.segment, ha.bounds, ha.lower, ha.labels, ha.nodup, ha.value⟩
    · rw [hread]
      exact ⟨ha.segment, ha.bounds, ha.lower, ha.labels, ha.nodup, ha.value⟩
    · rw [hread]
      refine ha.addUnique fun c hc => ?_
      -- Dots become underscores.
      simp only [replaceChar, String.toList_ofList, List.mem_map] at hc
      obtain ⟨d, hd, rfl⟩ := hc
      split
      · decide
      next hdot => exact ⟨ha.segment d hd, hdot⟩
    · rw [hread]
      exact ha

theorem Legible.foldl (ha : a.Legible) {options : List String}
    (hoptions : ∀ s ∈ options, ',' ∉ s.toList) :
    ((options.map Setting.ofText).foldl Attribute.apply a).Legible := by
  induction options generalizing a with
  | nil => exact ha
  | cons s options ih =>
      obtain ⟨hs, hoptions⟩ := List.forall_mem_cons.mp hoptions
      exact ih (ha.apply hs) hoptions

/-! ### Names -/

theorem isWordChar_of_isPlain {s : String} (hs : Name.IsPlain s) :
    ∀ c ∈ s.toList, isWordChar c :=
  fun c hc => by simp [isWordChar, hs c hc]

/-- The identifier of a reference: a handle, two names with a dot between them, or a name. -/
theorem identifier_reference_cases (ident : String) :
    (∃ handle : EntityId, Handle.ofText? (trim ident) = some handle ∧
        identifier ident .reference = handle.text) ∨
      (∃ head tail, identifier ident .reference =
        Name.normalize head ++ "." ++ Name.normalize tail) ∨
      '.' ∉ (trim ident).toList ∧
        identifier ident .reference = Name.normalize (trim ident) := by
  unfold identifier
  dsimp only
  rw [if_pos rfl]
  split
  next handle hread => exact Or.inl ⟨handle, hread, rfl⟩
  next =>
    cases hcut : cut? "." (trim ident) with
    | some parts => exact Or.inr (Or.inl ⟨parts.1, parts.2, rfl⟩)
    | none => exact Or.inr (Or.inr ⟨cut?_dot_eq_none.mp hcut, rfl⟩)

theorem identifier_cases (ident : String) {kind : Kind} (hkind : kind ≠ .reference) :
    ∃ s, identifier ident kind = Name.normalize s := by
  unfold identifier
  dsimp only
  rw [if_neg hkind]
  cases cut? "." (trim ident) with
  | some parts => exact ⟨parts.1, rfl⟩
  | none => exact ⟨trim ident, rfl⟩

theorem isWordChar_identifier (ident : String) (kind : Kind) :
    ∀ c ∈ (identifier ident kind).toList, isWordChar c := by
  have hplain : ∀ s, ∀ c ∈ (Name.normalize s).toList, isWordChar c :=
    fun s => isWordChar_of_isPlain (Name.normalize_isPlain s)
  by_cases hkind : kind = .reference
  · subst hkind
    rcases identifier_reference_cases ident with ⟨handle, _, htext⟩ | ⟨head, tail, htext⟩ |
      ⟨_, htext⟩
    · rw [htext]
      exact (isWord_text handle).chars
    · rw [htext]
      intro c hc
      simp only [String.toList_append, List.mem_append] at hc
      rcases hc with (hc | hc) | hc
      · exact hplain head c hc
      · obtain rfl : c = '.' := by simpa using hc
        decide
      · exact hplain tail c hc
    · rw [htext]
      exact hplain _
  · obtain ⟨s, htext⟩ := identifier_cases ident hkind
    rw [htext]
    exact hplain s

theorem normalize_normalize_ne_empty {s : String} (hs : Name.normalize s ≠ "") :
    Name.normalize (Name.normalize s) ≠ "" := by
  intro hempty
  have hseparate := Name.toList_normalize_normalize s
  rw [hempty] at hseparate
  have hhead := Name.head?_separate (Name.normalize s).toList
  rw [← hseparate] at hhead
  exact hs (by simpa using (List.head?_eq_none_iff.mp hhead.symm))

/-- An identifier does not vanish when it is read again. -/
theorem identifier_identifier_ne_empty {ident : String} {kind : Kind}
    (hne : identifier ident kind ≠ "") : identifier (identifier ident kind) kind ≠ "" := by
  have hword : IsWord (identifier ident kind) := ⟨hne, isWordChar_identifier ident kind⟩
  have hname : ∀ s, identifier ident kind = Name.normalize s →
      identifier (identifier ident kind) kind ≠ "" := by
    intro s htext
    rw [htext] at hne ⊢
    rw [identifier_of_isPlain (Name.normalize_isPlain s) hne]
    exact normalize_normalize_ne_empty hne
  by_cases hkind : kind = .reference
  · subst hkind
    rcases identifier_reference_cases ident with ⟨handle, hread, htext⟩ | ⟨head, tail, htext⟩ |
      ⟨_, htext⟩
    · rw [htext] at hword ⊢
      unfold identifier
      dsimp only
      rw [if_pos rfl, hword.trim_eq, Handle.ofText?_text_of_ofText? hread]
      exact hword.ne_empty
    · -- What stands around the dot may vanish, but the dot does not.
      rcases identifier_reference_cases (identifier ident .reference) with
        ⟨handle, _, hagain⟩ | ⟨head', tail', hagain⟩ | ⟨hdot, _⟩
      · rw [hagain]
        exact (isWord_text handle).ne_empty
      · rw [hagain]
        simp
      · rw [hword.trim_eq, htext] at hdot
        exact absurd (by simp [String.toList_append]) hdot
    · exact hname _ htext
  · obtain ⟨s, htext⟩ := identifier_cases ident hkind
    exact hname s htext

/-! ### Attributes without defects -/

theorem ofText_ne_real (s : String) : Kind.ofText s ≠ .real := by
  unfold Kind.ofText
  cases hlookup : Kind.spellings.lookup (Text.lower (trim s)) with
  | none => decide
  | some kind =>
      obtain ⟨front, back, hspellings, _⟩ := List.lookup_eq_some_iff.mp hlookup
      have hnone : Kind.spellings.all fun entry => entry.2 ≠ .real := by decide
      simpa using List.all_eq_true.mp hnone _ (hspellings ▸ List.mem_append_right _
        List.mem_cons_self)

/-- An attribute without a defect has passed the checks of what its declaration spells. -/
theorem settle_spelled {d : Declaration} (h : ofDeclaration d = .ok a) (hclean : a.defects = []) :
    identifier d.ident (Kind.ofText (trim d.kind)) ≠ "" ∧
      Kind.ofText (trim d.kind) ≠ .unknown ∧ d.spelled.settle = .ok a := by
  by_cases hname : identifier d.ident (Kind.ofText (trim d.kind)) = ""
  · rw [ofDeclaration] at h
    dsimp only at h
    rw [if_pos (by simpa using hname)] at h
    cases h
    simp [note] at hclean
  by_cases hkind : Kind.ofText (trim d.kind) = .unknown
  · rw [ofDeclaration] at h
    dsimp only at h
    rw [if_neg (by simpa using hname), if_pos hkind] at h
    split at h
    · cases h
      simp [note] at hclean
    · cases h
      simp [note] at hclean
  · rw [ofDeclaration_eq_settle hname hkind] at h
    exact ⟨hname, hkind, h⟩

section Fresh

variable {kind : Kind} {name : String} {localName : Option String}

theorem foldl_fresh_frame (os : List Setting) :
    let c := os.foldl apply { kind := kind, name := name, localName := localName }
    c.kind = kind ∧ c.name = name ∧ c.localName = localName := by
  obtain ⟨hkind, hname, _⟩ := foldl_apply_frame
    { kind := kind, name := name, localName := localName } os
  exact ⟨hkind, hname, foldl_apply_localName _ _⟩

theorem legible_settings (hname : ∀ c ∈ name.toList, isWordChar c)
    (hlocal : ∀ s, localName = some s → IsWord s) (options : String) :
    ((settings options).foldl apply
      { kind := kind, name := name, localName := localName }).Legible := by
  refine Legible.foldl ⟨?_, by simp, by simp, by simp, List.nodup_nil, by simp⟩ ?_
  · dsimp only [segment]
    cases localName with
    | none => exact hname
    | some s => exact (hlocal s rfl).chars
  · intro s hs
    obtain ⟨piece, hpiece, htrimmed⟩ := List.mem_filterMap.mp hs
    obtain ⟨cs, hcs, rfl⟩ := List.mem_map.mp hpiece
    have hcomma := (Chars.of_mem_splitOn hcs).1
    rw [eq_trim_of_trimmed? htrimmed]
    exact fun hmem => hcomma (by simpa using trim_subset _ hmem)

end Fresh

theorem isWord_of_filter {o : Option String} {s : String}
    (hs : (o.map Name.normalize).filter (!·.isEmpty) = some s) : IsWord s := by
  obtain ⟨hnormal, hne⟩ := Option.filter_eq_some_iff.mp hs
  obtain ⟨written, _, rfl⟩ := Option.map_eq_some_iff.mp hnormal
  exact isWord_of_isPlain (Name.normalize_isPlain written) (by simpa using hne)

/-- The canonical form of a default value can stand among options, if the written value can. -/
theorem isItem_of_acceptDefault {kind : Kind} {size : Option Nat} {written s v : String}
    (htrimmed : trimmed? written = some s)
    (hwritten : ',' ∉ written.toList ∧ ¬ Line.rangeMark.toList <:+: written.toList)
    (haccept : acceptDefault kind size s = .ok (some v)) :
    IsItem v ∧ ¬ Line.rangeMark.toList <:+: v.toList := by
  rcases eq_or_isItem_of_acceptDefault haccept with rfl | ⟨hitem, hdot⟩
  · refine ⟨isItem_of_trimmed? hwritten.1 (List.Subset.refl _) htrimmed, ?_⟩
    rw [eq_trim_of_trimmed? htrimmed]
    exact not_infix_trim hwritten.2
  · exact ⟨hitem, fun hwithin => hdot (hwithin.subset (by decide))⟩

/-- The checks leave nothing that cannot be printed. -/
theorem Legible.printable (ha : a.Legible) (hname : IsWord a.name)
    (hlocal : ∀ s, a.localName = some s → IsWord s) (hident : identifier a.name a.kind ≠ "")
    (hknown : a.kind ≠ .unknown ∧ a.kind ≠ .real) (h : a.settle = .ok b)
    (hclean : b.defects = []) (htarget : b.target = none)
    (hreference : b.localName.isSome → b.isReference) : b.Printable := by
  obtain ⟨hkind', hname', _⟩ := settle_frame h
  obtain ⟨hmin, hmax, hunique⟩ := settle_range h hclean
  have hlocal' := settle_localName h
  refine
    { known := hkind' ▸ hknown
      name := hname' ▸ hname
      identified := by rwa [hname', hkind']
      localName := fun s hs => ⟨hreference (by simp [hs]), hlocal s (hlocal' ▸ hs)⟩
      bounds := fun s hs => ha.bounds s (hs.imp (hmin s) (hmax s))
      lower := fun s hs => ha.lower s (hmin s hs)
      labels := hunique ▸ ha.labels
      nodup := hunique ▸ ha.nodup
      value := ?_
      clean := hclean
      unresolved := htarget
      settled := settle_settle h hclean }
  intro v hv
  obtain ⟨_, value, rfl, haccept⟩ := settle_cases h hclean
  obtain ⟨s, hs, haccept⟩ := haccept v hv
  obtain ⟨written, hwritten, htrimmed⟩ := Option.bind_eq_some_iff.mp hs
  exact isItem_of_acceptDefault htrimmed (ha.value written hwritten) haccept

/-- What was read without a defect can be printed. -/
theorem printable_of_ofLine {line : String} (h : ofLine line = .ok a) (hclean : a.defects = []) :
    a.Printable := by
  obtain ⟨hident, hunknown, hsettle⟩ := settle_spelled h hclean
  have hreal := ofText_ne_real (trim (Declaration.ofText (lineBody line)).kind)
  have hreference : a.localName.isSome → a.isReference :=
    isReference_of_localName h (by simp [hasDefect, hclean])
  have htarget := (ofLine_frame h).1
  unfold Declaration.spelled at hsettle
  generalize Declaration.ofText (lineBody line) = d at hident hunknown hsettle hreal
  have hchars := isWordChar_identifier d.ident (Kind.ofText (trim d.kind))
  have hagain := identifier_identifier_ne_empty hident
  have hwords := fun s => @isWord_of_filter d.localName s
  -- What the texts spell does not matter from here on.
  generalize (d.localName.map Name.normalize).filter (!·.isEmpty) = localName at hsettle hwords
  generalize identifier d.ident (Kind.ofText (trim d.kind)) = name at *
  generalize Kind.ofText (trim d.kind) = kind at *
  obtain ⟨hkind, hname, hlocalName⟩ := @foldl_fresh_frame kind name localName (settings d.options)
  refine (legible_settings hchars hwords d.options).printable ?_ ?_ ?_ ?_ hsettle hclean htarget
    hreference
  · rw [hname]
    exact ⟨hident, hchars⟩
  · rw [hlocalName]
    exact hwords
  · rwa [hname, hkind]
  · rw [hkind]
    exact ⟨hunknown, hreal⟩

/-! ### Ranges that seem to hold a local name -/

theorem apply_range (a : Attribute) (o : Setting) :
    (a.apply o).min = a.min ∧ (a.apply o).max = a.max ∨
      o = .range (a.apply o).min (a.apply o).max := by
  cases o with
  | range min max => exact Or.inr rfl
  | unique =>
      simp only [apply, addUnique]
      split <;> exact Or.inl ⟨rfl, rfl⟩
  | label name =>
      simp only [apply, addUnique]
      split <;> exact Or.inl ⟨rfl, rfl⟩
  | _ => exact Or.inl ⟨rfl, rfl⟩

/-- The range that is left is the one before all options or one of theirs. -/
theorem foldl_apply_range (a : Attribute) (os : List Setting) :
    (os.foldl apply a).min = a.min ∧ (os.foldl apply a).max = a.max ∨
      .range (os.foldl apply a).min (os.foldl apply a).max ∈ os := by
  induction os generalizing a with
  | nil => exact Or.inl ⟨rfl, rfl⟩
  | cons o os ih =>
      rw [List.foldl_cons]
      rcases ih (a.apply o) with ⟨hmin, hmax⟩ | hmem
      · rw [hmin, hmax]
        rcases apply_range a o with hsame | hrange
        · exact Or.inl hsame
        · exact Or.inr (hrange ▸ List.mem_cons_self)
      · exact Or.inr (List.mem_cons_of_mem o hmem)

theorem isInfix_cutOptions (s : String) : (cutOptions s).2.toList <:+: s.toList := by
  have htrim : (trim s).toList <:+: s.toList := by
    rw [trim, String.toList_ofList]
    exact Chars.isInfix_trim _
  unfold cutOptions
  dsimp only
  split
  next hcut =>
    refine List.IsInfix.trans ?_ htrim
    rw [eq_of_cut?_eq_some hcut, String.toList_append]
    exact List.infix_append_right
  next =>
    split
    next hstrip =>
      refine List.IsInfix.trans ?_ htrim
      rw [stripStart?_eq_some_iff.mp hstrip, String.toList_append]
      exact List.infix_append_right
    next => split <;> exact List.nil_infix

/-- An option of a line stands between two commas of any text that holds the options. -/
theorem exists_part_of_option {options s : String} {parts : List (List Char)}
    (hoptions : options.toList <:+: [','].intercalate parts)
    (hs : s ∈ (splitOn ',' options).filterMap trimmed?) : ∃ part ∈ parts, s.toList <:+: part := by
  obtain ⟨piece, hpiece, htrimmed⟩ := List.mem_filterMap.mp hs
  obtain ⟨cs, hcs, rfl⟩ := List.mem_map.mp hpiece
  obtain ⟨rfl, hne⟩ := trimmed?_eq_some_iff.mp htrimmed
  have htrim : (trim (String.ofList cs)).toList <:+: cs := by
    rw [trim, String.toList_ofList, String.toList_ofList]
    exact Chars.isInfix_trim cs
  have hcomma : ',' ∉ (trim (String.ofList cs)).toList :=
    fun hmem => (Chars.of_mem_splitOn hcs).1 (htrim.subset hmem)
  refine (Chars.infix_intercalate_iff (by simpa using hne) hcomma).mp ?_
  exact htrim.trans ((Chars.infix_of_mem_splitOn hcs).trans hoptions)

/-- What is read as the options of a line whose range seems to hold a local name: less than
the range, and the labels. -/
theorem Printable.options_of_feigns (ha : a.Printable) (hfeigns : a.feignsLocalName) :
    ∃ tail : List Char, tail.length < a.rangeText.toList.length ∧
      (Declaration.ofText (lineBody a.line)).options.toList <:+:
        [','].intercalate (tail :: a.labelTexts.map fun t => ' ' :: t.toList) := by
  obtain ⟨⟨href, hnone⟩, t, ht, hholds⟩ : (a.isReference ∧ a.localName = none) ∧
      ∃ t ∈ a.rangeOption, holds Line.asMark (" " ++ t) := by
    simpa [feignsLocalName] using hfeigns
  obtain rfl := mem_rangeOption ht
  have hrange : a.rangeOption = [a.rangeText] := by
    rw [rangeOption_eq] at ht ⊢
    split at ht
    next hsome => rw [if_pos hsome]
    next => cases ht
  have hoptions : a.optionTexts = a.flagTexts ++ a.rangeText :: a.labelTexts := by
    rw [ha.optionTexts_eq, ha.defaultValue_of_isReference href, hrange]
    simp
  obtain ⟨⟨head, tail⟩, hcut⟩ := Option.ne_none_iff_exists'.mp
    (mt (Chars.cut?_eq_none_iff (by decide)).mp (not_not.mpr (holds_asMark_iff.mp hholds)))
  -- The flags come first and do not hold the mark, so the range is cut.
  have hflags : ∀ part ∈ a.flagTexts.map fun t => ' ' :: t.toList,
      ¬ Line.asMark.toList <:+: part :=
    List.forall_mem_map.mpr fun _ => not_infix_flagTexts
  obtain ⟨first, hfirst⟩ : ∃ first, Chars.cut? Line.asMark.toList
      ([','].intercalate (a.optionTexts.map fun t => ' ' :: t.toList)) =
        some (first, [','].intercalate (tail :: a.labelTexts.map fun t => ' ' :: t.toList)) := by
    rw [hoptions, List.map_append, List.map_cons]
    exact Chars.cut?_intercalate (by decide) (by decide) hflags hcut
  have hwhole : cut? Line.asMark (withOptions a.name a.optionTexts) = some
      (.ofList (a.name.toList ++ ' ' :: ("with".toList ++ first)),
        .ofList ([','].intercalate (tail :: a.labelTexts.map fun t => ' ' :: t.toList))) := by
    rw [cut?, cut?_asMark_withOptions ha.name.no_blank (by simp [hoptions]), hfirst]
    rfl
  have hbody : a.body = "@" ++ withOptions a.name a.optionTexts := by
    rw [body, if_pos href, hnone]
    simp
  refine ⟨tail, ?_, ?_⟩
  · have hlength := congrArg List.length (Chars.eq_of_cut?_eq_some hcut)
    have hmark : Line.asMark.toList.length = 4 := rfl
    rw [List.length_cons, List.length_append, List.length_append, hmark] at hlength
    omega
  · rw [ha.lineBody_line, hbody, ofText_at_of_cut? hwhole]
    dsimp only
    have hwithin := isInfix_cutOptions (.ofList ([','].intercalate
      (tail :: a.labelTexts.map fun t => ' ' :: t.toList)))
    rwa [String.toList_ofList] at hwithin

theorem length_getD_trimmed? (s : String) :
    ((trimmed? s).getD "").toList.length ≤ s.toList.length := by
  cases htrimmed : trimmed? s with
  | none => simp
  | some t =>
      rw [Option.getD_some, eq_trim_of_trimmed? htrimmed, trim, String.toList_ofList]
      exact (Chars.isInfix_trim s.toList).length_le

/-- An option that sets a range is as long as that range when it is written. -/
theorem length_le_of_range {s : String} {min max : Option String}
    (h : Setting.ofText s = .range min max) :
    Line.rangeMark.toList <:+: s.toList ∧
      (min.getD "").toList.length + 2 + (max.getD "").toList.length ≤ s.toList.length := by
  rcases ofText_cases s with ⟨before, after, min', max', hread, hcut, hmin, hmax⟩ |
    ⟨head, written, _, _, hread | ⟨value, hread, _⟩⟩ | hread
  · obtain ⟨rfl, rfl⟩ := Setting.range.inj (hread.symm.trans h)
    have hbefore := length_getD_trimmed? before
    have hafter := length_getD_trimmed? after
    have hmark : Line.rangeMark.toList.length = 2 := rfl
    rw [hmin] at hbefore
    rw [hmax] at hafter
    rw [eq_of_cut?_eq_some hcut, String.toList_append, String.toList_append]
    refine ⟨⟨_, _, rfl⟩, ?_⟩
    rw [List.length_append, List.length_append, hmark]
    omega
  · cases hread.symm.trans h
  · cases hread.symm.trans h
  · rw [h] at hread
    simp at hread

theorem spelled_range (d : Declaration) :
    d.spelled.min = none ∧ d.spelled.max = none ∨
      ∃ s ∈ (splitOn ',' d.options).filterMap trimmed?,
        Setting.ofText s = .range d.spelled.min d.spelled.max := by
  unfold Declaration.spelled
  generalize identifier d.ident (Kind.ofText (trim d.kind)) = name
  generalize (d.localName.map Name.normalize).filter (!·.isEmpty) = localName
  generalize Kind.ofText (trim d.kind) = kind
  rcases foldl_apply_range { kind := kind, name := name, localName := localName }
    (settings d.options) with hsame | hmem
  · exact Or.inl hsame
  · exact Or.inr (List.mem_map.mp hmem)

theorem length_getD_le {o o' : Option String} (h : ∀ s, o = some s → o' = some s) :
    (o.getD "").toList.length ≤ (o'.getD "").toList.length := by
  cases o with
  | none => simp
  | some s => rw [h s rfl]

/-- A range that seems to hold a local name is not read again. -/
theorem Printable.range_ne_of_feigns (ha : a.Printable) (hfeigns : a.feignsLocalName)
    (hb : ofLine a.line = .ok b) (hclean : b.defects = []) :
    ¬ (b.min = a.min ∧ b.max = a.max) := by
  rintro ⟨hmin, hmax⟩
  obtain ⟨tail, hshort, hoptions⟩ := ha.options_of_feigns hfeigns
  obtain ⟨_, _, hsettle⟩ := settle_spelled hb hclean
  obtain ⟨hmin', hmax', _⟩ := settle_range hsettle hclean
  rw [hmin] at hmin'
  rw [hmax] at hmax'
  rcases spelled_range (Declaration.ofText (lineBody a.line)) with ⟨hlow, hhigh⟩ | ⟨s, hs, hread⟩
  · -- Without a range nothing would seem to be a local name.
    have hnone : a.min = none ∧ a.max = none := by
      constructor
      · exact Option.eq_none_iff_forall_ne_some.mpr fun s h => by simpa [hlow] using hmin' s h
      · exact Option.eq_none_iff_forall_ne_some.mpr fun s h => by simpa [hhigh] using hmax' s h
    simp [feignsLocalName, rangeOption, hnone] at hfeigns
  · obtain ⟨hdots, hlength⟩ := length_le_of_range hread
    have hlow := length_getD_le hmin'
    have hhigh := length_getD_le hmax'
    obtain ⟨part, hpart, hwithin⟩ := exists_part_of_option hoptions hs
    rcases List.mem_cons.mp hpart with rfl | hpart
    · have hmark : "..".toList.length = 2 := rfl
      have hle := hwithin.length_le
      rw [rangeText, String.toList_append, String.toList_append, List.length_append,
        List.length_append, hmark] at hshort
      omega
    · obtain ⟨t, ht, rfl⟩ := List.mem_map.mp hpart
      obtain ⟨l, hl, rfl⟩ := List.mem_map.mp ht
      have hdot : '.' ∈ ' ' :: ("unique:" ++ l).toList :=
        (hdots.trans hwithin).subset (by decide)
      exact (ha.labels l hl).2 (by simpa [String.toList_append] using hdot)

/-! ### Reading a printed line -/

/-- Whether two attributes agree in all that is said about them, apart from what they are
called. -/
structure Agree (a b : Attribute) : Prop where
  kind : b.kind = a.kind
  primary : b.primary = a.primary
  required : b.required = a.required
  min : b.min = a.min
  max : b.max = a.max
  unique : b.unique = a.unique
  defaultValue : b.defaultValue = a.defaultValue

/-- Whether nothing in the printed line of an attribute is taken for a mark or changed. -/
structure KeepsApart (a : Attribute) : Prop where
  /-- The lower bound does not run into the mark of the range. -/
  range : ∀ s, a.min = some s → s.toList.getLast? ≠ some '.'
  labels : ∀ l ∈ a.unique, Name.normalize l = l
  localName : a.feignsLocalName = false

/-- The printed line of an attribute that was read without a defect is read without a defect
as well, and as an attribute that agrees with it, exactly if its parts keep apart. -/
theorem ofLine_line_agree_iff {line : String} (h : ofLine line = .ok a)
    (hclean : a.defects = []) :
    (∃ b, ofLine a.line = .ok b ∧ b.defects = [] ∧ Agree a b) ↔ a.KeepsApart := by
  have ha := printable_of_ofLine h hclean
  constructor
  · rintro ⟨b, hb, hb', hagree⟩
    have hlocal : a.feignsLocalName = false := by
      by_contra hfeigns
      exact ha.range_ne_of_feigns (by simpa using hfeigns) hb hb' ⟨hagree.min, hagree.max⟩
    rw [ha.ofLine_line hlocal] at hb
    obtain ⟨hmin, _, hunique⟩ := settle_range hb hb'
    refine ⟨?_, ?_, hlocal⟩
    · intro s hs hlast
      exact ha.fst_rangeAgain_ne hs hlast (hmin s (hagree.min.trans hs))
    · have hne : ∀ l ∈ a.unique, l ≠ "" := fun l hl => (ha.labels l hl).1.ne_empty
      exact (foldl_addLabel_normalize_iff ha.nodup hne).mp (hunique.symm.trans hagree.unique)
  · rintro ⟨hrange, hlabels, hlocal⟩
    exact ⟨_, ha.ofLine_line_eq hlocal hrange hlabels, hclean, ⟨rfl, rfl, rfl, rfl, rfl, rfl, rfl⟩⟩

theorem ofLine_line_agree_iff_rate :
    let rate : Attribute := { kind := .decimal, name := "rate", min := some "1.", max := some "5" }
    let code : Attribute :=
      { kind := .string, primary := true, name := "code", min := some "1", max := some "8",
        defaultValue := some "A: 1", unique := ["lot"] }
    (ofLine "- rate as dec with 1. ..5" = .ok rate ∧ rate.defects = [] ∧
        ¬ ∃ b, ofLine rate.line = .ok b ∧ b.defects = [] ∧ Agree rate b) ∧
      ofLine "- Code as varchar with P, 1 .. 8, u: Lot, d: A: 1" = .ok code ∧ code.defects = [] ∧
        ∃ b, ofLine code.line = .ok b ∧ b.defects = [] ∧ Agree code b := by
  intro rate code
  have hrate : ofLine "- rate as dec with 1. ..5" = .ok rate := by decide +kernel
  have hcode : ofLine "- Code as varchar with P, 1 .. 8, u: Lot, d: A: 1" = .ok code := by
    decide +kernel
  have happart : code.KeepsApart := by
    refine ⟨?_, ?_, rfl⟩
    · rintro _ ⟨⟩
      decide
    · intro l hl
      obtain rfl := List.mem_singleton.mp hl
      decide
  refine ⟨⟨hrate, rfl, fun hagain => ?_⟩, hcode, rfl, (ofLine_line_agree_iff hcode rfl).mpr happart⟩
  exact ((ofLine_line_agree_iff hrate rfl).mp hagain).range "1." rfl (by decide)

end Blueprint.Attribute
