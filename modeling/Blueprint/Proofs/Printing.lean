import Blueprint.Attribute.Printer
import Blueprint.Proofs.Options

/-! # Reading a printed attribute

The line of an attribute joins its name, its kind and its options with marks. Reading
cuts the line at the same marks, so it finds the parts again, unless a part holds a mark
that is looked for earlier. What is found is then brought into canonical form and checked
once more, and an attribute that was canonical and checked before stays what it is.
-/

namespace Blueprint.Attribute

open Text

variable {a : Attribute}

/-! ### Printable attributes -/

/-- What holds of an attribute whose printed parts can be told apart, and which the checks
leave as it is. -/
structure Printable (a : Attribute) : Prop where
  known : a.kind ≠ .unknown ∧ a.kind ≠ .real
  name : IsWord a.name
  identified : identifier a.name a.kind ≠ ""
  localName : ∀ s, a.localName = some s → a.isReference ∧ IsWord s
  bounds : ∀ s, a.min = some s ∨ a.max = some s → IsItem s
  lower : ∀ s, a.min = some s → ¬ Line.rangeMark.toList <:+: s.toList
  labels : ∀ l ∈ a.unique, IsWord l ∧ '.' ∉ l.toList
  nodup : a.unique.Nodup
  value : ∀ s, a.defaultValue = some s → IsItem s ∧ ¬ Line.rangeMark.toList <:+: s.toList
  clean : a.defects = []
  unresolved : a.target = none
  settled : a.settle = .ok a

/-- The range as it is written. -/
def rangeText (a : Attribute) : String :=
  a.min.getD "" ++ ".." ++ a.max.getD ""

theorem rangeOption_eq (a : Attribute) :
    a.rangeOption = if a.min.isSome || a.max.isSome then [a.rangeText] else [] :=
  rfl

theorem mem_rangeOption {t : String} (ht : t ∈ a.rangeOption) : t = a.rangeText := by
  rw [rangeOption_eq] at ht
  split at ht
  · exact List.mem_singleton.mp ht
  · cases ht

theorem Printable.isItem_rangeText (ha : a.Printable) : IsItem a.rangeText := by
  refine isItem_between (fun hne => ?_) (isItem_of_all (by decide))
    fun hne => ?_
  · cases hmin : a.min with
    | none => exact absurd (by rw [hmin]; rfl) hne
    | some s => exact ha.bounds s (Or.inl hmin)
  · cases hmax : a.max with
    | none => exact absurd (by rw [hmax]; rfl) hne
    | some s => exact ha.bounds s (Or.inr hmax)

theorem Printable.filterMap_unique (ha : a.Printable) : a.unique.filterMap trimmed? = a.unique :=
  filterMap_trimmed? fun l hl => (ha.labels l hl).1.isItem

/-- The flags of the line. -/
def flagTexts (a : Attribute) : List String :=
  (if a.primary then ["primary"] else []) ++ (if a.required then ["required"] else [])

theorem mem_flagTexts {t : String} (ht : t ∈ a.flagTexts) : t = "primary" ∨ t = "required" := by
  rcases List.mem_append.mp ht with hprimary | hrequired
  · split at hprimary
    · exact Or.inl (List.mem_singleton.mp hprimary)
    · cases hprimary
  · split at hrequired
    · exact Or.inr (List.mem_singleton.mp hrequired)
    · cases hrequired

/-- The uniqueness labels of the line. -/
def labelTexts (a : Attribute) : List String :=
  a.unique.map ("unique:" ++ ·)

theorem Printable.optionTexts_eq (ha : a.Printable) :
    a.optionTexts = a.flagTexts ++ a.rangeOption ++ a.labelTexts ++
      a.defaultValue.toList.map ("default:" ++ ·) := by
  rw [optionTexts, ha.filterMap_unique]
  rfl

theorem Printable.of_mem_optionTexts (ha : a.Printable) {t : String} (ht : t ∈ a.optionTexts) :
    t ∈ a.flagTexts ∨ t ∈ a.rangeOption ∨ (∃ l ∈ a.unique, t = "unique:" ++ l) ∨
      ∃ value, a.defaultValue = some value ∧ t = "default:" ++ value := by
  rw [ha.optionTexts_eq, labelTexts] at ht
  simpa [or_assoc, eq_comm] using ht

theorem Printable.isItem_of_mem_optionTexts (ha : a.Printable) :
    ∀ t ∈ a.optionTexts, IsItem t := by
  have hmarked : ∀ {mark t : String}, IsItem mark → IsItem t → IsItem (mark ++ t) := by
    intro mark t hmark ht
    have hbetween := isItem_between (absurd rfl : "" ≠ "" → IsItem "") hmark fun _ => ht
    simpa using hbetween
  intro t ht
  rcases ha.of_mem_optionTexts ht with hflag | hrange | ⟨l, hl, rfl⟩ | ⟨value, hvalue, rfl⟩
  · rcases mem_flagTexts hflag with rfl | rfl
    · exact isItem_of_all (by decide)
    · exact isItem_of_all (by decide)
  · exact mem_rangeOption hrange ▸ ha.isItem_rangeText
  · exact hmarked (isItem_of_all (by decide)) (ha.labels l hl).1.isItem
  · exact hmarked (isItem_of_all (by decide)) (ha.value value hvalue).1

/-- The range that is read from a written range. -/
def rangeAgain (a : Attribute) : Option String × Option String :=
  match cut? Line.rangeMark a.rangeText with
  | some (min, max) => (trimmed? min, trimmed? max)
  | none => (none, none)

theorem rangeAgain_of_cut? {min max : String}
    (hcut : cut? Line.rangeMark a.rangeText = some (min, max)) :
    a.rangeAgain = (trimmed? min, trimmed? max) := by
  rw [rangeAgain, hcut]

theorem foldl_rangeOption {b : Attribute} (hmin : b.min = none) (hmax : b.max = none) :
    (a.rangeOption.map Setting.ofText).foldl apply b =
      { b with min := a.rangeAgain.1, max := a.rangeAgain.2 } := by
  obtain ⟨⟨min, max⟩, hcut⟩ : ∃ parts, cut? Line.rangeMark a.rangeText = some parts := by
    apply Option.ne_none_iff_exists'.mp
    rw [ne_eq, cut?_eq_none_iff (by decide), not_not, rangeText, String.toList_append,
      String.toList_append]
    exact ⟨_, _, rfl⟩
  rw [rangeOption_eq]
  split
  next =>
    rw [List.map_singleton, List.foldl_cons, List.foldl_nil, ofText_of_cut? hcut, apply,
      rangeAgain_of_cut? hcut]
  next hnone =>
    obtain ⟨hmin', hmax'⟩ : a.min = none ∧ a.max = none := by simpa using hnone
    have hagain : a.rangeAgain = (none, none) := by
      rw [rangeAgain, rangeText, hmin', hmax']
      decide
    rw [hagain]
    cases b
    cases hmin
    cases hmax
    rfl

/-- A written range is read as it stands, unless its lower bound runs into the mark. -/
theorem Printable.rangeAgain_eq (ha : a.Printable)
    (hlast : ∀ s, a.min = some s → s.toList.getLast? ≠ some '.') :
    a.rangeAgain = (a.min, a.max) := by
  have hmin : ¬ Line.rangeMark.toList <:+: (a.min.getD "").toList ++ ['.'] := by
    cases hmin : a.min with
    | none => decide
    | some s => exact fun h => (dots_concat_iff.mp h).elim (ha.lower s hmin) (hlast s hmin)
  have hcut : cut? Line.rangeMark a.rangeText = some (a.min.getD "", a.max.getD "") :=
    cut?_range hmin _
  rw [rangeAgain_of_cut? hcut, trimmed?_getD fun s hs => ha.bounds s (Or.inl hs),
    trimmed?_getD fun s hs => ha.bounds s (Or.inr hs)]

/-- The last dot of a lower bound is taken for the first one of the mark. -/
theorem Printable.fst_rangeAgain_ne (ha : a.Printable) {s : String} (hs : a.min = some s)
    (hlast : s.toList.getLast? = some '.') : a.rangeAgain.1 ≠ some s := by
  obtain ⟨front, hfront⟩ := List.getLast?_eq_some_iff.mp hlast
  have htext : a.rangeText = String.ofList front ++ ".." ++ ("." ++ a.max.getD "") := by
    apply String.toList_inj.mp
    simp [rangeText, hs, String.toList_append, hfront]
  have hcut : cut? Line.rangeMark a.rangeText =
      some (String.ofList front, "." ++ a.max.getD "") := by
    rw [htext]
    refine cut?_range ?_ _
    rw [String.toList_ofList, ← hfront]
    exact ha.lower s hs
  rw [rangeAgain_of_cut? hcut]
  dsimp only
  intro hagain
  -- The bound that is read is shorter by the dot.
  have hlength : s.toList.length ≤ front.length := by
    rw [eq_trim_of_trimmed? hagain, trim, String.toList_ofList, String.toList_ofList]
    exact (Chars.isInfix_trim front).length_le
  rw [hfront, List.length_append, List.length_singleton] at hlength
  omega

/-! ### What a printed line declares -/

/-- The attribute that the line of an attribute declares, before it is checked. -/
def reread (a : Attribute) : Attribute :=
  { kind := a.kind
    primary := a.primary
    required := a.required
    name := identifier a.name a.kind
    localName := (a.localName.map Name.normalize).filter (!·.isEmpty)
    min := a.rangeAgain.1
    max := a.rangeAgain.2
    defaultValue := a.defaultValue
    unique := (a.unique.map Name.normalize).foldl addLabel [] }

theorem foldl_flags {b : Attribute} (hprimary : b.primary = false)
    (hrequired : b.required = false) :
    (a.flagTexts.map Setting.ofText).foldl apply b =
      { b with primary := a.primary, required := a.required } := by
  have hset : Setting.ofText "primary" = .primary ∧ Setting.ofText "required" = .required := by
    decide
  unfold flagTexts
  cases b
  cases hprimary
  cases hrequired
  cases a.primary <;> cases a.required <;> simp [hset, apply]

theorem Printable.foldl_labels (ha : a.Printable) (b : Attribute) :
    (a.labelTexts.map Setting.ofText).foldl apply b =
      { b with unique := (a.unique.map Name.normalize).foldl addLabel b.unique } := by
  have hread : a.labelTexts.map Setting.ofText = (a.unique.map Name.normalize).map .label := by
    rw [labelTexts, List.map_map, List.map_map]
    refine List.map_congr_left fun l hl => ?_
    rw [Function.comp_apply, Function.comp_apply, ofText_unique]
    exact fun hwithin => (ha.labels l hl).2 (hwithin.subset (by decide))
  rw [hread, List.foldl_map, ← foldl_addUnique]
  rfl

theorem Printable.foldl_defaultValue (ha : a.Printable) {b : Attribute}
    (hb : b.defaultValue = none) :
    ((a.defaultValue.toList.map ("default:" ++ ·)).map Setting.ofText).foldl apply b =
      { b with defaultValue := a.defaultValue } := by
  cases hvalue : a.defaultValue with
  | none =>
      cases b
      cases hb
      rfl
  | some value =>
      obtain ⟨hitem, hdots⟩ := ha.value value hvalue
      simp only [Option.toList_some, List.map_cons, List.map_nil, List.foldl_cons, List.foldl_nil,
        ofText_default hdots, hitem.trim_eq, apply]

theorem Printable.foldl_settings (ha : a.Printable) :
    (settings (joinWith ", " a.optionTexts)).foldl apply
      { kind := a.kind
        name := identifier a.name a.kind
        localName := (a.localName.map Name.normalize).filter (!·.isEmpty) } = a.reread := by
  rw [settings, filterMap_splitOn_joinWith ha.isItem_of_mem_optionTexts, ha.optionTexts_eq,
    List.map_append, List.map_append, List.map_append, List.foldl_append,
    List.foldl_append, List.foldl_append, foldl_flags rfl rfl, foldl_rangeOption rfl rfl,
    ha.foldl_labels, ha.foldl_defaultValue rfl]
  rfl

/-- Whether the range of a reference without a local name holds the mark of one. -/
def feignsLocalName (a : Attribute) : Bool :=
  a.isReference && a.localName.isNone && a.rangeOption.any fun t => holds Line.asMark (" " ++ t)

theorem holds_asMark_iff {t : String} :
    holds Line.asMark (" " ++ t) ↔ Line.asMark.toList <:+: ' ' :: t.toList := by
  rw [holds, Option.isSome_iff_ne_none, ne_eq, cut?_eq_none_iff (by decide), not_not,
    toList_blank_append]

/-- The mark has two blanks, so it does not occur where only one stands. -/
theorem not_infix_asMark {cs : List Char} (hcs : ' ' ∉ cs) :
    ¬ Line.asMark.toList <:+: ' ' :: cs := by
  intro hwithin
  have hcount := hwithin.sublist.count_le ' '
  rw [List.count_cons_self, List.count_eq_zero_of_not_mem hcs] at hcount
  exact absurd hcount (by decide)

/-- In a line with options the mark of a local name is looked for in the options. -/
theorem cut?_asMark_withOptions {head : String} {options : List String}
    (hhead : ∀ c ∈ head.toList, isBlank c = false) (hne : options ≠ []) :
    Chars.cut? Line.asMark.toList (withOptions head options).toList =
      (Chars.cut? Line.asMark.toList
        ([','].intercalate (options.map fun t => ' ' :: t.toList))).map
          fun p => (head.toList ++ ' ' :: ("with".toList ++ p.1), p.2) := by
  have htext : (withOptions head options).toList = head.toList ++
      (' ' :: ("with".toList ++ ' ' :: (joinWith ", " options).toList)) := by
    rw [withOptions, if_neg (by simpa using hne), String.toList_append, String.toList_append,
      List.append_assoc]
    rfl
  have hwith : ¬ Line.asMark.toList <+:
      ' ' :: ("with".toList ++ ' ' :: (joinWith ", " options).toList) := by
    rintro ⟨rest, hrest⟩
    have hsecond := congrArg (fun cs => cs[1]?) hrest
    exact absurd hsecond (by simp [Line.asMark])
  have hmark : Line.asMark.toList = ' ' :: "as ".toList := rfl
  rw [htext, hmark, Chars.cut?_append_of_not_mem (not_mem_blank hhead), ← hmark,
    Chars.cut?_cons_of_not_isPrefix hwith, hmark, Chars.cut?_append_of_not_mem (by decide),
    cons_blank_toList_joinWith hne, Option.map_map, Option.map_map]
  rfl

/-- Nothing is acceptable as the default value of a reference. -/
theorem Printable.defaultValue_of_isReference (ha : a.Printable) (href : a.isReference) :
    a.defaultValue = none := by
  have hsettled := ha.settled
  have hkind : a.checks.kind = .reference :=
    (checks_frame a).1.trans (of_decide_eq_true href)
  rw [settle_eq] at hsettled
  generalize a.checks = c at hsettled hkind
  unfold settleDefault at hsettled
  split at hsettled
  next => exact (congrArg Attribute.defaultValue (Except.ok.inj hsettled)).symm
  next =>
    rw [hkind] at hsettled
    exact (congrArg Attribute.defaultValue (Except.ok.inj hsettled)).symm

theorem not_infix_flagTexts {t : String} (ht : t ∈ a.flagTexts) :
    ¬ Line.asMark.toList <:+: ' ' :: t.toList := by
  rcases mem_flagTexts ht with rfl | rfl
  · exact not_infix_asMark (by decide)
  · exact not_infix_asMark (by decide)

theorem Printable.not_infix_optionTexts (ha : a.Printable) (href : a.isReference)
    (hrange : ∀ t ∈ a.rangeOption, ¬ holds Line.asMark (" " ++ t)) :
    ∀ t ∈ a.optionTexts, ¬ Line.asMark.toList <:+: ' ' :: t.toList := by
  intro t ht
  rcases ha.of_mem_optionTexts ht with hflag | ht | ⟨l, hl, rfl⟩ | ⟨value, hvalue, _⟩
  · exact not_infix_flagTexts hflag
  · exact fun hwithin => hrange t ht (holds_asMark_iff.mpr hwithin)
  · refine not_infix_asMark ?_
    rw [String.toList_append, List.mem_append, not_or]
    exact ⟨by decide, not_mem_blank (ha.labels l hl).1.no_blank⟩
  · rw [ha.defaultValue_of_isReference href] at hvalue
    cases hvalue

theorem ofText_at_of_cut? {rest target after : String}
    (hcut : cut? Line.asMark rest = some (target, after)) :
    Declaration.ofText ("@" ++ rest) = ⟨target, Kind.reference.keyword, (cutOptions after).2,
      some (cutOptions after).1⟩ := by
  rw [Declaration.ofText, stripStart?_eq_some_iff.mpr rfl]
  dsimp only
  rw [hcut]

theorem ofText_at_of_uncut {rest : String} (hcut : cut? Line.asMark rest = none) :
    Declaration.ofText ("@" ++ rest) =
      ⟨(cutOptions rest).1, Kind.reference.keyword, (cutOptions rest).2, none⟩ := by
  rw [Declaration.ofText, stripStart?_eq_some_iff.mpr rfl]
  dsimp only
  rw [hcut]

theorem ofText_as {name : String} (hname : IsWord name) (rest : String) :
    Declaration.ofText (name ++ " as " ++ rest) =
      ⟨name, (cutOptions rest).1, (cutOptions rest).2, none⟩ := by
  have hat : stripStart? "@" (name ++ " as " ++ rest) = none := by
    obtain ⟨c, cs, hcons⟩ := List.exists_cons_of_ne_nil (by simpa using hname.ne_empty :
      name.toList ≠ [])
    have hc := (of_isWordChar (hname.chars c (by simp [hcons]))).2.2
    rw [stripStart?, Option.map_eq_none_iff, Chars.stripStart?_eq_none_iff, String.append_assoc,
      String.toList_append, hcons]
    exact fun h => hc (List.cons_prefix_cons.mp h).1.symm
  have hcut : cut? Line.asMark (name ++ " as " ++ rest) = some (name, rest) :=
    cut?_of_not_mem Line.asMark rfl (not_mem_blank hname.no_blank) rest
  rw [Declaration.ofText, hat]
  dsimp only
  rw [hcut]
  rfl

/-- The printed line after its dash. -/
def body (a : Attribute) : String :=
  if a.isReference then
    "@" ++ withOptions (a.name ++ (a.localName.map (" as " ++ ·)).getD "") a.optionTexts
  else a.name ++ " as " ++ withOptions a.kind.keyword a.optionTexts

theorem Printable.lineBody_line (ha : a.Printable) : lineBody a.line = a.body := by
  have hitems := ha.isItem_of_mem_optionTexts
  have hname := ha.name
  obtain ⟨head, hhead, htrim, hne, hbody⟩ : ∃ head, a.headText = "- " ++ head ∧
      trim head = head ∧ head ≠ "" ∧ a.body = withOptions head a.optionTexts := by
    unfold headText body
    cases a.isReference with
    | false =>
        refine ⟨a.name ++ " as " ++ a.kind.keyword, ?_, ?_, ?_, ?_⟩
        · simp [String.append_assoc]
        · exact trim_append_eq_self hname.trim_eq hname.ne_empty
            a.kind.trim_keyword a.kind.keyword_bare.1 _
        · simp
        · simp [withOptions_append]
    | true =>
        refine ⟨"@" ++ (a.name ++ (a.localName.map (" as " ++ ·)).getD ""), ?_, ?_, ?_, ?_⟩
        · rw [if_pos rfl, ← String.append_assoc, ← String.append_assoc]
          rfl
        · cases hlocal : a.localName with
          | none =>
              simpa using trim_append_eq_self (by decide : trim "@" = "@") (by decide)
                hname.trim_eq hname.ne_empty ""
          | some s =>
              have hs := (ha.localName s hlocal).2
              have htrim := trim_append_eq_self (by decide : trim "@" = "@") (by decide)
                hs.trim_eq hs.ne_empty (a.name ++ " as ")
              simpa [String.append_assoc] using htrim
        · simp
        · simp [withOptions_append]
  obtain ⟨htrim', hne'⟩ := trim_withOptions htrim hne hitems
  have hline : a.line = withOptions a.headText a.optionTexts := rfl
  rw [hline, hhead, withOptions_append, hbody, lineBody_append htrim' hne']

theorem Printable.declaration_line (ha : a.Printable) (hlocal : a.feignsLocalName = false) :
    Declaration.ofText (lineBody a.line) =
      ⟨a.name, a.kind.keyword, joinWith ", " a.optionTexts, a.localName⟩ := by
  have hitems := ha.isItem_of_mem_optionTexts
  have hname := ha.name
  rw [ha.lineBody_line, body]
  cases href : a.isReference with
  | true =>
      have hkeyword : a.kind.keyword = Kind.reference.keyword := by rw [of_decide_eq_true href]
      cases hlocalName : a.localName with
      | some s =>
          have hs := (ha.localName s hlocalName).2
          have hcut : cut? Line.asMark (a.name ++ " as " ++ withOptions s a.optionTexts) =
              some (a.name, withOptions s a.optionTexts) :=
            cut?_of_not_mem Line.asMark rfl (not_mem_blank hname.no_blank) _
          have hoptions := cutOptions_withOptions hs.ne_empty hs.no_blank hitems
          rw [if_pos rfl, Option.map_some, Option.getD_some, ← String.append_assoc,
            withOptions_append, ofText_at_of_cut? hcut, hoptions, hkeyword]
      | none =>
          have hrange : ∀ t ∈ a.rangeOption, ¬ holds Line.asMark (" " ++ t) := by
            simpa [feignsLocalName, href, hlocalName] using hlocal
          have hcut : cut? Line.asMark (withOptions a.name a.optionTexts) = none := by
            rw [cut?, Option.map_eq_none_iff]
            by_cases hnone : a.optionTexts = []
            · rw [hnone, withOptions, List.isEmpty_nil, if_pos rfl,
                Chars.cut?_eq_none_iff (by decide)]
              exact fun hwithin => not_mem_blank hname.no_blank (hwithin.subset (by decide))
            · rw [cut?_asMark_withOptions hname.no_blank hnone, Option.map_eq_none_iff,
                Chars.cut?_eq_none_iff (by decide), Chars.infix_intercalate_iff (by decide)
                (by decide)]
              simpa using ha.not_infix_optionTexts href hrange
          have hoptions := cutOptions_withOptions hname.ne_empty hname.no_blank hitems
          rw [if_pos rfl, Option.map_none, Option.getD_none, String.append_empty,
            ofText_at_of_uncut hcut, hoptions, hkeyword]
  | false =>
      have hnone : a.localName = none := by
        by_contra hsome
        obtain ⟨s, hs⟩ := Option.ne_none_iff_exists'.mp hsome
        exact Bool.false_ne_true (href.symm.trans (ha.localName s hs).1)
      obtain ⟨hne, hblank⟩ := a.kind.keyword_bare
      rw [if_neg Bool.false_ne_true, ofText_as hname, cutOptions_withOptions hne hblank hitems,
        hnone]

/-- The attribute that a declaration spells, before it is checked. -/
def Declaration.spelled (d : Declaration) : Attribute :=
  (settings d.options).foldl apply
    { kind := Kind.ofText (trim d.kind)
      name := identifier d.ident (Kind.ofText (trim d.kind))
      localName := (d.localName.map Name.normalize).filter (!·.isEmpty) }

theorem ofDeclaration_eq_settle {d : Declaration}
    (hname : identifier d.ident (Kind.ofText (trim d.kind)) ≠ "")
    (hkind : Kind.ofText (trim d.kind) ≠ .unknown) : ofDeclaration d = d.spelled.settle := by
  have hword : ¬ (trim d.kind).isEmpty := fun hempty => hkind (kind_of_empty hempty)
  unfold ofDeclaration Declaration.spelled
  dsimp only
  rw [if_neg (by simpa using hname), if_neg hword, if_neg hkind]

/-- A printed line is read as what its parts spell, and that is checked again. -/
theorem Printable.ofLine_line (ha : a.Printable) (hlocal : a.feignsLocalName = false) :
    ofLine a.line = a.reread.settle := by
  have hkind : Kind.ofText (trim a.kind.keyword) = a.kind := by
    rw [a.kind.trim_keyword, Kind.ofText_keyword ha.known.1 ha.known.2]
  have hspelled : Declaration.spelled
      ⟨a.name, a.kind.keyword, joinWith ", " a.optionTexts, a.localName⟩ = a.reread := by
    unfold Declaration.spelled
    dsimp only
    rw [hkind, ha.foldl_settings]
  rw [ofLine, ha.declaration_line hlocal, ofDeclaration_eq_settle, hspelled]
  · rw [hkind]
    exact ha.identified
  · rw [hkind]
    exact ha.known.1

/-- The checks do not look at what an attribute is called. -/
theorem settle_rename (a : Attribute) (name : String) (localName : Option String) :
    ({ a with name := name, localName := localName } : Attribute).settle =
      a.settle.map fun b => { b with name := name, localName := localName } := by
  have hserial : ({ a with name := name, localName := localName } : Attribute).settleSerial =
      { a.settleSerial with name := name, localName := localName } := by
    unfold settleSerial
    dsimp only
    split <;> rfl
  have hchecks : ∀ c : Attribute,
      ({ c with name := name, localName := localName } : Attribute).checkRange.checkSize =
        { c.checkRange.checkSize with name := name, localName := localName } := fun _ => rfl
  rw [settle, settle, hserial, hchecks, ← checks]
  generalize a.checks = c
  unfold settleDefault
  dsimp only
  cases c.defaultValue.bind trimmed? with
  | none => rfl
  | some s =>
      dsimp only [maxSize?]
      cases acceptDefault c.kind (c.max.bind fun max => Numeral.size? (trim max)) s with
      | error fault => rfl
      | ok accepted => cases accepted <;> rfl

/-- Reading a printed attribute gives it back, with what it is called in canonical form. -/
theorem Printable.ofLine_line_eq (ha : a.Printable) (hlocal : a.feignsLocalName = false)
    (hlast : ∀ s, a.min = some s → s.toList.getLast? ≠ some '.')
    (hlabels : ∀ l ∈ a.unique, Name.normalize l = l) :
    ofLine a.line = .ok { a with
      name := identifier a.name a.kind
      localName := (a.localName.map Name.normalize).filter (!·.isEmpty) } := by
  have hunique : (a.unique.map Name.normalize).foldl addLabel [] = a.unique :=
    (foldl_addLabel_normalize_iff ha.nodup fun l hl => (ha.labels l hl).1.ne_empty).mpr hlabels
  have hreread : a.reread = { a with
      name := identifier a.name a.kind
      localName := (a.localName.map Name.normalize).filter (!·.isEmpty) } := by
    rw [reread, ha.rangeAgain_eq hlast, hunique]
    rw [← ha.clean, ← ha.unresolved]
  rw [ha.ofLine_line hlocal, hreread, settle_rename, ha.settled]
  rfl

/-! ### Canonical attributes -/

/-- Whether a text is a name, which does not change when it is normalized. -/
structure IsNormal (s : String) : Prop where
  ne_empty : s ≠ ""
  normalize_eq : Name.normalize s = s

theorem IsNormal.isPlain {s : String} (hs : IsNormal s) : Name.IsPlain s :=
  hs.normalize_eq ▸ Name.normalize_isPlain s

theorem IsNormal.isWord {s : String} (hs : IsNormal s) : IsWord s :=
  isWord_of_isPlain hs.isPlain hs.ne_empty

/-- What the target of a reference is written as: the name of an entity, with or without the
one of its schema, or the handle of an entity. -/
inductive IsTarget : String → Prop where
  | bare {name : String} : IsNormal name → IsTarget name
  | qualified {schema entity : String} : IsNormal schema → IsNormal entity →
      IsTarget (schema ++ "." ++ entity)
  | handle {n : Nat} : 0 < n → n < Nat.pow 2 32 → IsTarget (Handle.text (⟨n⟩ : EntityId))

/-- Whether an attribute is written in canonical form throughout and passes the checks as it
is. -/
structure IsCanonical (a : Attribute) : Prop where
  clean : a.defects = []
  unresolved : a.target = none
  known : a.kind ≠ .unknown ∧ a.kind ≠ .real
  plain : a.isReference = false → a.localName = none ∧ IsNormal a.name
  reference : a.isReference →
    (∀ s, a.localName = some s → IsNormal s) ∧ IsTarget a.name ∧
      a.min = none ∧ a.max = none ∧ a.defaultValue = none
  labels : a.unique.Nodup ∧ ∀ l ∈ a.unique, IsNormal l
  bounds : ∀ s, a.min = some s ∨ a.max = some s → IsItem s
  lower : ∀ s, a.min = some s →
    ¬ Line.rangeMark.toList <:+: s.toList ∧ s.toList.getLast? ≠ some '.'
  value : ∀ s, a.defaultValue = some s → IsItem s ∧ ¬ Line.rangeMark.toList <:+: s.toList
  settled : a.settle = .ok a

theorem identifier_of_isPlain {s : String} (hs : Name.IsPlain s) (hne : s ≠ "") (kind : Kind) :
    identifier s kind = Name.normalize s := by
  have hcut : cut? "." s = none := cut?_dot_eq_none.mpr hs.not_mem_dot
  have hhandle : (Handle.ofText? s : Option EntityId) = none :=
    Handle.ofText?_eq_none hs.not_mem_hyphen
  rw [identifier, (isWord_of_isPlain hs hne).trim_eq, hcut]
  dsimp only
  rw [hhandle]
  split <;> rfl

theorem identifier_of_isNormal {s : String} (hs : IsNormal s) (kind : Kind) :
    identifier s kind = s := by
  rw [identifier_of_isPlain hs.isPlain hs.ne_empty, hs.normalize_eq]

theorem IsTarget.isWord {s : String} (hs : IsTarget s) : IsWord s := by
  cases hs with
  | bare hname => exact hname.isWord
  | qualified hschema hentity =>
      refine ⟨by simp, fun c hc => ?_⟩
      simp only [String.toList_append, List.mem_append] at hc
      rcases hc with (hc | hc) | hc
      · exact hschema.isWord.chars c hc
      · obtain rfl : c = '.' := by simpa using hc
        decide
      · exact hentity.isWord.chars c hc
  | handle _ _ => exact isWord_text _

theorem identifier_of_isTarget {s : String} (hs : IsTarget s) : identifier s .reference = s := by
  have htrim := hs.isWord.trim_eq
  cases hs with
  | bare hname => exact identifier_of_isNormal hname .reference
  | @qualified schema entity hschema hentity =>
      have hcut : cut? "." (schema ++ "." ++ entity) = some (schema, entity) :=
        cut?_dot hschema.isPlain.not_mem_dot entity
      have hhandle : (Handle.ofText? (schema ++ "." ++ entity) : Option EntityId) = none := by
        refine Handle.ofText?_eq_none fun hmem => ?_
        simp only [String.toList_append, List.mem_append] at hmem
        rcases hmem with (hmem | hmem) | hmem
        · exact hschema.isPlain.not_mem_hyphen hmem
        · exact absurd hmem (by decide)
        · exact hentity.isPlain.not_mem_hyphen hmem
      rw [identifier, htrim, hcut]
      dsimp only
      rw [hhandle, if_pos rfl, hschema.normalize_eq, hentity.normalize_eq]
  | handle hpos hn =>
      rw [identifier, htrim]
      dsimp only
      rw [Handle.ofText?_text hpos hn, if_pos rfl]

theorem IsCanonical.identifier_name (ha : a.IsCanonical) :
    IsWord a.name ∧ identifier a.name a.kind = a.name := by
  cases href : a.isReference with
  | true =>
      have htarget := (ha.reference href).2.1
      refine ⟨htarget.isWord, ?_⟩
      rw [show a.kind = .reference from of_decide_eq_true href]
      exact identifier_of_isTarget htarget
  | false =>
      have hname := (ha.plain href).2
      exact ⟨hname.isWord, identifier_of_isNormal hname _⟩

theorem IsCanonical.localName (ha : a.IsCanonical) {s : String} (hs : a.localName = some s) :
    a.isReference ∧ IsNormal s := by
  cases href : a.isReference with
  | true => exact ⟨rfl, (ha.reference href).1 s hs⟩
  | false => rw [(ha.plain href).1] at hs; cases hs

theorem IsCanonical.printable (ha : a.IsCanonical) : a.Printable where
  known := ha.known
  name := ha.identifier_name.1
  identified := by
    rw [ha.identifier_name.2]
    exact ha.identifier_name.1.ne_empty
  localName s hs := ⟨(ha.localName hs).1, (ha.localName hs).2.isWord⟩
  bounds := ha.bounds
  lower s hs := (ha.lower s hs).1
  labels l hl := ⟨(ha.labels.2 l hl).isWord, (ha.labels.2 l hl).isPlain.not_mem_dot⟩
  nodup := ha.labels.1
  value := ha.value
  clean := ha.clean
  unresolved := ha.unresolved
  settled := ha.settled

/-- Reading undoes printing on canonical attributes. -/
theorem ofLine_line_of_isCanonical (ha : a.IsCanonical) : ofLine a.line = .ok a := by
  have hlocal : a.feignsLocalName = false := by
    cases href : a.isReference with
    | true =>
        obtain ⟨_, _, hmin, hmax, _⟩ := ha.reference href
        simp [feignsLocalName, rangeOption, hmin, hmax]
    | false => simp [feignsLocalName, href]
  have hlocalName : (a.localName.map Name.normalize).filter (!·.isEmpty) = a.localName := by
    cases hs : a.localName with
    | none => rfl
    | some s =>
        obtain ⟨hne, hs⟩ := (ha.localName hs).2
        simp [hs, hne]
  have hread := ha.printable.ofLine_line_eq hlocal (fun s hs => (ha.lower s hs).2)
    fun l hl => (ha.labels.2 l hl).normalize_eq
  rw [ha.identifier_name.2, hlocalName] at hread
  exact hread

theorem ofLine_line_of_isCanonical_price :
    let price : Attribute :=
      { kind := .decimal, required := true, name := "unit_price", min := some "0.5",
        max := some "99.5", defaultValue := some "1.", unique := ["offer_1", "sku"] }
    let buyer : Attribute :=
      { kind := .reference, name := "ent-12", localName := some "buyer", unique := ["buyer"] }
    (price.IsCanonical ∧ ofLine price.line = .ok price) ∧
      buyer.IsCanonical ∧ ofLine buyer.line = .ok buyer := by
  have hnormal : ∀ {s : String}, s ≠ "" ∧ Name.normalize s = s → IsNormal s := fun h => ⟨h.1, h.2⟩
  have hprice : IsCanonical
      { kind := .decimal, required := true, name := "unit_price", min := some "0.5",
        max := some "99.5", defaultValue := some "1.", unique := ["offer_1", "sku"] } :=
    { clean := rfl
      unresolved := rfl
      known := by decide
      plain := fun _ => ⟨rfl, hnormal (by decide)⟩
      reference := fun href => absurd href (by decide)
      labels := ⟨by decide, by
        simpa using ⟨hnormal (by decide), hnormal (by decide)⟩⟩
      bounds := by
        rintro _ (⟨⟨⟩⟩ | ⟨⟨⟩⟩)
        · exact isItem_of_all (by decide)
        · exact isItem_of_all (by decide)
      lower := by
        rintro _ ⟨⟨⟩⟩
        exact ⟨by decide, by decide⟩
      value := by
        rintro _ ⟨⟨⟩⟩
        exact ⟨isItem_of_all (by decide), by decide⟩
      settled := by decide +kernel }
  have hhandle : IsTarget "ent-12" := by
    rw [show "ent-12" = Handle.text (⟨12⟩ : EntityId) by decide]
    exact .handle (by decide) (by decide)
  have hbuyer : IsCanonical
      { kind := .reference, name := "ent-12", localName := some "buyer", unique := ["buyer"] } :=
    { clean := rfl
      unresolved := rfl
      known := by decide
      plain := fun href => absurd href (by decide)
      reference := fun _ => ⟨by
        rintro _ ⟨⟨⟩⟩
        exact hnormal (by decide), hhandle, rfl, rfl, rfl⟩
      labels := ⟨by decide, by simpa using hnormal (by decide)⟩
      bounds := by rintro _ (⟨⟨⟩⟩ | ⟨⟨⟩⟩)
      lower := by rintro _ ⟨⟨⟩⟩
      value := by rintro _ ⟨⟨⟩⟩
      settled := by decide +kernel }
  exact ⟨⟨hprice, ofLine_line_of_isCanonical hprice⟩, hbuyer, ofLine_line_of_isCanonical hbuyer⟩

end Blueprint.Attribute
