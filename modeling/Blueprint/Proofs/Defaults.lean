import Blueprint.Proofs.Sizes

/-! # Default values of a line

A default value that a line gives is accepted and written in one way, or it is cleared and
reported. There is one exception: a bit string is padded to its size, and a size that is larger
than any padding stops the reading of the line.
-/

namespace Blueprint

/-- Whether a text is a number below `2 ^ 64` in the given base. -/
def Text.Numeral.IsWord (base n : Nat) (s : String) : Prop :=
  IsNatural base n s.toList ∧ n < Nat.pow 2 64

namespace Attribute

open Text

/-! ### Values of a kind -/

/-- Whether a text is a number in base two or, if it is none there, in base ten. -/
def StandsFor (s : String) (n : Nat) : Prop :=
  Numeral.IsWord 2 n s ∨ (∀ m, ¬ Numeral.IsWord 2 m s) ∧ Numeral.IsWord 10 n s

/-- Whether a text is a value of a kind, where the size is that of bit strings, and how that
value is written. -/
inductive Canonical (size : Option Nat) : Kind → String → String → Prop where
  | integer {kind : Kind} (hkind : kind = .serial ∨ kind = .int) {s : String} {n : Int}
      (hs : Numeral.IsInteger n s.toList) (hlow : -(Nat.pow 2 63 : Nat) ≤ n)
      (hhigh : n < (Nat.pow 2 63 : Nat)) : Canonical size kind s (toString n)
  | truth {s : String} (hs : s ∈ ["1", "t", "T", "true", "TRUE", "True"]) :
      Canonical size .boolean s "true"
  | falsity {s : String} (hs : s ∈ ["0", "f", "F", "false", "FALSE", "False"]) :
      Canonical size .boolean s "false"
  | char (c : Char) : Canonical size .char (String.singleton c) (String.singleton c)
  | text (s : String) : Canonical size .string s s
  /-- A number that fits the size, which may be any if the size is not known. -/
  | bits {s : String} {n : Nat} (hs : StandsFor s n)
      (hfits : ∀ width, size = some width → 0 < width → n < Nat.pow 2 width) :
      Canonical size .bit s (.ofList ((Nat.toDigits 2 n).leftpad (size.getD 0) '0'))
  | now {kind : Kind} (hkind : kind.isTemporal) {s : String}
      (hs : s.toList.map Char.toLower = now.toList) : Canonical size kind s now
  | moment {kind : Kind} {s v : String} {m : Moment}
      (hs : s.toList.map Char.toLower ≠ Attribute.now.toList) (hread : Moment.read? kind s = some m)
      (hv : m.render? kind = some v) : Canonical size kind s v
  | number {kind : Kind} (hkind : kind ∈ [.float, .real, .decimal, .money]) {s : String}
      (hs : (Decimal.read? s).isSome) : Canonical size kind s s

variable {size : Option Nat} {kind : Kind} {s v : String}

theorem StandsFor.lt {n : Nat} (hs : StandsFor s n) : n < Nat.pow 2 64 :=
  hs.elim And.right fun h => h.2.2

theorem bitValue?_eq_some_iff {n : Nat} : bitValue? s = some n ↔ StandsFor s n := by
  have hbinary : ∀ m, Numeral.binaryWord? s = some m ↔ Numeral.IsWord 2 m s := fun m =>
    Numeral.natural?_eq_some_iff (by decide) (by decide)
  have hdecimal : Numeral.word? s = some n ↔ Numeral.IsWord 10 n s :=
    Numeral.natural?_eq_some_iff (by decide) (by decide)
  rw [bitValue?, Option.or_eq_some_iff, Option.eq_none_iff_forall_ne_some, hbinary, hdecimal,
    StandsFor]
  simp only [ne_eq, hbinary]

theorem fitsBits_iff {n : Nat} (hn : n < Nat.pow 2 64) :
    fitsBits n (size.getD 0) ↔ ∀ width, size = some width → 0 < width → n < Nat.pow 2 width := by
  cases size with
  | none => simp [fitsBits]
  | some width =>
      have hlarge : 64 ≤ width → n < Nat.pow 2 width := fun hle =>
        Nat.lt_of_lt_of_le hn (Nat.pow_le_pow_right (by decide) hle)
      simp only [fitsBits, Option.getD_some, Bool.or_eq_true, decide_eq_true_eq, Option.some.injEq]
      constructor
      · rintro ((hzero | hle) | hlt) _ rfl hpos
        · omega
        · exact hlarge hle
        · exact hlt
      · intro h
        rcases Nat.eq_zero_or_pos width with hzero | hpos
        · exact Or.inl (Or.inl hzero)
        · exact Or.inr (h width rfl hpos)

theorem truth?_eq_true_iff :
    truth? s = some true ↔ s ∈ ["1", "t", "T", "true", "TRUE", "True"] := by
  simp only [truth?, List.contains_iff_mem]
  split
  next htrue => exact iff_of_true rfl htrue
  next htrue =>
    refine iff_of_false ?_ htrue
    split <;> exact nofun

theorem truth?_eq_false_iff :
    truth? s = some false ↔ s ∈ ["0", "f", "F", "false", "FALSE", "False"] := by
  have hdisjoint : ∀ word ∈ ["0", "f", "F", "false", "FALSE", "False"],
      word ∉ ["1", "t", "T", "true", "TRUE", "True"] := by decide
  simp only [truth?, List.contains_iff_mem]
  split
  next htrue => exact iff_of_false nofun fun hfalse => hdisjoint s hfalse htrue
  next =>
    split
    next hfalse => exact iff_of_true rfl hfalse
    next hfalse => exact iff_of_false nofun hfalse

/-! ### What is accepted -/

theorem acceptDefault_bit {n : Nat} (hs : StandsFor s n)
    (hfits : ∀ width, size = some width → 0 < width → n < Nat.pow 2 width) :
    acceptDefault .bit size s = (zeroPadded (size.getD 0) (Numeral.binary n)).map some := by
  rw [acceptDefault, bits?, bitValue?_eq_some_iff.mpr hs]
  exact if_pos ((fitsBits_iff hs.lt).mpr hfits)

/-- A value of the kind is accepted in its canonical form, unless that is too wide to write. -/
theorem acceptDefault_of_canonical (h : Canonical size kind s v)
    (hwidth : kind = .bit → size.getD 0 ≤ maxPadding) :
    acceptDefault kind size s = .ok (some v) := by
  cases h with
  | integer hkind hs hlow hhigh =>
      have hread := Numeral.integer?_eq_some_iff.mpr ⟨hs, hlow, hhigh⟩
      rcases hkind with rfl | rfl
      · rw [acceptDefault, hread, Option.map_some]
      · rw [acceptDefault, hread, Option.map_some]
  | truth hs =>
      rw [acceptDefault, truth?_eq_true_iff.mpr hs]
      rfl
  | falsity hs =>
      rw [acceptDefault, truth?_eq_false_iff.mpr hs]
      rfl
  | char c => simp [acceptDefault]
  | text => rfl
  | bits hs hfits =>
      rw [acceptDefault_bit hs hfits, zeroPadded, if_pos (hwidth rfl)]
      simp [Except.map, padStart, Numeral.binary]
  | now hkind hs =>
      cases kind with
      | date | time | timestamp => exact congrArg Except.ok (if_pos hs)
      | _ => cases hkind
  | moment hs hread hv =>
      have hcanonical : Moment.canonical? kind s = some v := by
        rw [Moment.canonical?, hread, Option.bind_some, hv]
      cases kind with
      | date | time | timestamp => exact congrArg Except.ok ((if_neg hs).trans hcanonical)
      | _ => cases hv
  | number hkind hs =>
      obtain ⟨value, hread⟩ := Option.isSome_iff_exists.mp hs
      cases kind with
      | float | real | decimal | money => rw [acceptDefault, hread, Option.map_some]
      | _ => simp at hkind

/-- The values of bit strings. -/
theorem Canonical.exists_standsFor (h : Canonical size .bit s v) :
    ∃ n, StandsFor s n ∧
      ∀ width, size = some width → 0 < width → n < Nat.pow 2 width := by
  cases h with
  | bits hs hfits => exact ⟨_, hs, hfits⟩
  | integer hkind => simp at hkind
  | now hkind => cases hkind
  | moment _ _ hv => cases hv
  | number hkind => simp at hkind

theorem acceptDefault_of_wide (h : Canonical size .bit s v) (hwide : maxPadding < size.getD 0) :
    acceptDefault .bit size s = .error .paddingTooWide := by
  obtain ⟨n, hs, hfits⟩ := h.exists_standsFor
  rw [acceptDefault_bit hs hfits, zeroPadded, if_neg (Nat.not_le.mpr hwide)]
  rfl

/-- What is no value of the kind is not accepted. -/
theorem acceptDefault_of_no_canonical (h : ∀ v, ¬ Canonical size kind s v) :
    acceptDefault kind size s = .ok none := by
  have htemporal : kind.isTemporal → (if s.toList.map Char.toLower = now.toList then some now
      else Moment.canonical? kind s) = none := by
    intro hkind
    split
    next hnow => exact absurd (.now hkind hnow) (h now)
    next hnow =>
      apply Option.eq_none_iff_forall_ne_some.mpr
      intro v hv
      obtain ⟨m, hread, hrender⟩ := Option.bind_eq_some_iff.mp hv
      exact h v (.moment hnow hread hrender)
  have hinteger : kind = .serial ∨ kind = .int → Numeral.integer? s = none := by
    intro hkind
    apply Option.eq_none_iff_forall_ne_some.mpr
    intro n hn
    obtain ⟨hs, hlow, hhigh⟩ := Numeral.integer?_eq_some_iff.mp hn
    exact h _ (.integer hkind hs hlow hhigh)
  have hnumber : kind ∈ [.float, .real, .decimal, .money] → Decimal.read? s = none := by
    intro hkind
    apply Option.eq_none_iff_forall_ne_some.mpr
    intro value hread
    exact h s (.number hkind (by simp [hread]))
  cases kind with
  | unknown | reference => rfl
  | serial => rw [acceptDefault, hinteger (Or.inl rfl), Option.map_none]
  | int => rw [acceptDefault, hinteger (Or.inr rfl), Option.map_none]
  | boolean =>
      cases htruth : truth? s with
      | none =>
          rw [acceptDefault, htruth]
          rfl
      | some b =>
          cases b with
          | true => exact absurd (.truth (truth?_eq_true_iff.mp htruth)) (h _)
          | false => exact absurd (.falsity (truth?_eq_false_iff.mp htruth)) (h _)
  | char =>
      refine congrArg Except.ok (if_neg fun hone => ?_)
      obtain ⟨c, hc⟩ := List.length_eq_one_iff.mp hone
      obtain rfl : s = String.singleton c := String.toList_inj.mp (by simp [hc])
      exact h _ (.char c)
  | string => exact absurd (.text s) (h s)
  | bit =>
      rw [acceptDefault, bits?]
      cases hvalue : bitValue? s with
      | none => rfl
      | some n =>
          have hs := bitValue?_eq_some_iff.mp hvalue
          refine if_neg fun hfits => ?_
          exact h _ (.bits hs ((fitsBits_iff hs.lt).mp hfits))
  | date | time | timestamp => exact congrArg Except.ok (htemporal rfl)
  | float | real | decimal | money =>
      rw [acceptDefault, hnumber (by simp), Option.map_none]

theorem canonical_of_acceptDefault (h : acceptDefault kind size s = .ok (some v)) :
    Canonical size kind s v := by
  by_cases hvalue : ∃ value, Canonical size kind s value
  · obtain ⟨value, hvalue⟩ := hvalue
    have hwidth : kind = .bit → size.getD 0 ≤ maxPadding := by
      rintro rfl
      refine Nat.le_of_not_lt fun hwide => ?_
      rw [acceptDefault_of_wide hvalue hwide] at h
      cases h
    rw [acceptDefault_of_canonical hvalue hwidth] at h
    obtain rfl := Option.some.inj (Except.ok.inj h)
    exact hvalue
  · rw [acceptDefault_of_no_canonical fun value h => hvalue ⟨value, h⟩] at h
    cases h

/-! ### Lines -/

/-- Whether the default value that a line gives is a bit string with a size that is larger than
any padding. -/
structure Declaration.Overflows (d : Declaration) : Prop where
  read : d.IsRead
  kind : Kind.ofText (trim d.kind) = .bit
  size : ∃ bound n, d.upper? = some bound ∧ Numeral.IsNatural 10 n bound.toList ∧
    65535 < n ∧ n < Nat.pow 2 32
  value : ∃ s n, d.default? = some s ∧ StandsFor s n

/-- What becomes of the default value that a line gives. -/
structure SettlesDefault (d : Declaration) (a : Attribute) : Prop where
  kind : a.kind = Kind.ofText (trim d.kind)
  size : a.kind = .bit → a.max = d.upper?
  absent : d.default? = none → a.defaultValue = none ∧ .defaultMalformed ∉ a.defects
  /-- It is accepted and written in canonical form, or cleared and reported. -/
  given : ∀ s, d.default? = some s →
    (∃ v, Canonical a.maxSize? a.kind s v ∧ Canonical a.maxSize? a.kind v v ∧
      a.defaultValue = some v ∧ .defaultMalformed ∉ a.defects) ∨
    (∀ v, ¬ Canonical a.maxSize? a.kind s v) ∧ a.defaultValue = none ∧
      .defaultMalformed ∈ a.defects

section Spelled

variable {d : Declaration}

/-- What the last check finds on the attribute that a line spells. -/
theorem checks_spelled (d : Declaration) :
    d.spelled.checks.kind = Kind.ofText (trim d.kind) ∧
      d.spelled.checks.defaultValue.bind trimmed? = d.default? ∧
      (d.spelled.checks.kind = .bit → d.spelled.checks.max = d.upper?) ∧
      .defaultMalformed ∉ d.spelled.checks.defects := by
  have hkind : d.spelled.checks.kind = d.spelled.kind := checks_kind _
  have hvalue : d.spelled.checks.defaultValue = d.spelled.defaultValue :=
    (checks_bounds d.spelled).2.2.1
  refine ⟨hkind.trans (spelled_frame d).1, ?_, fun hbit => ?_, ?_⟩
  · rw [hvalue, spelled_default]
  · have hserial : d.spelled.kind ≠ .serial := by
      rw [← hkind, hbit]
      decide
    rw [checks_max hserial, spelled_max]
  · rw [checks_defects, (spelled_frame d).2, List.nil_append]
    exact fun hmem => absurd ((findings_sublist _).subset hmem) (by decide)

/-- A size beyond any padding is one that the line gives. -/
theorem exists_upper_of_maxPadding_lt {c : Attribute} (hmax : c.max = d.upper?)
    (hwide : maxPadding < c.maxSize?.getD 0) :
    ∃ bound n, d.upper? = some bound ∧ Numeral.IsNatural 10 n bound.toList ∧ 65535 < n ∧
      n < Nat.pow 2 32 := by
  cases hsize : c.maxSize? with
  | none => simp [hsize] at hwide
  | some n =>
      rw [hsize, Option.getD_some] at hwide
      obtain ⟨bound, hbound, _⟩ := Option.bind_eq_some_iff.mp hsize
      have hupper := hmax.symm.trans hbound
      obtain ⟨hn, hlt⟩ := (maxSize?_eq_some_iff hbound (upper?_trimmed hupper)).mp hsize
      exact ⟨bound, n, hupper, hn, hwide, hlt⟩

/-- A line that is read and has no overwide bit string for its default value is read to its end. -/
theorem exists_settlesDefault (hread : d.IsRead) (hnot : ¬ d.Overflows) :
    ∃ a, ofDeclaration d = .ok a ∧ SettlesDefault d a := by
  obtain ⟨hkind, hvalue, hmax, hdefects⟩ := checks_spelled d
  have hsettle : ofDeclaration d = d.spelled.checks.settleDefault :=
    ofDeclaration_eq_settle hread.1 hread.2
  rw [hsettle, settleDefault, hvalue]
  generalize d.spelled.checks = c at hkind hmax hdefects
  cases hgiven : d.default? with
  | none =>
      refine ⟨_, rfl, hkind, hmax, fun _ => ⟨rfl, hdefects⟩, ?_⟩
      intro s hs
      cases hgiven.symm.trans hs
  | some s =>
      have hsame : ∀ t, d.default? = some t → t = s := fun t ht =>
        (Option.some.inj (hgiven.symm.trans ht)).symm
      dsimp only
      by_cases hcanonical : ∃ v, Canonical c.maxSize? c.kind s v
      · obtain ⟨v, hcanonical⟩ := hcanonical
        have hwidth : c.kind = .bit → c.maxSize?.getD 0 ≤ maxPadding := by
          intro hbit
          refine Nat.le_of_not_lt fun hwide => hnot ?_
          obtain ⟨n, hs, _⟩ := (hbit ▸ hcanonical).exists_standsFor
          exact ⟨hread, hkind.symm.trans hbit, exists_upper_of_maxPadding_lt (hmax hbit) hwide,
            s, n, hgiven, hs⟩
        have haccept := acceptDefault_of_canonical hcanonical hwidth
        rw [haccept]
        refine ⟨_, rfl, hkind, hmax, fun hnone => ?_, fun t ht => Or.inl ?_⟩
        · cases hgiven.symm.trans hnone
        · rw [hsame t ht]
          exact ⟨v, hcanonical, canonical_of_acceptDefault (acceptDefault_again haccept), rfl,
            hdefects⟩
      · have hnone : ∀ v, ¬ Canonical c.maxSize? c.kind s v := fun v h => hcanonical ⟨v, h⟩
        rw [acceptDefault_of_no_canonical hnone]
        refine ⟨_, rfl, hkind, hmax, fun hnone => ?_, fun t ht => Or.inr ?_⟩
        · cases hgiven.symm.trans hnone
        · rw [hsame t ht]
          exact ⟨hnone, rfl, List.mem_append_right _ (List.mem_singleton_self _)⟩

theorem ofDeclaration_of_overflows (h : d.Overflows) :
    ofDeclaration d = .error .paddingTooWide := by
  obtain ⟨hread, hbit, ⟨bound, width, hupper, hwidth, hwide, hlt⟩, s, n, hgiven, hs⟩ := h
  obtain ⟨hkind, hvalue, hmax, _⟩ := checks_spelled d
  have hsettle : ofDeclaration d = d.spelled.checks.settleDefault :=
    ofDeclaration_eq_settle hread.1 hread.2
  rw [hsettle, settleDefault, hvalue, hgiven]
  generalize d.spelled.checks = c at hkind hmax
  rw [hbit] at hkind
  have hsize : c.maxSize? = some width := (maxSize?_eq_some_iff ((hmax hkind).trans hupper)
    (upper?_trimmed hupper)).mpr ⟨hwidth, hlt⟩
  -- A number that can be read fits any size from 64 on.
  have hfits : ∀ w, c.maxSize? = some w → 0 < w → n < Nat.pow 2 w := by
    intro w hw _
    obtain rfl := Option.some.inj (hsize.symm.trans hw)
    exact Nat.lt_of_lt_of_le hs.lt (Nat.pow_le_pow_right (by decide) (by omega))
  dsimp only
  rw [hkind, acceptDefault_of_wide (.bits hs hfits) (by rw [hsize]; exact hwide)]
  rfl

end Spelled

/-- Every line is read to its end, unless its default value is a bit string with a size beyond
any padding, which stops the reading. A default value that was given is accepted and written in
canonical form, or cleared and reported, provided that reading comes to the options. -/
theorem ofLine_default (line : String) :
    let d := Declaration.ofText (lineBody line)
    (∀ fault, ofLine line = .error fault ↔ fault = .paddingTooWide ∧ d.Overflows) ∧
      (¬ d.Overflows → ∃ a, ofLine line = .ok a ∧
        (d.IsRead → SettlesDefault d a) ∧ (¬ d.IsRead → a.IsUnread)) := by
  intro d
  have hends : ¬ d.Overflows → ∃ a, ofLine line = .ok a ∧
      (d.IsRead → SettlesDefault d a) ∧ (¬ d.IsRead → a.IsUnread) := by
    intro hnot
    by_cases hread : d.IsRead
    · obtain ⟨a, ha, hsettles⟩ := exists_settlesDefault hread hnot
      exact ⟨a, ha, fun _ => hsettles, fun h => absurd hread h⟩
    · obtain ⟨a, ha, hunread⟩ := isUnread_of_not_isRead hread
      exact ⟨a, ha, fun h => absurd h hread, fun _ => hunread⟩
  refine ⟨fun fault => ⟨fun hfault => ?_, ?_⟩, hends⟩
  · by_cases hover : d.Overflows
    · have herror : ofLine line = .error .paddingTooWide := ofDeclaration_of_overflows hover
      exact ⟨Except.error.inj (hfault.symm.trans herror), hover⟩
    · obtain ⟨a, ha, _⟩ := hends hover
      cases hfault.symm.trans ha
  · rintro ⟨rfl, hover⟩
    exact ofDeclaration_of_overflows hover

/-- A size of 65536 stops the reading, and with a size of 8 the value is padded. -/
theorem ofLine_default_mask :
    ofLine "- mask as bit with ..65536, default:1" = .error .paddingTooWide ∧
      (Declaration.ofText (lineBody "- mask as bit with ..65536, default:1")).Overflows ∧
      ofLine "- mask as bit with ..8, default:5" =
        .ok { kind := .bit, name := "mask", max := some "8", defaultValue := some "00000101" } ∧
      ¬ (Declaration.ofText (lineBody "- mask as bit with ..8, default:5")).Overflows := by
  have hwide : ofLine "- mask as bit with ..65536, default:1" = .error .paddingTooWide := by
    decide +kernel
  have hpadded : ofLine "- mask as bit with ..8, default:5" =
      .ok { kind := .bit, name := "mask", max := some "8", defaultValue := some "00000101" } := by
    decide +kernel
  have hfaults := (ofLine_default "- mask as bit with ..65536, default:1").1 .paddingTooWide
  refine ⟨hwide, (hfaults.mp hwide).2, hpadded, fun hover => ?_⟩
  have hfaults := (ofLine_default "- mask as bit with ..8, default:5").1 .paddingTooWide
  rw [hpadded] at hfaults
  cases hfaults.mpr ⟨rfl, hover⟩

end Attribute

end Blueprint
