import Blueprint.Proofs.Defaults

/-! # Bit strings that fill their column

A default value of a bit column is a number in base two or, failing that, in base ten. It is
accepted exactly if it fits the size of the column, and it is then written with that many binary
digits.
-/

namespace Blueprint

namespace Text.Numeral

theorem exists_digit?_of_digitsFrom? {base high n : Nat} {cs : List Char}
    (h : digitsFrom? base high cs = some n) : ∀ c ∈ cs, ∃ d, digit? base c = some d := by
  induction cs generalizing high with
  | nil => exact fun _ hc => absurd hc List.not_mem_nil
  | cons c cs ih =>
      obtain ⟨d, hd, hrest⟩ := Option.bind_eq_some_iff.mp h
      exact List.forall_mem_cons.mpr ⟨⟨d, hd⟩, ih hrest⟩

end Text.Numeral

namespace Attribute

open Text

variable {s r : String} {width v : Nat}

/-- Whether a text consists of exactly `width` binary digits and has the value `v`. -/
structure IsBitString (width v : Nat) (s : String) : Prop where
  length : s.toList.length = width
  digits : ∀ c ∈ s.toList, c = '0' ∨ c = '1'
  value : Nat.ofDigitChars 2 s.toList 0 = v

/-! ### Writing -/

theorem eq_zero_or_one_of_mem_leftpad {c : Char}
    (hc : c ∈ (Nat.toDigits 2 v).leftpad width '0') : c = '0' ∨ c = '1' := by
  have hread : Numeral.digits? 2 ((Nat.toDigits 2 v).leftpad width '0') = some v :=
    Numeral.digits?_leftpad (by decide) (by decide) width v
  unfold Numeral.digits? at hread
  obtain ⟨_, hread⟩ := Option.ite_none_left_eq_some.mp hread
  obtain ⟨d, hd⟩ := Numeral.exists_digit?_of_digitsFrom? hread c hc
  obtain ⟨rfl, hlt⟩ := Numeral.eq_digitChar_of_digit? (by decide) hd
  rcases (by omega : d = 0 ∨ d = 1) with rfl | rfl
  · exact Or.inl rfl
  · exact Or.inr rfl

/-- A number that fits is padded to a bit string. -/
theorem isBitString_padStart (hpos : 0 < width) (hv : v < Nat.pow 2 width) :
    IsBitString width v (padStart '0' width (Numeral.binary v)) := by
  have htext : (padStart '0' width (Numeral.binary v)).toList =
      (Nat.toDigits 2 v).leftpad width '0' := by
    rw [padStart, Numeral.binary, String.toList_ofList, String.toList_ofList]
  refine ⟨?_, ?_, ?_⟩
  · have hshort := (Nat.length_toDigits_le_iff (b := 2) (by decide) hpos).mpr hv
    rw [htext, List.length_leftpad, Nat.max_eq_left hshort]
  · intro c hc
    rw [htext] at hc
    exact eq_zero_or_one_of_mem_leftpad hc
  · rw [htext, List.leftpad, Nat.ofDigitChars_append, Nat.ofDigitChars_replicate_zero,
      Nat.mul_zero, Nat.ofDigitChars_toDigits (by decide) (by decide)]

theorem bits?_of_standsFor (hs : StandsFor s v) (hpos : 0 < width) (hwidth : width ≤ maxPadding) :
    bits? s width = .ok (if v < Nat.pow 2 width then
      some (padStart '0' width (Numeral.binary v)) else none) := by
  have hread := bitValue?_eq_some_iff.mpr hs
  have hfits : fitsBits v width ↔ v < Nat.pow 2 width :=
    (@fitsBits_iff (some width) v hs.lt).trans
      ⟨fun h => h width rfl hpos, fun h w hw _ => Option.some.inj hw ▸ h⟩
  rw [bits?, hread]
  dsimp only
  by_cases hv : v < Nat.pow 2 width
  · rw [if_pos (hfits.mpr hv), if_pos hv, zeroPadded, if_pos hwidth]
    rfl
  · rw [if_neg (mt hfits.mp hv), if_neg hv]

theorem bits?_of_no_standsFor (hs : ∀ v, ¬ StandsFor s v) : bits? s width = .ok none := by
  have hread : bitValue? s = none := Option.eq_none_iff_forall_ne_some.mpr fun v hv =>
    hs v (bitValue?_eq_some_iff.mp hv)
  rw [bits?, hread]

/-- In a column of up to 65535 bits, a text is accepted exactly if it stands for a number that
fits the column. What is written then has as many binary digits as the column has bits and the
value of that number, and it is accepted as it stands. -/
theorem bits?_fills_column (s : String) {width : Nat} (hpos : 1 ≤ width)
    (hwidth : width ≤ 65535) :
    ∃ answer, bits? s width = .ok answer ∧
      (answer.isSome ↔ ∃ v, StandsFor s v ∧ v < Nat.pow 2 width) ∧
      ∀ r, answer = some r →
        (∀ v, StandsFor s v → IsBitString width v r) ∧ bits? r width = .ok (some r) := by
  by_cases hs : ∃ v, StandsFor s v
  · obtain ⟨v, hv⟩ := hs
    have hanswer := bits?_of_standsFor hv hpos hwidth
    have hvalue := bitValue?_eq_some_iff.mpr hv
    have hunique : ∀ v', StandsFor s v' → v' = v := fun v' hv' =>
      Option.some.inj ((bitValue?_eq_some_iff.mpr hv').symm.trans hvalue)
    refine ⟨_, hanswer, ?_, fun r hr => ?_⟩
    · rw [Option.isSome_ite]
      constructor
      · exact fun hfits => ⟨v, hv, hfits⟩
      · rintro ⟨v', hv', hfits⟩
        exact hunique v' hv' ▸ hfits
    · rw [hr] at hanswer
      obtain ⟨hfits, hdigits⟩ := Option.ite_none_right_eq_some.mp hr
      obtain rfl := Option.some.inj hdigits
      refine ⟨fun v' hv' => ?_, (bits?_again hanswer).1⟩
      rw [hunique v' hv']
      exact isBitString_padStart hpos hfits
  · refine ⟨none, bits?_of_no_standsFor fun v hv => hs ⟨v, hv⟩, ?_, fun _ hr => nomatch hr⟩
    refine iff_of_false Bool.false_ne_true ?_
    rintro ⟨v, hv, _⟩
    exact hs ⟨v, hv⟩

/-- The largest word fills 64 bits and needs every one of them. -/
theorem bits?_fills_column_word :
    bits? "18446744073709551615" 64 = .ok (some (.ofList (List.replicate 64 '1'))) ∧
      IsBitString 64 18446744073709551615 (.ofList (List.replicate 64 '1')) ∧
      bits? "18446744073709551615" 63 = .ok none ∧
      ¬ ∃ v, StandsFor "18446744073709551615" v ∧ v < Nat.pow 2 63 := by
  obtain ⟨hfull, hshort, hword⟩ :
      bits? "18446744073709551615" 64 = .ok (some (.ofList (List.replicate 64 '1'))) ∧
        bits? "18446744073709551615" 63 = .ok none ∧
        bitValue? "18446744073709551615" = some 18446744073709551615 := by
    decide +kernel
  obtain ⟨_, hanswer, _, hwritten⟩ :=
    bits?_fills_column "18446744073709551615" (by decide : 1 ≤ 64) (by decide)
  obtain ⟨_, hnone, hfits, _⟩ :=
    bits?_fills_column "18446744073709551615" (by decide : 1 ≤ 63) (by decide)
  rw [hfull] at hanswer
  rw [hshort] at hnone
  obtain rfl := Except.ok.inj hanswer
  obtain rfl := Except.ok.inj hnone
  exact ⟨hfull, (hwritten _ rfl).1 _ (bitValue?_eq_some_iff.mp hword), hshort,
    fun h => absurd (hfits.mpr h) Bool.false_ne_true⟩

end Attribute

end Blueprint
