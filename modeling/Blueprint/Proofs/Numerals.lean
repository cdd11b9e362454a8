import Blueprint.Proofs.Values

/-! # Texts of numbers

Which texts are read as a number, and as which one. The texts of a number are its digits with
any number of zeros before them, and where a sign is allowed also with a plus. A whole number
that both readers take, the one of sizes and the one of decimals, is the same to both of them,
and a decimal without a minus, a point and an exponent is such a number unless it is too large.
-/

namespace Blueprint.Text

namespace Numeral

variable {base n : Nat} {cs : List Char}

/-- Whether characters are the digits of a number, with zeros before them or without. -/
def IsDigits (base n : Nat) (cs : List Char) : Prop :=
  ∃ zeros, cs = List.replicate zeros '0' ++ Nat.toDigits base n

/-- Whether characters are the digits of a number, with a plus before them or without. -/
def IsNatural (base n : Nat) (cs : List Char) : Prop :=
  IsDigits base n cs ∨ ∃ ds, cs = '+' :: ds ∧ IsDigits base n ds

/-- Whether characters are a number with its sign. Zero may have either sign. -/
def IsInteger (n : Int) (cs : List Char) : Prop :=
  (0 ≤ n ∧ IsNatural 10 n.toNat cs) ∨ (n ≤ 0 ∧ ∃ ds, cs = '-' :: ds ∧ IsDigits 10 n.natAbs ds)

/-! ### Digits -/

theorem eq_digitChar_of_digit? {c : Char} {d : Nat} (hbase : base ≤ 10)
    (h : digit? base c = some d) : c = d.digitChar ∧ d < base := by
  simp only [digit?, Option.ite_none_right_eq_some, Bool.and_eq_true, decide_eq_true_eq,
    Option.some.injEq] at h
  obtain ⟨⟨hdigit, hlt⟩, rfl⟩ := h
  refine ⟨Char.toNat_inj.mp ?_, hlt⟩
  have hzero : '0'.toNat ≤ c.toNat := (Char.isDigit_iff_toNat.mp hdigit).1
  rw [Nat.toNat_digitChar_of_lt_ten (Nat.lt_of_lt_of_le hlt hbase)]
  exact (Nat.add_sub_of_le hzero).symm

theorem isDigits_concat (hone : 1 < base) {d : Nat} (hd : d < base) (h : IsDigits base n cs) :
    IsDigits base (base * n + d) (cs ++ [d.digitChar]) := by
  obtain ⟨zeros, rfl⟩ := h
  rcases Nat.eq_zero_or_pos n with rfl | hpos
  · -- A zero in front is one zero more.
    refine ⟨zeros + 1, ?_⟩
    rw [Nat.mul_zero, Nat.zero_add, Nat.toDigits_of_lt_base hd, List.replicate_succ',
      Nat.toDigits_of_lt_base (by omega)]
    rfl
  · refine ⟨zeros, ?_⟩
    rw [← Nat.toDigits_append_toDigits hone hpos hd, Nat.toDigits_of_lt_base hd, List.append_assoc]

theorem isDigits_of_digitsFrom? (hone : 1 < base) (hbase : base ≤ 10) (hne : cs ≠ [])
    (h : digitsFrom? base 0 cs = some n) : IsDigits base n cs := by
  induction cs using List.reverseRecOn generalizing n with
  | nil => exact absurd rfl hne
  | append_singleton cs c ih =>
      rw [digitsFrom?_append] at h
      obtain ⟨high, hhigh, hlast⟩ := Option.bind_eq_some_iff.mp h
      obtain ⟨d, hdigit, hsum⟩ := Option.bind_eq_some_iff.mp hlast
      obtain ⟨rfl, hd⟩ := eq_digitChar_of_digit? hbase hdigit
      obtain rfl := Option.some.inj hsum
      by_cases hfirst : cs = []
      · subst hfirst
        obtain rfl := Option.some.inj hhigh
        exact ⟨0, by simp [Nat.toDigits_of_lt_base hd]⟩
      · exact isDigits_concat hone hd (ih hfirst hhigh)

theorem digits?_eq_some_iff (hone : 1 < base) (hbase : base ≤ 10) :
    digits? base cs = some n ↔ IsDigits base n cs := by
  constructor
  · intro h
    obtain ⟨hne, _⟩ := of_digits? h
    rw [digits?, if_neg (by simpa using hne)] at h
    exact isDigits_of_digitsFrom? hone hbase hne h
  · rintro ⟨zeros, rfl⟩
    have hpad : List.replicate zeros '0' ++ Nat.toDigits base n =
        (Nat.toDigits base n).leftpad (zeros + (Nat.toDigits base n).length) '0' := by
      rw [List.leftpad, Nat.add_sub_cancel]
    rw [hpad, digits?_leftpad hone hbase]

theorem IsDigits.isDigit (hbase : 0 < base) (hten : base ≤ 10) (h : IsDigits base n cs) :
    cs ≠ [] ∧ ∀ c ∈ cs, c.isDigit := by
  obtain ⟨zeros, rfl⟩ := h
  refine ⟨by simp, fun c hc => ?_⟩
  rcases List.mem_append.mp hc with hc | hc
  · rw [(List.mem_replicate.mp hc).2]
    decide
  · exact Nat.isDigit_of_mem_toDigits hbase hten hc

/-! ### Signs -/

theorem not_isDigits_of_head {c : Char} (hc : c.isDigit = false) (hbase : 0 < base)
    (hten : base ≤ 10) : ¬ IsDigits base n (c :: cs) := by
  intro h
  have hdigit := (h.isDigit hbase hten).2 c List.mem_cons_self
  exact absurd (hdigit.symm.trans hc) (by decide)

theorem natural?_eq_some_iff (hone : 1 < base) (hbase : base ≤ 10) {bound : Nat} :
    natural? base bound cs = some n ↔ IsNatural base n cs ∧ n < bound := by
  rw [natural?, Option.filter_eq_some_iff, decide_eq_true_eq, digits?_eq_some_iff hone hbase]
  refine and_congr_left fun _ => ?_
  cases hplus : Chars.stripStart? ['+'] cs with
  | some ds =>
      obtain rfl : cs = '+' :: ds := Chars.stripStart?_eq_some_iff.mp hplus
      rw [Option.getD_some]
      constructor
      · exact fun hds => Or.inr ⟨ds, rfl, hds⟩
      · rintro (hdigits | ⟨ds', heq, hds⟩)
        · exact absurd hdigits (not_isDigits_of_head (by decide) (by omega) hbase)
        · rwa [(List.cons.inj heq).2]
  | none =>
      rw [Option.getD_none]
      refine ⟨Or.inl, ?_⟩
      rintro (hdigits | ⟨ds, rfl, _⟩)
      · exact hdigits
      · exact absurd (List.prefix_append ['+'] ds) (Chars.stripStart?_eq_none_iff.mp hplus)

/-- A text is that of one number only. -/
theorem IsNatural.unique (hone : 1 < base) (hbase : base ≤ 10) {m : Nat}
    (h : IsNatural base n cs) (h' : IsNatural base m cs) : n = m := by
  have hread := fun {k : Nat} (hk : IsNatural base k cs) (hlt : k < n + m + 1) =>
    (natural?_eq_some_iff hone hbase).mpr ⟨hk, hlt⟩
  exact Option.some.inj ((hread h (by omega)).symm.trans (hread h' (by omega)))

theorem IsNatural.eq_plus_or_isDigit (h : IsNatural 10 n cs) {c : Char} (hc : c ∈ cs) :
    c = '+' ∨ c.isDigit := by
  rcases h with hdigits | ⟨ds, rfl, hds⟩
  · exact Or.inr ((hdigits.isDigit (by decide) (by decide)).2 c hc)
  · exact (List.mem_cons.mp hc).imp_right ((hds.isDigit (by decide) (by decide)).2 c)

theorem size?_eq_some_iff {s : String} :
    size? s = some n ↔ IsNatural 10 n s.toList ∧ n < Nat.pow 2 32 :=
  natural?_eq_some_iff (by decide) (by decide)

theorem integer?_eq_some_iff {s : String} {n : Int} :
    integer? s = some n ↔
      IsInteger n s.toList ∧ -(Nat.pow 2 63 : Nat) ≤ n ∧ n < (Nat.pow 2 63 : Nat) := by
  constructor
  · intro h
    refine ⟨?_, bounds_of_integer? h⟩
    by_cases hs : s.toList.head? = some '-'
    · obtain ⟨rest, hrest⟩ := List.head?_eq_some_iff.mp hs
      rw [integer?_of_hyphen hrest] at h
      obtain ⟨m, hm, rfl⟩ := Option.map_eq_some_iff.mp h
      have hdigits := (digits?_eq_some_iff (by decide) (by decide)).mp
        (Option.filter_eq_some_iff.mp hm).1
      refine Or.inr ⟨by omega, rest, hrest, ?_⟩
      rwa [Int.natAbs_neg, Int.natAbs_natCast]
    · rw [integer?_of_plain hs] at h
      obtain ⟨m, hm, rfl⟩ := Option.map_eq_some_iff.mp h
      exact Or.inl ⟨by omega, ((natural?_eq_some_iff (by decide) (by decide)).mp hm).1⟩
  · rintro ⟨⟨hpos, hnatural⟩ | ⟨hneg, ds, hs, hds⟩, hlow, hhigh⟩
    · have hbound : n.toNat < Nat.pow 2 63 := by omega
      have hplain : s.toList.head? ≠ some '-' := fun hhead =>
        absurd (hnatural.eq_plus_or_isDigit (List.mem_of_head? hhead)) (by decide)
      rw [integer?_of_plain hplain,
        (natural?_eq_some_iff (by decide) (by decide)).mpr ⟨hnatural, hbound⟩, Option.map_some,
        Int.toNat_of_nonneg hpos]
    · have hbound : n.natAbs ≤ Nat.pow 2 63 := by omega
      rw [integer?_of_hyphen hs, (digits?_eq_some_iff (by decide) (by decide)).mpr hds,
        Option.filter_some_pos (by simpa using hbound), Option.map_some]
      congr 1
      omega

end Numeral

/-! ### Decimals -/

namespace Decimal

open Numeral

variable {n : Nat} {cs : List Char}

/-- A decimal without a minus, a point and an exponent is a whole number. -/
theorem exists_isNatural_of_ofChars? {value : Decimal} (h : ofChars? cs = some value)
    (hplain : ∀ c ∈ ['-', '.', 'e', 'E'], c ∉ cs) : ∃ n, IsNatural 10 n cs := by
  have hsign : cs = (sign cs).2 ∨ cs = '+' :: (sign cs).2 := by
    unfold sign
    split
    next => exact absurd List.mem_cons_self (hplain '-' (by simp))
    next => exact Or.inr rfl
    next => exact Or.inl rfl
  unfold ofChars? at h
  dsimp only at h
  obtain ⟨n, hdigits, h⟩ := Option.bind_eq_some_iff.mp h
  obtain ⟨power, hpower, _⟩ := Option.map_eq_some_iff.mp h
  generalize (sign cs).2 = rest at hsign hdigits hpower
  have hsubset : rest ⊆ cs := by
    rcases hsign with rfl | rfl
    · exact List.Subset.refl _
    · exact List.subset_cons_self _ _
  -- What follows the digits would start a fraction or an exponent.
  have hend : rest.dropWhile Char.isDigit = [] := by
    cases hafter : rest.dropWhile Char.isDigit with
    | nil => rfl
    | cons c tail =>
        have hmem : c ∈ cs :=
          hsubset ((List.dropWhile_suffix _).subset (hafter ▸ List.mem_cons_self))
        have hc : ∀ d ∈ ['-', '.', 'e', 'E'], c ≠ d := fun d hd heq => hplain d hd (heq ▸ hmem)
        have hfraction : fraction (c :: tail) = ([], c :: tail) := by
          unfold fraction
          split
          next heq => exact absurd (List.cons.inj heq).1 (hc '.' (by simp))
          next => rfl
        rw [hafter, hfraction, exponent?,
          if_neg (not_or.mpr ⟨hc 'e' (by simp), hc 'E' (by simp)⟩)] at hpower
        cases hpower
  have hall : rest.takeWhile Char.isDigit = rest :=
    List.takeWhile_eq_self_iff.mpr (List.dropWhile_eq_nil_iff.mp hend)
  rw [hend, hall, show (fraction []).1 = [] from rfl, List.append_nil] at hdigits
  have hrest := (digits?_eq_some_iff (by decide) (by decide)).mp hdigits
  rcases hsign with heq | heq
  · exact ⟨n, Or.inl (heq ▸ hrest)⟩
  · exact ⟨n, Or.inr ⟨rest, heq, hrest⟩⟩

/-- A text that is read and has none of the marks of other decimals is that of a whole number. -/
theorem exists_isNatural_of_read? {s : String} (htrim : trim s = s) (h : (read? s).isSome)
    (hplain : ∀ c ∈ ['-', '.', 'e', 'E'], c ∉ s.toList) : ∃ n, IsNatural 10 n s.toList := by
  obtain ⟨value, hvalue⟩ := Option.isSome_iff_exists.mp h
  obtain ⟨written, hwritten, _⟩ := Option.bind_eq_some_iff.mp hvalue
  rw [trim_eq_self_iff.mp htrim] at hwritten
  exact exists_isNatural_of_ofChars? hwritten hplain

theorem sign_of_isNatural (h : IsNatural 10 n cs) :
    ∃ ds, sign cs = (false, ds) ∧ IsDigits 10 n ds := by
  rcases h with hdigits | ⟨ds, rfl, hds⟩
  · refine ⟨cs, ?_, hdigits⟩
    unfold sign
    split
    next => exact absurd hdigits (not_isDigits_of_head (by decide) (by decide) (by decide))
    next => exact absurd hdigits (not_isDigits_of_head (by decide) (by decide) (by decide))
    next => rfl
  · exact ⟨ds, rfl, hds⟩

theorem ofChars?_of_isNatural (h : IsNatural 10 n cs) : ofChars? cs = some ⟨false, n, 0⟩ := by
  obtain ⟨ds, hsign, hds⟩ := sign_of_isNatural h
  have hall := (hds.isDigit (by decide) (by decide)).2
  have htake : ds.takeWhile Char.isDigit = ds := List.takeWhile_eq_self_iff.mpr hall
  have hdrop : ds.dropWhile Char.isDigit = [] := List.dropWhile_eq_nil_iff.mpr hall
  unfold ofChars?
  rw [hsign]
  dsimp only
  rw [htake, hdrop, show fraction [] = ([], []) from rfl, List.append_nil,
    (digits?_eq_some_iff (by decide) (by decide)).mpr hds]
  rfl

theorem roundDiv_of_dvd {num den : Nat} (hpos : 0 < den) (h : den ∣ num) :
    roundDiv num den = num / den := by
  unfold roundDiv
  rw [Nat.mod_eq_zero_of_dvd h]
  exact if_pos hpos

/-- Rounding to `bits` significant bits keeps a number that has no more of them. -/
theorem roundDiv_spacing {bits : Nat} (hzero : n ≠ 0) (hn : n < Nat.pow 2 bits) (scale : Nat) :
    let spacing := Nat.pow 2 ((n * Nat.pow 2 scale).log2 + 1 - bits)
    roundDiv (n * Nat.pow 2 scale) spacing * spacing = n * Nat.pow 2 scale := by
  intro spacing
  have hscale : 0 < Nat.pow 2 scale := Nat.two_pow_pos scale
  have hlog : (n * Nat.pow 2 scale).log2 < bits + scale := by
    rw [Nat.log2_lt (Nat.mul_ne_zero hzero hscale.ne'), Nat.pow_add]
    exact Nat.mul_lt_mul_of_pos_right hn hscale
  have hspacing : 0 < spacing := Nat.two_pow_pos _
  have hdvd : spacing ∣ n * Nat.pow 2 scale :=
    Nat.dvd_mul_left_of_dvd (Nat.pow_dvd_pow 2 (by omega)) n
  rw [roundDiv_of_dvd hspacing hdvd, Nat.div_mul_cancel hdvd]

/-- A whole number of up to 53 bits is its own nearest binary fraction. -/
theorem value?_ofNat (hn : n < Nat.pow 2 precision) :
    value? ⟨false, n, 0⟩ = some (n * unitScale : Nat) := by
  suffices hmagnitude : magnitude? ⟨false, n, 0⟩ = some (n * unitScale) by
    rw [value?, hmagnitude]
    rfl
  unfold magnitude?
  by_cases hzero : n = 0
  · rw [if_pos hzero, hzero, Nat.zero_mul]
  have hlength : (Nat.toDigits 10 n).length ≤ 16 := by
    rw [Nat.length_toDigits_le_iff (by decide) (by decide)]
    exact Nat.lt_trans hn (by decide)
  -- Which power of two the units are does not matter, as long as it is one.
  obtain ⟨scale, hscale⟩ : ∃ scale, unitScale = Nat.pow 2 scale := by
    unfold unitScale
    generalize 1074 = scale
    exact ⟨scale, rfl⟩
  have hrange : n * unitScale < rangeEnd := by
    have hpos : 0 < unitScale := hscale ▸ Nat.two_pow_pos scale
    have hbits : precision ≤ 1024 := by decide
    unfold rangeEnd
    generalize 1024 = bits at hbits ⊢
    have hle : Nat.pow 2 precision ≤ Nat.pow 2 bits := Nat.pow_le_pow_right (by decide) hbits
    exact Nat.mul_lt_mul_of_pos_right (Nat.lt_of_lt_of_le hn hle) hpos
  have hrounded := roundDiv_spacing hzero hn scale
  dsimp only at hrounded
  rw [← hscale] at hrounded
  have hone : Nat.pow 10 0 = 1 := rfl
  dsimp only
  rw [if_neg hzero, if_neg (by omega), if_neg (by omega)]
  simp only [Int.toNat_zero, Int.neg_zero, hone, Nat.mul_one, Nat.div_one, Nat.one_mul, hrounded,
    hrange, if_true]

/-- The text of a whole number is read as that number. -/
theorem read?_of_isNatural {s : String} (htrim : trim s = s) (h : IsNatural 10 n s.toList)
    (hn : n < Nat.pow 2 precision) : read? s = some (n * unitScale : Nat) := by
  rw [read?, trim_eq_self_iff.mp htrim, ofChars?_of_isNatural h, Option.bind_some, value?_ofNat hn]

end Decimal

end Blueprint.Text
