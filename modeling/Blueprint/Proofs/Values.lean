import Blueprint.Proofs.Cuts
import Blueprint.Proofs.Literals

/-! # Values in canonical form

Numbers, bit strings and moments are written so that reading them gives the same value.
So the canonical form of a default value is acceptable and its own canonical form, and
it can stand among the options of a line.
-/

namespace Blueprint.Text.Numeral

variable {base : Nat}

/-! ### Numbers -/

theorem digitsFrom?_append (high : Nat) (cs ds : List Char) :
    digitsFrom? base high (cs ++ ds) =
      (digitsFrom? base high cs).bind fun value => digitsFrom? base value ds := by
  induction cs generalizing high with
  | nil => rfl
  | cons c cs ih =>
      simp only [List.cons_append, digitsFrom?, ih, Option.bind_assoc]

theorem digitsFrom?_digitChar {d : Nat} (hd : d < base) (hbase : base ≤ 10) (high : Nat) :
    digitsFrom? base high [d.digitChar] = some (base * high + d) := by
  have hten : d < 10 := by omega
  have hdigit : digit? base d.digitChar = some d := by
    have hvalue : d.digitChar.toNat - '0'.toNat = d := Nat.toNat_digitChar_sub_48_of_lt_ten hten
    rw [digit?, Nat.isDigit_digitChar, hvalue]
    simp [hd, hten]
  simp [digitsFrom?, hdigit]

theorem digitsFrom?_toDigits (hone : 1 < base) (hbase : base ≤ 10) (n : Nat) :
    digitsFrom? base 0 (Nat.toDigits base n) = some n := by
  induction n using Nat.base_induction base hone with
  | single n hn =>
      rw [Nat.toDigits_of_lt_base hn, digitsFrom?_digitChar hn hbase, Nat.mul_zero, Nat.zero_add]
  | digit n d hd hn ih =>
      rw [← Nat.toDigits_append_toDigits hone hn hd, digitsFrom?_append, ih,
        Nat.toDigits_of_lt_base hd]
      exact digitsFrom?_digitChar hd hbase n

/-- Zeros before a number do not change it. -/
theorem digits?_leftpad (hone : 1 < base) (hbase : base ≤ 10) (width n : Nat) :
    digits? base ((Nat.toDigits base n).leftpad width '0') = some n := by
  have hzeros : ∀ count, digitsFrom? base 0 (List.replicate count '0') = some 0 := by
    intro count
    induction count with
    | zero => rfl
    | succ count ih =>
        have hzero : digitsFrom? base 0 [Nat.digitChar 0] = some (base * 0 + 0) :=
          digitsFrom?_digitChar (by omega) hbase 0
        rw [List.replicate_succ', digitsFrom?_append, ih]
        exact hzero
  have hne : ((Nat.toDigits base n).leftpad width '0').isEmpty = false := by
    simp [List.leftpad]
  rw [digits?, hne, List.leftpad, digitsFrom?_append, hzeros]
  exact digitsFrom?_toDigits hone hbase n

theorem isDigit_of_mem_leftpad (hbase : 0 < base) (hten : base ≤ 10) {width n : Nat} {c : Char}
    (hc : c ∈ (Nat.toDigits base n).leftpad width '0') : c.isDigit := by
  rw [List.leftpad, List.mem_append, List.mem_replicate] at hc
  rcases hc with ⟨_, rfl⟩ | hc
  · decide
  · exact Nat.isDigit_of_mem_toDigits hbase hten hc

theorem natural?_leftpad (hone : 1 < base) (hbase : base ≤ 10) {bound n : Nat} (hn : n < bound)
    (width : Nat) :
    natural? base bound ((Nat.toDigits base n).leftpad width '0') = some n := by
  have hsign : Chars.stripStart? ['+'] ((Nat.toDigits base n).leftpad width '0') = none := by
    rw [Chars.stripStart?_eq_none_iff]
    intro hplus
    have hmem := hplus.subset (List.mem_singleton_self '+')
    have hdigit := isDigit_of_mem_leftpad (by omega) hbase hmem
    exact absurd hdigit (by decide)
  rw [natural?, hsign, Option.getD_none, digits?_leftpad hone hbase]
  simp [hn]

theorem toList_toString (n : Nat) : (toString n).toList = (Nat.toDigits 10 n).leftpad 0 '0' := by
  rw [Nat.toString_eq_repr, Nat.toList_repr]
  simp [List.leftpad]

theorem size?_toString {n : Nat} (hn : n < Nat.pow 2 32) : size? (toString n) = some n := by
  rw [size?, toList_toString]
  exact natural?_leftpad (by decide) (by decide) hn 0

theorem integer?_of_hyphen {s : String} {rest : List Char} (hs : s.toList = '-' :: rest) :
    integer? s = ((digits? 10 rest).filter (· ≤ Nat.pow 2 63)).map fun n : Nat => -(n : Int) := by
  unfold integer?
  split
  next rest' hrest =>
    obtain rfl : rest' = rest := (List.cons.inj (hrest.symm.trans hs)).2
    cases (digits? 10 rest').filter fun n => decide (n ≤ Nat.pow 2 63) <;> rfl
  next hplain => exact absurd hs (hplain rest)

theorem integer?_of_plain {s : String} (hs : s.toList.head? ≠ some '-') :
    integer? s = (natural? 10 (Nat.pow 2 63) s.toList).map fun n : Nat => (n : Int) := by
  unfold integer?
  split
  next rest hrest => simp [hrest] at hs
  next => cases natural? 10 (Nat.pow 2 63) s.toList <;> rfl

theorem bounds_of_integer? {s : String} {n : Int} (h : integer? s = some n) :
    -(Nat.pow 2 63 : Nat) ≤ n ∧ n < (Nat.pow 2 63 : Nat) := by
  by_cases hs : s.toList.head? = some '-'
  · obtain ⟨rest, hrest⟩ := List.head?_eq_some_iff.mp hs
    rw [integer?_of_hyphen hrest] at h
    obtain ⟨m, hm, rfl⟩ := Option.map_eq_some_iff.mp h
    have hbound : m ≤ Nat.pow 2 63 := of_decide_eq_true (Option.filter_eq_some_iff.mp hm).2
    have hpos : 0 < Nat.pow 2 63 := by decide
    omega
  · rw [integer?_of_plain hs] at h
    obtain ⟨m, hm, rfl⟩ := Option.map_eq_some_iff.mp h
    have hbound : m < Nat.pow 2 63 := of_decide_eq_true (Option.filter_eq_some_iff.mp hm).2
    omega

theorem toList_toString_ofNat (n : Nat) :
    (toString (Int.ofNat n)).toList = (Nat.toDigits 10 n).leftpad 0 '0' :=
  toList_toString n

theorem toList_toString_negSucc (n : Nat) :
    (toString (Int.negSucc n)).toList = '-' :: (Nat.toDigits 10 (n + 1)).leftpad 0 '0' := by
  simp [Int.toString_eq_repr, Int.repr, Nat.toList_repr, String.toList_append, List.leftpad]

theorem integer?_toString {n : Int} (hlow : -(Nat.pow 2 63 : Nat) ≤ n)
    (hhigh : n < (Nat.pow 2 63 : Nat)) : integer? (toString n) = some n := by
  cases n with
  | ofNat n =>
      have hplain : (toString (Int.ofNat n)).toList.head? ≠ some '-' := by
        intro hhead
        rw [toList_toString_ofNat] at hhead
        have hdigit := isDigit_of_mem_leftpad (by decide) (by decide) (List.mem_of_head? hhead)
        exact absurd hdigit (by decide)
      have hbound : n < Nat.pow 2 63 := by
        rw [Int.ofNat_eq_natCast] at hhigh
        omega
      rw [integer?_of_plain hplain, toList_toString_ofNat,
        natural?_leftpad (by decide) (by decide) hbound]
      rfl
  | negSucc n =>
      have hbound : n + 1 ≤ Nat.pow 2 63 := by omega
      rw [integer?_of_hyphen (toList_toString_negSucc n), digits?_leftpad (by decide) (by decide),
        Option.filter_some_pos (by simpa using hbound)]
      rfl

end Blueprint.Text.Numeral

namespace Blueprint

theorem Handle.ofText?_text {sort : NodeSort} {n : Nat} (hpos : 0 < n)
    (hn : n < Nat.pow 2 32) :
    (Handle.ofText? (Handle.text (⟨n⟩ : Handle sort)) : Option (Handle sort)) = some ⟨n⟩ := by
  have hstrip : Text.stripStart? (sort.tag ++ "-") (Handle.text (⟨n⟩ : Handle sort)) =
      some (toString n) := Text.stripStart?_eq_some_iff.mpr rfl
  rw [Handle.ofText?, hstrip, Option.bind_some, Text.Numeral.size?_toString hn, Option.bind_some,
    if_pos hpos]

/-- A handle that was read is read again from its text. -/
theorem Handle.ofText?_text_of_ofText? {sort : NodeSort} {s : String} {handle : Handle sort}
    (h : Handle.ofText? s = some handle) :
    (Handle.ofText? handle.text : Option (Handle sort)) = some handle := by
  obtain ⟨n, hn, hcheck⟩ := Option.bind_eq_some_iff.mp h
  obtain ⟨digits, _, hsize⟩ := Option.bind_eq_some_iff.mp hn
  obtain ⟨hpos, ⟨⟩⟩ := Option.ite_none_right_eq_some.mp hcheck
  have hbound : n < Nat.pow 2 32 := by simpa using (Option.filter_eq_some_iff.mp hsize).2
  exact Handle.ofText?_text hpos hbound

namespace Moment

open Text

/-! ### Moments -/

theorem toList_padded (width n : Nat) :
    (padded width n).toList = (Nat.toDigits 10 n).leftpad width '0' := by
  rw [padded, padStart, String.toList_ofList, Nat.toString_eq_repr, Nat.toList_repr]

theorem isBlank_of_isDigit {c : Char} (hc : c.isDigit) : isBlank c = false := by
  apply isBlank_eq_false
  simp [Name.isNameChar, Char.isAlphanum, hc]

theorem padded_ne_nil (width n : Nat) : (padded width n).toList ≠ [] := by
  rw [toList_padded]
  simp [List.leftpad]

/-- Numbers start with no blank. -/
theorem trimStart_padded (width n : Nat) (rest : List Char) :
    Chars.trimStart ((padded width n).toList ++ rest) = (padded width n).toList ++ rest := by
  obtain ⟨c, digits, hcons⟩ := List.exists_cons_of_ne_nil (padded_ne_nil width n)
  have hc := isBlank_of_isDigit (isDigit_of_mem_padded (c := c) (by rw [hcons]; simp))
  rw [hcons, List.cons_append, Chars.trimStart_cons hc]

/-- A number written with exactly as many digits as are read is read back, whatever follows. -/
theorem number?_padded {width n : Nat} (hpos : 0 < width) (hn : n < Nat.pow 10 width)
    (rest : List Char) :
    number? width ((padded width n).toList ++ rest) = some (n, rest) := by
  have hlength : (padded width n).toList.length = width := by
    have hshort := (Nat.length_toDigits_le_iff (b := 10) (by decide) hpos).mpr hn
    rw [toList_padded, List.length_leftpad]
    omega
  have hdigits : (((padded width n).toList ++ rest).take width).takeWhile Char.isDigit =
      (padded width n).toList := by
    rw [List.take_append_of_le_length (by omega), List.take_of_length_le (by omega)]
    exact List.takeWhile_eq_self_iff.mpr fun c hc => isDigit_of_mem_padded hc
  unfold number?
  dsimp only
  rw [trimStart_padded, hdigits, toList_padded,
    Numeral.digits?_leftpad (by decide) (by decide), Option.map_some, List.drop_left]

theorem unbounded?_padded {c : Char} (hc : c.isDigit = false) (width n : Nat) (rest : List Char) :
    unbounded? ((padded width n).toList ++ c :: rest) = some (n, c :: rest) := by
  have hall : ∀ d ∈ (padded width n).toList, d.isDigit := fun _ => isDigit_of_mem_padded
  rw [unbounded?, List.takeWhile_append_of_pos hall, List.dropWhile_append_of_pos hall,
    List.takeWhile_cons_of_neg (by simp [hc]), List.dropWhile_cons_of_neg (by simp [hc]),
    List.append_nil, toList_padded, Numeral.digits?_leftpad (by decide) (by decide)]
  rfl

theorem year?_hyphen (cs : List Char) :
    year? ('-' :: cs) = (unbounded? cs).map fun p => (-(p.1 : Int), p.2) := by
  rw [year?, Chars.trimStart_cons (by decide)]
  rfl

theorem year?_plus (cs : List Char) :
    year? ('+' :: cs) = (unbounded? cs).map fun p => ((p.1 : Int), p.2) := by
  rw [year?, Chars.trimStart_cons (by decide)]
  rfl

theorem year?_of_isDigit {c : Char} (hc : c.isDigit) (cs : List Char) :
    year? (c :: cs) = (number? 4 (c :: cs)).map fun p => ((p.1 : Int), p.2) := by
  rw [year?, Chars.trimStart_cons (isBlank_of_isDigit hc)]
  split
  next hhyphen =>
    obtain ⟨rfl, _⟩ := List.cons.inj hhyphen
    exact absurd hc (by decide)
  next hplus =>
    obtain ⟨rfl, _⟩ := List.cons.inj hplus
    exact absurd hc (by decide)
  next => rfl

/-- Every year is read back: one of four digits is written plain and any other with a sign. -/
theorem year?_yearText (y : Int) (rest : List Char) :
    year? ((yearText y).toList ++ '-' :: rest) = some (y, '-' :: rest) := by
  unfold yearText
  split
  next hneg =>
    rw [String.toList_append, List.append_assoc, show "-".toList = ['-'] from rfl,
      List.singleton_append, year?_hyphen, unbounded?_padded (by decide)]
    simp only [Option.map_some, Option.some.injEq, Prod.mk.injEq, and_true]
    omega
  next hnonneg =>
    split
    next hshort =>
      obtain ⟨c, digits, hcons⟩ := List.exists_cons_of_ne_nil (padded_ne_nil 4 y.toNat)
      have hmem : c ∈ (padded 4 y.toNat).toList := by simp [hcons]
      have hc : c.isDigit := isDigit_of_mem_padded hmem
      have hpow : Nat.pow 10 4 = 10000 := rfl
      have hread : number? 4 ((padded 4 y.toNat).toList ++ '-' :: rest) =
          some (y.toNat, '-' :: rest) := number?_padded (by decide) (by omega) _
      rw [hcons, List.cons_append] at hread ⊢
      rw [year?_of_isDigit hc, hread]
      simp only [Option.map_some, Option.some.injEq, Prod.mk.injEq, and_true]
      omega
    next hlong =>
      rw [String.toList_append, List.append_assoc, show "+".toList = ['+'] from rfl,
        List.singleton_append, year?_plus, unbounded?_padded (by decide)]
      simp only [Option.map_some, Option.some.injEq, Prod.mk.injEq, and_true]
      omega

theorem dateFields_lt {m : Moment} (hm : m.isValid) :
    (m.month < Nat.pow 10 2 ∧ m.day < Nat.pow 10 2) ∧
      m.hour < Nat.pow 10 2 ∧ m.minute < Nat.pow 10 2 ∧ m.second < Nat.pow 10 2 := by
  have hdays : daysIn m.year m.month ≤ 31 := by
    unfold daysIn
    split
    · split <;> decide
    all_goals decide
  have hpow : Nat.pow 10 2 = 100 := rfl
  simp only [isValid, isDate, isClock, Bool.and_eq_true, decide_eq_true_eq] at hm
  omega

theorem date?_dateText {m : Moment} (hm : m.isValid) (rest : List Char) :
    date? ((dateText m).toList ++ rest) = some ((m.year, m.month, m.day), rest) := by
  obtain ⟨⟨hmonth, hday⟩, _⟩ := dateFields_lt hm
  have htext : (dateText m).toList ++ rest = (yearText m.year).toList ++
      '-' :: ((padded 2 m.month).toList ++ '-' :: ((padded 2 m.day).toList ++ rest)) := by
    simp [dateText, String.toList_append]
  rw [htext, date?, year?_yearText]
  simp only [Option.bind_eq_bind, Option.bind_some, expect?, if_true,
    number?_padded (by decide) hmonth, number?_padded (by decide) hday]
  rfl

theorem clock?_clockText {m : Moment} (hm : m.isValid) (rest : List Char) :
    clock? ((clockText m).toList ++ rest) = some ((m.hour, m.minute, m.second), rest) := by
  obtain ⟨_, hhour, hminute, hsecond⟩ := dateFields_lt hm
  have htext : (clockText m).toList ++ rest = (padded 2 m.hour).toList ++
      ':' :: ((padded 2 m.minute).toList ++ ':' :: ((padded 2 m.second).toList ++ rest)) := by
    simp [clockText, String.toList_append]
  rw [htext, clock?]
  simp only [Option.bind_eq_bind, Option.bind_some, expect?, if_true,
    number?_padded (by decide) hhour, number?_padded (by decide) hminute,
    number?_padded (by decide) hsecond]
  rfl

/-- A moment is read back from the form of its kind. -/
theorem fields?_render? {kind : Kind} {cs : List Char} {m : Moment} {v : String}
    (hfields : fields? kind cs = some m) (hm : m.isValid) (hv : render? kind m = some v) :
    fields? kind v.toList = some m := by
  have hdate := date?_dateText hm
  have hclock : clock? (clockText m).toList = some ((m.hour, m.minute, m.second), []) := by
    simpa using clock?_clockText hm []
  unfold fields? at hfields
  cases kind with
  | date =>
      obtain rfl := Option.some.inj hv
      simp only [fields?]
      rw [← List.append_nil (dateText m).toList, hdate]
      dsimp only at hfields ⊢
      split at hfields
      · obtain rfl := Option.some.inj hfields
        rfl
      · cases hfields
  | time =>
      obtain rfl := Option.some.inj hv
      simp only [fields?, hclock]
      dsimp only at hfields ⊢
      split at hfields
      · obtain rfl := Option.some.inj hfields
        rfl
      · cases hfields
  | timestamp =>
      obtain rfl := Option.some.inj hv
      have htext : (dateText m ++ " " ++ clockText m).toList =
          (dateText m).toList ++ ' ' :: (clockText m).toList := by
        simp [String.toList_append]
      have htrim : Chars.trimStart (' ' :: (clockText m).toList) = (clockText m).toList := by
        have hstart := trimStart_padded 2 m.hour
          (":" ++ padded 2 m.minute ++ ":" ++ padded 2 m.second).toList
        rw [Chars.trimStart, List.dropWhile_cons_of_pos (by decide)]
        simpa [clockText, Chars.trimStart, String.toList_append] using hstart
      simp only [fields?, htext, hdate, htrim, hclock]
  | _ => cases hv

theorem read?_of_canonical? {kind : Kind} {s v : String} (h : canonical? kind s = some v) :
    read? kind v = read? kind s ∧ canonical? kind v = some v := by
  obtain ⟨m, hread, hrender⟩ := Option.bind_eq_some_iff.mp h
  obtain ⟨hfields, hvalid⟩ := Option.filter_eq_some_iff.mp hread
  have hagain : read? kind v = some m := by
    rw [read?, fields?_render? hfields hvalid hrender]
    simp [hvalid]
  refine ⟨hagain.trans hread.symm, ?_⟩
  rw [canonical?, hagain, Option.bind_some, hrender]

end Moment

/-! ### Default values -/

namespace Attribute

open Text

/-- Whether a character occurs in written numbers, dates and times of day. -/
def isFigure (c : Char) : Bool :=
  c.isDigit || c = '-' || c = '+' || c = ':'

theorem isItem_of_figures {s : String} (hne : s ≠ "") (hs : ∀ c ∈ s.toList, isFigure c) :
    IsItem s ∧ '.' ∉ s.toList := by
  refine ⟨isItem_of_no_blank hne fun c hc => ?_, fun hmem => absurd (hs _ hmem) (by decide)⟩
  have hfigure := hs c hc
  simp only [isFigure, Bool.or_eq_true, decide_eq_true_eq] at hfigure
  rcases hfigure with ((hdigit | rfl) | rfl) | rfl
  · refine ⟨Moment.isBlank_of_isDigit hdigit, ?_⟩
    rintro rfl
    exact absurd hdigit (by decide)
  all_goals decide

theorem isFigure_of_isDigit {c : Char} (hc : c.isDigit) : isFigure c := by
  simp [isFigure, hc]

theorem isItem_toString (n : Int) : IsItem (toString n) ∧ '.' ∉ (toString n).toList := by
  have hdigits : ∀ m, ∀ c ∈ (Nat.toDigits 10 m).leftpad 0 '0', isFigure c := fun m c hc =>
    isFigure_of_isDigit (Numeral.isDigit_of_mem_leftpad (by decide) (by decide) hc)
  cases n with
  | ofNat n =>
      have htext := Numeral.toList_toString_ofNat n
      refine isItem_of_figures (fun hempty => ?_) fun c hc => hdigits n c (htext ▸ hc)
      rw [hempty] at htext
      simp [List.leftpad] at htext
  | negSucc n =>
      have htext := Numeral.toList_toString_negSucc n
      refine isItem_of_figures (fun hempty => ?_) fun c hc => ?_
      · rw [hempty] at htext
        cases htext
      · rw [htext] at hc
        rcases List.mem_cons.mp hc with rfl | hc
        · decide
        · exact hdigits (n + 1) c hc

/-- Three runs of figures with a figure between them are an item. -/
theorem isItem_of_runs {x y z : String} (mark : Char) (hmark : isFigure mark)
    (hx : ∀ c ∈ x.toList, isFigure c) (hy : ∀ c ∈ y.toList, isFigure c)
    (hz : ∀ c ∈ z.toList, isFigure c) :
    IsItem (x ++ mark.toString ++ y ++ mark.toString ++ z) ∧
      '.' ∉ (x ++ mark.toString ++ y ++ mark.toString ++ z).toList := by
  refine isItem_of_figures (by simp) fun c hc => ?_
  simp only [String.toList_append, List.mem_append, Char.toString_eq_singleton,
    String.toList_singleton, List.mem_singleton] at hc
  rcases hc with (((hc | rfl) | hc) | rfl) | hc
  · exact hx c hc
  · exact hmark
  · exact hy c hc
  · exact hmark
  · exact hz c hc

/-- A moment in canonical form can stand among options. -/
theorem isItem_canonical? {kind : Kind} {s v : String} (h : Moment.canonical? kind s = some v) :
    IsItem v ∧ '.' ∉ v.toList := by
  obtain ⟨m, _, hrender⟩ := Option.bind_eq_some_iff.mp h
  have hpadded : ∀ width n, ∀ c ∈ (Moment.padded width n).toList, isFigure c :=
    fun _ _ _ hc => isFigure_of_isDigit (Moment.isDigit_of_mem_padded hc)
  have hyear : ∀ c ∈ (Moment.yearText m.year).toList, isFigure c := by
    unfold Moment.yearText
    split
    · simpa [String.toList_append, isFigure] using hpadded 4 m.year.natAbs
    · split
      · exact hpadded 4 m.year.toNat
      · simpa [String.toList_append, isFigure] using hpadded 4 m.year.toNat
  have hdate : IsItem m.dateText ∧ '.' ∉ m.dateText.toList :=
    isItem_of_runs '-' (by decide) hyear (hpadded _ _) (hpadded _ _)
  have hclock : IsItem m.clockText ∧ '.' ∉ m.clockText.toList :=
    isItem_of_runs ':' (by decide) (hpadded _ _) (hpadded _ _) (hpadded _ _)
  cases kind with
  | date => exact Option.some.inj hrender ▸ hdate
  | time => exact Option.some.inj hrender ▸ hclock
  | timestamp =>
      obtain rfl := Option.some.inj hrender
      refine ⟨⟨by simp, ?_, ?_⟩, ?_⟩
      · rw [trim_eq_self_iff, String.toList_append, String.toList_append]
        exact Chars.trim_append_eq_self (trim_eq_self_iff.mp hdate.1.trim_eq)
          (by simpa using hdate.1.ne_empty) (trim_eq_self_iff.mp hclock.1.trim_eq)
          (by simpa using hclock.1.ne_empty) _
      · simp [String.toList_append, hdate.1.no_comma, hclock.1.no_comma]
      · simp [String.toList_append, hdate.2, hclock.2]
  | _ => cases hrender

/-- No moment is written like the name of the current one. -/
theorem ne_now_of_canonical? {kind : Kind} {s v : String}
    (h : Moment.canonical? kind s = some v) : v.toList.map Char.toLower ≠ now.toList := by
  obtain ⟨m, _, hrender⟩ := Option.bind_eq_some_iff.mp h
  have hmark : ∃ c ∈ v.toList, c = '-' ∨ c = ':' := by
    cases kind with
    | date =>
        obtain rfl := Option.some.inj hrender
        exact ⟨'-', by simp [Moment.dateText, String.toList_append], Or.inl rfl⟩
    | time =>
        obtain rfl := Option.some.inj hrender
        exact ⟨':', by simp [Moment.clockText, String.toList_append], Or.inr rfl⟩
    | timestamp =>
        obtain rfl := Option.some.inj hrender
        exact ⟨'-', by simp [Moment.dateText, String.toList_append], Or.inl rfl⟩
    | _ => cases hrender
  obtain ⟨c, hc, hcase⟩ := hmark
  intro hnow
  have hmem : c.toLower ∈ now.toList := hnow ▸ List.mem_map_of_mem hc
  rcases hcase with rfl | rfl
  · exact absurd hmem (by decide)
  · exact absurd hmem (by decide)

theorem bitValue?_lt {s : String} {value : Nat} (h : bitValue? s = some value) :
    value < Nat.pow 2 64 := by
  have hnatural : ∀ {base : Nat} {cs : List Char},
      Numeral.natural? base (Nat.pow 2 64) cs = some value → value < Nat.pow 2 64 := by
    intro base cs hread
    simpa using (Option.filter_eq_some_iff.mp hread).2
  rcases Option.or_eq_some_iff.mp h with hbinary | ⟨_, hdecimal⟩
  · exact hnatural hbinary
  · exact hnatural hdecimal

/-- The bits that a bit string is written with are read as the same number. -/
theorem bits?_again {s v : String} {width : Nat} (h : bits? s width = .ok (some v)) :
    bits? v width = .ok (some v) ∧ IsItem v ∧ '.' ∉ v.toList := by
  unfold bits? at h
  split at h
  · cases h
  next value hvalue =>
    split at h
    next hfits =>
      obtain ⟨digits, hpadded, hv⟩ := exists_of_map_eq_ok h
      obtain rfl := Option.some.inj hv
      have hwidth := hpadded
      unfold zeroPadded at hwidth
      split at hwidth
      next hle =>
        obtain rfl := Except.ok.inj hwidth
        have htext : (padStart '0' width (Numeral.binary value)).toList =
            (Nat.toDigits 2 value).leftpad width '0' := by
          rw [padStart, Numeral.binary, String.toList_ofList, String.toList_ofList]
        have hread : bitValue? (padStart '0' width (Numeral.binary value)) = some value := by
          rw [bitValue?, Numeral.binaryWord?, htext,
            Numeral.natural?_leftpad (by decide) (by decide) (bitValue?_lt hvalue)]
          rfl
        refine ⟨?_, isItem_of_figures ?_ fun c hc => ?_⟩
        · rw [bits?, hread]
          simp only [hfits, if_true, hpadded]
          rfl
        · intro hempty
          have hnil : (Nat.toDigits 2 value).leftpad width '0' = [] := by
            rw [← htext, hempty]
            rfl
          simp [List.leftpad] at hnil
        · rw [htext] at hc
          exact isFigure_of_isDigit (Numeral.isDigit_of_mem_leftpad (by decide) (by decide) hc)
      next => cases hwidth
    next => cases h

/-- The canonical form of a default value is acceptable and its own canonical form. -/
theorem acceptDefault_again {kind : Kind} {size : Option Nat} {s v : String}
    (h : acceptDefault kind size s = .ok (some v)) :
    acceptDefault kind size v = .ok (some v) := by
  have htemporal : (if s.toList.map Char.toLower = now.toList then some now
      else Moment.canonical? kind s) = some v →
        (if v.toList.map Char.toLower = now.toList then some now
          else Moment.canonical? kind v) = some v := by
    intro h
    split at h
    · obtain rfl := Option.some.inj h
      rfl
    · rw [if_neg (ne_now_of_canonical? h), (Moment.read?_of_canonical? h).2]
  cases kind with
  | unknown | reference => cases h
  | serial | int =>
      obtain ⟨n, hn, rfl⟩ := Option.map_eq_some_iff.mp (Except.ok.inj h)
      obtain ⟨hlow, hhigh⟩ := Numeral.bounds_of_integer? hn
      exact congrArg Except.ok (by rw [Numeral.integer?_toString hlow hhigh]; rfl)
  | boolean =>
      obtain ⟨b, _, rfl⟩ := Option.map_eq_some_iff.mp (Except.ok.inj h)
      cases b <;> rfl
  | char =>
      obtain ⟨_, ⟨⟩⟩ := Option.ite_none_right_eq_some.mp (Except.ok.inj h)
      exact h
  | string =>
      obtain rfl := Option.some.inj (Except.ok.inj h)
      exact h
  | bit => exact (bits?_again h).1
  | date | time | timestamp => exact congrArg Except.ok (htemporal (Except.ok.inj h))
  | float | real | decimal | money =>
      obtain ⟨_, _, rfl⟩ := Option.map_eq_some_iff.mp (Except.ok.inj h)
      exact h

/-- An accepted default value is kept as it was written, or its canonical form is an item
without a dot. -/
theorem eq_or_isItem_of_acceptDefault {kind : Kind} {size : Option Nat} {s v : String}
    (h : acceptDefault kind size s = .ok (some v)) : v = s ∨ IsItem v ∧ '.' ∉ v.toList := by
  have htemporal : (if s.toList.map Char.toLower = now.toList then some now
      else Moment.canonical? kind s) = some v → IsItem v ∧ '.' ∉ v.toList := by
    intro h
    split at h
    · obtain rfl := Option.some.inj h
      exact ⟨⟨by decide, by decide, by decide⟩, by decide⟩
    · exact isItem_canonical? h
  cases kind with
  | unknown | reference => cases h
  | serial | int =>
      obtain ⟨n, _, rfl⟩ := Option.map_eq_some_iff.mp (Except.ok.inj h)
      exact Or.inr (isItem_toString n)
  | boolean =>
      obtain ⟨b, _, rfl⟩ := Option.map_eq_some_iff.mp (Except.ok.inj h)
      refine Or.inr ?_
      cases b
      · exact ⟨⟨by decide, by decide, by decide⟩, by decide⟩
      · exact ⟨⟨by decide, by decide, by decide⟩, by decide⟩
  | char =>
      obtain ⟨_, ⟨⟩⟩ := Option.ite_none_right_eq_some.mp (Except.ok.inj h)
      exact Or.inl rfl
  | string => exact Or.inl (Option.some.inj (Except.ok.inj h)).symm
  | bit => exact Or.inr (bits?_again h).2
  | date | time | timestamp => exact Or.inr (htemporal (Except.ok.inj h))
  | float | real | decimal | money =>
      obtain ⟨_, _, rfl⟩ := Option.map_eq_some_iff.mp (Except.ok.inj h)
      exact Or.inl rfl

end Attribute

end Blueprint
