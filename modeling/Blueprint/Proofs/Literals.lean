import Blueprint.Proofs.Declared
import Blueprint.Proofs.Scanner

/-! # Literals

A value stands in the file of tables as a literal of its kind. Numbers stand there as
they are written, since every character of them was checked, and all other values
between quotes. So the definition of a column is one piece of a line.
-/

namespace Blueprint.Text

open Output.Postgres

/-! ### Numbers -/

theorem Numeral.of_digitsFrom? {base high n : Nat} {cs : List Char}
    (h : digitsFrom? base high cs = some n) : ∀ c ∈ cs, c.isDigit := by
  induction cs generalizing high with
  | nil => simp
  | cons c cs ih =>
      obtain ⟨value, hdigit, hrest⟩ := Option.bind_eq_some_iff.mp h
      have hc : c.isDigit := by
        simp only [digit?, Option.ite_none_right_eq_some, Bool.and_eq_true] at hdigit
        exact hdigit.1.1
      exact List.forall_mem_cons.mpr ⟨hc, ih hrest⟩

theorem Numeral.of_digits? {base n : Nat} {cs : List Char} (h : digits? base cs = some n) :
    cs ≠ [] ∧ ∀ c ∈ cs, c.isDigit := by
  unfold digits? at h
  split at h
  next => cases h
  next hne => exact ⟨by simpa using hne, of_digitsFrom? h⟩

theorem isVerbatim_of_isDigit {cs : List Char} (h : ∀ c ∈ cs, c.isDigit) : isVerbatim cs :=
  isVerbatim_of_isQuiet fun c hc => isQuiet_of (by decide) (h c hc)

theorem isDigit_of_mem_toString {n : Nat} {c : Char} (hc : c ∈ (toString n).toList) :
    c.isDigit := by
  rw [Nat.toString_eq_repr, Nat.toList_repr] at hc
  exact Nat.isDigit_of_mem_toDigits (by decide) (by decide) hc

theorem isVerbatim_toString (n : Nat) : isVerbatim (toString n).toList :=
  isVerbatim_of_isDigit fun _ => isDigit_of_mem_toString

theorem isVerbatim_hyphen_digits {cs : List Char} (hne : cs ≠ []) (h : ∀ c ∈ cs, c.isDigit) :
    isVerbatim ('-' :: cs) := by
  cases cs with
  | nil => exact absurd rfl hne
  | cons c cs =>
      refine isVerbatim_hyphen ?_ (isVerbatim_of_isDigit h)
      rintro rfl
      exact absurd (h '-' List.mem_cons_self) (by decide)

theorem isVerbatim_integer (n : Int) : isVerbatim (toString n).toList := by
  cases n with
  | ofNat n => exact isVerbatim_toString n
  | negSucc n =>
      have htext : (toString (Int.negSucc n)).toList = '-' :: (toString (n + 1)).toList := by
        simp [Int.toString_eq_repr, Int.repr, Nat.toString_eq_repr, String.toList_append]
      rw [htext]
      refine isVerbatim_hyphen_digits ?_ fun _ => isDigit_of_mem_toString
      rw [Nat.toString_eq_repr, Nat.toList_repr]
      exact Nat.toDigits_ne_nil

namespace Decimal

/-- A sign is followed by something else than a hyphen. -/
theorem isVerbatim_of_sign {cs : List Char} (h : isVerbatim (sign cs).2)
    (hne : (sign cs).2 ≠ []) (hhead : (sign cs).2.head? ≠ some '-') : isVerbatim cs := by
  unfold sign at h hne hhead
  split at h
  next rest =>
    cases rest with
    | nil => exact absurd rfl hne
    | cons c rest => exact isVerbatim_hyphen (fun hc => hhead (by simp [hc])) h
  next rest => exact (isVerbatim_cons (by decide) rest).trans h
  next => exact h

theorem isVerbatim_of_exponent? {cs : List Char} {power : Int} (h : exponent? cs = some power) :
    isVerbatim cs := by
  cases cs with
  | nil => rfl
  | cons c rest =>
      simp only [exponent?, Option.ite_none_right_eq_some] at h
      obtain ⟨hc, h⟩ := h
      obtain ⟨_, h, _⟩ := Option.map_eq_some_iff.mp h
      obtain ⟨n, hn, _⟩ := Option.bind_eq_some_iff.mp h
      obtain ⟨hne, hdigits⟩ := Numeral.of_digits? hn
      have hquiet : isQuiet c := by
        rcases hc with rfl | rfl <;> decide
      rw [isVerbatim_cons hquiet]
      refine isVerbatim_of_sign (isVerbatim_of_isDigit hdigits) hne fun hhead => ?_
      exact absurd (hdigits '-' (List.mem_of_head? hhead)) (by decide)

theorem isVerbatim_of_fraction {cs : List Char} (h : isVerbatim (fraction cs).2) :
    isVerbatim cs := by
  unfold fraction at h
  split at h
  next rest =>
    rw [isVerbatim_cons (by decide),
      ← List.takeWhile_append_dropWhile (p := Char.isDigit) (l := rest)]
    exact isVerbatim_append (isVerbatim_of_isDigit fun c hc => List.mem_takeWhile_imp hc) h
  next => exact h

theorem isVerbatim_of_ofChars? {cs : List Char} {value : Decimal} (h : ofChars? cs = some value) :
    isVerbatim cs := by
  unfold ofChars? at h
  dsimp only at h
  obtain ⟨n, hdigits, h⟩ := Option.bind_eq_some_iff.mp h
  obtain ⟨power, hpower, _⟩ := Option.map_eq_some_iff.mp h
  generalize hrest : (sign cs).2 = rest at hdigits hpower
  have hverbatim : isVerbatim rest := by
    rw [← List.takeWhile_append_dropWhile (p := Char.isDigit) (l := rest)]
    refine isVerbatim_append (isVerbatim_of_isDigit fun c hc => List.mem_takeWhile_imp hc) ?_
    exact isVerbatim_of_fraction (isVerbatim_of_exponent? hpower)
  -- Without a digit or a point after the sign there would be no digits at all.
  have hhead : rest ≠ [] ∧ rest.head? ≠ some '-' := by
    cases rest with
    | nil => simp [fraction, Numeral.digits?] at hdigits
    | cons c rest =>
        refine ⟨by simp, fun hc => ?_⟩
        obtain rfl : c = '-' := by simpa using hc
        simp [fraction, Numeral.digits?, show Char.isDigit '-' = false by decide] at hdigits
  subst hrest
  exact isVerbatim_of_sign hverbatim hhead.1 hhead.2

theorem isVerbatim_of_read? {s : String} (htrim : trim s = s) (h : (read? s).isSome) :
    isVerbatim s.toList := by
  obtain ⟨value, hvalue⟩ := Option.isSome_iff_exists.mp h
  obtain ⟨decimal, hdecimal, _⟩ := Option.bind_eq_some_iff.mp hvalue
  have hchars : Chars.trim s.toList = s.toList := by
    have htoList := congrArg String.toList htrim
    rwa [trim, String.toList_ofList] at htoList
  exact isVerbatim_of_ofChars? (hchars ▸ hdecimal)

end Decimal

end Blueprint.Text

namespace Blueprint.Moment

open Text

theorem isDigit_of_mem_padded {width n : Nat} {c : Char} (hc : c ∈ (padded width n).toList) :
    c.isDigit := by
  simp only [padded, padStart, String.toList_ofList, List.leftpad, List.mem_append,
    List.mem_replicate] at hc
  rcases hc with ⟨_, rfl⟩ | hc
  · decide
  · exact isDigit_of_mem_toString hc

theorem not_mem_newline_padded (width n : Nat) : '\n' ∉ (padded width n).toList :=
  fun hmem => absurd (isDigit_of_mem_padded hmem) (by decide)

theorem not_mem_newline_canonical? {kind : Kind} {s v : String} (h : canonical? kind s = some v) :
    '\n' ∉ v.toList := by
  obtain ⟨m, _, h⟩ := Option.bind_eq_some_iff.mp h
  have hyear : '\n' ∉ (yearText m.year).toList := by
    unfold yearText
    split
    · simp [String.toList_append, not_mem_newline_padded]
    · split <;> simp [String.toList_append, not_mem_newline_padded]
  have hdate : '\n' ∉ m.dateText.toList := by
    simp [dateText, String.toList_append, not_mem_newline_padded, hyear]
  have hclock : '\n' ∉ m.clockText.toList := by
    simp [clockText, String.toList_append, not_mem_newline_padded]
  cases kind with
  | date => exact Option.some.inj h ▸ hdate
  | time => exact Option.some.inj h ▸ hclock
  | timestamp =>
      obtain rfl := Option.some.inj h
      simp [String.toList_append, hdate, hclock]
  | _ => cases h

end Blueprint.Moment

namespace Blueprint.Output.Postgres

open Text

/-! ### Literals -/

theorem fragment_of_isPlain {s : String} (hs : Name.IsPlain s) : Fragment s :=
  fragment_of_isVerbatim (isVerbatim_of_isQuiet fun c hc => isQuiet_of (by decide) (hs c hc))

/-- The name of the current moment stands alone, any other text between quotes. -/
theorem fragment_temporal {kind : Kind} (hkind : kind.isTemporal) {v : String}
    (hline : '\n' ∉ v.toList) : Fragment (literal kind v) := by
  cases kind with
  | date | time | timestamp =>
      rw [literal]
      split
      · exact fragment_of_isVerbatim (by decide)
      · exact fragment_quoted hline
  | _ => cases hkind

theorem fragment_quoted_verbatim {v : String} (hv : isVerbatim v.toList) :
    Fragment ("'" ++ v ++ "'") := by
  rw [← quoted_eq (not_mem_of_isVerbatim hv (by decide) (by decide))]
  exact fragment_quoted (not_mem_of_isVerbatim hv (by decide) (by decide))

/-- A number is a literal of any kind of numbers. -/
theorem fragment_numeric {kind : Kind} (hkind : kind.hasNumericRange) {v : String}
    (hv : isVerbatim v.toList) : Fragment (literal kind v) := by
  have hquoted : Fragment (quoted v) :=
    fragment_quoted (not_mem_of_isVerbatim hv (by decide) (by decide))
  cases kind with
  | money =>
      have htext : literal .money v = "'" ++ v ++ "'" ++ "::money" := by
        apply String.toList_inj.mp
        simp [literal, String.toList_append]
      rw [htext]
      exact (fragment_quoted_verbatim hv).append (fragment_of_isVerbatim (by decide))
  | char | string => exact hquoted
  | serial | int | float | real | decimal => exact fragment_of_isVerbatim hv
  | _ => cases hkind

theorem isVerbatim_bits? {s v : String} {width : Nat}
    (h : Attribute.bits? s width = .ok (some v)) : isVerbatim v.toList := by
  unfold Attribute.bits? at h
  split at h
  · cases h
  next value _ =>
    split at h
    · obtain ⟨digits, hpadded, hv⟩ := exists_of_map_eq_ok h
      obtain rfl := Option.some.inj hv
      unfold zeroPadded at hpadded
      split at hpadded
      · obtain rfl := Except.ok.inj hpadded
        apply isVerbatim_of_isDigit
        intro c hc
        simp only [padStart, Numeral.binary, String.toList_ofList, List.leftpad, List.mem_append,
          List.mem_replicate] at hc
        rcases hc with ⟨_, rfl⟩ | hc
        · decide
        · exact Nat.isDigit_of_mem_toDigits (by decide) (by decide) hc
      · cases hpadded
    · cases h

/-- A default value is a literal of its kind. -/
theorem fragment_default {kind : Kind} {size : Option Nat} {s v : String}
    (haccept : Attribute.acceptDefault kind size s = .ok (some v)) (htrim : trim s = s)
    (hline : '\n' ∉ s.toList) : Fragment (literal kind v) := by
  have htemporal : (if s.toList.map Char.toLower = Attribute.now.toList then some Attribute.now
      else Moment.canonical? kind s) = some v → '\n' ∉ v.toList := by
    intro h
    split at h
    · obtain rfl := Option.some.inj h
      decide
    · exact Moment.not_mem_newline_canonical? h
  have hdecimal : ((Decimal.read? s).map fun _ => s) = some v → isVerbatim v.toList := by
    intro h
    obtain ⟨_, hread, rfl⟩ := Option.map_eq_some_iff.mp h
    exact Decimal.isVerbatim_of_read? htrim (by simp [hread])
  cases kind with
  | unknown | reference => cases haccept
  | serial | int =>
      obtain ⟨n, _, rfl⟩ := Option.map_eq_some_iff.mp (Except.ok.inj haccept)
      exact fragment_numeric rfl (isVerbatim_integer n)
  | boolean =>
      obtain ⟨b, _, rfl⟩ := Option.map_eq_some_iff.mp (Except.ok.inj haccept)
      cases b
      · exact fragment_of_isVerbatim (by decide)
      · exact fragment_of_isVerbatim (by decide)
  | char =>
      obtain ⟨_, ⟨⟩⟩ := Option.ite_none_right_eq_some.mp (Except.ok.inj haccept)
      exact fragment_quoted hline
  | string =>
      obtain rfl := Option.some.inj (Except.ok.inj haccept)
      exact fragment_quoted hline
  | bit =>
      have hbits := fragment_quoted_verbatim (isVerbatim_bits? haccept)
      have htext : literal .bit v = "B" ++ ("'" ++ v ++ "'") := by
        apply String.toList_inj.mp
        simp [literal, String.toList_append]
      rw [htext]
      exact (fragment_of_isVerbatim (by decide)).append hbits
  | date | time | timestamp => exact fragment_temporal rfl (htemporal (Except.ok.inj haccept))
  | float | real | decimal | money =>
      exact fragment_numeric rfl (hdecimal (Except.ok.inj haccept))

/-! ### Bounds -/

theorem isSome_of_boundDefects {α : Type} {read : String → Option α} {before : α → α → Bool}
    {min max : Option String} (h : Attribute.boundDefects read before min max = []) {s : String}
    (hs : min = some s ∨ max = some s) : (read s).isSome := by
  simp only [Attribute.boundDefects, List.append_eq_nil_iff] at h
  obtain ⟨⟨hmin, hmax⟩, _⟩ := h
  rcases hs with rfl | rfl
  · simpa [Option.isSome_iff_ne_none] using hmin
  · simpa [Option.isSome_iff_ne_none] using hmax

theorem isVerbatim_bound {a : Attribute} (ha : a.Checked) (hkind : a.kind.hasNumericRange)
    {s : String} (hs : a.min = some s ∨ a.max = some s) : isVerbatim s.toList := by
  have hrange : Attribute.boundDefects Decimal.read? (fun x y => decide (x < y)) a.min a.max =
      [] := by
    have hrange := ha.range
    unfold Attribute.rangeDefects at hrange
    cases hk : a.kind <;> simp_all [Kind.hasNumericRange, Kind.isTemporal]
  exact Decimal.isVerbatim_of_read? (ha.bounds s hs).1 (isSome_of_boundDefects hrange hs)

theorem fragment_bound {a : Attribute} (ha : a.Checked) (hkind : checksValue a.kind)
    {s : String} (hs : a.min = some s ∨ a.max = some s) : Fragment (literal a.kind s) := by
  cases htemporal : a.kind.isTemporal with
  | true => exact fragment_temporal htemporal (ha.bounds s hs).2
  | false =>
      have hnumeric : a.kind.hasNumericRange := by
        cases hk : a.kind <;> simp_all [checksValue, Kind.isTemporal, Kind.hasNumericRange]
      exact fragment_numeric hnumeric (isVerbatim_bound ha hnumeric hs)

theorem fragment_check? {a : Attribute} (ha : a.Checked) {column text : String}
    (hcolumn : Name.IsPlain column) (h : check? column a.kind a.min a.max = some text) :
    Fragment text := by
  have hname := fragment_of_isPlain hcolumn
  unfold check? at h
  split at h
  next hkind =>
    obtain ⟨low, hlow, rfl⟩ := Option.map_eq_some_iff.mp h
    have hnumeric : a.kind.hasNumericRange := by rw [hkind]; rfl
    have hbound := isVerbatim_bound ha hnumeric (Or.inl hlow)
    have htext : "char_length(" ++ column ++ ") >= " ++ low =
        "char_length" ++ ("(" ++ column ++ ")") ++ " >= " ++ low := by
      apply String.toList_inj.mp
      simp [String.toList_append]
    rw [htext]
    exact (((fragment_of_isVerbatim (by decide)).append
      (hname.statements.fragment_brackets hname.1)).append
      (fragment_of_isVerbatim (by decide))).append (fragment_of_isVerbatim hbound)
  next =>
    split at h
    next hkind =>
      split at h
      next low high hlow hhigh =>
        obtain rfl := Option.some.inj h
        exact (((hname.append (fragment_of_isVerbatim (by decide))).append
          (fragment_bound ha hkind (Or.inl hlow))).append
          (fragment_of_isVerbatim (by decide))).append (fragment_bound ha hkind (Or.inr hhigh))
      next low hlow _ =>
        obtain rfl := Option.some.inj h
        exact (hname.append (fragment_of_isVerbatim (by decide))).append
          (fragment_bound ha hkind (Or.inl hlow))
      next high _ hhigh =>
        obtain rfl := Option.some.inj h
        exact (hname.append (fragment_of_isVerbatim (by decide))).append
          (fragment_bound ha hkind (Or.inr hhigh))
      next => cases h
    next => cases h

/-! ### Columns -/

theorem fragment_columnType (c : Column) : Fragment (columnType c) := by
  have hbase : Fragment (typeName c.storageKind) := by
    cases c.storageKind <;> exact fragment_of_isVerbatim (by decide)
  unfold columnType sizedType
  dsimp only
  split
  next =>
    split
    next size _ =>
      have hsize : Fragment (toString size) := fragment_of_isVerbatim (isVerbatim_toString size)
      have htext : typeName c.storageKind ++ "(" ++ toString size ++ ")" =
          typeName c.storageKind ++ ("(" ++ toString size ++ ")") := by
        simp only [String.append_assoc]
      rw [htext]
      exact hbase.append (hsize.statements.fragment_brackets hsize.1)
    next => exact hbase
  next => exact hbase

theorem fragment_columnOptions {c : Column} (hdirect : c.isDirect) (hc : c.terminal.Checked)
    (hname : Name.IsPlain c.name) : Fragment (columnOptions c) := by
  have hkind : c.storageKind = c.terminal.kind := by
    simp [Column.storageKind, Kind.stored, hdirect]
  have hsource : c.source = c.terminal := by
    have hnil : c.hops = [] := by simpa [Column.isDirect] using hdirect
    simp [Column.source, hnil]
  have hempty : Fragment "" := fragment_of_isVerbatim (by decide)
  unfold columnOptions optionsText
  rw [hkind, hsource]
  refine Fragment.append ?_ ?_
  · cases hvalue : c.terminal.defaultValue with
    | none => exact hempty
    | some v =>
        obtain ⟨s, htrim, hline, haccept⟩ := hc.value v hvalue
        exact (fragment_of_isVerbatim (by decide)).append (fragment_default haccept htrim hline)
  · cases hcheck : check? (fieldName c) c.terminal.kind c.terminal.min c.terminal.max with
    | none => exact hempty
    | some text =>
        have htext := fragment_check? hc hname hcheck
        have hsplit : " CHECK (" ++ text ++ ")" = " CHECK " ++ ("(" ++ text ++ ")") := by
          apply String.toList_inj.mp
          simp [String.toList_append]
        simp only [Option.map_some, Option.getD_some, hsplit]
        exact (fragment_of_isVerbatim (by decide)).append
          (htext.statements.fragment_brackets htext.1)

theorem fragment_columnText {c : Column} (hname : Name.IsPlain c.name)
    (hchecked : c.isDirect → c.terminal.Checked) : Fragment (columnText c) := by
  have hempty : Fragment "" := fragment_of_isVerbatim (by decide)
  unfold columnText definitionText
  refine Fragment.append (Fragment.append (Fragment.append ((fragment_of_isPlain hname).append
    (fragment_of_isVerbatim (by decide))) (fragment_columnType c)) ?_) ?_
  · split
    · exact fragment_of_isVerbatim (by decide)
    · exact hempty
  · split
    next hdirect => exact fragment_columnOptions hdirect (hchecked hdirect) hname
    next => exact hempty

end Blueprint.Output.Postgres
