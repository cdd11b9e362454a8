import Blueprint.Handle
import Blueprint.Name
import Mathlib.Data.List.Basic

/-! # Marks in a text

Cutting at a mark and joining with it undo each other, as long as the mark does not
occur earlier. Names hold no dot and no hyphen, so neither does a name look like a
handle, nor is it cut in two.
-/

namespace Blueprint.Text

namespace Chars

theorem stripStart?_eq_some_iff {head cs rest : List Char} :
    stripStart? head cs = some rest ↔ cs = head ++ rest := by
  simp only [stripStart?, Option.ite_none_right_eq_some, List.isPrefixOf_iff_prefix,
    Option.some.injEq]
  constructor
  · rintro ⟨⟨tail, rfl⟩, rfl⟩
    simp
  · rintro rfl
    simp

theorem stripStart?_append (head rest : List Char) : stripStart? head (head ++ rest) = some rest :=
  stripStart?_eq_some_iff.mpr rfl

theorem eq_of_cut?_eq_some {mark cs before after : List Char}
    (h : cut? mark cs = some (before, after)) : cs = before ++ mark ++ after := by
  induction cs generalizing before with
  | nil => cases h
  | cons c rest ih =>
      unfold cut? at h
      split at h
      next found hstrip =>
        obtain ⟨rfl, rfl⟩ := Prod.mk.inj (Option.some.inj h)
        exact stripStart?_eq_some_iff.mp hstrip
      next =>
        obtain ⟨⟨tail, _⟩, htail, heq⟩ := Option.map_eq_some_iff.mp h
        obtain ⟨rfl, rfl⟩ := Prod.mk.inj heq
        rw [ih htail, List.cons_append, List.cons_append]

/-- A character cuts a text where it first occurs. -/
theorem cut?_singleton {c : Char} {before : List Char} (hbefore : c ∉ before)
    (after : List Char) : cut? [c] (before ++ c :: after) = some (before, after) := by
  induction before with
  | nil =>
      have hstrip : stripStart? [c] (c :: after) = some after := stripStart?_append [c] after
      simp only [List.nil_append, cut?, hstrip]
  | cons b before ih =>
      obtain ⟨hne, hbefore⟩ : c ≠ b ∧ c ∉ before := by simpa using hbefore
      have hstrip : stripStart? [c] (b :: (before ++ c :: after)) = none := by
        simp [stripStart?, hne]
      simp only [List.cons_append, cut?, hstrip, ih hbefore, Option.map_some]

theorem cut?_singleton_eq_none {c : Char} {cs : List Char} :
    cut? [c] cs = none ↔ c ∉ cs := by
  constructor
  · intro hnone hmem
    obtain ⟨before, after, rfl, hbefore⟩ := List.eq_append_cons_of_mem hmem
    rw [cut?_singleton hbefore] at hnone
    cases hnone
  · intro hmem
    cases hcut : cut? [c] cs with
    | none => rfl
    | some parts =>
        obtain ⟨before, after⟩ := parts
        exact absurd (eq_of_cut?_eq_some hcut ▸ by simp) hmem

end Chars

theorem stripStart?_eq_some_iff {head s rest : String} :
    stripStart? head s = some rest ↔ s = head ++ rest := by
  simp only [stripStart?, Option.map_eq_some_iff, Chars.stripStart?_eq_some_iff]
  constructor
  · rintro ⟨tail, hs, rfl⟩
    apply String.toList_inj.mp
    rw [hs, String.toList_append, String.toList_ofList]
  · rintro rfl
    exact ⟨rest.toList, String.toList_append, String.ofList_toList⟩

theorem stripStart?_append (head s : String) : stripStart? head (head ++ s) = some s :=
  stripStart?_eq_some_iff.mpr rfl

/-- A text starts with nothing that has another first character. -/
theorem stripStart?_eq_none {head s : String} {c : Char} (hhead : c ∈ head.toList.head?)
    (hs : c ∉ s.toList.head?) : stripStart? head s = none := by
  rw [Option.eq_none_iff_forall_ne_some]
  intro rest hrest
  rw [stripStart?_eq_some_iff.mp hrest, String.toList_append, List.head?_append,
    Option.mem_def.mp hhead] at hs
  exact hs rfl

theorem stripEnd?_append (s tail : String) : stripEnd? tail (s ++ tail) = some s := by
  simp [stripEnd?, Chars.stripEnd?]

theorem eq_of_cut?_eq_some {mark s before after : String}
    (h : cut? mark s = some (before, after)) : s = before ++ mark ++ after := by
  obtain ⟨⟨front, back⟩, hcut, heq⟩ := Option.map_eq_some_iff.mp h
  obtain ⟨rfl, rfl⟩ := Prod.mk.inj heq
  apply String.toList_inj.mp
  rw [Chars.eq_of_cut?_eq_some hcut]
  simp only [String.toList_append, String.toList_ofList]

theorem cut?_dot {before : String} (hbefore : '.' ∉ before.toList) (after : String) :
    cut? "." (before ++ "." ++ after) = some (before, after) := by
  have hcut := Chars.cut?_singleton hbefore after.toList
  simp only [cut?, String.toList_append, List.append_assoc]
  rw [show ".".toList = ['.'] from rfl, List.singleton_append, hcut]
  simp only [Option.map_some, String.ofList_toList]

theorem cut?_dot_eq_none {s : String} : cut? "." s = none ↔ '.' ∉ s.toList := by
  simp only [cut?, Option.map_eq_none_iff]
  exact Chars.cut?_singleton_eq_none

end Blueprint.Text

namespace Blueprint.Name

theorem toNat_lt_of_isNameChar {c : Char} (hc : isNameChar c) : c.toNat < 128 := by
  have hclasses : c.isUpper || c.isLower || c.isDigit || decide (c = '_') := hc
  simp only [Bool.or_eq_true, decide_eq_true_eq] at hclasses
  have hbound : ∀ last : Char, last.toNat < 128 → c.val ≤ last.val → c.toNat < 128 :=
    fun _ hlast hle => Nat.lt_of_le_of_lt (UInt32.le_iff_toNat_le.mp hle) hlast
  rcases hclasses with ((hupper | hlower) | hdigit) | rfl
  · exact hbound 'Z' (by decide) (of_decide_eq_true hupper).2
  · exact hbound 'z' (by decide) (of_decide_eq_true (Bool.and_eq_true_iff.mp hlower).2)
  · exact hbound '9' (by decide) (of_decide_eq_true (Bool.and_eq_true_iff.mp hdigit).2)
  · decide

/-- What holds of a class of characters among the first code points holds of the class, if
it has no others. -/
theorem of_ascii {q p : Char → Bool}
    (hp : ((List.range 128).map Char.ofNat).all fun c => !q c || p c) {c : Char} (hc : q c)
    (hascii : c.toNat < 128) : p c := by
  have hmem : c ∈ (List.range 128).map Char.ofNat :=
    List.mem_map.mpr ⟨c.toNat, List.mem_range.mpr hascii, c.ofNat_toNat⟩
  simpa [hc] using List.all_eq_true.mp hp c hmem

theorem of_isNameChar {p : Char → Bool}
    (hp : ((List.range 128).map Char.ofNat).all fun c => !isNameChar c || p c) {c : Char}
    (hc : isNameChar c) : p c :=
  of_ascii hp hc (toNat_lt_of_isNameChar hc)

/-- Whether a text holds nothing but characters that a name can hold. -/
def IsPlain (s : String) : Prop :=
  ∀ c ∈ s.toList, isNameChar c

theorem squeeze_subset (cs : List Char) : squeeze cs ⊆ cs := by
  fun_induction squeeze cs with
  | case1 => exact List.Subset.refl _
  | case2 c => exact List.Subset.refl _
  | case3 c d rest _ ih => exact List.Subset.trans ih (List.subset_cons_self _ _)
  | case4 c d rest _ ih => exact List.cons_subset_cons c ih

theorem clean_subset (cs : List Char) : clean cs ⊆ cs.filter isNameChar := by
  intro c hc
  have hkept := List.dropWhile_subset _ (List.mem_reverse.mp hc)
  exact List.dropWhile_subset _ (squeeze_subset _ (List.mem_reverse.mp hkept))

theorem normalize_isPlain (s : String) : IsPlain (normalize s) := by
  intro c hc
  rw [normalize, String.toList_ofList] at hc
  exact (List.mem_filter.mp (clean_subset _ hc)).2

theorem fallback_isPlain (n : Nat) : IsPlain (fallback n) := by
  intro c hc
  rw [fallback, String.toList_append, List.mem_append] at hc
  rcases hc with hc | hc
  · exact List.all_eq_true.mp (by decide : "unset_".toList.all isNameChar) c hc
  · have hdigit : c.isDigit := by
      rw [Nat.toString_eq_repr, Nat.toList_repr] at hc
      exact Nat.isDigit_of_mem_toDigits (by decide) (by decide) hc
    simp [isNameChar, Char.isAlphanum, hdigit]

theorem ofText_isPlain (s : String) (n : Nat) : IsPlain (ofText s n) := by
  unfold ofText
  dsimp only
  split
  · exact fallback_isPlain n
  · exact normalize_isPlain s

theorem IsPlain.not_mem_dot {s : String} (hs : IsPlain s) : '.' ∉ s.toList :=
  fun hmem => absurd (hs _ hmem) (by decide)

theorem IsPlain.not_mem_hyphen {s : String} (hs : IsPlain s) : '-' ∉ s.toList :=
  fun hmem => absurd (hs _ hmem) (by decide)

theorem IsPlain.not_mem_newline {s : String} (hs : IsPlain s) : '\n' ∉ s.toList :=
  fun hmem => absurd (hs _ hmem) (by decide)

end Blueprint.Name

namespace Blueprint.Handle

/-- The text of a handle holds a hyphen. -/
theorem ofText?_eq_none {sort : NodeSort} {s : String} (hs : '-' ∉ s.toList) :
    (ofText? s : Option (Handle sort)) = none := by
  cases hstrip : Text.stripStart? (sort.tag ++ "-") s with
  | none => simp [ofText?, hstrip]
  | some rest =>
      rw [Text.stripStart?_eq_some_iff.mp hstrip] at hs
      simp [String.toList_append] at hs

end Blueprint.Handle
