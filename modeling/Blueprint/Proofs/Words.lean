import Blueprint.Output.Naming
import Blueprint.Proofs.Text
import Mathlib.Data.List.Basic

/-! # Names and their words

A name is in small letters, so its words are spelled as they stand in it. The package of a
schema is therefore its name without underscores, and no more than that is lost.
-/

namespace Blueprint

/-- Whether a character is a small letter, a digit or an underscore. -/
def Name.isSmallChar (c : Char) : Bool :=
  Name.isNameChar c && !c.isUpper

/-- Whether a character is one that names are mostly written with: a letter of the alphabet,
a digit or a separator of words. -/
def Name.isOrdinary (c : Char) : Bool :=
  Name.isNameChar c || c = ' ' || c = '-'

theorem Name.of_isOrdinary {p : Char → Bool}
    (hp : ((List.range 128).map Char.ofNat).all fun c => !Name.isOrdinary c || p c) {c : Char}
    (hc : Name.isOrdinary c) : p c := by
  refine Name.of_ascii hp hc ?_
  simp only [Name.isOrdinary, Bool.or_eq_true, decide_eq_true_eq] at hc
  rcases hc with (hname | rfl) | rfl
  · exact Name.toNat_lt_of_isNameChar hname
  · decide
  · decide

theorem Name.isOrdinary_of_small {c : Char} (hc : Name.isSmallChar c) : Name.isOrdinary c := by
  simp [Name.isOrdinary, (Bool.and_eq_true_iff.mp hc).1]

namespace Text

variable {cs : List Char}

namespace LetterCase

theorem lowerChar_of_small {c : Char} (hc : Name.isSmallChar c) : c ≠ 'Σ' ∧ lowerChar c = [c] := by
  obtain ⟨hname, hsmall⟩ := Bool.and_eq_true_iff.mp hc
  have hself := Name.of_isNameChar
    (p := fun c => c.isUpper || decide (c ≠ 'Σ' ∧ lowerChar c = [c])) (by decide +kernel) hname
  rw [Bool.not_eq_true'] at hsmall
  rw [hsmall, Bool.false_or, decide_eq_true_eq] at hself
  exact hself

theorem lower_of_small (hcs : ∀ c ∈ cs, Name.isSmallChar c) : lower cs = cs := by
  unfold lower
  generalize [] = before
  induction cs generalizing before with
  | nil => rfl
  | cons c cs ih =>
      obtain ⟨hc, hcs⟩ := List.forall_mem_cons.mp hcs
      obtain ⟨hsigma, hself⟩ := lowerChar_of_small hc
      rw [lowerAfter, if_neg hsigma, hself, ih hcs, List.singleton_append]

theorem of_shifted? {n m : Nat} {runs : List Run} (h : shifted? n runs = some m) :
    ∃ run ∈ runs, run.first ≤ n ∧ m = (n + run.shift).toNat := by
  induction runs with
  | nil => cases h
  | cons run runs ih =>
      unfold shifted? at h
      split at h
      · cases h
      · split at h
        · refine ⟨run, List.mem_cons_self, by omega, (Option.some.inj h).symm⟩
        · obtain ⟨run', hmem, hrun⟩ := ih h
          exact ⟨run', List.mem_cons_of_mem _ hmem, hrun⟩

theorem isUpper_ofNat {n : Nat} (hn : 'Z'.toNat < n) : (Char.ofNat n).isUpper = false := by
  unfold Char.ofNat
  by_cases hvalid : n.isValidChar
  · rw [dif_pos hvalid]
    exact decide_eq_false fun hupper =>
      Nat.not_lt.mpr (UInt32.le_iff_toNat_le.mp hupper.2) hn
  · rw [dif_neg hvalid]
    decide

/-- No lowercase form holds a capital of the alphabet. -/
theorem isUpper_of_mem_lowerChar {c c' : Char} (h : c' ∈ lowerChar c) : c'.isUpper = false := by
  unfold lowerChar mapChar at h
  split at h
  next n hshift =>
    obtain ⟨run, hmem, hfirst, rfl⟩ := of_shifted? hshift
    have hrun : ((0x5a : Int) < run.first + run.shift) := by
      have hall : lowerRuns.all fun run => (0x5a : Int) < run.first + run.shift := by decide +kernel
      simpa using List.all_eq_true.mp hall run hmem
    rw [List.mem_singleton.mp h]
    apply isUpper_ofNat
    have hcode : 'Z'.toNat = 0x5a := rfl
    omega
  next hshift =>
    split at h
    next ns hlookup =>
      rw [lowerSpecial, List.lookup_cons] at hlookup
      split at hlookup
      · obtain rfl := Option.some.inj hlookup
        have hall : ([0x69, 0x307].map Char.ofNat).all fun c => !c.isUpper := by decide
        simpa using List.all_eq_true.mp hall c' h
      · cases hlookup
    next =>
      rw [List.mem_singleton.mp h]
      by_contra hupper
      rw [Bool.not_eq_false] at hupper
      have hname : c.isUpper || c.isLower || c.isDigit || decide (c = '_') := by
        rw [hupper]
        rfl
      have hsome := Name.of_isNameChar
        (p := fun c => !c.isUpper || (shifted? c.toNat lowerRuns).isSome) (by decide +kernel) hname
      rw [hupper, hshift] at hsome
      cases hsome

theorem isUpper_of_mem_lower {c : Char} (h : c ∈ lower cs) : c.isUpper = false := by
  unfold lower at h
  generalize [] = before at h
  induction cs generalizing before with
  | nil => cases h
  | cons first cs ih =>
      rw [lowerAfter, List.mem_append] at h
      rcases h with h | h
      · split at h
        · split at h <;> rw [List.mem_singleton.mp h] <;> decide
        · exact isUpper_of_mem_lowerChar h
      · exact ih _ h

end LetterCase

/-! ### Words -/

namespace Cluster

/-- The state that has no bearing on the next boundary. -/
def State.plain : State :=
  ⟨.other, false, .none, .none⟩

theorem State.plain_ordinary {c : Char} (hc : Name.isOrdinary c) :
    State.plain.next c = .plain ∧ State.plain.joins c = false :=
  of_decide_eq_true (Name.of_isOrdinary (p := fun c =>
      State.plain.next c = .plain ∧ State.plain.joins c = false) (by decide +kernel) hc)

theorem splitAfter_of_ordinary (hcs : ∀ c ∈ cs, Name.isOrdinary c) :
    splitAfter .plain cs = ([], cs.map fun c => [c]) := by
  induction cs with
  | nil => rfl
  | cons c cs ih =>
      obtain ⟨hc, hcs⟩ := List.forall_mem_cons.mp hcs
      obtain ⟨hnext, hjoins⟩ := State.plain_ordinary hc
      simp [splitAfter, hnext, hjoins, ih hcs]

/-- Every ordinary character is a cluster of its own. -/
theorem split_of_ordinary (hcs : ∀ c ∈ cs, Name.isOrdinary c) :
    split cs = cs.map fun c => [c] := by
  cases cs with
  | nil => rfl
  | cons c cs =>
      obtain ⟨hc, hcs⟩ := List.forall_mem_cons.mp hcs
      have hfirst : State.first c = .plain := (State.plain_ordinary hc).1
      simp [split, hfirst, splitAfter_of_ordinary hcs]

/-- Words hold every cluster but the separators. -/
theorem flatten_words (clusters : List (List Char)) :
    (words clusters).flatten = (clusters.filter fun c => !isSeparator c).flatten := by
  fun_induction words clusters with
  | case1 => rfl
  | case2 c rest hsep ih => simp [hsep, ih]
  | case3 c rest hsep _ ih => simp [hsep, ih]
  | case4 c rest hsep _ hwords ih => simpa [hsep, hwords] using ih
  | case5 c rest hsep _ word more hwords ih => simpa [hsep, hwords] using ih

end Cluster

namespace Chars

theorem filter_intercalate {p : Char → Bool} {separator : List Char}
    (hseparator : separator.filter p = []) (parts : List (List Char)) :
    (separator.intercalate parts).filter p = parts.flatten.filter p := by
  induction parts with
  | nil => rfl
  | cons part parts ih =>
      cases parts with
      | nil => simp
      | cons next parts =>
          rw [List.intercalate_cons_cons, List.filter_append, List.filter_append, hseparator, ih,
            List.append_nil, ← List.filter_append]
          rfl

theorem flatten_words_of_small (hcs : ∀ c ∈ cs, Name.isSmallChar c) :
    (words cs).flatten = cs.filter (· ≠ '_') := by
  have hseparator : ∀ c ∈ cs, (!Cluster.isSeparator [c]) = decide (c ≠ '_') := by
    intro c hc
    have hsame := Name.of_isNameChar (p := fun c => (!Cluster.isSeparator [c]) = decide (c ≠ '_'))
      (by decide +kernel) (Bool.and_eq_true_iff.mp (hcs c hc)).1
    exact of_decide_eq_true hsame
  unfold words
  split
  next hempty => simp [List.isEmpty_iff.mp hempty]
  next =>
    rw [Cluster.split_of_ordinary fun c hc => Name.isOrdinary_of_small (hcs c hc),
      Cluster.flatten_words, List.filter_map, Function.comp_def,
      List.filter_congr hseparator, ← List.flatMap_def, List.flatMap_singleton']

/-- The words of a small text are joined as they stand. -/
theorem filter_snake (hcs : ∀ c ∈ cs, Name.isSmallChar c) :
    (snake cs).filter (· ≠ '_') = cs.filter (· ≠ '_') := by
  have hflatten := flatten_words_of_small hcs
  have hwords : ∀ word ∈ words cs, LetterCase.lower word = word := by
    intro word hword
    apply LetterCase.lower_of_small
    intro c hc
    have hmem : c ∈ (words cs).flatten := List.mem_flatten.mpr ⟨word, hword, hc⟩
    rw [hflatten] at hmem
    exact hcs c (List.mem_filter.mp hmem).1
  rw [snake, List.map_congr_left hwords, List.map_id', filter_intercalate rfl, hflatten,
    List.filter_filter]
  simp

end Chars

end Text

/-! ### Names -/

namespace Name

/-- Whether a text holds small letters, digits and underscores only. -/
def IsSmall (s : String) : Prop :=
  ∀ c ∈ s.toList, isSmallChar c

theorem ofText_isSmall (s : String) (n : Nat) : IsSmall (ofText s n) := by
  intro c hc
  have hname := ofText_isPlain s n c hc
  suffices hupper : c.isUpper = false by simp [isSmallChar, hname, hupper]
  unfold ofText at hc
  dsimp only at hc
  split at hc
  · rw [fallback, String.toList_append, List.mem_append] at hc
    rcases hc with hc | hc
    · have hall : "unset_".toList.all fun c => !c.isUpper := by decide
      simpa using List.all_eq_true.mp hall c hc
    · rw [Nat.toString_eq_repr, Nat.toList_repr] at hc
      have hdigit := Nat.isDigit_of_mem_toDigits (by decide) (by decide) hc
      have hcase := of_isNameChar (p := fun c => !c.isDigit || !c.isUpper) (by decide +kernel) hname
      simpa [hdigit] using hcase
  · rw [normalize, String.toList_ofList] at hc
    exact Text.LetterCase.isUpper_of_mem_lower (List.mem_filter.mp (clean_subset _ hc)).1

end Name

/-- The package of a schema is its name without underscores. -/
theorem Output.packageName_of_isSmall {s : String} (hs : Name.IsSmall s) :
    packageName s = Text.eraseChar '_' s := by
  rw [packageName, Text.eraseChar, Text.eraseChar, Text.snake, String.toList_ofList,
    Text.Chars.filter_snake hs]

end Blueprint
