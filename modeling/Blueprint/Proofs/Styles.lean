import Blueprint.Proofs.Identifiers
import Blueprint.Proofs.Spelling

/-! # Names in the styles of generated code

Styles spell the words of a name with characters of names, and only hyphens can come in between.
So what is made of a name holds no blank, no bracket and no line end.
-/

namespace Blueprint.Text

variable {c : Char} {cs : List Char} {s : String}

/-! ### Letters -/

namespace LetterCase

theorem isNameChar_forms (hc : Name.isNameChar c) :
    c ≠ 'Σ' ∧ (∀ c' ∈ lowerChar c, Name.isNameChar c') ∧
      ∀ c' ∈ upperChar c, Name.isNameChar c' := by
  have hforms := Name.of_isNameChar (p := fun c => decide (c ≠ 'Σ') &&
    ((lowerChar c).all Name.isNameChar && (upperChar c).all Name.isNameChar)) (by decide) hc
  simpa only [Bool.and_eq_true, decide_eq_true_eq, List.all_eq_true] using hforms

theorem isNameChar_lower (hcs : ∀ c ∈ cs, Name.isNameChar c) :
    ∀ c ∈ lower cs, Name.isNameChar c := by
  unfold lower
  generalize [] = before
  induction cs generalizing before with
  | nil => exact fun _ hc => absurd hc List.not_mem_nil
  | cons first cs ih =>
      obtain ⟨hfirst, hcs⟩ := List.forall_mem_cons.mp hcs
      obtain ⟨hsigma, hlower, _⟩ := isNameChar_forms hfirst
      rw [lowerAfter, if_neg hsigma]
      exact List.forall_mem_append.mpr ⟨hlower, ih hcs _⟩

theorem isNameChar_upper (hcs : ∀ c ∈ cs, Name.isNameChar c) :
    ∀ c ∈ upper cs, Name.isNameChar c := by
  intro c hc
  obtain ⟨old, hold, hc⟩ := List.mem_flatMap.mp hc
  exact (isNameChar_forms (hcs old hold)).2.2 c hc

end LetterCase

/-! ### Words -/

namespace Chars

variable {word : List Char}

theorem mem_of_mem_words (hword : word ∈ words cs) (hc : c ∈ word) : c ∈ cs := by
  unfold words at hword
  split at hword
  · cases hword
  · have hmem : c ∈ (Cluster.words (Cluster.split cs)).flatten :=
      List.mem_flatten.mpr ⟨word, hword, hc⟩
    rw [Cluster.flatten_words] at hmem
    rw [← Cluster.flatten_split cs]
    exact List.filter_sublist.flatten.subset hmem

theorem isNameChar_capitalize (hword : ∀ c ∈ word, Name.isNameChar c) :
    ∀ c ∈ capitalize word, Name.isNameChar c := by
  cases word with
  | nil => exact fun _ hc => absurd hc List.not_mem_nil
  | cons first rest =>
      obtain ⟨hfirst, hrest⟩ := List.forall_mem_cons.mp hword
      exact List.forall_mem_append.mpr
        ⟨(LetterCase.isNameChar_forms hfirst).2.2, LetterCase.isNameChar_lower hrest⟩

/-- Small words with a separator hold nothing but that and characters of names. -/
theorem mem_intercalate_words (hcs : ∀ c ∈ cs, Name.isNameChar c) {separator : Char}
    (hc : c ∈ [separator].intercalate ((words cs).map LetterCase.lower)) :
    c = separator ∨ Name.isNameChar c := by
  rcases mem_intercalate_singleton hc with hsep | ⟨group, hgroup, hc⟩
  · exact Or.inl hsep
  · obtain ⟨word, hword, rfl⟩ := List.mem_map.mp hgroup
    exact Or.inr (LetterCase.isNameChar_lower (fun _ hc => hcs _ (mem_of_mem_words hword hc)) c hc)

end Chars

theorem isPlain_snake (hs : Name.IsPlain s) : Name.IsPlain (snake s) := by
  intro c hc
  rw [snake, String.toList_ofList] at hc
  rcases Chars.mem_intercalate_words hs hc with rfl | hc
  · decide
  · exact hc

theorem mem_kebab (hs : Name.IsPlain s) (hc : c ∈ (kebab s).toList) :
    c = '-' ∨ Name.isNameChar c := by
  rw [kebab, String.toList_ofList] at hc
  exact Chars.mem_intercalate_words hs hc

theorem isPlain_pascal (hs : Name.IsPlain s) : Name.IsPlain (pascal s) := by
  intro c hc
  rw [pascal, String.toList_ofList] at hc
  obtain ⟨word, hword, hc⟩ := List.mem_flatMap.mp hc
  exact Chars.isNameChar_capitalize (fun _ hc => hs _ (Chars.mem_of_mem_words hword hc)) c hc

theorem isPlain_upper (hs : Name.IsPlain s) : Name.IsPlain (upper s) := by
  intro c hc
  rw [upper, String.toList_ofList] at hc
  exact LetterCase.isNameChar_upper hs c hc

theorem isPlain_of_mem_splitOn (hs : Name.IsPlain s) {piece : String}
    (hpiece : piece ∈ splitOn c s) : Name.IsPlain piece := by
  obtain ⟨cs, hcs, rfl⟩ := List.mem_map.mp hpiece
  intro c hc
  rw [String.toList_ofList] at hc
  exact hs c ((Chars.infix_of_mem_splitOn hcs).subset hc)

theorem isPlain_joinWith {separator : String} {parts : List String}
    (hseparator : Name.IsPlain separator) (hparts : ∀ part ∈ parts, Name.IsPlain part) :
    Name.IsPlain (joinWith separator parts) := by
  intro c hc
  rcases mem_joinWith hc with hc | ⟨part, hpart, hc⟩
  · exact hseparator c hc
  · exact hparts part hpart c hc

end Blueprint.Text

namespace Blueprint.Output

open Text

variable {style : String → String} {s : String}

/-! ### Identifiers -/

theorem isPlain_styled (hstyle : ∀ s, Name.IsPlain s → Name.IsPlain (style s)) {run : List String}
    (hrun : ∀ word ∈ run, Name.IsPlain word) : Name.IsPlain (styled style run) := by
  unfold styled
  split
  · exact fun _ hc => absurd hc List.not_mem_nil
  · exact hstyle _ (isPlain_joinWith (by simp [Name.IsPlain, Name.isNameChar]) hrun)

theorem isPlain_joinWords (hstyle : ∀ s, Name.IsPlain s → Name.IsPlain (style s))
    {run words : List String} (hrun : ∀ word ∈ run, Name.IsPlain word)
    (hwords : ∀ word ∈ words, Name.IsPlain word) : Name.IsPlain (joinWords style run words) := by
  fun_induction joinWords style run words with
  | case1 run => exact isPlain_styled hstyle hrun
  | case2 run word rest _ ih =>
      obtain ⟨hword, hrest⟩ := List.forall_mem_cons.mp hwords
      intro c hc
      simp only [String.toList_append, List.mem_append] at hc
      rcases hc with (hc | hc) | hc
      · exact isPlain_styled hstyle hrun c hc
      · exact isPlain_upper hword c hc
      · exact ih (fun _ hword => absurd hword List.not_mem_nil) hrest c hc
  | case3 run word rest _ ih =>
      obtain ⟨hword, hrest⟩ := List.forall_mem_cons.mp hwords
      exact ih (by simpa [or_imp, forall_and] using ⟨hrun, hword⟩) hrest

theorem isPlain_pascalName (hs : Name.IsPlain s) : Name.IsPlain (pascalName s) := by
  refine isPlain_joinWords (fun _ => isPlain_pascal)
    (fun _ hword => absurd hword List.not_mem_nil) ?_
  intro word hword
  exact isPlain_of_mem_splitOn (isPlain_snake hs) (List.mem_filter.mp hword).1

theorem isPlain_packageName (hs : Name.IsPlain s) : Name.IsPlain (packageName s) := by
  intro c hc
  rw [packageName, eraseChar, String.toList_ofList] at hc
  exact isPlain_snake hs c (List.mem_filter.mp hc).1

end Blueprint.Output
