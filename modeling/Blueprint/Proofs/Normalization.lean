import Blueprint.Proofs.Lines
import Blueprint.Proofs.Words
import Mathlib.Data.List.Chain

/-! # Normal names

What normalization makes of a text is empty or has the form of a name, and a text of that
form is only changed where a letter meets a digit. Two such characters can meet in a normalized
text, since words are cut before the characters between them are left out: `a!1` becomes
`a1`, which becomes `a_1`. So a second pass can change a name, and a third one cannot.
-/

namespace Blueprint.Name

/-- Whether a letter and a digit meet. -/
def isSeam (c d : Char) : Bool :=
  c.isLower && d.isDigit || c.isDigit && d.isLower

/-- The text with an underscore put between each letter and digit that meet. -/
def separate : List Char → List Char
  | [] => []
  | [c] => [c]
  | c :: d :: rest =>
    if isSeam c d then c :: '_' :: separate (d :: rest) else c :: separate (d :: rest)

/-- The form of a name: small letters, digits and single underscores, a letter first and no
underscore last. -/
structure IsFormed (cs : List Char) : Prop where
  small : ∀ c ∈ cs, c.isLower ∨ c.isDigit ∨ c = '_'
  head : ∃ c, cs.head? = some c ∧ c.isLower
  last : cs.getLast? ≠ some '_'
  single : cs.IsChain fun c d => c ≠ '_' ∨ d ≠ '_'

/-- Whether no letter of a text stands next to a digit. -/
def IsParted (cs : List Char) : Prop :=
  cs.IsChain fun c d => isSeam c d = false

variable {cs : List Char}

/-! ### Separated texts -/

theorem isSeam_eq_false {c d : Char} (h : c = '_' ∨ d = '_') : isSeam c d = false := by
  rcases h with rfl | rfl
  · simp [isSeam]
  · simp [isSeam]

theorem ne_underscore_of_isSeam {c d : Char} (h : isSeam c d) : c ≠ '_' ∧ d ≠ '_' := by
  constructor
  · rintro rfl
    simp [isSeam] at h
  · rintro rfl
    simp [isSeam] at h

theorem head?_separate (cs : List Char) : (separate cs).head? = cs.head? := by
  fun_cases separate cs with
  | case1 => rfl
  | case2 c => rfl
  | case3 c d rest _ => rfl
  | case4 c d rest _ => rfl

theorem getLast?_separate (cs : List Char) : (separate cs).getLast? = cs.getLast? := by
  have hne : ∀ {cs : List Char}, cs ≠ [] → separate cs ≠ [] := by
    intro cs hcs hnil
    have hhead := head?_separate cs
    rw [hnil, List.head?_nil, eq_comm, List.head?_eq_none_iff] at hhead
    exact hcs hhead
  fun_induction separate cs with
  | case1 => rfl
  | case2 c => rfl
  | case3 c d rest _ ih =>
      rw [List.getLast?_cons_of_ne_nil (by simp), List.getLast?_cons_of_ne_nil (hne (by simp)), ih,
        List.getLast?_cons_cons]
  | case4 c d rest _ ih =>
      rw [List.getLast?_cons_of_ne_nil (hne (by simp)), ih, List.getLast?_cons_cons]

theorem mem_separate {c : Char} (h : c ∈ separate cs) : c ∈ cs ∨ c = '_' := by
  fun_induction separate cs with
  | case1 => cases h
  | case2 _ => exact Or.inl h
  | case3 first d rest _ ih =>
      rcases List.mem_cons.mp h with rfl | h
      · simp
      rcases List.mem_cons.mp h with rfl | h
      · simp
      · exact (ih h).imp_left (List.mem_cons_of_mem _)
  | case4 first d rest _ ih =>
      rcases List.mem_cons.mp h with rfl | h
      · simp
      · exact (ih h).imp_left (List.mem_cons_of_mem _)

theorem isParted_separate (cs : List Char) : IsParted (separate cs) := by
  unfold IsParted
  fun_induction separate cs with
  | case1 => exact List.isChain_nil
  | case2 c => exact List.isChain_singleton c
  | case3 c d rest _ ih =>
      exact (ih.cons fun _ _ => isSeam_eq_false (Or.inl rfl)).cons fun y hy =>
        isSeam_eq_false (Or.inr (Option.some.inj hy).symm)
  | case4 c d rest hseam ih =>
      refine ih.cons fun y hy => ?_
      rw [head?_separate] at hy
      obtain rfl := Option.some.inj hy
      simpa using hseam

/-- Only a text in which a letter meets a digit is changed by separating them. -/
theorem separate_eq_self_iff : separate cs = cs ↔ IsParted cs := by
  constructor
  · intro h
    exact h ▸ isParted_separate cs
  · intro h
    unfold IsParted at h
    fun_induction separate cs with
    | case1 => rfl
    | case2 c => rfl
    | case3 c d rest hseam _ =>
        have hfree := (List.isChain_cons_cons.mp h).1
        rw [hseam] at hfree
        cases hfree
    | case4 c d rest _ ih => rw [ih (List.isChain_cons_cons.mp h).2]

theorem IsFormed.separate (h : IsFormed cs) : IsFormed (separate cs) where
  small c hc := by
    rcases mem_separate hc with hc | hc
    · exact h.small c hc
    · exact Or.inr (Or.inr hc)
  head := by
    rw [head?_separate]
    exact h.head
  last := by
    rw [getLast?_separate]
    exact h.last
  single := by
    have hsingle := h.single
    clear h
    fun_induction Name.separate cs with
    | case1 => exact List.isChain_nil
    | case2 c => exact List.isChain_singleton c
    | case3 c d rest hseam ih =>
        obtain ⟨hc, hd⟩ := ne_underscore_of_isSeam hseam
        refine ((ih (List.isChain_cons_cons.mp hsingle).2).cons fun y hy => ?_).cons fun y _ =>
          Or.inl hc
        rw [head?_separate] at hy
        exact Or.inr (Option.some.inj hy ▸ hd)
    | case4 c d rest _ ih =>
        obtain ⟨hcd, hrest⟩ := List.isChain_cons_cons.mp hsingle
        refine (ih hrest).cons fun y hy => ?_
        rw [head?_separate] at hy
        exact Option.some.inj hy ▸ hcd

/-! ### Cleaned texts -/

theorem head?_squeeze (cs : List Char) : (squeeze cs).head? = cs.head? := by
  fun_induction squeeze cs with
  | case1 => rfl
  | case2 c => rfl
  | case3 c d rest hboth ih => rw [ih, List.head?_cons, List.head?_cons, hboth.1, hboth.2]
  | case4 c d rest _ _ => rfl

theorem isChain_squeeze (cs : List Char) :
    (squeeze cs).IsChain fun c d => c ≠ '_' ∨ d ≠ '_' := by
  fun_induction squeeze cs with
  | case1 => exact List.isChain_nil
  | case2 c => exact List.isChain_singleton c
  | case3 c d rest _ ih => exact ih
  | case4 c d rest hboth ih =>
      refine ih.cons fun y hy => ?_
      rw [head?_squeeze] at hy
      obtain rfl := Option.some.inj hy
      exact Classical.not_and_iff_not_or_not.mp hboth

theorem squeeze_eq_self (h : cs.IsChain fun c d => c ≠ '_' ∨ d ≠ '_') : squeeze cs = cs := by
  fun_induction squeeze cs with
  | case1 => rfl
  | case2 c => rfl
  | case3 c d rest hboth _ =>
      exact absurd hboth (Classical.not_and_iff_not_or_not.mpr (List.isChain_cons_cons.mp h).1)
  | case4 c d rest _ ih => rw [ih (List.isChain_cons_cons.mp h).2]

/-- Leaving out underscores that stand next to one lets no letter meet a digit. -/
theorem IsParted.squeeze (h : IsParted cs) : IsParted (squeeze cs) := by
  unfold IsParted at h ⊢
  fun_induction Name.squeeze cs with
  | case1 => exact h
  | case2 c => exact h
  | case3 c d rest _ ih => exact ih (List.isChain_cons_cons.mp h).2
  | case4 c d rest _ ih =>
      obtain ⟨hcd, hrest⟩ := List.isChain_cons_cons.mp h
      refine (ih hrest).cons fun y hy => ?_
      rw [head?_squeeze] at hy
      exact Option.some.inj hy ▸ hcd

theorem clean_isPrefix (cs : List Char) :
    clean cs <+: squeeze ((cs.filter isNameChar).dropWhile cannotLead) :=
  List.rdropWhile_prefix _ _

theorem isChain_clean {r : Char → Char → Prop}
    (h : (squeeze ((cs.filter isNameChar).dropWhile cannotLead)).IsChain r) :
    (clean cs).IsChain r := by
  obtain ⟨rest, hrest⟩ := clean_isPrefix cs
  rw [← hrest] at h
  exact h.left_of_append

/-- A letter that is a name character and no capital is a small one. -/
theorem isLower_or {c : Char} (hname : isNameChar c) (hupper : c.isUpper = false) :
    c.isLower ∨ c.isDigit ∨ c = '_' := by
  have hclasses : c.isUpper || c.isLower || c.isDigit || decide (c = '_') := hname
  rw [hupper] at hclasses
  simpa [or_assoc] using hclasses

theorem isFormed_clean (hcs : ∀ c ∈ cs, c.isUpper = false) :
    clean cs = [] ∨ IsFormed (clean cs) := by
  have hsmall : ∀ c ∈ clean cs, c.isLower ∨ c.isDigit ∨ c = '_' := by
    intro c hc
    obtain ⟨hmem, hname⟩ := List.mem_filter.mp (clean_subset cs hc)
    exact isLower_or hname (hcs c hmem)
  rcases List.eq_nil_or_concat (clean cs) with hnil | ⟨front, last, hconcat⟩
  · exact Or.inl hnil
  right
  have hne : clean cs ≠ [] := by simp [hconcat]
  refine ⟨hsmall, ?_, ?_, isChain_clean (isChain_squeeze _)⟩
  · obtain ⟨c, rest, hcons⟩ := List.exists_cons_of_ne_nil hne
    refine ⟨c, by simp [hcons], ?_⟩
    -- The first character is the first one that can lead a name.
    have hhead : ((cs.filter isNameChar).dropWhile cannotLead).head? = some c := by
      obtain ⟨tail, htail⟩ := clean_isPrefix cs
      rw [← head?_squeeze, ← htail, hcons]
      rfl
    have hlead : cannotLead c = false := by
      have hnot := List.head?_dropWhile_not cannotLead (cs.filter isNameChar)
      rwa [hhead] at hnot
    rw [cannotLead, Bool.or_eq_false_iff, decide_eq_false_iff_not] at hlead
    rcases hsmall c (by simp [hcons]) with hlower | hdigit | hunder
    · exact hlower
    · rw [hlead.2] at hdigit
      cases hdigit
    · exact absurd hunder hlead.1
  · intro hlast
    have hnot := List.rdropWhile_last_not (· = '_') _ hne
    rw [List.getLast?_eq_some_getLast hne] at hlast
    exact hnot (decide_eq_true (Option.some.inj hlast))

theorem IsFormed.isSmallChar (h : IsFormed cs) : ∀ c ∈ cs, isSmallChar c := by
  have hcases : ∀ c : Char, (c.isLower ∨ c.isDigit ∨ c = '_') → isNameChar c := by
    intro c hc
    change c.isUpper || c.isLower || c.isDigit || decide (c = '_')
    rcases hc with hc | hc | hc <;> simp [hc]
  intro c hc
  have hname := hcases c (h.small c hc)
  have hupper := of_isNameChar
    (p := fun c => !c.isUpper || !(c.isLower || c.isDigit || decide (c = '_'))) (by decide)
    hname
  have hclass : c.isLower || c.isDigit || decide (c = '_') := by
    simpa [or_assoc] using h.small c hc
  rw [hclass] at hupper
  simpa [Name.isSmallChar, hname] using hupper

/-- A text of the form of a name is clean already. -/
theorem IsFormed.clean_eq (h : IsFormed cs) : clean cs = cs := by
  have hfilter : cs.filter isNameChar = cs :=
    List.filter_eq_self.mpr fun c hc => (Bool.and_eq_true_iff.mp (h.isSmallChar c hc)).1
  have hdrop : cs.dropWhile cannotLead = cs := by
    obtain ⟨c, hhead, hc⟩ := h.head
    obtain ⟨rest, rfl⟩ := List.head?_eq_some_iff.mp hhead
    have hlead := of_isNameChar (p := fun c => !c.isLower || !cannotLead c) (by decide)
      (Bool.and_eq_true_iff.mp (h.isSmallChar c List.mem_cons_self)).1
    rw [hc] at hlead
    simpa using hlead
  unfold clean
  rw [hfilter, hdrop, squeeze_eq_self h.single]
  refine (List.rdropWhile_eq_self_iff (p := (· = '_'))).mpr fun hne hlast => h.last ?_
  rw [List.getLast?_eq_some_getLast hne, of_decide_eq_true hlast]

end Blueprint.Name

namespace Blueprint.Text

variable {cs : List Char}

/-! ### Joined words -/

theorem LetterCase.lower_of_ordinary (hcs : ∀ c ∈ cs, Name.isOrdinary c) :
    lower cs = cs.map Char.toLower := by
  unfold lower
  generalize [] = before
  induction cs generalizing before with
  | nil => rfl
  | cons c cs ih =>
      obtain ⟨hc, hcs⟩ := List.forall_mem_cons.mp hcs
      obtain ⟨hsigma, hself⟩ := of_decide_eq_true (Name.of_isOrdinary
        (p := fun c => c ≠ 'Σ' ∧ lowerChar c = [c.toLower]) (by decide) hc)
      rw [lowerAfter, if_neg hsigma, hself, ih hcs, List.map_cons, List.singleton_append]

theorem Cluster.words_ne_nil (clusters : List (List Char)) : words clusters ≠ [] := by
  fun_cases words clusters <;> simp

/-- Words joined by underscores, one cluster at a time. -/
theorem Cluster.intercalate_words_cons (c : List Char) (rest : List (List Char)) :
    ['_'].intercalate (words (c :: rest)) =
      if isSeparator c then '_' :: ['_'].intercalate (words rest)
      else if endsWord c rest then c ++ '_' :: ['_'].intercalate (words rest)
      else c ++ ['_'].intercalate (words rest) := by
  obtain ⟨word, more, hwords⟩ := List.exists_cons_of_ne_nil (words_ne_nil rest)
  rw [words, hwords]
  split
  · rw [List.intercalate_cons_cons]
    rfl
  · split
    · rw [List.intercalate_cons_cons, List.append_assoc]
      rfl
    · cases more with
      | nil => simp
      | cons next more => simp [List.intercalate_cons_cons]

namespace Chars

/-- The words of a text of ordinary characters, joined by underscores. -/
def joined (cs : List Char) : List Char :=
  ['_'].intercalate (Cluster.words (cs.map fun c => [c]))

theorem joined_cons (c : Char) (cs : List Char) :
    joined (c :: cs) =
      if Cluster.isSeparator [c] then '_' :: joined cs
      else if Cluster.endsWord [c] (cs.map fun c => [c]) then c :: '_' :: joined cs
      else c :: joined cs :=
  Cluster.intercalate_words_cons [c] _

theorem mem_joined {c : Char} (h : c ∈ joined cs) :
    c = '_' ∨ c ∈ cs ∧ Cluster.isSeparator [c] = false := by
  rcases mem_intercalate_singleton h with hunder | ⟨word, hword, hc⟩
  · exact Or.inl hunder
  · have hmem := List.mem_flatten.mpr ⟨word, hword, hc⟩
    rw [Cluster.flatten_words] at hmem
    obtain ⟨cluster, hcluster, hc⟩ := List.mem_flatten.mp hmem
    obtain ⟨hcluster, hseparator⟩ := List.mem_filter.mp hcluster
    obtain ⟨c', hc', rfl⟩ := List.mem_map.mp hcluster
    obtain rfl := List.mem_singleton.mp hc
    exact Or.inr ⟨hc', by simpa using hseparator⟩

theorem head?_joined_cons (c : Char) (cs : List Char) :
    (joined (c :: cs)).head? = some (if Cluster.isSeparator [c] then '_' else c) := by
  rw [joined_cons]
  split
  · rfl
  · split <;> rfl

theorem map_intercalate (f : Char → Char) (separator : List Char) (parts : List (List Char)) :
    (separator.intercalate parts).map f =
      (separator.map f).intercalate (parts.map (List.map f)) := by
  induction parts with
  | nil => rfl
  | cons part parts ih =>
      cases parts with
      | nil => simp
      | cons next parts =>
          simp only [List.map_cons, List.intercalate_cons_cons, List.map_append] at ih ⊢
          rw [ih]

/-- Ordinary text has its words joined and its letters made small. -/
theorem lower_snake_of_ordinary (hcs : ∀ c ∈ cs, Name.isOrdinary c) :
    LetterCase.lower (snake cs) = (joined cs).map Char.toLower := by
  have hjoined : ∀ c ∈ joined cs, Name.isOrdinary c := by
    intro c hc
    rcases mem_joined hc with rfl | hc
    · decide
    · exact hcs c hc.1
  have hsnake : snake cs = (joined cs).map Char.toLower := by
    unfold snake words
    split
    next hempty => rw [List.isEmpty_iff.mp hempty]; rfl
    next =>
      have hwords : ∀ word ∈ Cluster.words (cs.map fun c => [c]),
          LetterCase.lower word = word.map Char.toLower := by
        intro word hword
        apply LetterCase.lower_of_ordinary
        intro c hc
        have hmem := List.mem_flatten.mpr ⟨word, hword, hc⟩
        rw [Cluster.flatten_words] at hmem
        obtain ⟨cluster, hcluster, hc⟩ := List.mem_flatten.mp hmem
        obtain ⟨c', hc', rfl⟩ := List.mem_map.mp (List.mem_filter.mp hcluster).1
        exact hcs c (List.mem_singleton.mp hc ▸ hc')
      rw [Cluster.split_of_ordinary hcs, List.map_congr_left hwords, joined, map_intercalate]
      rfl
  have hlow : ∀ c ∈ joined cs, Name.isOrdinary c.toLower ∧ c.toLower.toLower = c.toLower :=
    fun c hc => of_decide_eq_true (Name.of_isOrdinary
      (p := fun c => Name.isOrdinary c.toLower ∧ c.toLower.toLower = c.toLower)
      (by decide) (hjoined c hc))
  rw [hsnake, LetterCase.lower_of_ordinary (List.forall_mem_map.mpr fun c hc => (hlow c hc).1),
    List.map_map]
  exact List.map_congr_left fun c hc => (hlow c hc).2

/-- Small text only changes where a letter meets a digit. -/
theorem joined_of_small (hcs : ∀ c ∈ cs, Name.isSmallChar c) : joined cs = Name.separate cs := by
  have hclass : ∀ c, Name.isSmallChar c → Cluster.isSeparator [c] = decide (c = '_') ∧
      Cluster.isLower [c] = c.isLower ∧ Cluster.isUpper [c] = false := by
    intro c hc
    obtain ⟨hname, hupper⟩ := Bool.and_eq_true_iff.mp hc
    have hsame := Name.of_isNameChar (p := fun c => c.isUpper ||
        decide (Cluster.isSeparator [c] = decide (c = '_') ∧
          Cluster.isLower [c] = c.isLower ∧ Cluster.isUpper [c] = false)) (by decide) hname
    rw [Bool.not_eq_true'] at hupper
    rw [hupper, Bool.false_or, decide_eq_true_eq] at hsame
    exact hsame
  induction cs with
  | nil => rfl
  | cons c cs ih =>
      obtain ⟨hc, hcs⟩ := List.forall_mem_cons.mp hcs
      obtain ⟨hseparator, hlower, hupper⟩ := hclass c hc
      rw [joined_cons, hseparator, ih hcs]
      cases cs with
      | nil =>
          by_cases hunder : c = '_'
          · simp [hunder, Name.separate]
          · simp [hunder, Name.separate, Cluster.endsWord]
      | cons d cs =>
          obtain ⟨_, hlower', hupper'⟩ := hclass d (List.forall_mem_cons.mp hcs).1
          have hends : Cluster.endsWord [c] ((d :: cs).map fun c => [c]) = Name.isSeam c d := by
            simp [Cluster.endsWord, Name.isSeam, hlower, hupper, hlower', hupper', Cluster.isDigit]
          rw [hends, Name.separate]
          by_cases hunder : c = '_'
          · simp [hunder, Name.isSeam_eq_false]
          · simp [hunder]

/-- A word ends between two ordinary characters that are no separators if a letter meets a
digit there. -/
theorem endsWord_of_isSeam {c d : Char} (hc : Name.isOrdinary c) (hd : Name.isOrdinary d)
    (hseam : Name.isSeam c.toLower d.toLower) (rest : List (List Char)) :
    Cluster.endsWord [c] ([d] :: rest) := by
  have hclass : ∀ c, Name.isOrdinary c →
      c.toLower.isLower = (Cluster.isLower [c] || Cluster.isUpper [c]) ∧
        c.toLower.isDigit = Cluster.isDigit [c] :=
    fun c hc => of_decide_eq_true (Name.of_isOrdinary (p := fun c =>
      c.toLower.isLower = (Cluster.isLower [c] || Cluster.isUpper [c]) ∧
        c.toLower.isDigit = Cluster.isDigit [c]) (by decide) hc)
  rw [Name.isSeam, (hclass c hc).1, (hclass c hc).2, (hclass d hd).1, (hclass d hd).2] at hseam
  simp only [Bool.or_eq_true, Bool.and_eq_true] at hseam
  rcases hseam with ⟨hletter | hletter, hdigit⟩ | ⟨hdigit, hletter⟩
  · simp [Cluster.endsWord, hletter, hdigit]
  · simp [Cluster.endsWord, hletter, hdigit]
  · rcases hletter with hletter | hletter <;> simp [Cluster.endsWord, hletter, hdigit]

/-- The words of an ordinary text are cut wherever a letter meets a digit. -/
theorem isParted_joined (hcs : ∀ c ∈ cs, Name.isOrdinary c) :
    Name.IsParted ((joined cs).map Char.toLower) := by
  unfold Name.IsParted
  induction cs with
  | nil => exact List.isChain_nil
  | cons c cs ih =>
      obtain ⟨hc, hcs⟩ := List.forall_mem_cons.mp hcs
      rw [joined_cons]
      split
      next =>
        refine (ih hcs).cons fun y _ => ?_
        exact Name.isSeam_eq_false (Or.inl (by decide))
      next hseparator =>
        split
        next =>
          refine ((ih hcs).cons fun y _ => ?_).cons fun y hy => ?_
          · exact Name.isSeam_eq_false (Or.inl (by decide))
          · obtain rfl := Option.some.inj hy
            exact Name.isSeam_eq_false (Or.inr (by decide))
        next hends =>
          refine (ih hcs).cons fun y hy => ?_
          cases cs with
          | nil => cases hy
          | cons d cs =>
              rw [List.head?_map, head?_joined_cons] at hy
              obtain rfl := Option.some.inj hy
              split
              · exact Name.isSeam_eq_false (Or.inr (by decide))
              · rw [← Bool.not_eq_true]
                exact fun hseam => hends (endsWord_of_isSeam hc (hcs d List.mem_cons_self) hseam _)

end Chars

end Blueprint.Text

namespace Blueprint.Name

/-! ### Passes -/

theorem toList_normalize (s : String) :
    (normalize s).toList = clean (Text.LetterCase.lower (Text.Chars.snake s.toList)) := by
  rw [normalize, String.toList_ofList]

/-- What is left of a text is nothing or has the form of a name. -/
theorem normalize_isFormed (s : String) : normalize s = "" ∨ IsFormed (normalize s).toList := by
  have hlow : ∀ c ∈ Text.LetterCase.lower (Text.Chars.snake s.toList), c.isUpper = false :=
    fun _ => Text.LetterCase.isUpper_of_mem_lower
  have hclean := isFormed_clean hlow
  rw [← toList_normalize] at hclean
  simpa using hclean

/-- A text of the form of a name is only changed where a letter meets a digit. -/
theorem IsFormed.toList_normalize {s : String} (hs : IsFormed s.toList) :
    (normalize s).toList = Name.separate s.toList := by
  have hsmall := hs.isSmallChar
  have hlow : (Text.Chars.joined s.toList).map Char.toLower = Name.separate s.toList := by
    rw [Text.Chars.joined_of_small hsmall]
    refine (List.map_congr_left fun c hc => ?_).trans (List.map_id' _)
    have hname := hs.separate.isSmallChar c hc
    have hself := of_isNameChar (p := fun c => c.isUpper || c.toLower = c) (by decide)
      (Bool.and_eq_true_iff.mp hname).1
    simpa [(Bool.not_eq_true' _).mp (Bool.and_eq_true_iff.mp hname).2] using hself
  rw [Name.toList_normalize,
    Text.Chars.lower_snake_of_ordinary fun c hc => isOrdinary_of_small (hsmall c hc), hlow,
    hs.separate.clean_eq]

theorem toList_normalize_normalize (s : String) :
    (normalize (normalize s)).toList = separate (normalize s).toList := by
  rcases normalize_isFormed s with hempty | hformed
  · rw [hempty]
    decide
  · exact hformed.toList_normalize

theorem normalize_eq_self_iff {t : String} :
    normalize t = t ↔ (t = "" ∨ IsFormed t.toList) ∧ IsParted t.toList := by
  constructor
  · intro h
    refine ⟨h ▸ normalize_isFormed t, separate_eq_self_iff.mp ?_⟩
    have htwice := toList_normalize_normalize t
    rw [h, h] at htwice
    exact htwice.symm
  · rintro ⟨rfl | hformed, hparted⟩
    · decide
    · exact String.toList_inj.mp
        (hformed.toList_normalize.trans (separate_eq_self_iff.mpr hparted))

/-- No letter meets a digit in a name that is made of an ordinary text: nothing but separators
is left out of it, and these part its words. -/
theorem isParted_normalize {s : String} (hs : ∀ c ∈ s.toList, isOrdinary c) :
    IsParted (normalize s).toList := by
  have hname : ∀ c ∈ (Text.Chars.joined s.toList).map Char.toLower, isNameChar c := by
    refine List.forall_mem_map.mpr fun c hc => ?_
    rcases Text.Chars.mem_joined hc with rfl | ⟨hmem, hseparator⟩
    · decide
    · have hkept := of_isOrdinary
        (p := fun c => Text.Cluster.isSeparator [c] || isNameChar c.toLower) (by decide)
        (hs c hmem)
      rwa [hseparator, Bool.false_or] at hkept
  rw [toList_normalize, Text.Chars.lower_snake_of_ordinary hs]
  refine isChain_clean (IsParted.squeeze ?_)
  rw [List.filter_eq_self.mpr hname]
  exact (Text.Chars.isParted_joined hs).suffix (List.dropWhile_suffix _)

/-- A second pass puts an underscore between each letter and digit that meet, so it changes
nothing just if none do. In particular none do after a first pass over letters, digits, blanks,
hyphens and underscores. -/
theorem normalize_twice (s : String) :
    normalize (normalize s) = .ofList (separate (normalize s).toList) ∧
      (normalize (normalize s) = normalize s ↔ IsParted (normalize s).toList) ∧
      ((∀ c ∈ s.toList, isOrdinary c) → normalize (normalize s) = normalize s) := by
  have htwice : normalize (normalize s) = .ofList (separate (normalize s).toList) := by
    rw [← toList_normalize_normalize, String.ofList_toList]
  have hiff : normalize (normalize s) = normalize s ↔ IsParted (normalize s).toList := by
    rw [normalize_eq_self_iff, and_iff_right (normalize_isFormed s)]
  exact ⟨htwice, hiff, fun hs => hiff.mpr (isParted_normalize hs)⟩

theorem normalize_twice_mark :
    normalize "a!1" = "a1" ∧ normalize (normalize "a!1") = "a_1" ∧
      normalize (normalize "2 FAST 4-U") = normalize "2 FAST 4-U" := by
  have hmark : normalize "a!1" = "a1" := by decide
  refine ⟨hmark, (normalize_twice "a!1").1.trans ?_, (normalize_twice "2 FAST 4-U").2.2 ?_⟩
  · rw [hmark]
    decide
  · exact List.all_eq_true.mp (by decide : "2 FAST 4-U".toList.all isOrdinary)

/-- Normalized texts have the form of a name, the texts that normalization leaves alone are
those of this form in which no letter stands next to a digit, and every text is one of them
after two passes. -/
theorem normalize_forms (s t : String) :
    (normalize s = "" ∨ IsFormed (normalize s).toList) ∧
      (normalize t = t ↔ (t = "" ∨ IsFormed t.toList) ∧ IsParted t.toList) ∧
      normalize (normalize (normalize s)) = normalize (normalize s) := by
  refine ⟨normalize_isFormed s, normalize_eq_self_iff, normalize_eq_self_iff.mpr ?_⟩
  refine ⟨normalize_isFormed (normalize s), ?_⟩
  rw [toList_normalize_normalize]
  exact isParted_separate _

end Blueprint.Name
