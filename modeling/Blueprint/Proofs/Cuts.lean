import Blueprint.Proofs.Lines

/-! # Cutting joined texts

A text is cut at the first occurrence of a mark, so what was joined with a mark is cut
again where it was joined, unless the mark occurs earlier. A list of items with commas
between them falls apart into the items.
-/

namespace Blueprint.Text

namespace Chars

variable {mark front back cs : List Char}

/-! ### First occurrences -/

theorem stripStart?_eq_none_iff {head : List Char} :
    stripStart? head cs = none ↔ ¬ head <+: cs := by
  simp [stripStart?]

theorem cut?_cons_of_not_isPrefix {c : Char} (h : ¬ mark <+: c :: cs) :
    cut? mark (c :: cs) = (cut? mark cs).map fun p => (c :: p.1, p.2) := by
  rw [cut?, stripStart?_eq_none_iff.mpr h]

theorem cut?_eq_none_iff (hmark : mark ≠ []) : cut? mark cs = none ↔ ¬ mark <:+: cs := by
  induction cs with
  | nil => simpa [cut?] using hmark
  | cons c cs ih =>
      rw [List.infix_cons_iff, not_or]
      by_cases hstart : mark <+: c :: cs
      · obtain ⟨rest, hrest⟩ := hstart
        simp [cut?, ← hrest, stripStart?_append]
      · simp [cut?_cons_of_not_isPrefix hstart, hstart, ih]

/-- A text is cut at the first occurrence of a mark. -/
theorem not_infix_of_cut? (hmark : mark ≠ []) {before after : List Char}
    (h : cut? mark cs = some (before, after)) : ¬ mark <:+: before := by
  induction cs generalizing before with
  | nil => cases h
  | cons c rest ih =>
      by_cases hstart : mark <+: c :: rest
      · obtain ⟨tail, htail⟩ := hstart
        have hcut : cut? mark (c :: rest) = some ([], tail) := by
          rw [cut?, ← htail, stripStart?_append]
        obtain ⟨rfl, _⟩ := Prod.mk.inj (Option.some.inj (hcut.symm.trans h))
        simpa using hmark
      · have hwhole := eq_of_cut?_eq_some h
        rw [cut?_cons_of_not_isPrefix hstart] at h
        obtain ⟨⟨front, back⟩, hcut, heq⟩ := Option.map_eq_some_iff.mp h
        obtain ⟨rfl, rfl⟩ := Prod.mk.inj heq
        rw [List.infix_cons_iff, not_or]
        refine ⟨fun hfront => hstart ?_, ih hcut⟩
        rw [hwhole, List.append_assoc]
        exact hfront.trans (List.prefix_append _ _)

/-- A mark that does not begin earlier cuts a text where it stands. -/
theorem cut?_append_mark (h : ¬ mark <:+: front ++ mark.dropLast) (back : List Char) :
    cut? mark (front ++ mark ++ back) = some (front, back) := by
  induction front with
  | nil =>
      cases mark with
      | nil => exact absurd (List.nil_infix) h
      | cons c mark =>
          have hstrip := stripStart?_append (c :: mark) back
          simp only [List.nil_append, List.cons_append] at hstrip ⊢
          rw [cut?, hstrip]
  | cons c front ih =>
      rw [List.cons_append, List.infix_cons_iff, not_or] at h
      -- An occurrence at the start would not reach beyond the last character but one of the mark.
      have hstart : ¬ mark <+: c :: (front ++ mark ++ back) := by
        intro hmark
        refine h.1 (List.prefix_of_prefix_length_le hmark ?_ ?_)
        · rw [← List.cons_append, ← List.cons_append, ← List.cons_append, List.append_assoc]
          exact (List.prefix_append_right_inj _).mpr
            ((List.dropLast_prefix mark).trans (List.prefix_append mark back))
        · simp only [List.length_cons, List.length_append, List.length_dropLast]
          omega
      rw [List.cons_append, List.cons_append, cut?_cons_of_not_isPrefix hstart, ih h.2]
      rfl

/-- A mark is not found among characters that cannot begin it. -/
theorem cut?_append_of_not_mem {c : Char} (hc : c ∉ front) (back : List Char) :
    cut? (c :: mark) (front ++ back) =
      (cut? (c :: mark) back).map fun p => (front ++ p.1, p.2) := by
  induction front with
  | nil => simp
  | cons b front ih =>
      obtain ⟨hne, hc⟩ : c ≠ b ∧ c ∉ front := by simpa using hc
      have hstart : ¬ c :: mark <+: b :: (front ++ back) :=
        fun h => hne (List.cons_prefix_cons.mp h).1
      rw [List.cons_append, cut?_cons_of_not_isPrefix hstart, ih hc, Option.map_map]
      rfl

/-- A mark does not reach over a character that it does not hold. -/
theorem cut?_append_cons (hmark : mark ≠ []) {d : Char} (hd : d ∉ mark) (back : List Char) :
    cut? mark (front ++ d :: back) =
      ((cut? mark front).map fun p => (p.1, p.2 ++ d :: back)).or
        ((cut? mark back).map fun p => (front ++ d :: p.1, p.2)) := by
  have hreach : ∀ l : List Char, mark <+: l ++ d :: back → mark <+: l := by
    intro l hl
    refine List.prefix_of_prefix_length_le hl (List.prefix_append l _) ?_
    by_contra hlong
    have hover : l ++ [d] <+: mark := by
      have hfront : l ++ [d] <+: l ++ d :: back := (List.prefix_append_right_inj l).mpr (by simp)
      refine List.prefix_of_prefix_length_le hfront hl ?_
      simp only [List.length_append, List.length_singleton]
      omega
    exact hd (hover.subset (by simp))
  induction front with
  | nil =>
      have hstart : ¬ mark <+: d :: back := fun h => hmark (by simpa using hreach [] h)
      simp [cut?_cons_of_not_isPrefix hstart, cut?]
  | cons c front ih =>
      by_cases hstart : mark <+: c :: front
      · obtain ⟨rest, hrest⟩ := hstart
        have hfront : cut? mark (c :: front) = some ([], rest) := by
          rw [cut?, ← hrest, stripStart?_append]
        have hall : stripStart? mark (c :: (front ++ d :: back)) = some (rest ++ d :: back) := by
          rw [stripStart?_eq_some_iff, ← List.cons_append, ← hrest, List.append_assoc]
        rw [hfront, List.cons_append, cut?, hall]
        rfl
      · have hstart' : ¬ mark <+: c :: (front ++ d :: back) := fun h => hstart (hreach _ h)
        rw [List.cons_append, cut?_cons_of_not_isPrefix hstart', ih,
          cut?_cons_of_not_isPrefix hstart]
        cases cut? mark front with
        | none => simp [Function.comp_def]
        | some parts => rfl

/-- A mark that was found is found in the same place whatever follows. -/
theorem cut?_append {before after : List Char} (h : cut? mark cs = some (before, after))
    (back : List Char) : cut? mark (cs ++ back) = some (before, after ++ back) := by
  induction cs generalizing before with
  | nil => cases h
  | cons c cs ih =>
      by_cases hstart : mark <+: c :: cs
      · obtain ⟨rest, hrest⟩ := hstart
        rw [cut?, ← hrest, stripStart?_append] at h
        obtain ⟨rfl, rfl⟩ := Prod.mk.inj (Option.some.inj h)
        rw [List.cons_append, cut?, ← List.cons_append, ← hrest, List.append_assoc,
          stripStart?_append]
      · rw [cut?_cons_of_not_isPrefix hstart] at h
        obtain ⟨⟨earlier, later⟩, hcut, heq⟩ := Option.map_eq_some_iff.mp h
        obtain ⟨rfl, rfl⟩ := Prod.mk.inj heq
        -- The occurrence further on leaves no room for one that reaches beyond the text.
        have hstart' : ¬ mark <+: c :: (cs ++ back) := by
          intro hprefix
          refine hstart (List.prefix_of_prefix_length_le hprefix (List.prefix_append _ back) ?_)
          rw [eq_of_cut?_eq_some hcut]
          simp only [List.length_cons, List.length_append]
          omega
        rw [List.cons_append, cut?_cons_of_not_isPrefix hstart', ih hcut]
        rfl

/-- Behind a text without the mark, the first mark leaves at most a part of itself over. -/
theorem exists_cut?_append (hfree : ¬ mark <:+: front) (hmark : mark ≠ []) :
    ∃ before after, after <:+ mark ∧
      ∀ back, cut? mark (front ++ mark ++ back) = some (before, after ++ back) := by
  cases hcut : cut? mark (front ++ mark) with
  | none => exact absurd (List.suffix_append front mark).isInfix ((cut?_eq_none_iff hmark).mp hcut)
  | some parts =>
      obtain ⟨before, after⟩ := parts
      refine ⟨before, after, ?_, cut?_append hcut⟩
      have heq := eq_of_cut?_eq_some hcut
      by_contra hlong
      have hafter : mark <:+ after := by
        refine (List.suffix_or_suffix_of_suffix (List.suffix_append front mark)
          (heq ▸ List.suffix_append (before ++ mark) after)).resolve_right hlong
      obtain ⟨rest, rfl⟩ := hafter
      rw [← List.append_assoc] at heq
      exact hfree ⟨before, rest, (List.append_cancel_right heq).symm⟩

theorem infix_cons_of_infix_append {c d : Char} {rest : List Char} (hd : d ∉ front)
    (h : c :: d :: rest <:+: front ++ back) : c :: d :: rest <:+: c :: back := by
  obtain ⟨before, after, heq⟩ := h
  have heq : (before ++ [c]) ++ (d :: rest ++ after) = front ++ back := by simpa using heq
  rcases List.append_eq_append_iff.mp heq with ⟨more, hfront, hback⟩ | ⟨more, hfront, hback⟩
  · cases more with
    | nil => exact ⟨[], after, by simpa using congrArg (c :: ·) hback⟩
    | cons first more =>
        rw [List.cons_append, List.cons_append] at hback
        rw [hfront, (List.cons.inj hback).1] at hd
        simp at hd
  · rcases List.eq_nil_or_concat' more with rfl | ⟨more, last, rfl⟩
    · exact ⟨[], after, by simp [hback]⟩
    · rw [← List.append_assoc] at hfront
      have hlast : c = last := by simpa using (List.append_inj' hfront rfl).2
      exact ⟨c :: more, after, by simp [hback, hlast]⟩

theorem infix_of_infix_append {c : Char} {rest : List Char} (hc : c ∉ back)
    (h : rest ++ [c] <:+: front ++ back) : rest ++ [c] <:+: front := by
  obtain ⟨before, after, heq⟩ := h
  rcases List.append_eq_append_iff.mp heq with ⟨more, hfront, hback⟩ | ⟨more, hfront, hback⟩
  · exact ⟨before, more, hfront.symm⟩
  · rcases List.eq_nil_or_concat' more with rfl | ⟨more, last, rfl⟩
    · exact ⟨before, [], by simpa using hfront⟩
    · rw [← List.append_assoc, ← List.append_assoc] at hfront
      have hlast : c = last := by simpa using (List.append_inj' hfront rfl).2
      simp [hback, hlast] at hc

/-! ### Trimmed texts -/

theorem trimStart_append_cons {c : Char} (hc : isBlank c = false) (front back : List Char) :
    trimStart (front ++ c :: back) = trimStart front ++ c :: back := by
  rw [trimStart, trimStart, List.dropWhile_append]
  split
  next hempty =>
    rw [List.isEmpty_iff.mp hempty, List.dropWhile_cons_of_neg (by simp [hc])]
    rfl
  next => rfl

theorem trimStart_append (h : ∃ c ∈ front, isBlank c = false) (back : List Char) :
    trimStart (front ++ back) = trimStart front ++ back := by
  obtain ⟨c, hmem, hc⟩ := h
  obtain ⟨before, after, rfl⟩ := List.append_of_mem hmem
  rw [List.append_assoc, List.cons_append, trimStart_append_cons hc, trimStart_append_cons hc,
    List.append_assoc, List.cons_append]

theorem trimEnd_append_cons {c : Char} (hc : isBlank c = false) (front back : List Char) :
    trimEnd (front ++ c :: back) = front ++ c :: trimEnd back := by
  have hstart := trimStart_append_cons hc back.reverse front.reverse
  rw [trimStart, trimStart] at hstart
  simp [trimEnd, hstart]

theorem isInfix_trim (cs : List Char) : trim cs <:+: cs :=
  (List.rdropWhile_prefix isBlank (trimStart cs)).isInfix.trans
    (List.dropWhile_suffix isBlank).isInfix

theorem trim_eq_self_iff : trim cs = cs ↔
    (∀ c ∈ cs.head?, isBlank c = false) ∧ ∀ c ∈ cs.getLast?, isBlank c = false := by
  cases cs with
  | nil => simp [trim, trimStart, trimEnd]
  | cons c cs =>
      simp only [List.head?_cons, Option.mem_some_iff, forall_eq']
      rw [List.getLast?_eq_some_getLast (List.cons_ne_nil c cs)]
      simp only [Option.mem_some_iff, forall_eq']
      constructor
      · intro h
        have hc : isBlank c = false := by
          by_contra hblank
          rw [Bool.not_eq_false] at hblank
          have hlength := congrArg List.length h
          have hshort : (trim (c :: cs)).length ≤ cs.length := by
            rw [trim, trimStart, List.dropWhile_cons_of_pos hblank]
            exact ((List.rdropWhile_prefix isBlank _).length_le).trans
              (List.dropWhile_suffix isBlank).length_le
          rw [hlength, List.length_cons] at hshort
          omega
        refine ⟨hc, ?_⟩
        rw [trim, trimStart_cons hc] at h
        simpa using (List.rdropWhile_eq_self_iff.mp h) (List.cons_ne_nil c cs)
      · rintro ⟨hc, hlast⟩
        rw [trim, trimStart_cons hc]
        exact List.rdropWhile_eq_self_iff.mpr fun _ => by simp [hlast]

/-- Only the ends of a text have to be free of blanks. -/
theorem trim_append_eq_self {back : List Char} (hfront : trim front = front) (hne : front ≠ [])
    (hback : trim back = back) (hne' : back ≠ []) (cs : List Char) :
    trim (front ++ cs ++ back) = front ++ cs ++ back := by
  rw [trim_eq_self_iff] at hfront hback ⊢
  refine ⟨?_, ?_⟩
  · rw [List.append_assoc, List.head?_append_of_ne_nil front hne]
    exact hfront.1
  · rw [List.getLast?_append_of_ne_nil (front ++ cs) hne']
    exact hback.2

theorem trim_of_no_blank (h : ∀ c ∈ cs, isBlank c = false) : trim cs = cs :=
  trim_eq_self_iff.mpr ⟨fun c hc => h c (List.mem_of_head? hc),
    fun c hc => h c (List.mem_of_getLast? hc)⟩

/-! ### Texts with commas -/

theorem infix_append_cons_iff (hmark : mark ≠ []) {d : Char} (hd : d ∉ mark) {back : List Char} :
    mark <:+: front ++ d :: back ↔ mark <:+: front ∨ mark <:+: back := by
  rw [← not_iff_not, not_or, ← cut?_eq_none_iff hmark, ← cut?_eq_none_iff hmark,
    ← cut?_eq_none_iff hmark, cut?_append_cons hmark hd]
  simp

theorem infix_intercalate_iff (hmark : mark ≠ []) {d : Char} (hd : d ∉ mark)
    {parts : List (List Char)} :
    mark <:+: [d].intercalate parts ↔ ∃ part ∈ parts, mark <:+: part := by
  induction parts with
  | nil => simp [hmark]
  | cons part parts ih =>
      cases parts with
      | nil => simp
      | cons next parts =>
          rw [List.intercalate_cons_cons, List.append_assoc, List.singleton_append,
            infix_append_cons_iff hmark hd, ih, List.exists_mem_cons_iff (a := part)]

/-- The first part that holds a mark is cut, and the parts after it stay. -/
theorem cut?_intercalate (hmark : mark ≠ []) {d : Char} (hd : d ∉ mark)
    {before after : List (List Char)} (hbefore : ∀ part ∈ before, ¬ mark <:+: part)
    {part head tail : List Char} (hpart : cut? mark part = some (head, tail)) :
    ∃ first, cut? mark ([d].intercalate (before ++ part :: after)) =
      some (first, [d].intercalate (tail :: after)) := by
  induction before with
  | nil =>
      cases after with
      | nil => exact ⟨head, by simpa using hpart⟩
      | cons next after =>
          refine ⟨head, ?_⟩
          rw [List.nil_append, List.intercalate_cons_cons, List.append_assoc,
            List.singleton_append, cut?_append_cons hmark hd, hpart]
          simp [List.intercalate_cons_cons]
  | cons other before ih =>
      obtain ⟨hother, hbefore⟩ := List.forall_mem_cons.mp hbefore
      obtain ⟨first, hfirst⟩ := ih hbefore
      refine ⟨other ++ d :: first, ?_⟩
      obtain ⟨next, more, hnext⟩ : ∃ next more, before ++ part :: after = next :: more := by
        cases before <;> simp
      rw [List.cons_append, hnext, List.intercalate_cons_cons, List.append_assoc,
        List.singleton_append, ← hnext, cut?_append_cons hmark hd,
        (cut?_eq_none_iff hmark).mpr hother, hfirst]
      rfl

theorem infix_of_mem_splitOn {d : Char} {piece : List Char} (h : piece ∈ cs.splitOn d) :
    piece <:+: cs := by
  have hcs : [d].intercalate (cs.splitOn d) = cs := List.intercalate_splitOn d
  rw [← hcs]
  generalize cs.splitOn d = pieces at h
  induction pieces with
  | nil => cases h
  | cons first pieces ih =>
      cases pieces with
      | nil => simp [List.mem_singleton.mp h]
      | cons next pieces =>
          rw [List.intercalate_cons_cons, List.append_assoc]
          rcases List.mem_cons.mp h with rfl | h
          · exact List.infix_append_left
          · exact (ih h).trans (List.infix_append_right.trans List.infix_append_right)

theorem splitOn_append_blanks (cs : List Char) {blanks : List Char}
    (hblanks : ∀ c ∈ blanks, isBlank c) :
    List.Forall₂ (fun piece piece' => piece = piece' ∨ piece = piece' ++ blanks)
      ((cs ++ blanks).splitOn ',') (cs.splitOn ',') := by
  induction cs with
  | nil =>
      have hcomma : ',' ∉ blanks := fun hmem => absurd (hblanks ',' hmem) (by decide)
      have hone : ([','].intercalate [blanks]).splitOn ',' = [blanks] :=
        List.splitOn_intercalate ',' (by simpa using hcomma) (by simp)
      rw [List.intercalate_singleton] at hone
      rw [List.nil_append, hone]
      exact .cons (Or.inr rfl) .nil
  | cons c cs ih =>
      rw [List.cons_append, List.splitOn_cons_eq_if_modifyHead, List.splitOn_cons_eq_if_modifyHead]
      generalize (cs ++ blanks).splitOn ',' = pieces at ih
      generalize cs.splitOn ',' = pieces' at ih
      split
      · exact .cons (Or.inl rfl) ih
      · cases ih with
        | nil => exact .nil
        | cons hfirst hrest =>
            refine .cons ?_ hrest
            rcases hfirst with rfl | rfl
            · exact Or.inl rfl
            · exact Or.inr rfl

end Chars

/-! ### Cutting strings -/

theorem cut?_eq_none_iff {mark s : String} (hmark : mark ≠ "") :
    cut? mark s = none ↔ ¬ mark.toList <:+: s.toList := by
  rw [cut?, Option.map_eq_none_iff, Chars.cut?_eq_none_iff (by simpa using hmark)]

theorem cut?_append_mark {mark front : String}
    (h : ¬ mark.toList <:+: front.toList ++ mark.toList.dropLast) (back : String) :
    cut? mark (front ++ mark ++ back) = some (front, back) := by
  rw [cut?, String.toList_append, String.toList_append, Chars.cut?_append_mark h]
  simp only [Option.map_some, String.ofList_toList]

theorem trim_eq_self_iff {s : String} : trim s = s ↔ Chars.trim s.toList = s.toList := by
  rw [trim, ← String.toList_inj, String.toList_ofList]

theorem trimmed?_eq_some_iff {s t : String} : trimmed? s = some t ↔ trim s = t ∧ t ≠ "" := by
  unfold trimmed?
  dsimp only
  constructor
  · intro h
    split at h
    · cases h
    next hne =>
      obtain rfl := Option.some.inj h
      exact ⟨rfl, by simpa using hne⟩
  · rintro ⟨rfl, hne⟩
    exact if_neg (by simpa using hne)

/-! ### Lists of items -/

/-- Whether a text can stand in a list with commas: it is not empty, no blanks stand around it
and no comma in it. -/
structure IsItem (s : String) : Prop where
  ne_empty : s ≠ ""
  trim_eq : trim s = s
  no_comma : ',' ∉ s.toList

theorem IsItem.trimmed?_eq {s : String} (hs : IsItem s) : trimmed? s = some s :=
  trimmed?_eq_some_iff.mpr ⟨hs.trim_eq, hs.ne_empty⟩

theorem filterMap_trimmed? {items : List String} (hitems : ∀ t ∈ items, IsItem t) :
    items.filterMap trimmed? = items :=
  (List.filterMap_congr fun t ht => (hitems t ht).trimmed?_eq).trans List.filterMap_some

theorem isItem_of_no_blank {s : String} (hne : s ≠ "")
    (hs : ∀ c ∈ s.toList, isBlank c = false ∧ c ≠ ',') : IsItem s where
  ne_empty := hne
  trim_eq := trim_eq_self_iff.mpr (Chars.trim_of_no_blank fun c hc => (hs c hc).1)
  no_comma hmem := (hs _ hmem).2 rfl

theorem joinWith_cons_cons (separator part next : String) (parts : List String) :
    joinWith separator (part :: next :: parts) =
      part ++ separator ++ joinWith separator (next :: parts) := by
  rw [joinWith, String.intercalate_cons_cons]
  rfl

/-- Joined items with a blank before them, as parts between commas. -/
theorem cons_blank_toList_joinWith {items : List String} (hne : items ≠ []) :
    ' ' :: (joinWith ", " items).toList =
      [','].intercalate (items.map fun t => ' ' :: t.toList) := by
  induction items with
  | nil => exact absurd rfl hne
  | cons item items ih =>
      cases items with
      | nil => simp [joinWith]
      | cons next items =>
          rw [joinWith_cons_cons, String.toList_append, String.toList_append, List.append_assoc]
          have hrest : ", ".toList ++ (joinWith ", " (next :: items)).toList =
              ',' :: ' ' :: (joinWith ", " (next :: items)).toList := rfl
          rw [hrest, ih (by simp)]
          simp [List.intercalate_cons_cons]

theorem toList_blank_append (s : String) : (" " ++ s).toList = ' ' :: s.toList := by
  rw [String.toList_append]
  rfl

theorem trimmed?_blank_append (s : String) : trimmed? (" " ++ s) = trimmed? s := by
  have htrim : trim (" " ++ s) = trim s := by
    rw [trim, trim, toList_blank_append, Chars.trim, Chars.trim, Chars.trimStart,
      List.dropWhile_cons_of_pos (by decide)]
    rfl
  rw [trimmed?, trimmed?, htrim]

theorem filterMap_splitOn_blank_append (s : String) :
    (splitOn ',' (" " ++ s)).filterMap trimmed? = (splitOn ',' s).filterMap trimmed? := by
  rw [splitOn, splitOn, toList_blank_append, List.splitOn_cons_eq_if_modifyHead, if_neg (by decide)]
  obtain ⟨first, more, hpieces⟩ := List.exists_cons_of_ne_nil (List.splitOn_ne_nil ',' s.toList)
  have hfirst : String.ofList (' ' :: first) = " " ++ String.ofList first := by
    apply String.toList_inj.mp
    rw [toList_blank_append, String.toList_ofList, String.toList_ofList]
  simp only [hpieces, List.modifyHead_cons, List.map_cons, List.filterMap_cons, hfirst,
    trimmed?_blank_append]

/-- Blanks at the end do not make another option. -/
theorem filterMap_splitOn_trimEnd (s : String) :
    (splitOn ',' (.ofList (Chars.trimEnd s.toList))).filterMap trimmed? =
      (splitOn ',' s).filterMap trimmed? := by
  obtain ⟨blanks, hsplit, hblanks⟩ : ∃ blanks, s.toList = Chars.trimEnd s.toList ++ blanks ∧
      ∀ c ∈ blanks, isBlank c :=
    ⟨_, List.rdropWhile_append_rtakeWhile.symm, fun _ hc => List.mem_rtakeWhile_imp hc⟩
  have hpieces := Chars.splitOn_append_blanks (Chars.trimEnd s.toList) hblanks
  rw [← hsplit] at hpieces
  rw [splitOn, splitOn, String.toList_ofList, List.filterMap_map, List.filterMap_map]
  generalize Chars.trimEnd s.toList = cs at hpieces
  generalize s.toList.splitOn ',' = pieces at hpieces
  generalize cs.splitOn ',' = pieces' at hpieces
  induction hpieces with
  | nil => rfl
  | @cons piece piece' _ _ hfirst _ ih =>
      have htrim : trimmed? (.ofList piece) = trimmed? (.ofList piece') := by
        rcases hfirst with rfl | rfl
        · rfl
        · simp only [trimmed?, trim, String.toList_ofList, Chars.trim_append_blanks hblanks]
      rw [List.filterMap_cons, List.filterMap_cons, ih, Function.comp_apply, Function.comp_apply,
        htrim]

/-- Texts without commas are found again between the commas. -/
theorem filterMap_splitOn_joinWith_of_no_comma {items : List String}
    (hitems : ∀ t ∈ items, ',' ∉ t.toList) :
    (splitOn ',' (joinWith ", " items)).filterMap trimmed? = items.filterMap trimmed? := by
  by_cases hne : items = []
  · subst hne
    decide
  have hcomma : ∀ part ∈ items.map fun t => ' ' :: t.toList, ',' ∉ part := by
    refine List.forall_mem_map.mpr fun t ht => ?_
    simpa using hitems t ht
  rw [← filterMap_splitOn_blank_append, splitOn, toList_blank_append,
    cons_blank_toList_joinWith hne, List.splitOn_intercalate ',' hcomma (by simpa using hne),
    List.map_map, List.filterMap_map]
  refine List.filterMap_congr fun t _ => ?_
  have hpart : String.ofList (' ' :: t.toList) = " " ++ t := by
    apply String.toList_inj.mp
    rw [toList_blank_append, String.toList_ofList]
  rw [Function.comp_apply, Function.comp_apply, hpart, trimmed?_blank_append]

/-- A list of items falls apart into them. -/
theorem filterMap_splitOn_joinWith {items : List String} (hitems : ∀ t ∈ items, IsItem t) :
    (splitOn ',' (joinWith ", " items)).filterMap trimmed? = items := by
  rw [filterMap_splitOn_joinWith_of_no_comma fun t ht => (hitems t ht).no_comma,
    filterMap_trimmed? hitems]

theorem trim_joinWith {items : List String} (hitems : ∀ t ∈ items, IsItem t) (hne : items ≠ []) :
    trim (joinWith ", " items) = joinWith ", " items ∧ joinWith ", " items ≠ "" := by
  induction items with
  | nil => exact absurd rfl hne
  | cons item items ih =>
      obtain ⟨hitem, hitems⟩ := List.forall_mem_cons.mp hitems
      cases items with
      | nil => exact ⟨hitem.trim_eq, hitem.ne_empty⟩
      | cons next items =>
          obtain ⟨htrim, hrest⟩ := ih hitems (by simp)
          rw [joinWith_cons_cons]
          refine ⟨?_, by simp [hrest]⟩
          rw [trim_eq_self_iff, String.toList_append, String.toList_append]
          exact Chars.trim_append_eq_self (trim_eq_self_iff.mp hitem.trim_eq)
            (by simpa using hitem.ne_empty) (trim_eq_self_iff.mp htrim) (by simpa using hrest) _

end Blueprint.Text
