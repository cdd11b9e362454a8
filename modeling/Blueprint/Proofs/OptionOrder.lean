import Blueprint.Proofs.Declared
import Blueprint.Proofs.Options
import Mathlib.Logic.Relation

/-! # The order of options

Options of different classes do not get into each other's way. What a list of options
amounts to is told by each class on its own: a flag by whether it is there, uniqueness by
its labels in order, a range and a default value by the last of them. So options may be
exchanged across classes, and those without effect may be left out. In a line this holds as
long as the options begin where they seem to.
-/

namespace Blueprint.Attribute

open Text

/-! ### Classes of settings -/

/-- What an option is about. Uniqueness is one class, with a label or without. -/
inductive OptionClass where
  | primary
  | required
  | unique
  | range
  | defaultValue
  | ignored
deriving DecidableEq, Repr

def Setting.optionClass : Setting → OptionClass
  | primary => .primary
  | required => .required
  | unique | label _ => .unique
  | range _ _ => .range
  | defaultValue _ => .defaultValue
  | ignored => .ignored

/-- The settings of one class, in order. -/
def ofClass (k : OptionClass) (ss : List Setting) : List Setting :=
  ss.filter fun s => s.optionClass = k

theorem ofClass_concat (k : OptionClass) (ss : List Setting) (s : Setting) :
    ofClass k (ss ++ [s]) = ofClass k ss ++ if s.optionClass = k then [s] else [] := by
  rw [ofClass, List.filter_append, List.filter_singleton]
  by_cases hk : s.optionClass = k <;> simp [hk, ofClass]

theorem foldl_apply_segment (a : Attribute) (ss : List Setting) :
    (ss.foldl apply a).segment = a.segment := by
  rw [segment, segment, foldl_apply_localName, (foldl_apply_frame a ss).2.1]

/-- What settings amount to, class by class. -/
theorem foldl_apply_eq (a : Attribute) (ss : List Setting) :
    ss.foldl apply a = { a with
      primary := a.primary || !(ofClass .primary ss).isEmpty
      required := a.required || !(ofClass .required ss).isEmpty
      unique := ((ofClass .unique ss).foldl apply a).unique
      min := ((ofClass .range ss).getLast?.elim a a.apply).min
      max := ((ofClass .range ss).getLast?.elim a a.apply).max
      defaultValue := ((ofClass .defaultValue ss).getLast?.elim a a.apply).defaultValue } := by
  induction ss using List.reverseRecOn with
  | nil => simp [ofClass]
  | append_singleton ss s ih =>
      have hsegment := foldl_apply_segment a (ofClass .unique ss)
      rw [List.foldl_append, List.foldl_cons, List.foldl_nil, ih]
      simp only [ofClass_concat]
      cases s with
      | unique =>
          simp [apply, addUnique_eq, Setting.optionClass, List.foldl_append, hsegment]
          rfl
      | label name =>
          simp [apply, addUnique_eq, Setting.optionClass, List.foldl_append]
      | _ => simp [apply, Setting.optionClass]

/-- Whether two lists of settings amount to the same. -/
structure SameEffect (ss ss' : List Setting) : Prop where
  flags : ∀ k, k = .primary ∨ k = .required → (ofClass k ss = [] ↔ ofClass k ss' = [])
  labels : ofClass .unique ss = ofClass .unique ss'
  values : ∀ k, k = .range ∨ k = .defaultValue →
    (ofClass k ss).getLast? = (ofClass k ss').getLast?

theorem SameEffect.of_eq {ss ss' : List Setting}
    (h : ∀ k, k ≠ .ignored → ofClass k ss = ofClass k ss') : SameEffect ss ss' where
  flags := by rintro k (rfl | rfl) <;> rw [h _ (by decide)]
  labels := h _ (by decide)
  values := by rintro k (rfl | rfl) <;> rw [h _ (by decide)]

theorem SameEffect.foldl_apply {ss ss' : List Setting} (h : SameEffect ss ss') (a : Attribute) :
    ss.foldl apply a = ss'.foldl apply a := by
  have hflags : ∀ k, k = .primary ∨ k = .required →
      (ofClass k ss).isEmpty = (ofClass k ss').isEmpty := by
    intro k hk
    rw [Bool.eq_iff_iff, List.isEmpty_iff, List.isEmpty_iff]
    exact h.flags k hk
  rw [foldl_apply_eq, foldl_apply_eq a ss', hflags _ (Or.inl rfl), hflags _ (Or.inr rfl), h.labels,
    h.values _ (Or.inl rfl), h.values _ (Or.inr rfl)]

/-! ### Changes of options -/

/-- What an option as it is written sets. Nothing is written between two commas with blanks. -/
def setting? (option : String) : Option Setting :=
  (trimmed? option).map Setting.ofText

def optionClass (option : String) : OptionClass :=
  (setting? option).elim .ignored Setting.optionClass

/-- Changes of the options that are written, each without effect. -/
inductive OptionStep : List String → List String → Prop where
  | exchange (before : List String) {o o' : String} (after : List String)
      (h : optionClass o ≠ optionClass o') :
      OptionStep (before ++ o :: o' :: after) (before ++ o' :: o :: after)
  | dropIgnored (before : List String) {o : String} (after : List String)
      (h : optionClass o = .ignored) : OptionStep (before ++ o :: after) (before ++ after)
  /-- The flag is set by another option. -/
  | dropFlag (before : List String) {o o' : String} (after : List String)
      (hflag : optionClass o = .primary ∨ optionClass o = .required)
      (ho' : o' ∈ before ++ after) (h : optionClass o' = optionClass o) :
      OptionStep (before ++ o :: after) (before ++ after)
  /-- A later option sets the value again. -/
  | dropValue (before : List String) {o o' : String} (after : List String)
      (hvalue : optionClass o = .range ∨ optionClass o = .defaultValue)
      (ho' : o' ∈ after) (h : optionClass o' = optionClass o) :
      OptionStep (before ++ o :: after) (before ++ after)

/-- The setting of an option if it is of the given class. -/
def settingOf? (k : OptionClass) (option : String) : Option Setting :=
  (setting? option).filter fun s => s.optionClass = k

variable {k : OptionClass} {o o' : String} {before after os os' : List String}

theorem ofClass_filterMap (k : OptionClass) (os : List String) :
    ofClass k (os.filterMap setting?) = os.filterMap (settingOf? k) := by
  rw [ofClass, List.filter_filterMap]
  rfl

theorem settingOf?_eq_none (h : optionClass o ≠ k) : settingOf? k o = none := by
  unfold settingOf?
  unfold optionClass at h
  cases hs : setting? o with
  | none => rfl
  | some s =>
      rw [hs] at h
      simpa using h

theorem settingOf?_ne_none (hk : k ≠ .ignored) (h : optionClass o = k) :
    settingOf? k o ≠ none := by
  unfold settingOf?
  unfold optionClass at h
  cases hs : setting? o with
  | none =>
      rw [hs] at h
      exact absurd h.symm hk
  | some s =>
      rw [hs] at h
      simpa using h

theorem filterMap_settingOf?_ne_nil (hk : k ≠ .ignored) (ho : o ∈ os) (h : optionClass o = k) :
    os.filterMap (settingOf? k) ≠ [] := by
  obtain ⟨s, hs⟩ := Option.ne_none_iff_exists'.mp (settingOf?_ne_none hk h)
  exact List.ne_nil_of_mem (List.mem_filterMap.mpr ⟨o, ho, hs⟩)

/-- An option of another class leaves a class alone. -/
theorem filterMap_settingOf?_drop (h : optionClass o ≠ k) :
    (before ++ o :: after).filterMap (settingOf? k) =
      (before ++ after).filterMap (settingOf? k) := by
  rw [List.filterMap_append, List.filterMap_cons, settingOf?_eq_none h, List.filterMap_append]

theorem filterMap_settingOf?_exchange (k : OptionClass) (before after : List String)
    (h : optionClass o ≠ optionClass o') :
    (before ++ o :: o' :: after).filterMap (settingOf? k) =
      (before ++ o' :: o :: after).filterMap (settingOf? k) := by
  by_cases hk : optionClass o = k
  · have hk' : optionClass o' ≠ k := fun heq => h (hk.trans heq.symm)
    rw [filterMap_settingOf?_drop hk', List.append_cons, filterMap_settingOf?_drop hk',
      ← List.append_cons]
  · rw [filterMap_settingOf?_drop hk, List.append_cons, List.append_cons before o' (o :: after),
      filterMap_settingOf?_drop hk]

/-- A later option of its class takes the effect of a value. -/
theorem getLast?_filterMap_drop (o : String) (before : List String)
    (h : after.filterMap (settingOf? k) ≠ []) :
    ((before ++ o :: after).filterMap (settingOf? k)).getLast? =
      ((before ++ after).filterMap (settingOf? k)).getLast? := by
  rw [List.append_cons, List.filterMap_append, List.getLast?_append_of_ne_nil _ h,
    List.filterMap_append, List.getLast?_append_of_ne_nil _ h]

theorem OptionStep.sameEffect (h : OptionStep os os') :
    SameEffect (os.filterMap setting?) (os'.filterMap setting?) := by
  -- An option that is left out matters to its own class alone.
  have hother : ∀ {before after : List String} {o : String} {k : OptionClass},
      optionClass o ≠ k →
        ofClass k ((before ++ o :: after).filterMap setting?) =
          ofClass k ((before ++ after).filterMap setting?) := by
    intro before after o k hk
    rw [ofClass_filterMap, ofClass_filterMap, filterMap_settingOf?_drop hk]
  cases h with
  | exchange before after h =>
      refine .of_eq fun k _ => ?_
      rw [ofClass_filterMap, ofClass_filterMap, filterMap_settingOf?_exchange k before after h]
  | dropIgnored before after h => exact .of_eq fun k hk => hother (h ▸ hk.symm)
  | @dropFlag before o o' after hflag ho' h =>
      refine ⟨fun k hk => ?_, hother ?_, fun k hk => congrArg _ (hother ?_)⟩
      · by_cases hclass : optionClass o = k
        · have hne : k ≠ .ignored := by rcases hk with rfl | rfl <;> decide
          have ho : o' ∈ before ++ o :: after :=
            List.mem_append.mpr ((List.mem_append.mp ho').imp_right (List.mem_cons_of_mem o))
          rw [ofClass_filterMap, ofClass_filterMap]
          exact iff_of_false (filterMap_settingOf?_ne_nil hne ho (h.trans hclass))
            (filterMap_settingOf?_ne_nil hne ho' (h.trans hclass))
        · rw [hother hclass]
      · rcases hflag with hflag | hflag <;> rw [hflag] <;> decide
      · rcases hflag with hflag | hflag <;> rcases hk with rfl | rfl <;> rw [hflag] <;> decide
  | @dropValue before o o' after hvalue ho' h =>
      refine ⟨fun k hk => ?_, hother ?_, fun k hk => ?_⟩
      · have hclass : optionClass o ≠ k := by
          rcases hvalue with hvalue | hvalue <;> rcases hk with rfl | rfl <;> rw [hvalue] <;> decide
        rw [hother hclass]
      · rcases hvalue with hvalue | hvalue <;> rw [hvalue] <;> decide
      · by_cases hclass : optionClass o = k
        · have hne : k ≠ .ignored := by rcases hk with rfl | rfl <;> decide
          rw [ofClass_filterMap, ofClass_filterMap]
          exact getLast?_filterMap_drop o before
            (filterMap_settingOf?_ne_nil hne ho' (h.trans hclass))
        · rw [hother hclass]

/-! ### Lines with options -/

/-- A line with its options. -/
def optionLine (before kind : String) (options : List String) : String :=
  before ++ " as " ++ kind ++ " with " ++ joinWith ", " options

/-- The text before the mark of the kind loses its dash and its blanks, whatever follows. -/
theorem exists_lineBody (before : String) : ∃ front, ∀ back : String,
    lineBody (before ++ " as" ++ back) =
      .ofList (front ++ 'a' :: 's' :: Chars.trimEnd back.toList) := by
  have htrim : ∀ back : String, trim (before ++ " as" ++ back) =
      .ofList (Chars.trimStart (before.toList ++ [' ']) ++ 'a' :: 's' ::
        Chars.trimEnd back.toList) := by
    intro back
    have hline : (before ++ " as" ++ back).toList =
        (before.toList ++ [' ']) ++ 'a' :: 's' :: back.toList := by simp
    rw [trim, Chars.trim, hline, Chars.trimStart_append_cons (by decide), List.append_cons,
      Chars.trimEnd_append_cons (by decide), ← List.append_cons]
  generalize Chars.trimStart (before.toList ++ [' ']) = front at htrim
  -- The dash is there or not, and what follows has no part in it.
  by_cases hdash : ∃ rest, front = '-' :: ' ' :: rest
  · obtain ⟨rest, rfl⟩ := hdash
    refine ⟨Chars.trimStart rest, fun back => ?_⟩
    have hstrip : stripStart? Line.attributeMark (trim (before ++ " as" ++ back)) =
        some (.ofList (rest ++ 'a' :: 's' :: Chars.trimEnd back.toList)) := by
      rw [stripStart?_eq_some_iff, htrim]
      apply String.toList_inj.mp
      simp [Line.attributeMark]
    rw [lineBody, hstrip, Option.getD_some, trimStart, String.toList_ofList,
      Chars.trimStart_append_cons (by decide)]
  · refine ⟨Chars.trimStart front, fun back => ?_⟩
    have hstrip : stripStart? Line.attributeMark (trim (before ++ " as" ++ back)) = none := by
      rw [htrim, stripStart?, String.toList_ofList, Option.map_eq_none_iff,
        Chars.stripStart?_eq_none_iff]
      rintro ⟨rest, hrest⟩
      apply hdash
      have hlist : ['-', ' '] ++ rest = front ++ 'a' :: 's' :: Chars.trimEnd back.toList := hrest
      cases front with
      | nil => cases hlist
      | cons c front =>
          cases front with
          | nil => cases hlist
          | cons c' more =>
              obtain ⟨rfl, rfl, _⟩ : '-' = c ∧ ' ' = c' ∧ _ := by simpa using hlist
              exact ⟨more, rfl⟩
    rw [lineBody, hstrip, Option.getD_none, htrim, trimStart, String.toList_ofList,
      Chars.trimStart_append_cons (by decide)]

variable {ident kind : String} {options : List String}

/-- What stands behind the mark of the options. -/
def optionText (options : List String) : List Char :=
  Chars.trimEnd (' ' :: (joinWith ", " options).toList)

theorem lineBody_optionLine {before : String}
    (hident : lineBody (before ++ " as") = ident ++ " as") (kind : String)
    (options : List String) :
    lineBody (optionLine before kind options) =
      .ofList (ident.toList ++ Line.asMark.toList ++
        (kind.toList ++ Line.withEnding.toList ++ optionText options)) := by
  obtain ⟨front, hfront⟩ := exists_lineBody before
  have hfirst : front = ident.toList ++ [' '] := by
    have hbare := hfront ""
    rw [String.append_empty, hident] at hbare
    have hlist : (ident.toList ++ [' ']) ++ ['a', 's'] = front ++ ['a', 's'] := by
      simpa [Chars.trimEnd] using congrArg String.toList hbare
    exact (List.append_cancel_right hlist).symm
  have hline : optionLine before kind options =
      before ++ " as" ++ (" " ++ kind ++ " with " ++ joinWith ", " options) := by
    apply String.toList_inj.mp
    simp [optionLine]
  have hend : Chars.trimEnd (" " ++ kind ++ " with " ++ joinWith ", " options).toList =
      ' ' :: kind.toList ++ Line.withEnding.toList ++ optionText options := by
    have hsplit : (" " ++ kind ++ " with " ++ joinWith ", " options).toList =
        (' ' :: kind.toList ++ " wit".toList) ++ 'h' :: (' ' :: (joinWith ", " options).toList) := by
      simp
    rw [hsplit, Chars.trimEnd_append_cons (by decide)]
    simp [Line.withEnding, optionText]
  rw [hline, hfront, hend, hfirst]
  simp [Line.asMark]

theorem optionText_cases (options : List String) :
    optionText options = [] ∨
      optionText options = ' ' :: Chars.trimEnd (joinWith ", " options).toList := by
  unfold optionText
  generalize (joinWith ", " options).toList = cs
  by_cases hblank : ∃ c ∈ cs, isBlank c = false
  · obtain ⟨c, hc, hnonblank⟩ := hblank
    obtain ⟨front, back, rfl⟩ := List.append_of_mem hc
    right
    rw [← List.cons_append, Chars.trimEnd_append_cons hnonblank, Chars.trimEnd_append_cons hnonblank]
    rfl
  · left
    refine List.rdropWhile_eq_nil_iff.mpr fun c hc => ?_
    rcases List.mem_cons.mp hc with rfl | hc
    · decide
    · by_contra hnonblank
      exact hblank ⟨c, hc, by simpa using hnonblank⟩

/-- Whether a text of a line can stand before options: it is not blank, and no mark of options
begins or ends in it. -/
structure Bare (cs : List Char) : Prop where
  nonblank : ∃ c ∈ cs, isBlank c = false
  free : ¬ Line.withMark.toList <:+: ' ' :: (Chars.trimStart cs ++ [' '])

/-- Options begin behind a text that has no mark of them. -/
theorem cutOptions_eq {cs : List Char} (hcs : Bare cs) (options : List String) :
    cutOptions (.ofList (cs ++ Line.withEnding.toList ++ optionText options)) =
      (.ofList (Chars.trimStart cs), .ofList (optionText options).tail) := by
  have htrim : trim (.ofList (cs ++ Line.withEnding.toList ++ optionText options)) =
      .ofList (Chars.trimStart cs ++ Line.withEnding.toList ++ optionText options) := by
    have hending : Line.withEnding.toList = " wit".toList ++ ['h'] := rfl
    have hagain : Chars.trimEnd (optionText options) = optionText options :=
      List.rdropWhile_idempotent _ _
    rw [trim, String.toList_ofList, Chars.trim, List.append_assoc,
      Chars.trimStart_append hcs.nonblank, hending, ← List.append_assoc, ← List.append_assoc,
      ← List.append_cons, Chars.trimEnd_append_cons (by decide), hagain]
  have hfree : ¬ Line.withMark.toList <:+:
      ' ' :: (Chars.trimStart cs ++ Line.withEnding.toList) := by
    intro hwithin
    have hmark : Line.withMark.toList = " with".toList ++ [' '] := rfl
    have hsplit : ' ' :: (Chars.trimStart cs ++ Line.withEnding.toList) =
        ' ' :: (Chars.trimStart cs ++ [' ']) ++ "with".toList := by
      simp [Line.withEnding]
    rw [hsplit, hmark] at hwithin
    exact hcs.free (hmark ▸ Chars.infix_of_infix_append (by decide) hwithin)
  have hwithin : ¬ Line.withMark.toList <:+: Chars.trimStart cs ++ Line.withEnding.toList :=
    fun h => hfree (List.infix_cons h)
  unfold cutOptions
  dsimp only
  rw [htrim]
  rcases optionText_cases options with hnone | hsome
  · have hcut : cut? Line.withMark (.ofList (Chars.trimStart cs ++ Line.withEnding.toList)) =
        none := by
      rwa [cut?_eq_none_iff (by decide), String.toList_ofList]
    have hstart : stripStart? Line.withOpening
        (.ofList (Chars.trimStart cs ++ Line.withEnding.toList)) = none := by
      rw [stripStart?, String.toList_ofList, Option.map_eq_none_iff, Chars.stripStart?_eq_none_iff]
      intro hprefix
      exact hfree ((List.prefix_cons_inj ' ').mpr hprefix).isInfix
    have hend : stripEnd? Line.withEnding
        (.ofList (Chars.trimStart cs ++ Line.withEnding.toList)) =
          some (.ofList (Chars.trimStart cs)) := by
      simp [stripEnd?, Chars.stripEnd?]
    rw [hnone, List.append_nil, hcut, hstart, hend]
    rfl
  · have hcut : cut? Line.withMark (.ofList (Chars.trimStart cs ++ Line.withEnding.toList ++
        optionText options)) =
          some (.ofList (Chars.trimStart cs), .ofList (optionText options).tail) := by
      have hmark : Line.withMark.toList.dropLast = Line.withEnding.toList := rfl
      have hsplit : Chars.trimStart cs ++ Line.withEnding.toList ++ optionText options =
          Chars.trimStart cs ++ Line.withMark.toList ++ (optionText options).tail := by
        rw [hsome, List.tail_cons]
        simp [Line.withEnding, Line.withMark]
      rw [cut?, String.toList_ofList, hsplit, Chars.cut?_append_mark (hmark ▸ hwithin)]
      rfl
    rw [hcut]

/-- A rest of another mark in front changes nothing. -/
theorem Bare.append {cs : List Char} (hcs : Bare cs) {front : List Char} (hfront : 'w' ∉ front) :
    Bare (front ++ cs) := by
  obtain ⟨c, hc, hnonblank⟩ := hcs.nonblank
  refine ⟨⟨c, List.mem_append_right front hc, hnonblank⟩, fun hwithin => hcs.free ?_⟩
  obtain ⟨blanks, hblanks, hsplit⟩ : ∃ blanks, (∀ b ∈ blanks, isBlank b) ∧
      cs = blanks ++ Chars.trimStart cs :=
    ⟨_, fun b hb => List.mem_takeWhile_imp hb, (List.takeWhile_append_dropWhile).symm⟩
  have hstart : Chars.trimStart (front ++ cs) =
      Chars.trimStart (front ++ blanks) ++ Chars.trimStart cs := by
    have hhead := List.head?_dropWhile_not isBlank cs
    generalize hbody : Chars.trimStart cs = body at hsplit
    rw [Chars.trimStart] at hbody
    rw [hbody] at hhead
    rw [hsplit, ← List.append_assoc]
    cases body with
    | nil => rw [List.append_nil, List.append_nil]
    | cons first rest => exact Chars.trimStart_append_cons hhead _ _
  have hclear : 'w' ∉ ' ' :: Chars.trimStart (front ++ blanks) := by
    intro hw
    rcases List.mem_cons.mp hw with hw | hw
    · exact absurd hw (by decide)
    · rcases List.mem_append.mp ((List.dropWhile_suffix isBlank).subset hw) with hw | hw
      · exact hfront hw
      · exact absurd (hblanks 'w' hw) (by decide)
  rw [hstart, List.append_assoc, ← List.cons_append] at hwithin
  exact Chars.infix_cons_of_infix_append hclear hwithin

theorem settings_optionText (hoptions : ∀ o ∈ options, ',' ∉ o.toList) :
    settings (.ofList (optionText options).tail) = options.filterMap setting? := by
  have hall : (splitOn ',' (.ofList (optionText options))).filterMap trimmed? =
      options.filterMap trimmed? := by
    have htext : optionText options = Chars.trimEnd (" " ++ joinWith ", " options).toList := by
      rw [toList_blank_append]
      rfl
    rw [htext, filterMap_splitOn_trimEnd, filterMap_splitOn_blank_append,
      filterMap_splitOn_joinWith_of_no_comma hoptions]
  have htail : (splitOn ',' (.ofList (optionText options).tail)).filterMap trimmed? =
      options.filterMap trimmed? := by
    rcases optionText_cases options with hnone | hsome
    · rw [hnone] at hall ⊢
      exact hall
    · rw [hsome] at hall ⊢
      have hblank : ∀ cs : List Char, String.ofList (' ' :: cs) = " " ++ .ofList cs := by
        intro cs
        apply String.toList_inj.mp
        rw [toList_blank_append, String.toList_ofList, String.toList_ofList]
      rw [hblank, filterMap_splitOn_blank_append] at hall
      exact hall
  rw [settings, htail, List.map_filterMap]
  rfl

/-- Behind the first mark of the kind a part of that mark may be left over. The options are
found all the same. -/
theorem exists_cut? {front : List Char} (hfree : ¬ Line.asMark.toList <:+: front)
    (hkind : Bare kind.toList) :
    ∃ head kindText : String, ∀ options, ∃ later,
      cut? Line.asMark (.ofList (front ++ Line.asMark.toList ++
          (kind.toList ++ Line.withEnding.toList ++ optionText options))) = some (head, later) ∧
        cutOptions later = (kindText, .ofList (optionText options).tail) := by
  obtain ⟨head, left, hleft, hcut⟩ := Chars.exists_cut?_append hfree (by decide)
  have hclear : 'w' ∉ left := fun hw => absurd (hleft.subset hw) (by decide)
  refine ⟨.ofList head, .ofList (Chars.trimStart (left ++ kind.toList)), fun options =>
    ⟨.ofList (left ++ kind.toList ++ Line.withEnding.toList ++ optionText options), ?_,
      cutOptions_eq (hkind.append hclear) options⟩⟩
  rw [cut?, String.toList_ofList, hcut, Option.map_some]
  simp only [List.append_assoc]

/-- What a line declares apart from its options does not depend on them. -/
theorem exists_declaration {before : String}
    (hident : lineBody (before ++ " as") = ident ++ " as")
    (hfree : ¬ Line.asMark.toList <:+: ident.toList) (hkind : Bare kind.toList) :
    ∃ decl : Declaration, ∀ options,
      Declaration.ofText (lineBody (optionLine before kind options)) =
        { decl with options := .ofList (optionText options).tail } := by
  simp only [lineBody_optionLine hident]
  generalize ident.toList = front at hfree
  by_cases hat : ∃ target, front = '@' :: target
  · obtain ⟨target, rfl⟩ := hat
    obtain ⟨head, kindText, hcut⟩ := exists_cut?
      (fun hwithin => hfree (List.infix_cons hwithin)) hkind
    refine ⟨⟨head, Kind.reference.keyword, "", some kindText⟩, fun options => ?_⟩
    obtain ⟨later, hlater, hoptions⟩ := hcut options
    have hstrip : stripStart? "@" (.ofList ('@' :: target ++ Line.asMark.toList ++
        (kind.toList ++ Line.withEnding.toList ++ optionText options))) =
          some (.ofList (target ++ Line.asMark.toList ++
            (kind.toList ++ Line.withEnding.toList ++ optionText options))) := by
      rw [stripStart?_eq_some_iff]
      apply String.toList_inj.mp
      simp
    simp only [Declaration.ofText, hstrip, hlater, hoptions]
  · obtain ⟨head, kindText, hcut⟩ := exists_cut? hfree hkind
    refine ⟨⟨head, kindText, "", none⟩, fun options => ?_⟩
    obtain ⟨later, hlater, hoptions⟩ := hcut options
    have hstrip : stripStart? "@" (.ofList (front ++ Line.asMark.toList ++
        (kind.toList ++ Line.withEnding.toList ++ optionText options))) = none := by
      rw [stripStart?, Option.map_eq_none_iff, Chars.stripStart?_eq_none_iff, String.toList_ofList,
        String.toList_ofList]
      rintro ⟨rest, hrest⟩
      cases front with
      | nil => cases hrest
      | cons c front =>
          obtain ⟨rfl, _⟩ := List.cons.inj hrest
          exact hat ⟨front, rfl⟩
    simp only [Declaration.ofText, hstrip, hlater, hoptions, Option.getD_some]

theorem ofDeclaration_congr (decl : Declaration) {o o' : String}
    (h : ∀ a, (settings o).foldl apply a = (settings o').foldl apply a) :
    ofDeclaration { decl with options := o } = ofDeclaration { decl with options := o' } := by
  unfold ofDeclaration
  dsimp only
  generalize identifier decl.ident (Kind.ofText (trim decl.kind)) = name
  generalize (decl.localName.map Name.normalize).filter (!·.isEmpty) = localName
  generalize Kind.ofText (trim decl.kind) = kind
  rw [h]

theorem OptionStep.subset (h : OptionStep os os') : os' ⊆ os := by
  cases h with
  | exchange before after h =>
      intro o ho
      simpa [or_left_comm] using ho
  | dropIgnored | dropFlag | dropValue =>
      intro o ho
      exact List.mem_append.mpr ((List.mem_append.mp ho).imp_right (List.mem_cons_of_mem _))

/-- Options of different classes may be exchanged, and ignored options, repeated flags and values
that are set again later may be left out: the line is read as before. The kind must not be blank
or hold the mark of the options, and something must stand before it. -/
theorem ofLine_optionLine_eq {before : String}
    (hident : lineBody (before ++ " as") = ident ++ " as")
    (hfree : ¬ Line.asMark.toList <:+: ident.toList) (hkind : Bare kind.toList)
    {options options' : List String} (hoptions : ∀ o ∈ options, ',' ∉ o.toList)
    (hsteps : Relation.ReflTransGen OptionStep options options') :
    ofLine (optionLine before kind options) = ofLine (optionLine before kind options') := by
  obtain ⟨decl, hdecl⟩ := exists_declaration hident hfree hkind
  induction hsteps with
  | refl => rfl
  | @tail middle last hsteps hstep ih =>
      have hmiddle : middle ⊆ options := by
        clear hstep ih
        induction hsteps with
        | refl => exact List.Subset.refl _
        | tail _ hstep ih => exact List.Subset.trans hstep.subset ih
      have hread : ∀ {os : List String}, os ⊆ options →
          settings (.ofList (optionText os).tail) = os.filterMap setting? := fun hos =>
        settings_optionText fun o ho => hoptions o (hos ho)
      rw [ih, ofLine, ofLine, hdecl, hdecl]
      apply ofDeclaration_congr
      rw [hread hmiddle, hread (List.Subset.trans hstep.subset hmiddle)]
      exact hstep.sameEffect.foldl_apply

/-- Of two ranges the later one is kept, whether a flag stands before it or behind it. -/
theorem ofLine_optionLine_eq_range :
    ofLine (optionLine "- x" "int" ["1..2", "p", "3..4"]) =
        ofLine (optionLine "- x" "int" ["3..4", "p"]) ∧
      ofLine (optionLine "- x" "int" ["3..4", "p"]) =
        .ok { kind := .int, primary := true, name := "x", min := some "3", max := some "4" } := by
  have hident : lineBody ("- x" ++ " as") = "x" ++ " as" := by decide +kernel
  have hkind : Bare "int".toList := ⟨⟨'i', by decide, by decide⟩, by decide⟩
  have hfirst : OptionStep ["1..2", "p", "3..4"] ["p", "3..4"] :=
    .dropValue [] ["p", "3..4"] (Or.inl (by decide +kernel))
      (List.mem_cons_of_mem "p" (List.mem_singleton_self "3..4")) (by decide +kernel)
  have hsecond : OptionStep ["p", "3..4"] ["3..4", "p"] := .exchange [] [] (by decide +kernel)
  have hsteps := (Relation.ReflTransGen.single hfirst).tail hsecond
  exact ⟨ofLine_optionLine_eq hident (by decide) hkind (by decide) hsteps, by decide +kernel⟩

/-- Where the kind ends with the word before the options, or is that word, or is blank, or where
nothing stands before it, the options do not begin where they seem to. -/
theorem ofLine_optionLine_ne :
    (OptionStep ["p", "r"] ["r", "p"] ∧ ¬ Line.withMark.toList <:+: "int with".toList ∧
        ofLine (optionLine "x" "int with" ["p", "r"]) ≠
          ofLine (optionLine "x" "int with" ["r", "p"]) ∧
        ofLine (optionLine "" "int" ["p", "r"]) ≠ ofLine (optionLine "" "int" ["r", "p"])) ∧
      (OptionStep ["q"] [] ∧ ¬ Line.withMark.toList <:+: "with".toList ∧
        ofLine (optionLine "x" "with" ["q"]) ≠ ofLine (optionLine "x" "with" [])) ∧
      OptionStep ["r", "q with q"] ["r"] ∧
        ofLine (optionLine "x" "" ["r", "q with q"]) ≠ ofLine (optionLine "x" "" ["r"]) := by
  have hexchange : OptionStep ["p", "r"] ["r", "p"] := .exchange [] [] (by decide +kernel)
  have hlast : OptionStep ["q"] [] := .dropIgnored [] [] (by decide +kernel)
  have hignored : OptionStep ["r", "q with q"] ["r"] := .dropIgnored ["r"] [] (by decide +kernel)
  have hlines : ofLine (optionLine "x" "int with" ["p", "r"]) ≠
        ofLine (optionLine "x" "int with" ["r", "p"]) ∧
      ofLine (optionLine "" "int" ["p", "r"]) ≠ ofLine (optionLine "" "int" ["r", "p"]) ∧
      ofLine (optionLine "x" "with" ["q"]) ≠ ofLine (optionLine "x" "with" []) ∧
      ofLine (optionLine "x" "" ["r", "q with q"]) ≠ ofLine (optionLine "x" "" ["r"]) := by
    decide +kernel
  exact ⟨⟨hexchange, by decide +kernel, hlines.1, hlines.2.1⟩,
    ⟨hlast, by decide +kernel, hlines.2.2.1⟩, hignored, hlines.2.2.2⟩

end Blueprint.Attribute
