import Blueprint.Attribute.Reader
import Blueprint.Proofs.Normalization
import Blueprint.Proofs.Values

/-! # Options of a line

What is written before and after a mark is found again when the line is read, as long as
the mark does not occur earlier: options after a head without blanks, the bounds of a
range, and the values of labels. Labels are brought into the form of names when they are
read, and different labels stay what they are exactly if they were names before.
-/

namespace Blueprint

namespace Text

/-! ### Words -/

/-- Characters of names, of names joined by a dot, and of handles. -/
def isWordChar (c : Char) : Bool :=
  Name.isNameChar c || c = '.' || c = '-'

theorem of_isWordChar {c : Char} (hc : isWordChar c) :
    isBlank c = false ∧ c ≠ ',' ∧ c ≠ '@' := by
  simp only [isWordChar, Bool.or_eq_true, decide_eq_true_eq] at hc
  rcases hc with (hname | rfl) | rfl
  · exact of_decide_eq_true (Name.of_isNameChar
      (p := fun c => decide (isBlank c = false ∧ c ≠ ',' ∧ c ≠ '@')) (by decide) hname)
  · decide
  · decide

/-- Whether a text is a single word of a line. -/
structure IsWord (s : String) : Prop where
  ne_empty : s ≠ ""
  chars : ∀ c ∈ s.toList, isWordChar c

variable {s : String}

theorem IsWord.no_blank (hs : IsWord s) : ∀ c ∈ s.toList, isBlank c = false :=
  fun c hc => (of_isWordChar (hs.chars c hc)).1

/-- A written-out text can be checked to be an item. -/
theorem isItem_of_all (h : !s.isEmpty && s.toList.all fun c => !isBlank c && c ≠ ',') :
    IsItem s := by
  simp only [Bool.and_eq_true, Bool.not_eq_true', List.all_eq_true, decide_eq_true_eq] at h
  exact isItem_of_no_blank (by simpa using h.1) h.2

theorem IsWord.isItem (hs : IsWord s) : IsItem s :=
  isItem_of_no_blank hs.ne_empty fun c hc =>
    ⟨hs.no_blank c hc, (of_isWordChar (hs.chars c hc)).2.1⟩

theorem IsWord.trim_eq (hs : IsWord s) : trim s = s :=
  hs.isItem.trim_eq

theorem isWord_of_isPlain (hs : Name.IsPlain s) (hne : s ≠ "") : IsWord s :=
  ⟨hne, fun c hc => by simp [isWordChar, hs c hc]⟩

theorem isWord_text {sort : NodeSort} (h : Handle sort) : IsWord h.text := by
  refine ⟨by simp [Handle.text], fun c hc => ?_⟩
  simp only [Handle.text, String.toList_append, List.mem_append] at hc
  rcases hc with (hc | hc) | hc
  · have htag : sort.tag.toList.all isWordChar := by cases sort <;> decide
    exact List.all_eq_true.mp htag c hc
  · obtain rfl : c = '-' := by simpa using hc
    decide
  · have hdigit := isDigit_of_mem_toString hc
    simp [isWordChar, Name.isNameChar, Char.isAlphanum, hdigit]

theorem not_mem_blank (hs : ∀ c ∈ s.toList, isBlank c = false) : ' ' ∉ s.toList :=
  fun hmem => absurd (hs _ hmem) (by decide)

/-- A mark that begins with a character which does not occur before it is found. -/
theorem cut?_of_not_mem (mark : String) {front : String} {c : Char} {rest : List Char}
    (hmark : mark.toList = c :: rest) (hc : c ∉ front.toList) (back : String) :
    cut? mark (front ++ mark ++ back) = some (front, back) := by
  have hhere : Chars.cut? (c :: rest) (c :: rest ++ back.toList) = some ([], back.toList) := by
    rw [List.cons_append, Chars.cut?, ← List.cons_append, Chars.stripStart?_append]
  rw [cut?, String.toList_append, String.toList_append, List.append_assoc, hmark,
    Chars.cut?_append_of_not_mem hc, hhere]
  simp

theorem trim_append_eq_self {front back : String} (hfront : trim front = front)
    (hne : front ≠ "") (hback : trim back = back) (hne' : back ≠ "") (mid : String) :
    trim (front ++ mid ++ back) = front ++ mid ++ back := by
  rw [trim_eq_self_iff, String.toList_append, String.toList_append]
  exact Chars.trim_append_eq_self (trim_eq_self_iff.mp hfront) (by simpa using hne)
    (trim_eq_self_iff.mp hback) (by simpa using hne') _

/-- An item with more items directly before and after it is one item. -/
theorem isItem_between {front mark back : String} (hfront : front ≠ "" → IsItem front)
    (hmark : IsItem mark) (hback : back ≠ "" → IsItem back) : IsItem (front ++ mark ++ back) := by
  have hends : ∀ {t : String}, (t ≠ "" → IsItem t) →
      Chars.trim t.toList = t.toList ∧ ',' ∉ t.toList := by
    intro t ht
    by_cases hempty : t = ""
    · subst hempty
      decide
    · exact ⟨trim_eq_self_iff.mp (ht hempty).trim_eq, (ht hempty).no_comma⟩
  obtain ⟨hfront, hfront'⟩ := hends hfront
  obtain ⟨hback, hback'⟩ := hends hback
  obtain ⟨hmark, hmark'⟩ := hends fun _ => hmark
  refine ⟨by simp [‹IsItem mark›.ne_empty], ?_, ?_⟩
  · rw [trim_eq_self_iff, String.toList_append, String.toList_append]
    rw [Chars.trim_eq_self_iff] at hfront hback hmark ⊢
    simp only [List.head?_append, List.getLast?_append, Option.mem_def,
      Option.or_eq_some_iff] at hfront hback hmark ⊢
    refine ⟨fun c hc => ?_, fun c hc => ?_⟩
    · rcases hc with (hc | ⟨_, hc⟩) | ⟨_, hc⟩
      · exact hfront.1 c hc
      · exact hmark.1 c hc
      · exact hback.1 c hc
    · rcases hc with hc | ⟨_, hc | ⟨_, hc⟩⟩
      · exact hback.2 c hc
      · exact hmark.2 c hc
      · exact hfront.2 c hc
  · simp [String.toList_append, hfront', hmark', hback']

theorem trimmed?_getD {o : Option String} (ho : ∀ s, o = some s → IsItem s) :
    trimmed? (o.getD "") = o := by
  cases o with
  | none => decide
  | some s => exact (ho s rfl).trimmed?_eq

end Text

open Text

/-! ### Keywords -/

theorem Kind.keyword_bare (kind : Kind) :
    kind.keyword ≠ "" ∧ ∀ c ∈ kind.keyword.toList, isBlank c = false := by
  have hbare : kind.keyword ≠ "" ∧ kind.keyword.toList.all fun c => !isBlank c := by
    cases kind <;> decide
  exact ⟨hbare.1, by simpa using hbare.2⟩

theorem Kind.trim_keyword (kind : Kind) : trim kind.keyword = kind.keyword :=
  trim_eq_self_iff.mpr (Chars.trim_of_no_blank kind.keyword_bare.2)

/-- A keyword names its kind, but for two: what is printed for an unknown kind names nothing,
and the keyword of a real number names a float. -/
theorem Kind.ofText_keyword {kind : Kind} (hunknown : kind ≠ .unknown) (hreal : kind ≠ .real) :
    Kind.ofText kind.keyword = kind := by
  cases kind with
  | unknown => exact absurd rfl hunknown
  | real => exact absurd rfl hreal
  | _ => decide

namespace Attribute

variable {a : Attribute}

/-! ### Options of a line -/

/-- A text with options after it. -/
def withOptions (head : String) (options : List String) : String :=
  if options.isEmpty then head else head ++ " with " ++ joinWith ", " options

theorem withOptions_append (front head : String) (options : List String) :
    withOptions (front ++ head) options = front ++ withOptions head options := by
  unfold withOptions
  split
  · rfl
  · simp only [String.append_assoc]

theorem trim_withOptions {head : String} {options : List String} (hhead : trim head = head)
    (hne : head ≠ "") (hoptions : ∀ t ∈ options, IsItem t) :
    trim (withOptions head options) = withOptions head options ∧ withOptions head options ≠ "" := by
  unfold withOptions
  split
  next => exact ⟨hhead, hne⟩
  next hsome =>
    obtain ⟨htrim, hjoined⟩ := trim_joinWith hoptions (by simpa using hsome)
    exact ⟨trim_append_eq_self hhead hne htrim hjoined _, by simp [hne]⟩

/-- The options of a line are found after a head without blanks. -/
theorem cutOptions_withOptions {head : String} {options : List String} (hne : head ≠ "")
    (hhead : ∀ c ∈ head.toList, isBlank c = false) (hoptions : ∀ t ∈ options, IsItem t) :
    cutOptions (withOptions head options) = (head, joinWith ", " options) := by
  have hblank := not_mem_blank hhead
  have htrim : trim head = head := trim_eq_self_iff.mpr (Chars.trim_of_no_blank hhead)
  unfold cutOptions
  dsimp only
  rw [(trim_withOptions htrim hne hoptions).1]
  by_cases hnone : options = []
  · subst hnone
    have hcut : cut? Line.withMark head = none := by
      rw [cut?_eq_none_iff (by decide)]
      exact fun hwithin => hblank (hwithin.subset (by decide))
    have hstart : stripStart? Line.withOpening head = none := by
      by_contra hsome
      obtain ⟨rest, hrest⟩ := Option.ne_none_iff_exists'.mp hsome
      rw [stripStart?_eq_some_iff.mp hrest, String.toList_append] at hblank
      exact hblank (List.mem_append_left _ (by decide))
    have hend : stripEnd? Line.withEnding head = none := by
      rw [stripEnd?, Option.map_eq_none_iff, Chars.stripEnd?, ite_eq_right_iff]
      intro hsuffix
      exact absurd ((List.isSuffixOf_iff_suffix.mp hsuffix).subset (by decide)) hblank
    rw [withOptions, List.isEmpty_nil, if_pos rfl, hcut, hstart, hend]
    rfl
  · have hcut : cut? Line.withMark (withOptions head options) =
        some (head, joinWith ", " options) := by
      rw [withOptions, if_neg (by simpa using hnone)]
      exact cut?_of_not_mem Line.withMark rfl hblank _
    rw [hcut]

theorem lineBody_append {body : String} (htrim : trim body = body) (hne : body ≠ "") :
    lineBody ("- " ++ body) = body := by
  have hline : trim ("- " ++ body) = "- " ++ body :=
    trim_append_eq_self (by decide : trim "-" = "-") (by decide) htrim hne " "
  have hstrip : stripStart? Line.attributeMark ("- " ++ body) = some body :=
    stripStart?_eq_some_iff.mpr rfl
  have hstart : Chars.trimStart body.toList = body.toList := by
    obtain ⟨c, rest, hcons⟩ := List.exists_cons_of_ne_nil (by simpa using hne : body.toList ≠ [])
    have hc := (Chars.trim_eq_self_iff.mp (trim_eq_self_iff.mp htrim)).1
    rw [hcons] at hc ⊢
    exact Chars.trimStart_cons (hc c rfl) rest
  unfold lineBody
  dsimp only
  rw [hline, hstrip, Option.getD_some, trimStart, hstart, String.ofList_toList]

/-! ### Settings -/

theorem mem_lower {s : String} {c : Char} (hc : c ∈ s.toList) (hsigma : c ≠ 'Σ')
    (hself : LetterCase.lowerChar c = [c]) : c ∈ (lower s).toList := by
  rw [lower, String.toList_ofList, LetterCase.lower]
  generalize [] = before
  generalize s.toList = cs at hc
  induction cs generalizing before with
  | nil => cases hc
  | cons d cs ih =>
      rw [LetterCase.lowerAfter, List.mem_append]
      rcases List.mem_cons.mp hc with rfl | hc
      · rw [if_neg hsigma, hself]
        exact Or.inl (List.mem_singleton_self c)
      · exact Or.inr (ih _ hc)

/-- An option with a mark in it is no flag, since the mark has no other letter case. -/
theorem ne_flags {s : String} {c : Char} (hc : c ∈ s.toList) (hmark : c = '.' ∨ c = ':') :
    ¬ (lower s = "p" ∨ lower s = "primary") ∧ ¬ (lower s = "r" ∨ lower s = "required") ∧
      ¬ (lower s = "u" ∨ lower s = "unique") := by
  have hmem : c ∈ (lower s).toList := by
    rcases hmark with rfl | rfl
    · exact mem_lower hc (by decide) (by decide)
    · exact mem_lower hc (by decide) (by decide)
  have hne : ∀ word : String, (∀ m ∈ word.toList, m ≠ '.' ∧ m ≠ ':') → lower s ≠ word := by
    rintro _ hword rfl
    obtain ⟨hdot, hcolon⟩ := hword c hmem
    exact hmark.elim hdot hcolon
  refine ⟨?_, ?_, ?_⟩
  · exact fun h => h.elim (hne _ (by simp)) (hne _ (by simp))
  · exact fun h => h.elim (hne _ (by simp)) (hne _ (by simp))
  · exact fun h => h.elim (hne _ (by simp)) (hne _ (by simp))

theorem ofText_of_cut? {s min max : String} (hcut : cut? Line.rangeMark s = some (min, max)) :
    Setting.ofText s = .range (trimmed? min) (trimmed? max) := by
  have hdot : '.' ∈ s.toList := by
    rw [eq_of_cut?_eq_some hcut]
    simp [String.toList_append, Line.rangeMark]
  obtain ⟨hprimary, hrequired, hunique⟩ := ne_flags hdot (Or.inl rfl)
  simp only [Setting.ofText, if_neg hprimary, if_neg hrequired, if_neg hunique, hcut]

theorem ofText_of_label {s word value : String} (hrange : cut? Line.rangeMark s = none)
    (hlabel : cut? Line.labelMark s = some (word, value)) :
    Setting.ofText s =
      if lower (trim word) = "u" ∨ lower (trim word) = "unique" then .label (Name.normalize value)
      else if lower (trim word) = "d" ∨ lower (trim word) = "default" then
        .defaultValue (trim value)
      else .ignored := by
  have hcolon : ':' ∈ s.toList := by
    rw [eq_of_cut?_eq_some hlabel]
    simp [String.toList_append, Line.labelMark]
  obtain ⟨hprimary, hrequired, hunique⟩ := ne_flags hcolon (Or.inr rfl)
  simp only [Setting.ofText, if_neg hprimary, if_neg hrequired, if_neg hunique, hrange, hlabel]

theorem ofText_of_no_label {s : String} (hrange : cut? Line.rangeMark s = none)
    (hlabel : cut? Line.labelMark s = none) :
    Setting.ofText s ∈ [.primary, .required, .unique, .ignored] := by
  simp only [Setting.ofText, hrange, hlabel]
  split
  · simp
  split
  · simp
  split <;> simp

/-- A labelled value is read as one, unless the mark of a range occurs in it. -/
theorem ofText_labelled {head value : String} (hhead : ':' ∉ head.toList)
    (hdots : '.' ∉ head.toList) (hvalue : ¬ Line.rangeMark.toList <:+: value.toList) :
    Setting.ofText (head ++ ":" ++ value) =
      if lower (trim head) = "u" ∨ lower (trim head) = "unique" then
        .label (Name.normalize value)
      else if lower (trim head) = "d" ∨ lower (trim head) = "default" then
        .defaultValue (trim value)
      else .ignored := by
  have hrange : cut? Line.rangeMark (head ++ ":" ++ value) = none := by
    rw [cut?_eq_none_iff (by decide), String.toList_append, String.toList_append,
      List.append_assoc, show ":".toList = [':'] from rfl, List.singleton_append,
      Chars.infix_append_cons_iff (by decide) (by decide), not_or]
    exact ⟨fun hwithin => hdots (hwithin.subset (by decide)), hvalue⟩
  exact ofText_of_label hrange (cut?_of_not_mem Line.labelMark rfl hhead value)

theorem ofText_unique {l : String} (hl : ¬ Line.rangeMark.toList <:+: l.toList) :
    Setting.ofText ("unique:" ++ l) = .label (Name.normalize l) := by
  have hread := ofText_labelled (by decide : ':' ∉ "unique".toList) (by decide) hl
  rwa [if_pos (Or.inr (by decide))] at hread

theorem ofText_default {value : String} (hvalue : ¬ Line.rangeMark.toList <:+: value.toList) :
    Setting.ofText ("default:" ++ value) = .defaultValue (trim value) := by
  have hread := ofText_labelled (by decide : ':' ∉ "default".toList) (by decide) hvalue
  have hother : ¬ (lower (trim "default") = "u" ∨ lower (trim "default") = "unique") := by
    decide
  rwa [if_neg hother, if_pos (Or.inr (by decide))] at hread

/-- A lower bound without the mark that does not end with a dot is found before the mark. -/
theorem cut?_range {min : String} (hmin : ¬ Line.rangeMark.toList <:+: min.toList ++ ['.'])
    (max : String) : cut? Line.rangeMark (min ++ ".." ++ max) = some (min, max) :=
  @cut?_append_mark Line.rangeMark min hmin max

/-- Whether a lower bound runs into the mark after it. -/
theorem dots_concat_iff {cs : List Char} :
    Line.rangeMark.toList <:+: cs ++ ['.'] ↔
      Line.rangeMark.toList <:+: cs ∨ cs.getLast? = some '.' := by
  have hmark : Line.rangeMark.toList = ['.'] ++ ['.'] := rfl
  rw [List.infix_concat_iff, or_comm]
  refine or_congr_right ⟨?_, ?_⟩
  · rintro ⟨front, hfront⟩
    rw [hmark, ← List.append_assoc] at hfront
    rw [← List.append_cancel_right hfront]
    exact List.getLast?_concat
  · intro hlast
    obtain ⟨front, rfl⟩ := List.getLast?_eq_some_iff.mp hlast
    exact ⟨front, by rw [hmark, List.append_assoc]⟩

/-! ### Uniqueness labels -/

/-- The labels with one more, unless it is empty or already there. -/
def addLabel (labels : List String) (label : String) : List String :=
  if label.isEmpty || labels.contains label then labels else labels ++ [label]

theorem addUnique_eq (a : Attribute) (label : String) :
    a.addUnique label = { a with unique := addLabel a.unique label } := by
  unfold addUnique addLabel
  split <;> rfl

theorem foldl_addUnique (a : Attribute) (labels : List String) :
    labels.foldl addUnique a = { a with unique := labels.foldl addLabel a.unique } := by
  induction labels generalizing a with
  | nil => rfl
  | cons label labels ih =>
      rw [List.foldl_cons, ih, addUnique_eq, List.foldl_cons]

theorem exists_foldl_addLabel (labels known : List String) :
    ∃ added, added.Sublist labels ∧ labels.foldl addLabel known = known ++ added := by
  induction labels generalizing known with
  | nil => exact ⟨[], List.Sublist.refl _, (List.append_nil known).symm⟩
  | cons label labels ih =>
      obtain ⟨added, hadded, hfold⟩ := ih (addLabel known label)
      rw [List.foldl_cons, hfold, addLabel]
      split
      · exact ⟨added, hadded.cons label, rfl⟩
      · exact ⟨label :: added, hadded.cons_cons label, by simp⟩

theorem foldl_addLabel_of_nodup {labels known : List String} (hnodup : (known ++ labels).Nodup)
    (hne : ∀ l ∈ labels, l ≠ "") : labels.foldl addLabel known = known ++ labels := by
  induction labels generalizing known with
  | nil => exact (List.append_nil known).symm
  | cons label labels ih =>
      obtain ⟨hlabel, hne⟩ := List.forall_mem_cons.mp hne
      have hnew : label ∉ known := fun hmem =>
        (List.nodup_append.mp hnodup).2.2 label hmem label List.mem_cons_self rfl
      have hadd : addLabel known label = known ++ [label] := if_neg (by simp [hlabel, hnew])
      rw [List.foldl_cons, hadd, ih (by simpa using hnodup) hne]
      simp

/-- Different labels are taken as they stand exactly if they are names already. -/
theorem foldl_addLabel_normalize_iff {labels : List String} (hnodup : labels.Nodup)
    (hne : ∀ l ∈ labels, l ≠ "") :
    (labels.map Name.normalize).foldl addLabel [] = labels ↔
      ∀ l ∈ labels, Name.normalize l = l := by
  constructor
  · intro h
    obtain ⟨added, hadded, hfold⟩ := exists_foldl_addLabel (labels.map Name.normalize) []
    obtain rfl : added = labels := hfold.symm.trans h
    -- Nothing was left out, since there are as many labels as before.
    have hall := hadded.eq_of_length (by simp)
    exact List.map_inj_left.mp (hall.symm.trans (List.map_id' added).symm)
  · intro h
    rw [(List.map_congr_left h).trans (List.map_id' labels)]
    exact foldl_addLabel_of_nodup hnodup hne

end Attribute

end Blueprint
