import Blueprint.Proofs.Reprinting

/-! # Identifiers of lines

A small letter survives normalization wherever it stands, so a text that holds one has a
name. Names that are given to nodes begin with one, and so do the identifiers of attributes,
but for references to an entity of a schema without a name. The line of an attribute with
such an identifier therefore declares an identifier when it is read, whatever its options
hold: they may change which one, but never take the first character away.
-/

namespace Blueprint

namespace Text

variable {c : Char} {cs : List Char}

/-! ### Small letters in words -/

theorem Cluster.append_flatten_splitAfter (state : State) (cs : List Char) :
    (splitAfter state cs).1 ++ (splitAfter state cs).2.flatten = cs := by
  induction cs generalizing state with
  | nil => rfl
  | cons c cs ih =>
      have hrest := ih (state.next c)
      unfold splitAfter
      dsimp only
      split
      · rw [List.cons_append, hrest]
      · rw [List.nil_append, List.flatten_cons, List.cons_append, hrest]

/-- The clusters of a text make it up. -/
theorem Cluster.flatten_split (cs : List Char) : (split cs).flatten = cs := by
  cases cs with
  | nil => rfl
  | cons c cs =>
      unfold split
      rw [List.flatten_cons, List.cons_append, append_flatten_splitAfter]

theorem isSmallChar_of_isLower (hc : c.isLower) : Name.isSmallChar c := by
  have hformed : Name.IsFormed [c] :=
    { small := by simp [hc]
      head := ⟨c, rfl, hc⟩
      last := by
        intro hlast
        obtain rfl : c = '_' := by simpa using hlast
        cases hc
      single := List.isChain_singleton c }
  exact hformed.isSmallChar c List.mem_cons_self

theorem LetterCase.mem_lower_of_isLower (hmem : c ∈ cs) (hc : c.isLower) : c ∈ lower cs := by
  unfold lower
  generalize [] = before
  induction cs generalizing before with
  | nil => cases hmem
  | cons first cs ih =>
      rw [lowerAfter, List.mem_append]
      rcases List.mem_cons.mp hmem with rfl | hmem
      · left
        obtain ⟨hsigma, hself⟩ := lowerChar_of_small (isSmallChar_of_isLower hc)
        rw [if_neg hsigma, hself]
        exact List.mem_cons_self
      · exact Or.inr (ih hmem _)

theorem Chars.mem_snake_of_isLower (hmem : c ∈ cs) (hc : c.isLower) : c ∈ snake cs := by
  -- The letter stands in a cluster, which separates no words, hence in a word.
  have hflatten : c ∈ (words cs).flatten := by
    rw [words, if_neg (by simpa using List.ne_nil_of_mem hmem), Cluster.flatten_words]
    rw [← Cluster.flatten_split cs, List.mem_flatten] at hmem
    obtain ⟨cluster, hcluster, hmem⟩ := hmem
    refine List.mem_flatten.mpr ⟨cluster, List.mem_filter.mpr ⟨hcluster, ?_⟩, hmem⟩
    rw [Bool.not_eq_true', Bool.eq_false_iff]
    intro hseparator
    simp only [Cluster.isSeparator, Bool.or_eq_true, decide_eq_true_eq] at hseparator
    rcases hseparator with (rfl | rfl) | rfl <;> obtain rfl := List.mem_singleton.mp hmem <;>
      cases hc
  obtain ⟨word, hword, hmem⟩ := List.mem_flatten.mp hflatten
  have hlower : c ∈ ((words cs).map LetterCase.lower).flatten :=
    List.mem_flatten.mpr ⟨_, List.mem_map_of_mem hword, LetterCase.mem_lower_of_isLower hmem hc⟩
  have hne : c ≠ '_' := by
    rintro rfl
    cases hc
  have hfilter : c ∈ (snake cs).filter (· ≠ '_') := by
    rw [snake, filter_intercalate rfl]
    exact List.mem_filter.mpr ⟨hlower, decide_eq_true hne⟩
  exact (List.mem_filter.mp hfilter).1

theorem head?_append {front : String} (hhead : c ∈ front.toList.head?) (back : String) :
    c ∈ (front ++ back).toList.head? := by
  rw [String.toList_append, List.head?_append, Option.mem_def.mp hhead]
  rfl

end Text

namespace Name

theorem clean_ne_nil {c : Char} {cs : List Char} (hmem : c ∈ cs) (hc : c.isLower) :
    clean cs ≠ [] := by
  have hsmall := Text.isSmallChar_of_isLower hc
  obtain ⟨hname, -⟩ := Bool.and_eq_true_iff.mp hsmall
  have hlead : cannotLead c = false := by
    have hcases := of_isNameChar (p := fun c => !c.isLower || !cannotLead c) (by decide) hname
    rw [hc] at hcases
    simpa using hcases
  have hdrop : (cs.filter isNameChar).dropWhile cannotLead ≠ [] := by
    intro hnil
    have hall := List.dropWhile_eq_nil_iff.mp hnil c (List.mem_filter.mpr ⟨hmem, hname⟩)
    rw [hlead] at hall
    cases hall
  -- What remains begins with a character that is no underscore.
  obtain ⟨first, rest, hcons⟩ := List.exists_cons_of_ne_nil hdrop
  have hfirst : cannotLead first = false := by
    have hnot := List.head?_dropWhile_not cannotLead (cs.filter isNameChar)
    rwa [hcons] at hnot
  have hkept : first ∈ squeeze ((cs.filter isNameChar).dropWhile cannotLead) := by
    have hhead := head?_squeeze ((cs.filter isNameChar).dropWhile cannotLead)
    rw [hcons] at hhead ⊢
    exact List.mem_of_head? hhead
  intro hnil
  have hunder := List.rdropWhile_eq_nil_iff.mp hnil first hkept
  rw [of_decide_eq_true hunder] at hfirst
  cases hfirst

/-- A text with a small letter has a name. -/
theorem normalize_ne_empty {s : String} {c : Char} (hmem : c ∈ s.toList) (hc : c.isLower) :
    normalize s ≠ "" := by
  have hclean := clean_ne_nil (Text.LetterCase.mem_lower_of_isLower
    (Text.Chars.mem_snake_of_isLower hmem hc) hc) hc
  intro hempty
  have hnil := congrArg String.toList hempty
  rw [normalize, String.toList_ofList] at hnil
  exact hclean hnil

/-- Whether a text begins with a small letter. -/
def IsLed (s : String) : Prop :=
  ∃ c ∈ s.toList.head?, c.isLower

theorem IsLed.append {s : String} (hs : IsLed s) (t : String) : IsLed (s ++ t) := by
  obtain ⟨c, hhead, hc⟩ := hs
  exact ⟨c, Text.head?_append hhead t, hc⟩

theorem IsLed.ne_empty {s : String} (hs : IsLed s) : s ≠ "" := by
  rintro rfl
  obtain ⟨c, hhead, _⟩ := hs
  cases hhead

theorem IsLed.normalize_ne_empty {s : String} (hs : IsLed s) : normalize s ≠ "" := by
  obtain ⟨c, hhead, hc⟩ := hs
  exact Name.normalize_ne_empty (List.mem_of_head? hhead) hc

theorem isLed_fallback (n : Nat) : IsLed (fallback n) :=
  IsLed.append ⟨'u', rfl, rfl⟩ _

theorem isLed_normalize {s : String} (hs : normalize s ≠ "") : IsLed (normalize s) := by
  rcases normalize_isFormed s with hempty | hformed
  · exact absurd hempty hs
  · exact hformed.head

theorem isLed_text (id : EntityId) : IsLed id.text :=
  (IsLed.append ⟨'e', rfl, rfl⟩ _).append _

theorem isLed_ofText (s : String) (n : Nat) : IsLed (ofText s n) := by
  unfold ofText
  dsimp only
  split
  next => exact isLed_fallback n
  next hne => exact isLed_normalize (by simpa using hne)

end Name

namespace Text

variable {front back : String} {c d : Char}

theorem Chars.mem_trimEnd {cs : List Char} (hmem : d ∈ cs) (hd : isBlank d = false) :
    d ∈ trimEnd cs := by
  have hsplit : d ∈ cs.reverse.takeWhile isBlank ++ cs.reverse.dropWhile isBlank := by
    rw [List.takeWhile_append_dropWhile]
    exact List.mem_reverse.mpr hmem
  rcases List.mem_append.mp hsplit with hblanks | hrest
  · rw [List.mem_takeWhile_imp hblanks] at hd
    cases hd
  · exact List.mem_reverse.mpr hrest

/-- Trimming takes nothing away before a character that is no blank. -/
theorem exists_trim_append (hhead : c ∈ front.toList.head?) (hc : isBlank c = false)
    (hmem : d ∈ back.toList) (hd : isBlank d = false) :
    ∃ rest, trim (front ++ back) = front ++ rest ∧ d ∈ rest.toList := by
  obtain ⟨cs, hfront⟩ := List.head?_eq_some_iff.mp hhead
  refine ⟨.ofList (Chars.trimEnd back.toList), ?_, ?_⟩
  · apply String.toList_inj.mp
    rw [trim, String.toList_ofList, String.toList_append, String.toList_append,
      String.toList_ofList, Chars.trim, hfront, List.cons_append, Chars.trimStart_cons hc,
      ← List.cons_append, Chars.trimEnd_append_of_mem hmem hd]
  · rw [String.toList_ofList]
    exact Chars.mem_trimEnd hmem hd

theorem head?_trim (hhead : c ∈ front.toList.head?) (hc : isBlank c = false) :
    c ∈ (trim front).toList.head? := by
  obtain ⟨cs, hfront⟩ := List.head?_eq_some_iff.mp hhead
  obtain ⟨rest, hrest⟩ := List.rdropWhile_prefix isBlank (c :: cs)
  have htrim : (trim front).toList = Chars.trimEnd (c :: cs) := by
    rw [trim, String.toList_ofList, Chars.trim, hfront, Chars.trimStart_cons hc]
  have hne : Chars.trimEnd (c :: cs) ≠ [] :=
    List.ne_nil_of_mem (Chars.mem_trimEnd List.mem_cons_self hc)
  rw [htrim, Option.mem_def, ← List.head?_append_of_ne_nil _ hne]
  exact congrArg List.head? hrest

/-- What stands before a mark begins as the text does, unless the mark does too. -/
theorem head?_of_cut? {mark s before after : String} (hcut : cut? mark s = some (before, after))
    (hhead : c ∈ s.toList.head?) (hmark : c ∉ mark.toList.head?) (hne : mark ≠ "") :
    c ∈ before.toList.head? := by
  rw [eq_of_cut?_eq_some hcut, String.toList_append, String.toList_append, List.append_assoc]
    at hhead
  cases hbefore : before.toList with
  | cons first cs =>
      rw [hbefore] at hhead
      exact hhead
  | nil =>
      rw [hbefore, List.nil_append, List.head?_append_of_ne_nil _ (by simpa using hne)] at hhead
      exact absurd hhead hmark

end Text

namespace Attribute

open Text

variable {a : Attribute} {c : Char}

/-! ### Identifiers -/

/-- The identifier that an attribute line declares; it is empty if there is none. -/
def declaredName (line : String) : String :=
  let decl := Declaration.ofText (lineBody line)
  identifier decl.ident (Kind.ofText (trim decl.kind))

/-- What the identifier of an attribute is like: a word that begins with a small letter or, if
it refers to an entity of a schema without a name, with a dot. The local name, if there is
one, is a word too. -/
structure Identified (a : Attribute) : Prop where
  word : IsWord a.name
  head : ∃ c ∈ a.name.toList.head?, c.isLower ∨ a.isReference ∧ c = '.'
  localName : ∀ s, a.localName = some s → IsWord s

theorem identified_of_isLed (hword : IsWord a.name) (hled : Name.IsLed a.name)
    (hlocal : ∀ s, a.localName = some s → IsWord s) : a.Identified := by
  obtain ⟨c, hhead, hc⟩ := hled
  exact ⟨hword, ⟨c, hhead, Or.inl hc⟩, hlocal⟩

/-- A text that begins as an identifier does has one. -/
theorem identifier_ne_empty {ident : String} {kind : Kind} (hhead : c ∈ ident.toList.head?)
    (hc : c.isLower ∨ kind = .reference ∧ c = '.') : identifier ident kind ≠ "" := by
  have hblank : isBlank c = false := by
    rcases hc with hlower | ⟨_, rfl⟩
    · exact isBlank_eq_false (Bool.and_eq_true_iff.mp (isSmallChar_of_isLower hlower)).1
    · decide
  have htrim := head?_trim hhead hblank
  have hled : ∀ {s : String}, c ∈ s.toList.head? → c.isLower → Name.normalize s ≠ "" :=
    fun hs hlower => Name.normalize_ne_empty (List.mem_of_head? hs) hlower
  unfold identifier
  dsimp only
  cases hcut : cut? "." (trim ident) with
  | some parts =>
      dsimp only
      split
      next =>
        split
        next handle _ => exact (isWord_text handle).ne_empty
        next => simp
      next hkind =>
        have hlower := hc.resolve_right fun hdot => hkind hdot.1
        refine hled (head?_of_cut? hcut htrim ?_ (by decide)) hlower
        intro hdot
        obtain rfl : '.' = c := Option.some.inj hdot
        cases hlower
  | none =>
      have hlower : c.isLower := by
        refine hc.resolve_right fun hdot => cut?_dot_eq_none.mp hcut ?_
        exact hdot.2 ▸ List.mem_of_head? htrim
      dsimp only
      split
      next =>
        split
        next handle _ => exact (isWord_text handle).ne_empty
        next => exact hled htrim hlower
      next => exact hled htrim hlower

theorem exists_head?_identifier {ident : String} {kind : Kind} (hne : identifier ident kind ≠ "") :
    ∃ c ∈ (identifier ident kind).toList.head?, c.isLower ∨ kind = .reference ∧ c = '.' := by
  have hled : ∀ {s : String}, Name.IsLed s → ∃ c ∈ s.toList.head?,
      c.isLower ∨ kind = .reference ∧ c = '.' := by
    rintro s ⟨c, hhead, hc⟩
    exact ⟨c, hhead, Or.inl hc⟩
  by_cases hkind : kind = .reference
  · subst hkind
    rcases identifier_reference_cases ident with ⟨handle, _, htext⟩ | ⟨head, tail, htext⟩ |
      ⟨_, htext⟩
    · rw [htext]
      exact hled (Name.isLed_text handle)
    · rw [htext, String.append_assoc]
      by_cases hempty : Name.normalize head = ""
      · rw [hempty]
        exact ⟨'.', by simp, Or.inr ⟨rfl, rfl⟩⟩
      · exact hled ((Name.isLed_normalize hempty).append _)
    · rw [htext] at hne ⊢
      exact hled (Name.isLed_normalize hne)
  · obtain ⟨s, htext⟩ := identifier_cases ident hkind
    rw [htext] at hne ⊢
    exact hled (Name.isLed_normalize hne)

/-- An attribute has the identifier that its line declares. Without one nothing else is read,
and with one the attribute is identified. -/
theorem ofLine_name {line : String} (h : ofLine line = .ok a) :
    a.name = declaredName line ∧ (∀ s, a.localName = some s → IsWord s) ∧
      (a.name = "" → a.isReference = false) ∧ (a.name ≠ "" → a.Identified) := by
  unfold ofLine at h
  unfold declaredName
  generalize Declaration.ofText (lineBody line) = decl at h ⊢
  unfold ofDeclaration at h
  dsimp only at h ⊢
  have hchars := isWordChar_identifier decl.ident (Kind.ofText (trim decl.kind))
  have hhead := @exists_head?_identifier decl.ident (Kind.ofText (trim decl.kind))
  have hblank := @kind_of_empty (trim decl.kind)
  have hlocal := fun s => @isWord_of_filter decl.localName s
  -- What the texts spell does not matter from here on.
  generalize identifier decl.ident (Kind.ofText (trim decl.kind)) = name at h hchars hhead ⊢
  generalize (decl.localName.map Name.normalize).filter (!·.isEmpty) = localName at h hlocal
  generalize Kind.ofText (trim decl.kind) = kind at h hhead hblank
  have hidentified : ∀ b : Attribute, b.name = name → b.localName = localName → name ≠ "" →
      (kind = .reference → b.isReference) → b.Identified := by
    rintro b rfl rfl hne hkind
    obtain ⟨c, hmem, hc⟩ := hhead hne
    exact ⟨⟨hne, hchars⟩, ⟨c, hmem, hc.imp_right fun hdot => ⟨hkind hdot.1, hdot.2⟩⟩, hlocal⟩
  split at h
  next hempty =>
    cases h
    have hempty : name = "" := by simpa using hempty
    exact ⟨rfl, hlocal, fun _ => rfl, fun hne => absurd hempty hne⟩
  next hne =>
    have hne : name ≠ "" := by simpa using hne
    split at h
    next hword =>
      cases h
      refine ⟨rfl, hlocal, fun _ => rfl, fun _ => hidentified _ rfl rfl hne fun hkind => ?_⟩
      rw [hblank hword] at hkind
      cases hkind
    next =>
      split at h
      next hunknown =>
        cases h
        refine ⟨rfl, hlocal, fun _ => rfl, fun _ => hidentified _ rfl rfl hne fun hkind => ?_⟩
        rw [hunknown] at hkind
        cases hkind
      next =>
        obtain ⟨hkind₁, hname₁, _⟩ := settle_frame h
        obtain ⟨hkind₂, hname₂, hlocal₂⟩ := @foldl_fresh_frame kind name localName
          (settings decl.options)
        have hname := hname₁.trans hname₂
        have hlocalName := (settle_localName h).trans hlocal₂
        refine ⟨hname, hlocalName ▸ hlocal, fun hempty => absurd (hname ▸ hempty) hne,
          fun _ => hidentified a hname hlocalName hne fun hkind => ?_⟩
        rw [isReference, hkind₁, hkind₂, hkind, decide_eq_true_eq]

/-! ### Printed lines -/

theorem exists_lineBody_append {front back : String} {d : Char}
    (hhead : c ∈ front.toList.head?) (hc : isBlank c = false) (hmem : d ∈ back.toList)
    (hd : isBlank d = false) :
    ∃ rest, lineBody ("- " ++ (front ++ back)) = front ++ rest ∧ d ∈ rest.toList := by
  have hmark : '-' ∈ "- ".toList.head? := rfl
  obtain ⟨rest, htrim, hrest⟩ := exists_trim_append (head?_append hmark front) (by decide) hmem hd
  refine ⟨rest, ?_, hrest⟩
  have hstrip : stripStart? Line.attributeMark ("- " ++ (front ++ rest)) = some (front ++ rest) :=
    stripStart?_eq_some_iff.mpr rfl
  obtain ⟨cs, hfront⟩ := List.head?_eq_some_iff.mp hhead
  unfold lineBody
  dsimp only
  rw [← String.append_assoc, htrim, String.append_assoc, hstrip, Option.getD_some]
  apply String.toList_inj.mp
  rw [trimStart, String.toList_ofList, String.toList_append, hfront, List.cons_append,
    Chars.trimStart_cons hc]

theorem exists_mem_of_no_blank {s : String} (hne : s ≠ "")
    (hs : ∀ d ∈ s.toList, isBlank d = false) : ∃ d ∈ s.toList, isBlank d = false := by
  obtain ⟨d, cs, hcons⟩ := List.exists_cons_of_ne_nil (by simpa using hne : s.toList ≠ [])
  have hmem : d ∈ s.toList := by simp [hcons]
  exact ⟨d, hmem, hs d hmem⟩

theorem mem_withOptions {head : String} {d : Char} (hd : d ∈ head.toList)
    (options : List String) : d ∈ (withOptions head options).toList := by
  unfold withOptions
  split
  · exact hd
  · simp [hd]

theorem exists_mem_of_mem_optionTexts {t : String} (ht : t ∈ a.optionTexts) :
    ∃ d ∈ t.toList, isBlank d = false := by
  simp only [optionTexts, List.mem_append] at ht
  rcases ht with (((hprimary | hrequired) | hrange) | hunique) | hdefault
  · rcases mem_flagTexts (List.mem_append_left _ hprimary) with rfl | rfl
    · exact ⟨'p', by decide, by decide⟩
    · exact ⟨'r', by decide, by decide⟩
  · rcases mem_flagTexts (List.mem_append_right _ hrequired) with rfl | rfl
    · exact ⟨'p', by decide, by decide⟩
    · exact ⟨'r', by decide, by decide⟩
  · rw [mem_rangeOption hrange]
    exact ⟨'.', by simp [rangeText], by decide⟩
  · obtain ⟨label, _, rfl⟩ := List.mem_map.mp hunique
    exact ⟨'u', by simp, by decide⟩
  · obtain ⟨value, _, rfl⟩ := List.mem_map.mp hdefault
    exact ⟨'d', by simp, by decide⟩

theorem exists_mem_joinWith_optionTexts (hne : a.optionTexts ≠ []) :
    ∃ d ∈ (joinWith ", " a.optionTexts).toList, isBlank d = false := by
  obtain ⟨t, options, hcons⟩ := List.exists_cons_of_ne_nil hne
  have ht : t ∈ a.optionTexts := hcons ▸ List.mem_cons_self
  obtain ⟨d, hmem, hd⟩ := exists_mem_of_mem_optionTexts ht
  refine ⟨d, ?_, hd⟩
  rw [hcons]
  cases options with
  | nil => simpa [joinWith] using hmem
  | cons next options =>
      rw [joinWith_cons_cons, String.toList_append, String.toList_append]
      simp [hmem]

/-- What is read as the target of a reference begins as its name does, even if a part of the
options is taken for a local name. -/
theorem head?_ident_options {name rest : String} {d : Char} (hname : IsWord name)
    (hhead : c ∈ name.toList.head?) (hmem : d ∈ rest.toList) (hd : isBlank d = false) :
    c ∈ (Declaration.ofText ("@" ++ (name ++ " with " ++ rest))).ident.toList.head? := by
  have hc := hname.no_blank c (List.mem_of_head? hhead)
  have hstart := head?_append hhead " with "
  cases hcut : cut? Line.asMark (name ++ " with " ++ rest) with
  | some parts =>
      rw [ofText_at_of_cut? hcut]
      refine head?_of_cut? hcut (head?_append hstart rest) ?_ (by decide)
      intro hblank
      obtain rfl : ' ' = c := Option.some.inj hblank
      exact absurd hc (by decide)
  | none =>
      rw [ofText_at_of_uncut hcut]
      obtain ⟨rest', htrim, _⟩ := exists_trim_append hstart hc hmem hd
      have hwith : cut? Line.withMark (name ++ " with " ++ rest') = some (name, rest') :=
        cut?_of_not_mem Line.withMark rfl (not_mem_blank hname.no_blank) rest'
      have hoptions : cutOptions (name ++ " with " ++ rest) = (name, rest') := by
        unfold cutOptions
        dsimp only
        rw [htrim, hwith]
      rw [hoptions]
      exact hhead

theorem line_of_isReference (href : a.isReference) :
    a.line = "- " ++ ("@" ++ withOptions (a.name ++ (a.localName.map (" as " ++ ·)).getD "")
      a.optionTexts) := by
  have hline : a.line = withOptions a.headText a.optionTexts := rfl
  have hmarks : "- @" = "- " ++ "@" := by decide
  rw [hline, headText, if_pos href, String.append_assoc, withOptions_append, hmarks,
    String.append_assoc]

theorem kind_ofText_at (rest : String) :
    (Declaration.ofText ("@" ++ rest)).kind = Kind.reference.keyword := by
  cases hcut : cut? Line.asMark rest with
  | some parts => rw [ofText_at_of_cut? hcut]
  | none => rw [ofText_at_of_uncut hcut]

/-- The line of a reference is read as one, and its target begins as its name does. -/
theorem Identified.exists_lineBody_of_isReference (ha : a.Identified) (href : a.isReference)
    (hhead : c ∈ a.name.toList.head?) :
    ∃ rest, lineBody a.line = "@" ++ rest ∧
      c ∈ (Declaration.ofText ("@" ++ rest)).ident.toList.head? := by
  have hat : '@' ∈ "@".toList.head? := rfl
  have hblank := not_mem_blank ha.word.no_blank
  rw [line_of_isReference href]
  cases hlocal : a.localName with
  | some s =>
      have hs := ha.localName s hlocal
      obtain ⟨d, hmem, hd⟩ := exists_mem_of_no_blank hs.ne_empty hs.no_blank
      have htext : "@" ++ withOptions (a.name ++ (" as " ++ s)) a.optionTexts =
          "@" ++ (a.name ++ " as ") ++ withOptions s a.optionTexts := by
        simp only [withOptions_append, String.append_assoc]
      obtain ⟨rest, hbody, _⟩ := exists_lineBody_append (head?_append hat (a.name ++ " as "))
        (by decide) (mem_withOptions hmem a.optionTexts) hd
      have hcut : cut? Line.asMark (a.name ++ " as " ++ rest) = some (a.name, rest) :=
        cut?_of_not_mem Line.asMark rfl hblank rest
      refine ⟨a.name ++ " as " ++ rest, ?_, ?_⟩
      · rw [Option.map_some, Option.getD_some, htext, hbody, String.append_assoc]
      · rw [ofText_at_of_cut? hcut]
        exact hhead
  | none =>
      rw [Option.map_none, Option.getD_none, String.append_empty]
      by_cases hoptions : a.optionTexts = []
      · have hbare : withOptions a.name [] = a.name := rfl
        have htrim : trim ("@" ++ a.name) = "@" ++ a.name := by
          simpa using trim_append_eq_self (by decide : trim "@" = "@") (by decide)
            ha.word.trim_eq ha.word.ne_empty ""
        have hcut : cut? Line.asMark a.name = none := by
          rw [cut?_eq_none_iff (by decide)]
          exact fun hwithin => hblank (hwithin.subset (by decide))
        have hself := @cutOptions_withOptions a.name [] ha.word.ne_empty ha.word.no_blank (by simp)
        rw [hbare] at hself
        refine ⟨a.name, ?_, ?_⟩
        · rw [hoptions, hbare, lineBody_append htrim (by simp)]
        · rw [ofText_at_of_uncut hcut, hself]
          exact hhead
      · obtain ⟨d, hmem, hd⟩ := exists_mem_joinWith_optionTexts hoptions
        have htext : "@" ++ withOptions a.name a.optionTexts =
            "@" ++ (a.name ++ " with ") ++ joinWith ", " a.optionTexts := by
          rw [withOptions, if_neg (by simpa using hoptions)]
          simp only [String.append_assoc]
        obtain ⟨rest, hbody, hrest⟩ := exists_lineBody_append
          (head?_append hat (a.name ++ " with ")) (by decide) hmem hd
        refine ⟨a.name ++ " with " ++ rest, ?_, ?_⟩
        · rw [htext, hbody, String.append_assoc]
        · exact head?_ident_options ha.word hhead hrest hd

theorem Identified.exists_lineBody_as (ha : a.Identified) (href : a.isReference = false) :
    ∃ rest, lineBody a.line = a.name ++ " as " ++ rest := by
  have hline : a.line = "- " ++ (a.name ++ " as " ++
      withOptions a.kind.keyword a.optionTexts) := by
    have hoptions : a.line = withOptions a.headText a.optionTexts := rfl
    rw [hoptions, headText, href, if_neg Bool.false_ne_true]
    simp only [withOptions_append, String.append_assoc]
  obtain ⟨c, hhead, _⟩ := ha.head
  have hc := ha.word.no_blank c (List.mem_of_head? hhead)
  obtain ⟨d, hmem, hd⟩ := exists_mem_of_no_blank a.kind.keyword_bare.1 a.kind.keyword_bare.2
  obtain ⟨rest, hbody, _⟩ := exists_lineBody_append (head?_append hhead " as ") hc
    (mem_withOptions hmem a.optionTexts) hd
  exact ⟨rest, hline ▸ hbody⟩

/-- The line of an identified attribute declares an identifier. -/
theorem Identified.declaredName_line (ha : a.Identified) : declaredName a.line ≠ "" := by
  have hkeyword : Kind.ofText (trim Kind.reference.keyword) = .reference := by
    rw [Kind.trim_keyword, Kind.ofText_keyword (by decide) (by decide)]
  obtain ⟨c, hhead, hc⟩ := ha.head
  unfold declaredName
  dsimp only
  cases href : a.isReference with
  | true =>
      obtain ⟨rest, hbody, hident⟩ := ha.exists_lineBody_of_isReference href hhead
      rw [hbody, kind_ofText_at, hkeyword]
      exact identifier_ne_empty hident (hc.imp_right fun hdot => ⟨rfl, hdot.2⟩)
  | false =>
      obtain ⟨rest, hbody⟩ := ha.exists_lineBody_as href
      have hlower : c.isLower := hc.resolve_right fun hdot => by
        rw [href] at hdot
        cases hdot.1
      rw [hbody, ofText_as ha.word]
      exact identifier_ne_empty hhead (Or.inl hlower)

end Attribute

end Blueprint
