import Blueprint.Proofs.OptionOrder
import Blueprint.Proofs.Stability

/-! # What a line gives

The upper bound and the default value that a line gives are those of the last option that
gives one: the text behind the first two dots of a range, and the text behind the colon of a
default value. An attribute has them before it is checked, unless reading stopped before the
options.
-/

namespace Blueprint.Attribute

open Text

/-! ### Options that give a value -/

/-- The options as they are written, without the blanks around them. -/
def writtenOptions (options : String) : List String :=
  (splitOn ',' options).filterMap trimmed?

/-- The default value that an option gives. Two dots make a range of it. -/
def defaultText? (option : String) : Option String :=
  if (cut? Line.rangeMark option).isSome then none
  else (cut? Line.labelMark option).bind fun (word, value) =>
    if lower (trim word) = "d" ∨ lower (trim word) = "default" then some (trim value) else none

namespace Declaration

/-- The upper bound that is given. -/
def upper? (d : Declaration) : Option String :=
  ((writtenOptions d.options).filterMap (cut? Line.rangeMark)).getLast?.bind fun range =>
    trimmed? range.2

/-- The default value that is given; a blank one is none. -/
def default? (d : Declaration) : Option String :=
  ((writtenOptions d.options).filterMap defaultText?).getLast?.bind trimmed?

/-- Whether the options of a line are looked at. -/
def IsRead (d : Declaration) : Prop :=
  identifier d.ident (Kind.ofText (trim d.kind)) ≠ "" ∧ Kind.ofText (trim d.kind) ≠ .unknown

end Declaration

/-- The settings of one class, if it is known which options set it and to what. -/
theorem ofClass_settings {k : OptionClass} {give : String → Option Setting}
    (hgive : ∀ s, give s = if (Setting.ofText s).optionClass = k then some (.ofText s) else none)
    (options : String) : ofClass k (settings options) = (writtenOptions options).filterMap give := by
  rw [settings, ← writtenOptions]
  induction writtenOptions options with
  | nil => rfl
  | cons option rest ih =>
      rw [List.map_cons, ofClass, List.filter_cons, ← ofClass, ih, List.filterMap_cons, hgive]
      by_cases hclass : (Setting.ofText option).optionClass = k
      · simp [hclass]
      · simp [hclass]

theorem range_settings (options : String) :
    ofClass .range (settings options) = (writtenOptions options).filterMap fun s =>
      (cut? Line.rangeMark s).map fun range => .range (trimmed? range.1) (trimmed? range.2) := by
  apply ofClass_settings
  intro s
  cases hrange : cut? Line.rangeMark s with
  | some range =>
      rw [ofText_of_cut? hrange]
      rfl
  | none =>
      have hclass : (Setting.ofText s).optionClass ≠ .range := by
        cases hlabel : cut? Line.labelMark s with
        | none =>
            have hflags : ∀ flag ∈ [Setting.primary, .required, .unique, .ignored],
                flag.optionClass ≠ .range := by decide
            exact hflags _ (ofText_of_no_label hrange hlabel)
        | some parts =>
            rw [ofText_of_label hrange hlabel]
            split
            · exact nofun
            split <;> exact nofun
      rw [if_neg hclass]
      rfl

theorem default_settings (options : String) :
    ofClass .defaultValue (settings options) =
      (writtenOptions options).filterMap fun s => (defaultText? s).map .defaultValue := by
  apply ofClass_settings
  intro s
  cases hrange : cut? Line.rangeMark s with
  | some range =>
      rw [ofText_of_cut? hrange, defaultText?, hrange]
      rfl
  | none =>
      cases hlabel : cut? Line.labelMark s with
      | none =>
          have hflags : ∀ flag ∈ [Setting.primary, .required, .unique, .ignored],
              flag.optionClass ≠ .defaultValue := by decide
          rw [if_neg (hflags _ (ofText_of_no_label hrange hlabel)), defaultText?, hrange, hlabel]
          rfl
      | some parts =>
          obtain ⟨word, value⟩ := parts
          rw [ofText_of_label hrange hlabel, defaultText?, hrange, hlabel]
          simp only [Option.isSome_none, Bool.false_eq_true, if_false, Option.bind_some]
          by_cases hunique : lower (trim word) = "u" ∨ lower (trim word) = "unique"
          · have hdefault : ¬ (lower (trim word) = "d" ∨ lower (trim word) = "default") := by
              rcases hunique with hword | hword <;> rw [hword] <;> decide
            rw [if_pos hunique, if_neg hdefault]
            rfl
          · rw [if_neg hunique]
            split <;> rfl

/-! ### What is spelled -/

theorem spelled_max (d : Declaration) : d.spelled.max = d.upper? := by
  rw [Declaration.spelled, foldl_apply_eq, range_settings, ← List.map_filterMap,
    List.getLast?_map, Declaration.upper?]
  dsimp only
  cases ((writtenOptions d.options).filterMap (cut? Line.rangeMark)).getLast? with
  | none => rfl
  | some range => rw [Option.map_some, Option.elim_some, apply, Option.bind_some]

theorem spelled_default (d : Declaration) :
    d.spelled.defaultValue.bind trimmed? = d.default? := by
  rw [Declaration.spelled, foldl_apply_eq, default_settings, ← List.map_filterMap,
    List.getLast?_map, Declaration.default?]
  cases ((writtenOptions d.options).filterMap defaultText?).getLast? <;> rfl

theorem upper?_trimmed {d : Declaration} {bound : String} (h : d.upper? = some bound) :
    trim bound = bound := by
  obtain ⟨range, _, htrimmed⟩ := Option.bind_eq_some_iff.mp h
  obtain ⟨rfl, _⟩ := trimmed?_eq_some_iff.mp htrimmed
  exact trim_trim range.2

/-- Without an identifier or a kind, reading stops before the options. -/
theorem isUnread_of_not_isRead {d : Declaration} (h : ¬ d.IsRead) :
    ∃ a, ofDeclaration d = .ok a ∧ a.IsUnread := by
  unfold ofDeclaration
  dsimp only
  split
  · exact ⟨_, rfl, isUnread_note _ _ (by decide)⟩
  split
  · exact ⟨_, rfl, isUnread_note _ _ (by decide)⟩
  split
  · exact ⟨_, rfl, isUnread_note _ _ (by decide)⟩
  next hname _ hkind => exact absurd ⟨by simpa using hname, hkind⟩ h

end Blueprint.Attribute
