import Blueprint.Document.Column
import Blueprint.Proofs.Handles

/-! # Columns and references

The columns of an entity are those of its attributes, one attribute after the other.
What a reference stands for is the key of its target: the columns there that start at
a primary attribute and are short enough to be reached over one attribute more.
-/

namespace Blueprint

namespace Column

/-- The column of `root` that reaches `c` over the reference `r`. -/
def reachedBy (root : EntityId) (r : Member) (c : Column) : Column :=
  { c with root := root, hops := r :: c.hops }

variable (root : EntityId) (r : Member) (c : Column)

@[simp] theorem reachedBy_source : (c.reachedBy root r).source = r := rfl

@[simp] theorem reachedBy_terminal : (c.reachedBy root r).terminal = c.terminal := rfl

@[simp] theorem reachedBy_isDirect : (c.reachedBy root r).isDirect = false := rfl

@[simp] theorem reachedBy_via? : (c.reachedBy root r).via? = r.target := rfl

@[simp] theorem reachedBy_segments : (c.reachedBy root r).segments = r.segment :: c.segments := rfl

@[simp] theorem reachedBy_viaColumn? : (c.reachedBy root r).viaColumn? = some c.name := rfl

theorem segments_ne_nil : c.segments ≠ [] := by
  simp [segments]

@[simp] theorem length_segments : c.segments.length = c.hops.length + 1 := by
  simp [segments]

/-- The name over a reference is the segment of the reference, then the name without it. -/
theorem reachedBy_name :
    (c.reachedBy root r).name = Text.replaceChar '.' '_' r.segment ++ "_" ++ c.name := by
  obtain ⟨first, rest, hsegments⟩ := List.exists_cons_of_ne_nil c.segments_ne_nil
  apply String.toList_inj.mp
  simp [name, nameOf, Text.replaceChar, Text.joinWith, hsegments, String.toList_intercalate]

theorem reachedBy_isValid :
    (c.reachedBy root r).isValid = (!r.hasDefect && !c.terminal.hasDefect) := rfl

/-- The first attribute of a column stands on its way. -/
theorem source_mem : c.source ∈ c.hops ++ [c.terminal] := by
  unfold source
  cases c.hops with
  | nil => simp
  | cons m hops => simp

end Column

namespace Document

variable {d : Document} {entity : EntityId} {m : Member}

theorem mem_members_of_mem_attributesOf (hm : m ∈ d.attributesOf entity) : m ∈ d.members := by
  unfold attributesOf at hm
  split at hm
  next e he => exact mem_members.mpr ⟨e, (mem_of_entity? he).1, hm⟩
  next => simp at hm

theorem mem_handles_of_mem_attributesOf (hm : m ∈ d.attributesOf entity) :
    entity ∈ d.handles .entity := by
  unfold attributesOf at hm
  split at hm
  next e he => exact exists_entity?_iff.mp ⟨e, he⟩
  next => simp at hm

theorem HandlesSound.attributesOf_nodup (hd : d.HandlesSound) (entity : EntityId) :
    ((d.attributesOf entity).map Member.id).Nodup := by
  unfold attributesOf
  split
  next e he => exact nodup_children (hd.nodup .attr) (mem_of_entity? he).1
  next => exact List.nodup_nil

/-- The owner of an attribute is the entity that lists it. -/
theorem HandlesSound.ownerOf?_of_mem_attributesOf (hd : d.HandlesSound)
    (hm : m ∈ d.attributesOf entity) : (d.ownerOf? m.id).map Entity.id = some entity := by
  unfold attributesOf at hm
  split at hm
  next owner howner =>
    obtain ⟨hmem, hid⟩ := mem_of_entity? howner
    rw [hd.ownerOf?_eq hmem hm, Option.map_some, hid]
  next => simp at hm

/-! ### One attribute at a time -/

/-- The columns that one attribute of an entity contributes after `hops`. -/
def columnsAt (d : Document) (root : EntityId) (depth : Nat) (hops : List Member)
    (entity : EntityId) (m : Member) : List Column :=
  if !hops.isEmpty && !m.primary then []
  else if m.isReference then
    match m.target with
    | some target => d.columnsFrom root depth (hops ++ [m]) target
    | none => []
  else [⟨root, hops, m, entity⟩]

theorem columnsFrom_succ (root : EntityId) (depth : Nat) (hops : List Member) :
    d.columnsFrom root (depth + 1) hops entity =
      (d.attributesOf entity).flatMap (d.columnsAt root depth hops entity) := by
  rw [columnsFrom]
  rfl

theorem columnsAt_eq_nil {root : EntityId} {depth : Nat} {hops : List Member} (hhops : hops ≠ [])
    (hm : ¬ m.primary) : d.columnsAt root depth hops entity m = [] := by
  simp [columnsAt, hhops, hm]

theorem columnsAt_reference {root : EntityId} {depth : Nat} {hops : List Member}
    (hfollow : hops = [] ∨ m.primary) (href : m.isReference) :
    d.columnsAt root depth hops entity m =
      m.target.elim [] (d.columnsFrom root depth (hops ++ [m])) := by
  have hskip : (!hops.isEmpty && !m.primary) = false := by
    rcases hfollow with rfl | hprimary
    · rfl
    · simp [hprimary]
  simp only [columnsAt, hskip, href, if_true]
  cases m.target <;> rfl

theorem columnsAt_plain {root : EntityId} {depth : Nat} {hops : List Member}
    (hfollow : hops = [] ∨ m.primary) (href : m.isReference = false) :
    d.columnsAt root depth hops entity m = [⟨root, hops, m, entity⟩] := by
  have hskip : (!hops.isEmpty && !m.primary) = false := by
    rcases hfollow with rfl | hprimary
    · rfl
    · simp [hprimary]
  simp [columnsAt, hskip, href]

/-- What an attribute contributes: itself, or for a reference what its target has. -/
theorem of_mem_columnsAt {root : EntityId} {depth : Nat} {hops : List Member} {c : Column}
    (hc : c ∈ d.columnsAt root depth hops entity m) :
    (m.isReference = false ∧ c = ⟨root, hops, m, entity⟩) ∨
      (m.isReference ∧ ∃ target, m.target = some target ∧
        c ∈ d.columnsFrom root depth (hops ++ [m]) target) := by
  by_cases hfollow : hops = [] ∨ m.primary
  · cases href : m.isReference with
    | true =>
        rw [columnsAt_reference hfollow href] at hc
        cases htarget : m.target with
        | none => simp [htarget] at hc
        | some target => exact Or.inr ⟨rfl, target, rfl, by simpa [htarget] using hc⟩
    | false =>
        rw [columnsAt_plain hfollow href] at hc
        exact Or.inl ⟨rfl, List.mem_singleton.mp hc⟩
  · obtain ⟨hhops, hprimary⟩ := not_or.mp hfollow
    simp [columnsAt_eq_nil hhops hprimary] at hc

/-- A column was put there by a plain attribute, or by a reference that led on. -/
theorem columnsFrom_induction {root : EntityId}
    {motive : List Member → EntityId → Column → Prop}
    (plain : ∀ hops entity m, m ∈ d.attributesOf entity → m.isReference = false →
      motive hops entity ⟨root, hops, m, entity⟩)
    (reference : ∀ hops entity m target c, m ∈ d.attributesOf entity → m.isReference →
      m.target = some target → motive (hops ++ [m]) target c → motive hops entity c)
    {depth : Nat} {hops : List Member} {c : Column}
    (hc : c ∈ d.columnsFrom root depth hops entity) : motive hops entity c := by
  induction depth generalizing hops entity with
  | zero => simp [columnsFrom] at hc
  | succ depth ih =>
      rw [columnsFrom_succ] at hc
      obtain ⟨m, hm, hc⟩ := List.mem_flatMap.mp hc
      rcases of_mem_columnsAt hc with ⟨href, rfl⟩ | ⟨href, target, htarget, hc⟩
      · exact plain hops entity m hm href
      · exact reference hops entity m target c hm href htarget (ih hc)

theorem root_of_mem_columnsFrom {root : EntityId} {depth : Nat} {hops : List Member} {c : Column}
    (hc : c ∈ d.columnsFrom root depth hops entity) : c.root = root :=
  columnsFrom_induction (motive := fun _ _ c => c.root = root) (fun _ _ _ _ _ => rfl)
    (fun _ _ _ _ _ _ _ _ ih => ih) hc

/-- The stored attribute is one of the entity that the column leads to. -/
theorem terminal_mem_attributesOf {root : EntityId} {depth : Nat} {hops : List Member} {c : Column}
    (hc : c ∈ d.columnsFrom root depth hops entity) : c.terminal ∈ d.attributesOf c.owner :=
  columnsFrom_induction (motive := fun _ _ c => c.terminal ∈ d.attributesOf c.owner)
    (fun _ _ _ hm _ => hm) (fun _ _ _ _ _ _ _ _ ih => ih) hc

/-- The attributes on the way of a column: what was followed before, then references that have
a target, and a plain attribute at the end. -/
theorem way_of_mem_columnsFrom {root : EntityId} {depth : Nat} {hops : List Member} {c : Column}
    (hc : c ∈ d.columnsFrom root depth hops entity) :
    c.terminal ∈ d.members ∧ c.terminal.isReference = false ∧
      ∃ more, c.hops = hops ++ more ∧
        ∀ m ∈ more, m ∈ d.members ∧ m.isReference ∧ m.target.isSome := by
  apply columnsFrom_induction ?_ ?_ hc
  · intro hops entity m hm href
    exact ⟨mem_members_of_mem_attributesOf hm, href, [], by simp, by simp⟩
  · rintro hops entity m target c hm href htarget ⟨hterminal, hplain, more, hhops, hmore⟩
    refine ⟨hterminal, hplain, m :: more, by simp [hhops], ?_⟩
    intro m' hm'
    rcases List.mem_cons.mp hm' with rfl | hm'
    · exact ⟨mem_members_of_mem_attributesOf hm, href, by simp [htarget]⟩
    · exact hmore m' hm'

/-- Every attribute on the way of a column is one of the document. -/
theorem mem_members_of_mem_columns {c : Column} (hc : c ∈ d.columns entity) {m : Member}
    (hm : m ∈ c.hops ++ [c.terminal]) : m ∈ d.members := by
  obtain ⟨hterminal, _, more, hhops, hmore⟩ := way_of_mem_columnsFrom hc
  rcases List.mem_append.mp hm with hm | hm
  · exact (hmore m (by simpa [hhops] using hm)).1
  · exact List.mem_singleton.mp hm ▸ hterminal

theorem source_of_mem_columnsAt {root : EntityId} {depth : Nat} {c : Column}
    (hc : c ∈ d.columnsAt root depth [] entity m) : c.source = m := by
  rcases of_mem_columnsAt hc with ⟨_, rfl⟩ | ⟨_, target, _, hc⟩
  · rfl
  · obtain ⟨_, _, more, hhops, _⟩ := way_of_mem_columnsFrom hc
    simp [Column.source, hhops]

/-! ### Longer and shorter ways -/

/-- A smaller depth leaves out the columns that lie deeper. -/
theorem columnsFrom_eq_filter (root : EntityId) (depth : Nat) (hops : List Member)
    (entity : EntityId) :
    d.columnsFrom root depth hops entity =
      (d.columnsFrom root (depth + 1) hops entity).filter
        fun c => c.hops.length < hops.length + depth := by
  induction depth generalizing hops entity with
  | zero =>
      rw [columnsFrom, eq_comm, List.filter_eq_nil_iff]
      intro c hc
      obtain ⟨_, _, more, hhops, _⟩ := way_of_mem_columnsFrom hc
      simp [hhops]
  | succ depth ih =>
      rw [columnsFrom_succ, columnsFrom_succ, List.filter_flatMap]
      apply List.flatMap_congr
      intro m _
      by_cases hfollow : hops = [] ∨ m.primary
      · cases href : m.isReference with
        | true =>
            rw [columnsAt_reference hfollow href, columnsAt_reference hfollow href]
            cases m.target with
            | none => rfl
            | some target =>
                simp only [Option.elim, ih (hops ++ [m]) target, List.length_append,
                  List.length_singleton]
                apply List.filter_congr
                intro c _
                simp only [Nat.add_assoc, Nat.add_comm 1 depth]
        | false =>
            rw [columnsAt_plain hfollow href, columnsAt_plain hfollow href]
            simp
      · obtain ⟨hhops, hprimary⟩ := not_or.mp hfollow
        simp [columnsAt_eq_nil hhops hprimary]

/-- One reference more in front, where others were followed already. -/
theorem columnsFrom_cons {hops : List Member} (hhops : hops ≠ []) (root root' : EntityId)
    (r : Member) (depth : Nat) (entity : EntityId) :
    d.columnsFrom root depth (r :: hops) entity =
      (d.columnsFrom root' depth hops entity).map (Column.reachedBy root r) := by
  induction depth generalizing hops entity with
  | zero => simp [columnsFrom]
  | succ depth ih =>
      rw [columnsFrom_succ, columnsFrom_succ, List.map_flatMap]
      apply List.flatMap_congr
      intro m _
      by_cases hprimary : m.primary
      · cases href : m.isReference with
        | true =>
            rw [columnsAt_reference (Or.inr hprimary) href,
              columnsAt_reference (Or.inr hprimary) href]
            cases m.target with
            | none => rfl
            | some target => exact ih (List.append_ne_nil_of_left_ne_nil hhops [m]) target
        | false =>
            rw [columnsAt_plain (Or.inr hprimary) href, columnsAt_plain (Or.inr hprimary) href]
            rfl
      · rw [columnsAt_eq_nil (List.cons_ne_nil r hops) hprimary, columnsAt_eq_nil hhops hprimary]
        rfl

/-- A reference in front of what an entity itself declares lets only its key through. -/
theorem columnsFrom_singleton (root root' : EntityId) (r : Member) (depth : Nat)
    (entity : EntityId) :
    d.columnsFrom root depth [r] entity =
      ((d.columnsFrom root' depth [] entity).filter fun c => c.source.primary).map
        (Column.reachedBy root r) := by
  cases depth with
  | zero => simp [columnsFrom]
  | succ depth =>
      rw [columnsFrom_succ, columnsFrom_succ, List.filter_flatMap, List.map_flatMap]
      apply List.flatMap_congr
      intro m _
      by_cases hprimary : m.primary
      · have hkept : (d.columnsAt root' depth [] entity m).filter (fun c => c.source.primary) =
            d.columnsAt root' depth [] entity m := by
          rw [List.filter_eq_self]
          intro c hc
          rw [source_of_mem_columnsAt hc, hprimary]
        rw [hkept]
        cases href : m.isReference with
        | true =>
            rw [columnsAt_reference (Or.inr hprimary) href, columnsAt_reference (Or.inl rfl) href]
            cases m.target with
            | none => rfl
            | some target => exact columnsFrom_cons (List.cons_ne_nil m []) root root' r depth target
        | false =>
            rw [columnsAt_plain (Or.inr hprimary) href, columnsAt_plain (Or.inl rfl) href]
            rfl
      · have hdropped : (d.columnsAt root' depth [] entity m).filter (fun c => c.source.primary) =
            [] := by
          rw [List.filter_eq_nil_iff]
          intro c hc
          rw [source_of_mem_columnsAt hc]
          exact hprimary
        rw [hdropped, columnsAt_eq_nil (List.cons_ne_nil r []) hprimary]
        rfl

/-! ### Columns by attribute -/

/-- The columns of an entity that come from one of its attributes. -/
def columnsBy (d : Document) (entity : EntityId) (m : Member) : List Column :=
  match d.maxDepth with
  | 0 => []
  | depth + 1 => d.columnsAt entity depth [] entity m

theorem columns_eq_flatMap (entity : EntityId) :
    d.columns entity = (d.attributesOf entity).flatMap (d.columnsBy entity) := by
  unfold columns columnsBy
  cases d.maxDepth with
  | zero => simp [columnsFrom]
  | succ depth => rw [columnsFrom_succ]

theorem source_of_mem_columnsBy {c : Column} (hc : c ∈ d.columnsBy entity m) : c.source = m := by
  unfold columnsBy at hc
  split at hc
  · simp at hc
  · exact source_of_mem_columnsAt hc

theorem source_mem_attributesOf {c : Column} (hc : c ∈ d.columns entity) :
    c.source ∈ d.attributesOf entity := by
  rw [columns_eq_flatMap] at hc
  obtain ⟨m, hm, hc⟩ := List.mem_flatMap.mp hc
  exact source_of_mem_columnsBy hc ▸ hm

/-- A column of a plain attribute is direct. -/
theorem isDirect_of_mem_columnsBy (href : m.isReference = false) {c : Column}
    (hc : c ∈ d.columnsBy entity m) : c.isDirect := by
  unfold columnsBy at hc
  split at hc
  · simp at hc
  · rw [columnsAt_plain (Or.inl rfl) href] at hc
    rw [List.mem_singleton.mp hc]
    rfl

theorem columnsBy_open (href : m.isReference) (htarget : m.target = none) :
    d.columnsBy entity m = [] := by
  unfold columnsBy
  split
  · rfl
  · rw [columnsAt_reference (Or.inl rfl) href, htarget]
    rfl

/-- A reference stands for the key of its target, as far as the depth allows. -/
theorem columnsBy_reference {target : EntityId} (href : m.isReference)
    (htarget : m.target = some target) :
    d.columnsBy entity m =
      ((d.columns target).filter fun c => c.segments.length < d.maxDepth && c.source.primary).map
        (Column.reachedBy entity m) := by
  unfold columnsBy columns
  cases hdepth : d.maxDepth with
  | zero => simp
  | succ depth =>
      have hshort := columnsFrom_eq_filter (d := d) target depth [] target
      dsimp only
      rw [columnsAt_reference (Or.inl rfl) href, htarget]
      simp only [Option.elim, List.nil_append, columnsFrom_singleton entity target m depth target,
        hshort, List.filter_filter]
      congr 2
      funext c
      simp [Bool.and_comm]

/-- A column that leads to another entity is a column there, over a reference. -/
theorem exists_of_via? {c : Column} {target : EntityId} (hc : c ∈ d.columns entity)
    (hvia : c.via? = some target) :
    ∃ r ∈ d.attributesOf entity, r.isReference ∧ r.target = some target ∧
      ∃ key ∈ d.columns target, c = key.reachedBy entity r := by
  rw [columns_eq_flatMap] at hc
  obtain ⟨r, hr, hc⟩ := List.mem_flatMap.mp hc
  cases href : r.isReference with
  | false =>
      have hdirect := isDirect_of_mem_columnsBy href hc
      rw [Column.isDirect, List.isEmpty_iff] at hdirect
      simp [Column.via?, hdirect] at hvia
  | true =>
      cases htarget : r.target with
      | none => simp [columnsBy_open href htarget] at hc
      | some reached =>
          rw [columnsBy_reference href htarget] at hc
          obtain ⟨key, hkey, rfl⟩ := List.mem_map.mp hc
          rw [Column.reachedBy_via?, htarget] at hvia
          obtain rfl := Option.some.inj hvia
          exact ⟨r, hr, href, htarget, key, (List.mem_filter.mp hkey).1, rfl⟩

theorem mem_handles_of_mem_columns {c : Column} (hc : c ∈ d.columns entity) :
    entity ∈ d.handles .entity :=
  mem_handles_of_mem_attributesOf (source_mem_attributesOf hc)

/-- The columns over a reference are those with the reference as their source. -/
theorem HandlesSound.filter_source_columns (hd : d.HandlesSound)
    (hm : m ∈ d.attributesOf entity) :
    ((d.columns entity).filter fun c => c.source.id = m.id) = d.columnsBy entity m := by
  obtain ⟨before, after, hsplit⟩ := List.append_of_mem hm
  have hnodup := hd.attributesOf_nodup entity
  rw [hsplit] at hnodup
  simp only [List.map_append, List.map_cons, List.nodup_append, List.nodup_cons, List.mem_map,
    List.mem_cons] at hnodup
  obtain ⟨_, ⟨hafter, _⟩, hbefore⟩ := hnodup
  have hother : ∀ other : Member, other.id ≠ m.id →
      ((d.columnsBy entity other).filter fun c => c.source.id = m.id) = [] := by
    intro other hne
    rw [List.filter_eq_nil_iff]
    intro c hc
    simpa [source_of_mem_columnsBy hc] using hne
  have hself : ((d.columnsBy entity m).filter fun c => c.source.id = m.id) =
      d.columnsBy entity m := by
    rw [List.filter_eq_self]
    intro c hc
    simp [source_of_mem_columnsBy hc]
  have hleft : ∀ other ∈ before,
      ((d.columnsBy entity other).filter fun c => c.source.id = m.id) = [] := by
    intro other hother'
    exact hother other (hbefore _ ⟨other, hother', rfl⟩ _ (Or.inl rfl))
  have hright : ∀ other ∈ after,
      ((d.columnsBy entity other).filter fun c => c.source.id = m.id) = [] := by
    intro other hother'
    exact hother other fun heq => hafter ⟨other, hother', heq⟩
  rw [columns_eq_flatMap, hsplit, List.filter_flatMap, List.flatMap_append, List.flatMap_cons,
    List.flatMap_eq_nil_iff.mpr hleft, List.flatMap_eq_nil_iff.mpr hright, hself,
    List.nil_append, List.append_nil]

/-! ### Valid columns -/

theorem hasDefect_eq_false_of_mem_members (hclean : d.hasDefect = false) (hm : m ∈ d.members) :
    m.hasDefect = false := by
  obtain ⟨e, he, hm⟩ := mem_members.mp hm
  obtain ⟨s, hs, he⟩ := mem_entities.mp he
  simp only [Document.hasDefect, Schema.hasDefect, List.any_eq_false, Bool.not_eq_true] at hclean
  exact hclean s hs e he m hm

/-- Without defects every column is valid. -/
theorem isValid_of_mem_columns (hclean : d.hasDefect = false) {c : Column}
    (hc : c ∈ d.columns entity) : c.isValid := by
  have hsource := hasDefect_eq_false_of_mem_members hclean
    (mem_members_of_mem_columns hc c.source_mem)
  have hterminal := hasDefect_eq_false_of_mem_members hclean
    (mem_members_of_mem_columns hc (by simp : c.terminal ∈ c.hops ++ [c.terminal]))
  simp [Column.isValid, hsource, hterminal]

theorem isValid_eq_false_of_source {c : Column} (hdefect : c.source.hasDefect) :
    c.isValid = false := by
  simp [Column.isValid, hdefect]

theorem filterMap_column?_ofColumn (cs : List Column) :
    (cs.map Field.ofColumn).filterMap Field.column? = cs.filter Column.isValid := by
  induction cs with
  | nil => rfl
  | cons c cs ih =>
      rw [List.map_cons, List.filterMap_cons, ih]
      by_cases hvalid : c.isValid
      · simp [Field.ofColumn, hvalid, Field.column?]
      · simp [Field.ofColumn, hvalid, Field.column?]

/-- The valid fields of an entity are its valid columns, in the same order. -/
theorem HandlesSound.validColumns_eq (hd : d.HandlesSound) (entity : EntityId) :
    d.validColumns entity = (d.columns entity).filter Column.isValid := by
  rw [validColumns, fields, List.filterMap_flatMap]
  nth_rewrite 2 [columns_eq_flatMap]
  rw [List.filter_flatMap]
  apply List.flatMap_congr
  intro m hm
  rw [hd.filter_source_columns hm]
  by_cases hdefect : m.hasDefect
  · have hnone : (d.columnsBy entity m).filter Column.isValid = [] := by
      rw [List.filter_eq_nil_iff]
      intro c hc
      simp [isValid_eq_false_of_source ((source_of_mem_columnsBy hc).symm ▸ hdefect)]
    simp [hdefect, Field.column?, hnone]
  · simp only [hdefect]
    exact filterMap_column?_ofColumn _

/-- The valid columns that come from one attribute. -/
theorem HandlesSound.filter_source_validColumns (hd : d.HandlesSound)
    (hm : m ∈ d.attributesOf entity) :
    ((d.validColumns entity).filter fun c => c.source.id = m.id) =
      (d.columnsBy entity m).filter Column.isValid := by
  rw [hd.validColumns_eq, ← hd.filter_source_columns hm, List.filter_filter, List.filter_filter]
  apply List.filter_congr
  intro c _
  exact Bool.and_comm _ _

end Document

end Blueprint
