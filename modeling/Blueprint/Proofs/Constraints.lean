import Blueprint.Proofs.Chains
import Blueprint.Proofs.ForeignKeys
import Blueprint.Proofs.Lineage
import Blueprint.Proofs.Relations

/-! # Tables and their constraints

The fields of an entity are put together attribute by attribute, while its keys and its
uniqueness groups are filtered from all of its columns at once. Both ways lead to the same
columns in the same order, so a constraint names columns that the table has, as they come
there.
-/

namespace Blueprint

/-! ### Fields and their places -/

/-- What stands at a place among the fields: a defective attribute as a whole, or one column
of an attribute without defects. -/
inductive Place where
  | defective (m : Member)
  | column (c : Column)

namespace Place

/-- The attribute of the entity that the place belongs to. -/
def source : Place → Member
  | defective m => m
  | column c => c.source

def field : Place → Field
  | defective m => .invalid (Text.replaceChar '.' '_' m.segment) m.defectText
  | column c => if c.terminal.hasDefect then .invalid c.name c.terminal.defectText else .valid c

def defective? : Place → Option Member
  | defective m => some m
  | column _ => none

def column? : Place → Option Column
  | defective _ => none
  | column c => some c

end Place

namespace Document

variable {d : Document} {entity : EntityId} {m : Member}

/-- Whether the fields of an entity are these places: one for every defective attribute and one
for every column of the others, in the order of declaration. -/
structure Places (d : Document) (entity : EntityId) (places : List Place) : Prop where
  fields : d.fields entity = places.map Place.field
  defective : places.filterMap Place.defective? =
    (d.attributesOf entity).filter fun m => m.hasDefect
  columns : places.filterMap Place.column? =
    (d.columns entity).filter fun c => !c.source.hasDefect
  declared : places.Pairwise fun p p' =>
    p.source = p'.source ∨ [p.source, p'.source].Sublist (d.attributesOf entity)

/-- The places of one attribute. -/
def placesBy (d : Document) (entity : EntityId) (m : Member) : List Place :=
  if m.hasDefect then [.defective m] else (d.columnsBy entity m).map .column

theorem source_of_mem_placesBy {p : Place} (hp : p ∈ d.placesBy entity m) : p.source = m := by
  unfold placesBy at hp
  split at hp
  · rw [List.mem_singleton.mp hp]
    rfl
  · obtain ⟨c, hc, rfl⟩ := List.mem_map.mp hp
    exact source_of_mem_columnsBy hc

theorem HandlesSound.fields_eq_flatMap (hd : d.HandlesSound) (entity : EntityId) :
    d.fields entity = (d.attributesOf entity).flatMap fun m =>
      (d.placesBy entity m).map Place.field := by
  refine List.flatMap_congr fun m hm => ?_
  rw [hd.filter_source_columns hm, placesBy]
  cases hdefect : m.hasDefect with
  | true => rfl
  | false =>
      simp only [Bool.false_eq_true, if_false, List.map_map]
      refine List.map_congr_left fun c hc => ?_
      simp only [Function.comp, Field.ofColumn, Place.field, Column.isValid,
        source_of_mem_columnsBy hc, hdefect]
      cases c.terminal.hasDefect <;> rfl

theorem HandlesSound.exists_places (hd : d.HandlesSound) (entity : EntityId) :
    ∃ places, d.Places entity places := by
  refine ⟨(d.attributesOf entity).flatMap (d.placesBy entity), ?_, ?_, ?_, ?_⟩
  · rw [hd.fields_eq_flatMap, List.map_flatMap]
  · rw [List.filterMap_flatMap]
    generalize d.attributesOf entity = members
    induction members with
    | nil => rfl
    | cons m members ih =>
        rw [List.flatMap_cons, ih, List.filter_cons, placesBy]
        cases m.hasDefect with
        | true => rfl
        | false => simp [List.filterMap_map, Function.comp_def, Place.defective?]
  · rw [List.filterMap_flatMap, columns_eq_flatMap, List.filter_flatMap]
    refine List.flatMap_congr fun m hm => ?_
    rw [placesBy]
    cases hdefect : m.hasDefect with
    | true =>
        rw [eq_comm, List.filter_eq_nil_iff.mpr]
        · rfl
        · intro c hc
          simp [source_of_mem_columnsBy hc, hdefect]
    | false =>
        rw [eq_comm, List.filter_eq_self.mpr]
        · simp [List.filterMap_map, Function.comp_def, Place.column?]
        · intro c hc
          simp [source_of_mem_columnsBy hc, hdefect]
  · rw [List.pairwise_flatMap]
    constructor
    · intro m _
      refine List.pairwise_of_forall_mem_list fun p hp p' hp' => Or.inl ?_
      rw [source_of_mem_placesBy hp, source_of_mem_placesBy hp']
    · rw [List.pairwise_iff_forall_sublist]
      intro m m' hsublist p hp p' hp'
      rw [source_of_mem_placesBy hp, source_of_mem_placesBy hp']
      exact Or.inr hsublist

theorem HandlesSound.columns_nodup (hd : d.HandlesSound) (entity : EntityId) :
    (d.columns entity).Nodup := by
  refine (pairwise_way_columnsFrom entity d.maxDepth [] entity).imp fun hlex heq => ?_
  subst heq
  exact List.lex_irrefl hd.not_declaredBefore_self _ hlex

/-! ### Uniqueness groups -/

/-- Every column is in a group as often as its attribute has the label. -/
theorem filter_label (cs : List Column) (label : String) :
    (((cs.flatMap fun c => c.source.unique.map (·, c)).filter fun p => p.1 = label).map
      Prod.snd) = cs.flatMap fun c => List.replicate (c.source.unique.count label) c := by
  rw [List.filter_flatMap, List.map_flatMap]
  refine List.flatMap_congr fun c _ => ?_
  generalize c.source.unique = labels
  induction labels with
  | nil => rfl
  | cons first labels ih =>
      rw [List.map_cons, List.filter_cons, List.count_cons]
      by_cases heq : first = label
      · simp only [heq, decide_true, if_true, List.map_cons, ih, beq_self_eq_true,
          List.replicate_succ]
      · simp only [heq, decide_false, Bool.false_eq_true, if_false, ih, beq_iff_eq, Nat.add_zero]

/-- The group of a label is not empty. -/
theorem of_mem_uniqueGroups {label : String} {group : List Column}
    (h : (label, group) ∈ d.uniqueGroups entity) :
    group ≠ [] ∧ group = ((d.columns entity).filter Column.isValid).flatMap fun c =>
      List.replicate (c.source.unique.count label) c := by
  obtain ⟨label', hlabel, heq⟩ := List.mem_map.mp h
  obtain ⟨rfl, rfl⟩ := Prod.mk.inj heq
  refine ⟨?_, filter_label _ _⟩
  rw [List.mem_mergeSort] at hlabel
  obtain ⟨p, hp, rfl⟩ := List.mem_map.mp ((distinctBy_sublist id _).subset hlabel)
  exact List.ne_nil_of_mem (List.mem_map.mpr ⟨p, List.mem_filter.mpr ⟨hp, by simp⟩, rfl⟩)

/-- Where no label is there twice, no column is in a group twice. -/
theorem flatMap_replicate_count {cs : List Column} (label : String)
    (hcs : ∀ c ∈ cs, c.source.unique.Nodup) :
    (cs.flatMap fun c => List.replicate (c.source.unique.count label) c) =
      cs.filter fun c => label ∈ c.source.unique := by
  induction cs with
  | nil => rfl
  | cons c cs ih =>
      obtain ⟨hc, hcs⟩ := List.forall_mem_cons.mp hcs
      rw [List.flatMap_cons, ih hcs, List.filter_cons, hc.count]
      by_cases hmem : label ∈ c.source.unique
      · simp [hmem]
      · simp [hmem]

end Document

namespace Output.Postgres

open Document

variable {d : Document} {entity : EntityId}

/-! ### Constraints -/

/-- What follows the columns between the brackets of a table. -/
inductive Constraint where
  | primaryKey (columns : List Column)
  | unique (columns : List Column)
  | foreignKey (columns : List Column) (via : EntityId) (targets : List String)

namespace Constraint

/-- The columns of the table that the constraint names. -/
def columns : Constraint → List Column
  | primaryKey columns | unique columns | foreignKey columns _ _ => columns

def key? : Constraint → Option (List Column)
  | primaryKey columns => some columns
  | _ => none

def item (d : Document) : Constraint → Item
  | primaryKey columns => .definition ("PRIMARY KEY " ++ columnList (columns.map Column.name))
  | unique columns => .definition ("UNIQUE " ++ columnList (columns.map Column.name))
  | foreignKey columns via targets =>
    .definition (foreignKeyText d ⟨via, columns.map Column.name, targets⟩)

/-- Whether a constraint names columns of the table, and names them in its order. -/
structure Follows (k : Constraint) (emitted : List Column) : Prop where
  ne_nil : k.columns ≠ []
  subset : ∀ c ∈ k.columns, c ∈ emitted
  ordered : k.columns.Pairwise fun c c' => c = c' ∨ [c, c'].Sublist emitted

theorem follows_of_sublist {k : Constraint} {emitted : List Column} (hne : k.columns ≠ [])
    (hsublist : k.columns.Sublist emitted) : k.Follows emitted where
  ne_nil := hne
  subset _ hc := hsublist.subset hc
  ordered := List.pairwise_iff_forall_sublist.mpr fun hpair => Or.inr (hpair.trans hsublist)

/-- Naming some columns several times in a row keeps to the order. -/
theorem follows_unique {emitted : List Column} {times : Column → Nat}
    (hne : (emitted.flatMap fun c => List.replicate (times c) c) ≠ []) :
    (unique (emitted.flatMap fun c => List.replicate (times c) c)).Follows emitted where
  ne_nil := hne
  subset c hc := by
    obtain ⟨c', hc', hmem⟩ := List.mem_flatMap.mp hc
    exact List.eq_of_mem_replicate hmem ▸ hc'
  ordered := by
    refine List.pairwise_flatMap.mpr ⟨fun c _ => ?_, ?_⟩
    · exact List.pairwise_replicate.mpr (Or.inr (Or.inl rfl))
    · refine List.pairwise_iff_forall_sublist.mpr fun hpair c hc c' hc' => Or.inr ?_
      rwa [List.eq_of_mem_replicate hc, List.eq_of_mem_replicate hc']

end Constraint

/-- The constraint that the columns from one reference form, if there are any. -/
def referenceConstraint? (columns : List Column) : Option Constraint :=
  (ForeignKey.ofColumns? columns).map fun key => .foreignKey columns key.via key.targets

/-- The constraints of a table, in their order. -/
def constraints (d : Document) (entity : EntityId) : List Constraint :=
  (if d.primary entity = [] then [] else [.primaryKey (d.primary entity)]) ++
  (d.uniqueGroups entity).map (fun group => .unique group.2) ++
  (d.attributesOf entity).filterMap fun m =>
    referenceConstraint? (((d.validColumns entity).filter fun c => !c.isDirect).filter
      fun c => c.source.id = m.id)

theorem keyItems_eq (d : Document) (entity : EntityId) :
    keyItems d entity =
      (if d.primary entity = [] then [] else [.primaryKey (d.primary entity)]).map
        (Constraint.item d) := by
  unfold keyItems
  cases d.primary entity <;> simp [Constraint.item]

theorem foreignKeyItem?_eq (columns : List Column) :
    ((ForeignKey.ofColumns? columns).map fun key => Item.definition (foreignKeyText d key)) =
      (referenceConstraint? columns).map (Constraint.item d) := by
  cases columns with
  | nil => rfl
  | cons c rest => cases hvia : c.via? <;> simp [referenceConstraint?, ForeignKey.ofColumns?, hvia,
      Constraint.item]

/-- A table has its fields and then its constraints. -/
theorem items_eq_constraints (hd : d.HandlesSound) (hordered : d.Ordered) (entity : EntityId) :
    items d entity =
      (d.fields entity).map .ofField ++ (constraints d entity).map (Constraint.item d) := by
  rw [items_eq_append hd hordered, constraints, List.map_append, List.map_append, ← keyItems_eq,
    List.map_filterMap, List.append_assoc, List.append_assoc, List.append_assoc]
  congr 3
  · simp [uniqueItems, Constraint.item]
  · refine List.filterMap_congr fun m _ => ?_
    exact foreignKeyItem?_eq _

theorem filter_isDefinition (fields : List Field) :
    (fields.map Item.ofField).filter Item.isDefinition =
      (fields.filterMap Field.column?).map fun c => .definition (columnText c) := by
  induction fields with
  | nil => rfl
  | cons f fields ih =>
      rw [List.map_cons, List.filter_cons, List.filterMap_cons, ih]
      cases f <;> rfl

theorem primary_eq (hd : d.HandlesSound) :
    d.primary entity = (d.validColumns entity).filter fun c => c.source.primary := by
  rw [hd.validColumns_eq, List.filter_filter, primary]
  exact List.filter_congr fun c _ => Bool.and_comm _ _

/-- A constraint names columns of the table in its order. A uniqueness group names each of
them as often as its attribute has the label. -/
theorem of_mem_constraints (hd : d.HandlesSound) {k : Constraint}
    (hk : k ∈ constraints d entity) :
    k.columns ≠ [] ∧ (k.columns.Sublist (d.validColumns entity) ∨
      ∃ label, k = .unique ((d.validColumns entity).flatMap fun c =>
        List.replicate (c.source.unique.count label) c)) := by
  rcases List.mem_append.mp hk with hk | hk
  · rcases List.mem_append.mp hk with hk | hk
    · split at hk
      · cases hk
      next hkey =>
        obtain rfl := List.mem_singleton.mp hk
        refine ⟨hkey, Or.inl ?_⟩
        rw [Constraint.columns, primary_eq hd]
        exact List.filter_sublist
    · obtain ⟨⟨label, group⟩, hgroup, rfl⟩ := List.mem_map.mp hk
      obtain ⟨hne, heq⟩ := of_mem_uniqueGroups hgroup
      refine ⟨hne, Or.inr ⟨label, ?_⟩⟩
      rw [hd.validColumns_eq, ← heq]
  · obtain ⟨m, _, hk⟩ := List.mem_filterMap.mp hk
    obtain ⟨key, hkey, rfl⟩ := Option.map_eq_some_iff.mp hk
    refine ⟨fun hnone => ?_, Or.inl (List.filter_sublist.trans List.filter_sublist)⟩
    rw [Constraint.columns] at hnone
    rw [hnone] at hkey
    cases hkey

theorem follows_of_mem_constraints (hd : d.HandlesSound) {k : Constraint}
    (hk : k ∈ constraints d entity) : k.Follows (d.validColumns entity) := by
  obtain ⟨hne, hsublist | ⟨label, rfl⟩⟩ := of_mem_constraints hd hk
  · exact Constraint.follows_of_sublist hne hsublist
  · exact Constraint.follows_unique hne

theorem sublist_of_mem_constraints (hd : d.HandlesSound) (hlabels : d.LabelsDistinct)
    {k : Constraint} (hk : k ∈ constraints d entity) :
    k.columns.Sublist (d.validColumns entity) := by
  obtain ⟨_, hsublist | ⟨label, rfl⟩⟩ := of_mem_constraints hd hk
  · exact hsublist
  · rw [Constraint.columns, flatMap_replicate_count]
    · exact List.filter_sublist
    · intro c hc
      rw [hd.validColumns_eq] at hc
      exact hlabels _ (mem_members_of_mem_columns (List.mem_filter.mp hc).1 c.source_mem)

/-- A table has at most one primary key. -/
theorem filterMap_key?_constraints (d : Document) (entity : EntityId) :
    (constraints d entity).filterMap Constraint.key? =
      if d.primary entity = [] then [] else [d.primary entity] := by
  have hunique : ((d.uniqueGroups entity).map fun group => Constraint.unique group.2).filterMap
      Constraint.key? = [] := by
    simp [List.filterMap_map, Function.comp_def, Constraint.key?]
  have hforeign : ((d.attributesOf entity).filterMap fun m =>
      referenceConstraint? (((d.validColumns entity).filter fun c => !c.isDirect).filter
        fun c => c.source.id = m.id)).filterMap Constraint.key? = [] := by
    refine List.filterMap_eq_nil_iff.mpr fun k hk => ?_
    obtain ⟨m, _, hk⟩ := List.mem_filterMap.mp hk
    obtain ⟨key, _, rfl⟩ := Option.map_eq_some_iff.mp hk
    rfl
  rw [constraints, List.filterMap_append, List.filterMap_append, hunique, hforeign]
  split <;> rfl

/-- In every document that edits lead to, the valid fields of an entity are its valid columns,
each once. The fields are one comment for every defective attribute, where it is declared, and
what the columns of the others give, which is a comment if the attribute they store is defective.
The table has one line for each field, and then one for each constraint. Constraints name some of
the valid columns in their order, and the primary key names all that come from primary
attributes. -/
theorem constraints_run (hd : d.IsOrigin) (es : List Edit) (entity : EntityId) :
    let after := d.run es
    let emitted := after.validColumns entity
    let key := emitted.filter fun c => c.source.primary
    emitted = (after.columns entity).filter Column.isValid ∧ emitted.Nodup ∧
      (∃ places, after.Places entity places) ∧
      ((after.fields entity).map Item.ofField).filter Item.isDefinition =
        emitted.map (fun c => .definition (columnText c)) ∧
      ∃ ks : List Constraint,
        items after entity = (after.fields entity).map .ofField ++ ks.map (Constraint.item after) ∧
        (∃ columns constraints, tableLines after entity =
            ("CREATE TABLE " ++ after.qualifiedName entity ++ " (") ::
              (columns ++ constraints) ++ [");"] ∧
          List.Forall₂ Item.IsLine ((after.fields entity).map .ofField) columns ∧
          List.Forall₂ Item.IsLine (ks.map (Constraint.item after)) constraints) ∧
        (∀ k ∈ ks, k.Follows emitted) ∧
        ((∀ e ∈ es, e.isWritten) → ∀ k ∈ ks, k.columns.Sublist emitted) ∧
        ks.filterMap Constraint.key? = (if key = [] then [] else [key]) := by
  intro after emitted key
  have hhandles : after.HandlesSound := hd.handles_run es
  have hitems := items_eq_constraints hhandles (hd.ordered_run es) entity
  have hvalid : emitted = (after.columns entity).filter Column.isValid :=
    hhandles.validColumns_eq entity
  have hnodup : emitted.Nodup := hvalid ▸ (hhandles.columns_nodup entity).filter _
  refine ⟨hvalid, hnodup, hhandles.exists_places entity, filter_isDefinition _,
    constraints after entity, hitems, ?_, fun _ => follows_of_mem_constraints hhandles,
    fun hes _ => ?_, ?_⟩
  · obtain ⟨lines, htable, hlines⟩ := exists_tableLines_eq after entity
    rw [hitems] at hlines
    obtain ⟨columns, constraints, rfl, hcolumns, hconstraints⟩ := exists_append_of_forall₂ hlines
    exact ⟨columns, constraints, htable, hcolumns, hconstraints⟩
  · exact sublist_of_mem_constraints hhandles (hd.labelsDistinct_run hes)
  · rw [filterMap_key?_constraints, primary_eq hhandles]

/-- The orders of users whose key has a defect, with a defective attribute of their own. -/
def orders : List Edit :=
  [.addSchema "shop", .addEntity ⟨1⟩ "user", .addAttribute ⟨1⟩ "- id as ++",
    .addAttribute ⟨1⟩ "- tag as bit with p", .addEntity ⟨1⟩ "order",
    .addAttribute ⟨2⟩ "- @user with p, u:a", .addAttribute ⟨2⟩ "- mask as bit",
    .addAttribute ⟨2⟩ "- no as int with u:a"]

theorem constraints_run_orders :
    let after := (empty 5).run orders
    tableLines after ⟨2⟩ = ["CREATE TABLE shop.order (", "    user_id INT NOT NULL,",
        "    -- user_tag has errors: bit size is required",
        "    -- mask has errors: bit size is required", "    no INT,", "    PRIMARY KEY (user_id),",
        "    UNIQUE (user_id, no),", "    FOREIGN KEY (user_id) REFERENCES shop.user (id)", ");"] ∧
      ∃ ks : List Constraint,
        items after ⟨2⟩ = (after.fields ⟨2⟩).map .ofField ++ ks.map (Constraint.item after) ∧
        (∀ k ∈ ks, k.columns.Sublist (after.validColumns ⟨2⟩)) ∧
        (ks.filterMap Constraint.key?).map (·.map Column.name) = [["user_id"]] := by
  intro after
  have hall : tableLines after ⟨2⟩ = ["CREATE TABLE shop.order (", "    user_id INT NOT NULL,",
      "    -- user_tag has errors: bit size is required",
      "    -- mask has errors: bit size is required", "    no INT,", "    PRIMARY KEY (user_id),",
      "    UNIQUE (user_id, no),", "    FOREIGN KEY (user_id) REFERENCES shop.user (id)", ");"] ∧
      ((after.validColumns ⟨2⟩).filter fun c => c.source.primary).map Column.name =
        ["user_id"] := by
    decide +kernel
  obtain ⟨_, _, _, _, ks, hitems, _, _, hsublist, hkey⟩ := constraints_run (.empty 5) orders ⟨2⟩
  refine ⟨hall.1, ks, hitems, hsublist (by simp [orders, Edit.isWritten]), ?_⟩
  have hne : ((after.validColumns ⟨2⟩).filter fun c => c.source.primary) ≠ [] := by
    intro hnone
    rw [hnone] at hall
    cases hall.2
  rw [if_neg hne] at hkey
  rw [hkey, List.map_singleton, hall.2]

end Output.Postgres

end Blueprint
