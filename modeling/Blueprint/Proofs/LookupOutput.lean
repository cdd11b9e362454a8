import Blueprint.Lookup.Output
import Blueprint.Proofs.Lookup

/-! # Files from lookups

A backend that gets columns by handle finds what it looks up, and writes what it would
write from the columns themselves.
-/

namespace Blueprint

namespace Document

variable {d : Document} {entity : EntityId} {c : Column} {r : Relation}

theorem HandlesSound.finds_of_mem_validColumns (hd : d.HandlesSound)
    (hc : c ∈ d.validColumns entity) : d.Finds c := by
  rw [hd.validColumns_eq] at hc
  exact hd.finds (List.mem_filter.mp hc).1

theorem HandlesSound.finds_of_mem_primary (hd : d.HandlesSound) (hc : c ∈ d.primary entity) :
    d.Finds c :=
  hd.finds (List.mem_filter.mp hc).1

theorem HandlesSound.finds_of_mem_fields (hd : d.HandlesSound)
    (hc : .valid c ∈ d.fields entity) : d.Finds c :=
  hd.finds_of_mem_validColumns (List.mem_filterMap.mpr ⟨_, hc, rfl⟩)

theorem owner_mem_handles (hc : c ∈ d.columns entity) : c.owner ∈ d.handles .entity :=
  mem_handles_of_mem_attributesOf (terminal_mem_attributesOf hc)

theorem exists_column_of_mem_keyOwners {owner : EntityId} (howner : owner ∈ d.keyOwners entity) :
    ∃ c ∈ d.columns entity, c.owner = owner := by
  obtain ⟨c, hc, rfl⟩ := List.mem_map.mp ((distinctBy_sublist _ _).subset howner)
  exact ⟨c, (List.mem_filter.mp hc).1, rfl⟩

/-- Whether the entities of a relation are there. -/
structure Holds (d : Document) (r : Relation) : Prop where
  base : r.base ∈ d.handles .entity
  has : r.has ∈ d.handles .entity
  assoc : ∀ assoc ∈ r.assoc, assoc ∈ d.handles .entity

theorem holds_of_mem_forwardRelations (hr : r ∈ d.forwardRelations entity) : d.Holds r := by
  unfold forwardRelations at hr
  split at hr
  case isTrue =>
    obtain ⟨⟨base, has⟩, hpair, rfl⟩ := List.mem_map.mp hr
    obtain ⟨i, j, _, hbase, hhas⟩ := mem_orderedPairs_iff.mp hpair
    obtain ⟨first, hfirst, rfl⟩ := exists_column_of_mem_keyOwners (List.mem_of_getElem? hbase)
    obtain ⟨second, hsecond, rfl⟩ := exists_column_of_mem_keyOwners (List.mem_of_getElem? hhas)
    exact ⟨owner_mem_handles hfirst, owner_mem_handles hsecond,
      fun _ hassoc => Option.some.inj hassoc ▸ mem_handles_of_mem_columns hfirst⟩
  case isFalse =>
    obtain ⟨c, hc, rfl⟩ := List.mem_map.mp hr
    have hc := (mem_referenceColumns.mp hc).1
    exact ⟨mem_handles_of_mem_columns hc, owner_mem_handles hc, by simp⟩

theorem holds_of_mem_reverseRelations (hr : r ∈ d.reverseRelations entity) : d.Holds r := by
  obtain ⟨_, c, hc, _, rfl⟩ := mem_reverseRelations_iff.mp hr
  exact ⟨owner_mem_handles hc, mem_handles_of_mem_columns hc, by simp⟩

theorem holds_of_mem_relations (hr : r ∈ d.relations) : d.Holds r := by
  rcases mem_suggestedRelations_of_mem hr with hfirst | ⟨_, hlast⟩
  · obtain ⟨_, _, hr⟩ := List.mem_flatMap.mp hfirst
    exact holds_of_mem_forwardRelations hr
  · obtain ⟨_, _, hr⟩ := List.mem_flatMap.mp hlast
    exact holds_of_mem_reverseRelations hr

end Document

namespace Lookup

open Output

variable {d : Document} {c : Column} (hd : d.HandlesSound) (entity : EntityId)

/-! ### Tables -/

namespace Postgres

theorem columnText_eq (hc : d.Finds c) :
    columnText d (d.entry c) = .ok (Output.Postgres.columnText c) := by
  rw [columnText, Entry.storageKind_eq hc, ok_bind, hc.terminal, ok_bind, hc.source, ok_bind]
  rfl

theorem fieldItem_eq {field : Field} (hfield : ∀ c, field = .valid c → d.Finds c) :
    fieldItem d (d.entryField field) = .ok (.ofField field) := by
  cases field with
  | valid c =>
      simp only [Document.entryField, fieldItem, columnText_eq (hfield c rfl)]
      rfl
  | invalid name defects => rfl

theorem pointer?_eq (d : Document) (c : Column) :
    pointer? (d.entry c) = Output.Postgres.pointer? c := by
  have htarget : (d.entry c).viaColumn? = c.viaColumn? := by
    have hsegments : (d.entry c).segments = c.segments := rfl
    rw [Entry.viaColumn?, Column.viaColumn?, hsegments, Column.length_segments, Column.isDirect]
    cases c.hops <;> rfl
  rw [pointer?, htarget]
  rfl

include hd

theorem looks_dependencies :
    Looks d (dependencies d entity) (.ok (Output.Postgres.dependencies d entity)) := by
  refine (looks_flatten hd entity).returning ?_
  rw [List.filterMap_map]
  rfl

theorem looks_tableOrder : Looks d (tableOrder d) (.ok (Output.Postgres.tableOrder d)) := by
  refine (Looks.mapM fun e _ => ?_).returning rfl
  exact (looks_dependencies hd e.id).returning rfl

theorem looks_foreignKeys :
    Looks d (foreignKeys d entity) (.ok (Output.Postgres.foreignKeys d entity)) := by
  refine (looks_validEntries hd entity).returning ?_
  rw [List.filterMap_map, Output.Postgres.foreignKeys]
  congr 3
  funext c
  exact pointer?_eq d c

theorem looks_keyItems :
    Looks d (keyItems d entity) (.ok (Output.Postgres.keyItems d entity)) := by
  apply (looks_primary hd entity).bind
  have hnames : ((d.primary entity).map d.entry).map Entry.name =
      (d.primary entity).map Column.name := by
    rw [List.map_map]
    rfl
  rw [hnames, Output.Postgres.keyItems]
  cases (d.primary entity).map Column.name with
  | nil => exact .pure _
  | cons name names => exact .pure _

theorem looks_uniqueItems :
    Looks d (uniqueItems d entity) (.ok (Output.Postgres.uniqueItems d entity)) := by
  refine (looks_uniqueGroups hd entity).returning ?_
  simp only [Output.Postgres.uniqueItems, List.map_map, Function.comp_def]
  rfl

theorem looks_items : Looks d (items d entity) (.ok (Output.Postgres.items d entity)) := by
  apply (looks_fields hd entity).bind
  apply (looks_mapM fun field hfield => fieldItem_eq fun c hc =>
    hd.finds_of_mem_fields (hc ▸ hfield)).bind
  apply (looks_keyItems hd entity).bind
  apply (looks_uniqueItems hd entity).bind
  exact (looks_foreignKeys hd entity).returning rfl

theorem looks_tableLines :
    Looks d (tableLines d entity) (.ok (Output.Postgres.tableLines d entity)) :=
  (looks_items hd entity).returning rfl

theorem looks_fileLines : Looks d (fileLines d) (.ok (Output.Postgres.fileLines d)) := by
  apply (looks_tableOrder hd).bind
  refine (Looks.mapM fun e _ => (looks_tableLines hd e).returning rfl).returning ?_
  simp only [Output.Postgres.fileLines, List.flatMap_def]

theorem looks_generate : Looks d (generate d) (.ok (Output.Postgres.generate d)) :=
  (looks_fileLines hd).returning rfl

end Postgres

/-! ### Structs -/

namespace Go

theorem cells_eq (hc : d.Finds c) : cells d (d.entry c) = .ok (Output.Go.cells c) := by
  rw [cells, fieldType, Entry.storageKind_eq hc, ok_bind, hc.source, ok_bind]
  rfl

theorem describe_eq {r : Relation} (hr : d.Holds r) :
    describe d r = .ok (Output.Go.describe d r) := by
  obtain ⟨base, hbase⟩ := Document.exists_entity?_iff.mpr hr.base
  rw [describe, Document.entityAt, hbase, ok_bind, Output.Go.describe, Document.entityName, hbase]
  cases hassoc : r.assoc with
  | none => rfl
  | some assoc =>
      obtain ⟨e, he⟩ := Document.exists_entity?_iff.mpr (hr.assoc assoc hassoc)
      simp only [Option.mapM_some, Option.map_some, Document.entityAt, Document.entityName, he]
      rfl

/-- Comments stand in the same places. -/
theorem interleave_entryField (d : Document) (aligned : List String) (fields : List Field) :
    Output.Go.interleave comment? aligned (fields.map d.entryField) =
      Output.Go.interleave Output.Go.comment? aligned fields := by
  induction fields generalizing aligned with
  | nil => rfl
  | cons field fields ih =>
      cases field with
      | invalid name defects =>
          exact congrArg (("\t" ++ Output.Go.commentText name defects) :: ·) (ih aligned)
      | valid c =>
          cases aligned with
          | nil => exact ih []
          | cons line rest => exact congrArg (("\t" ++ line) :: ·) (ih rest)

theorem bodyLines_eq {fields : List Field} (hfields : ∀ c, .valid c ∈ fields → d.Finds c) :
    bodyLines d (fields.map d.entryField) = .ok (Output.Go.bodyLines fields) := by
  have hrows : ((fields.map d.entryField).filterMap Entry.Field.valid?).mapM (cells d) =
      .ok ((fields.filterMap Field.column?).map Output.Go.cells) := by
    rw [filterMap_valid?, List.mapM_map]
    refine mapM_ok fun c hc => ?_
    obtain ⟨field, hfield, hcolumn⟩ := List.mem_filterMap.mp hc
    cases field with
    | valid c' => exact Option.some.inj hcolumn ▸ cells_eq (hfields c' hfield)
    | invalid name defects => cases hcolumn
  rw [bodyLines, hrows, ok_bind, interleave_entryField]
  rfl

include hd

theorem looks_structLines (e : Entity) :
    Looks d (structLines d d.relations e) (.ok (Output.Go.structLines d d.relations e)) := by
  have hdescribe : ∀ r ∈ Relation.withBase e.id d.relations,
      describe d r = .ok (Output.Go.describe d r) := fun r hr =>
    describe_eq (Document.holds_of_mem_relations (List.mem_filter.mp hr).1)
  apply (Looks.mapM fun r hr => .lift (hdescribe r hr)).bind
  apply (looks_fields hd e.id).bind
  refine (Looks.lift (bodyLines_eq fun c => hd.finds_of_mem_fields)).returning ?_
  rw [List.map_map]
  rfl

theorem looks_usesTime (s : Schema) :
    Looks d (usesTime d s) (.ok (Output.Go.usesTime d s)) := by
  refine Looks.anyM fun e _ => (looks_validEntries hd e.id).bind ?_
  refine (looks_mapM fun c hc =>
    Entry.storageKind_eq (hd.finds_of_mem_validColumns hc)).returning ?_
  rw [List.any_map]
  rfl

theorem looks_fileLines (s : Schema) :
    Looks d (fileLines d d.relations s) (.ok (Output.Go.fileLines d d.relations s)) := by
  apply (looks_usesTime hd s).bind
  refine (Looks.mapM fun e _ => (looks_structLines hd e).returning rfl).returning ?_
  rw [Output.Go.fileLines, List.flatMap_def]

theorem looks_generate : Looks d (generate d) (.ok (Output.Go.generate d)) := by
  apply (looks_relations hd).bind
  exact (Looks.mapM fun s _ => (looks_fileLines hd s).returning rfl).returning rfl

end Go

/-! ### Requests -/

namespace Hurl

theorem seed_eq (hc : d.Finds c) : seed d (d.entry c) = Output.Hurl.seed c := by
  rw [seed, Entry.storageKind_eq hc, ok_bind, hc.terminal, ok_bind]
  rfl

theorem isSent_eq (hc : d.Finds c) :
    isSent d (d.entry c) = .ok (c.storageKind ≠ .serial) := by
  rw [isSent, Entry.storageKind_eq hc]
  rfl

theorem assertLine?_eq (hc : d.Finds c) :
    assertLine? d (d.entry c) = .ok (Output.Hurl.assertLine? c) := by
  rw [assertLine?, Entry.storageKind_eq hc]
  rfl

include hd

theorem looks_bodyMembers :
    Looks d (bodyMembers d entity) (Output.Hurl.bodyMembers d entity) := by
  apply (looks_validEntries hd entity).bind
  have hfinds : ∀ c ∈ d.validColumns entity, d.Finds c := fun c => hd.finds_of_mem_validColumns
  refine Looks.bind (Looks.filterM fun c hc => .lift (isSent_eq (hfinds c hc))) ?_
  rw [List.mapM_map]
  refine Looks.mapMExcept fun c hc => ?_
  exact (Looks.lift (seed_eq (hfinds c (List.mem_filter.mp hc).1))).mapExcept fun _ => .pure _

theorem looks_keyWord (hc : d.Finds c) :
    Looks d (keyWord d (d.entry c)) (.ok (Output.Hurl.keyWord d c)) := by
  apply (Looks.lift hc.terminal).bind
  apply (Looks.lift hc.owner).bind
  exact (looks_isComposite hd c.owner).returning rfl

theorem looks_keyAddress {key : List Column} (hkey : ∀ c ∈ key, d.Finds c) :
    Looks d (keyAddress d (key.map d.entry)) (.ok (Output.Hurl.keyAddress d key)) := by
  have hparts : Looks d ((key.map d.entry).mapM fun e => do
      return (← keyWord d e) ++ "/" ++ Output.Hurl.placeholder e.name) (.ok (key.map fun c =>
        Output.Hurl.keyWord d c ++ "/" ++ Output.Hurl.placeholder c.name)) := by
    rw [List.mapM_map]
    exact Looks.mapM fun c hc => (looks_keyWord hd (hkey c hc)).returning rfl
  match key with
  | [] => exact hparts.returning rfl
  | [c] => exact .pure _
  | first :: second :: rest => exact hparts.returning rfl

theorem looks_assertLines :
    Looks d (assertLines d entity) (.ok (Output.Hurl.assertLines d entity)) := by
  apply (looks_validEntries hd entity).bind
  refine (looks_mapM fun c hc =>
    assertLine?_eq (hd.finds_of_mem_validColumns hc)).returning ?_
  rw [List.filterMap_map, Function.id_comp, Output.Hurl.assertLines]

theorem looks_rowLines (s : Schema) (e : Entity) (body : String) {key : List Column}
    (hkey : ∀ c ∈ key, d.Finds c) :
    Looks d (rowLines d s e body (key.map d.entry))
      (.ok (Output.Hurl.rowLines d s e body key)) := by
  apply (looks_keyAddress hd hkey).bind
  refine (looks_assertLines hd e.id).returning ?_
  rw [List.map_map]
  rfl

theorem looks_fileLines (s : Schema) (e : Entity) (body : String) :
    Looks d (fileLines d s e body) (.ok (Output.Hurl.fileLines d s e body)) := by
  apply (looks_primary hd e.id).bind
  have hrow := looks_rowLines hd s e body fun c (hc : c ∈ d.primary e.id) =>
    hd.finds_of_mem_primary hc
  unfold Output.Hurl.fileLines
  cases hkey : d.primary e.id with
  | nil =>
      rw [List.append_nil]
      exact .pure _
  | cons c cs =>
      rw [hkey] at hrow
      exact hrow.returning rfl

theorem looks_entityFile (s : Schema) (e : Entity) :
    Looks d (entityFile d s e) (Output.Hurl.entityFile d s e) :=
  (looks_bodyMembers hd e.id).mapExcept fun members =>
    (looks_fileLines hd s e (Output.Hurl.bodyText members)).returning rfl

theorem looks_generate : Looks d (generate d) (Output.Hurl.generate d) :=
  (Looks.mapMExcept fun (s, e) _ => looks_entityFile hd s e).mapExcept fun _ => .pure _

end Hurl

theorem looks_generate (hd : d.HandlesSound) (b : Backend) :
    Looks d (generate d b) (b.generate d) := by
  cases b with
  | go => exact Go.looks_generate hd
  | postgres => exact Postgres.looks_generate hd
  | hurl => exact Hurl.looks_generate hd

end Lookup

end Blueprint
