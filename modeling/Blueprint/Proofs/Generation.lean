import Blueprint.Output.Backend
import Blueprint.Proofs.Renumbering
import Blueprint.Proofs.TableOrder

/-! # Generated files and handles

No backend writes a handle. Foreign keys come in the order of the handles of their references,
and the loop over the levels visits tables in the order of theirs. But handles increase along
the attributes of an entity, and the levels do not depend on the order of the visits. So a
document and the same document with its handles exchanged generate the same files.
-/

namespace Blueprint.Output

open Document

variable {ρ : Renumbering} {d d' : Document}

/-! ### Go -/

namespace Go

theorem cells_renumber (c : Column) : cells (c.renumber ρ) = cells c := by
  simp only [cells, fieldName, fieldType, fieldTag, Column.renumber_name,
    Column.renumber_storageKind, Column.renumber_source]
  rfl

theorem interleave_map {α β : Type} {comment? : β → Option String} (f : α → β)
    (aligned : List String) (fields : List α) :
    interleave comment? aligned (fields.map f) = interleave (fun x => comment? (f x)) aligned fields := by
  induction fields generalizing aligned with
  | nil => rfl
  | cons field fields ih =>
      simp only [List.map_cons, interleave]
      cases comment? (f field) with
      | some comment => simp only [ih]
      | none => cases aligned <;> simp only [ih]

theorem describe_renumber (h : Renumbers ρ d d') (r : Relation) :
    describe d' (r.renumber ρ) = describe d r := by
  unfold describe
  rw [h.hasName]
  cases hassoc : r.assoc <;>
    simp only [Relation.renumber, hassoc, h.entityName, Option.map, relationText]

theorem bodyLines_renumber (fields : List Field) :
    bodyLines (fields.map (Field.renumber ρ)) = bodyLines fields := by
  have hcomment : ∀ f, comment? (Field.renumber ρ f) = comment? f := by
    intro f
    cases f <;> rfl
  simp only [bodyLines, interleave_map, hcomment, List.filterMap_map, List.map_filterMap,
    Function.comp_def, Field.column?_renumber, Option.map_map, cells_renumber]

theorem structLines_renumber (h : Renumbers ρ d d') (relations : List Relation) (e : Entity) :
    structLines d' (relations.map (Relation.renumber ρ)) (e.renumber ρ) =
      structLines d relations e := by
  simp only [structLines, Entity.renumber, Renumbers.withBase, List.map_map, Function.comp_def,
    describe_renumber h, h.fields, bodyLines_renumber]

theorem usesTime_renumber (h : Renumbers ρ d d') (s : Schema) :
    usesTime d' (s.renumber ρ) = usesTime d s := by
  simp only [usesTime, Schema.renumber, List.any_map, Function.comp_def, Entity.renumber,
    h.validColumns, Column.renumber_storageKind]

theorem generate_renumber (h : Renumbers ρ d d') : generate d' = generate d := by
  have hlines : ∀ s : Schema, fileLines d' (d.relations.map (Relation.renumber ρ)) (s.renumber ρ) =
      fileLines d d.relations s := by
    intro s
    simp only [fileLines, usesTime_renumber h]
    simp only [Schema.renumber, List.flatMap_map, structLines_renumber h]
  simp only [generate, h.relations, h.schemas, List.map_map, Function.comp_def, hlines]
  rfl

end Go

/-! ### Postgres -/

namespace Postgres

def ForeignKey.renumber (ρ : Renumbering) (key : ForeignKey) : ForeignKey :=
  { key with via := ρ.apply key.via }

theorem columnText_renumber (c : Column) : columnText (c.renumber ρ) = columnText c := by
  simp only [columnText, fieldName, Column.renumber_name, Column.renumber_storageKind,
    Column.renumber_source, Column.renumber_isDirect, Column.renumber_terminal]
  rfl

theorem ofColumns?_renumber (columns : List Column) :
    ForeignKey.ofColumns? (columns.map (Column.renumber ρ)) =
      (ForeignKey.ofColumns? columns).map (ForeignKey.renumber ρ) := by
  cases columns with
  | nil => rfl
  | cons c rest =>
      rw [List.map_cons, ForeignKey.ofColumns?, ForeignKey.ofColumns?, Column.renumber_via?,
        ← List.map_cons]
      simp only [Option.map_map, Function.comp_def, List.map_map, Column.renumber_name,
        List.filterMap_map, Column.renumber_viaColumn?, ForeignKey.renumber]

/-- The keys come in the order of the attributes, which an exchange of handles keeps. -/
theorem foreignKeys_renumber (h : Renumbers ρ d d') (hd : d.HandlesSound) (hordered : d.Ordered)
    (hd' : d'.HandlesSound) (hordered' : d'.Ordered) (entity : EntityId) :
    foreignKeys d' (ρ.apply entity) = (foreignKeys d entity).map (ForeignKey.renumber ρ) := by
  have hkey : ∀ m : Member, foreignKeyOf? d' (ρ.apply entity) (m.renumber ρ) =
      (foreignKeyOf? d entity m).map (ForeignKey.renumber ρ) := by
    intro m
    simp only [foreignKeyOf?, h.validColumns, List.filter_map, Function.comp_def,
      Column.renumber_isDirect, Column.renumber_source, Member.renumber_id, Renumbering.apply_inj,
      ofColumns?_renumber]
  rw [foreignKeys_eq_filterMap hd hordered, foreignKeys_eq_filterMap hd' hordered',
    h.attributesOf, List.filterMap_map, List.map_filterMap]
  simp only [Function.comp_def, hkey]

theorem items_renumber (h : Renumbers ρ d d') (hd : d.HandlesSound) (hordered : d.Ordered)
    (hd' : d'.HandlesSound) (hordered' : d'.Ordered) (entity : EntityId) :
    items d' (ρ.apply entity) = items d entity := by
  have hfield : ∀ f, Item.ofField (Field.renumber ρ f) = Item.ofField f := by
    intro f
    cases f with
    | valid c => simp only [Field.renumber, Item.ofField, columnText_renumber]
    | invalid name defects => rfl
  have hkey : keyItems d' (ρ.apply entity) = keyItems d entity := by
    simp only [keyItems, h.primary, List.map_map, Function.comp_def, Column.renumber_name]
  have hunique : uniqueItems d' (ρ.apply entity) = uniqueItems d entity := by
    simp only [uniqueItems, h.uniqueGroups, List.map_map, Function.comp_def, Prod.map_snd,
      Column.renumber_name]
  have hforeign : ∀ key, foreignKeyText d' (ForeignKey.renumber ρ key) = foreignKeyText d key := by
    intro key
    exact congrArg (fun name => "FOREIGN KEY " ++ columnList key.columns ++ " REFERENCES " ++
      name ++ " " ++ columnList key.targets) (h.qualifiedName key.via)
  rw [items, items, h.fields, hkey, hunique, foreignKeys_renumber h hd hordered hd' hordered',
    List.map_map, List.map_map]
  simp only [Function.comp_def, hfield, hforeign]

theorem dependencies_renumber (h : Renumbers ρ d d') (entity : EntityId) :
    dependencies d' (ρ.apply entity) = (dependencies d entity).map ρ.apply := by
  simp only [dependencies, h.columns, List.filterMap_map, Function.comp_def,
    Column.renumber_via?, ← List.map_filterMap, List.filter_map, ne_eq, Renumbering.apply_inj]

theorem placedWithin_renumber (h : Renumbers ρ d d') (rounds : Nat) (entity : EntityId) :
    placedWithin (dependencies d') rounds (ρ.apply entity) =
      placedWithin (dependencies d) rounds entity := by
  induction rounds generalizing entity with
  | zero => rfl
  | succ rounds ih =>
      simp only [placedWithin, dependencies_renumber h, List.all_map, Function.comp_def, ih]

/-- Levels depend on which entities are the same, not on their handles. -/
theorem lookup_levels_renumber (h : Renumbers ρ d d') {entity : EntityId}
    (hentity : entity ∈ d.entities.map Entity.id) :
    (levels d').lookup (ρ.apply entity) = (levels d).lookup entity := by
  have hentity' : ρ.apply entity ∈ d'.entities.map Entity.id := by
    rw [h.entities, List.map_map]
    obtain ⟨e, he, rfl⟩ := List.mem_map.mp hentity
    exact List.mem_map.mpr ⟨e, he, rfl⟩
  apply Option.ext
  intro n
  rw [lookup_levels hentity, lookup_levels hentity', HasLevel, HasLevel, placedWithin_renumber h,
    placedWithin_renumber h]

theorem tableOrder_renumber (h : Renumbers ρ d d') :
    tableOrder d' = (tableOrder d).map ρ.apply := by
  have hids : d'.entities.map Entity.id = (d.entities.map Entity.id).map ρ.apply := by
    rw [h.entities, List.map_map, List.map_map]
    rfl
  have hlength : d'.entities.length = d.entities.length := by
    rw [h.entities, List.length_map]
  have hfilter : ∀ level : Option Nat,
      ((d'.entities.map Entity.id).filter fun e => (levels d').lookup e = level) =
        ((d.entities.map Entity.id).filter fun e => (levels d).lookup e = level).map ρ.apply := by
    intro level
    rw [hids, List.filter_map]
    congr 1
    apply List.filter_congr
    intro e he
    simp only [Function.comp_apply, lookup_levels_renumber h he]
  rw [tableOrder_eq_levels, tableOrder_eq_levels, hlength, List.map_append, List.map_flatMap]
  simp only [hfilter]

theorem generate_renumber (h : Renumbers ρ d d') (hd : d.HandlesSound) (hordered : d.Ordered)
    (hd' : d'.HandlesSound) (hordered' : d'.Ordered) : generate d' = generate d := by
  have htable : ∀ entity, tableLines d' (ρ.apply entity) = tableLines d entity := by
    intro entity
    simp only [tableLines, h.qualifiedName, items_renumber h hd hordered hd' hordered']
  simp only [generate, fileLines, h.schemas, tableOrder_renumber h, List.flatMap_map, htable]
  rfl

end Postgres

/-! ### Hurl -/

namespace Hurl

theorem bodyMembers_renumber (h : Renumbers ρ d d') (entity : EntityId) :
    bodyMembers d' (ρ.apply entity) = bodyMembers d entity := by
  have hseed : ∀ c : Column, seed (c.renumber ρ) = seed c := by
    intro c
    simp only [seed, Column.renumber_storageKind, Column.renumber_terminal]
    rfl
  simp only [bodyMembers, sentColumns, h.validColumns, List.filter_map, Function.comp_def,
    Column.renumber_storageKind, List.mapM_map, hseed, fieldName, Column.renumber_name]

theorem keyAddress_renumber (h : Renumbers ρ d d') (key : List Column) :
    keyAddress d' (key.map (Column.renumber ρ)) = keyAddress d key := by
  have hword : ∀ c : Column, keyWord d' (c.renumber ρ) = keyWord d c := by
    intro c
    simp only [keyWord, Column.renumber_name, Column.renumber_owner, h.isComposite,
      Column.renumber_terminal]
    rfl
  have hparts : ∀ cs : List Column, (cs.map (Column.renumber ρ)).map
      (fun c => keyWord d' c ++ "/" ++ placeholder c.name) =
        cs.map fun c => keyWord d c ++ "/" ++ placeholder c.name := by
    intro cs
    simp only [List.map_map, Function.comp_def, hword, Column.renumber_name]
  match key with
  | [] => rfl
  | [c] => simp only [List.map_cons, List.map_nil, keyAddress, Column.renumber_name]
  | c :: c' :: rest => exact congrArg (Text.joinWith "/") (hparts (c :: c' :: rest))

theorem assertLines_renumber (h : Renumbers ρ d d') (entity : EntityId) :
    assertLines d' (ρ.apply entity) = assertLines d entity := by
  have hline : ∀ c : Column, assertLine? (c.renumber ρ) = assertLine? c := by
    intro c
    simp only [assertLine?, fieldName, Column.renumber_storageKind, Column.renumber_name]
  simp only [assertLines, h.validColumns, List.filterMap_map, Function.comp_def, hline]

theorem fileLines_renumber (h : Renumbers ρ d d') (s : Schema) (e : Entity) (body : String) :
    fileLines d' (s.renumber ρ) (e.renumber ρ) body = fileLines d s e body := by
  have hcreate : createLines d' (s.renumber ρ) (e.renumber ρ) body = createLines d s e body := by
    simp only [createLines, Entity.renumber, h.qualifiedName]
    rfl
  have hrow : ∀ key : List Column,
      rowLines d' (s.renumber ρ) (e.renumber ρ) body (key.map (Column.renumber ρ)) =
        rowLines d s e body key := by
    intro key
    simp only [rowLines, keyAddress_renumber h, Entity.renumber, assertLines_renumber h,
      List.map_map, Function.comp_def, captureLine, fieldName, Column.renumber_name]
    rfl
  simp only [fileLines, hcreate]
  congr 1
  have hprimary : d'.primary (e.renumber ρ).id = (d.primary e.id).map (Column.renumber ρ) :=
    h.primary e.id
  rw [hprimary]
  cases d.primary e.id with
  | nil => rfl
  | cons c rest => exact hrow (c :: rest)

theorem generate_renumber (h : Renumbers ρ d d') : generate d' = generate d := by
  have hfile : ∀ (s : Schema) (e : Entity),
      entityFile d' (s.renumber ρ) (e.renumber ρ) = entityFile d s e := by
    intro s e
    have hbody : bodyMembers d' (e.renumber ρ).id = bodyMembers d e.id :=
      bodyMembers_renumber h e.id
    simp only [entityFile, hbody, fileLines_renumber h]
    rfl
  have hplaced : placedEntities d' =
      (placedEntities d).map (Prod.map (Schema.renumber ρ) (Entity.renumber ρ)) := by
    simp only [placedEntities, h.schemas, List.flatMap_map, List.map_flatMap, List.map_map,
      Function.comp_def, Prod.map_apply]
    simp only [Schema.renumber, List.map_map, Function.comp_def]
  simp only [generate, hplaced, List.mapM_map, Function.comp_def, Prod.map_fst, Prod.map_snd, hfile]

end Hurl

/-- Generated files do not depend on handles, as long as they increase. -/
theorem Backend.generate_renumber (h : Renumbers ρ d d') (hd : d.HandlesSound)
    (hordered : d.Ordered) (hd' : d'.HandlesSound) (hordered' : d'.Ordered) (b : Backend) :
    b.generate d' = b.generate d := by
  cases b with
  | go => exact congrArg Except.ok (Go.generate_renumber h)
  | postgres => exact congrArg Except.ok (Postgres.generate_renumber h hd hordered hd' hordered')
  | hurl => exact Hurl.generate_renumber h

end Blueprint.Output
