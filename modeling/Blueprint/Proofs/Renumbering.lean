import Blueprint.Relation
import Mathlib.Logic.Function.Basic

/-! # Renumbering

The handles of a document can be exchanged for others, as long as different handles
stay different. What is derived from a document is exchanged along with it, and what
holds no handle stays the same.
-/

namespace Blueprint

/-- An exchange of handles that keeps different ones apart. -/
structure Renumbering where
  apply : {sort : NodeSort} → Handle sort → Handle sort
  injective : ∀ sort, Function.Injective (@apply sort)

namespace Renumbering

variable {ρ : Renumbering} {sort : NodeSort} {h h' : Handle sort}

@[simp] theorem apply_inj : ρ.apply h = ρ.apply h' ↔ h = h' :=
  (ρ.injective sort).eq_iff

end Renumbering

def Member.renumber (ρ : Renumbering) (m : Member) : Member :=
  { m with id := ρ.apply m.id, target := m.target.map ρ.apply }

def Entity.renumber (ρ : Renumbering) (e : Entity) : Entity :=
  ⟨ρ.apply e.id, e.name, e.attributes.map (Member.renumber ρ)⟩

def Schema.renumber (ρ : Renumbering) (s : Schema) : Schema :=
  ⟨ρ.apply s.id, s.name, s.entities.map (Entity.renumber ρ)⟩

def Column.renumber (ρ : Renumbering) (c : Column) : Column :=
  ⟨ρ.apply c.root, c.hops.map (Member.renumber ρ), c.terminal.renumber ρ, ρ.apply c.owner⟩

def Field.renumber (ρ : Renumbering) : Field → Field
  | valid c => .valid (c.renumber ρ)
  | invalid name defects => .invalid name defects

def Relation.renumber (ρ : Renumbering) (r : Relation) : Relation :=
  { r with base := ρ.apply r.base, has := ρ.apply r.has, assoc := r.assoc.map ρ.apply }

/-! ### Members and columns -/

namespace Member

variable (ρ : Renumbering) (m : Member)

@[simp] theorem renumber_id : (m.renumber ρ).id = ρ.apply m.id := rfl

@[simp] theorem renumber_target : (m.renumber ρ).target = m.target.map ρ.apply := rfl

@[simp] theorem renumber_primary : (m.renumber ρ).primary = m.primary := rfl

@[simp] theorem renumber_isReference : (m.renumber ρ).isReference = m.isReference := rfl

@[simp] theorem renumber_segment : (m.renumber ρ).segment = m.segment := rfl

@[simp] theorem renumber_hasDefect : (m.renumber ρ).hasDefect = m.hasDefect := rfl

@[simp] theorem renumber_defectText : (m.renumber ρ).defectText = m.defectText := rfl

end Member

namespace Column

variable (ρ : Renumbering) (c : Column)

@[simp] theorem renumber_owner : (c.renumber ρ).owner = ρ.apply c.owner := rfl

@[simp] theorem renumber_terminal : (c.renumber ρ).terminal = c.terminal.renumber ρ := rfl

@[simp] theorem renumber_isDirect : (c.renumber ρ).isDirect = c.isDirect := by
  simp [isDirect, renumber]

@[simp] theorem renumber_source : (c.renumber ρ).source = c.source.renumber ρ := by
  cases hhops : c.hops <;> simp [source, renumber, hhops]

@[simp] theorem renumber_via? : (c.renumber ρ).via? = c.via?.map ρ.apply := by
  cases hhops : c.hops <;> simp [via?, renumber, hhops]

@[simp] theorem renumber_segments : (c.renumber ρ).segments = c.segments := by
  simp [segments, renumber]

@[simp] theorem renumber_name : (c.renumber ρ).name = c.name := by
  simp [name]

@[simp] theorem renumber_viaColumn? : (c.renumber ρ).viaColumn? = c.viaColumn? := by
  simp [viaColumn?]

@[simp] theorem renumber_isValid : (c.renumber ρ).isValid = c.isValid := by
  simp [isValid]

@[simp] theorem renumber_storageKind : (c.renumber ρ).storageKind = c.storageKind := by
  simp only [storageKind, renumber_isDirect]
  rfl

end Column

theorem Field.ofColumn_renumber (ρ : Renumbering) (c : Column) :
    Field.ofColumn (c.renumber ρ) = (Field.ofColumn c).renumber ρ := by
  unfold Field.ofColumn
  rw [Column.renumber_isValid]
  split
  · rfl
  · simp [Field.renumber]

theorem Field.column?_renumber (ρ : Renumbering) (f : Field) :
    (f.renumber ρ).column? = f.column?.map (Column.renumber ρ) := by
  cases f <;> rfl

/-! ### Lists -/

/-- Keys that agree on the same elements keep the same first ones. -/
theorem distinctBy_map {α β γ δ : Type} [DecidableEq γ] [DecidableEq δ] {key : α → γ}
    {key' : β → δ} {f : α → β} (hkey : ∀ x y, key' (f x) = key' (f y) ↔ key x = key y)
    (l : List α) : distinctBy key' (l.map f) = (distinctBy key l).map f := by
  induction l with
  | nil => rfl
  | cons x l ih => simp only [List.map_cons, distinctBy, ih, List.filter_map, Function.comp_def,
      ne_eq, hkey]

theorem orderedPairs_map {α β : Type} (f : α → β) (l : List α) :
    orderedPairs (l.map f) = (orderedPairs l).map (Prod.map f f) := by
  induction l with
  | nil => rfl
  | cons x l ih => simp [orderedPairs, ih]

namespace Document

/-! ### Documents -/

/-- Whether the second document is the first with its handles exchanged. How many handles
were issued is not compared. -/
structure Renumbers (ρ : Renumbering) (d d' : Document) : Prop where
  schemas : d'.schemas = d.schemas.map (Schema.renumber ρ)
  maxDepth : d'.maxDepth = d.maxDepth

namespace Renumbers

variable {ρ : Renumbering} {d d' : Document}

theorem entities (h : Renumbers ρ d d') : d'.entities = d.entities.map (Entity.renumber ρ) := by
  simp only [Document.entities, h.schemas, List.flatMap_map, List.map_flatMap, Schema.renumber]

theorem entity? (h : Renumbers ρ d d') (id : EntityId) :
    d'.entity? (ρ.apply id) = (d.entity? id).map (Entity.renumber ρ) := by
  simp only [Document.entity?, h.entities, List.find?_map, Function.comp_def, Entity.renumber,
    Renumbering.apply_inj]

theorem attributesOf (h : Renumbers ρ d d') (id : EntityId) :
    d'.attributesOf (ρ.apply id) = (d.attributesOf id).map (Member.renumber ρ) := by
  simp only [Document.attributesOf, h.entity?]
  cases d.entity? id <;> rfl

theorem schemaOf? (h : Renumbers ρ d d') (id : EntityId) :
    d'.schemaOf? (ρ.apply id) = (d.schemaOf? id).map (Schema.renumber ρ) := by
  simp only [Document.schemaOf?, h.schemas, List.find?_map, Function.comp_def, Schema.renumber,
    List.any_map, Entity.renumber, Renumbering.apply_inj]

theorem entityName (h : Renumbers ρ d d') (id : EntityId) :
    d'.entityName (ρ.apply id) = d.entityName id := by
  simp only [Document.entityName, h.entity?, Option.map_map, Function.comp_def, Entity.renumber]

theorem qualifiedName (h : Renumbers ρ d d') (id : EntityId) :
    d'.qualifiedName (ρ.apply id) = d.qualifiedName id := by
  simp only [Document.qualifiedName, h.entity?, h.schemaOf?]
  cases d.entity? id with
  | none => rfl
  | some e => cases d.schemaOf? id <;> rfl

/-! ### Columns and fields -/

theorem columnsFrom (h : Renumbers ρ d d') (root : EntityId) (depth : Nat) (hops : List Member)
    (entity : EntityId) :
    d'.columnsFrom (ρ.apply root) depth (hops.map (Member.renumber ρ)) (ρ.apply entity) =
      (d.columnsFrom root depth hops entity).map (Column.renumber ρ) := by
  induction depth generalizing hops entity with
  | zero => rfl
  | succ depth ih =>
      simp only [Document.columnsFrom, h.attributesOf, List.flatMap_map, List.map_flatMap]
      congr 1
      funext m
      rw [List.isEmpty_map, Member.renumber_primary, Member.renumber_isReference,
        Member.renumber_target]
      cases !hops.isEmpty && !m.primary with
      | true => rfl
      | false =>
          cases m.isReference with
          | false => rfl
          | true =>
              cases m.target with
              | none => rfl
              | some target => simpa using ih (hops ++ [m]) target

theorem columns (h : Renumbers ρ d d') (entity : EntityId) :
    d'.columns (ρ.apply entity) = (d.columns entity).map (Column.renumber ρ) := by
  rw [Document.columns, Document.columns, h.maxDepth]
  exact h.columnsFrom entity d.maxDepth [] entity

theorem primary (h : Renumbers ρ d d') (entity : EntityId) :
    d'.primary (ρ.apply entity) = (d.primary entity).map (Column.renumber ρ) := by
  simp only [Document.primary, h.columns, List.filter_map, Function.comp_def,
    Column.renumber_isValid, Column.renumber_source, Member.renumber_primary]

theorem isComposite (h : Renumbers ρ d d') (entity : EntityId) :
    d'.isComposite (ρ.apply entity) = d.isComposite entity := by
  simp only [Document.isComposite, h.primary, List.length_map]

theorem labelled (h : Renumbers ρ d d') (entity : EntityId) :
    d'.labelled (ρ.apply entity) =
      (d.labelled entity).map (Prod.map (fun label => label) (Column.renumber ρ)) := by
  simp only [Document.labelled, h.columns, List.filter_map, Function.comp_def,
    Column.renumber_isValid, List.flatMap_map, List.map_flatMap, Column.renumber_source,
    List.map_map]
  rfl

theorem uniqueGroups (h : Renumbers ρ d d') (entity : EntityId) :
    d'.uniqueGroups (ρ.apply entity) =
      (d.uniqueGroups entity).map
        (Prod.map (fun label => label) (List.map (Column.renumber ρ))) := by
  simp only [Document.uniqueGroups, h.labelled, List.map_map, Function.comp_def, Prod.map_fst,
    Prod.map_snd, List.filter_map, Prod.map_apply]

theorem fields (h : Renumbers ρ d d') (entity : EntityId) :
    d'.fields (ρ.apply entity) = (d.fields entity).map (Field.renumber ρ) := by
  simp only [Document.fields, h.columns, h.attributesOf, List.flatMap_map, List.map_flatMap]
  congr 1
  funext m
  simp only [Member.renumber_hasDefect, Member.renumber_segment, Member.renumber_defectText,
    Member.renumber_id, List.filter_map, Function.comp_def, Column.renumber_source,
    Renumbering.apply_inj, List.map_map, Field.ofColumn_renumber]
  split
  · rfl
  · simp only [List.map_map, Function.comp_def]

theorem validColumns (h : Renumbers ρ d d') (entity : EntityId) :
    d'.validColumns (ρ.apply entity) = (d.validColumns entity).map (Column.renumber ρ) := by
  simp only [Document.validColumns, h.fields, List.filterMap_map, List.map_filterMap,
    Function.comp_def, Field.column?_renumber]

/-! ### Relations -/

theorem keyOwners (h : Renumbers ρ d d') (entity : EntityId) :
    d'.keyOwners (ρ.apply entity) = (d.keyOwners entity).map ρ.apply := by
  rw [Document.keyOwners, Document.keyOwners, h.primary, List.map_map]
  have hmap : (d.primary entity).map (Column.owner ∘ Column.renumber ρ) =
      ((d.primary entity).map Column.owner).map ρ.apply := by simp [Function.comp_def]
  rw [hmap]
  apply distinctBy_map
  exact fun _ _ => Renumbering.apply_inj

theorem referenceColumns (h : Renumbers ρ d d') (entity : EntityId) :
    d'.referenceColumns (ρ.apply entity) =
      (d.referenceColumns entity).map (Column.renumber ρ) := by
  simp only [Document.referenceColumns, h.columns, List.filter_map, Function.comp_def,
    Column.renumber_isDirect]

theorem forwardRelations (h : Renumbers ρ d d') (entity : EntityId) :
    d'.forwardRelations (ρ.apply entity) =
      (d.forwardRelations entity).map (Relation.renumber ρ) := by
  simp only [Document.forwardRelations, h.isComposite, h.keyOwners, h.referenceColumns]
  split
  · simp [orderedPairs_map, Function.comp_def, Relation.renumber]
  · simp only [List.map_map, Function.comp_def, Column.renumber_source]
    rfl

theorem reverseRelations (h : Renumbers ρ d d') (entity : EntityId) :
    d'.reverseRelations (ρ.apply entity) =
      (d.reverseRelations entity).map (Relation.renumber ρ) := by
  simp only [Document.reverseRelations, h.isComposite, h.referenceColumns]
  split
  · rfl
  · simp only [List.map_map, Function.comp_def]
    rfl

theorem relations (h : Renumbers ρ d d') :
    d'.relations = d.relations.map (Relation.renumber ρ) := by
  have hsuggested : d'.suggestedRelations = d.suggestedRelations.map (Relation.renumber ρ) := by
    simp only [Document.suggestedRelations, h.entities, List.flatMap_map, Entity.renumber,
      h.forwardRelations, h.reverseRelations, List.map_append, List.map_flatMap]
  rw [Document.relations, Document.relations, hsuggested]
  apply distinctBy_map
  intro r r'
  simp [Relation.renumber]

theorem withBase (entity : EntityId) (relations : List Relation) :
    Relation.withBase (ρ.apply entity) (relations.map (Relation.renumber ρ)) =
      (Relation.withBase entity relations).map (Relation.renumber ρ) := by
  simp only [Relation.withBase, List.filter_map, Function.comp_def, Relation.renumber,
    Renumbering.apply_inj]

theorem hasName (h : Renumbers ρ d d') (r : Relation) :
    (r.renumber ρ).hasName d' = r.hasName d := by
  simp [Relation.hasName, Relation.renumber, h.entityName]

end Renumbers

end Document

end Blueprint
