import Blueprint.Document.Resolve
import Mathlib.Data.List.Nodup

/-! # Changes in place

Most changes of a document replace entities where they stand and keep their handles
and names. Such a change leaves the outline alone: the handles and names of schemas
and entities. What a written name means depends on the outline only.
-/

namespace Blueprint

/-- Changing the one element of a key changes nothing else. -/
theorem map_update_of_nodup {α β : Type} [DecidableEq β] {key : α → β} {f : α → α}
    {before after : List α} {x : α} (hnodup : ((before ++ x :: after).map key).Nodup) :
    ((before ++ x :: after).map fun y => if key y = key x then f y else y) =
      before ++ f x :: after := by
  simp only [List.map_append, List.map_cons, List.nodup_append, List.nodup_cons,
    List.mem_map, List.mem_cons] at hnodup
  obtain ⟨_, ⟨hafter, _⟩, hbefore⟩ := hnodup
  have hleft : ∀ y ∈ before, (if key y = key x then f y else y) = y := by
    intro y hy
    exact if_neg (hbefore _ ⟨y, hy, rfl⟩ _ (Or.inl rfl))
  have hright : ∀ y ∈ after, (if key y = key x then f y else y) = y := by
    intro y hy
    exact if_neg fun heq => hafter ⟨y, hy, heq⟩
  rw [List.map_append, List.map_cons, if_pos rfl, List.map_congr_left hleft,
    List.map_congr_left hright]
  simp only [List.map_id']

/-- The element of a key is found under it. -/
theorem find?_eq_some_of_nodup {α β : Type} [DecidableEq β] {key : α → β} {l : List α} {x : α}
    (hnodup : (l.map key).Nodup) (hx : x ∈ l) : l.find? (key · = key x) = some x := by
  induction l with
  | nil => simp at hx
  | cons y l ih =>
      simp only [List.map_cons, List.nodup_cons, List.mem_map] at hnodup
      rcases List.mem_cons.mp hx with rfl | hx
      · simp
      · have hne : key y ≠ key x := fun heq => hnodup.1 ⟨x, hx, heq.symm⟩
        simp only [List.find?_cons, hne, decide_false]
        exact ih hnodup.2 hx

/-- The element that holds the only child of a key is found by it. -/
theorem find?_any_eq_some_of_nodup {α β γ : Type} [DecidableEq γ] {children : α → List β}
    {key : β → γ} {l : List α} {x : α} {y : β} (hnodup : ((l.flatMap children).map key).Nodup)
    (hx : x ∈ l) (hy : y ∈ children x) :
    (l.find? fun z => (children z).any (key · = key y)) = some x := by
  induction l with
  | nil => simp at hx
  | cons z l ih =>
      simp only [List.flatMap_cons, List.map_append, List.nodup_append] at hnodup
      obtain ⟨_, hrest, hdisjoint⟩ := hnodup
      rcases List.mem_cons.mp hx with rfl | hx
      · have hhead : (children x).any (key · = key y) := List.any_eq_true.mpr ⟨y, hy, by simp⟩
        simp only [List.find?_cons, hhead]
      · have hmem : key y ∈ (l.flatMap children).map key :=
          List.mem_map.mpr ⟨y, List.mem_flatMap.mpr ⟨x, hx, hy⟩, rfl⟩
        have hhead : (children z).any (key · = key y) = false := by
          simp only [List.any_eq_false, decide_eq_true_eq]
          exact fun w hw heq => hdisjoint _ (List.mem_map.mpr ⟨w, hw, rfl⟩) _ hmem heq
        simp only [List.find?_cons, hhead]
        exact ih hrest hx

/-- An element is the first to pass a test if none before it does. -/
theorem find?_map_eq_some_iff_of_nodup {α β : Type} {key : α → β} {p : α → Bool}
    {before after : List α} {x : α} (hnodup : ((before ++ x :: after).map key).Nodup) (hx : p x) :
    ((before ++ x :: after).find? p).map key = some (key x) ↔ ∀ y ∈ before, ¬ p y := by
  rw [List.find?_append, List.find?_cons_of_pos hx]
  cases hfound : before.find? p with
  | none => simpa using List.find?_eq_none.mp hfound
  | some y =>
      have hy := List.mem_of_find?_eq_some hfound
      have hne : key y ≠ key x := by
        rw [List.map_append, List.nodup_append] at hnodup
        exact hnodup.2.2 _ (List.mem_map_of_mem hy) _ (by simp)
      constructor
      · intro heq
        exact absurd (Option.some.inj heq) hne
      · intro hnone
        exact absurd (List.find?_some hfound) (hnone y hy)

/-- Two elements of one key are the same. -/
theorem eq_of_key_eq {α β : Type} [DecidableEq β] {key : α → β} {l : List α} {x y : α}
    (hnodup : (l.map key).Nodup) (hx : x ∈ l) (hy : y ∈ l) (heq : key x = key y) : x = y := by
  have hfound := find?_eq_some_of_nodup hnodup hx
  rw [heq, find?_eq_some_of_nodup hnodup hy] at hfound
  exact (Option.some.inj hfound).symm

/-- The children of one node have different keys if all children have. -/
theorem nodup_children {α β γ : Type} {children : α → List β} {key : β → γ} {l : List α} {x : α}
    (hnodup : ((l.flatMap children).map key).Nodup) (hx : x ∈ l) :
    ((children x).map key).Nodup := by
  rw [List.map_flatMap] at hnodup
  exact (List.nodup_flatMap.mp hnodup).1 x hx

namespace Document

variable {d d' : Document}

/-! ### Nodes after a change -/

@[simp] theorem entities_mapEntities (f : Entity → Entity) :
    (d.mapEntities f).entities = d.entities.map f := by
  simp only [entities, mapEntities, List.flatMap_map, List.map_flatMap]

theorem members_mapEntities (f : Entity → Entity) :
    (d.mapEntities f).members = d.entities.flatMap fun e => (f e).attributes := by
  simp only [members, entities_mapEntities, List.flatMap_map]

@[simp] theorem members_mapMembers (f : Member → Member) :
    (d.mapMembers f).members = d.members.map f := by
  rw [mapMembers, members_mapEntities, members, List.map_flatMap]

theorem mem_members {m : Member} : m ∈ d.members ↔ ∃ e ∈ d.entities, m ∈ e.attributes :=
  List.mem_flatMap

theorem mem_entities {e : Entity} : e ∈ d.entities ↔ ∃ s ∈ d.schemas, e ∈ s.entities :=
  List.mem_flatMap

theorem mapEntities_congr {f g : Entity → Entity} (h : ∀ e ∈ d.entities, f e = g e) :
    d.mapEntities f = d.mapEntities g := by
  have hschemas : ∀ s ∈ d.schemas, { s with entities := s.entities.map f } =
      { s with entities := s.entities.map g } := by
    intro s hs
    rw [List.map_congr_left fun e he => h e (mem_entities.mpr ⟨s, hs, he⟩)]
  simp only [mapEntities, List.map_congr_left hschemas]

theorem mapEntities_id : d.mapEntities (fun e => e) = d := by
  simp only [mapEntities, List.map_id']

theorem mapMembers_congr {f g : Member → Member} (h : ∀ m ∈ d.members, f m = g m) :
    d.mapMembers f = d.mapMembers g := by
  apply mapEntities_congr
  intro e he
  rw [List.map_congr_left fun m hm => h m (mem_members.mpr ⟨e, he, hm⟩)]

theorem mapMembers_eq_self {f : Member → Member} (h : ∀ m ∈ d.members, f m = m) :
    d.mapMembers f = d := by
  rw [mapMembers_congr h, mapMembers]
  simp only [List.map_id', mapEntities_id]

theorem mapMembers_mapMembers (f g : Member → Member) :
    (d.mapMembers f).mapMembers g = d.mapMembers fun m => g (f m) := by
  simp only [mapMembers, mapEntities, List.map_map, Function.comp_def]

/-! ### The outline -/

/-- The schemas and entities of a document without their attributes. -/
def outline (d : Document) : List Schema :=
  (d.mapEntities fun e => { e with attributes := [] }).schemas

/-- Whether a change of entities keeps their handles and names. -/
def KeepsOutline (f : Entity → Entity) : Prop :=
  ∀ e, (f e).id = e.id ∧ (f e).name = e.name

theorem outline_mapEntities {f : Entity → Entity} (hf : KeepsOutline f) :
    (d.mapEntities f).outline = d.outline := by
  simp only [outline, mapEntities, List.map_map, Function.comp_def, (hf _).1, (hf _).2]

theorem keepsOutline_attributes (f : Entity → List Member) :
    KeepsOutline fun e => { e with attributes := f e } :=
  fun _ => ⟨rfl, rfl⟩

theorem outline_mapMembers (f : Member → Member) : (d.mapMembers f).outline = d.outline :=
  outline_mapEntities (keepsOutline_attributes _)

theorem outline_modifyMember (id : AttrId) (f : Member → Member) :
    (d.modifyMember id f).outline = d.outline :=
  outline_mapMembers _

theorem outline_distinguish (id : AttrId) : (d.distinguish id).outline = d.outline :=
  outline_mapEntities (keepsOutline_attributes _)

/-! ### Lookups -/

theorem entity?_mapEntities {f : Entity → Entity} (hf : KeepsOutline f) (id : EntityId) :
    (d.mapEntities f).entity? id = (d.entity? id).map f := by
  simp only [entity?, entities_mapEntities, List.find?_map, Function.comp_def, (hf _).1]

theorem schemaOf?_mapEntities {f : Entity → Entity} (hf : KeepsOutline f) (id : EntityId) :
    (d.mapEntities f).schemaOf? id =
      (d.schemaOf? id).map fun s => { s with entities := s.entities.map f } := by
  simp only [schemaOf?, mapEntities, List.find?_map, Function.comp_def, List.any_map, (hf _).1]

theorem qualifiedName_mapEntities {f : Entity → Entity} (hf : KeepsOutline f) (id : EntityId) :
    (d.mapEntities f).qualifiedName id = d.qualifiedName id := by
  rw [qualifiedName, qualifiedName, entity?_mapEntities hf, schemaOf?_mapEntities hf]
  cases d.entity? id with
  | none => rfl
  | some e => cases d.schemaOf? id <;> simp only [Option.map, (hf e).2]

theorem findEntity?_mapEntities {f : Entity → Entity} (hf : KeepsOutline f)
    (schema name : String) :
    (d.mapEntities f).findEntity? schema name = (d.findEntity? schema name).map f := by
  simp only [findEntity?, findSchema?, mapEntities, List.find?_map, Function.comp_def]
  cases d.schemas.find? (·.name = schema) with
  | none => rfl
  | some s => simp only [Option.map, Option.bind, List.find?_map, Function.comp_def, (hf _).2]

theorem findTarget?_mapEntities {f : Entity → Entity} (hf : KeepsOutline f) (name : String) :
    (d.mapEntities f).findTarget? name = d.findTarget? name := by
  simp only [findTarget?, entityByHandle?, entity?_mapEntities hf, Option.isSome_map,
    qualifiedName_mapEntities hf, findEntity?_mapEntities hf, entities_mapEntities,
    List.find?_map, Function.comp_def, (hf _).1, (hf _).2, Option.map_map]

/-- What a written name means is a matter of the outline. -/
theorem findTarget?_congr (houtline : d.outline = d'.outline) (name : String) :
    d.findTarget? name = d'.findTarget? name := by
  have hstrip := keepsOutline_attributes fun _ => []
  rw [← findTarget?_mapEntities hstrip, ← findTarget?_mapEntities (d := d') hstrip]
  simp only [outline] at houtline
  simp only [findTarget?, entityByHandle?, entity?, entities, qualifiedName, schemaOf?,
    findEntity?, findSchema?, houtline]

theorem resolved_congr (houtline : d.outline = d'.outline) : d.resolved = d'.resolved := by
  funext m
  simp only [resolved, findTarget?_congr houtline]

end Document

end Blueprint
