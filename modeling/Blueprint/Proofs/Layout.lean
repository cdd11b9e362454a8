import Blueprint.Proofs.HandleOrder
import Blueprint.Proofs.Slots

/-! # The arena of a document

A document can be laid out in an arena, where each node stands in the slot of its handle,
lists its children and knows its parent. What is looked up there, what is listed in document
order and what is found by name is what the document has, and the document that the arena
stores is the document itself.
-/

namespace Blueprint

def Schema.node (s : Schema) : SchemaNode :=
  ⟨s.id, s.name, s.entities.map Entity.id⟩

def Entity.node (parent : SchemaId) (e : Entity) : EntityNode :=
  ⟨e.id, e.name, parent, e.attributes.map Member.id⟩

def Member.node (parent : EntityId) (m : Member) : AttrNode :=
  ⟨m, parent⟩

namespace Document

variable {d : Document}

/-! ### Nodes -/

def schemaNodes (d : Document) : List SchemaNode :=
  d.schemas.map Schema.node

def entityNodes (d : Document) : List EntityNode :=
  d.schemas.flatMap fun s => s.entities.map (Entity.node s.id)

def attrNodes (d : Document) : List AttrNode :=
  d.entities.flatMap fun e => e.attributes.map (Member.node e.id)

/-- The document laid out in slots. -/
def arena (d : Document) : Arena where
  schemas := .layOut SchemaNode.id d.schemaCount d.schemaNodes
  entities := .layOut EntityNode.id d.entityCount d.entityNodes
  attributes := .layOut (fun m => m.id) d.attrCount d.attrNodes
  maxDepth := d.maxDepth

theorem map_id_schemaNodes (d : Document) : d.schemaNodes.map SchemaNode.id = d.handles .schema := by
  simp only [schemaNodes, handles, List.map_map]
  rfl

theorem map_id_entityNodes (d : Document) : d.entityNodes.map EntityNode.id = d.handles .entity := by
  simp only [entityNodes, handles, entities, List.map_flatMap, List.map_map]
  rfl

theorem map_id_attrNodes (d : Document) :
    d.attrNodes.map (fun m => m.id) = d.handles .attr := by
  simp only [attrNodes, handles, members, List.map_flatMap, List.map_map]
  rfl

theorem map_toMember_attrNodes (d : Document) : d.attrNodes.map AttrNode.toMember = d.members := by
  simp only [attrNodes, members, List.map_flatMap, List.map_map]
  exact List.flatMap_congr fun e _ => List.map_id' _

theorem HandlesSound.fits (hd : d.HandlesSound) {sort : NodeSort} {α : Type}
    {key : α → Handle sort} {nodes : List α} (hnodes : nodes.map key = d.handles sort) :
    Slots.Fits key (d.issued sort) nodes where
  nodup := hnodes ▸ hd.nodup sort
  issued n hn := hd.issued sort (key n) (hnodes ▸ List.mem_map_of_mem hn)

theorem HandlesSound.fits_schemaNodes (hd : d.HandlesSound) :
    Slots.Fits SchemaNode.id d.schemaCount d.schemaNodes :=
  hd.fits d.map_id_schemaNodes

theorem HandlesSound.fits_entityNodes (hd : d.HandlesSound) :
    Slots.Fits EntityNode.id d.entityCount d.entityNodes :=
  hd.fits d.map_id_entityNodes

theorem HandlesSound.fits_attrNodes (hd : d.HandlesSound) :
    Slots.Fits (fun m => m.id) d.attrCount d.attrNodes :=
  hd.fits d.map_id_attrNodes

theorem mem_entityNodes {s : Schema} {e : Entity} (hs : s ∈ d.schemas) (he : e ∈ s.entities) :
    e.node s.id ∈ d.entityNodes :=
  List.mem_flatMap.mpr ⟨s, hs, List.mem_map_of_mem he⟩

theorem mem_attrNodes {e : Entity} {m : Member} (he : e ∈ d.entities) (hm : m ∈ e.attributes) :
    m.node e.id ∈ d.attrNodes :=
  List.mem_flatMap.mpr ⟨e, he, List.mem_map_of_mem hm⟩

/-! ### Lookups -/

section Lookups

variable (hd : d.HandlesSound)

include hd

theorem HandlesSound.arena_schema? (id : SchemaId) :
    d.arena.schema? id = (d.schema? id).map Schema.node := by
  rw [Arena.schema?, arena, Slots.find?_layOut hd.fits_schemaNodes, schemaNodes, List.find?_map]
  rfl

theorem HandlesSound.arena_schema?_of_some {id : SchemaId} {s : Schema}
    (hs : d.schema? id = some s) : d.arena.schema? id = some s.node := by
  rw [hd.arena_schema?, hs, Option.map_some]

theorem HandlesSound.arena_entity? (id : EntityId) :
    d.arena.entity? id = d.entityNodes.find? (·.id = id) := by
  rw [Arena.entity?, arena, Slots.find?_layOut hd.fits_entityNodes]

theorem HandlesSound.arena_attr? (id : AttrId) :
    d.arena.attr? id = d.attrNodes.find? (·.id = id) := by
  rw [Arena.attr?, arena, Slots.find?_layOut hd.fits_attrNodes]

theorem HandlesSound.arena_entity?_of_mem {s : Schema} {e : Entity} (hs : s ∈ d.schemas)
    (he : e ∈ s.entities) : d.arena.entity? e.id = some (e.node s.id) := by
  rw [hd.arena_entity?]
  exact find?_eq_some_of_nodup hd.fits_entityNodes.nodup (mem_entityNodes hs he)

theorem HandlesSound.arena_attr?_of_mem {e : Entity} {m : Member} (he : e ∈ d.entities)
    (hm : m ∈ e.attributes) : d.arena.attr? m.id = some (m.node e.id) := by
  rw [hd.arena_attr?]
  exact find?_eq_some_of_nodup hd.fits_attrNodes.nodup (mem_attrNodes he hm)

theorem HandlesSound.arena_entity?_of_some {id : EntityId} {e : Entity}
    (he : d.entity? id = some e) :
    ∃ s ∈ d.schemas, e ∈ s.entities ∧ d.arena.entity? id = some (e.node s.id) := by
  obtain ⟨hmem, rfl⟩ := mem_of_entity? he
  obtain ⟨s, hs, he⟩ := mem_entities.mp hmem
  exact ⟨s, hs, he, hd.arena_entity?_of_mem hs he⟩

theorem HandlesSound.arena_attr?_of_some {id : AttrId} {m : Member}
    (hm : d.member? id = some m) :
    ∃ e ∈ d.entities, m ∈ e.attributes ∧ d.arena.attr? id = some (m.node e.id) := by
  obtain ⟨hmem, rfl⟩ := mem_of_member? hm
  obtain ⟨e, he, hm⟩ := mem_members.mp hmem
  exact ⟨e, he, hm, hd.arena_attr?_of_mem he hm⟩

theorem HandlesSound.arena_entity?_of_none {id : EntityId} (hid : d.entity? id = none) :
    d.arena.entity? id = none := by
  rw [hd.arena_entity?, List.find?_eq_none]
  intro n hn
  obtain ⟨s, hs, hn⟩ := List.mem_flatMap.mp hn
  obtain ⟨e, he, rfl⟩ := List.mem_map.mp hn
  exact List.find?_eq_none.mp hid e (mem_entities.mpr ⟨s, hs, he⟩)

theorem HandlesSound.arena_attr?_of_none {id : AttrId} (hid : d.member? id = none) :
    d.arena.attr? id = none := by
  rw [hd.arena_attr?, List.find?_eq_none]
  intro n hn
  obtain ⟨e, he, hn⟩ := List.mem_flatMap.mp hn
  obtain ⟨m, hm, rfl⟩ := List.mem_map.mp hn
  exact List.find?_eq_none.mp hid m (mem_members.mpr ⟨e, he, hm⟩)

theorem HandlesSound.isSome_arena_entity? (id : EntityId) :
    (d.arena.entity? id).isSome = (d.entity? id).isSome := by
  cases he : d.entity? id with
  | none => rw [hd.arena_entity?_of_none he, Option.isSome_none, Option.isSome_none]
  | some e =>
      obtain ⟨s, _, _, hnode⟩ := hd.arena_entity?_of_some he
      rw [hnode]
      rfl

/-! ### Children -/

theorem HandlesSound.arena_entitiesOf {s : Schema} (hs : s ∈ d.schemas) :
    d.arena.entitiesOf s.id = s.entities.map (Entity.node s.id) := by
  rw [Arena.entitiesOf, hd.arena_schema?, hd.schema?_eq hs]
  simp only [Option.map_some, Schema.node, List.filterMap_map]
  rw [← List.filterMap_eq_map]
  exact List.filterMap_congr fun e he => hd.arena_entity?_of_mem hs he

theorem HandlesSound.arena_attributesOf {e : Entity} (he : e ∈ d.entities) :
    d.arena.attributesOf e.id = e.attributes.map (Member.node e.id) := by
  obtain ⟨s, hs, hlisted⟩ := mem_entities.mp he
  rw [Arena.attributesOf, hd.arena_entity?_of_mem hs hlisted]
  simp only [Entity.node, List.filterMap_map]
  rw [← List.filterMap_eq_map]
  exact List.filterMap_congr fun m hm => hd.arena_attr?_of_mem he hm

end Lookups

/-! ### Document order -/

section Ordered

variable (hd : d.HandlesSound) (hordered : d.Ordered)

include hd hordered

theorem HandlesSound.live_arena : d.arena.schemas.live = d.schemaNodes :=
  Slots.live_layOut hd.fits_schemaNodes (d.map_id_schemaNodes ▸ hordered.schemas)

theorem HandlesSound.arena_allEntities : d.arena.allEntities = d.entityNodes := by
  rw [Arena.allEntities, hd.live_arena hordered, schemaNodes, List.flatMap_map]
  exact List.flatMap_congr fun s hs => hd.arena_entitiesOf hs

theorem HandlesSound.arena_allAttributes : d.arena.allAttributes = d.attrNodes := by
  rw [Arena.allAttributes, hd.arena_allEntities hordered, entityNodes, List.flatMap_assoc,
    attrNodes, entities, List.flatMap_assoc]
  refine List.flatMap_congr fun s hs => ?_
  rw [List.flatMap_map]
  exact List.flatMap_congr fun e he => hd.arena_attributesOf (mem_entities.mpr ⟨s, hs, he⟩)

/-! ### Names -/

theorem HandlesSound.arena_findEntity? (schema name : String) :
    d.arena.findEntity? schema name = (d.findEntity? schema name).map Entity.id := by
  rw [Arena.findEntity?, Arena.findSchema?, hd.live_arena hordered, schemaNodes, List.find?_map,
    findEntity?, findSchema?]
  have hname : ((fun s : SchemaNode => decide (s.name = schema)) ∘ Schema.node) =
      fun s => decide (s.name = schema) := rfl
  rw [hname]
  cases hfound : d.schemas.find? fun s => decide (s.name = schema) with
  | none => rfl
  | some s =>
      have hid : s.node.id = s.id := rfl
      rw [Option.map_some, Option.map_some, Option.bind_some, Option.bind_some, hid,
        hd.arena_entitiesOf (List.mem_of_find?_eq_some hfound), List.find?_map, Option.map_map]
      rfl

omit hordered in
theorem HandlesSound.arena_qualifiedName (id : EntityId) :
    d.arena.qualifiedName id = d.qualifiedName id := by
  rw [Arena.qualifiedName]
  cases he : d.entity? id with
  | none => rw [hd.arena_entity?_of_none he, qualifiedName, he]
  | some e =>
      obtain ⟨s, hs, hlisted, hnode⟩ := hd.arena_entity?_of_some he
      obtain ⟨_, rfl⟩ := mem_of_entity? he
      rw [hnode, hd.qualifiedName_eq hs hlisted]
      dsimp only [Entity.node]
      rw [hd.arena_schema?, hd.schema?_eq hs]
      rfl

/-- The first entity of a name. -/
theorem HandlesSound.arena_find?_name (name : String) :
    (d.arena.allEntities.find? (·.name = name)).map EntityNode.id =
      (d.entities.find? (·.name = name)).map Entity.id := by
  have hnames : d.entityNodes.map (fun e => (e.id, e.name)) =
      d.entities.map fun e => (e.id, e.name) := by
    simp only [entityNodes, entities, List.map_flatMap, List.map_map]
    rfl
  have hfound := congrArg (fun l => (l.find? (·.2 = name)).map Prod.fst) hnames
  simp only [List.find?_map, Option.map_map] at hfound
  rw [hd.arena_allEntities hordered]
  exact hfound

/-- A written name means the same entity. -/
theorem HandlesSound.arena_findTarget? (name : String) :
    d.arena.findTarget? name = d.findTarget? name := by
  have hhandle : d.arena.entityByHandle? name = d.entityByHandle? name := by
    simp only [Arena.entityByHandle?, entityByHandle?, hd.isSome_arena_entity?]
  have hbare := congrArg (Option.map Target.byName) (hd.arena_find?_name hordered name)
  simp only [Option.map_map] at hbare
  have hqualified : ∀ schema entity, (d.arena.findEntity? schema entity).map Target.byName =
      (d.findEntity? schema entity).map fun e => Target.byName e.id := by
    intro schema entity
    rw [hd.arena_findEntity? hordered, Option.map_map]
    rfl
  simp only [Arena.findTarget?, findTarget?, hhandle, hd.arena_qualifiedName, hqualified]
  cases d.entityByHandle? name with
  | some id => rfl
  | none =>
      cases Text.cut? "." name with
      | some parts => rfl
      | none => exact hbare

/-! ### The document of its arena -/

theorem HandlesSound.document_arena : d.arena.document = d := by
  have hentity : ∀ s ∈ d.schemas, ∀ e ∈ s.entities,
      (d.arena.entityView ∘ Entity.node s.id) e = e := by
    intro s hs e he
    have hid : (e.node s.id).id = e.id := rfl
    rw [Function.comp_apply, Arena.entityView, hid,
      hd.arena_attributesOf (mem_entities.mpr ⟨s, hs, he⟩), List.map_map]
    simp only [Entity.node, Member.node, Function.comp_def, List.map_id']
  have hschema : ∀ s ∈ d.schemas, (d.arena.schemaView ∘ Schema.node) s = s := by
    intro s hs
    have hid : s.node.id = s.id := rfl
    rw [Function.comp_apply, Arena.schemaView, hid, hd.arena_entitiesOf hs, List.map_map,
      List.map_congr_left (hentity s hs)]
    simp only [Schema.node, List.map_id']
  have hschemas : d.arena.schemas.live.map d.arena.schemaView = d.schemas := by
    rw [hd.live_arena hordered, schemaNodes, List.map_map, List.map_congr_left hschema,
      List.map_id']
  unfold Arena.document
  rw [hschemas]
  simp [arena]

end Ordered

end Document

end Blueprint
