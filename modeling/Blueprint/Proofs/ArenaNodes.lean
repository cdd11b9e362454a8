import Blueprint.Proofs.ArenaReferences

/-! # Nodes in an arena

A node is put into a new slot or taken out of its own, and the node above it lists it or
lists it no more. On the arena of a document both together lead to the arena of the document
that has the node or does not.
-/

namespace Blueprint

/-- What has no children can be left out. -/
theorem flatMap_filter_eq {α β : Type} {p : α → Bool} {children : α → List β} {l : List α}
    (h : ∀ x ∈ l, p x = false → children x = []) :
    (l.filter p).flatMap children = l.flatMap children := by
  induction l with
  | nil => rfl
  | cons x l ih =>
      obtain ⟨hx, hl⟩ := List.forall_mem_cons.mp h
      cases hp : p x with
      | true => rw [List.filter_cons_of_pos hp, List.flatMap_cons, List.flatMap_cons, ih hl]
      | false =>
          rw [List.filter_cons_of_neg (by simp [hp]), List.flatMap_cons, hx hp, ih hl]
          rfl

namespace Document

variable {d : Document}

/-! ### Nodes after a change -/

/-- An arena is that of a document if all its slots are. -/
theorem arena_eq {a : Arena}
    (hschemas : a.schemas = .layOut SchemaNode.id d.schemaCount d.schemaNodes)
    (hentities : a.entities = .layOut EntityNode.id d.entityCount d.entityNodes)
    (hattributes : a.attributes = .layOut (fun m => m.id) d.attrCount d.attrNodes)
    (hdepth : a.maxDepth = d.maxDepth) : a = d.arena := by
  cases a
  simp_all [arena]

theorem schemaNodes_modifySchema {id : SchemaId} {f : Schema → Schema} {g : SchemaNode → SchemaNode}
    (hg : ∀ s, g s.node = (f s).node) :
    (d.modifySchema id f).schemaNodes = d.schemaNodes.map fun s => if s.id = id then g s else s := by
  simp only [schemaNodes, modifySchema, List.map_map]
  refine List.map_congr_left fun s _ => ?_
  have hid : s.node.id = s.id := rfl
  simp only [Function.comp_apply, hid]
  split
  · exact (hg s).symm
  · rfl

theorem schemaNodes_mapEntities {f : Entity → Entity} (hf : ∀ e, (f e).id = e.id) :
    (d.mapEntities f).schemaNodes = d.schemaNodes := by
  simp only [schemaNodes, mapEntities, List.map_map]
  refine List.map_congr_left fun s _ => ?_
  simp only [Function.comp_apply, Schema.node, List.map_map, Function.comp_def, hf]

theorem entityNodes_modifyEntity {id : EntityId} {f : Entity → Entity} {g : EntityNode → EntityNode}
    (hg : ∀ parent e, g (e.node parent) = (f e).node parent) :
    (d.modifyEntity id f).entityNodes =
      d.entityNodes.map fun e => if e.id = id then g e else e := by
  simp only [entityNodes, modifyEntity, mapEntities, List.flatMap_map, List.map_flatMap,
    List.map_map]
  refine List.flatMap_congr fun s _ => List.map_congr_left fun e _ => ?_
  have hid : (e.node s.id).id = e.id := rfl
  simp only [Function.comp_apply, hid]
  split
  · exact (hg _ e).symm
  · rfl

/-! ### Changes of schemas -/

theorem HandlesSound.arena_addSchema (hd : d.HandlesSound) (name : String) :
    d.arena.mapSchemas (.push ⟨.fresh d.schemaCount, Name.ofText name (d.schemaCount + 1), []⟩) =
      (d.addSchema name).1.arena := by
  simp only [addSchema, Handle.fresh]
  generalize Name.ofText name (d.schemaCount + 1) = name
  apply arena_eq
  · refine Slots.push_layOut hd.fits_schemaNodes rfl ?_
    simp only [schemaNodes, List.map_append]
    exact List.perm_append_singleton _ _
  · simp only [entityNodes, List.flatMap_append, List.flatMap_singleton, List.map_nil,
      List.append_nil]
    rfl
  · simp only [attrNodes, entities, List.flatMap_append, List.flatMap_singleton, List.append_nil]
    rfl
  · rfl

theorem arena_nameSchema (id : SchemaId) (name : String) :
    d.arena.mapSchemas (.update id fun s => { s with name := Name.ofText name id.number }) =
      (d.nameSchema id name).arena := by
  unfold nameSchema
  generalize Name.ofText name id.number = name
  apply arena_eq
  · rw [schemaNodes_modifySchema (f := fun s => { s with name := name })
      (g := fun s => { s with name := name }) fun _ => rfl]
    exact Slots.update_layOut fun _ hid => hid
  · have hentities : (d.modifySchema id fun s => { s with name := name }).entityNodes =
        d.entityNodes := by
      simp only [entityNodes, modifySchema, List.flatMap_map]
      refine List.flatMap_congr fun s _ => ?_
      split <;> rfl
    rw [hentities]
    rfl
  · have hattributes : (d.modifySchema id fun s => { s with name := name }).attrNodes =
        d.attrNodes := by
      simp only [attrNodes, entities, modifySchema, List.flatMap_map]
      congr 2
      funext s
      split <;> rfl
    rw [hattributes]
    rfl
  · rfl

/-- A schema that has no entities any more is taken out of its slot. -/
theorem arena_dropSchema {id : SchemaId}
    (hempty : ∀ s ∈ d.schemas, s.id = id → s.entities = []) :
    d.arena.mapSchemas (.clear id) = (d.dropSchema id).arena := by
  have hgone : ∀ s ∈ d.schemas, decide (s.id ≠ id) = false → s.entities = [] :=
    fun s hs hid => hempty s hs (by simpa using hid)
  apply arena_eq
  · have hschemas : (d.dropSchema id).schemaNodes = d.schemaNodes.filter (·.id ≠ id) := by
      simp only [schemaNodes, dropSchema, List.filter_map]
      rfl
    rw [hschemas]
    exact Slots.clear_layOut id
  · rw [entityNodes, dropSchema, flatMap_filter_eq fun s hs hid => by rw [hgone s hs hid]; rfl]
    rfl
  · rw [attrNodes, entities, dropSchema, flatMap_filter_eq hgone]
    rfl
  · rfl

/-! ### Changes of entities -/

theorem HandlesSound.arena_placeEntity (hd : d.HandlesSound) {schema : SchemaId} {s : Schema}
    (hs : d.schema? schema = some s) (name : String) :
    (d.arena.mapSchemas (.update schema fun s =>
        { s with entities := s.entities ++ [.fresh d.entityCount] })).mapEntities
      (.push ⟨.fresh d.entityCount, Name.ofText name (d.entityCount + 1), schema, []⟩) =
      (d.placeEntity schema (d.nextEntity name)).arena := by
  simp only [nextEntity, Handle.fresh]
  generalize Name.ofText name (d.entityCount + 1) = name
  obtain ⟨before, after, hsplit, hmodify⟩ := hd.exists_split_schema hs
  obtain ⟨_, rfl⟩ := mem_of_schema? hs
  apply arena_eq
  · have hschemas : (d.placeEntity s.id ⟨⟨d.entityCount + 1⟩, name, []⟩).schemaNodes =
        d.schemaNodes.map fun n => if n.id = s.id then
          { n with entities := n.entities ++ [⟨d.entityCount + 1⟩] } else n :=
      schemaNodes_modifySchema (f := fun s =>
        { s with entities := s.entities ++ [⟨⟨d.entityCount + 1⟩, name, []⟩] }) fun s => by
          simp [Schema.node]
    rw [hschemas]
    exact Slots.update_layOut fun _ hid => hid
  · refine Slots.push_layOut hd.fits_entityNodes rfl ?_
    simp only [entityNodes, placeEntity, hmodify, hsplit, List.flatMap_append, List.flatMap_cons,
      List.map_append, List.map_cons, List.map_nil, List.append_assoc]
    rw [← List.append_assoc, ← List.append_assoc (List.flatMap _ before)]
    exact List.perm_middle
  · have hattributes : (d.placeEntity s.id ⟨⟨d.entityCount + 1⟩, name, []⟩).attrNodes =
        d.attrNodes := by
      simp [attrNodes, entities, placeEntity, hmodify, hsplit]
    rw [hattributes]
    rfl
  · rfl

theorem arena_nameEntity (id : EntityId) (name : String) :
    d.arena.mapEntities (.update id fun e => { e with name := Name.ofText name id.number }) =
      (d.nameEntity id name).arena := by
  unfold nameEntity
  generalize Name.ofText name id.number = name
  have hid : ∀ e : Entity, (if e.id = id then { e with name := name } else e).id = e.id := by
    intro e
    split <;> rfl
  apply arena_eq
  · rw [modifyEntity, schemaNodes_mapEntities hid]
    rfl
  · rw [entityNodes_modifyEntity (f := fun e => { e with name := name })
      (g := fun e => { e with name := name }) fun _ _ => rfl]
    exact Slots.update_layOut fun _ hid => hid
  · have hattributes : (d.modifyEntity id fun e => { e with name := name }).attrNodes =
        d.attrNodes := by
      simp only [attrNodes, modifyEntity, entities_mapEntities, List.flatMap_map]
      refine List.flatMap_congr fun e _ => ?_
      split <;> rfl
    rw [hattributes]
    rfl
  · rfl

/-- Only the schema of an entity has listed it. -/
theorem HandlesSound.schemaNodes_dropEntity (hd : d.HandlesSound) {s : Schema} {e : Entity}
    (hs : s ∈ d.schemas) (he : e ∈ s.entities) :
    (d.dropEntity e.id).schemaNodes = d.schemaNodes.map fun n =>
      if n.id = s.id then { n with entities := n.entities.filter (· ≠ e.id) } else n := by
  simp only [schemaNodes, dropEntity, List.map_map]
  refine List.map_congr_left fun s' hs' => ?_
  simp only [Function.comp_apply, Schema.node, List.filter_map]
  split
  · rfl
  next hne =>
    have hothers : s'.entities.filter (·.id ≠ e.id) = s'.entities := by
      refine List.filter_eq_self.mpr fun e' he' => decide_eq_true fun heq => ?_
      have hhome := hd.schemaOf?_eq hs' he'
      rw [heq, hd.schemaOf?_eq hs he] at hhome
      exact hne (congrArg Schema.id (Option.some.inj hhome)).symm
    rw [hothers]

/-- The attributes of an entity are those that it lists. -/
theorem HandlesSound.attrNodes_dropEntity (hd : d.HandlesSound) {e : Entity}
    (he : e ∈ d.entities) :
    (d.dropEntity e.id).attrNodes = d.attrNodes.filter (·.id ∉ e.attributes.map Member.id) := by
  have howner : ∀ e' ∈ d.entities, ∀ m ∈ e'.attributes,
      (m.id ∈ e.attributes.map Member.id ↔ e'.id = e.id) := by
    intro e' he' m hm
    constructor
    · intro hlisted
      obtain ⟨m', hm', heq⟩ := List.mem_map.mp hlisted
      rw [(hd.eq_of_attr_id he' hm he hm' heq).1]
    · intro hid
      rw [← eq_of_key_eq (hd.nodup .entity) he' he hid]
      exact List.mem_map_of_mem hm
  simp only [attrNodes, entities_dropEntity, List.filter_flatMap]
  refine (List.flatMap_congr fun e' he' => ?_).trans (flatMap_filter_eq fun e' he' hid => ?_)
  · obtain ⟨he', hne⟩ := List.mem_filter.mp he'
    refine (List.filter_eq_self.mpr fun n hn => decide_eq_true ?_).symm
    obtain ⟨m, hm, rfl⟩ := List.mem_map.mp hn
    exact fun hlisted => of_decide_eq_true hne ((howner e' he' m hm).mp hlisted)
  · refine List.filter_eq_nil_iff.mpr fun n hn => ?_
    obtain ⟨m, hm, rfl⟩ := List.mem_map.mp hn
    have hlisted := (howner e' he' m hm).mpr (by simpa using hid)
    exact fun hkept => of_decide_eq_true hkept hlisted

/-- An entity is taken out of its slot with its attributes, and its schema lists it no more. -/
theorem HandlesSound.arena_dropEntity (hd : d.HandlesSound) {s : Schema} {e : Entity}
    (hs : s ∈ d.schemas) (he : e ∈ s.entities) (f : EntityNode → EntityNode) :
    (((d.arena.mapEntities (.update e.id f)).mapAttributes fun slots =>
        (e.attributes.map Member.id).foldl (fun slots m => slots.clear m) slots).mapSchemas
      (.update s.id fun s => { s with entities := s.entities.filter (· ≠ e.id) })).mapEntities
        (.clear e.id) =
      (d.dropEntity e.id).arena := by
  have hentities : (d.dropEntity e.id).entityNodes = d.entityNodes.filter (·.id ≠ e.id) := by
    simp only [entityNodes, dropEntity, List.flatMap_map, List.filter_flatMap, List.filter_map]
    rfl
  apply arena_eq
  · rw [hd.schemaNodes_dropEntity hs he]
    exact Slots.update_layOut fun _ hid => hid
  · rw [hentities]
    exact (Slots.clear_update e.id f _).trans (Slots.clear_layOut e.id)
  · rw [hd.attrNodes_dropEntity (mem_entities.mpr ⟨s, hs, he⟩)]
    exact Slots.foldl_clear_layOut _
  · rfl

/-- The references to an entity lose their target wherever they stand. -/
theorem arena_detach (id : EntityId) :
    d.arena.mapAttributes (List.map (Option.map (AttrNode.detach id))) =
      (d.mapMembers (Member.detach [id])).arena := by
  have hnode : ∀ (parent : EntityId) (m : Member),
      (m.node parent).detach id = (m.detach [id]).node parent := by
    intro parent m
    have htarget : (m.node parent).target = some id ↔ m.target.any [id].contains := by
      change m.target = some id ↔ _
      cases m.target <;> simp
    unfold AttrNode.detach Member.detach
    simp only [htarget]
    split <;> rfl
  rw [mapMembers, arena_mapAttributes (f := fun _ => Member.detach [id]) (g := AttrNode.detach id)
    (fun e _ m _ => hnode e.id m) fun _ _ m _ => Member.detach_id _ m, Arena.mapAttributes]
  congr 1
  refine Slots.map_layOut fun n => ?_
  unfold AttrNode.detach
  split <;> rfl

/-! ### Changes of attributes -/

theorem HandlesSound.arena_placeMember (hd : d.HandlesSound) {entity : EntityId} {e : Entity}
    (he : d.entity? entity = some e) (a : Attribute) :
    (d.arena.mapEntities (.update entity fun e =>
        { e with attributes := e.attributes ++ [.fresh d.attrCount] })).mapAttributes
      (.push ⟨d.nextMember a, entity⟩) =
      (d.placeMember entity (d.nextMember a)).arena := by
  obtain ⟨before, after, hsplit, hmodify⟩ := hd.exists_split_entity he
  obtain ⟨_, rfl⟩ := mem_of_entity? he
  have hnew : (d.nextMember a).id = .fresh d.attrCount := rfl
  generalize d.nextMember a = m at hnew
  have hid : ∀ e' : Entity, (if e'.id = e.id then
      { e' with attributes := e'.attributes ++ [m] } else e').id = e'.id := by
    intro e'
    split <;> rfl
  apply arena_eq
  · exact congrArg (Slots.layOut _ _) (schemaNodes_mapEntities hid).symm
  · have hentities : (d.placeMember e.id m).entityNodes = d.entityNodes.map fun n =>
        if n.id = e.id then { n with attributes := n.attributes ++ [.fresh d.attrCount] } else n :=
      entityNodes_modifyEntity (f := fun e => { e with attributes := e.attributes ++ [m] })
        fun parent e => by simp [Entity.node, hnew]
    rw [hentities]
    exact Slots.update_layOut fun _ hid => hid
  · refine Slots.push_layOut hd.fits_attrNodes hnew ?_
    have hplaced : (d.placeMember e.id m).entities =
        before ++ { e with attributes := e.attributes ++ [m] } :: after :=
      hmodify fun e => { e with attributes := e.attributes ++ [m] }
    simp only [attrNodes, hplaced, hsplit, List.flatMap_append, List.flatMap_cons,
      List.map_append, List.map_cons, List.map_nil, List.append_assoc]
    rw [← List.append_assoc, ← List.append_assoc (List.flatMap _ before)]
    exact List.perm_middle
  · rfl

/-- Only the entity of an attribute has listed it. -/
theorem HandlesSound.entityNodes_dropMember (hd : d.HandlesSound) {e : Entity} {m : Member}
    (he : e ∈ d.entities) (hm : m ∈ e.attributes) :
    (d.dropMember m.id).entityNodes = d.entityNodes.map fun n =>
      if n.id = e.id then { n with attributes := n.attributes.filter (· ≠ m.id) } else n := by
  simp only [entityNodes, dropMember, mapEntities, List.flatMap_map, List.map_flatMap, List.map_map]
  refine List.flatMap_congr fun s hs => List.map_congr_left fun e' he' => ?_
  simp only [Function.comp_apply, Entity.node, List.filter_map]
  split
  · rfl
  next hne =>
    have hothers : e'.attributes.filter (·.id ≠ m.id) = e'.attributes := by
      refine List.filter_eq_self.mpr fun m' hm' => decide_eq_true fun heq => ?_
      have howner := (hd.eq_of_attr_id he hm (mem_entities.mpr ⟨s, hs, he'⟩) hm' heq).1
      exact hne (congrArg Entity.id howner)
    rw [hothers]

/-- An attribute is taken out of its slot, and its entity lists it no more. -/
theorem HandlesSound.arena_dropMember (hd : d.HandlesSound) {e : Entity} {m : Member}
    (he : e ∈ d.entities) (hm : m ∈ e.attributes) :
    (d.arena.mapEntities (.update e.id fun e =>
        { e with attributes := e.attributes.filter (· ≠ m.id) })).mapAttributes (.clear m.id) =
      (d.dropMember m.id).arena := by
  have hattributes : (d.dropMember m.id).attrNodes = d.attrNodes.filter (·.id ≠ m.id) := by
    simp only [attrNodes, dropMember, entities_mapEntities, List.flatMap_map,
      List.filter_flatMap, List.filter_map]
    rfl
  apply arena_eq
  · exact congrArg (Slots.layOut _ _) (schemaNodes_mapEntities (f := fun e =>
      { e with attributes := e.attributes.filter (·.id ≠ m.id) }) fun _ => rfl).symm
  · rw [hd.entityNodes_dropMember he hm]
    exact Slots.update_layOut fun _ hid => hid
  · rw [hattributes]
    exact Slots.clear_layOut m.id
  · rfl

end Document

end Blueprint
