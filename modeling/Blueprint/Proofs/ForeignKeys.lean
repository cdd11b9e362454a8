import Blueprint.Proofs.Columns
import Blueprint.Proofs.Reading
import Blueprint.Proofs.Tables

/-! # Foreign keys

A reference gives at most one foreign key, over the columns that it stands for. The keys are
collected by the handles of the references. These increase along the attributes of an entity,
so the keys come in the order in which the references are declared. Without defects these are the primary key of its target, column by column. With defects the two
tables may disagree: the referring one looks at both ends of a column, and the referenced
one also at the attribute in between that it declares itself.
-/

namespace Blueprint.Output.Postgres

open Document

variable {d : Document} {entity target : EntityId} {r : Member}

/-! ### The key of one attribute -/

/-- The foreign key that columns from one reference form, if there are any. -/
def ForeignKey.ofColumns? : List Column → Option ForeignKey
  | [] => none
  | c :: rest =>
    c.via?.map fun via =>
      ⟨via, (c :: rest).map Column.name, (c :: rest).filterMap Column.viaColumn?⟩

theorem sorted_collectKeys (ps : List Pointer) : (collectKeys ps).Sorted := by
  induction ps using List.reverseRecOn with
  | nil => exact HandleMap.sorted_nil
  | append_singleton ps p ih =>
      rw [collectKeys, List.foldl_append]
      exact ih.alter _ _

/-- One more column extends the key of the reference that it comes from. -/
theorem lookup_collectKeys_concat (ps : List Pointer) (p : Pointer) (id : AttrId) :
    (collectKeys (ps ++ [p])).lookup id =
      if id = p.source then some (.extend p ((collectKeys ps).lookup id))
      else (collectKeys ps).lookup id := by
  have hconcat : collectKeys (ps ++ [p]) = (collectKeys ps).alter p.source (.extend p) := by
    rw [collectKeys, List.foldl_append]
    rfl
  rw [hconcat]
  split
  next heq => rw [heq, (sorted_collectKeys ps).lookup_alter]
  next hne => exact HandleMap.lookup_alter_of_ne hne _ _

/-- Under the handle of a reference there is the key that its columns form. -/
theorem lookup_collectKeys {cs : List Column} (hvia : ∀ c ∈ cs, c.isDirect = false → c.via?.isSome)
    (id : AttrId) :
    (collectKeys (cs.filterMap pointer?)).lookup id =
      ForeignKey.ofColumns? ((cs.filter fun c => !c.isDirect).filter fun c => c.source.id = id) := by
  induction cs using List.reverseRecOn with
  | nil => rfl
  | append_singleton cs c ih =>
      have ih := ih fun c hc => hvia c (List.mem_append_left _ hc)
      rw [List.filterMap_append, List.filter_append, List.filter_append]
      cases hdirect : c.isDirect with
      | true =>
          have hnone : pointer? c = none := by
            simp only [pointer?, Column.viaColumn?, hdirect, if_true]
            cases c.via? <;> rfl
          simpa [hnone, hdirect] using ih
      | false =>
          obtain ⟨via, hsome⟩ := Option.isSome_iff_exists.mp
            (hvia c (List.mem_append_right _ (List.mem_singleton_self c)) hdirect)
          have hcolumn : c.viaColumn? = some (Column.nameOf c.segments.tail) := by
            simp [Column.viaColumn?, hdirect]
          have hpointer : pointer? c =
              some ⟨c.source.id, via, c.name, Column.nameOf c.segments.tail⟩ := by
            simp only [pointer?, hsome, hcolumn]
          rw [List.filterMap_cons, hpointer, List.filterMap_nil, lookup_collectKeys_concat, ih]
          by_cases heq : id = c.source.id
          · -- The column is the last one of its reference.
            rw [if_pos heq, List.filter_cons_of_pos (by simp [hdirect]), List.filter_nil,
              List.filter_cons_of_pos (by simp [heq]), List.filter_nil]
            cases hearlier : (cs.filter fun c => !c.isDirect).filter fun c => c.source.id = id with
            | nil => simp [ForeignKey.ofColumns?, ForeignKey.extend, hsome, hcolumn]
            | cons first rest =>
                have hfirst : first ∈ (cs.filter fun c => !c.isDirect).filter
                    fun c => c.source.id = id := hearlier ▸ List.mem_cons_self
                obtain ⟨hmem, hdirect⟩ := List.mem_filter.mp (List.mem_filter.mp hfirst).1
                obtain ⟨via', hvia'⟩ := Option.isSome_iff_exists.mp
                  (hvia first (List.mem_append_left _ hmem) (by simpa using hdirect))
                rw [List.cons_append, ForeignKey.ofColumns?, ForeignKey.ofColumns?, hvia']
                have htarget : [c].filterMap Column.viaColumn? =
                    [Column.nameOf c.segments.tail] := by simp [hcolumn]
                simp only [Option.map_some, ForeignKey.extend]
                rw [← List.cons_append, List.map_append, List.filterMap_append, List.map_singleton,
                  htarget]
          · rw [if_neg heq, List.filter_cons_of_pos (by simp [hdirect]), List.filter_nil,
              List.filter_cons_of_neg (by simpa using Ne.symm heq), List.filter_nil,
              List.append_nil]

theorem exists_via?_of_ofColumns? {cs : List Column} {key : ForeignKey}
    (hkey : ForeignKey.ofColumns? cs = some key) : ∃ c ∈ cs, c.via? = some key.via := by
  cases cs with
  | nil => cases hkey
  | cons c rest =>
      obtain ⟨via, hvia, rfl⟩ := Option.map_eq_some_iff.mp hkey
      exact ⟨c, List.mem_cons_self, hvia⟩

/-- The key by which one attribute of an entity points at another table. -/
def foreignKeyOf? (d : Document) (entity : EntityId) (m : Member) : Option ForeignKey :=
  ForeignKey.ofColumns? (((d.validColumns entity).filter fun c => !c.isDirect).filter
    fun c => c.source.id = m.id)

/-- The item of that key between the brackets of the table. -/
def foreignKeyItem? (d : Document) (entity : EntityId) (m : Member) : Option Item :=
  (foreignKeyOf? d entity m).map fun key => .definition (foreignKeyText d key)

/-- The keys of an entity come in the order of its attributes. -/
theorem foreignKeys_eq_filterMap (hd : d.HandlesSound) (hordered : d.Ordered) (entity : EntityId) :
    foreignKeys d entity = (d.attributesOf entity).filterMap (foreignKeyOf? d entity) := by
  have hcolumns : ∀ c ∈ d.validColumns entity, c ∈ d.columns entity := by
    intro c hc
    rw [hd.validColumns_eq] at hc
    exact (List.mem_filter.mp hc).1
  have hvia : ∀ c ∈ d.validColumns entity, c.isDirect = false → c.via?.isSome := by
    intro c hc hdirect
    obtain ⟨_, _, hops, hhops, hmore⟩ := way_of_mem_columnsFrom (hcolumns c hc)
    cases hops with
    | nil => simp [Column.isDirect, hhops] at hdirect
    | cons m hops => simpa [Column.via?, hhops] using (hmore m (by simp)).2.2
  have hids : Increasing ((d.attributesOf entity).map Member.id) := by
    unfold attributesOf
    split
    next e he => exact hordered.attributes e (mem_of_entity? he).1
    next => exact List.Pairwise.nil
  have hkeys : ∀ id ∈ (collectKeys ((d.validColumns entity).filterMap pointer?)).map Prod.fst,
      id ∈ (d.attributesOf entity).map Member.id := by
    intro id hid
    generalize hps : (d.validColumns entity).filterMap pointer? = ps at hid
    have hsources : ∀ p ∈ ps, p.source ∈ (d.attributesOf entity).map Member.id := by
      intro p hp
      rw [← hps] at hp
      obtain ⟨c, hc, hpointer⟩ := List.mem_filterMap.mp hp
      unfold pointer? at hpointer
      split at hpointer
      · obtain rfl := Option.some.inj hpointer
        exact List.mem_map_of_mem (source_mem_attributesOf (hcolumns c hc))
      · cases hpointer
    clear hps
    induction ps using List.reverseRecOn with
    | nil => cases hid
    | append_singleton ps p ih =>
        rw [collectKeys, List.foldl_append] at hid
        rcases (HandleMap.mem_keys_alter _).mp hid with rfl | hold
        · exact hsources p (List.mem_append_right _ (List.mem_singleton_self p))
        · exact ih hold fun p hp => hsources p (List.mem_append_left _ hp)
  rw [foreignKeys, (sorted_collectKeys _).map_snd_eq hids hkeys, List.filterMap_map]
  exact List.filterMap_congr fun m _ => lookup_collectKeys hvia m.id

theorem items_eq_append (hd : d.HandlesSound) (hordered : d.Ordered) (entity : EntityId) :
    items d entity =
      (d.fields entity).map .ofField ++ keyItems d entity ++ uniqueItems d entity ++
        (d.attributesOf entity).filterMap (foreignKeyItem? d entity) := by
  rw [items, foreignKeys_eq_filterMap hd hordered, List.map_filterMap]
  rfl

/-- The columns of its target that a reference points at. -/
def pointedColumns (d : Document) (r : Member) (target : EntityId) : List Column :=
  (d.columns target).filter fun c =>
    c.segments.length < d.maxDepth && c.source.primary && !r.hasDefect && !c.terminal.hasDefect

/-- The name that a column has over a reference. -/
def localName (r : Member) (name : String) : String :=
  Text.replaceChar '.' '_' r.segment ++ "_" ++ name

/-- The columns of an entity over a reference are those that the reference points at. -/
theorem filter_source_eq_pointedColumns (hd : d.HandlesSound) (hr : r ∈ d.attributesOf entity)
    (href : r.isReference) (htarget : r.target = some target) :
    ((d.validColumns entity).filter fun c => c.source.id = r.id) =
      (pointedColumns d r target).map (Column.reachedBy entity r) := by
  rw [hd.filter_source_validColumns hr, columnsBy_reference href htarget, List.filter_map,
    List.filter_filter]
  congr 2
  funext c
  simp only [Function.comp, Column.reachedBy_isValid]
  grind

theorem ofColumns?_map_reachedBy (htarget : r.target = some target) {cs : List Column}
    (hcs : cs ≠ []) :
    ForeignKey.ofColumns? (cs.map (Column.reachedBy entity r)) =
      some ⟨target, (cs.map Column.name).map (localName r), cs.map Column.name⟩ := by
  obtain ⟨c, rest, rfl⟩ := List.exists_cons_of_ne_nil hcs
  have hcolumns : ((c :: rest).map (Column.reachedBy entity r)).map Column.name =
      ((c :: rest).map Column.name).map (localName r) := by
    simp only [List.map_map, Function.comp_def, Column.reachedBy_name, localName]
  have htargets : ((c :: rest).map (Column.reachedBy entity r)).filterMap Column.viaColumn? =
      (c :: rest).map Column.name := by
    simp [List.filterMap_map, Function.comp_def, Column.reachedBy_viaColumn?]
  rw [← hcolumns, ← htargets, List.map_cons, ForeignKey.ofColumns?, Column.reachedBy_via?, htarget]
  rfl

theorem foreignKeyOf?_reference (hd : d.HandlesSound) (hr : r ∈ d.attributesOf entity)
    (href : r.isReference) (htarget : r.target = some target) :
    foreignKeyOf? d entity r =
      if pointedColumns d r target = [] then none
      else some ⟨target, ((pointedColumns d r target).map Column.name).map (localName r),
        (pointedColumns d r target).map Column.name⟩ := by
  have hcolumns : (((d.validColumns entity).filter fun c => !c.isDirect).filter
      fun c => c.source.id = r.id) = (pointedColumns d r target).map (Column.reachedBy entity r) := by
    rw [List.filter_comm, filter_source_eq_pointedColumns hd hr href htarget, List.filter_eq_self]
    intro c hc
    obtain ⟨c, _, rfl⟩ := List.mem_map.mp hc
    rfl
  rw [foreignKeyOf?, hcolumns]
  split
  next hnone => rw [hnone]; rfl
  next hsome => exact ofColumns?_map_reachedBy htarget hsome

/-- Only a reference that was resolved and points at something has a key. -/
theorem exists_of_foreignKeyOf? (hd : d.HandlesSound) (hr : r ∈ d.attributesOf entity)
    {key : ForeignKey} (hkey : foreignKeyOf? d entity r = some key) :
    ∃ target, r.isReference ∧ r.target = some target ∧ key.via = target ∧
      key.targets = (pointedColumns d r target).map Column.name := by
  cases href : r.isReference with
  | false =>
      have hnone : (((d.validColumns entity).filter fun c => !c.isDirect).filter
          fun c => c.source.id = r.id) = [] := by
        rw [List.filter_comm, hd.filter_source_validColumns hr, List.filter_eq_nil_iff]
        intro c hc
        simp [isDirect_of_mem_columnsBy href (List.mem_filter.mp hc).1]
      rw [foreignKeyOf?, hnone] at hkey
      cases hkey
  | true =>
      cases htarget : r.target with
      | none =>
          have hnone : (((d.validColumns entity).filter fun c => !c.isDirect).filter
              fun c => c.source.id = r.id) = [] := by
            rw [List.filter_comm, hd.filter_source_validColumns hr, columnsBy_open href htarget]
            rfl
          rw [foreignKeyOf?, hnone] at hkey
          cases hkey
      | some target =>
          rw [foreignKeyOf?_reference hd hr href htarget] at hkey
          split at hkey
          · cases hkey
          · obtain rfl := Option.some.inj hkey
            exact ⟨target, rfl, rfl, rfl, rfl⟩

/-! ### Without defects -/

/-- What a column over a reference stores: a serial of the target as a plain number, all else
as it is there. -/
theorem columnType_reachedBy (c : Column) :
    columnType (c.reachedBy entity r) =
      if c.storageKind = .serial then typeName .int else columnType c := by
  unfold columnType Column.storageKind
  rw [Column.reachedBy_terminal, Column.reachedBy_isDirect]
  by_cases hserial : c.terminal.kind = .serial
  · cases hdirect : c.isDirect <;> simp [hserial, Kind.stored, sizedType, typeName]
  · simp [hserial, Kind.stored]

/-- Without defects a reference points at the whole key of its target, unless that is cut off. -/
theorem pointedColumns_eq_primary (hclean : d.hasDefect = false) (hr : r ∈ d.members)
    (hdepth : ∀ c ∈ d.primary target, c.segments.length < d.maxDepth) :
    pointedColumns d r target = d.primary target := by
  apply List.filter_congr
  intro c hc
  have hvalid := isValid_of_mem_columns hclean hc
  have hterminal : c.terminal.hasDefect = false := by
    simpa using (Bool.and_eq_true_iff.mp hvalid).2
  by_cases hprimary : c.source.primary
  · have hshort := hdepth c (List.mem_filter.mpr ⟨hc, by simp [hvalid, hprimary]⟩)
    simp only [hvalid, hprimary, hshort, hterminal, hasDefect_eq_false_of_mem_members hclean hr,
      decide_true, Bool.not_false, Bool.and_self]
  · simp [hprimary]

/-- The lines of the keys of a table, cut at those of one attribute. -/
theorem exists_keyLines (hd : d.HandlesSound) (hordered : d.Ordered)
    (hr : r ∈ d.attributesOf entity) :
    ∃ front back above before own behind,
      d.attributesOf entity = front ++ r :: back ∧
      tableLines d entity = ("CREATE TABLE " ++ d.qualifiedName entity ++ " (") ::
        (above ++ before ++ own ++ behind) ++ [");"] ∧
      List.Forall₂ Item.IsLine ((d.fields entity).map .ofField ++ keyItems d entity ++
        uniqueItems d entity) above ∧
      List.Forall₂ Item.IsLine (front.filterMap (foreignKeyItem? d entity)) before ∧
      List.Forall₂ Item.IsLine (foreignKeyItem? d entity r).toList own ∧
      List.Forall₂ Item.IsLine (back.filterMap (foreignKeyItem? d entity)) behind := by
  obtain ⟨front, back, hsplit⟩ := List.append_of_mem hr
  have hitems := items_eq_append hd hordered entity
  have hown : (front ++ r :: back).filterMap (foreignKeyItem? d entity) =
      front.filterMap (foreignKeyItem? d entity) ++ ((foreignKeyItem? d entity r).toList ++
        back.filterMap (foreignKeyItem? d entity)) := by
    rw [List.filterMap_append, List.filterMap_cons]
    cases foreignKeyItem? d entity r <;> rfl
  obtain ⟨lines, htable, hlines⟩ := exists_tableLines_eq d entity
  rw [hitems, hsplit, hown] at hlines
  obtain ⟨above, keys, rfl, habove, hkeys⟩ := exists_append_of_forall₂ hlines
  obtain ⟨before, rest, rfl, hbefore, hrest⟩ := exists_append_of_forall₂ hkeys
  obtain ⟨own, behind, rfl, hown, hbehind⟩ := exists_append_of_forall₂ hrest
  refine ⟨front, back, above, before, own, behind, hsplit, ?_, habove, hbefore, hown, hbehind⟩
  rw [htable]
  simp only [List.append_assoc]

/-- In a document without defects, reached by any run, the table of an entity has one line for
the foreign key of each of its references. For a reference whose target has a primary key that
the depth does not cut off that line points at the columns of the key in their order, from
columns of the same types that are named after them. There is no line if the target has no
key. -/
theorem foreignKeyItem_run_eq_primary (hd : d.IsOrigin) (es : List Edit)
    (hclean : (d.run es).hasDefect = false) (hr : r ∈ (d.run es).attributesOf entity)
    (href : r.isReference) (htarget : r.target = some target)
    (hdepth : ∀ c ∈ (d.run es).primary target, c.segments.length < (d.run es).maxDepth) :
    let after := d.run es
    let names := (after.primary target).map Column.name
    (∃ front back above before own behind,
        after.attributesOf entity = front ++ r :: back ∧
        tableLines after entity = ("CREATE TABLE " ++ after.qualifiedName entity ++ " (") ::
          (above ++ before ++ own ++ behind) ++ [");"] ∧
        List.Forall₂ Item.IsLine ((after.fields entity).map .ofField ++ keyItems after entity ++
          uniqueItems after entity) above ∧
        List.Forall₂ Item.IsLine (front.filterMap (foreignKeyItem? after entity)) before ∧
        List.Forall₂ Item.IsLine
          (if names = [] then []
          else [.definition ("FOREIGN KEY " ++ columnList (names.map (localName r)) ++
            " REFERENCES " ++ after.qualifiedName target ++ " " ++ columnList names)]) own ∧
        List.Forall₂ Item.IsLine (back.filterMap (foreignKeyItem? after entity)) behind) ∧
      (∃ columns key others,
        tableLines after target = ("CREATE TABLE " ++ after.qualifiedName target ++ " (") ::
          (columns ++ key ++ others) ++ [");"] ∧
        List.Forall₂ Item.IsLine ((after.fields target).map .ofField) columns ∧
        List.Forall₂ Item.IsLine
          (if names = [] then [] else [.definition ("PRIMARY KEY " ++ columnList names)]) key) ∧
      List.Forall₂ (fun column key => column.name = localName r key.name ∧
          DefinesColumn after entity column.name (columnType column) ∧
          DefinesColumn after target key.name (columnType key) ∧
          columnType column = if key.storageKind = .serial then typeName .int else columnType key)
        ((after.validColumns entity).filter fun c => c.source.id = r.id)
        (after.primary target) := by
  intro after names
  have hhandles : after.HandlesSound := hd.handles_run es
  have hordered : after.Ordered := hd.ordered_run es
  have hpointed : pointedColumns after r target = after.primary target :=
    pointedColumns_eq_primary hclean (mem_members_of_mem_attributesOf hr) hdepth
  have hitem : (foreignKeyItem? after entity r).toList = if names = [] then []
      else [.definition ("FOREIGN KEY " ++ columnList (names.map (localName r)) ++
        " REFERENCES " ++ after.qualifiedName target ++ " " ++ columnList names)] := by
    rw [foreignKeyItem?, foreignKeyOf?_reference hhandles hr href htarget, hpointed]
    by_cases hkey : after.primary target = []
    · rw [if_pos hkey, if_pos (List.map_eq_nil_iff.mpr hkey)]
      rfl
    · rw [if_neg hkey, if_neg (mt List.map_eq_nil_iff.mp hkey)]
      rfl
  have hkeys : keyItems after target =
      if names = [] then [] else [.definition ("PRIMARY KEY " ++ columnList names)] := by
    unfold keyItems
    cases hkey : after.primary target <;> simp [names, hkey]
  refine ⟨?_, ?_, ?_⟩
  · rw [← hitem]
    exact exists_keyLines hhandles hordered hr
  · have hitems : items after target = (after.fields target).map .ofField ++
        (keyItems after target ++ (uniqueItems after target ++
          (foreignKeys after target).map fun key => .definition (foreignKeyText after key))) := by
      rw [items, List.append_assoc, List.append_assoc]
    obtain ⟨lines, htable, hlines⟩ := exists_tableLines_eq after target
    rw [hitems] at hlines
    obtain ⟨columns, rest, rfl, hcolumns, hrest⟩ := exists_append_of_forall₂ hlines
    obtain ⟨key, others, rfl, hkey, _⟩ := exists_append_of_forall₂ hrest
    refine ⟨columns, key, others, ?_, hcolumns, hkeys ▸ hkey⟩
    rw [htable]
    simp only [List.append_assoc]
  · have hlocal := filter_source_eq_pointedColumns hhandles hr href htarget
    rw [hpointed] at hlocal
    rw [hlocal, List.forall₂_map_left_iff, List.forall₂_same]
    intro key hkey
    obtain ⟨hmem, hkept⟩ := List.mem_filter.mp hkey
    have hthere : key ∈ after.validColumns target := by
      rw [hhandles.validColumns_eq]
      exact List.mem_filter.mpr ⟨hmem, (Bool.and_eq_true_iff.mp hkept).1⟩
    have hhere : key.reachedBy entity r ∈ after.validColumns entity := by
      have hfiltered : key.reachedBy entity r ∈
          (after.validColumns entity).filter fun c => c.source.id = r.id :=
        hlocal ▸ List.mem_map_of_mem hkey
      exact (List.mem_filter.mp hfiltered).1
    exact ⟨Column.reachedBy_name entity r key, definesColumn hhere, definesColumn hthere,
      columnType_reachedBy key⟩

/-- An outline with a key that is made of a reference and of a text, referred to across schemas
beside another reference. -/
def crossing : List Edit :=
  [.addSchema "kitchen", .addEntity ⟨1⟩ "food", .addAttribute ⟨1⟩ "- id as ++",
    .addEntity ⟨1⟩ "recipe", .addAttribute ⟨2⟩ "- @food with primary",
    .addAttribute ⟨2⟩ "- code as string with ..8, primary",
    .addSchema "restaurant", .addEntity ⟨2⟩ "order", .addAttribute ⟨3⟩ "- @food as extra",
    .addAttribute ⟨3⟩ "- @kitchen.recipe with required"]

theorem foreignKeyItem_crossing :
    let after := (empty 5).run crossing
    tableLines after ⟨2⟩ = ["CREATE TABLE kitchen.recipe (", "    food_id INT NOT NULL,",
        "    code VARCHAR(8) NOT NULL,", "    PRIMARY KEY (food_id, code),",
        "    FOREIGN KEY (food_id) REFERENCES kitchen.food (id)", ");"] ∧
      tableLines after ⟨3⟩ = ["CREATE TABLE restaurant.order (", "    extra_id INT,",
        "    kitchen_recipe_food_id INT NOT NULL,", "    kitchen_recipe_code VARCHAR(8) NOT NULL,",
        "    FOREIGN KEY (extra_id) REFERENCES kitchen.food (id),",
        "    FOREIGN KEY (kitchen_recipe_food_id, kitchen_recipe_code) " ++
          "REFERENCES kitchen.recipe (food_id, code)", ");"] ∧
      ∃ r ∈ after.attributesOf ⟨3⟩, r.target = some ⟨2⟩ ∧
        (∃ first own behind, tableLines after ⟨3⟩ = first ++ own ++ behind ++ [");"] ∧
          List.Forall₂ Item.IsLine
            [.definition ("FOREIGN KEY (kitchen_recipe_food_id, kitchen_recipe_code) " ++
              "REFERENCES kitchen.recipe (food_id, code)")] own) ∧
        ∀ key ∈ after.primary ⟨2⟩,
          DefinesColumn after ⟨3⟩ (localName r key.name)
            (if key.storageKind = .serial then typeName .int else columnType key) := by
  intro after
  have hall : (tableLines after ⟨2⟩ = ["CREATE TABLE kitchen.recipe (",
          "    food_id INT NOT NULL,", "    code VARCHAR(8) NOT NULL,",
          "    PRIMARY KEY (food_id, code),",
          "    FOREIGN KEY (food_id) REFERENCES kitchen.food (id)", ");"] ∧
        tableLines after ⟨3⟩ = ["CREATE TABLE restaurant.order (", "    extra_id INT,",
          "    kitchen_recipe_food_id INT NOT NULL,",
          "    kitchen_recipe_code VARCHAR(8) NOT NULL,",
          "    FOREIGN KEY (extra_id) REFERENCES kitchen.food (id),",
          "    FOREIGN KEY (kitchen_recipe_food_id, kitchen_recipe_code) " ++
            "REFERENCES kitchen.recipe (food_id, code)", ");"]) ∧
      (∃ r ∈ after.attributesOf ⟨3⟩, r.isReference ∧ r.target = some ⟨2⟩ ∧
        ["food_id", "code"].map (localName r) = ["kitchen_recipe_food_id", "kitchen_recipe_code"]) ∧
      after.hasDefect = false ∧
      (∀ c ∈ after.primary ⟨2⟩, c.segments.length < after.maxDepth) ∧
      (after.primary ⟨2⟩).map Column.name = ["food_id", "code"] ∧
      after.qualifiedName ⟨2⟩ = "kitchen.recipe" := by
    decide +kernel
  obtain ⟨htables, ⟨r, hr, href, htarget, hlocal⟩, hclean, hdepth, hnames, hqualified⟩ := hall
  obtain ⟨⟨_, _, above, before, own, behind, _, htable, _, _, hown, _⟩, _, hcolumns⟩ :=
    foreignKeyItem_run_eq_primary (.empty 5) crossing hclean hr href htarget hdepth
  refine ⟨htables.1, htables.2, r, hr, htarget, ?_, ?_⟩
  · refine ⟨("CREATE TABLE " ++ after.qualifiedName ⟨3⟩ ++ " (") :: (above ++ before), own, behind,
      ?_, ?_⟩
    · rw [show tableLines after ⟨3⟩ = _ from htable]
      simp only [List.cons_append, List.append_assoc, after]
    · rw [show (after.primary ⟨2⟩).map Column.name = _ from hnames, hqualified, hlocal] at hown
      exact hown
  · intro key hkey
    obtain ⟨before, after', hsplit⟩ := List.append_of_mem hkey
    rw [hsplit] at hcolumns
    obtain ⟨_, _, _, _, hcolumns⟩ := exists_append_of_forall₂ hcolumns.flip
    obtain ⟨column, _, ⟨hname, hhere, _, htype⟩, _⟩ := List.forall₂_cons_left_iff.mp hcolumns
    rw [← htype, ← hname]
    exact hhere

/-! ### With defects -/

theorem mem_validColumns_pointed (hd : d.HandlesSound) {c : Column}
    (hc : c ∈ pointedColumns d r target) :
    c ∈ d.columns target ∧ c.source.primary ∧
      (c ∈ d.validColumns target ↔ c.source.hasDefect = false) := by
  obtain ⟨hmem, hkept⟩ := List.mem_filter.mp hc
  simp only [Bool.and_eq_true, Bool.not_eq_true', decide_eq_true_eq] at hkept
  refine ⟨hmem, hkept.1.1.2, ?_⟩
  rw [hd.validColumns_eq, List.mem_filter]
  simp [hmem, Column.isValid, hkept.2]

/-- A column that starts at a defective attribute and ends at a sound one comes from a
reference. -/
theorem isReference_source {c : Column} (hc : c ∈ pointedColumns d r target)
    (hdefect : c.source.hasDefect) : c.source.isReference := by
  obtain ⟨hmem, hkept⟩ := List.mem_filter.mp hc
  simp only [Bool.and_eq_true, Bool.not_eq_true'] at hkept
  obtain ⟨_, _, more, hhops, hmore⟩ := way_of_mem_columnsFrom hmem
  cases more with
  | nil =>
      have hsource : c.source = c.terminal := by simp [Column.source, hhops]
      rw [hsource, hkept.2] at hdefect
      cases hdefect
  | cons m more =>
      have hsource : c.source = m := by simp [Column.source, hhops]
      exact hsource ▸ (hmore m (by simp)).2.1

/-- The foreign keys of a document that was read point at columns of the referenced entity. Such
a column is in the table of that entity unless the attribute it starts at has a defect there, and
then that attribute is a reference and stands in the table as a comment. So no column is missing
where the references in the key of the referenced entity have no defect. -/
theorem read_foreignKey_targets {maxDepth : Nat} {source : String}
    (hread : Document.read maxDepth source = .ok d) {key : ForeignKey}
    (hkey : key ∈ foreignKeys d entity) :
    (∃ cs : List Column, key.targets = cs.map Column.name ∧ ∀ c ∈ cs,
        c ∈ d.columns key.via ∧ (c ∈ d.validColumns key.via ↔ c.source.hasDefect = false) ∧
          (c.source.hasDefect → c.source.isReference ∧
            .invalid (Text.replaceChar '.' '_' c.source.segment) c.source.defectText ∈
              d.fields key.via)) ∧
      ((∀ m ∈ d.attributesOf key.via, m.isReference → m.primary → m.hasDefect = false) →
        ∀ name ∈ key.targets, name ∈ (d.validColumns key.via).map fieldName) := by
  have hsound := sound_read hread
  have hd : d.HandlesSound := hsound.handles
  rw [foreignKeys_eq_filterMap hd hsound.ordered] at hkey
  obtain ⟨r, hr, hkey⟩ := List.mem_filterMap.mp hkey
  obtain ⟨target, _, _, rfl, htargets⟩ := exists_of_foreignKeyOf? hd hr hkey
  constructor
  · refine ⟨pointedColumns d r key.via, htargets, fun c hc => ?_⟩
    obtain ⟨hmem, _, hvalid⟩ := mem_validColumns_pointed hd hc
    refine ⟨hmem, hvalid, fun hdefect => ⟨isReference_source hc hdefect, ?_⟩⟩
    refine List.mem_flatMap.mpr ⟨c.source, source_mem_attributesOf hmem, ?_⟩
    simp [hdefect]
  · intro hclear name hname
    rw [htargets] at hname
    obtain ⟨c, hc, rfl⟩ := List.mem_map.mp hname
    obtain ⟨hmem, hprimary, hvalid⟩ := mem_validColumns_pointed hd hc
    refine List.mem_map.mpr ⟨c, hvalid.mpr ?_, rfl⟩
    by_contra hdefect
    have hdefect : c.source.hasDefect := by simpa using hdefect
    have hclear := hclear c.source (source_mem_attributesOf hmem) (isReference_source hc hdefect)
      hprimary
    simp [hclear] at hdefect

/-- A text in which the reference that makes up a key has a defect. -/
def tainted : String :=
  "# app\n## user\n- id as ++\n## post\n- @user with primary, default:x\n" ++
    "## comment\n- id as ++\n- @post\n"

theorem read_foreignKey_targets_tainted :
    ∃ d, Document.read 5 tainted = .ok d ∧
      foreignKeys d ⟨3⟩ = [⟨⟨2⟩, ["post_user_id"], ["user_id"]⟩] ∧
      tableLines d ⟨2⟩ = ["CREATE TABLE app.post (",
        "    -- user has errors: unacceptable default value", ");"] ∧
      (∃ cs : List Column, ["user_id"] = cs.map Column.name ∧ ∀ c ∈ cs,
        c ∈ d.columns ⟨2⟩ ∧ (c ∈ d.validColumns ⟨2⟩ ↔ c.source.hasDefect = false) ∧
          (c.source.hasDefect → c.source.isReference ∧
            .invalid (Text.replaceChar '.' '_' c.source.segment) c.source.defectText ∈
              d.fields ⟨2⟩)) := by
  have hall : (Document.read 5 tainted).toOption.any fun d =>
      foreignKeys d ⟨3⟩ = [⟨⟨2⟩, ["post_user_id"], ["user_id"]⟩] ∧
        tableLines d ⟨2⟩ = ["CREATE TABLE app.post (",
          "    -- user has errors: unacceptable default value", ");"] := by
    decide +kernel
  cases hread : Document.read 5 tainted with
  | error fault => rw [hread] at hall; cases hall
  | ok d =>
      rw [hread] at hall
      obtain ⟨hkeys, htable⟩ := of_decide_eq_true hall
      have hkey : (⟨⟨2⟩, ["post_user_id"], ["user_id"]⟩ : ForeignKey) ∈ foreignKeys d ⟨3⟩ := by
        rw [hkeys]
        exact List.mem_singleton_self _
      exact ⟨d, rfl, hkeys, htable, (read_foreignKey_targets hread hkey).1⟩

end Blueprint.Output.Postgres
