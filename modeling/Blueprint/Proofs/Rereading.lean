import Blueprint.Proofs.Generation
import Blueprint.Proofs.Lines
import Blueprint.Proofs.Numbering
import Blueprint.Proofs.Reading

/-! # Reading what was written

A document can be read back from its text if its names are names, its attributes are
what their lines declare, and its references mean their targets. What is read differs
from it in its handles only, so it is written and generated from in the same way.
-/

namespace Blueprint

/-! ### Reading one line -/

theorem Cursor.entityText_of_isPlain {name : String} (hname : Name.IsPlain name) :
    entityText name = name := by
  cases hcut : Text.cut? Line.withMark name with
  | none => simp [entityText, hcut]
  | some parts =>
      obtain ⟨front, back⟩ := parts
      have hblank : ' ' ∈ name.toList := by
        rw [Text.eq_of_cut?_eq_some hcut]
        simp [Line.withMark]
      exact absurd (hname _ hblank) (by decide)

/-- An attribute whose segment is its own stays as it is. -/
theorem Member.distinguish_eq_self {m : Member} {siblings : List Member}
    (hsegment : ∀ s ∈ siblings, s.segment ≠ m.segment) : m.distinguish siblings = m := by
  have hlocal : m.localNameTaken siblings = false := by
    simp only [localNameTaken, Bool.and_eq_false_imp, List.any_eq_false, decide_eq_true_eq]
    intro _ s hs heq
    apply hsegment s hs
    cases hname : m.localName with
    | none => simp [hname] at *
    | some name => simp [Attribute.segment, heq, hname]
  have hfree : (siblings.any fun s => s.segment = m.segment) = false := by
    simpa using hsegment
  simp only [distinguish, dropTakenLocalName, hlocal, replaceTakenSegment, hfree,
    Bool.false_eq_true, if_false]

/-- A new attribute of the last entity comes last. -/
theorem Document.HandlesSound.schemas_appendMember_last {d : Document} (hd : d.HandlesSound)
    {before : List Schema} {id : SchemaId} {name : String} {es : List Entity} {e : Entity}
    (hsplit : d.schemas = before ++ [⟨id, name, es ++ [e]⟩]) (m : Member) :
    (d.appendMember e.id m).schemas = before ++ [⟨id, name,
      es ++ [{ e with attributes := e.attributes ++ [m.distinguish e.attributes] }]⟩] := by
  have hnodup : ((before.flatMap Schema.entities ++ es ++ [e]).map Entity.id).Nodup := by
    simpa [handles, entities, hsplit] using hd.nodup .entity
  -- Handles are distinct, so the change reaches the last entity only.
  have hother : ∀ x ∈ before.flatMap Schema.entities ++ es, x.id ≠ e.id := by
    intro x hx heq
    rw [List.map_append, List.nodup_append] at hnodup
    exact hnodup.2.2 _ (List.mem_map.mpr ⟨x, hx, rfl⟩) _ (by simp) heq
  have hkeep : ∀ (es' : List Entity) (f : Entity → Entity),
      (∀ x ∈ es', x ∈ before.flatMap Schema.entities ++ es) →
        (es'.map fun x => if x.id = e.id then f x else x) = es' := by
    intro es' f hes'
    rw [List.map_congr_left fun x hx => if_neg (hother x (hes' x hx)), List.map_id']
  have hbefore : ∀ f : Entity → Entity, (before.map fun s =>
      { s with entities := s.entities.map fun x => if x.id = e.id then f x else x }) = before := by
    intro f
    have hsame : ∀ s ∈ before,
        { s with entities := s.entities.map fun x => if x.id = e.id then f x else x } = s := by
      intro s hs
      rw [hkeep s.entities f fun x hx =>
        List.mem_append_left _ (List.mem_flatMap.mpr ⟨s, hs, hx⟩)]
    rw [List.map_congr_left hsame, List.map_id']
  simp only [appendMember, mapEntities, hsplit, List.map_append, hbefore, List.map_cons,
    List.map_nil, hkeep es _ fun x hx => List.mem_append_right _ hx, if_true]

namespace Cursor

variable {c : Cursor}

theorem Reading.read_schema (hc : c.Reading) {name : String} (hname : Name.normalize name = name)
    (hne : name ≠ "") :
    ∃ c', c.read (.schema name) = .ok c' ∧ c'.Reading ∧
      c'.document.schemas = c.document.schemas ++ [⟨.fresh c.document.schemaCount, name, []⟩] ∧
      c'.document.maxDepth = c.document.maxDepth := by
  refine ⟨_, rfl, hc.addSchema name, ?_, rfl⟩
  simp [Name.ofText, hname, hne]

theorem Reading.read_entity (hc : c.Reading) {before : List Schema} {s : Schema}
    (hsplit : c.document.schemas = before ++ [s]) {name : String}
    (hname : Name.normalize name = name) (hne : name ≠ "") :
    ∃ c', c.read (.entity name) = .ok c' ∧ c'.Reading ∧
      c'.document.schemas = before ++
        [{ s with entities := s.entities ++ [⟨.fresh c.document.entityCount, name, []⟩] }] ∧
      c'.document.maxDepth = c.document.maxDepth := by
  have hschema : c.schema = some s.id := by
    rw [← hc.schema, hsplit]
    simp
  have htext : entityText name = name := entityText_of_isPlain (hname ▸ Name.normalize_isPlain name)
  refine ⟨_, hc.read_entity_eq hschema name, hc.placeEntity hschema _, ?_, rfl⟩
  rw [hc.handles.schemas_placeEntity_last hsplit, htext]
  simp [Document.nextEntity, Name.ofText, hname, hne]

theorem Reading.read_attr (hc : c.Reading) {before : List Schema} {id : SchemaId} {name : String}
    {es : List Entity} {e : Entity}
    (hsplit : c.document.schemas = before ++ [⟨id, name, es ++ [e]⟩]) {line : String}
    {a : Attribute} (ha : Attribute.ofLine line = .ok a) (hne : a.name ≠ "")
    (hsegment : ∀ m ∈ e.attributes, m.segment ≠ a.segment) :
    ∃ c', c.read (.attr line) = .ok c' ∧ c'.Reading ∧
      c'.document.schemas = before ++ [⟨id, name, es ++
        [{ e with attributes := e.attributes ++ [{ a with id := .fresh c.document.attrCount }] }]⟩] ∧
      c'.document.maxDepth = c.document.maxDepth := by
  have hentity : c.entity = some e.id := by
    rw [← hc.entity, hsplit]
    simp
  obtain ⟨found, hfound⟩ := hc.entity?_isSome hentity
  have hnext : c.document.nextMember a = { a with id := .fresh c.document.attrCount } := by
    simp [Document.nextMember, Attribute.issued, hne]
  refine ⟨_, by rw [hc.read_attr_eq hentity, ha]; rfl, hc.attached hfound ha, ?_, rfl⟩
  rw [hc.handles.attached_eq, hc.handles.schemas_appendMember_last hsplit, hnext,
    Member.distinguish_eq_self hsegment]

/-! ### Reading the lines of nodes -/

theorem foldlM_append_of_ok {lines : List Line} {c' : Cursor}
    (h : lines.foldlM Cursor.read c = .ok c') (rest : List Line) :
    (lines ++ rest).foldlM Cursor.read c = rest.foldlM Cursor.read c' := by
  rw [List.foldlM_append, h]
  rfl

theorem foldlM_cons_of_ok {line : Line} {c' : Cursor} (h : c.read line = .ok c')
    (rest : List Line) :
    (line :: rest).foldlM Cursor.read c = rest.foldlM Cursor.read c' := by
  rw [List.foldlM_cons, h]
  rfl

theorem Reading.read_attributes (hc : c.Reading) {before : List Schema} {id : SchemaId}
    {name : String} {es : List Entity} {e : Entity}
    (hsplit : c.document.schemas = before ++ [⟨id, name, es ++ [e]⟩]) {ms : List Member}
    (hlines : ∀ m ∈ ms, m.name ≠ "" ∧
      Attribute.ofLine (Text.trim m.line) = .ok { m.toAttribute with target := none })
    (hsegments : ((e.attributes ++ ms).map fun m => m.segment).Nodup) :
    ∃ c' e', (ms.map fun m => Line.attr (Text.trim m.line)).foldlM Cursor.read c = .ok c' ∧
      c'.Reading ∧ c'.document.schemas = before ++ [⟨id, name, es ++ [e']⟩] ∧
      e'.unnumbered = ⟨.nowhere, e.name, (e.attributes ++ ms).map Member.unnumbered⟩ ∧
      c'.document.maxDepth = c.document.maxDepth := by
  induction ms generalizing c e with
  | nil => exact ⟨c, e, rfl, hc, hsplit, by simp [Entity.unnumbered], rfl⟩
  | cons m ms ih =>
      obtain ⟨⟨hne, hline⟩, hlines⟩ := List.forall_mem_cons.mp hlines
      have hsegment : ∀ sibling ∈ e.attributes, sibling.segment ≠ m.segment := by
        intro sibling hsibling
        rw [List.map_append, List.nodup_append] at hsegments
        exact hsegments.2.2 _ (List.mem_map.mpr ⟨sibling, hsibling, rfl⟩) _ (by simp)
      obtain ⟨c₁, hread, hc₁, hsplit₁, hdepth₁⟩ := hc.read_attr hsplit hline hne hsegment
      -- The attribute just read is a sibling of those that follow.
      have hsegments₁ := hsegments
      rw [← List.singleton_append, ← List.append_assoc] at hsegments₁
      obtain ⟨c', e', hfold, hc', hsplit', hnumbered, hdepth⟩ :=
        ih hc₁ hsplit₁ hlines (by simpa [Attribute.segment] using hsegments₁)
      refine ⟨c', e', ?_, hc', hsplit', ?_, hdepth.trans hdepth₁⟩
      · rw [List.map_cons, foldlM_cons_of_ok hread, hfold]
      · rw [hnumbered]
        simp [Member.unnumbered]

end Cursor

/-- Whether the lines of an entity can be read back. -/
structure Entity.Readable (e : Entity) : Prop where
  name : e.name ≠ "" ∧ Name.normalize e.name = e.name
  attributes : ∀ m ∈ e.attributes, m.name ≠ "" ∧
    Attribute.ofLine (Text.trim m.line) = .ok { m.toAttribute with target := none }
  segments : (e.attributes.map fun m => m.segment).Nodup

namespace Cursor

variable {c : Cursor}

theorem Reading.read_entities (hc : c.Reading) {before : List Schema} {s : Schema}
    (hsplit : c.document.schemas = before ++ [s]) {es : List Entity}
    (hes : ∀ e ∈ es, e.Readable) :
    ∃ c' s', (es.flatMap Entity.declared).foldlM Cursor.read c = .ok c' ∧ c'.Reading ∧
      c'.document.schemas = before ++ [s'] ∧
      s'.unnumbered = ⟨.nowhere, s.name, (s.entities ++ es).map Entity.unnumbered⟩ ∧
      c'.document.maxDepth = c.document.maxDepth := by
  induction es generalizing c s with
  | nil => exact ⟨c, s, rfl, hc, hsplit, by simp [Schema.unnumbered], rfl⟩
  | cons e es ih =>
      obtain ⟨he, hes⟩ := List.forall_mem_cons.mp hes
      obtain ⟨c₁, hread, hc₁, hsplit₁, hdepth₁⟩ := hc.read_entity hsplit he.name.2 he.name.1
      obtain ⟨c₂, e₂, hattrs, hc₂, hsplit₂, hnumbered₂, hdepth₂⟩ :=
        hc₁.read_attributes hsplit₁ he.attributes (by simpa using he.segments)
      obtain ⟨c', s', hfold, hc', hsplit', hnumbered, hdepth⟩ := ih hc₂ hsplit₂ hes
      refine ⟨c', s', ?_, hc', hsplit', ?_, hdepth.trans (hdepth₂.trans hdepth₁)⟩
      · rw [List.flatMap_cons, Entity.declared, List.cons_append, foldlM_cons_of_ok hread,
          foldlM_append_of_ok hattrs, hfold]
      · rw [hnumbered]
        simp only [List.append_assoc, List.map_append, List.map_cons, List.singleton_append,
          hnumbered₂, List.nil_append]
        rfl

theorem Reading.read_schemas (hc : c.Reading) {ss : List Schema}
    (hss : ∀ s ∈ ss, (s.name ≠ "" ∧ Name.normalize s.name = s.name) ∧
      ∀ e ∈ s.entities, e.Readable) :
    ∃ c', (ss.flatMap Schema.declared).foldlM Cursor.read c = .ok c' ∧ c'.Reading ∧
      c'.document.unnumbered = c.document.unnumbered ++ ss.map Schema.unnumbered ∧
      c'.document.maxDepth = c.document.maxDepth := by
  induction ss generalizing c with
  | nil => exact ⟨c, rfl, hc, by simp, rfl⟩
  | cons s ss ih =>
      obtain ⟨⟨hname, hentities⟩, hss⟩ := List.forall_mem_cons.mp hss
      obtain ⟨c₁, hread, hc₁, hsplit₁, hdepth₁⟩ := hc.read_schema hname.2 hname.1
      obtain ⟨c₂, s₂, hes, hc₂, hsplit₂, hnumbered₂, hdepth₂⟩ :=
        hc₁.read_entities hsplit₁ hentities
      obtain ⟨c', hfold, hc', hnumbered, hdepth⟩ := ih hc₂ hss
      refine ⟨c', ?_, hc', ?_, hdepth.trans (hdepth₂.trans hdepth₁)⟩
      · rw [List.flatMap_cons, Schema.declared, List.cons_append, foldlM_cons_of_ok hread,
          foldlM_append_of_ok hes, hfold]
      · rw [hnumbered, Document.unnumbered, Document.unnumbered, hsplit₂]
        simp only [List.append_assoc, List.map_append, List.map_cons, List.map_nil,
          List.singleton_append, hnumbered₂, List.nil_append]
        rfl

end Cursor

namespace Document

variable {ρ : Renumbering} {d d' : Document}

/-! ### References after renumbering -/

theorem Renumbers.entityByName? (h : Renumbers ρ d d') (name : String) :
    d'.entityByName? name = (d.entityByName? name).map ρ.apply := by
  have hfind : ∀ schema entity,
      d'.findEntity? schema entity = (d.findEntity? schema entity).map (Entity.renumber ρ) := by
    intro schema entity
    simp only [findEntity?, findSchema?, h.schemas, List.find?_map, Function.comp_def,
      Schema.renumber, Option.bind_map, Entity.renumber, Option.map_bind]
    rfl
  unfold Document.entityByName?
  rw [h.entities, List.find?_map]
  split
  · rw [hfind, Option.map_map, Option.map_map]
    rfl
  · rw [Option.map_map, Option.map_map]
    rfl

theorem Renumbers.mapMembers (h : Renumbers ρ d d') {f g : Member → Member}
    (hfg : ∀ m ∈ d.members, f (m.renumber ρ) = (g m).renumber ρ) :
    Renumbers ρ (d.mapMembers g) (d'.mapMembers f) := by
  refine ⟨?_, h.maxDepth⟩
  simp only [Document.mapMembers, mapEntities, h.schemas, List.map_map]
  apply List.map_congr_left
  intro s hs
  simp only [Function.comp_apply, Schema.renumber, List.map_map, Schema.mk.injEq, true_and]
  apply List.map_congr_left
  intro e he
  simp only [Function.comp_apply, Entity.renumber, List.map_map, Entity.mk.injEq, true_and]
  apply List.map_congr_left
  intro m hm
  exact hfg m (mem_members.mpr ⟨e, mem_entities.mpr ⟨s, hs, he⟩, hm⟩)

theorem Renumbers.render (h : Renumbers ρ d d') : d'.render = d.render := by
  simp only [Document.render, h.schemas, List.map_map, Function.comp_def, Schema.render,
    Schema.renumber, Entity.render, Entity.renumber]
  rfl

theorem Renumbers.hasDefect (h : Renumbers ρ d d') : d'.hasDefect = d.hasDefect := by
  simp only [Document.hasDefect, h.schemas, List.any_map, Function.comp_def, Schema.hasDefect,
    Schema.renumber, Entity.renumber, Member.renumber_hasDefect]
  rfl

/-! ### Documents that can be read back -/

/-- Whether a document can be read back from its text. -/
@[mk_iff]
structure Readable (d : Document) : Prop where
  flawless : d.hasDefect = false
  schema : ∀ s ∈ d.schemas, s.name ≠ "" ∧ Name.normalize s.name = s.name
  entity : ∀ e ∈ d.entities, e.name ≠ "" ∧ Name.normalize e.name = e.name
  /-- A line declares the attribute it was written for. -/
  line : ∀ m ∈ d.members, '\n' ∉ m.line.toList ∧
    Attribute.ofLine m.line = .ok { m.toAttribute with target := none }
  segments : ∀ e ∈ d.entities, (e.attributes.map fun m => m.segment).Nodup
  /-- The name of a reference means its target. -/
  reference : ∀ m ∈ d.members, m.isReference →
    m.target ≠ none ∧ (d.findTarget? m.name).map Target.id = m.target

instance (d : Document) : Decidable d.Readable :=
  decidable_of_iff' _ (readable_iff d)

theorem Readable.written (hd : d.Readable) : d.Written where
  schema s hs := ⟨(hd.schema s hs).2 ▸ Name.normalize_isPlain s.name, (hd.schema s hs).1⟩
  entity e he := ⟨(hd.entity e he).2 ▸ Name.normalize_isPlain e.name, (hd.entity e he).1⟩
  member m hm := (hd.line m hm).1

theorem Readable.defects_eq_nil (hd : d.Readable) {m : Member} (hm : m ∈ d.members) :
    m.defects = [] := by
  obtain ⟨e, he, hm⟩ := mem_members.mp hm
  obtain ⟨s, hs, he⟩ := mem_entities.mp he
  have hflawless := hd.flawless
  simp only [hasDefect, Schema.hasDefect, List.any_eq_false, Bool.not_eq_true] at hflawless
  simpa [Attribute.hasDefect] using hflawless s hs e he m hm

theorem Readable.entity_readable (hd : d.Readable) {e : Entity} (he : e ∈ d.entities) :
    e.Readable where
  name := hd.entity e he
  attributes m hm := by
    have hmem : m ∈ d.members := mem_members.mpr ⟨e, he, hm⟩
    have hline := (hd.line m hmem).2
    refine ⟨fun hempty => ?_, ?_⟩
    · have hdefect := (Attribute.ofLine_frame hline).2.2 hempty
      simp [hd.defects_eq_nil hmem] at hdefect
    · rw [← hline]
      simp only [Attribute.ofLine, Attribute.lineBody, Text.trim_trim]
  segments := hd.segments e he

/-- The text of a document says what the document says. -/
theorem Readable.exists_reading (hd : d.Readable) :
    ∃ c : Cursor,
      ((Line.scan d.render).map Prod.snd).foldlM Cursor.read (.start d.maxDepth) = .ok c ∧
      c.Reading ∧ c.document.unnumbered = d.unnumbered ∧ c.document.maxDepth = d.maxDepth := by
  rw [hd.written.scan_render]
  have hss : ∀ s ∈ d.schemas, (s.name ≠ "" ∧ Name.normalize s.name = s.name) ∧
      ∀ e ∈ s.entities, e.Readable := fun s hs =>
    ⟨hd.schema s hs, fun e he => hd.entity_readable (mem_entities.mpr ⟨s, hs, he⟩)⟩
  exact (Cursor.reading_start d.maxDepth).read_schemas hss

theorem Sound.no_handle (hd : d.Sound) (hreadable : d.Readable) {m : Member}
    (hm : m ∈ d.members) (href : m.isReference) :
    (Handle.ofText? m.name : Option EntityId) = none := by
  obtain ⟨t, ht⟩ := Option.ne_none_iff_exists'.mp (hreadable.reference m hm href).1
  exact hd.plain.no_handle ((hd.settled m hm).denotes t ht).2

/-- Targets can be told from names. -/
theorem Sound.target_eq (hd : d.Sound) (hreadable : d.Readable) {m : Member}
    (hm : m ∈ d.members) :
    m.target = if m.isReference then d.entityByName? m.name else none := by
  split
  next href =>
    have hfound := (hreadable.reference m hm href).2
    rw [findTarget?_of_no_handle (hd.no_handle hreadable hm href), Option.map_map] at hfound
    simpa [Function.comp_def, Target.id] using hfound.symm
  next href =>
    cases htarget : m.target with
    | none => rfl
    | some t => exact absurd ((hd.settled m hm).denotes t htarget).1 href

/-- A reference with the target that its name means. -/
def bound (d : Document) (m : Member) : Member :=
  { m with target := if m.isReference then d.entityByName? m.name else none }

/-- Resolving a renumbered reference finds the renumbered target. -/
theorem Renumbers.resolve_unbound (h : Renumbers ρ (d.mapMembers Member.unbound) d') {m : Member}
    (hdefects : m.defects = [])
    (href : m.isReference → (Handle.ofText? m.name : Option EntityId) = none ∧
      ∃ t, d.entityByName? m.name = some t) :
    (if (m.unbound.renumber ρ).isOpen && !(m.unbound.renumber ρ).isLost then
        d'.resolved (m.unbound.renumber ρ)
      else m.unbound.renumber ρ) = (d.bound m.unbound).renumber ρ := by
  have hlost : (m.unbound.renumber ρ).isLost = false := by
    simp [Attribute.isLost, Member.renumber, Member.unbound, hdefects]
  have hopen : (m.unbound.renumber ρ).isOpen = m.isReference := by
    simp [Attribute.isOpen, Member.unbound]
    rfl
  -- Nothing was reported yet, so every reference is resolved here.
  rw [hopen, hlost]
  cases hkind : m.isReference with
  | false =>
      have hkind : m.unbound.isReference = false := hkind
      rw [bound, hkind]
      rfl
  | true =>
      obtain ⟨hname, t, ht⟩ := href hkind
      have hfound : d'.entityByName? m.name = some (ρ.apply t) := by
        rw [h.entityByName?, entityByName?_congr (outline_mapMembers _), ht]
        rfl
      have hkind : m.unbound.isReference = true := hkind
      have hname : (Handle.ofText? (m.unbound.renumber ρ).name : Option EntityId) = none := hname
      have hfound : d'.entityByName? (m.unbound.renumber ρ).name = some (ρ.apply t) := hfound
      have ht : d.entityByName? m.unbound.name = some t := ht
      rw [if_pos (by rfl), resolved_of_no_handle hname, hfound, bound, hkind, ht]
      rfl

/-- What is read back is the same document under other handles. -/
theorem Sound.exists_reread (hd : d.Sound) (hreadable : d.Readable) :
    ∃ d' ρ, d.reread = .ok d' ∧ Renumbers ρ d d' := by
  obtain ⟨c, hfold, hc, hsame, hdepth⟩ := hreadable.exists_reading
  obtain ⟨ρ, hρ⟩ := hd.handles.exists_renumbers hc.handles hsame hdepth
    fun m hm => (hc.unresolved m hm).1
  refine ⟨c.document.resolveReferences, ρ, by rw [reread, Document.read, hfold]; rfl, ?_⟩
  -- Giving each name its meaning brings back the targets that were left out.
  have hbound : (d.mapMembers Member.unbound).mapMembers d.bound = d := by
    rw [mapMembers_mapMembers]
    apply mapMembers_eq_self
    intro m hm
    calc d.bound m.unbound
        = { m with target := if m.isReference then d.entityByName? m.name else none } := rfl
      _ = { m with target := m.target } := by rw [← hd.target_eq hreadable hm]
  rw [← hbound]
  apply hρ.mapMembers
  intro m hm
  rw [members_mapMembers] at hm
  obtain ⟨old, hold, rfl⟩ := List.mem_map.mp hm
  apply hρ.resolve_unbound (hreadable.defects_eq_nil hold)
  intro href
  have htarget := hd.target_eq hreadable hold
  rw [if_pos href] at htarget
  refine ⟨hd.no_handle hreadable hold href, ?_⟩
  exact htarget ▸ Option.ne_none_iff_exists'.mp (hreadable.reference old hold href).1

/-- The text of a document that can be read back, reached by any run, reads as the same
document under other handles, without defects; it is written in the same way, and every
backend generates the same files from it. -/
theorem IsOrigin.reread_run (hd : d.IsOrigin) {es : List Edit} (hes : ∀ e ∈ es, e.isWritten)
    (hreadable : (d.run es).Readable) :
    ∃ d' ρ, (d.run es).reread = .ok d' ∧ Renumbers ρ (d.run es) d' ∧ d'.hasDefect = false ∧
      d'.render = (d.run es).render ∧
      ∀ b : Output.Backend, b.generate d' = b.generate (d.run es) := by
  have hsound := hd.sound_run hes
  obtain ⟨d', ρ, hread, hρ⟩ := hsound.exists_reread hreadable
  have hsound' : d'.Sound := sound_read hread
  exact ⟨d', ρ, hread, hρ, hρ.hasDefect.trans hreadable.flawless, hρ.render,
    fun b => Output.Backend.generate_renumber hρ hsound.handles hsound.ordered hsound'.handles
      hsound'.ordered b⟩

/-- A run after which handles are no longer numbered by place, and an entity has references on
both sides of a gap. -/
def reissue : List Edit :=
  [.addSchema "shop", .addEntity ⟨1⟩ "draft", .removeEntity ⟨1⟩, .addEntity ⟨1⟩ "item",
    .addAttribute ⟨2⟩ "- id as ++ with primary", .addEntity ⟨1⟩ "order",
    .addAttribute ⟨3⟩ "- @item with required", .addAttribute ⟨3⟩ "- note as int",
    .addEntity ⟨1⟩ "user", .addAttribute ⟨4⟩ "- id as ++ with primary", .removeAttribute ⟨3⟩,
    .addAttribute ⟨3⟩ "- @user as seller", .addAttribute ⟨3⟩ "- @user as buyer"]

theorem reread_run_reissue :
    let after := (empty 5).run reissue
    after.Readable ∧ (after.attributesOf ⟨3⟩).map Member.id = [⟨2⟩, ⟨5⟩, ⟨6⟩] ∧
      Output.Postgres.tableLines after ⟨3⟩ = ["CREATE TABLE shop.order (",
        "    item_id INT NOT NULL,", "    seller_id INT,", "    buyer_id INT,",
        "    FOREIGN KEY (item_id) REFERENCES shop.item (id),",
        "    FOREIGN KEY (seller_id) REFERENCES shop.user (id),",
        "    FOREIGN KEY (buyer_id) REFERENCES shop.user (id)", ");"] ∧
      ∃ d' ρ, after.reread = .ok d' ∧ Renumbers ρ after d' ∧ d'.hasDefect = false ∧
        d'.render = after.render ∧ ∀ b : Output.Backend, b.generate d' = b.generate after := by
  intro after
  have hall : after.Readable ∧ (after.attributesOf ⟨3⟩).map Member.id = [⟨2⟩, ⟨5⟩, ⟨6⟩] ∧
      Output.Postgres.tableLines after ⟨3⟩ = ["CREATE TABLE shop.order (",
        "    item_id INT NOT NULL,", "    seller_id INT,", "    buyer_id INT,",
        "    FOREIGN KEY (item_id) REFERENCES shop.item (id),",
        "    FOREIGN KEY (seller_id) REFERENCES shop.user (id),",
        "    FOREIGN KEY (buyer_id) REFERENCES shop.user (id)", ");"] := by
    decide +kernel
  exact ⟨hall.1, hall.2.1, hall.2.2,
    IsOrigin.reread_run (.empty 5) (by simp [reissue, Edit.isWritten]) hall.1⟩

end Document

end Blueprint
