import Blueprint.Proofs.Reading

/-! # Reading as editing

A text can also be turned into a document by edits, one for each line. Reading leaves
all references open to the end, whereas an edit resolves a reference at once and tries
it again with every new entity. Both lead to the same document, as long as no reference
is written as a handle: what a name means in the lines before stays what it means.
-/

namespace Blueprint

/-- Whether a line declares no reference by handle. -/
def Line.NoHandle : Line → Prop
  | .attr text => ∀ a, Attribute.ofLine text = .ok a → a.isReference →
      (Handle.ofText? a.name : Option EntityId) = none
  | _ => True

instance : DecidablePred Line.NoHandle
  | .attr text =>
      match h : Attribute.ofLine text with
      | .ok a =>
          decidable_of_iff (a.isReference → (Handle.ofText? a.name : Option EntityId) = none) (by
            simp [Line.NoHandle, h])
      | .error _ => .isTrue (by simp [Line.NoHandle, h])
  | .schema _ => .isTrue trivial
  | .entity _ => .isTrue trivial
  | .ignored => .isTrue trivial

/-! ### Edits for lines -/

namespace Cursor

/-- The edit that a line asks for, if it has something to belong to. -/
def edit? (c : Cursor) : Line → Option Edit
  | .schema text => some (.addSchema text)
  | .entity text => c.schema.map fun schema => .addEntity schema (entityText text)
  | .attr text => c.entity.map fun entity => .addAttribute entity text
  | .ignored => none

/-- Where the next line belongs after an edit. -/
def follow (c : Cursor) (d : Document) : Answer → Cursor
  | .schema id => ⟨d, some id, none⟩
  | .entity id => ⟨d, c.schema, some id⟩
  | _ => { c with document := d }

/-- Carry out the edit that a line asks for. -/
def replay (c : Cursor) (line : Line) : Except EditError Cursor :=
  match c.edit? line with
  | none => .ok c
  | some e => (c.document.edit e).map fun (d, answer) => c.follow d answer

end Cursor

/-- Build a document from its text by edits. -/
def Document.replay (maxDepth : Nat) (source : String) : Except EditError Document :=
  (((Line.scan source).map Prod.snd).foldlM Cursor.replay (.start maxDepth)).map Cursor.document

/-- A report that is taken back leaves nothing behind. -/
theorem Attribute.filter_note {a : Attribute} (hlost : a.isLost = false) :
    (a.note [.referenceInvalid]).defects.filter (· ≠ .referenceInvalid) = a.defects := by
  have hfree : .referenceInvalid ∉ a.defects := by simpa [isLost] using hlost
  rw [note, List.filter_append, List.filter_eq_self.mpr]
  · simp
  · intro defect hmem
    simpa using ne_of_mem_of_not_mem hmem hfree

namespace Document

variable {d d' : Document}

/-! ### Names in a growing document -/

/-- A name keeps its meaning when an entity is added at the end. -/
theorem HandlesSound.entityByName?_placeEntity_last (hd : d.HandlesSound) {before : List Schema}
    {s : Schema} (hsplit : d.schemas = before ++ [s]) (e : Entity) {name : String} {t : EntityId}
    (h : d.entityByName? name = some t) :
    (d.placeEntity s.id e).entityByName? name = some t := by
  have hplaced := hd.schemas_placeEntity_last hsplit e
  have hfirst : ∀ (es : List Entity) (p : Entity → Bool), (es.find? p).map Entity.id = some t →
      ((es ++ [e]).find? p).map Entity.id = some t := by
    intro es p hfound
    obtain ⟨x, hx, hid⟩ := Option.map_eq_some_iff.mp hfound
    rw [List.find?_append, hx]
    exact congrArg some hid
  unfold entityByName? at h ⊢
  split at h
  next schema entity _ =>
    simp only [findEntity?, findSchema?, hsplit, List.find?_append] at h
    simp only [findEntity?, findSchema?, hplaced, List.find?_append]
    -- Only the last schema grows, and it grows at its end.
    cases hfound : before.find? (·.name = schema) with
    | some s' => simpa [hfound] using h
    | none =>
        by_cases hname : s.name = schema
        · simp only [hfound, List.find?_singleton, hname, decide_true, if_true, Option.none_or,
            Option.bind_some] at h ⊢
          exact hfirst s.entities _ h
        · simp [hfound, hname] at h
  next =>
    have hentities : (d.placeEntity s.id e).entities = d.entities ++ [e] := by
      simp [entities, hplaced, hsplit]
    rw [hentities]
    exact hfirst d.entities _ h

/-! ### References in a growing document -/

/-- Whether no reference is written as a handle. -/
def NoHandles (d : Document) : Prop :=
  ∀ m ∈ d.members, m.isReference → (Handle.ofText? m.name : Option EntityId) = none

/-- A fresh reference with the target that its name means, or with the defect that there is
none. -/
def linked (d : Document) (m : Member) : Member :=
  if m.isReference then
    match d.entityByName? m.name with
    | some t => { m with target := some t }
    | none => { m with toAttribute := m.note [.referenceInvalid] }
  else m

theorem linked_eq_resolved {m : Member} (href : m.isReference)
    (hname : (Handle.ofText? m.name : Option EntityId) = none) (hlost : m.isLost = false) :
    d.linked m = d.resolved m := by
  rw [linked, if_pos href, resolved_of_no_handle hname, hlost]
  rfl

/-- Linking changes a target or reports a defect, and nothing else. -/
theorem linked_frame {β : Type} {f : Member → β}
    (htarget : ∀ (m : Member) t, f { m with target := t } = f m)
    (hdefects : ∀ (m : Member) defects, f { m with defects := defects } = f m) (m : Member) :
    f (d.linked m) = f m := by
  unfold linked
  split
  · split
    · exact htarget m _
    · exact hdefects m _
  · rfl

theorem linked_id (m : Member) : (d.linked m).id = m.id :=
  linked_frame (f := Member.id) (fun _ _ => rfl) (fun _ _ => rfl) m

theorem linked_localName (m : Member) : (d.linked m).localName = m.localName :=
  linked_frame (f := fun m => m.localName) (fun _ _ => rfl) (fun _ _ => rfl) m

theorem linked_segment (m : Member) : (d.linked m).segment = m.segment :=
  linked_frame (f := fun m => m.segment) (fun _ _ => rfl) (fun _ _ => rfl) m

theorem linked_congr (h : ∀ name, d.entityByName? name = d'.entityByName? name) :
    d.linked = d'.linked := by
  funext m
  simp only [linked, h]

theorem addSchema_mapMembers (f : Member → Member) (name : String) :
    (d.mapMembers f).addSchema name =
      ((d.addSchema name).1.mapMembers f, (d.addSchema name).2) := by
  simp [addSchema, mapMembers, mapEntities]

theorem placeEntity_mapMembers (f : Member → Member) (schema : SchemaId) (name : String) :
    (d.mapMembers f).placeEntity schema ((d.mapMembers f).nextEntity name) =
      (d.placeEntity schema (d.nextEntity name)).mapMembers f := by
  have hnext : (d.mapMembers f).nextEntity name = d.nextEntity name := rfl
  rw [hnext]
  simp only [placeEntity, modifySchema, mapMembers, mapEntities, List.map_map]
  congr 1
  apply List.map_congr_left
  intro s _
  simp only [Function.comp_apply]
  split
  · simp [nextEntity]
  · rfl

theorem distinguish_map {f : Member → Member} (hlocal : ∀ m, (f m).localName = m.localName)
    (hsegment : ∀ m, (f m).segment = m.segment) (siblings : List Member) (m : Member) :
    m.distinguish (siblings.map f) = m.distinguish siblings := by
  have hdrop : m.dropTakenLocalName (siblings.map f) = m.dropTakenLocalName siblings := by
    simp only [Member.dropTakenLocalName, Member.localNameTaken, List.any_map, Function.comp_def,
      hlocal]
    rfl
  rw [Member.distinguish, Member.distinguish, hdrop]
  generalize m.dropTakenLocalName siblings = kept
  simp only [Member.replaceTakenSegment, List.any_map, Function.comp_def, hsegment]

/-- Changing the attributes before a new one is added leaves out the new one. -/
theorem HandlesSound.appendMember_mapMembers (hd : d.HandlesSound) {f : Member → Member}
    (hlocal : ∀ m, (f m).localName = m.localName) (hsegment : ∀ m, (f m).segment = m.segment)
    (entity : EntityId) {m : Member} (hm : m.id = .fresh d.attrCount) :
    (d.mapMembers f).appendMember entity m =
      (d.appendMember entity m).mapMembers fun x => if x.id = m.id then x else f x := by
  -- No attribute has the new handle yet.
  have hkeep : ∀ e ∈ d.entities, (e.attributes.map fun x => if x.id = m.id then x else f x) =
      e.attributes.map f := by
    intro e he
    apply List.map_congr_left
    intro x hx
    apply if_neg
    intro heq
    exact hd.fresh_not_mem .attr
      (hm ▸ heq ▸ List.mem_map.mpr ⟨x, mem_members.mpr ⟨e, he, hx⟩, rfl⟩)
  simp only [appendMember, mapMembers, mapEntities, List.map_map]
  congr 1
  apply List.map_congr_left
  intro s hs
  simp only [Function.comp_apply, List.map_map, Schema.mk.injEq, true_and]
  apply List.map_congr_left
  intro e he
  have he : e ∈ d.entities := mem_entities.mpr ⟨s, hs, he⟩
  simp only [Function.comp_apply]
  split
  · simp only [List.map_append, hkeep e he, distinguish_map hlocal hsegment, List.map_cons,
      Member.distinguish_id, if_true, List.map_nil]
  · rw [hkeep e he]

end Document

namespace Cursor

variable {c : Cursor}

/-- The cursor with its references resolved. -/
def resolved (c : Cursor) : Cursor :=
  { c with document := c.document.resolveReferences }

theorem Reading.resolveReferences_eq (hc : c.Reading) (hnames : c.document.NoHandles) :
    c.document.resolveReferences = c.document.mapMembers c.document.linked := by
  apply Document.mapMembers_congr
  intro m hm
  obtain ⟨htarget, hlost⟩ := hc.unresolved m hm
  have hopen : m.isOpen = m.isReference := by simp [Attribute.isOpen, htarget]
  rw [hopen, hlost]
  cases href : m.isReference with
  | false => simp [Document.linked, href]
  | true => exact (Document.linked_eq_resolved href (hnames m hm href) hlost).symm

/-- Trying the reported references again with a new entity is as good as resolving all of
them with that entity. -/
theorem Reading.retryReferences_linked (hc : c.Reading) (hnames : c.document.NoHandles)
    {schema : SchemaId} (hschema : c.schema = some schema) (name : String) :
    let placed := c.document.placeEntity schema (c.document.nextEntity name)
    (placed.mapMembers c.document.linked).retryReferences = placed.mapMembers placed.linked := by
  intro placed
  obtain ⟨before, s, hsplit, rfl⟩ := hc.exists_last_schema hschema
  rw [Document.retryReferences, Document.mapMembers_mapMembers]
  apply Document.mapMembers_congr
  intro m hm
  rw [Document.members_placeEntity] at hm
  obtain ⟨htarget, hlost⟩ := hc.unresolved m hm
  have hresolved : (placed.mapMembers c.document.linked).resolved = placed.resolved :=
    Document.resolved_congr (Document.outline_mapMembers _)
  rw [hresolved]
  cases href : m.isReference with
  | false => simp [Document.linked, href, Attribute.isOpen]
  | true =>
      cases hfound : c.document.entityByName? m.name with
      | some t =>
          -- A target that was found stays the first of its name.
          have hstays : placed.entityByName? m.name = some t :=
            hc.handles.entityByName?_placeEntity_last hsplit (c.document.nextEntity name) hfound
          simp [Document.linked, href, hfound, hstays, Attribute.isOpen]
      | none =>
          -- The report is taken back, and the name is looked up again.
          have hlinked : c.document.linked m =
              { m with toAttribute := m.note [.referenceInvalid] } := by
            simp [Document.linked, href, hfound]
          have hopen : (m.note [.referenceInvalid]).isOpen = true := by
            simp [Attribute.isOpen, Attribute.note, htarget]
            exact href
          have hreported : (m.note [.referenceInvalid]).isLost = true := by
            simp [Attribute.isLost, Attribute.note]
          rw [hlinked, hopen, hreported, Document.linked_eq_resolved href (hnames m hm href) hlost,
            if_pos (by rfl), Member.unreported, Attribute.filter_note hlost]
          rfl

theorem Reading.noHandles_attached (hc : c.Reading) (hnames : c.document.NoHandles)
    (entity : EntityId) {a : Attribute}
    (ha : a.isReference → (Handle.ofText? a.name : Option EntityId) = none) :
    (c.document.attached entity a).NoHandles := by
  intro m hm href
  rcases hc.handles.mem_members_attached hm with hold | ⟨siblings, rfl⟩
  · exact hnames m hold href
  · have href : (c.document.nextMember a).isReference := by simpa using href
    rw [Member.distinguish_name siblings href, Document.nextMember, Attribute.issued]
    dsimp only
    split
    · exact Handle.ofText?_eq_none (Name.fallback_isPlain _).not_mem_hyphen
    · exact ha href

/-- Resolving a new reference at once is as good as resolving all references with it. -/
theorem Reading.resolveReference_linked (hc : c.Reading) {entity : EntityId} {e : Entity}
    (he : c.document.entity? entity = some e) {line : String} {a : Attribute}
    (ha : Attribute.ofLine line = .ok a)
    (hnames : (c.document.attached entity a).NoHandles) :
    let attached := c.document.attached entity a
    (((c.document.mapMembers c.document.linked).attached entity a).resolveReference
      (.fresh c.document.attrCount)).1 = attached.mapMembers attached.linked := by
  intro attached
  have hsame : Document.SameHandles c.document (c.document.mapMembers c.document.linked) :=
    Document.sameHandles_mapMembers fun m => Document.linked_id m
  have hlinked := hc.handles.step hsame.step
  have hadded : (c.document.mapMembers c.document.linked).attached entity a =
      attached.mapMembers fun m =>
        if m.id = .fresh c.document.attrCount then m else c.document.linked m := by
    rw [hlinked.attached_eq]
    exact (hc.handles.appendMember_mapMembers Document.linked_localName Document.linked_segment
      entity (m := c.document.nextMember a) rfl).trans
        (congrArg (Document.mapMembers _) (hc.handles.attached_eq entity a).symm)
  have hreading := hc.attached he ha
  have hhandles := hreading.handles.step (Document.sameHandles_mapMembers (f := fun m =>
    if m.id = .fresh c.document.attrCount then m else c.document.linked m) (by
      intro m
      split
      · rfl
      · exact Document.linked_id m)).step
  have houtline : attached.outline = c.document.outline := Document.outline_attached entity a
  rw [hadded, hhandles.resolveReference_eq, Document.mapMembers_mapMembers,
    Document.linked_congr (Document.entityByName?_congr houtline.symm)]
  apply Document.mapMembers_congr
  intro m hm
  rw [Document.resolved_congr (Document.outline_mapMembers _)]
  obtain ⟨htarget, hlost⟩ := hreading.unresolved m hm
  -- All but the new attribute are linked already.
  by_cases hid : m.id = .fresh c.document.attrCount
  · rw [if_pos hid]
    cases href : m.isReference with
    | false => simp [Document.linked, Attribute.isOpen, href]
    | true =>
        have hopen : m.isOpen = true := by simp [Attribute.isOpen, href, htarget]
        rw [if_pos ⟨hid, hopen⟩]
        exact (Document.linked_eq_resolved href (hnames m hm href) hlost).symm
  · rw [if_neg hid, if_neg fun h => hid ((Document.linked_id m).symm.trans h.1)]

/-! ### Line by line -/

theorem Reading.noHandles_read (hc : c.Reading) (hnames : c.document.NoHandles) {line : Line}
    (hline : line.NoHandle) {c' : Cursor} (hread : c.read line = .ok c') :
    c'.document.NoHandles := by
  cases line with
  | schema text =>
      rw [read_schema_eq] at hread
      obtain rfl := Except.ok.inj hread
      intro m hm
      rw [Document.members, Document.entities_addSchema] at hm
      exact hnames m hm
  | entity text =>
      cases hschema : c.schema with
      | none =>
          simp only [Cursor.read, hschema] at hread
          exact Except.ok.inj hread ▸ hnames
      | some schema =>
          rw [hc.read_entity_eq hschema] at hread
          obtain rfl := Except.ok.inj hread
          intro m hm
          rw [Document.members_placeEntity] at hm
          exact hnames m hm
  | attr text =>
      cases hentity : c.entity with
      | none =>
          simp only [Cursor.read, hentity] at hread
          exact Except.ok.inj hread ▸ hnames
      | some entity =>
          rw [hc.read_attr_eq hentity] at hread
          obtain ⟨a, ha, rfl⟩ := exists_of_map_eq_ok hread
          exact hc.noHandles_attached hnames entity (hline a ha)
  | ignored => exact Except.ok.inj hread ▸ hnames

theorem Reading.replay_schema (hc : c.Reading) (hnames : c.document.NoHandles) (text : String) :
    c.resolved.replay (.schema text) =
      ((c.read (.schema text)).mapError .fault).map Cursor.resolved := by
  have hresolved : c.resolved.document = c.document.mapMembers c.document.linked :=
    hc.resolveReferences_eq hnames
  have hline : (Line.schema text).NoHandle := trivial
  have hafter := (hc.addSchema text).resolveReferences_eq
    (hc.noHandles_read hnames hline (read_schema_eq c text))
  have hadd : c.resolved.document.addSchema text =
      ((c.document.addSchema text).1.resolveReferences, .fresh c.document.schemaCount) := by
    rw [hresolved, Document.addSchema_mapMembers, hafter,
      Document.linked_congr (Document.entityByName?_addSchema (d := c.document) text)]
    rfl
  simp only [replay, edit?, Document.edit, hadd]
  rfl

theorem Reading.replay_entity (hc : c.Reading) (hnames : c.document.NoHandles) (text : String) :
    c.resolved.replay (.entity text) =
      ((c.read (.entity text)).mapError .fault).map Cursor.resolved := by
  have hsame : Document.SameHandles c.document c.resolved.document :=
    Document.sameHandles_resolveReferences
  have hcursor : c.resolved.schema = c.schema := rfl
  cases hschema : c.schema with
  | none =>
      simp only [replay, edit?, hcursor, Cursor.read, hschema]
      rfl
  | some schema =>
      have hline : (Line.entity text).NoHandle := trivial
      have hread := hc.read_entity_eq hschema text
      have hafter := (hc.placeEntity hschema (entityText text)).resolveReferences_eq
        (hc.noHandles_read hnames hline hread)
      obtain ⟨s, hs⟩ : ∃ s, c.resolved.document.schema? schema = some s := by
        rw [Document.exists_schema?_iff, hsame.handles .schema, ← Document.exists_schema?_iff]
        exact hc.schema?_isSome hschema
      -- The edit tries reported references again, where reading resolves all at the end.
      have hplaced : (c.resolved.document.placeEntity schema
          (c.resolved.document.nextEntity (entityText text))).retryReferences =
            (c.document.placeEntity schema
              (c.document.nextEntity (entityText text))).resolveReferences := by
        have hresolved : c.resolved.document = c.document.mapMembers c.document.linked :=
          hc.resolveReferences_eq hnames
        rw [hresolved, Document.placeEntity_mapMembers,
          hc.retryReferences_linked hnames hschema, hafter]
      rw [hread, replay, edit?, hcursor, hschema]
      simp only [Option.map_some, Document.edit, Document.addEntity_of_schema? hs, hplaced]
      simp only [Except.map, Except.mapError, follow, resolved, hschema]
      rfl

theorem Reading.replay_attr (hc : c.Reading) (hnames : c.document.NoHandles) {text : String}
    (hline : (Line.attr text).NoHandle) :
    c.resolved.replay (.attr text) =
      ((c.read (.attr text)).mapError .fault).map Cursor.resolved := by
  have hsame : Document.SameHandles c.document c.resolved.document :=
    Document.sameHandles_resolveReferences
  have hcursor : c.resolved.entity = c.entity := rfl
  cases hentity : c.entity with
  | none =>
      simp only [replay, edit?, hcursor, Cursor.read, hentity]
      rfl
  | some entity =>
      obtain ⟨e, he⟩ := hc.entity?_isSome hentity
      obtain ⟨e', he'⟩ : ∃ e, c.resolved.document.entity? entity = some e := by
        rw [Document.exists_entity?_iff, hsame.handles .entity, ← Document.exists_entity?_iff]
        exact ⟨e, he⟩
      rw [hc.read_attr_eq hentity, replay, edit?, hcursor, hentity]
      cases ha : Attribute.ofLine text with
      | error fault =>
          simp only [Option.map_some, Document.edit, Document.addAttribute, readLine, ha]
          rfl
      | ok a =>
          have hno := hc.noHandles_attached hnames entity (hline a ha)
          -- The edit resolves the new reference alone; the others are resolved before it.
          have hattached : ((c.resolved.document.attached entity a).resolveReference
              (.fresh c.resolved.document.attrCount)).1 =
                (c.document.attached entity a).resolveReferences := by
            have hresolved : c.resolved.document = c.document.mapMembers c.document.linked :=
              hc.resolveReferences_eq hnames
            have hcount : c.resolved.document.attrCount = c.document.attrCount := rfl
            rw [hcount, hresolved, hc.resolveReference_linked he ha hno,
              (hc.attached he ha).resolveReferences_eq hno]
          have hadd : c.resolved.document.addAttribute entity text =
              .ok ((c.document.attached entity a).resolveReferences,
                .fresh c.resolved.document.attrCount) := by
            simp only [Document.addAttribute, readLine, ha]
            rw [← hattached]
            exact Document.insertAttribute_of_entity? he' a
          simp only [Option.map_some, Document.edit, hadd]
          simp only [Except.map, Except.mapError, follow, resolved, hentity]

/-- Following a line by an edit is as good as reading it, if references are resolved before
and after. -/
theorem Reading.replay_resolved (hc : c.Reading) (hnames : c.document.NoHandles) {line : Line}
    (hline : line.NoHandle) :
    c.resolved.replay line = ((c.read line).mapError .fault).map Cursor.resolved := by
  cases line with
  | schema text => exact hc.replay_schema hnames text
  | entity text => exact hc.replay_entity hnames text
  | attr text => exact hc.replay_attr hnames hline
  | ignored => rfl

theorem Reading.foldlM_replay (hc : c.Reading) (hnames : c.document.NoHandles) {lines : List Line}
    (hlines : ∀ line ∈ lines, line.NoHandle) :
    lines.foldlM Cursor.replay c.resolved =
      ((lines.foldlM Cursor.read c).mapError .fault).map Cursor.resolved := by
  induction lines generalizing c with
  | nil => rfl
  | cons line lines ih =>
      obtain ⟨hline, hlines⟩ := List.forall_mem_cons.mp hlines
      rw [List.foldlM_cons, List.foldlM_cons, hc.replay_resolved hnames hline]
      cases hread : c.read line with
      | error fault => rfl
      | ok next => exact ih (hc.read hread) (hc.noHandles_read hnames hline hread) hlines

end Cursor

namespace Document

/-- A text with a reference to a later entity, a qualified one and one that means nothing. -/
def forward : String :=
  "# blog\n## post with comments\n- id as ++\n- @author\n- @blog.tag\n- @missing\n## author\n" ++
    "- id as ++ with primary\n# shop\n- stray\n## author\n## tag\n"

end Document

end Blueprint
