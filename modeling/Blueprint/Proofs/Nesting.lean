import Blueprint.Proofs.Rereading

/-! # Nested lines

The lines of a text nest: entity lines belong to the schema line before them, attribute lines
to the entity line before them, and what has nothing to belong to is left out. A document that
is read holds one node for each line that belongs somewhere, in the order of the lines, and
nothing else of the text counts.
-/

namespace Blueprint

/-! ### Sections of a list -/

section Sections

variable {α β : Type} (opens : α → Option β)

/-- The elements that open a section, each with what follows it up to the next one. -/
def sections : List α → List (β × List α)
  | [] => []
  | x :: xs =>
    match opens x with
    | some title => (title, xs.takeWhile fun y => (opens y).isNone) :: sections xs
    | none => sections xs

variable {opens} {x : α} {xs : List α}

theorem sections_eq_nil_iff : sections opens xs = [] ↔ ∀ y ∈ xs, (opens y).isNone := by
  induction xs with
  | nil => simp [sections]
  | cons y ys ih => cases hy : opens y <;> simp [sections, hy, ih]

/-- An element that opens a section ends the one before it. -/
theorem sections_concat_of_some {title : β} (hx : opens x = some title) :
    sections opens (xs ++ [x]) = sections opens xs ++ [(title, [])] := by
  induction xs with
  | nil => simp [sections, hx]
  | cons y ys ih =>
      have hbody : (ys ++ [x]).takeWhile (fun z => (opens z).isNone) =
          ys.takeWhile fun z => (opens z).isNone := by
        rw [List.takeWhile_append]
        split
        next hlength => simp [hx, (List.takeWhile_prefix _).eq_of_length hlength]
        next => rfl
      cases hy : opens y <;> simp [sections, hy, ih, hbody]

/-- Before the first section nothing counts. -/
theorem sections_concat_of_nil (hx : opens x = none) (hxs : sections opens xs = []) :
    sections opens (xs ++ [x]) = [] := by
  rw [sections_eq_nil_iff] at hxs ⊢
  intro y hy
  rcases List.mem_append.mp hy with hy | hy
  · exact hxs y hy
  · simp [List.mem_singleton.mp hy, hx]

/-- An element that opens no section goes to the last one. -/
theorem sections_concat_of_none (hx : opens x = none) {before : List (β × List α)} {title : β}
    {body : List α} (hxs : sections opens xs = before ++ [(title, body)]) :
    sections opens (xs ++ [x]) = before ++ [(title, body ++ [x])] := by
  induction xs generalizing before with
  | nil => simp [sections] at hxs
  | cons y ys ih =>
      cases hy : opens y with
      | none =>
          simp only [sections, hy] at hxs
          simpa [sections, hy] using ih hxs
      | some first =>
          simp only [sections, hy] at hxs
          simp only [List.cons_append, sections, hy]
          cases before with
          | nil =>
              -- The last section is the only one, so nothing below it opens another.
              obtain ⟨hhead, hnone⟩ := List.cons.inj hxs
              obtain ⟨rfl, rfl⟩ := Prod.mk.inj hhead
              have hall := sections_eq_nil_iff.mp hnone
              rw [sections_concat_of_nil hx hnone, List.takeWhile_append_of_pos hall,
                List.takeWhile_eq_self_iff.mpr hall]
              simp [hx]
          | cons group groups =>
              obtain ⟨rfl, hrest⟩ := List.cons.inj hxs
              have hopened : ¬ ∀ z ∈ ys, (opens z).isNone := by
                rw [← sections_eq_nil_iff, hrest]
                simp
              have hlength : (ys.takeWhile fun z => (opens z).isNone).length ≠ ys.length := by
                intro hlength
                apply hopened
                rw [← List.takeWhile_eq_self_iff]
                exact (List.takeWhile_prefix _).eq_of_length hlength
              rw [ih hrest, List.takeWhile_append, if_neg hlength]
              rfl

end Sections

/-! ### The nesting of lines -/

namespace Line

def schema? : Line → Option String
  | schema text => some text
  | _ => none

def entity? : Line → Option String
  | entity text => some text
  | _ => none

def attr? : Line → Option String
  | attr text => some text
  | _ => none

/-- The attribute lines that belong to one entity line, which they follow. -/
abbrev EntityLines := String × List String

/-- The entity lines that belong to one schema line, which they follow. -/
abbrev SchemaLines := String × List EntityLines

/-- The entity lines among those that belong to a schema line. -/
def nestEntities (lines : List Line) : List EntityLines :=
  (sections entity? lines).map fun part => (part.1, part.2.filterMap attr?)

/-- The schema lines, with the lines that belong to each. -/
def nest (lines : List Line) : List SchemaLines :=
  (sections schema? lines).map fun part => (part.1, nestEntities part.2)

/-- The attribute lines that belong to an entity line, in order. -/
def nestedAttributes (groups : List SchemaLines) : List String :=
  groups.flatMap fun group => group.2.flatMap Prod.snd

variable {lines : List Line} {groups : List SchemaLines} {es : List EntityLines} {line : Line}
  {title : String}

/-! One more line goes to the end of what it belongs to. -/

theorem nestEntities_concat_entity (lines : List Line) (text : String) :
    nestEntities (lines ++ [entity text]) = nestEntities lines ++ [(text, [])] := by
  have hline : entity? (entity text) = some text := rfl
  simp [nestEntities, sections_concat_of_some hline]

theorem nestEntities_concat_of_nil (hline : line.entity? = none)
    (hlines : nestEntities lines = []) : nestEntities (lines ++ [line]) = [] := by
  rw [nestEntities, List.map_eq_nil_iff] at hlines ⊢
  exact sections_concat_of_nil hline hlines

theorem nestEntities_concat_of_last (hline : line.entity? = none) {texts : List String}
    (hlines : nestEntities lines = es ++ [(title, texts)]) :
    nestEntities (lines ++ [line]) = es ++ [(title, texts ++ line.attr?.toList)] := by
  obtain ⟨before, last, hsections, rfl, hlast⟩ := List.map_eq_append_iff.mp hlines
  obtain ⟨⟨opening, body⟩, rfl, hpart⟩ := List.map_eq_singleton_iff.mp hlast
  obtain ⟨rfl, rfl⟩ := Prod.mk.inj hpart
  rw [nestEntities, sections_concat_of_none hline hsections]
  cases hattr : line.attr? <;> simp [hattr]

theorem nest_concat_schema (lines : List Line) (text : String) :
    nest (lines ++ [schema text]) = nest lines ++ [(text, [])] := by
  have hline : schema? (schema text) = some text := rfl
  simp [nest, sections_concat_of_some hline, nestEntities, sections]

theorem nest_concat_of_nil (hline : line.schema? = none) (hlines : nest lines = []) :
    nest (lines ++ [line]) = [] := by
  rw [nest, List.map_eq_nil_iff] at hlines ⊢
  exact sections_concat_of_nil hline hlines

theorem exists_nest_concat (line : Line) (hline : line.schema? = none)
    (hlines : nest lines = groups ++ [(title, es)]) :
    ∃ body, nestEntities body = es ∧
      nest (lines ++ [line]) = groups ++ [(title, nestEntities (body ++ [line]))] := by
  obtain ⟨before, last, hsections, rfl, hlast⟩ := List.map_eq_append_iff.mp hlines
  obtain ⟨⟨opening, body⟩, rfl, hpart⟩ := List.map_eq_singleton_iff.mp hlast
  obtain ⟨rfl, rfl⟩ := Prod.mk.inj hpart
  refine ⟨body, rfl, ?_⟩
  rw [nest, sections_concat_of_none hline hsections]
  simp

/-- What one more line does to the nesting of the lines before it. -/
inductive Joins : List SchemaLines → Line → List SchemaLines → Prop
  | schema (groups : List SchemaLines) (text : String) :
      Joins groups (.schema text) (groups ++ [(text, [])])
  | entity (groups : List SchemaLines) (title : String) (es : List EntityLines) (text : String) :
      Joins (groups ++ [(title, es)]) (.entity text) (groups ++ [(title, es ++ [(text, [])])])
  | attr (groups : List SchemaLines) (title : String) (es : List EntityLines) (name : String)
      (texts : List String) (text : String) :
      Joins (groups ++ [(title, es ++ [(name, texts)])]) (.attr text)
        (groups ++ [(title, es ++ [(name, texts ++ [text])])])
  | entity_outside (text : String) : Joins [] (.entity text) []
  | attr_outside (text : String) : Joins [] (.attr text) []
  | attr_before_entity (groups : List SchemaLines) (title text : String) :
      Joins (groups ++ [(title, [])]) (.attr text) (groups ++ [(title, [])])
  | ignored (groups : List SchemaLines) : Joins groups .ignored groups

theorem joins_nest (lines : List Line) (line : Line) :
    Joins (nest lines) line (nest (lines ++ [line])) := by
  cases line with
  | schema text =>
      rw [nest_concat_schema]
      exact .schema _ text
  | entity text =>
      rcases List.eq_nil_or_concat' (nest lines) with hnil | ⟨groups, ⟨title, es⟩, hlast⟩
      · rw [nest_concat_of_nil rfl hnil, hnil]
        exact .entity_outside text
      · obtain ⟨body, rfl, hnest⟩ := exists_nest_concat (.entity text) rfl hlast
        rw [hnest, hlast, nestEntities_concat_entity]
        exact .entity groups title _ text
  | attr text =>
      rcases List.eq_nil_or_concat' (nest lines) with hnil | ⟨groups, ⟨title, es⟩, hlast⟩
      · rw [nest_concat_of_nil rfl hnil, hnil]
        exact .attr_outside text
      · obtain ⟨body, hbody, hnest⟩ := exists_nest_concat (.attr text) rfl hlast
        rw [hnest, hlast]
        rcases List.eq_nil_or_concat' es with rfl | ⟨es, ⟨name, texts⟩, rfl⟩
        · rw [nestEntities_concat_of_nil rfl hbody]
          exact .attr_before_entity groups title text
        · rw [nestEntities_concat_of_last rfl hbody]
          exact .attr groups title es name texts text
  | ignored =>
      have hsame : nest (lines ++ [.ignored]) = nest lines := by
        rcases List.eq_nil_or_concat' (nest lines) with hnil | ⟨groups, ⟨title, es⟩, hlast⟩
        · rw [nest_concat_of_nil rfl hnil, hnil]
        · obtain ⟨body, hbody, hnest⟩ := exists_nest_concat .ignored rfl hlast
          rw [hnest, hlast]
          rcases List.eq_nil_or_concat' es with rfl | ⟨es, ⟨name, texts⟩, rfl⟩
          · rw [nestEntities_concat_of_nil rfl hbody]
          · rw [nestEntities_concat_of_last rfl hbody]
            simp [attr?]
      rw [hsame]
      exact .ignored _

/-- Attribute lines stay in the order in which they come. -/
theorem Joins.prefix_nestedAttributes {groups' : List SchemaLines}
    (hjoins : Joins groups line groups') :
    nestedAttributes groups <+: nestedAttributes groups' := by
  cases hjoins with
  | attr groups title es name texts text => exact ⟨[text], by simp [nestedAttributes]⟩
  | _ => simp [nestedAttributes]

theorem prefix_nestedAttributes (lines rest : List Line) :
    nestedAttributes (nest lines) <+: nestedAttributes (nest (lines ++ rest)) := by
  induction rest generalizing lines with
  | nil => simp
  | cons line rest ih =>
      have hrest := ih (lines ++ [line])
      rw [List.append_assoc] at hrest
      exact (joins_nest lines line).prefix_nestedAttributes.trans hrest

end Line

/-! ### Nodes and their lines -/

/-- Whether an attribute is what was declared, up to what it is called and what it points at. -/
structure Member.Declares (m : Member) (a : Attribute) : Prop where
  kind : m.kind = a.kind
  primary : m.primary = a.primary
  required : m.required = a.required
  min : m.min = a.min
  max : m.max = a.max
  defaultValue : m.defaultValue = a.defaultValue
  unique : m.unique = a.unique
  /-- A missing target is reported after the last line. -/
  defects : m.defects.filter (· ≠ .referenceInvalid) = a.defects

def Member.WrittenOn (m : Member) (text : String) : Prop :=
  ∃ a, Attribute.ofLine text = .ok a ∧ m.Declares a

def Entity.WrittenOn (e : Entity) (lines : Line.EntityLines) : Prop :=
  e.name = Name.ofText (Cursor.entityText lines.1) e.id.number ∧
    List.Forall₂ Member.WrittenOn e.attributes lines.2

def Schema.WrittenOn (s : Schema) (lines : Line.SchemaLines) : Prop :=
  s.name = Name.ofText lines.1 s.id.number ∧ List.Forall₂ Entity.WrittenOn s.entities lines.2

theorem Entity.writtenOn_nil (id : EntityId) (text : String) :
    (Entity.mk id (Name.ofText (Cursor.entityText text) id.number) []).WrittenOn (text, []) := by
  refine ⟨?_, .nil⟩
  dsimp only

theorem Schema.writtenOn_nil (id : SchemaId) (text : String) :
    (Schema.mk id (Name.ofText text id.number) []).WrittenOn (text, []) := by
  refine ⟨?_, .nil⟩
  dsimp only

namespace Member

variable {m : Member} {text : String}

theorem writtenOn_distinguish {a : Attribute} (ha : Attribute.ofLine text = .ok a) (d : Document)
    (siblings : List Member) : ((d.nextMember a).distinguish siblings).WrittenOn text := by
  obtain ⟨name, localName, heq⟩ := exists_distinguish_eq siblings (d.nextMember a)
  refine ⟨a, ha, ?_⟩
  rw [heq]
  refine ⟨rfl, rfl, rfl, rfl, rfl, rfl, rfl, List.filter_eq_self.mpr fun defect hmem => ?_⟩
  simpa using ne_of_mem_of_not_mem hmem (Attribute.ofLine_frame ha).2.1

theorem WrittenOn.resolved (hm : m.WrittenOn text) (d : Document) :
    (d.resolved m).WrittenOn text := by
  obtain ⟨a, ha, hdeclares⟩ := hm
  refine ⟨a, ha, ?_⟩
  unfold Document.resolved Member.resolvedTo
  split
  · exact { hdeclares with }
  · exact { hdeclares with }
  · split
    · exact hdeclares
    · exact { hdeclares with
        defects := by simpa [Attribute.note] using hdeclares.defects }

theorem exists_attributes {ms : List Member} {texts : List String}
    (hms : List.Forall₂ WrittenOn ms texts) : ∃ as, texts.mapM Attribute.ofLine = .ok as := by
  induction hms with
  | nil => exact ⟨[], rfl⟩
  | cons hm _ ih =>
      obtain ⟨a, ha, _⟩ := hm
      obtain ⟨as, has⟩ := ih
      exact ⟨a :: as, by rw [List.mapM_cons, ha, has]; rfl⟩

end Member

namespace Document

variable {d d' : Document} {groups : List Line.SchemaLines}

/-- A change of attributes that keeps each on its line keeps all nodes on theirs. -/
theorem writtenOn_mapMembers {f : Member → Member}
    (hf : ∀ m text, m.WrittenOn text → (f m).WrittenOn text)
    (hd : List.Forall₂ Schema.WrittenOn d.schemas groups) :
    List.Forall₂ Schema.WrittenOn (d.mapMembers f).schemas groups := by
  rw [mapMembers, mapEntities, List.forall₂_map_left_iff]
  refine hd.imp fun s lines hs => ⟨hs.1, ?_⟩
  rw [List.forall₂_map_left_iff]
  refine hs.2.imp fun e lines he => ⟨he.1, ?_⟩
  rw [List.forall₂_map_left_iff]
  exact he.2.imp hf

/-- Whether the handles in use are all that were issued, in document order. -/
def Numbered (d : Document) : Prop :=
  ∀ sort, d.handles sort = (List.range (d.issued sort)).map Handle.fresh

/-- A new node at the end keeps the numbers in order. -/
theorem Numbered.step (hd : d.Numbered)
    (hstep : ∀ sort, d'.handles sort = d.handles sort ∧ d'.issued sort = d.issued sort ∨
      d'.handles sort = d.handles sort ++ [.fresh (d.issued sort)] ∧
        d'.issued sort = d.issued sort + 1) : d'.Numbered := by
  intro sort
  rcases hstep sort with ⟨hhandles, hissued⟩ | ⟨hhandles, hissued⟩
  · rw [hhandles, hissued, hd sort]
  · rw [hhandles, hissued, hd sort, List.range_succ, List.map_append, List.map_singleton]

end Document

/-! ### Reading nested lines -/

theorem forall₂_concat_right_iff {α β : Type} {R : α → β → Prop} {xs : List α} {ys : List β}
    {y : β} : List.Forall₂ R xs (ys ++ [y]) ↔
      ∃ xs' x, List.Forall₂ R xs' ys ∧ R x y ∧ xs = xs' ++ [x] := by
  constructor
  · intro h
    rw [← List.forall₂_reverse_iff, List.reverse_append, List.reverse_singleton,
      List.singleton_append, List.forall₂_cons_right_iff] at h
    obtain ⟨x, zs, hx, hzs, hxs⟩ := h
    refine ⟨zs.reverse, x, ?_, hx, by rw [← List.reverse_cons, ← hxs, List.reverse_reverse]⟩
    rwa [← List.forall₂_reverse_iff, List.reverse_reverse]
  · rintro ⟨xs', x, hxs, hx, rfl⟩
    exact List.rel_append hxs (.cons hx .nil)

namespace Cursor

variable {c : Cursor} {groups groups' : List Line.SchemaLines} {line : Line}

/-- What holds after lines of the given nesting. -/
structure Holds (c : Cursor) (groups : List Line.SchemaLines) : Prop where
  reading : c.Reading
  numbered : c.document.Numbered
  written : List.Forall₂ Schema.WrittenOn c.document.schemas groups

theorem holds_start (maxDepth : Nat) : (start maxDepth).Holds [] where
  reading := reading_start maxDepth
  numbered := by
    intro sort
    cases sort <;> rfl
  written := .nil

theorem Holds.addSchema (hc : c.Holds groups) (text : String) :
    Holds ⟨(c.document.addSchema text).1, some (.fresh c.document.schemaCount), none⟩
      (groups ++ [(text, [])]) where
  reading := hc.reading.addSchema text
  numbered := by
    have hentities := Document.entities_addSchema (d := c.document) text
    apply hc.numbered.step
    intro sort
    cases sort with
    | schema => exact Or.inr ⟨by simp [Document.handles, Document.addSchema, Document.issued], rfl⟩
    | entity => exact Or.inl ⟨by rw [Document.handles, hentities, Document.handles], rfl⟩
    | attr =>
        exact Or.inl ⟨by simp only [Document.handles, Document.members, hentities], rfl⟩
  written := by
    have hnew := Schema.writtenOn_nil (.fresh c.document.schemaCount) text
    exact List.rel_append hc.written (.cons hnew .nil)

theorem Holds.placeEntity {title : String} {es : List Line.EntityLines}
    (hc : c.Holds (groups ++ [(title, es)])) (text : String) :
    ∃ c', c.read (.entity text) = .ok c' ∧
      c'.Holds (groups ++ [(title, es ++ [(text, [])])]) := by
  obtain ⟨before, s, hbefore, ⟨hname, hentities⟩, hsplit⟩ := forall₂_concat_right_iff.mp hc.written
  have hschema : c.schema = some s.id := by
    rw [← hc.reading.schema, hsplit]
    simp
  have hplaced := hc.reading.handles.schemas_placeEntity_last hsplit
    (c.document.nextEntity (entityText text))
  refine ⟨_, hc.reading.read_entity_eq hschema text, hc.reading.placeEntity hschema _, ?_, ?_⟩
  · apply hc.numbered.step
    intro sort
    cases sort with
    | schema => exact Or.inl ⟨Document.handles_placeEntity_schema _ _, rfl⟩
    | entity =>
        refine Or.inr ⟨?_, rfl⟩
        simp only [Document.handles, Document.entities, hplaced, hsplit]
        simp [Document.nextEntity, Document.issued]
    | attr =>
        exact Or.inl ⟨by simp only [Document.handles, Document.members_placeEntity], rfl⟩
  · rw [hplaced]
    have hnew := Entity.writtenOn_nil (.fresh c.document.entityCount) text
    exact List.rel_append hbefore
      (.cons ⟨hname, List.rel_append hentities (.cons hnew .nil)⟩ .nil)

theorem Holds.attached {title name : String} {es : List Line.EntityLines} {texts : List String}
    (hc : c.Holds (groups ++ [(title, es ++ [(name, texts)])])) {text : String} {a : Attribute}
    (ha : Attribute.ofLine text = .ok a) :
    ∃ c', c.read (.attr text) = .ok c' ∧
      c'.Holds (groups ++ [(title, es ++ [(name, texts ++ [text])])]) := by
  obtain ⟨before, ⟨id, schemaName, entities⟩, hbefore, ⟨hschemaName, hentities⟩, hsplit⟩ :=
    forall₂_concat_right_iff.mp hc.written
  obtain ⟨others, e, hothers, ⟨hname, hattributes⟩, rfl⟩ := forall₂_concat_right_iff.mp hentities
  have hentity : c.entity = some e.id := by
    rw [← hc.reading.entity, hsplit]
    simp
  obtain ⟨found, hfound⟩ := hc.reading.entity?_isSome hentity
  have hattached : (c.document.attached e.id a).schemas = before ++ [⟨id, schemaName, others ++
      [{ e with attributes :=
          e.attributes ++ [(c.document.nextMember a).distinguish e.attributes] }]⟩] := by
    rw [hc.reading.handles.attached_eq, hc.reading.handles.schemas_appendMember_last hsplit]
  refine ⟨_, by rw [hc.reading.read_attr_eq hentity, ha]; rfl, hc.reading.attached hfound ha, ?_,
    ?_⟩
  · apply hc.numbered.step
    intro sort
    cases sort with
    | schema => exact Or.inl ⟨by simp [Document.handles, hattached, hsplit], rfl⟩
    | entity =>
        exact Or.inl ⟨by simp [Document.handles, Document.entities, hattached, hsplit], rfl⟩
    | attr =>
        refine Or.inr ⟨?_, rfl⟩
        simp [Document.handles, Document.members, Document.entities, hattached, hsplit,
          Document.nextMember, Attribute.issued, Member.distinguish_id, Document.issued]
  · rw [hattached]
    have hmember := Member.writtenOn_distinguish ha c.document e.attributes
    exact List.rel_append hbefore (.cons ⟨hschemaName, List.rel_append hothers
      (.cons ⟨hname, List.rel_append hattributes (.cons hmember .nil)⟩ .nil)⟩ .nil)

/-- A line that belongs nowhere changes nothing, and any other line adds its node, unless what
an attribute line declares cannot be read. -/
theorem Holds.read (hc : c.Holds groups) (hjoins : Line.Joins groups line groups') :
    (∃ c', c.read line = .ok c' ∧ c'.Holds groups') ∨
      ∃ fault text, c.read line = .error fault ∧ Attribute.ofLine text = .error fault ∧
        Line.nestedAttributes groups' = Line.nestedAttributes groups ++ [text] := by
  cases hjoins with
  | schema groups text => exact Or.inl ⟨_, rfl, hc.addSchema text⟩
  | entity groups title es text => exact Or.inl (hc.placeEntity text)
  | attr groups title es name texts text =>
      cases ha : Attribute.ofLine text with
      | ok a => exact Or.inl (hc.attached ha)
      | error fault =>
          obtain ⟨before, s, _, ⟨_, hentities⟩, hsplit⟩ := forall₂_concat_right_iff.mp hc.written
          obtain ⟨others, e, _, _, hothers⟩ := forall₂_concat_right_iff.mp hentities
          have hentity : c.entity = some e.id := by
            rw [← hc.reading.entity, hsplit]
            simp [hothers]
          refine Or.inr ⟨fault, text, ?_, ha, by simp [Line.nestedAttributes]⟩
          rw [hc.reading.read_attr_eq hentity, ha]
          rfl
  | entity_outside text =>
      have hschema : c.schema = none := by
        rw [← hc.reading.schema, List.forall₂_nil_right_iff.mp hc.written]
        rfl
      exact Or.inl ⟨c, by simp only [Cursor.read, hschema], hc⟩
  | attr_outside text =>
      have hentity : c.entity = none := by
        rw [← hc.reading.entity, List.forall₂_nil_right_iff.mp hc.written]
        rfl
      exact Or.inl ⟨c, by simp only [Cursor.read, hentity], hc⟩
  | attr_before_entity groups title text =>
      obtain ⟨before, s, _, ⟨_, hentities⟩, hsplit⟩ := forall₂_concat_right_iff.mp hc.written
      have hentity : c.entity = none := by
        rw [← hc.reading.entity, hsplit]
        simp [List.forall₂_nil_right_iff.mp hentities]
      exact Or.inl ⟨c, by simp only [Cursor.read, hentity], hc⟩
  | ignored groups => exact Or.inl ⟨c, rfl, hc⟩

/-- What was declared on the lines so far could all be read. -/
theorem Holds.exists_attributes (hc : c.Holds groups) :
    ∃ as, (Line.nestedAttributes groups).mapM Attribute.ofLine = .ok as := by
  have hmembers : List.Forall₂ Member.WrittenOn
      (c.document.schemas.flatMap fun s => s.entities.flatMap Entity.attributes)
      (Line.nestedAttributes groups) :=
    List.rel_flatMap hc.written fun _ _ hs => List.rel_flatMap hs.2 fun _ _ he => he.2
  exact Member.exists_attributes hmembers

/-- Reading goes on to the end, or fails at the first attribute line that cannot be read. -/
theorem Holds.foldlM {lines : List Line} (hc : c.Holds (Line.nest lines)) (rest : List Line) :
    (∃ c', rest.foldlM Cursor.read c = .ok c' ∧ c'.Holds (Line.nest (lines ++ rest))) ∨
      ∃ fault, rest.foldlM Cursor.read c = .error fault ∧
        (Line.nestedAttributes (Line.nest (lines ++ rest))).mapM Attribute.ofLine =
          .error fault := by
  induction rest generalizing c lines with
  | nil => exact Or.inl ⟨c, rfl, by rwa [List.append_nil]⟩
  | cons line rest ih =>
      have hsplit : lines ++ line :: rest = (lines ++ [line]) ++ rest := by simp
      rw [List.foldlM_cons, hsplit]
      rcases hc.read (Line.joins_nest lines line) with
        ⟨c', hread, hc'⟩ | ⟨fault, text, hread, ha, htexts⟩
      · rw [hread]
        exact ih hc'
      · refine Or.inr ⟨fault, by rw [hread]; rfl, ?_⟩
        obtain ⟨as, has⟩ := hc.exists_attributes
        obtain ⟨more, hmore⟩ := Line.prefix_nestedAttributes (lines ++ [line]) rest
        rw [← hmore, htexts, List.append_assoc, List.mapM_append, has, List.singleton_append,
          List.mapM_cons, ha]
        rfl

/-- Lines that declare nothing need not be left out. -/
theorem foldlM_filter_ignored (c : Cursor) (lines : List Line) :
    (lines.filter (· ≠ .ignored)).foldlM Cursor.read c = lines.foldlM Cursor.read c := by
  induction lines generalizing c with
  | nil => rfl
  | cons line lines ih =>
      by_cases hline : line = .ignored
      · subst hline
        rw [List.filter_cons_of_neg (by simp), ih, List.foldlM_cons]
        rfl
      · rw [List.filter_cons_of_pos (by simpa using hline), List.foldlM_cons, List.foldlM_cons]
        congr 1
        funext c
        exact ih c

end Cursor

/-! ### Texts that declare the same -/

theorem Text.Chars.trim_blanks_append {blanks : List Char} (hblanks : ∀ c ∈ blanks, isBlank c)
    (cs : List Char) : trim (blanks ++ cs) = trim cs := by
  rw [trim, trim, trimStart, List.dropWhile_append_of_pos hblanks, trimStart]

namespace Line

/-- Whether the second lines are the first ones, with blanks around them and with or without
lines that declare nothing. -/
inductive Relaid : List String → List String → Prop
  | nil : Relaid [] []
  | padded {before after : String} (hbefore : before.toList.all Text.isBlank)
      (hafter : after.toList.all Text.isBlank) (s : String) {ls ls' : List String}
      (h : Relaid ls ls') : Relaid (s :: ls) ((before ++ s ++ after) :: ls')
  | deleted {s : String} (hs : ofText s = .ignored) {ls ls' : List String}
      (h : Relaid ls ls') : Relaid (s :: ls) ls'
  | inserted {s : String} (hs : ofText s = .ignored) {ls ls' : List String}
      (h : Relaid ls ls') : Relaid ls (s :: ls')

/-- A line declares the same with blanks around it. -/
theorem ofText_padded {before after : String} (hbefore : before.toList.all Text.isBlank)
    (hafter : after.toList.all Text.isBlank) (s : String) :
    ofText (before ++ s ++ after) = ofText s := by
  apply ofText_congr
  rw [Text.trim, Text.trim, String.toList_append, String.toList_append,
    Text.Chars.trim_append_blanks (List.all_eq_true.mp hafter),
    Text.Chars.trim_blanks_append (List.all_eq_true.mp hbefore)]

theorem Relaid.filter_map_ofText {ls ls' : List String} (h : Relaid ls ls') :
    (ls'.map ofText).filter (· ≠ .ignored) = (ls.map ofText).filter (· ≠ .ignored) := by
  induction h with
  | nil => rfl
  | padded hbefore hafter s _ ih =>
      rw [List.map_cons, List.map_cons, ofText_padded hbefore hafter, List.filter_cons,
        List.filter_cons, ih]
  | deleted hs _ ih => rw [ih, List.map_cons, hs, List.filter_cons_of_neg (by simp)]
  | inserted hs _ ih => rw [List.map_cons, hs, List.filter_cons_of_neg (by simp), ih]

/-- The nesting of the lines of a text. -/
def nesting (source : String) : List SchemaLines :=
  nest ((Text.lines source).map ofText)

end Line

namespace Document

theorem read_eq_foldlM (maxDepth : Nat) (source : String) :
    Document.read maxDepth source =
      (((Text.lines source).map Line.ofText).foldlM Cursor.read (.start maxDepth)).map fun c =>
        c.document.resolveReferences := by
  rw [Document.read, Line.map_snd_scan, Cursor.foldlM_filter_ignored]

/-- An entity line and an attribute line here have nothing to belong to. -/
def misplaced : String :=
  "## lost\n# shop\n- a as int\n## item with x\n- b as int\n"

end Document

end Blueprint
