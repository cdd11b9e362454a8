import Blueprint.Proofs.Relations

/-! # Columns behind relations

Relations are inferred from the columns and the keys of entities, and which columns hold a
relation is looked up later, in all columns of the entity at hand. The lookup always finds some.
Only an association that one of its own entities makes may have none on that side, since the key
of this entity may hold nothing but columns of its own.
-/

namespace Blueprint.Document

variable {d : Document} {entity target : EntityId} {c : Column} {r : Relation}

/-- Whether a column of an entity comes from a reference and stores an attribute that the target
declares. -/
structure LeadsInto (d : Document) (entity target : EntityId) (c : Column) : Prop where
  column : c ∈ d.columns entity
  reference : c.isDirect = false
  owner : (d.ownerOf? c.terminal.id).map Entity.id = some target

/-- What holds of the columns that are found for a relation. -/
structure Witnessed (d : Document) (r : Relation) : Prop where
  /-- One of the other side is held by the base. -/
  one : r.assoc = none → r.many = false → r.baseToHas d ≠ []
  /-- Many of the other side each hold the base. -/
  many : r.assoc = none → r.many → r.hasToBase d ≠ []
  /-- The key of an associating entity holds both sides, itself apart. -/
  base : ∀ e, r.assoc = some e → r.base ≠ e → ∃ c ∈ (r.assocKeys d).1, c ∈ d.primary e
  has : ∀ e, r.assoc = some e → r.has ≠ e → ∃ c ∈ (r.assocKeys d).2, c ∈ d.primary e
  baseToHas : ∀ c, c ∈ r.baseToHas d ↔ d.LeadsInto r.base r.has c
  hasToBase : ∀ c, c ∈ r.hasToBase d ↔ d.LeadsInto r.has r.base c
  assocKeys : ∀ e, r.assoc = some e →
    ∀ c, (c ∈ (r.assocKeys d).1 ↔ d.LeadsInto e r.base c) ∧
      (c ∈ (r.assocKeys d).2 ↔ d.LeadsInto e r.has c)

theorem mem_columnsInto :
    c ∈ d.columnsInto entity target ↔
      c ∈ d.columns entity ∧ c.isDirect = false ∧ c.owner = target := by
  simp [columnsInto]

theorem HandlesSound.mem_columnsInto_iff (hd : d.HandlesSound) :
    c ∈ d.columnsInto entity target ↔ d.LeadsInto entity target c := by
  rw [mem_columnsInto]
  constructor
  · rintro ⟨hc, hdirect, rfl⟩
    exact ⟨hc, hdirect, hd.ownerOf?_terminal hc⟩
  · rintro ⟨hc, hdirect, howner⟩
    exact ⟨hc, hdirect, Option.some.inj ((hd.ownerOf?_terminal hc).symm.trans howner)⟩

/-- What a direct column stores is declared by the entity itself. -/
theorem owner_of_isDirect (hc : c ∈ d.columns entity) (hdirect : c.isDirect) :
    c.owner = entity := by
  have hwalk : c.isDirect → [] = ([] : List Member) ∧ c.owner = entity :=
    columnsFrom_induction (motive := fun hops entity c => c.isDirect → hops = [] ∧ c.owner = entity)
      (fun _ _ _ _ _ hempty => ⟨List.isEmpty_iff.mp hempty, rfl⟩)
      (fun hops _ m _ _ _ _ _ ih hempty =>
        absurd (ih hempty).1 (List.append_ne_nil_of_right_ne_nil hops (List.cons_ne_nil m []))) hc
  exact (hwalk hdirect).2

/-- The key of an associating entity holds each entity that it associates, itself apart. -/
theorem AssociatedBy.exists_key {e : EntityId} {p : EntityId × EntityId}
    (h : d.AssociatedBy e p) (htarget : target = p.1 ∨ target = p.2) (hne : target ≠ e) :
    ∃ c ∈ d.columnsInto e target, c ∈ d.primary e := by
  obtain ⟨_, i, j, _, hbase, hhas⟩ := h
  have hmem : target ∈ ((d.primary e).map Column.owner).eraseDups := by
    rcases htarget with rfl | rfl
    · exact List.mem_of_getElem? hbase
    · exact List.mem_of_getElem? hhas
  obtain ⟨c, hkey, rfl⟩ := List.mem_map.mp (List.mem_eraseDups.mp hmem)
  have hc : c ∈ d.columns e := (List.mem_filter.mp hkey).1
  refine ⟨c, mem_columnsInto.mpr ⟨hc, ?_, rfl⟩, hkey⟩
  exact Bool.eq_false_iff.mpr fun hdirect => hne (owner_of_isDirect hc hdirect)

theorem HandlesSound.witnessed (hd : d.HandlesSound) (hr : r ∈ d.relations) : d.Witnessed r := by
  have hinferred := inferred_relations d
  have hkeys : ∀ e, r.assoc = some e →
      r.assocKeys d = (d.columnsInto e r.base, d.columnsInto e r.has) := by
    intro e hassoc
    rw [Relation.assocKeys, hassoc]
  refine ⟨fun _ hone => ?_, fun hassoc hmany => ?_, fun e hassoc hne => ?_,
    fun e hassoc hne => ?_, fun _ => hd.mem_columnsInto_iff, fun _ => hd.mem_columnsInto_iff,
    fun e hassoc c => ?_⟩
  · obtain ⟨_, ⟨_, _, c, hc, hdirect, howner⟩, _⟩ := hinferred.one r hr hone
    exact List.ne_nil_of_mem (mem_columnsInto.mpr ⟨hc, hdirect, howner⟩)
  · obtain ⟨⟨_, _, c, hc, hdirect, howner⟩, _⟩ :=
      (hinferred.many r.pair).mp ⟨r, hr, rfl, hmany, hassoc⟩
    exact List.ne_nil_of_mem (mem_columnsInto.mpr ⟨hc, hdirect, howner⟩)
  · rw [hkeys e hassoc]
    exact (hinferred.associated r hr e hassoc).2.1.exists_key (Or.inl rfl) hne
  · rw [hkeys e hassoc]
    exact (hinferred.associated r hr e hassoc).2.1.exists_key (Or.inr rfl) hne
  · rw [hkeys e hassoc]
    exact ⟨hd.mem_columnsInto_iff, hd.mem_columnsInto_iff⟩

/-- After any run, every relation has columns that hold it: the base of a relation to one holds
the key of the other side, a relation to many is held by the other side, and an association by
the key of the entity that makes it, on each side but that of this entity. The columns found are
exactly those that come from references and lead to the entity looked for. -/
theorem IsOrigin.witnessed_relations_run (hd : d.IsOrigin) (es : List Edit) :
    ∀ r ∈ (d.run es).relations, (d.run es).Witnessed r :=
  fun _ hr => (hd.sound.handles.run es).1.witnessed hr

/-- Badges have a number and a user for their key, users have a mentor among them, and a post has
an author. -/
def badges : List Edit :=
  [.addSchema "club", .addEntity ⟨1⟩ "user", .addEntity ⟨1⟩ "badge", .addEntity ⟨1⟩ "post",
    .addAttribute ⟨1⟩ "- id as ++", .addAttribute ⟨1⟩ "- @user as mentor",
    .addAttribute ⟨2⟩ "- number as int with primary", .addAttribute ⟨2⟩ "- @user with primary",
    .addAttribute ⟨3⟩ "- id as ++", .addAttribute ⟨3⟩ "- @user as author"]

/-- A badge associates itself with a user, and its key holds the user only. -/
theorem witnessed_relations_run_badges :
    ((empty 5).run badges).relations =
      [⟨⟨1⟩, ⟨1⟩, none, false, true⟩, ⟨⟨2⟩, ⟨1⟩, some ⟨2⟩, true, true⟩,
        ⟨⟨3⟩, ⟨1⟩, none, false, true⟩, ⟨⟨1⟩, ⟨3⟩, none, true, true⟩] ∧
      ((empty 5).run badges).columnsInto ⟨2⟩ ⟨2⟩ = [] ∧
      (∃ c, ((empty 5).run badges).LeadsInto ⟨2⟩ ⟨1⟩ c) ∧
      (∃ c, ((empty 5).run badges).LeadsInto ⟨1⟩ ⟨1⟩ c) ∧
      ∃ c, ((empty 5).run badges).LeadsInto ⟨3⟩ ⟨1⟩ c := by
  obtain ⟨hrelations, hown⟩ : ((empty 5).run badges).relations =
      [⟨⟨1⟩, ⟨1⟩, none, false, true⟩, ⟨⟨2⟩, ⟨1⟩, some ⟨2⟩, true, true⟩,
        ⟨⟨3⟩, ⟨1⟩, none, false, true⟩, ⟨⟨1⟩, ⟨3⟩, none, true, true⟩] ∧
      ((empty 5).run badges).columnsInto ⟨2⟩ ⟨2⟩ = [] := by
    decide +kernel
  have hall := IsOrigin.witnessed_relations_run (.empty 5) badges
  rw [hrelations] at hall
  have hmentor := hall ⟨⟨1⟩, ⟨1⟩, none, false, true⟩ (by simp)
  have hbadge := hall ⟨⟨2⟩, ⟨1⟩, some ⟨2⟩, true, true⟩ (by simp)
  have hposts := hall ⟨⟨1⟩, ⟨3⟩, none, true, true⟩ (by simp)
  obtain ⟨user, huser, _⟩ := hbadge.has ⟨2⟩ rfl (by decide)
  obtain ⟨mentor, hfound⟩ := List.exists_mem_of_ne_nil _ (hmentor.one rfl rfl)
  obtain ⟨author, hauthor⟩ := List.exists_mem_of_ne_nil _ (hposts.many rfl rfl)
  exact ⟨hrelations, hown, ⟨user, ((hbadge.assocKeys ⟨2⟩ rfl user).2).mp huser⟩,
    ⟨mentor, (hmentor.baseToHas mentor).mp hfound⟩, author, (hposts.hasToBase author).mp hauthor⟩

end Blueprint.Document
