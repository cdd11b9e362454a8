import Blueprint.Proofs.Meaning

/-! # References to what was renamed

A new name of a schema or an entity changes one name of the outline. The references to the
entities that it concerns are then written anew, one after the other, and kept apart from
their siblings. Whatever the order and whatever siblings they have, each of them stays the
reference it was: it has the same target and differs in what it is called, and its new name
means its target as long as the qualified name does.
-/

namespace Blueprint

namespace Document

variable {d d' next : Document} {m m' : Member} {t : EntityId}

/-! ### How a reference is written -/

/-- The name that a reference to an entity is given: the bare one if it went by that before
and the name means the entity, else the qualified one. -/
def referenceName (d : Document) (t : EntityId) (bare : Bool) : String :=
  if bare && d.findTarget? (d.entityName t) = some (.byName t) then d.entityName t
  else d.qualifiedName t

theorem writtenName_eq {e : Entity} (he : d.entity? t = some e) (bare : Bool) :
    d.writtenName e bare = d.referenceName t bare := by
  obtain rfl := (mem_of_entity? he).2
  simp only [writtenName, referenceName, entityName, he, Option.map_some, Option.getD_some]

theorem entityName_mapEntities {f : Entity → Entity} (hf : KeepsOutline f) (id : EntityId) :
    (d.mapEntities f).entityName id = d.entityName id := by
  rw [entityName, entityName, entity?_mapEntities hf, Option.map_map]
  congr 2
  funext e
  exact (hf e).2

/-- How references are written is a matter of the outline. -/
theorem referenceName_congr (houtline : d.outline = d'.outline) (t : EntityId) (bare : Bool) :
    d.referenceName t bare = d'.referenceName t bare := by
  have hstrip := keepsOutline_attributes fun _ => []
  have hname : d.entityName t = d'.entityName t := by
    rw [← entityName_mapEntities hstrip, ← entityName_mapEntities (d := d') hstrip]
    simp only [outline] at houtline
    simp only [entityName, entity?, entities, houtline]
  have hqualified : d.qualifiedName t = d'.qualifiedName t := by
    rw [← qualifiedName_mapEntities hstrip, ← qualifiedName_mapEntities (d := d') hstrip]
    simp only [outline] at houtline
    simp only [qualifiedName, entity?, entities, schemaOf?, houtline]
  rw [referenceName, referenceName, hname, hqualified, findTarget?_congr houtline]

/-! ### Writing references anew -/

/-- What becomes of an attribute when the given references are written anew. -/
inductive Rewritten (d : Document) (references : List (AttrId × EntityId × Bool)) (m : Member) :
    Member → Prop where
  | kept (hout : ∀ r ∈ references, r.1 ≠ m.id) : Rewritten d references m m
  | named {t : EntityId} {bare : Bool} (hmem : (m.id, t, bare) ∈ references)
      (siblings : List Member) :
      Rewritten d references m
        (Member.distinguish siblings { m with name := d.referenceName t bare })

theorem Rewritten.id_eq {references : List (AttrId × EntityId × Bool)}
    (h : d.Rewritten references m m') : m'.id = m.id := by
  cases h with
  | kept => rfl
  | named hmem siblings => exact Member.distinguish_id siblings _

/-- Writing one reference anew leaves every other attribute alone. -/
theorem rewritten_retarget {id : AttrId} {bare : Bool} (hlive : t ∈ d.handles .entity)
    (hm' : m' ∈ (d.retarget (id, t, bare)).members) :
    ∃ m ∈ d.members, d.Rewritten [(id, t, bare)] m m' := by
  obtain ⟨e, he⟩ := exists_entity?_iff.mpr hlive
  simp only [retarget, he, writtenName_eq he] at hm'
  obtain ⟨named, hnamed, hm'⟩ := mem_members_distinguish hm'
  rw [modifyMember, members_mapMembers] at hnamed
  obtain ⟨m, hm, rfl⟩ := List.mem_map.mp hnamed
  refine ⟨m, hm, ?_⟩
  by_cases hid : m.id = id
  · subst hid
    rw [if_pos rfl] at hm'
    rcases hm' with rfl | ⟨_, siblings, rfl⟩
    · have hkept := Rewritten.named (d := d) (m := m) (List.mem_singleton_self (m.id, t, bare)) []
      rwa [Member.distinguish_nil] at hkept
    · exact .named (List.mem_singleton_self _) siblings
  · rw [if_neg hid] at hm'
    obtain rfl := hm'.resolve_right fun h => hid h.1
    exact .kept (by simpa using Ne.symm hid)

/-- Each reference is written anew once, and nothing else changes. -/
theorem HandlesSound.rewritten_foldl {references : List (AttrId × EntityId × Bool)}
    (hd : d.HandlesSound) (hnodup : (references.map Prod.fst).Nodup)
    (hlive : ∀ r ∈ references, r.2.1 ∈ d.handles .entity)
    (hm' : m' ∈ (references.foldl retarget d).members) :
    ∃ m ∈ d.members, d.Rewritten references m m' := by
  induction references generalizing d with
  | nil => exact ⟨m', hm', .kept (by simp)⟩
  | cons reference rest ih =>
      obtain ⟨id, t, bare⟩ := reference
      obtain ⟨hnot, hnodup⟩ := List.nodup_cons.mp hnodup
      have hsame := sameHandles_retarget (d := d) (id, t, bare)
      have hlater : ∀ r ∈ rest, r.2.1 ∈ (d.retarget (id, t, bare)).handles .entity := by
        intro r hr
        rw [hsame.handles .entity]
        exact hlive r (List.mem_cons_of_mem _ hr)
      obtain ⟨between, hbetween, hrest⟩ := ih (hd.step hsame.step) hnodup hlater hm'
      obtain ⟨m, hm, hfirst⟩ := rewritten_retarget (hlive _ List.mem_cons_self) hbetween
      have hid := hfirst.id_eq
      refine ⟨m, hm, ?_⟩
      cases hfirst with
      | kept hout =>
          -- The first reference is another one.
          cases hrest with
          | kept hout' => exact .kept (List.forall_mem_cons.mpr ⟨hout _ (by simp), hout'⟩)
          | named hmem siblings =>
              rw [referenceName_congr (outline_retarget _)]
              exact .named (List.mem_cons_of_mem _ hmem) siblings
      | named hmem siblings =>
          -- No later reference is this one, so it stays as the first step wrote it.
          obtain ⟨rfl, rfl, rfl⟩ : m.id = id ∧ _ = t ∧ _ = bare := by
            simpa using List.mem_singleton.mp hmem
          cases hrest with
          | kept => exact .named List.mem_cons_self siblings
          | named hmem' =>
              rw [hid] at hmem'
              exact absurd (List.mem_map_of_mem hmem') hnot

theorem HandlesSound.nodup_referencesTo (hd : d.HandlesSound) (renamed : List EntityId) :
    ((d.referencesTo renamed).map Prod.fst).Nodup := by
  rw [List.Nodup, List.pairwise_map, referencesTo, List.pairwise_filterMap]
  refine (List.pairwise_map.mp (hd.nodup .attr)).imp ?_
  intro m m' hne r hr r' hr'
  obtain ⟨_, _, rfl⟩ := Option.map_eq_some_iff.mp hr
  obtain ⟨_, _, rfl⟩ := Option.map_eq_some_iff.mp hr'
  exact hne

theorem mem_referencesTo_iff {renamed : List EntityId} {r : AttrId × EntityId × Bool} :
    r ∈ d.referencesTo renamed ↔ ∃ m ∈ d.members, ∃ t ∈ renamed, m.target = some t ∧
      r = (m.id, t, !Text.holds "." m.name) := by
  simp only [referencesTo, List.mem_filterMap, Option.map_eq_some_iff, Option.filter_eq_some_iff,
    List.contains_iff_mem]
  constructor
  · rintro ⟨m, hm, t, ⟨htarget, ht⟩, rfl⟩
    exact ⟨m, hm, t, ht, htarget, rfl⟩
  · rintro ⟨m, hm, t, ht, htarget, rfl⟩
    exact ⟨m, hm, t, ⟨htarget, ht⟩, rfl⟩

/-- A reference to one of the given entities is there afterwards, under its new name. -/
theorem HandlesSound.exists_retargeted (hd : d.HandlesSound)
    (hlive : ∀ m ∈ d.members, ∀ t, m.target = some t → t ∈ d.handles .entity)
    {renamed : List EntityId} (hm : m ∈ d.members) (href : m.isReference)
    (htarget : m.target = some t) (ht : t ∈ renamed) :
    ∃ localName ∈ [m.localName, none, some (Name.fallback m.id.number)],
      ({ m with name := d.referenceName t (!Text.holds "." m.name), localName := localName } :
        Member) ∈ (d.retargetReferences renamed).members := by
  obtain ⟨m', hm', hid⟩ : ∃ m' ∈ (d.retargetReferences renamed).members, m'.id = m.id := by
    apply List.mem_map.mp
    change m.id ∈ (d.retargetReferences renamed).handles .attr
    rw [(sameHandles_retargetReferences renamed).handles .attr]
    exact List.mem_map_of_mem hm
  have hlive' : ∀ r ∈ d.referencesTo renamed, r.2.1 ∈ d.handles .entity := by
    intro r hr
    obtain ⟨other, hother, target, _, htarget, rfl⟩ := mem_referencesTo_iff.mp hr
    exact hlive other hother target htarget
  obtain ⟨old, hold, hrewritten⟩ :=
    hd.rewritten_foldl (hd.nodup_referencesTo renamed) hlive' hm'
  have heq : old = m := eq_of_key_eq (hd.nodup .attr) hold hm (hrewritten.id_eq.symm.trans hid)
  subst old
  cases hrewritten with
  | kept hout =>
      have hmem := mem_referencesTo_iff.mpr ⟨m, hm, t, ht, htarget, rfl⟩
      exact absurd rfl (hout _ hmem)
  | named hmem siblings =>
      -- The handle is that of one attribute, so it was noted with this target.
      obtain ⟨other, hother, target, _, htarget', heq⟩ := mem_referencesTo_iff.mp hmem
      obtain ⟨hsame, rfl, rfl⟩ : m.id = other.id ∧ _ ∧ _ := by simpa using heq
      have heq : m = other := eq_of_key_eq (hd.nodup .attr) hm hother hsame
      subst other
      obtain rfl := Option.some.inj (htarget.symm.trans htarget')
      obtain ⟨localName, hlocal, hname⟩ := Member.exists_localName_of_distinguish
        (m := { m with name := d.referenceName t (!Text.holds "." m.name) }) href siblings
      exact ⟨localName, hlocal, hname ▸ hm'⟩

/-- Another chance is for references without a target only. -/
theorem mem_members_retryReferences (hm : m ∈ d.members) (htarget : m.target = some t) :
    m ∈ d.retryReferences.members := by
  rw [retryReferences, members_mapMembers]
  refine List.mem_map.mpr ⟨m, hm, if_neg ?_⟩
  simp [Attribute.isOpen, htarget]

/-! ### What new names mean -/

section Named

variable {s : Schema} {e : Entity}

theorem HandlesSound.referenceName_eq (hd : d.HandlesSound) (hs : s ∈ d.schemas)
    (he : e ∈ s.entities) (bare : Bool) :
    d.referenceName e.id bare =
      if bare && d.findTarget? e.name = some (.byName e.id) then e.name
      else s.name ++ "." ++ e.name := by
  have hname : d.entityName e.id = e.name := by
    rw [entityName, hd.entity?_eq (mem_entities.mpr ⟨s, hs, he⟩)]
    rfl
  rw [referenceName, hname, hd.qualifiedName_eq hs he]

theorem PlainNames.findTarget?_qualified (hplain : d.PlainNames) (hs : s ∈ d.schemas)
    (he : e ∈ s.entities) :
    d.findTarget? (s.name ++ "." ++ e.name) =
      (d.findEntity? s.name e.name).map fun found => .byName found.id := by
  have hno := hplain.no_handle ⟨s, hs, e, he, rfl, Or.inr rfl⟩
  rw [findTarget?_of_no_handle hno, entityByName?, Text.cut?_dot (hplain s hs).1.not_mem_dot]
  exact Option.map_map ..

/-- A reference is written so that it means its target, as long as the qualified name does. -/
theorem HandlesSound.findTarget?_referenceName (hd : d.HandlesSound) (hplain : d.PlainNames)
    (hs : s ∈ d.schemas) (he : e ∈ s.entities)
    (hfound : (d.findEntity? s.name e.name).map Entity.id = some e.id) (bare : Bool) :
    d.findTarget? (d.referenceName e.id bare) = some (.byName e.id) := by
  rw [hd.referenceName_eq hs he]
  split
  next hbare => simpa using (Bool.and_eq_true_iff.mp hbare).2
  next =>
    obtain ⟨found, hfind, hid⟩ := Option.map_eq_some_iff.mp hfound
    rw [hplain.findTarget?_qualified hs he, hfind, Option.map_some, hid]

end Named

/-! ### Renames -/

/-- Whether an edit renames an entity, or the schema that holds it. -/
inductive Renames (d : Document) : Edit → EntityId → Prop where
  | entity {e : Entity} (he : e ∈ d.entities) (name : String) :
      Renames d (.renameEntity e.id name) e.id
  | schema {s : Schema} {e : Entity} (hs : s ∈ d.schemas) (he : e ∈ s.entities) (name : String) :
      Renames d (.renameSchema s.id name) e.id

theorem Renames.live {edit : Edit} (h : d.Renames edit t) : t ∈ d.handles .entity := by
  cases h with
  | entity he name => exact List.mem_map_of_mem he
  | schema hs he name => exact List.mem_map_of_mem (mem_entities.mpr ⟨_, hs, he⟩)

/-- The document with the name that an edit gives, before any reference is written anew. -/
def relabelled (d : Document) : Edit → Document
  | .renameEntity id name => d.nameEntity id name
  | .renameSchema id name => d.nameSchema id name
  | _ => d

/-- What a reference is after its target, which is now `e` in `s`, or the schema of its target
was renamed, compared with what it was before. -/
structure Follows (next : Document) (s : Schema) (e : Entity) (m m' : Member) : Prop where
  /-- It differs in what it is called; its target, kind, flags, range, default value, labels and
  defects are the same. -/
  same : m' = { m with name := m'.name, localName := m'.localName }
  /-- A bare name stays bare only if it means the target. -/
  name : m'.name =
    if '.' ∉ m.name.toList ∧ next.findTarget? e.name = some (.byName e.id) then e.name
    else s.name ++ "." ++ e.name
  localName : m'.localName ∈ [m.localName, none, some (Name.fallback m.id.number)]
  means : (next.findEntity? s.name e.name).map Entity.id = some e.id →
    next.findTarget? m'.name = some (.byName e.id)

/-- References to entities that were given to be written anew follow them. -/
theorem Sound.exists_follows (hd : d.Sound) (hsame : SameHandles d d')
    (hmembers : d'.members = d.members) (hplain : d'.PlainNames) {renamed : List EntityId}
    (ht : t ∈ renamed) :
    let next := (d'.retargetReferences renamed).retryReferences
    ∀ s ∈ next.schemas, ∀ e ∈ s.entities, e.id = t → ∀ m ∈ d.members, m.target = some t →
      ∃ m', next.member? m.id = some m' ∧ next.Follows s e m m' := by
  rintro next s hs e he rfl m hm htarget
  have hd' := hd.handles.step hsame.step
  have houtline : next.outline = d'.outline :=
    (outline_mapMembers _).trans (outline_retargetReferences _)
  have hnext : next.HandlesSound :=
    hd'.step ((sameHandles_retargetReferences _).trans sameHandles_retryReferences).step
  have hlive : ∀ m ∈ d'.members, ∀ t, m.target = some t → t ∈ d'.handles .entity := by
    intro m hm t ht
    rw [hsame.handles .entity]
    exact ((hd.settled m (hmembers ▸ hm)).denotes t ht).2.live
  obtain ⟨localName, hlocal, hm'⟩ := hd'.exists_retargeted hlive (hmembers ▸ hm)
    ((hd.settled m hm).denotes _ htarget).1 htarget ht
  rw [← referenceName_congr houtline] at hm'
  have hfound := hnext.member?_eq (mem_members_retryReferences hm' htarget)
  refine ⟨_, hfound, rfl, ?_, hlocal, ?_⟩
  · have hdot : (!Text.holds "." m.name) = true ↔ '.' ∉ m.name.toList := by
      rw [← Text.cut?_dot_eq_none, Text.holds]
      simp
    simp only [hnext.referenceName_eq hs he, Bool.and_eq_true, decide_eq_true_eq, hdot]
  · intro hfound
    exact hnext.findTarget?_referenceName ((plainNames_congr houtline).mpr hplain) hs he hfound _

/-- A rename of something live changes the name, then has the references to what it concerns
written anew, and last gives references without a target another chance. -/
theorem HandlesSound.edit_of_renames (hd : d.HandlesSound) {edit : Edit} (h : d.Renames edit t) :
    ∃ renamed, t ∈ renamed ∧ SameHandles d (d.relabelled edit) ∧
      (d.relabelled edit).members = d.members ∧
      d.edit edit =
        .ok (((d.relabelled edit).retargetReferences renamed).retryReferences, .done) := by
  cases h with
  | @entity e he name =>
      refine ⟨[e.id], by simp, sameHandles_nameEntity _ _, members_nameEntity .., ?_⟩
      simp only [edit, renameEntity, requireEntity, hd.entity?_eq he]
      rfl
  | @schema s e hs he name =>
      have hmembers : (d.nameSchema s.id name).members = d.members := by
        rw [members, entities_nameSchema, members]
      refine ⟨s.entities.map Entity.id, List.mem_map_of_mem he, sameHandles_nameSchema _ _,
        hmembers, ?_⟩
      simp only [edit, renameSchema, requireSchema, hd.schema?_eq hs]
      rfl

theorem PlainNames.relabelled (hplain : d.PlainNames) (edit : Edit) :
    (d.relabelled edit).PlainNames := by
  cases edit with
  | renameSchema id name => exact EveryName.nameSchema Name.ofText_isPlain hplain id name
  | renameEntity id name => exact EveryName.nameEntity Name.ofText_isPlain hplain id name
  | _ => exact hplain

/-- After every run, a rename of an entity or of its schema succeeds and gives the new name, and
every reference to the entity follows it. -/
theorem IsOrigin.follows_rename_run (hd : d.IsOrigin) {es : List Edit}
    (hes : ∀ e ∈ es, e.isWritten) {edit : Edit} (h : (d.run es).Renames edit t) :
    ∃ next, (d.run es).edit edit = .ok (next, .done) ∧
      next.outline = ((d.run es).relabelled edit).outline ∧
      ∃ s ∈ next.schemas, ∃ e ∈ s.entities, e.id = t ∧
        ∀ m ∈ (d.run es).members, m.target = some t →
          ∃ m', next.member? m.id = some m' ∧ next.Follows s e m m' := by
  have hsound := hd.sound_run hes
  obtain ⟨renamed, ht, hsame, hmembers, hedit⟩ := hsound.handles.edit_of_renames h
  have houtline := outline_retargetReferences (d := (d.run es).relabelled edit) renamed
  have hlive : t ∈ (((d.run es).relabelled edit).retargetReferences
      renamed).retryReferences.handles .entity := by
    rw [sameHandles_retryReferences.handles .entity,
      (sameHandles_retargetReferences renamed).handles .entity,
      hsame.handles .entity]
    exact h.live
  obtain ⟨e, he, hid⟩ := List.mem_map.mp hlive
  obtain ⟨s, hs, he⟩ := mem_entities.mp he
  refine ⟨_, hedit, (outline_mapMembers _).trans houtline, s, hs, e, he, hid, ?_⟩
  exact hsound.exists_follows hsame hmembers (hsound.plain.relabelled edit) ht s hs e he hid

/-- A run with a bare and a qualified reference to one entity. -/
def twoSpellings : List Edit :=
  [.addSchema "blog", .addEntity ⟨1⟩ "article", .addSchema "shop", .addEntity ⟨2⟩ "item",
    .addEntity ⟨2⟩ "order", .addAttribute ⟨3⟩ "- @item?", .addAttribute ⟨3⟩ "- @shop.item#"]

/-- The new name is taken in another schema, so the bare reference is qualified, and as both
are now written alike one of them is given a local name. -/
theorem follows_rename_run_twoSpellings :
    ((empty 5).run twoSpellings).Renames (.renameEntity ⟨2⟩ "article") ⟨2⟩ ∧
      (((empty 5).run twoSpellings).members.map fun m => (m.name, m.localName, m.target)) =
        [("item", none, some ⟨2⟩), ("shop.item", none, some ⟨2⟩)] ∧
      (((empty 5).run (twoSpellings ++ [.renameEntity ⟨2⟩ "article"])).members.map
          fun m => (m.name, m.localName, m.target)) =
        [("shop.article", none, some ⟨2⟩), ("shop.article", some "unset_2", some ⟨2⟩)] ∧
      ∃ next, ((empty 5).run twoSpellings).edit (.renameEntity ⟨2⟩ "article") =
          .ok (next, .done) ∧
        next.outline =
          (((empty 5).run twoSpellings).relabelled (.renameEntity ⟨2⟩ "article")).outline ∧
        ∃ s ∈ next.schemas, ∃ e ∈ s.entities, e.id = ⟨2⟩ ∧
          ∀ m ∈ ((empty 5).run twoSpellings).members, m.target = some ⟨2⟩ →
            ∃ m', next.member? m.id = some m' ∧ next.Follows s e m m' := by
  -- One evaluation for all three, as each of them has to run the edits.
  obtain ⟨⟨e, he, hid⟩, hbefore, hafter⟩ :
      (∃ e ∈ ((empty 5).run twoSpellings).entities, e.id = ⟨2⟩) ∧
      (((empty 5).run twoSpellings).members.map fun m => (m.name, m.localName, m.target)) =
        [("item", none, some ⟨2⟩), ("shop.item", none, some ⟨2⟩)] ∧
      (((empty 5).run (twoSpellings ++ [.renameEntity ⟨2⟩ "article"])).members.map
          fun m => (m.name, m.localName, m.target)) =
        [("shop.article", none, some ⟨2⟩), ("shop.article", some "unset_2", some ⟨2⟩)] := by
    decide +kernel
  have hrenames := hid ▸ Renames.entity he "article"
  exact ⟨hrenames, hbefore, hafter,
    IsOrigin.follows_rename_run (.empty 5) (by simp [twoSpellings, Edit.isWritten]) hrenames⟩

end Document

end Blueprint
