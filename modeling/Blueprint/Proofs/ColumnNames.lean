import Blueprint.Proofs.Columns
import Blueprint.Proofs.Declared
import Mathlib.Data.List.Pairwise

/-! # Names of columns

The name of a column joins the segments of the attributes on its way. Attributes of one
entity are given different segments when they are read, but that does not keep the names
of columns apart: dots and the joints between segments all become underscores, a fallback
name may be taken, and a reference by handle gets its name after it was compared with its
siblings. Two columns have the same name exactly if they part at two attributes of one
entity and their names agree from there on, and then these two attributes collide in one
of these ways.
-/

namespace Blueprint

/-! ### Names along a way -/

/-- The name of a column with the given attributes on its way. -/
def nameAlong (way : List Member) : String :=
  Column.nameOf (way.map fun m => m.segment)

/-- What an attribute contributes to the names of columns, with the underscore that follows
unless it comes last. -/
def Member.stem (m : Member) : List Char :=
  (Text.replaceChar '.' '_' m.segment).toList ++ ['_']

theorem toList_nameAlong {way : List Member} (hway : way ≠ []) :
    (nameAlong way).toList ++ ['_'] = way.flatMap Member.stem := by
  induction way with
  | nil => exact absurd rfl hway
  | cons m rest ih =>
      cases rest with
      | nil => simp [nameAlong, Column.nameOf, Text.joinWith, Member.stem]
      | cons next rest =>
          rw [List.flatMap_cons, ← ih (List.cons_ne_nil _ _)]
          simp [nameAlong, Column.nameOf, Text.replaceChar, Text.joinWith, Member.stem,
            String.toList_intercalate]

theorem nameAlong_eq_iff {way way' : List Member} (hway : way ≠ []) (hway' : way' ≠ []) :
    nameAlong way = nameAlong way' ↔ way.flatMap Member.stem = way'.flatMap Member.stem := by
  rw [← toList_nameAlong hway, ← toList_nameAlong hway', List.append_left_inj, String.toList_inj]

/-- The attributes on the way of a column. -/
def Column.way (c : Column) : List Member :=
  c.hops ++ [c.terminal]

namespace Document

variable {d : Document} {entity : EntityId} {m m' : Member}

/-! ### Where columns part -/

theorem way_of_mem_columnsAt {root : EntityId} {depth : Nat} {hops : List Member} {c : Column}
    (hc : c ∈ d.columnsAt root depth hops entity m) :
    ∃ rest, c.way = hops ++ m :: rest ∧ (rest ≠ [] → m.isReference) := by
  rcases of_mem_columnsAt hc with ⟨_, rfl⟩ | ⟨href, target, _, hc⟩
  · exact ⟨[], rfl, fun hrest => absurd rfl hrest⟩
  · obtain ⟨_, _, more, hhops, _⟩ := way_of_mem_columnsFrom hc
    exact ⟨more ++ [c.terminal], by simp [Column.way, hhops], fun _ => href⟩

/-- Whether two columns take the same way up to an entity and go on there over different
attributes of it. -/
structure Parting (d : Document) (c c' : Column) (m m' : Member) (rest rest' : List Member) :
    Prop where
  ways : ∃ common, c.way = common ++ m :: rest ∧ c'.way = common ++ m' :: rest'
  siblings : ∃ x, m ∈ d.attributesOf x ∧ m' ∈ d.attributesOf x
  ne : m.id ≠ m'.id
  /-- Only a reference leads on. -/
  reference : (rest ≠ [] → m.isReference) ∧ (rest' ≠ [] → m'.isReference)

theorem HandlesSound.exists_parting (hd : d.HandlesSound) {root : EntityId} {depth : Nat}
    {hops : List Member} {c c' : Column} (hc : c ∈ d.columnsFrom root depth hops entity)
    (hc' : c' ∈ d.columnsFrom root depth hops entity) (hne : c ≠ c') :
    ∃ m m' rest rest', d.Parting c c' m m' rest rest' := by
  induction depth generalizing hops entity with
  | zero => simp [columnsFrom] at hc
  | succ depth ih =>
      rw [columnsFrom_succ] at hc hc'
      obtain ⟨m, hm, hc⟩ := List.mem_flatMap.mp hc
      obtain ⟨m', hm', hc'⟩ := List.mem_flatMap.mp hc'
      by_cases heq : m = m'
      · subst heq
        rcases of_mem_columnsAt hc with ⟨href, rfl⟩ | ⟨href, target, htarget, hc⟩
        · rcases of_mem_columnsAt hc' with ⟨_, rfl⟩ | ⟨href', _⟩
          · exact absurd rfl hne
          · exact absurd (href.symm.trans href') Bool.false_ne_true
        · rcases of_mem_columnsAt hc' with ⟨href', _⟩ | ⟨_, target', htarget', hc'⟩
          · exact absurd (href'.symm.trans href) Bool.false_ne_true
          · obtain rfl := Option.some.inj (htarget.symm.trans htarget')
            exact ih hc hc'
      · obtain ⟨rest, hway, href⟩ := way_of_mem_columnsAt hc
        obtain ⟨rest', hway', href'⟩ := way_of_mem_columnsAt hc'
        exact ⟨m, m', rest, rest', ⟨hops, hway, hway'⟩, ⟨entity, hm, hm'⟩,
          fun hid => heq (eq_of_key_eq (hd.attributesOf_nodup entity) hm hm' hid), href, href'⟩

theorem HandlesSound.columnsFrom_nodup (hd : d.HandlesSound) (root : EntityId) (depth : Nat)
    (hops : List Member) (entity : EntityId) : (d.columnsFrom root depth hops entity).Nodup := by
  induction depth generalizing hops entity with
  | zero => exact List.nodup_nil
  | succ depth ih =>
      rw [columnsFrom_succ, List.nodup_flatMap]
      constructor
      · intro m _
        by_cases hfollow : hops = [] ∨ m.primary
        · cases href : m.isReference with
          | true =>
              rw [columnsAt_reference hfollow href]
              cases m.target with
              | none => exact List.nodup_nil
              | some target => exact ih _ target
          | false =>
              rw [columnsAt_plain hfollow href]
              exact List.nodup_singleton _
        · obtain ⟨hhops, hprimary⟩ := not_or.mp hfollow
          rw [columnsAt_eq_nil hhops hprimary]
          exact List.nodup_nil
      · apply (List.Nodup.of_map _ (hd.attributesOf_nodup entity)).imp
        intro m m' hne c hc hc'
        obtain ⟨rest, hway, _⟩ := way_of_mem_columnsAt hc
        obtain ⟨rest', hway', _⟩ := way_of_mem_columnsAt hc'
        have hcons := List.append_cancel_left (hway.symm.trans hway')
        exact hne (List.cons.inj hcons).1

/-- Whether two columns of an entity part at the given attributes and are named alike from there
on. -/
def Clash (d : Document) (entity : EntityId) (m m' : Member) : Prop :=
  ∃ c ∈ d.columns entity, ∃ c' ∈ d.columns entity, ∃ rest rest',
    d.Parting c c' m m' rest rest' ∧ nameAlong (m :: rest) = nameAlong (m' :: rest')

/-- Columns that part are named alike if they are from there on. -/
theorem Parting.name_eq_iff {c c' : Column} {rest rest' : List Member}
    (hpart : d.Parting c c' m m' rest rest') :
    c.name = c'.name ↔ nameAlong (m :: rest) = nameAlong (m' :: rest') := by
  obtain ⟨common, hway, hway'⟩ := hpart.ways
  have hname : c.name = nameAlong c.way := rfl
  have hname' : c'.name = nameAlong c'.way := rfl
  rw [hname, hname', hway, hway', nameAlong_eq_iff (by simp) (by simp),
    nameAlong_eq_iff (List.cons_ne_nil _ _) (List.cons_ne_nil _ _), List.flatMap_append,
    List.flatMap_append, List.append_right_inj]

theorem HandlesSound.nodup_name_iff (hd : d.HandlesSound) (entity : EntityId) :
    ((d.columns entity).map Column.name).Nodup ↔ ∀ m m', ¬ d.Clash entity m m' := by
  have hnodup : (d.columns entity).Nodup := hd.columnsFrom_nodup _ _ _ _
  rw [List.nodup_map_iff_inj_on hnodup]
  constructor
  · rintro hinj m m' ⟨c, hc, c', hc', rest, rest', hpart, hname⟩
    obtain rfl := hinj c hc c' hc' (hpart.name_eq_iff.mpr hname)
    obtain ⟨common, hway, hway'⟩ := hpart.ways
    have hcons := List.append_cancel_left (hway.symm.trans hway')
    exact hpart.ne (congrArg Member.id (List.cons.inj hcons).1)
  · intro hnone c hc c' hc' hname
    by_contra hne
    obtain ⟨m, m', rest, rest', hpart⟩ := hd.exists_parting hc hc' hne
    exact hnone m m' ⟨c, hc, c', hc', rest, rest', hpart, hpart.name_eq_iff.mp hname⟩

end Document

/-! ### Segments of siblings -/

/-- Whether the later one of two attributes, unless it has a defect, has another segment than
the earlier one or its fallback name. -/
def Member.Apart (m m' : Member) : Prop :=
  m.segment = m'.segment → m'.hasDefect = false → m'.segment = Name.fallback m'.id.number

/-- Distinguishing an attribute keeps it apart from its siblings, or gives it its fallback name. -/
theorem Member.apart_distinguish {m s : Member} {siblings : List Member} (hs : s ∈ siblings)
    (hlocal : m.hasDefect = false → m.localName.isSome → m.isReference) :
    s.Apart (m.distinguish siblings) := by
  intro hsegment hclean
  have hclean : m.hasDefect = false := by
    rwa [Attribute.hasDefect, distinguish_defects] at hclean
  rw [distinguish_id]
  rcases isFree_distinguish_or_fallback (hlocal hclean) siblings with hfree | hfallback
  · exact absurd hsegment (hfree s hs)
  · exact hfallback

/-- Only what is written as a reference has a local name. -/
theorem Attribute.kind_of_localName {body : String}
    (hlocal : (Declaration.ofText body).localName.isSome) :
    Kind.ofText (Text.trim (Declaration.ofText body).kind) = .reference := by
  have hkeyword : Kind.ofText (Text.trim Kind.reference.keyword) = .reference := by decide +kernel
  unfold Declaration.ofText at hlocal ⊢
  split
  next hmark =>
    split <;> exact hkeyword
  next hmark => simp [hmark] at hlocal

/-- An attribute without a defect has the kind and the local name that were written. -/
theorem Attribute.ofDeclaration_clean {decl : Declaration} {a : Attribute}
    (ha : ofDeclaration decl = .ok a) (hclean : a.hasDefect = false) :
    a.kind = Kind.ofText (Text.trim decl.kind) ∧ (a.localName.isSome → decl.localName.isSome) := by
  have hwritten : ((decl.localName.map Name.normalize).filter (!·.isEmpty)).isSome →
      decl.localName.isSome := by
    cases decl.localName <;> simp
  unfold ofDeclaration at ha
  dsimp only at ha
  -- What the texts spell does not matter, only that nothing is found wrong with it.
  generalize identifier decl.ident (Kind.ofText (Text.trim decl.kind)) = name at ha
  generalize (decl.localName.map Name.normalize).filter (!·.isEmpty) = localName at ha hwritten
  generalize Kind.ofText (Text.trim decl.kind) = kind at ha ⊢
  split at ha
  next =>
    cases ha
    simp [hasDefect, note] at hclean
  next =>
    split at ha
    next =>
      cases ha
      simp [hasDefect, note] at hclean
    next =>
      split at ha
      next =>
        cases ha
        simp [hasDefect, note] at hclean
      next =>
        obtain ⟨hkind, _⟩ := settle_frame ha
        obtain ⟨hkind', _⟩ := foldl_apply_frame
          { name := name, localName := localName, kind := kind } (settings decl.options)
        have hlocal : a.localName = localName :=
          (settle_localName ha).trans (foldl_apply_localName _ _)
        exact ⟨hkind.trans hkind', fun hsome => hwritten (hlocal ▸ hsome)⟩

theorem Attribute.isReference_of_localName {line : String} {a : Attribute}
    (ha : ofLine line = .ok a) (hclean : a.hasDefect = false) (hlocal : a.localName.isSome) :
    a.isReference := by
  obtain ⟨hkind, hwritten⟩ := ofDeclaration_clean ha hclean
  rw [isReference, hkind, decide_eq_true_eq]
  exact kind_of_localName (hwritten hlocal)

namespace Document

variable {d : Document} {entity : EntityId} {m m' : Member}

/-- Whether the attributes of every entity are apart. -/
def SegmentsApart (d : Document) : Prop :=
  ∀ e ∈ d.entities, e.attributes.Pairwise Member.Apart

theorem keeps_segmentsApart : Cursor.Keeps SegmentsApart where
  schema d name hd := by
    intro e he
    rw [entities_addSchema] at he
    exact hd e he
  entity d id name hd := by
    intro e he
    obtain ⟨s, hs, he⟩ := mem_entities.mp he
    obtain ⟨old, hold, rfl⟩ := List.mem_map.mp hs
    split at he
    · rcases List.mem_append.mp he with he | he
      · exact hd e (mem_entities.mpr ⟨old, hold, he⟩)
      · obtain rfl := List.mem_singleton.mp he
        exact List.Pairwise.nil
    · exact hd e (mem_entities.mpr ⟨old, hold, he⟩)
  attr d id line a hhandles _ ha hd := by
    intro e he
    rw [hhandles.attached_eq] at he
    have he : e ∈ (d.mapEntities _).entities := he
    rw [entities_mapEntities] at he
    obtain ⟨old, hold, rfl⟩ := List.mem_map.mp he
    split
    · rw [List.pairwise_append]
      refine ⟨hd old hold, List.pairwise_singleton _ _, fun s hs m hm => ?_⟩
      obtain rfl := List.mem_singleton.mp hm
      exact Member.apart_distinguish hs (Attribute.isReference_of_localName (a := a) ha)
    · exact hd old hold

/-! ### Siblings after resolution -/

end Document

/-- Whether an attribute is a reference that goes by the qualified name of its target. -/
structure Member.Qualified (d : Document) (m : Member) : Prop where
  reference : m.isReference
  localName : m.localName = none
  target : ∃ t, m.target = some t ∧ m.name = d.qualifiedName t

namespace Document

variable {d : Document} {entity : EntityId} {m m' : Member}

/-- A segment with a dot is the qualified name of an entity, and that of a reference to it. -/
theorem Sound.qualified_of_dot (hd : d.Sound) (hdeclared : m.Declared) (hm : m ∈ d.members)
    (hclean : m.hasDefect = false) (hdot : '.' ∈ m.segment.toList) : m.Qualified d := by
  obtain ⟨hlocal, hname, _⟩ := hdeclared.named
  have hnone : m.localName = none := by
    cases hsome : m.localName with
    | none => rfl
    | some name =>
        rw [Attribute.segment, hsome, Option.getD_some] at hdot
        exact absurd hdot (hlocal name hsome).not_mem_dot
  rw [Attribute.segment, hnone, Option.getD_none] at hdot
  have href : m.isReference := by
    by_contra hplain
    exact (hname (Bool.eq_false_iff.mpr hplain)).not_mem_dot hdot
  have hsettled := hd.settled m hm
  cases htarget : m.target with
  | none =>
      have hlost := hsettled.reported (by simp [Attribute.isOpen, href, htarget])
      rw [Attribute.hasDefect, Bool.not_eq_false', List.isEmpty_iff] at hclean
      simp [Attribute.isLost, hclean] at hlost
  | some t =>
      obtain ⟨_, s, hs, e, he, rfl, hdenotes⟩ := hsettled.denotes t htarget
      refine ⟨href, hnone, e.id, htarget, ?_⟩
      rcases hdenotes with hbare | hqualified
      · exact absurd (hbare ▸ hdot) ((hd.plain s hs).2 e he).not_mem_dot
      · rw [hqualified, hd.handles.qualifiedName_eq hs he]

/-- Resolving a reference keeps its segment, unless that is a qualified name afterwards. -/
theorem HandlesSound.segment_resolved (hd : d.HandlesSound) (m : Member) :
    (d.resolved m).segment = m.segment ∨ '.' ∈ (d.resolved m).segment.toList := by
  unfold resolved Member.resolvedTo
  split
  next t qualified hfind =>
    obtain ⟨⟨e, he, rfl⟩, rfl⟩ := of_findTarget?_byHandle hfind
    obtain ⟨s, hs, he⟩ := mem_entities.mp he
    cases hlocal : m.localName with
    | some name => exact Or.inl (by simp [Attribute.segment, hlocal])
    | none =>
        refine Or.inr ?_
        simp [Attribute.segment, hd.qualifiedName_eq hs he]
  next => exact Or.inl rfl
  next =>
    split
    · exact Or.inl rfl
    · exact Or.inl rfl

theorem hasDefect_of_resolved (hclean : (d.resolved m).hasDefect = false) :
    m.hasDefect = false := by
  unfold resolved Member.resolvedTo at hclean
  split at hclean
  · exact hclean
  · exact hclean
  · split at hclean
    · exact hclean
    · simp [Attribute.hasDefect, Attribute.note] at hclean

/-- An attribute as it is once all references are resolved. -/
def afterReading (d : Document) (m : Member) : Member :=
  if m.isOpen && !m.isLost then d.resolved m else m

theorem afterReading_id (m : Member) : (d.afterReading m).id = m.id := by
  unfold afterReading
  split
  · exact resolved_id m
  · rfl

theorem hasDefect_of_afterReading (hclean : (d.afterReading m).hasDefect = false) :
    m.hasDefect = false := by
  unfold afterReading at hclean
  split at hclean
  · exact hasDefect_of_resolved hclean
  · exact hclean

theorem HandlesSound.segment_afterReading (hd : d.HandlesSound)
    (hdot : '.' ∉ (d.afterReading m).segment.toList) : (d.afterReading m).segment = m.segment := by
  unfold afterReading at hdot ⊢
  split
  next hopen =>
    rw [if_pos hopen] at hdot
    exact (hd.segment_resolved m).resolve_right hdot
  next => rfl

theorem attributesOf_resolveReferences (entity : EntityId) :
    d.resolveReferences.attributesOf entity = (d.attributesOf entity).map d.afterReading := by
  rw [attributesOf, resolveReferences, mapMembers, entity?_mapEntities (keepsOutline_attributes _),
    attributesOf]
  cases d.entity? entity <;> rfl

theorem SegmentsApart.apart (hd : d.SegmentsApart) (hm : m ∈ d.attributesOf entity)
    (hm' : m' ∈ d.attributesOf entity) (hne : m ≠ m') : m.Apart m' ∨ m'.Apart m := by
  have hpairs : (d.attributesOf entity).Pairwise fun a b => a.Apart b ∨ b.Apart a := by
    unfold attributesOf
    split
    next e he => exact (hd e (mem_of_entity? he).1).imp Or.inl
    next => exact List.Pairwise.nil
  have hsymm : Std.Symm fun a b : Member => a.Apart b ∨ b.Apart a := ⟨fun _ _ => Or.symm⟩
  exact hpairs.forall hm hm' hne

/-- In a document that was read without defects, attributes of one entity have different
segments, unless one of them has its fallback name or both go by qualified names. -/
theorem segments_read {maxDepth : Nat} {source : String}
    (hread : Document.read maxDepth source = .ok d) (hclean : d.hasDefect = false)
    (hm : m ∈ d.attributesOf entity) (hm' : m' ∈ d.attributesOf entity) (hne : m ≠ m')
    (hsegment : m.segment = m'.segment) :
    (m.segment = Name.fallback m.id.number ∨ m'.segment = Name.fallback m'.id.number) ∨
      (m.Qualified d ∧ m'.Qualified d) := by
  have hsound := sound_read hread
  have hmember := mem_members_of_mem_attributesOf hm
  have hmember' := mem_members_of_mem_attributesOf hm'
  have hclean₁ := hasDefect_eq_false_of_mem_members hclean hmember
  have hclean₂ := hasDefect_eq_false_of_mem_members hclean hmember'
  by_cases hdot : '.' ∈ m.segment.toList
  · have hdeclared := declared_read hread
    exact Or.inr ⟨hsound.qualified_of_dot (hdeclared m hmember) hmember hclean₁ hdot,
      hsound.qualified_of_dot (hdeclared m' hmember') hmember' hclean₂ (hsegment ▸ hdot)⟩
  · refine Or.inl ?_
    -- Neither was renamed when it was resolved, so they are as apart as when they were read.
    obtain ⟨c, hc, hapart, rfl⟩ := exists_reading_of keeps_segmentsApart
      (fun _ he => absurd he List.not_mem_nil) hread
    rw [attributesOf_resolveReferences, List.mem_map] at hm hm'
    obtain ⟨old, hold, rfl⟩ := hm
    obtain ⟨old', hold', rfl⟩ := hm'
    have hold_ne : old ≠ old' := fun heq => hne (congrArg _ heq)
    have hsame := hc.handles.segment_afterReading hdot
    have hsame' := hc.handles.segment_afterReading (hsegment ▸ hdot)
    rw [hsame, hsame'] at hsegment ⊢
    rw [afterReading_id, afterReading_id]
    rcases hapart.apart hold hold' hold_ne with happ | happ
    · exact Or.inr (happ hsegment (hasDefect_of_afterReading hclean₂))
    · exact Or.inl (happ hsegment.symm (hasDefect_of_afterReading hclean₁))

/-! ### Collisions -/

/-- How two attributes of one entity come to start columns of one name. -/
inductive Collide (d : Document) (m m' : Member) : Prop where
  /-- The fallback name that one of them was given is taken by the other. -/
  | fallback (hsegment : m.segment = m'.segment)
      (hfallback : m.segment = Name.fallback m.id.number ∨
        m'.segment = Name.fallback m'.id.number)
  /-- Both go by a qualified name. -/
  | qualified (hsegment : m.segment = m'.segment) (hm : m.Qualified d) (hm' : m'.Qualified d)
  /-- They differ in nothing but dots and underscores. -/
  | dotted (hsegment : m.segment ≠ m'.segment) (hstem : m.stem = m'.stem)
      (hqualified : m.Qualified d ∨ m'.Qualified d)
  /-- What the first one is called, with an underscore, is how the second one starts. -/
  | starts (href : m.isReference) (hstem : m.stem <+: m'.stem) (hne : m.stem ≠ m'.stem)
  /-- What the second one is called, with an underscore, is how the first one starts. -/
  | started (href : m'.isReference) (hstem : m'.stem <+: m.stem) (hne : m'.stem ≠ m.stem)

/-- Segments without a dot are read off their stems. -/
theorem segment_eq_of_stem (hstem : m.stem = m'.stem) (hdot : '.' ∉ m.segment.toList)
    (hdot' : '.' ∉ m'.segment.toList) : m.segment = m'.segment := by
  have hkeep : ∀ s : String, '.' ∉ s.toList → Text.replaceChar '.' '_' s = s := by
    intro s hs
    apply String.toList_inj.mp
    rw [Text.replaceChar, String.toList_ofList, List.map_congr_left, List.map_id']
    intro c hc
    have hne : c ≠ '.' := fun heq => hs (heq ▸ hc)
    exact if_neg hne
  have hreplaced := List.append_cancel_right hstem
  rwa [String.toList_inj, hkeep _ hdot, hkeep _ hdot'] at hreplaced

/-- Ways that are named alike start with stems of which one starts the other. -/
theorem stem_of_nameAlong {rest rest' : List Member}
    (hname : nameAlong (m :: rest) = nameAlong (m' :: rest')) :
    m.stem = m'.stem ∨ (rest ≠ [] ∧ m.stem <+: m'.stem) ∨ (rest' ≠ [] ∧ m'.stem <+: m.stem) := by
  rw [nameAlong_eq_iff (List.cons_ne_nil _ _) (List.cons_ne_nil _ _), List.flatMap_cons,
    List.flatMap_cons, List.append_eq_append_iff] at hname
  rcases hname with ⟨more, hstem, hrest⟩ | ⟨more, hstem, hrest⟩
  · cases rest with
    | nil =>
        obtain ⟨rfl, _⟩ := List.append_eq_nil_iff.mp hrest.symm
        exact Or.inl (by rw [hstem, List.append_nil])
    | cons next rest => exact Or.inr (Or.inl ⟨List.cons_ne_nil _ _, more, hstem.symm⟩)
  · cases rest' with
    | nil =>
        obtain ⟨rfl, _⟩ := List.append_eq_nil_iff.mp hrest.symm
        exact Or.inl (by rw [hstem, List.append_nil])
    | cons next rest' => exact Or.inr (Or.inr ⟨List.cons_ne_nil _ _, more, hstem.symm⟩)

/-- Attributes where columns of one name part collide. -/
theorem collide_of_clash {maxDepth : Nat} {source : String}
    (hread : Document.read maxDepth source = .ok d) (hclean : d.hasDefect = false)
    (hclash : d.Clash entity m m') : d.Collide m m' := by
  obtain ⟨c, _, c', _, rest, rest', hpart, hname⟩ := hclash
  obtain ⟨x, hm, hm'⟩ := hpart.siblings
  by_cases hstem : m.stem = m'.stem
  · by_cases hsegment : m.segment = m'.segment
    · have hne : m ≠ m' := fun heq => hpart.ne (congrArg Member.id heq)
      rcases segments_read hread hclean hm hm' hne hsegment with hfallback | ⟨hqual, hqual'⟩
      · exact .fallback hsegment hfallback
      · exact .qualified hsegment hqual hqual'
    · refine .dotted hsegment hstem ?_
      have hqualified : ∀ k ∈ d.attributesOf x, '.' ∈ k.segment.toList → k.Qualified d := by
        intro k hk hdot
        have hk := mem_members_of_mem_attributesOf hk
        exact (sound_read hread).qualified_of_dot (declared_read hread k hk) hk
          (hasDefect_eq_false_of_mem_members hclean hk) hdot
      by_cases hdot : '.' ∈ m.segment.toList
      · exact Or.inl (hqualified m hm hdot)
      · refine Or.inr (hqualified m' hm' ?_)
        by_contra hdot'
        exact hsegment (segment_eq_of_stem hstem hdot hdot')
  · rcases stem_of_nameAlong hname with heq | ⟨hrest, hprefix⟩ | ⟨hrest, hprefix⟩
    · exact absurd heq hstem
    · exact .starts (hpart.reference.1 hrest) hprefix hstem
    · exact .started (hpart.reference.2 hrest) hprefix (Ne.symm hstem)

/-- In a document that was read without defects, the columns of the table of an entity have
different names exactly if no two of them part at attributes of one entity and are named alike
from there on. Where two columns clash, the attributes at which they part collide: by a fallback
name that is taken, by qualified names that stand for handles, by a dot that became an
underscore, or by a reference whose name is how that of a sibling starts. -/
theorem read_nodup_name_iff {maxDepth : Nat} {source : String}
    (hread : Document.read maxDepth source = .ok d) (hclean : d.hasDefect = false)
    (entity : EntityId) :
    (((d.validColumns entity).map Column.name).Nodup ↔ ∀ m m', ¬ d.Clash entity m m') ∧
      ∀ m m', d.Clash entity m m' → d.Collide m m' := by
  have hhandles := (sound_read hread).handles
  have hvalid : d.validColumns entity = d.columns entity := by
    rw [hhandles.validColumns_eq, List.filter_eq_self]
    exact fun c hc => isValid_of_mem_columns hclean hc
  refine ⟨?_, fun m m' => collide_of_clash hread hclean⟩
  rw [hvalid]
  exact hhandles.nodup_name_iff entity

/-- An order that names its customer twice: by a number and by a reference. -/
def doubled : String :=
  "# shop\n## customer\n- id as ++\n## order\n- customer id as int\n- @customer\n"

theorem read_nodup_name_iff_doubled :
    ∃ d, Document.read 5 doubled = .ok d ∧ d.hasDefect = false ∧
      (d.validColumns ⟨1⟩).map Column.name = ["id"] ∧ (∀ m m', ¬ d.Clash ⟨1⟩ m m') ∧
      (d.validColumns ⟨2⟩).map Column.name = ["customer_id", "customer_id"] ∧
      ∃ m m', d.Clash ⟨2⟩ m m' ∧ d.Collide m m' := by
  have hall : (Document.read 5 doubled).toOption.any fun d =>
      d.hasDefect = false ∧ (d.validColumns ⟨1⟩).map Column.name = ["id"] ∧
        (d.validColumns ⟨2⟩).map Column.name = ["customer_id", "customer_id"] := by
    decide +kernel
  cases hread : Document.read 5 doubled with
  | error fault => rw [hread] at hall; cases hall
  | ok d =>
      rw [hread, Except.toOption, Option.any_some, decide_eq_true_eq] at hall
      obtain ⟨hclean, hone, htwo⟩ := hall
      obtain ⟨hiff, _⟩ := read_nodup_name_iff hread hclean ⟨1⟩
      obtain ⟨hiff', hcollide⟩ := read_nodup_name_iff hread hclean ⟨2⟩
      rw [hone] at hiff
      rw [htwo] at hiff'
      have hclash : ∃ m m', d.Clash ⟨2⟩ m m' := by
        by_contra hnone
        exact absurd (hiff'.mpr fun m m' h => hnone ⟨m, m', h⟩) (by decide)
      obtain ⟨m, m', hclash⟩ := hclash
      exact ⟨d, rfl, hclean, hone, hiff.mp (by decide), htwo, m, m', hclash,
        hcollide m m' hclash⟩

end Document

end Blueprint
