import Blueprint.Proofs.Columns
import Blueprint.Proofs.Reading
import Blueprint.Relation

/-! # Which relations are inferred

Composite keys suggest associations, references of other entities suggest relations
in both directions, and of all suggestions for one pair of entities the first is kept.
So the relations of a document have distinct pairs, the pairs are exactly the suggested
ones, and what a relation says of its pair is what the first suggestion says.
-/

namespace Blueprint

/-! ### First occurrences -/

section Distinct

variable {α β : Type} [DecidableEq β] {key : α → β} {l : List α} {x : α}

theorem distinctBy_sublist (key : α → β) (l : List α) : (distinctBy key l).Sublist l := by
  induction l with
  | nil => exact .slnil
  | cons x l ih => exact (List.filter_sublist.trans ih).cons_cons x

theorem distinctBy_nodup (key : α → β) (l : List α) : ((distinctBy key l).map key).Nodup := by
  induction l with
  | nil => exact List.nodup_nil
  | cons x l ih =>
      rw [distinctBy, List.map_cons, List.nodup_cons]
      constructor
      · simp
      · exact ih.sublist (List.filter_sublist.map key)

/-- An element is kept if it is the first of its key. -/
theorem mem_distinctBy_iff : x ∈ distinctBy key l ↔ l.find? (key · = key x) = some x := by
  induction l with
  | nil => simp [distinctBy]
  | cons y l ih =>
      rw [distinctBy, List.mem_cons, List.mem_filter, ih, decide_eq_true_eq]
      by_cases hkey : key y = key x
      · simp [hkey, eq_comm]
      · have hne : x ≠ y := fun heq => hkey (heq ▸ rfl)
        simp [hkey, hne, Ne.symm hkey]

/-- Every key has an element that is kept. -/
theorem mem_map_distinctBy {b : β} : b ∈ (distinctBy key l).map key ↔ b ∈ l.map key := by
  constructor
  · exact fun hb => ((distinctBy_sublist key l).map key).subset hb
  · intro hb
    obtain ⟨x, hx, rfl⟩ := List.mem_map.mp hb
    obtain ⟨first, hfirst⟩ := Option.isSome_iff_exists.mp
      (List.find?_isSome (p := fun y => key y = key x).mpr ⟨x, hx, by simp⟩)
    have hkey : key first = key x := by simpa using List.find?_some hfirst
    refine List.mem_map.mpr ⟨first, mem_distinctBy_iff.mpr ?_, hkey⟩
    rw [hkey, hfirst]

theorem filter_distinctBy (key : α → β) (p : β → Bool) (l : List α) :
    (distinctBy key l).filter (fun x => p (key x)) =
      distinctBy key (l.filter fun x => p (key x)) := by
  induction l with
  | nil => rfl
  | cons y l ih =>
      have hcomm : ((distinctBy key l).filter (key · ≠ key y)).filter (fun x => p (key x)) =
          (distinctBy key (l.filter fun x => p (key x))).filter (key · ≠ key y) := by
        rw [← ih, List.filter_filter, List.filter_filter]
        exact List.filter_congr fun x _ => Bool.and_comm _ _
      by_cases hy : p (key y)
      · simp only [distinctBy, List.filter_cons, hy, if_true, hcomm]
      · simp only [distinctBy, List.filter_cons, hy, Bool.false_eq_true, if_false, hcomm]
        rw [List.filter_eq_self]
        intro x hx
        have hx := (List.mem_filter.mp ((distinctBy_sublist key _).subset hx)).2
        exact decide_eq_true fun heq => hy (heq ▸ hx)

/-- Under the identity as key, each value is kept where it stands first. -/
theorem distinctBy_id_eq_eraseDups (l : List β) : distinctBy id l = l.eraseDups := by
  -- What is left once a value is taken out is shorter, but no tail of the list.
  induction hlength : l.length using Nat.strongRecOn generalizing l with
  | ind n ih =>
      cases l with
      | nil => rfl
      | cons y l =>
          have hshorter : (l.filter fun b => !b == y).length < n :=
            hlength ▸ Nat.lt_succ_of_le (List.length_filter_le _ _)
          have hfilter := filter_distinctBy id (fun b => !b == y) l
          rw [List.eraseDups_cons, ← ih _ hshorter (l.filter fun b => !b == y) rfl, distinctBy]
          simp only [id] at hfilter ⊢
          rw [← hfilter]
          simp [Bool.beq_eq_decide_eq]

end Distinct

theorem mem_orderedPairs_iff {α : Type} {l : List α} {p : α × α} :
    p ∈ orderedPairs l ↔ ∃ i j : Nat, i < j ∧ l[i]? = some p.1 ∧ l[j]? = some p.2 := by
  induction l with
  | nil => simp [orderedPairs]
  | cons x l ih =>
      rw [orderedPairs, List.mem_append, ih, List.mem_map]
      constructor
      · rintro (⟨y, hy, rfl⟩ | ⟨i, j, hlt, hi, hj⟩)
        · obtain ⟨j, hj⟩ := List.mem_iff_getElem?.mp hy
          exact ⟨0, j + 1, by omega, by simp, by simpa using hj⟩
        · exact ⟨i + 1, j + 1, by omega, by simpa using hi, by simpa using hj⟩
      · rintro ⟨i, j, hlt, hi, hj⟩
        obtain ⟨j, rfl⟩ := Nat.exists_eq_succ_of_ne_zero (by omega : j ≠ 0)
        rw [List.getElem?_cons_succ] at hj
        cases i with
        | zero =>
            rw [List.getElem?_cons_zero] at hi
            exact Or.inl ⟨p.2, List.mem_of_getElem? hj, Prod.ext (Option.some.inj hi) rfl⟩
        | succ i => exact Or.inr ⟨i, j, by omega, by simpa using hi, hj⟩

/-- The two entities of a relation. -/
def Relation.pair (r : Relation) : EntityId × EntityId :=
  (r.base, r.has)

namespace Document

variable {d : Document} {e : EntityId} {r : Relation} {p : EntityId × EntityId}

/-! ### What is suggested -/

/-- Whether the key of `e` associates a pair: it has several columns, and the two entities
stand in this order among those that declare them, each counted where it comes first. -/
def AssociatedBy (d : Document) (e : EntityId) (p : EntityId × EntityId) : Prop :=
  d.isComposite e ∧ ∃ i j : Nat, i < j ∧
    ((d.primary e).map Column.owner).eraseDups[i]? = some p.1 ∧
    ((d.primary e).map Column.owner).eraseDups[j]? = some p.2

def Associates (d : Document) (p : EntityId × EntityId) : Prop :=
  ∃ e ∈ d.entities, d.AssociatedBy e.id p

/-- Whether the first entity, of a key with at most one column, has a column that a
reference brings from the second. -/
def Refers (d : Document) (p : EntityId × EntityId) : Prop :=
  (∃ e ∈ d.entities, e.id = p.1) ∧ d.isComposite p.1 = false ∧
    ∃ c ∈ d.columns p.1, c.isDirect = false ∧ c.owner = p.2

theorem mem_referenceColumns {c : Column} :
    c ∈ d.referenceColumns e ↔ c ∈ d.columns e ∧ c.isDirect = false := by
  simp [referenceColumns]

theorem associatedBy_iff :
    d.AssociatedBy e p ↔ d.isComposite e ∧ p ∈ orderedPairs (d.keyOwners e) := by
  rw [keyOwners, distinctBy_id_eq_eraseDups, mem_orderedPairs_iff]
  rfl

theorem mem_forwardRelations_iff :
    r ∈ d.forwardRelations e ↔
      (d.AssociatedBy e r.pair ∧ r.assoc = some e ∧ r.many ∧ r.optional) ∨
      (d.isComposite e = false ∧ ∃ c ∈ d.columns e, c.isDirect = false ∧
        r = ⟨e, c.owner, none, false, !c.source.required⟩) := by
  rw [associatedBy_iff]
  cases hcomposite : d.isComposite e with
  | true =>
      simp only [forwardRelations, hcomposite, if_true, List.mem_map, true_and,
        Bool.true_eq_false, false_and, or_false]
      constructor
      · rintro ⟨p, hp, rfl⟩
        exact ⟨hp, rfl, rfl, rfl⟩
      · rintro ⟨hp, hassoc, hmany, hoptional⟩
        obtain ⟨base, has, assoc, many, optional⟩ := r
        subst hassoc hmany hoptional
        exact ⟨(base, has), hp, rfl⟩
  | false =>
      simp only [forwardRelations, hcomposite, Bool.false_eq_true, if_false, List.mem_map,
        mem_referenceColumns, false_and, false_or, true_and, and_assoc, eq_comm]

theorem mem_reverseRelations_iff :
    r ∈ d.reverseRelations e ↔
      d.isComposite e = false ∧ ∃ c ∈ d.columns e, c.isDirect = false ∧
        r = ⟨c.owner, e, none, true, true⟩ := by
  cases hcomposite : d.isComposite e with
  | true => simp [reverseRelations, hcomposite]
  | false =>
      simp only [reverseRelations, hcomposite, Bool.false_eq_true, if_false, List.mem_map,
        mem_referenceColumns, true_and, and_assoc, eq_comm]

/-- The suggestions that come first: the associations, and the relations seen from the
entities that refer. -/
def firstSuggestions (d : Document) : List Relation :=
  (d.entities.map Entity.id).flatMap d.forwardRelations

/-- The relations seen from the entities referred to. -/
def lastSuggestions (d : Document) : List Relation :=
  (d.entities.map Entity.id).flatMap d.reverseRelations

theorem suggestedRelations_eq : d.suggestedRelations = d.firstSuggestions ++ d.lastSuggestions :=
  rfl

theorem mem_map_firstSuggestions :
    p ∈ d.firstSuggestions.map Relation.pair ↔ d.Associates p ∨ d.Refers p := by
  simp only [firstSuggestions, List.mem_map, List.mem_flatMap, mem_forwardRelations_iff]
  constructor
  · rintro ⟨r, ⟨_, ⟨e, he, rfl⟩, hr⟩, rfl⟩
    rcases hr with ⟨hassociated, _⟩ | ⟨hsimple, c, hc, hdirect, rfl⟩
    · exact Or.inl ⟨e, he, hassociated⟩
    · exact Or.inr ⟨⟨e, he, rfl⟩, hsimple, c, hc, hdirect, rfl⟩
  · rintro (⟨e, he, hassociated⟩ | ⟨⟨e, he, heq⟩, hsimple, c, hc, hdirect, howner⟩)
    · exact ⟨⟨p.1, p.2, some e.id, true, true⟩, ⟨e.id, ⟨e, he, rfl⟩, by simp [Relation.pair, hassociated]⟩, rfl⟩
    · exact ⟨_, ⟨p.1, ⟨e, he, heq⟩, Or.inr ⟨hsimple, c, hc, hdirect, rfl⟩⟩, by
        simp [Relation.pair, howner]⟩

theorem mem_map_lastSuggestions :
    p ∈ d.lastSuggestions.map Relation.pair ↔ d.Refers p.swap := by
  simp only [lastSuggestions, List.mem_map, List.mem_flatMap, mem_reverseRelations_iff]
  constructor
  · rintro ⟨r, ⟨_, ⟨e, he, rfl⟩, hsimple, c, hc, hdirect, rfl⟩, rfl⟩
    exact ⟨⟨e, he, rfl⟩, hsimple, c, hc, hdirect, rfl⟩
  · rintro ⟨⟨e, he, heq⟩, hsimple, c, hc, hdirect, howner⟩
    exact ⟨_, ⟨p.2, ⟨e, he, heq⟩, hsimple, c, hc, hdirect, rfl⟩, by
      simp only [Relation.pair, howner, Prod.snd_swap]⟩

/-- A suggestion that comes first is of one kind or the other by its marks. -/
theorem mark_of_mem_firstSuggestions (hr : r ∈ d.firstSuggestions) :
    (∃ e ∈ d.entities, r.assoc = some e.id ∧ d.AssociatedBy e.id r.pair ∧ r.many ∧ r.optional) ∨
      (r.assoc = none ∧ r.many = false) := by
  obtain ⟨_, hid, hr⟩ := List.mem_flatMap.mp hr
  obtain ⟨e, he, rfl⟩ := List.mem_map.mp hid
  rcases mem_forwardRelations_iff.mp hr with ⟨hassociated, hassoc, hmarks⟩ | ⟨_, _, _, _, rfl⟩
  · exact Or.inl ⟨e, he, hassoc, hassociated, hmarks⟩
  · exact Or.inr ⟨rfl, rfl⟩

theorem mark_of_mem_lastSuggestions (hr : r ∈ d.lastSuggestions) :
    r.assoc = none ∧ r.many ∧ r.optional := by
  obtain ⟨_, _, hr⟩ := List.mem_flatMap.mp hr
  obtain ⟨_, _, _, _, rfl⟩ := mem_reverseRelations_iff.mp hr
  exact ⟨rfl, rfl, rfl⟩

/-! ### What is kept -/

theorem relations_eq : d.relations = distinctBy Relation.pair d.suggestedRelations :=
  rfl

/-- A relation is the first suggestion for its pair: one of those that come first, or there
is none of those for the pair. -/
theorem mem_relations_iff :
    r ∈ d.relations ↔
      d.firstSuggestions.find? (Relation.pair · = r.pair) = some r ∨
      (r.pair ∉ d.firstSuggestions.map Relation.pair ∧
        d.lastSuggestions.find? (Relation.pair · = r.pair) = some r) := by
  rw [relations_eq, mem_distinctBy_iff, suggestedRelations_eq, List.find?_append, Option.or_eq_some_iff,
    List.find?_eq_none]
  simp [eq_comm]

theorem mem_suggestedRelations_of_mem (hr : r ∈ d.relations) :
    r ∈ d.firstSuggestions ∨
      (r.pair ∉ d.firstSuggestions.map Relation.pair ∧ r ∈ d.lastSuggestions) := by
  rcases mem_relations_iff.mp hr with hfound | ⟨hnone, hfound⟩
  · exact Or.inl (List.mem_of_find?_eq_some hfound)
  · exact Or.inr ⟨hnone, List.mem_of_find?_eq_some hfound⟩

theorem mem_map_relations :
    p ∈ d.relations.map Relation.pair ↔ d.Associates p ∨ d.Refers p ∨ d.Refers p.swap := by
  rw [relations_eq, mem_map_distinctBy, suggestedRelations_eq, List.map_append, List.mem_append,
    mem_map_firstSuggestions, mem_map_lastSuggestions, or_assoc]

/-- A relation that may hold many, with none to associate it, is seen from the entity
referred to, and nothing else was suggested for its pair. -/
theorem exists_many_relation_iff :
    (∃ r ∈ d.relations, r.pair = p ∧ r.many ∧ r.assoc = none) ↔
      d.Refers p.swap ∧ ¬ d.Associates p ∧ ¬ d.Refers p := by
  constructor
  · rintro ⟨r, hr, rfl, hmany, hassoc⟩
    rcases mem_suggestedRelations_of_mem hr with hfirst | ⟨hnone, hlast⟩
    · rcases mark_of_mem_firstSuggestions hfirst with ⟨e, _, hsome, _⟩ | ⟨_, hone⟩
      · simp [hassoc] at hsome
      · simp [hone] at hmany
    · rw [mem_map_firstSuggestions, not_or] at hnone
      exact ⟨mem_map_lastSuggestions.mp (List.mem_map_of_mem hlast), hnone⟩
  · rintro ⟨hrefers, hnone⟩
    obtain ⟨r, hr, rfl⟩ := List.mem_map.mp (mem_map_relations.mpr (Or.inr (Or.inr hrefers)))
    rcases mem_suggestedRelations_of_mem hr with hfirst | ⟨_, hlast⟩
    · exact absurd (mem_map_firstSuggestions.mp (List.mem_map_of_mem hfirst)) (not_or.mpr hnone)
    · obtain ⟨hassoc, hmany, _⟩ := mark_of_mem_lastSuggestions hlast
      exact ⟨r, hr, rfl, hmany, hassoc⟩

/-- A relation to one entity speaks of the first column that leads there. -/
theorem exists_column_of_mem_relations (hr : r ∈ d.relations) (hone : r.many = false) :
    r.assoc = none ∧ d.Refers r.pair ∧
      ∃ c, (d.columns r.base).find? (fun c => !c.isDirect && c.owner = r.has) = some c ∧
        r.optional = !c.source.required := by
  rcases mem_relations_iff.mp hr with hfound | ⟨_, hfound⟩
  · rw [firstSuggestions, List.find?_flatMap] at hfound
    obtain ⟨_, hid, hfound⟩ := List.exists_of_findSome?_eq_some hfound
    obtain ⟨e, he, rfl⟩ := List.mem_map.mp hid
    rcases mem_forwardRelations_iff.mp (List.mem_of_find?_eq_some hfound) with
      ⟨_, _, hmany, _⟩ | ⟨hsimple, c, hc, hdirect, rfl⟩
    · simp [hone] at hmany
    · refine ⟨rfl, ⟨⟨e, he, rfl⟩, hsimple, c, hc, hdirect, rfl⟩, ?_⟩
      simp only [forwardRelations, hsimple, Bool.false_eq_true, if_false, referenceColumns,
        List.find?_map, List.find?_filter, Function.comp_def, Relation.pair, Prod.mk.injEq,
        Bool.decide_and, Bool.decide_eq_true] at hfound
      obtain ⟨first, hfirst, heq⟩ := Option.map_eq_some_iff.mp hfound
      obtain ⟨_, _, _, _, hoptional⟩ := Relation.mk.inj heq
      exact ⟨first, hfirst, hoptional.symm⟩
  · obtain ⟨_, hmany, _⟩ := mark_of_mem_lastSuggestions (List.mem_of_find?_eq_some hfound)
    simp [hone] at hmany

/-- What is true of the relations that a document amounts to. -/
structure Inferred (d : Document) (rs : List Relation) : Prop where
  nodup : (rs.map Relation.pair).Nodup
  pairs : ∀ p, p ∈ rs.map Relation.pair ↔ d.Associates p ∨ d.Refers p ∨ d.Refers p.swap
  ordered : rs.Sublist d.suggestedRelations
  first : ∀ r ∈ rs, d.suggestedRelations.find? (Relation.pair · = r.pair) = some r
  associated : ∀ r ∈ rs, ∀ e, r.assoc = some e →
    (∃ entity ∈ d.entities, entity.id = e) ∧ d.AssociatedBy e r.pair ∧ r.many ∧ r.optional
  many : ∀ p, (∃ r ∈ rs, r.pair = p ∧ r.many ∧ r.assoc = none) ↔
    d.Refers p.swap ∧ ¬ d.Associates p ∧ ¬ d.Refers p
  one : ∀ r ∈ rs, r.many = false → r.assoc = none ∧ d.Refers r.pair ∧
    ∃ c, (d.columns r.base).find? (fun c => !c.isDirect && c.owner = r.has) = some c ∧
      (r.optional ↔ ¬ c.source.required)

theorem inferred_relations (d : Document) : d.Inferred d.relations where
  nodup := distinctBy_nodup _ _
  pairs _ := mem_map_relations
  ordered := distinctBy_sublist _ _
  first _ hr := mem_distinctBy_iff.mp hr
  associated r hr e hassoc := by
    rcases mem_suggestedRelations_of_mem hr with hfirst | ⟨_, hlast⟩
    · rcases mark_of_mem_firstSuggestions hfirst with ⟨entity, hentity, hsome, hmarks⟩ | ⟨hnone, _⟩
      · obtain rfl := Option.some.inj (hassoc.symm.trans hsome)
        exact ⟨⟨entity, hentity, rfl⟩, hmarks⟩
      · simp [hnone] at hassoc
    · simp [(mark_of_mem_lastSuggestions hlast).1] at hassoc
  many _ := exists_many_relation_iff
  one r hr hone := by
    obtain ⟨hassoc, hrefers, c, hc, hoptional⟩ := exists_column_of_mem_relations hr hone
    exact ⟨hassoc, hrefers, c, hc, by simp [hoptional]⟩

/-- The entity that a column leads to holds the attribute that is stored. -/
theorem HandlesSound.ownerOf?_terminal (hd : d.HandlesSound) {c : Column} (hc : c ∈ d.columns e) :
    (d.ownerOf? c.terminal.id).map Entity.id = some c.owner :=
  hd.ownerOf?_of_mem_attributesOf (terminal_mem_attributesOf hc)

/-- After any run the relations have distinct pairs, and these are exactly the pairs of entities
that a composite key associates, that a reference leads from and to, and that one leads to and
from. Each relation is the first suggestion for its pair: it names an associating entity only if
that entity associates the pair, it may hold many on its own exactly if nothing but a reference
back was suggested, and a relation to one is optional exactly if the first column that suggests
it comes from an attribute that is not required. -/
theorem inferred_relations_run (hd : d.IsOrigin) (es : List Edit) :
    (d.run es).Inferred (d.run es).relations ∧
      ∀ e, ∀ c ∈ (d.run es).columns e,
        ((d.run es).ownerOf? c.terminal.id).map Entity.id = some c.owner :=
  ⟨inferred_relations _, fun _ _ hc => (hd.sound.handles.run es).1.ownerOf?_terminal hc⟩

/-- Teams and users refer to each other, memberships associate them, users refer to users, and
an invitation refers to a team. -/
def guild : List Edit :=
  [.addSchema "club", .addEntity ⟨1⟩ "membership", .addEntity ⟨1⟩ "user", .addEntity ⟨1⟩ "team",
    .addEntity ⟨1⟩ "invitation", .addAttribute ⟨2⟩ "- id as ++", .addAttribute ⟨3⟩ "- id as ++",
    .addAttribute ⟨1⟩ "- @user with primary", .addAttribute ⟨1⟩ "- @team with primary",
    .addAttribute ⟨2⟩ "- @team", .addAttribute ⟨2⟩ "- @user as mentor",
    .addAttribute ⟨3⟩ "- @user as owner with required", .addAttribute ⟨3⟩ "- @user as deputy",
    .addAttribute ⟨4⟩ "- @team"]

theorem inferred_relations_run_guild :
    ((empty 5).run guild).relations =
      [⟨⟨2⟩, ⟨3⟩, some ⟨1⟩, true, true⟩, ⟨⟨2⟩, ⟨2⟩, none, false, true⟩,
        ⟨⟨3⟩, ⟨2⟩, none, false, false⟩, ⟨⟨4⟩, ⟨3⟩, none, false, true⟩,
        ⟨⟨3⟩, ⟨4⟩, none, true, true⟩] ∧
      ((empty 5).run guild).Associates (⟨2⟩, ⟨3⟩) ∧
      ((empty 5).run guild).Refers (⟨4⟩, ⟨3⟩) ∧ ¬ ((empty 5).run guild).Refers (⟨3⟩, ⟨4⟩) := by
  have hrelations : ((empty 5).run guild).relations =
      [⟨⟨2⟩, ⟨3⟩, some ⟨1⟩, true, true⟩, ⟨⟨2⟩, ⟨2⟩, none, false, true⟩,
        ⟨⟨3⟩, ⟨2⟩, none, false, false⟩, ⟨⟨4⟩, ⟨3⟩, none, false, true⟩,
        ⟨⟨3⟩, ⟨4⟩, none, true, true⟩] := by
    decide +kernel
  obtain ⟨hinferred, _⟩ := inferred_relations_run (.empty 5) guild
  rw [hrelations] at hinferred
  obtain ⟨⟨e, he, hid⟩, hassociated, _⟩ := hinferred.associated _ List.mem_cons_self ⟨1⟩ rfl
  have hback := (hinferred.many (⟨3⟩, ⟨4⟩)).mp ⟨⟨⟨3⟩, ⟨4⟩, none, true, true⟩, by simp, rfl, rfl, rfl⟩
  exact ⟨hrelations, ⟨e, he, hid ▸ hassociated⟩, hback.1, hback.2.2⟩

end Document

end Blueprint
