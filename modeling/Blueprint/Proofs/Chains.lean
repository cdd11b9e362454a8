import Blueprint.Document.Walk
import Blueprint.Proofs.ColumnNames
import Mathlib.Data.List.Chain
import Mathlib.Data.List.Lex

/-! # Columns as chains

A chain starts at an attribute of an entity. Each reference on it leads to the entity that
declares the next attribute, only key attributes follow, and a plain attribute ends it. The
columns of an entity are its chains up to the depth, each of them once, in the order in
which a walk down the declarations comes to them.
-/

namespace Blueprint.Document

variable {d : Document} {entity : EntityId} {m next : Member} {rest : List Member}

/-! ### Chains -/

/-- Whether an attribute is a reference to the entity that declares the next one. -/
def LeadsTo (d : Document) (m next : Member) : Prop :=
  m.isReference ∧ ∃ target, m.target = some target ∧ next ∈ d.attributesOf target

structure IsChain (d : Document) (entity : EntityId) (chain : List Member) : Prop where
  start : ∃ m ∈ d.attributesOf entity, chain.head? = some m
  leads : List.IsChain d.LeadsTo chain
  /-- What is referred to is there by its key alone. -/
  primary : ∀ m ∈ chain.tail, m.primary
  stored : ∃ m, chain.getLast? = some m ∧ m.isReference = false

theorem not_isChain_nil : ¬ d.IsChain entity [] := by
  intro hchain
  obtain ⟨m, _, hhead⟩ := hchain.start
  cases hhead

theorem isChain_singleton_iff :
    d.IsChain entity [m] ↔ m ∈ d.attributesOf entity ∧ m.isReference = false := by
  constructor
  · intro hchain
    obtain ⟨first, hfirst, hhead⟩ := hchain.start
    obtain ⟨last, hlast, hplain⟩ := hchain.stored
    cases hhead
    cases hlast
    exact ⟨hfirst, hplain⟩
  · rintro ⟨hm, hplain⟩
    exact ⟨⟨m, hm, rfl⟩, .singleton m, by simp, m, rfl, hplain⟩

/-- A longer chain goes on at the target of its first reference, with a key attribute. -/
theorem isChain_cons_cons_iff :
    d.IsChain entity (m :: next :: rest) ↔
      m ∈ d.attributesOf entity ∧ m.isReference ∧
        ∃ target, m.target = some target ∧ next.primary ∧ d.IsChain target (next :: rest) := by
  constructor
  · intro hchain
    obtain ⟨first, hfirst, hhead⟩ := hchain.start
    cases hhead
    obtain ⟨⟨href, target, htarget, hnext⟩, hleads⟩ := List.isChain_cons_cons.mp hchain.leads
    obtain ⟨hprimary, hkeys⟩ := List.forall_mem_cons.mp hchain.primary
    refine ⟨hfirst, href, target, htarget, hprimary, ⟨next, hnext, rfl⟩, hleads, hkeys, ?_⟩
    simpa using hchain.stored
  · rintro ⟨hm, href, target, htarget, hprimary, hchain⟩
    obtain ⟨first, hfirst, hhead⟩ := hchain.start
    cases hhead
    refine ⟨⟨m, hm, rfl⟩, ?_, List.forall_mem_cons.mpr ⟨hprimary, hchain.primary⟩, ?_⟩
    · exact List.isChain_cons_cons.mpr ⟨⟨href, target, htarget, hfirst⟩, hchain.leads⟩
    · simpa using hchain.stored

/-- A chain ends at a plain attribute, or goes on at the target of a reference. -/
theorem isChain_cons_iff :
    d.IsChain entity (m :: rest) ↔
      m ∈ d.attributesOf entity ∧
        ((m.isReference = false ∧ rest = []) ∨
          (m.isReference ∧ ∃ target, m.target = some target ∧
            (∀ next ∈ rest.head?, next.primary) ∧ d.IsChain target rest)) := by
  cases rest with
  | nil => simp [isChain_singleton_iff, not_isChain_nil]
  | cons next rest =>
      simp only [isChain_cons_cons_iff, reduceCtorEq, and_false, false_or, List.head?_cons,
        Option.mem_some_iff, forall_eq']

/-! ### Every chain, and nothing else -/

/-- How the way of a column goes on from the attributes followed before. -/
theorem exists_way_succ_iff (root : EntityId) (depth : Nat) (hops : List Member)
    (entity : EntityId) (chain : List Member) :
    (∃ c ∈ d.columnsFrom root (depth + 1) hops entity, c.way = hops ++ chain) ↔
      ∃ m ∈ d.attributesOf entity, ∃ rest, chain = m :: rest ∧ (hops = [] ∨ m.primary) ∧
        ((m.isReference = false ∧ rest = []) ∨
          (m.isReference ∧ ∃ target, m.target = some target ∧
            ∃ c ∈ d.columnsFrom root depth (hops ++ [m]) target, c.way = hops ++ [m] ++ rest)) := by
  rw [columnsFrom_succ]
  constructor
  · rintro ⟨c, hc, hway⟩
    obtain ⟨m, hm, hc⟩ := List.mem_flatMap.mp hc
    obtain ⟨rest, hrest, _⟩ := way_of_mem_columnsAt hc
    obtain rfl := List.append_cancel_left (hway.symm.trans hrest)
    have hfollow : hops = [] ∨ m.primary := by
      by_contra hnot
      obtain ⟨hhops, hprimary⟩ := not_or.mp hnot
      simp [columnsAt_eq_nil hhops hprimary] at hc
    refine ⟨m, hm, rest, rfl, hfollow, ?_⟩
    rcases of_mem_columnsAt hc with ⟨hplain, rfl⟩ | ⟨href, target, htarget, hc⟩
    · exact Or.inl ⟨hplain, by simpa [Column.way] using hway⟩
    · exact Or.inr ⟨href, target, htarget, c, hc, by simpa using hway⟩
  · rintro ⟨m, hm, rest, rfl, hfollow, ⟨hplain, rfl⟩ | ⟨href, target, htarget, c, hc, hway⟩⟩
    · refine ⟨⟨root, hops, m, entity⟩, List.mem_flatMap.mpr ⟨m, hm, ?_⟩, rfl⟩
      rw [columnsAt_plain hfollow hplain]
      exact List.mem_singleton_self _
    · refine ⟨c, List.mem_flatMap.mpr ⟨m, hm, ?_⟩, by simpa using hway⟩
      rw [columnsAt_reference hfollow href, htarget]
      exact hc

/-- A chain up to the depth goes on from the attributes followed before. -/
theorem exists_way_iff (root : EntityId) (depth : Nat) (hops : List Member) (entity : EntityId)
    (chain : List Member) :
    (∃ c ∈ d.columnsFrom root depth hops entity, c.way = hops ++ chain) ↔
      d.IsChain entity chain ∧ chain.length ≤ depth ∧
        (hops = [] ∨ ∀ m ∈ chain.head?, m.primary) := by
  -- The depth bounds what is left of the chain, and the attributes before it only grow.
  induction depth generalizing hops entity chain with
  | zero =>
      constructor
      · rintro ⟨c, hc, _⟩
        simp [columnsFrom] at hc
      · rintro ⟨hchain, hlength, _⟩
        rw [List.eq_nil_of_length_eq_zero (Nat.le_zero.mp hlength)] at hchain
        exact absurd hchain not_isChain_nil
  | succ depth ih =>
      rw [exists_way_succ_iff]
      constructor
      · rintro ⟨m, hm, rest, rfl, hfollow, hrest⟩
        have hkey : hops = [] ∨ ∀ m' ∈ (m :: rest).head?, m'.primary := by simpa using hfollow
        rcases hrest with ⟨hplain, rfl⟩ | ⟨href, target, htarget, hway⟩
        · exact ⟨isChain_cons_iff.mpr ⟨hm, Or.inl ⟨hplain, rfl⟩⟩, by simp, hkey⟩
        · obtain ⟨hchain, hlength, hprimary⟩ := (ih _ _ rest).mp hway
          have hnext : ∀ next ∈ rest.head?, next.primary := by simpa using hprimary
          exact ⟨isChain_cons_iff.mpr ⟨hm, Or.inr ⟨href, target, htarget, hnext, hchain⟩⟩,
            Nat.succ_le_succ hlength, hkey⟩
      · rintro ⟨hchain, hlength, hkey⟩
        cases chain with
        | nil => exact absurd hchain not_isChain_nil
        | cons m rest =>
            obtain ⟨hm, hrest⟩ := isChain_cons_iff.mp hchain
            refine ⟨m, hm, rest, rfl, by simpa using hkey, hrest.imp_right ?_⟩
            rintro ⟨href, target, htarget, hnext, hchain⟩
            exact ⟨href, target, htarget,
              (ih _ _ rest).mpr ⟨hchain, Nat.le_of_succ_le_succ hlength, Or.inr hnext⟩⟩

/-! ### The order of columns -/

/-- Whether one entity declares both attributes, the first one earlier. -/
def DeclaredBefore (d : Document) (m m' : Member) : Prop :=
  ∃ entity, [m, m'].Sublist (d.attributesOf entity)

/-- Columns come in the order of the attributes at which their ways part. -/
theorem pairwise_way_columnsFrom (root : EntityId) (depth : Nat) (hops : List Member)
    (entity : EntityId) :
    (d.columnsFrom root depth hops entity).Pairwise fun c c' =>
      List.Lex d.DeclaredBefore c.way c'.way := by
  induction depth generalizing hops entity with
  | zero => exact .nil
  | succ depth ih =>
      rw [columnsFrom_succ, List.pairwise_flatMap]
      constructor
      · intro m _
        by_cases hfollow : hops = [] ∨ m.primary
        · cases href : m.isReference with
          | true =>
              rw [columnsAt_reference hfollow href]
              cases m.target with
              | none => exact .nil
              | some target => exact ih (hops ++ [m]) target
          | false =>
              rw [columnsAt_plain hfollow href]
              exact List.pairwise_singleton _ _
        · obtain ⟨hhops, hprimary⟩ := not_or.mp hfollow
          rw [columnsAt_eq_nil hhops hprimary]
          exact .nil
      · rw [List.pairwise_iff_forall_sublist]
        intro m m' hsublist c hc c' hc'
        obtain ⟨rest, hway, _⟩ := way_of_mem_columnsAt hc
        obtain ⟨rest', hway', _⟩ := way_of_mem_columnsAt hc'
        rw [hway, hway']
        exact List.Lex.append_left _ (.rel ⟨entity, hsublist⟩) hops

theorem HandlesSound.not_declaredBefore_self (hd : d.HandlesSound) (m : Member) :
    ¬ d.DeclaredBefore m m := by
  rintro ⟨entity, hsublist⟩
  have hnodup := (hsublist.map Member.id).nodup (hd.attributesOf_nodup entity)
  simp at hnodup

/-! ### What a column says of its chain -/

/-- Whether a column is the one that a chain stands for. -/
structure Describes (d : Document) (f : Flat) (chain : List Member) : Prop where
  source : chain.head? = some f.column.source
  terminal : chain.getLast? = some f.column.terminal
  via : f.column.via? = if chain.length = 1 then none else f.column.source.target
  via_none : f.column.via? = none ↔ chain.length = 1
  segments : f.column.segments = chain.map fun m => m.segment
  isDirect : f.column.isDirect ↔ chain.length = 1
  changesSchema : f.changesSchema ↔
    d.schemaOfAttr? f.column.source.id ≠ d.schemaOfAttr? f.column.terminal.id

theorem HandlesSound.schemaOfAttr?_eq (hd : d.HandlesSound) (hm : m ∈ d.attributesOf entity) :
    d.schemaOfAttr? m.id = (d.schemaOf? entity).map Schema.id := by
  obtain ⟨owner, howner, rfl⟩ := Option.map_eq_some_iff.mp (hd.ownerOf?_of_mem_attributesOf hm)
  rw [schemaOfAttr?, howner, Option.bind_some]

/-- A column changes the schema just if the attributes at its ends lie in two schemas. -/
theorem HandlesSound.changesSchema_eq (hd : d.HandlesSound) {c : Column}
    (hc : c ∈ d.columns entity) :
    d.changesSchema c = decide (d.schemaOfAttr? c.source.id ≠ d.schemaOfAttr? c.terminal.id) := by
  rw [hd.schemaOfAttr?_eq (source_mem_attributesOf hc),
    hd.schemaOfAttr?_eq (terminal_mem_attributesOf hc), ← root_of_mem_columnsFrom hc, changesSchema]

theorem HandlesSound.describes (hd : d.HandlesSound) {c : Column} (hc : c ∈ d.columns entity) :
    d.Describes ⟨c, d.changesSchema c⟩ c.way where
  source := by
    unfold Column.way Column.source
    cases c.hops <;> rfl
  terminal := by simp [Column.way]
  via := by
    unfold Column.way Column.via? Column.source
    cases c.hops <;> simp
  via_none := by
    obtain ⟨_, _, more, hhops, hmore⟩ := way_of_mem_columnsFrom hc
    rw [List.nil_append] at hhops
    unfold Column.way Column.via?
    rw [hhops]
    cases more with
    | nil => simp
    | cons m more =>
        have htarget := (hmore m List.mem_cons_self).2.2
        simpa [Option.isSome_iff_ne_none] using htarget
  segments := rfl
  isDirect := by simp [Column.way, Column.isDirect]
  changesSchema := by rw [hd.changesSchema_eq hc, decide_eq_true_eq]

/-! ### What a walk carries along -/

/-- The reference followed first, with its target. -/
def headOf (hops : List Member) : Option (AttrId × EntityId) :=
  hops.head?.bind fun m => m.target.map (m.id, ·)

/-- One reference more is the first one only if there is none yet. -/
theorem headOf_concat {hops : List Member} (hhops : ∀ m ∈ hops, m.target.isSome)
    {target : EntityId} (htarget : m.target = some target) :
    headOf (hops ++ [m]) = some ((headOf hops).getD (m.id, target)) := by
  cases hops with
  | nil => simp [headOf, htarget]
  | cons first hops =>
      obtain ⟨via, hvia⟩ := Option.isSome_iff_exists.mp (hhops first List.mem_cons_self)
      simp [headOf, hvia]

/-- What a walk puts down for a column. -/
def entryOf (d : Document) (c : Column) : Entry :=
  d.entryAt (headOf c.hops) c.segments c.hops.length c.terminal.id

/-- A walk after some references carries along what can be read off them. -/
theorem walk_eq_map (root : EntityId) (depth : Nat) {hops : List Member}
    (hhops : ∀ m ∈ hops, m.target.isSome) (entity : EntityId) :
    d.walk (hops.length + depth) hops.length (hops.map fun m => m.segment) (headOf hops) entity =
      (d.columnsFrom root depth hops entity).map d.entryOf := by
  induction depth generalizing hops entity with
  | zero => simp [walk, columnsFrom]
  | succ depth ih =>
      rw [walk, if_pos (by omega), columnsFrom_succ, List.map_flatMap]
      apply List.flatMap_congr
      intro m _
      have hskip : (decide (0 < hops.length) && !m.primary) = (!hops.isEmpty && !m.primary) := by
        cases hops <;> simp
      rw [hskip, columnsAt]
      split
      · rfl
      · split
        · cases htarget : m.target with
          | none => rfl
          | some target =>
              have hmore : ∀ m' ∈ hops ++ [m], m'.target.isSome := by
                simpa [or_imp, forall_and, htarget] using hhops
              have hwalk := ih hmore target
              rw [headOf_concat hhops htarget] at hwalk
              simpa [Nat.add_assoc, Nat.add_comm 1 depth] using hwalk
        · simp [entryOf, Column.segments]

/-- The walk of an entity puts down its columns. -/
theorem HandlesSound.entries_eq (hd : d.HandlesSound) (entity : EntityId) :
    d.entries entity = (d.flatten entity).map Flat.entry := by
  have hwalk := walk_eq_map (d := d) entity d.maxDepth (List.forall_mem_nil _) entity
  rw [List.length_nil, Nat.zero_add] at hwalk
  rw [entries, flatten, List.map_map]
  refine hwalk.trans (List.map_congr_left fun c hc => ?_)
  obtain ⟨_, _, more, hhops, hmore⟩ := way_of_mem_columnsFrom hc
  rw [List.nil_append] at hhops
  simp only [entryOf, entryAt, Function.comp_apply, Flat.entry, hd.changesSchema_eq hc]
  unfold Column.source Column.via? Column.isDirect
  rw [hhops]
  cases more with
  | nil => simp [headOf]
  | cons first more =>
      obtain ⟨via, hvia⟩ := Option.isSome_iff_exists.mp (hmore first List.mem_cons_self).2.2
      simp [headOf, hvia]

/-- What the walk of an entity puts down are its columns, and they stand for its chains up to the
depth: every one of them and nothing else, each once, in the order of the declarations at which
they part. -/
theorem HandlesSound.flatten_chains (hd : d.HandlesSound) (entity : EntityId) :
    d.entries entity = (d.flatten entity).map Flat.entry ∧
    ∃ chains : List (List Member),
      (∀ chain, chain ∈ chains ↔ d.IsChain entity chain ∧ chain.length ≤ d.maxDepth) ∧
      chains.Nodup ∧ chains.Pairwise (List.Lex d.DeclaredBefore) ∧
      List.Forall₂ d.Describes (d.flatten entity) chains := by
  have hsorted := pairwise_way_columnsFrom (d := d) entity d.maxDepth [] entity
  refine ⟨hd.entries_eq entity, (d.columns entity).map Column.way, ?_, ?_,
    List.pairwise_map.mpr hsorted, ?_⟩
  · intro chain
    simpa [columns] using exists_way_iff (d := d) entity d.maxDepth [] entity chain
  · refine (List.pairwise_map.mpr hsorted).imp fun hlex heq => ?_
    subst heq
    exact List.lex_irrefl hd.not_declaredBefore_self _ hlex
  · rw [Document.flatten, List.forall₂_map_left_iff, List.forall₂_map_right_iff, List.forall₂_same]
    exact fun c hc => hd.describes hc

/-- Recipes are made of foods and of other recipes, and a meal in another schema follows one. -/
def pantry : Document where
  schemas := [
    ⟨⟨1⟩, "kitchen", [
      ⟨⟨1⟩, "food", [{ id := ⟨1⟩, kind := .serial, primary := true, name := "id" }]⟩,
      ⟨⟨2⟩, "recipe", [
        { id := ⟨2⟩, kind := .reference, primary := true, name := "food", target := some ⟨1⟩ },
        { id := ⟨3⟩, kind := .reference, primary := true, name := "recipe", localName := some "base"
          target := some ⟨2⟩ }]⟩]⟩,
    ⟨⟨2⟩, "inn", [
      ⟨⟨3⟩, "meal", [
        { id := ⟨4⟩, kind := .reference, name := "kitchen.recipe", localName := some "dish"
          target := some ⟨2⟩ },
        { id := ⟨5⟩, kind := .int, name := "guests" }]⟩]⟩]
  schemaCount := 2
  entityCount := 3
  attrCount := 5

/-- A recipe refers to itself, so the chains of a meal go on up to the depth. -/
theorem flatten_chains_pantry :
    pantry.HandlesSound ∧
      (pantry.flatten ⟨3⟩).map (fun f => (f.column.name, f.changesSchema)) =
        [("dish_food_id", true), ("dish_base_food_id", true), ("dish_base_base_food_id", true),
          ("guests", false)] ∧
      (pantry.entries ⟨3⟩).map (fun e => (e.source, e.terminal, e.via?, e.isDirect)) =
        [(⟨4⟩, ⟨1⟩, some ⟨2⟩, false), (⟨4⟩, ⟨1⟩, some ⟨2⟩, false), (⟨4⟩, ⟨1⟩, some ⟨2⟩, false),
          (⟨5⟩, ⟨5⟩, none, true)] ∧
      ∃ chains : List (List Member),
        (∀ chain, chain ∈ chains ↔ pantry.IsChain ⟨3⟩ chain ∧ chain.length ≤ 5) ∧
        chains.map List.length = [3, 4, 5, 1] := by
  have hd : pantry.HandlesSound := by
    constructor <;> intro sort <;> cases sort <;> decide +kernel
  obtain ⟨hentries, chains, hmem, _, _, hdescribes⟩ := hd.flatten_chains ⟨3⟩
  have hlengths : (pantry.flatten ⟨3⟩).map (fun f => f.column.segments.length) =
      chains.map List.length := by
    rw [← List.forall₂_eq_eq_eq, List.forall₂_map_left_iff, List.forall₂_map_right_iff]
    refine hdescribes.imp fun f chain hdescribe => ?_
    rw [hdescribe.segments, List.length_map]
  exact ⟨hd, by decide +kernel, hentries ▸ by decide +kernel, chains, hmem,
    hlengths.symm.trans (by decide +kernel)⟩

end Blueprint.Document
