import Blueprint.Proofs.ForeignKeys
import Blueprint.Proofs.Levels

/-! # The order of tables

An entity has a level if no circle can be reached from it over the entities it depends
on: one above the largest level among those, or the lowest without any. Tables are
created level by level, and the entities without a level come last. So a table that can
be created after all tables it refers to is.
-/

namespace Blueprint.Output.Postgres

open Document

variable {d : Document} {entity : EntityId} {n : Nat}

theorem mem_handles_of_mem_dependencies {v : EntityId} (hv : v ∈ dependencies d entity) :
    v ∈ d.handles .entity := by
  obtain ⟨c, hc, hvia⟩ := List.mem_filterMap.mp (List.mem_filter.mp hv).1
  obtain ⟨_, _, _, _, key, hkey, _⟩ := exists_of_via? hc hvia
  exact mem_handles_of_mem_columns hkey

theorem dependencies_closed (d : Document) :
    ∀ e ∈ d.entities.map Entity.id, ∀ v ∈ dependencies d e, v ∈ d.entities.map Entity.id :=
  fun _ _ _ hv => mem_handles_of_mem_dependencies hv

theorem pendingTables_eq (d : Document) :
    pendingTables d = (d.entities.map Entity.id).map fun e => (e, dependencies d e) := by
  rw [pendingTables, List.map_map]
  rfl

theorem map_fst_pendingTables (d : Document) :
    (pendingTables d).map Prod.fst = d.entities.map Entity.id := by
  rw [pendingTables, List.map_map]
  rfl

theorem tableOrder_perm (d : Document) : (tableOrder d).Perm (d.entities.map Entity.id) := by
  rw [tableOrder, orderTables, map_fst_pendingTables]
  exact orderByLevel_perm _ _

/-! ### Levels of a document -/

/-- The levels of the entities of a document. -/
def levels (d : Document) : Levels :=
  levelsOf (pendingTables d)

theorem lookup_levels (hentity : entity ∈ d.entities.map Entity.id) :
    (levels d).lookup entity = some n ↔ HasLevel (dependencies d) entity n := by
  rw [levels, pendingTables_eq]
  exact lookup_levelsOf (dependencies_closed d) hentity

theorem lookup_levels_isSome_iff (hentity : entity ∈ d.entities.map Entity.id) :
    ((levels d).lookup entity).isSome ↔ ¬ ReachesCircle (dependencies d) entity := by
  rw [Option.isSome_iff_exists, ← placedWithin_iff_not_reachesCircle (dependencies_closed d) hentity]
  constructor
  · rintro ⟨n, hn⟩
    have hplaced := ((lookup_levels hentity).mp hn).1
    rw [placedWithin_iff_not_reachesCircle (dependencies_closed d) hentity]
    exact not_reachesCircle_of_placedWithin hplaced
  · intro hplaced
    obtain ⟨n, hn⟩ := exists_hasLevel hplaced
    exact ⟨n, (lookup_levels hentity).mpr hn⟩

/-- A level is one above the largest level that the entity depends on. -/
theorem lookup_levels_step (hentity : entity ∈ d.entities.map Entity.id)
    (hn : (levels d).lookup entity = some n) :
    (∀ v ∈ dependencies d entity, ∃ m < n, (levels d).lookup v = some m) ∧
      (0 < n → ∃ v ∈ dependencies d entity, (levels d).lookup v = some (n - 1)) := by
  obtain ⟨hbelow, hnext⟩ := ((lookup_levels hentity).mp hn).step
  constructor
  · intro v hv
    obtain ⟨m, hlt, hm⟩ := hbelow v hv
    exact ⟨m, hlt, (lookup_levels (mem_handles_of_mem_dependencies hv)).mpr hm⟩
  · intro hpos
    obtain ⟨v, hv, hlevel⟩ := hnext hpos
    exact ⟨v, hv, (lookup_levels (mem_handles_of_mem_dependencies hv)).mpr hlevel⟩

theorem lookup_levels_lt (hentity : entity ∈ d.entities.map Entity.id)
    (hn : (levels d).lookup entity = some n) : n < d.entities.length := by
  have hacyclic := (lookup_levels_isSome_iff hentity).mp (by rw [hn]; rfl)
  have hplaced := (placedWithin_iff_not_reachesCircle (dependencies_closed d) hentity).mpr hacyclic
  rw [List.length_map] at hplaced
  exact ((lookup_levels hentity).mp hn).lt hplaced

theorem tableOrder_eq_levels (d : Document) :
    tableOrder d =
      (List.range d.entities.length).flatMap
          (fun n => (d.entities.map Entity.id).filter fun e => (levels d).lookup e = some n) ++
        (d.entities.map Entity.id).filter fun e => (levels d).lookup e = none := by
  rw [tableOrder, orderTables, map_fst_pendingTables]
  exact orderByLevel_eq fun e he n hn => lookup_levels_lt he hn

/-- Of two entities the one of the lower level comes first. -/
theorem sublist_tableOrder {v : EntityId} {m n : Nat} (hv : v ∈ d.entities.map Entity.id)
    (hentity : entity ∈ d.entities.map Entity.id) (hm : (levels d).lookup v = some m)
    (hn : (levels d).lookup entity = some n) (hlt : m < n) :
    [v, entity].Sublist (tableOrder d) := by
  have hlevels : [m, n].Sublist (List.range d.entities.length) := by
    obtain ⟨rest, hrest⟩ := Nat.exists_eq_add_of_lt (lookup_levels_lt hentity hn)
    rw [hrest, Nat.add_assoc, List.range_add]
    have hlow : [m].Sublist (List.range n) := List.singleton_sublist.mpr (List.mem_range.mpr hlt)
    exact hlow.append (List.singleton_sublist.mpr (List.mem_map.mpr ⟨0, by simp, rfl⟩))
  rw [tableOrder_eq_levels]
  refine List.Sublist.trans ?_ ((hlevels.flatMap _).trans (List.sublist_append_left _ _))
  simp only [List.flatMap_cons, List.flatMap_nil, List.append_nil]
  have hfirst : v ∈ (d.entities.map Entity.id).filter fun e => (levels d).lookup e = some m :=
    List.mem_filter.mpr ⟨hv, by simp [hm]⟩
  have hsecond : entity ∈
      (d.entities.map Entity.id).filter fun e => (levels d).lookup e = some n :=
    List.mem_filter.mpr ⟨hentity, by simp [hn]⟩
  exact (List.singleton_sublist.mpr hfirst).append (List.singleton_sublist.mpr hsecond)

/-! ### The file -/

/-- The tables stand in the file in their order. -/
theorem exists_fileLines_split {v : EntityId} (horder : [v, entity].Sublist (tableOrder d)) :
    ∃ first between last, fileLines d =
      first ++ tableLines d v ++ between ++ tableLines d entity ++ last := by
  obtain ⟨front, back, hsplit, hv, hback⟩ := List.cons_sublist_iff.mp horder
  obtain ⟨a, b, rfl⟩ := List.append_of_mem hv
  obtain ⟨c, e, rfl⟩ := List.append_of_mem (List.singleton_sublist.mp hback)
  refine ⟨["-- Code generated by schemagen. DO NOT EDIT."] ++ d.schemas.flatMap schemaLines ++
      (a.flatMap fun entity => "" :: tableLines d entity) ++ [""],
    ((b ++ c).flatMap fun entity => "" :: tableLines d entity) ++ [""],
    e.flatMap fun entity => "" :: tableLines d entity, ?_⟩
  rw [fileLines, hsplit]
  simp [List.flatMap_append, List.flatMap_cons]

/-- A foreign key refers to the entity itself or to one that it depends on. -/
theorem via_mem_dependencies (hd : d.HandlesSound) (hordered : d.Ordered) {key : ForeignKey}
    (hkey : key ∈ foreignKeys d entity) (hne : key.via ≠ entity) :
    key.via ∈ dependencies d entity := by
  rw [foreignKeys_eq_filterMap hd hordered] at hkey
  obtain ⟨r, _, hkey⟩ := List.mem_filterMap.mp hkey
  obtain ⟨c, hc, hvia⟩ := exists_via?_of_ofColumns? hkey
  have hc := (List.mem_filter.mp (List.mem_filter.mp hc).1).1
  rw [hd.validColumns_eq] at hc
  refine List.mem_filter.mpr ⟨List.mem_filterMap.mpr ⟨c, (List.mem_filter.mp hc).1, hvia⟩, ?_⟩
  simpa using hne

/-- The line of a foreign key in its table. -/
theorem exists_foreignKey_line {key : ForeignKey} (hkey : key ∈ foreignKeys d entity) :
    ∃ body, tableLines d entity =
        ("CREATE TABLE " ++ d.qualifiedName entity ++ " (") :: body ++ [");"] ∧
      ∃ line ∈ body, Item.IsLine (.definition ("FOREIGN KEY " ++ columnList key.columns ++
        " REFERENCES " ++ d.qualifiedName key.via ++ " " ++ columnList key.targets)) line := by
  obtain ⟨body, htable, hbody⟩ := exists_tableLines_eq d entity
  refine ⟨body, htable, ?_⟩
  obtain ⟨_, keys, rfl, _, hkeys⟩ := exists_append_of_forall₂ hbody
  obtain ⟨above, below, hsplit⟩ := List.append_of_mem hkey
  rw [hsplit, List.map_append, List.map_cons] at hkeys
  obtain ⟨_, _, rfl, _, hkeys⟩ := exists_append_of_forall₂ hkeys
  obtain ⟨line, _, hline, _, rfl⟩ := List.forall₂_cons_left_iff.mp hkeys
  exact ⟨line, by simp, hline⟩

/-- After any run the order of tables is a permutation of the entities. The loop over the levels
has given one to exactly those that reach no circle, one above the largest level that they depend
on. They come first, by level and then in document order, and the others follow in document order.
So where an entity that reaches no circle has a foreign key, the line that creates the table it
refers to comes before the line that creates its own. -/
theorem tableOrder_run (hd : d.IsOrigin) (es : List Edit) :
    let after := d.run es
    let ids := after.entities.map Entity.id
    let given := levelsOf (pendingTables after)
    (tableOrder after).Perm ids ∧
      (∀ e ∈ ids, (given.lookup e).isSome ↔ ¬ ReachesCircle (dependencies after) e) ∧
      (∀ e ∈ ids, ∀ n, given.lookup e = some n →
        (∀ v ∈ dependencies after e, ∃ m < n, given.lookup v = some m) ∧
          (0 < n → ∃ v ∈ dependencies after e, given.lookup v = some (n - 1))) ∧
      tableOrder after =
        (List.range ids.length).flatMap (fun n => ids.filter fun e => given.lookup e = some n) ++
          ids.filter (fun e => given.lookup e = none) ∧
      ∀ e ∈ ids, ¬ ReachesCircle (dependencies after) e →
        ∀ key ∈ foreignKeys after e, key.via ≠ e →
          ∃ first there between here last, fileLines after =
              first ++
                (("CREATE TABLE " ++ after.qualifiedName key.via ++ " (") :: there ++ [");"]) ++
                between ++
                (("CREATE TABLE " ++ after.qualifiedName e ++ " (") :: here ++ [");"]) ++ last ∧
            ∃ line ∈ here, Item.IsLine (.definition ("FOREIGN KEY " ++ columnList key.columns ++
              " REFERENCES " ++ after.qualifiedName key.via ++ " " ++ columnList key.targets))
                line := by
  intro after ids given
  have hhandles : after.HandlesSound := hd.handles_run es
  refine ⟨tableOrder_perm after, fun e he => lookup_levels_isSome_iff he,
    fun e he n hn => lookup_levels_step he hn, ?_, ?_⟩
  · rw [List.length_map]
    exact tableOrder_eq_levels after
  · intro e he hacyclic key hkey hne
    have hdep := via_mem_dependencies hhandles (hd.ordered_run es) hkey hne
    obtain ⟨n, hn⟩ := Option.isSome_iff_exists.mp ((lookup_levels_isSome_iff he).mpr hacyclic)
    obtain ⟨m, hlt, hm⟩ := (lookup_levels_step he hn).1 key.via hdep
    obtain ⟨first, between, last, hfile⟩ := exists_fileLines_split
      (sublist_tableOrder (mem_handles_of_mem_dependencies hdep) he hm hn hlt)
    obtain ⟨here, htable, hline⟩ := exists_foreignKey_line hkey
    exact ⟨first, itemLines (items after key.via), between, here, last, htable ▸ hfile, hline⟩

/-- Two entities that refer to each other, one that refers to them, one to itself, and two that
refer to that one. -/
def entangled : List Edit :=
  [.addSchema "s", .addEntity ⟨1⟩ "a", .addEntity ⟨1⟩ "b", .addEntity ⟨1⟩ "c", .addEntity ⟨1⟩ "d",
    .addEntity ⟨1⟩ "e", .addAttribute ⟨1⟩ "- id as ++", .addAttribute ⟨1⟩ "- @b",
    .addAttribute ⟨2⟩ "- id as ++", .addAttribute ⟨2⟩ "- @a", .addAttribute ⟨3⟩ "- @a",
    .addAttribute ⟨5⟩ "- id as ++", .addAttribute ⟨5⟩ "- @e as up",
    .addAttribute ⟨4⟩ "- id as ++", .addAttribute ⟨4⟩ "- @e"]

theorem tableOrder_entangled :
    let after := (empty 5).run entangled
    tableOrder after = [⟨5⟩, ⟨4⟩, ⟨1⟩, ⟨2⟩, ⟨3⟩] ∧
      ReachesCircle (dependencies after) ⟨3⟩ ∧ ¬ ReachesCircle (dependencies after) ⟨4⟩ ∧
      ∃ first there between here last, fileLines after =
          first ++ ("CREATE TABLE s.e (" :: there ++ [");"]) ++ between ++
            ("CREATE TABLE s.d (" :: here ++ [");"]) ++ last ∧
        ∃ line ∈ here,
          Item.IsLine (.definition "FOREIGN KEY (e_id) REFERENCES s.e (id)") line := by
  intro after
  have hall : tableOrder after = [⟨5⟩, ⟨4⟩, ⟨1⟩, ⟨2⟩, ⟨3⟩] ∧
      (levelsOf (pendingTables after)).lookup ⟨3⟩ = none ∧
      (levelsOf (pendingTables after)).lookup ⟨4⟩ = some 1 ∧
      foreignKeys after ⟨4⟩ = [⟨⟨5⟩, ["e_id"], ["id"]⟩] ∧
      after.qualifiedName ⟨5⟩ = "s.e" ∧ after.qualifiedName ⟨4⟩ = "s.d" := by
    decide +kernel
  obtain ⟨horder, hnone, hsome, hkeys, hthere, hhere⟩ := hall
  obtain ⟨hperm, hlevel, _, _, hfile⟩ := tableOrder_run (.empty 5) entangled
  have hmem : ∀ n ∈ [5, 4, 1, 2, 3], (⟨n⟩ : EntityId) ∈ after.entities.map Entity.id := by
    intro n hn
    rw [← hperm.mem_iff, horder]
    exact List.mem_map_of_mem (f := Handle.mk) hn
  have hfree := (hlevel ⟨4⟩ (hmem 4 (by decide))).mp (by rw [hsome]; rfl)
  refine ⟨horder, ?_, hfree, ?_⟩
  · by_contra hacyclic
    have hlevel := (hlevel ⟨3⟩ (hmem 3 (by decide))).mpr hacyclic
    rw [hnone] at hlevel
    cases hlevel
  · have hlines := hfile ⟨4⟩ (hmem 4 (by decide)) hfree ⟨⟨5⟩, ["e_id"], ["id"]⟩ (by rw [hkeys]; simp)
      (by decide)
    rw [hthere, hhere] at hlines
    exact hlines

end Blueprint.Output.Postgres
