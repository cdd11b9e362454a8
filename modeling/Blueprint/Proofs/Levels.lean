import Blueprint.Output.Postgres
import Blueprint.Proofs.HandleMaps
import Mathlib.Data.List.Chain
import Mathlib.Data.List.Perm.Subperm
import Mathlib.Data.List.Sort
import Mathlib.Logic.Relation

/-! # Levels

The loop over the levels gives an entity one above the largest level among the entities it
depends on, and ends when a pass gives none. Whatever the order of its visits, it then has
given a level to exactly those from which no circle can be reached. Sorting by level and
position puts them level by level, and the entities without a level last.
-/

namespace Blueprint.Output.Postgres

section Levels

variable (deps : EntityId → List EntityId)

/-! ### Rounds -/

/-- Whether an entity is placed after so many rounds, each of which places what depends on
nothing but the entities placed before. -/
def placedWithin : (rounds : Nat) → EntityId → Bool
  | 0, _ => false
  | rounds + 1, e => (deps e).all (placedWithin rounds)

/-- Whether an entity is placed in the round that follows so many others. -/
def HasLevel (e : EntityId) (n : Nat) : Prop :=
  placedWithin deps (n + 1) e ∧ placedWithin deps n e = false

variable {deps} {e v : EntityId} {rounds n : Nat}

theorem placedWithin_succ_iff :
    placedWithin deps (rounds + 1) e ↔ ∀ v ∈ deps e, placedWithin deps rounds v := by
  simp [placedWithin]

theorem placedWithin_succ (h : placedWithin deps rounds e) : placedWithin deps (rounds + 1) e := by
  induction rounds generalizing e with
  | zero => cases h
  | succ rounds ih =>
      rw [placedWithin_succ_iff] at h ⊢
      exact fun v hv => ih (h v hv)

theorem placedWithin_mono {more : Nat} (hle : rounds ≤ more) (h : placedWithin deps rounds e) :
    placedWithin deps more e := by
  induction more, hle using Nat.le_induction with
  | base => exact h
  | succ more _ ih => exact placedWithin_succ ih

theorem HasLevel.lt (h : HasLevel deps e n) (hplaced : placedWithin deps rounds e) :
    n < rounds := by
  by_contra hle
  have hearlier := placedWithin_mono (Nat.le_of_not_lt hle) hplaced
  rw [h.2] at hearlier
  cases hearlier

theorem HasLevel.unique {m : Nat} (h : HasLevel deps e n) (h' : HasLevel deps e m) : n = m := by
  have hle := h.lt h'.1
  have hge := h'.lt h.1
  omega

theorem exists_hasLevel (hplaced : placedWithin deps rounds e) : ∃ n, HasLevel deps e n := by
  induction rounds with
  | zero => cases hplaced
  | succ rounds ih =>
      by_cases hearlier : placedWithin deps rounds e
      · exact ih hearlier
      · exact ⟨rounds, hplaced, by simpa using hearlier⟩

/-- A level is one above the largest level that the entity depends on. -/
theorem HasLevel.step (h : HasLevel deps e n) :
    (∀ v ∈ deps e, ∃ m < n, HasLevel deps v m) ∧
      (0 < n → ∃ v ∈ deps e, HasLevel deps v (n - 1)) := by
  obtain ⟨hplaced, hnot⟩ := h
  rw [placedWithin_succ_iff] at hplaced
  constructor
  · intro v hv
    obtain ⟨m, hm⟩ := exists_hasLevel (hplaced v hv)
    exact ⟨m, hm.lt (hplaced v hv), hm⟩
  · intro hpos
    obtain ⟨n, rfl⟩ := Nat.exists_eq_succ_of_ne_zero hpos.ne'
    -- Something it depends on was not placed one round earlier.
    have hlate : ¬ ∀ v ∈ deps e, placedWithin deps n v := by
      rw [← placedWithin_succ_iff, hnot]
      simp
    push Not at hlate
    obtain ⟨v, hv, hlate⟩ := hlate
    exact ⟨v, hv, hplaced v hv, by simpa using hlate⟩

/-- An entity has a level as soon as all that it depends on have lower ones. -/
theorem HasLevel.of_step (hbelow : ∀ v ∈ deps e, ∃ m < n, HasLevel deps v m)
    (hnext : 0 < n → ∃ v ∈ deps e, HasLevel deps v (n - 1)) : HasLevel deps e n := by
  constructor
  · rw [placedWithin_succ_iff]
    intro v hv
    obtain ⟨m, hlt, hm⟩ := hbelow v hv
    exact placedWithin_mono hlt hm.1
  · cases n with
    | zero => rfl
    | succ n =>
        obtain ⟨v, hv, hlevel⟩ := hnext (Nat.succ_pos n)
        by_contra hplaced
        rw [Bool.not_eq_false, placedWithin_succ_iff] at hplaced
        have hearlier := hplaced v hv
        rw [show placedWithin deps n v = false from hlevel.2] at hearlier
        cases hearlier

/-! ### Circles -/

/-- Whether a circle can be reached from an entity. -/
def ReachesCircle (deps : EntityId → List EntityId) (e : EntityId) : Prop :=
  ∃ v, Relation.ReflTransGen (fun a b => b ∈ deps a) e v ∧
    Relation.TransGen (fun a b => b ∈ deps a) v v

/-- What an entity depends on was placed in an earlier round. -/
theorem placedWithin_of_transGen (h : Relation.TransGen (fun a b => b ∈ deps a) e v)
    (hplaced : placedWithin deps rounds e) : ∃ earlier < rounds, placedWithin deps earlier v := by
  induction h with
  | single hdep =>
      cases rounds with
      | zero => cases hplaced
      | succ rounds =>
          exact ⟨rounds, Nat.lt_succ_self rounds, placedWithin_succ_iff.mp hplaced _ hdep⟩
  | tail _ hdep ih =>
      obtain ⟨earlier, hearlier, hplaced⟩ := ih
      cases earlier with
      | zero => cases hplaced
      | succ earlier =>
          exact ⟨earlier, by omega, placedWithin_succ_iff.mp hplaced _ hdep⟩

/-- No round places an entity on a circle, since an earlier one would have had to. -/
theorem placedWithin_eq_false_of_circle (h : Relation.TransGen (fun a b => b ∈ deps a) e e) :
    placedWithin deps rounds e = false := by
  induction rounds using Nat.strong_induction_on with
  | h rounds ih =>
      cases hplaced : placedWithin deps rounds e with
      | false => rfl
      | true =>
          obtain ⟨earlier, hearlier, hplaced⟩ := placedWithin_of_transGen h hplaced
          rw [ih earlier hearlier] at hplaced
          cases hplaced

theorem not_reachesCircle_of_placedWithin (hplaced : placedWithin deps rounds e) :
    ¬ ReachesCircle deps e := by
  rintro ⟨v, hreach, hcircle⟩
  rcases Relation.reflTransGen_iff_eq_or_transGen.mp hreach with rfl | hreach
  · rw [placedWithin_eq_false_of_circle hcircle] at hplaced
    cases hplaced
  · obtain ⟨earlier, _, hplaced⟩ := placedWithin_of_transGen hreach hplaced
    rw [placedWithin_eq_false_of_circle hcircle] at hplaced
    cases hplaced

/-- From an entity that is not placed a walk of any length starts. -/
theorem exists_walk_of_not_placedWithin (hnot : placedWithin deps rounds e = false) :
    ∃ walk, walk.length = rounds ∧ (e :: walk).IsChain fun a b => b ∈ deps a := by
  induction rounds generalizing e with
  | zero => exact ⟨[], rfl, List.isChain_singleton e⟩
  | succ rounds ih =>
      have hlate : ¬ ∀ v ∈ deps e, placedWithin deps rounds v := by
        rw [← placedWithin_succ_iff, hnot]
        simp
      push Not at hlate
      obtain ⟨v, hv, hlate⟩ := hlate
      obtain ⟨walk, hlength, hchain⟩ := ih (by simpa using hlate)
      exact ⟨v :: walk, by simp [hlength], List.isChain_cons_cons.mpr ⟨hv, hchain⟩⟩

variable {ids : List EntityId}

theorem mem_of_isChain (hclosed : ∀ e ∈ ids, ∀ v ∈ deps e, v ∈ ids) {walk : List EntityId}
    (hchain : (e :: walk).IsChain fun a b => b ∈ deps a) (he : e ∈ ids) :
    ∀ v ∈ e :: walk, v ∈ ids := by
  induction walk generalizing e with
  | nil => simpa using he
  | cons v walk ih =>
      obtain ⟨hdep, hchain⟩ := List.isChain_cons_cons.mp hchain
      intro w hw
      rcases List.mem_cons.mp hw with rfl | hw
      · exact he
      · exact ih hchain (hclosed e he v hdep) w hw

/-- As many rounds as there are entities place everything that reaches no circle: a longer walk
comes to some entity twice. -/
theorem placedWithin_iff_not_reachesCircle (hclosed : ∀ e ∈ ids, ∀ v ∈ deps e, v ∈ ids)
    (he : e ∈ ids) : placedWithin deps ids.length e ↔ ¬ ReachesCircle deps e := by
  refine ⟨not_reachesCircle_of_placedWithin, fun hacyclic => ?_⟩
  by_contra hnot
  obtain ⟨walk, hlength, hchain⟩ := exists_walk_of_not_placedWithin (Bool.not_eq_true _ ▸ hnot)
  have hreach : (e :: walk).Pairwise (Relation.TransGen fun a b => b ∈ deps a) :=
    List.isChain_iff_pairwise.mp (hchain.imp fun _ _ => Relation.TransGen.single)
  have hnodup : (e :: walk).Nodup := by
    apply List.Pairwise.imp_of_mem _ hreach
    rintro a b ha _ hab rfl
    refine hacyclic ⟨a, ?_, hab⟩
    rcases List.mem_cons.mp ha with rfl | ha
    · exact .refl
    · exact ((List.pairwise_cons.mp hreach).1 a ha).to_reflTransGen
  have hle := (List.subperm_of_subset hnodup (mem_of_isChain hclosed hchain he)).length_le
  rw [List.length_cons, hlength] at hle
  omega

/-! ### The loop -/

theorem lt_levelAbove {levels : List Nat} {m : Nat} (hm : m ∈ levels) : m < levelAbove levels := by
  unfold levelAbove
  cases hmax : levels.max? with
  | none =>
      rw [List.max?_eq_none_iff] at hmax
      rw [hmax] at hm
      cases hm
  | some top => exact Nat.lt_succ_of_le ((List.max?_eq_some_iff.mp hmax).2 m hm)

theorem pred_levelAbove_mem {levels : List Nat} (hpos : 0 < levelAbove levels) :
    levelAbove levels - 1 ∈ levels := by
  unfold levelAbove at hpos ⊢
  cases hmax : levels.max? with
  | none =>
      rw [hmax] at hpos
      cases hpos
  | some top => exact (List.max?_eq_some_iff.mp hmax).1

variable {parents : HandleMap .entity (List EntityId)} {levels : Levels} {state : Levels × Bool}

/-- Whether a map lists what entities depend on. -/
def Lists (deps : EntityId → List EntityId) (parents : HandleMap .entity (List EntityId)) : Prop :=
  ∀ entry ∈ parents, ∀ v, v ∈ entry.2 ↔ v ∈ deps entry.1

/-- Whether all levels that were given so far are right. -/
def Levelled (deps : EntityId → List EntityId) (levels : Levels) : Prop :=
  ∀ e n, levels.lookup e = some n → HasLevel deps e n

/-- A visit gives the right level or none. -/
theorem Levelled.visit (hlevels : Levelled deps state.1) {entry : EntityId × List EntityId}
    (hentry : ∀ v, v ∈ entry.2 ↔ v ∈ deps entry.1) : Levelled deps (visit state entry).1 := by
  unfold Postgres.visit
  split
  · exact hlevels
  · dsimp only
    split
    next hready =>
      rw [List.filterMap_length_eq_length] at hready
      intro e n hlookup
      rw [HandleMap.lookup_insert] at hlookup
      split at hlookup
      next heq =>
        obtain rfl := Option.some.inj hlookup
        rw [heq]
        apply HasLevel.of_step
        · intro v hv
          obtain ⟨m, hm⟩ := Option.isSome_iff_exists.mp (hready v ((hentry v).mpr hv))
          refine ⟨m, lt_levelAbove ?_, hlevels v m hm⟩
          exact List.mem_filterMap.mpr ⟨v, (hentry v).mpr hv, hm⟩
        · intro hpos
          obtain ⟨v, hv, hm⟩ := List.mem_filterMap.mp (pred_levelAbove_mem hpos)
          exact ⟨v, (hentry v).mp hv, hlevels v _ hm⟩
      next => exact hlevels e n hlookup
    next => exact hlevels

theorem Levelled.foldl_visit (hlevels : Levelled deps state.1) (hparents : Lists deps parents) :
    Levelled deps (parents.foldl Postgres.visit state).1 := by
  induction parents generalizing state with
  | nil => exact hlevels
  | cons entry parents ih =>
      obtain ⟨hentry, hparents⟩ := List.forall_mem_cons.mp hparents
      exact ih (hlevels.visit hentry) hparents

/-- The flag stays set. -/
theorem changed_foldl_visit (hchanged : state.2) : (parents.foldl visit state).2 := by
  induction parents generalizing state with
  | nil => exact hchanged
  | cons entry parents ih =>
      apply ih
      unfold visit
      split
      · exact hchanged
      · dsimp only
        split
        · rfl
        · exact hchanged

/-- A pass that gives no level leaves the levels alone, and every entity without one depends
on another without one. -/
theorem stuck_of_pass (hsame : (parents.foldl visit state).2 = false) :
    (parents.foldl visit state).1 = state.1 ∧
      ∀ entry ∈ parents, state.1.lookup entry.1 = none → ∃ v ∈ entry.2, state.1.lookup v = none := by
  induction parents generalizing state with
  | nil => exact ⟨rfl, fun _ hmem => absurd hmem List.not_mem_nil⟩
  | cons entry parents ih =>
      rw [List.foldl_cons] at hsame ⊢
      have hvisit : visit state entry = state ∧
          (state.1.lookup entry.1 = none → ∃ v ∈ entry.2, state.1.lookup v = none) := by
        by_cases hchanged : (visit state entry).2
        · rw [changed_foldl_visit hchanged] at hsame
          cases hsame
        unfold visit at hchanged ⊢
        split
        next hgiven =>
          refine ⟨rfl, fun hnone => ?_⟩
          rw [hnone] at hgiven
          cases hgiven
        next hnone =>
          rw [if_neg hnone] at hchanged
          dsimp only at hchanged ⊢
          split
          next hready =>
            rw [if_pos hready] at hchanged
            exact absurd rfl hchanged
          next hwaits =>
            refine ⟨rfl, fun _ => ?_⟩
            rw [List.filterMap_length_eq_length] at hwaits
            push Not at hwaits
            obtain ⟨v, hv, hnone⟩ := hwaits
            exact ⟨v, hv, Option.not_isSome_iff_eq_none.mp hnone⟩
      rw [hvisit.1] at hsame ⊢
      obtain ⟨hlevels, hstuck⟩ := ih hsame
      exact ⟨hlevels, List.forall_mem_cons.mpr ⟨hvisit.2, hstuck⟩⟩

/-- The loop ends with right levels, and every entity without one depends on another. -/
theorem levelsFrom_spec (hparents : Lists deps parents) (hlevels : Levelled deps levels) :
    Levelled deps (levelsFrom parents levels) ∧
      ∀ entry ∈ parents, (levelsFrom parents levels).lookup entry.1 = none →
        ∃ v ∈ entry.2, (levelsFrom parents levels).lookup v = none := by
  fun_induction levelsFrom parents levels with
  | case1 levels hchanged ih => exact ih (hlevels.foldl_visit hparents)
  | case2 levels hsame =>
      obtain ⟨heq, hstuck⟩ := stuck_of_pass (Bool.not_eq_true _ ▸ hsame)
      have hpass : (pass parents levels).1 = levels := heq
      rw [hpass]
      exact ⟨hlevels, hstuck⟩

/-- The level of an entity is the number of rounds before the one that places it. -/
theorem lookup_levelsOf (hclosed : ∀ e ∈ ids, ∀ v ∈ deps e, v ∈ ids) (he : e ∈ ids) :
    (levelsOf (ids.map fun e => (e, deps e))).lookup e = some n ↔ HasLevel deps e n := by
  unfold levelsOf
  generalize hparents : HandleMap.ofList ((ids.map fun e => (e, deps e)).map
    fun entry => (entry.1, HandleMap.handleSet entry.2)) = parents
  have hlists : Lists deps parents := by
    intro entry hentry v
    rw [← hparents] at hentry
    have hmem := HandleMap.mem_of_mem_ofList hentry
    simp only [List.map_map, List.mem_map, Function.comp_apply] at hmem
    obtain ⟨e, _, rfl⟩ := hmem
    exact HandleMap.mem_handleSet
  have hnone : Levelled deps [] := fun _ _ h => by cases h
  obtain ⟨hlevelled, hstuck⟩ := levelsFrom_spec hlists hnone
  generalize levelsFrom parents [] = levels at hlevelled hstuck ⊢
  -- An entity without a level depends on another one, and so on for every number of rounds.
  have hunplaced : ∀ rounds, ∀ e ∈ ids, levels.lookup e = none →
      placedWithin deps rounds e = false := by
    intro rounds
    induction rounds with
    | zero => exact fun _ _ _ => rfl
    | succ rounds ih =>
        intro e he hnone
        have hkey : e ∈ parents.map Prod.fst := by
          rw [← hparents, HandleMap.mem_keys_ofList]
          simpa [List.map_map, Function.comp_def] using he
        obtain ⟨entry, hentry, rfl⟩ := List.mem_map.mp hkey
        obtain ⟨v, hv, hnone⟩ := hstuck entry hentry hnone
        have hdep := (hlists entry hentry v).mp hv
        by_contra hplaced
        rw [Bool.not_eq_false, placedWithin_succ_iff] at hplaced
        have hearlier := hplaced v hdep
        rw [ih v (hclosed entry.1 he v hdep) hnone] at hearlier
        cases hearlier
  refine ⟨hlevelled e n, fun hlevel => ?_⟩
  cases hlookup : levels.lookup e with
  | none =>
      have hplaced := hlevel.1
      rw [hunplaced (n + 1) e he hlookup] at hplaced
      cases hplaced
  | some m => rw [(hlevelled e m hlookup).unique hlevel]

end Levels

/-! ### The order by levels -/

theorem sortBy_eq_insertionSort {α : Type} (le : α → α → Bool) (l : List α) :
    sortBy le l = l.insertionSort fun a b => le a b := by
  have hinsert : ∀ (x : α) (l : List α),
      insertBy le x l = l.orderedInsert (fun a b => le a b) x := by
    intro x l
    induction l with
    | nil => rfl
    | cons y l ih => simp only [insertBy, List.orderedInsert_cons, ih]
  induction l with
  | nil => rfl
  | cons x l ih => rw [sortBy, List.insertionSort_cons, ih, hinsert]

/-- A list is made of its parts, one for each key. -/
theorem flatMap_range_filter_perm {α : Type} (key : α → Nat) {bound : Nat} {l : List α}
    (hbound : ∀ x ∈ l, key x < bound) :
    ((List.range bound).flatMap fun n => l.filter fun x => key x = n).Perm l := by
  induction bound generalizing l with
  | zero =>
      rw [List.eq_nil_iff_forall_not_mem.mpr fun x hx => Nat.not_lt_zero _ (hbound x hx)]
      exact .refl _
  | succ bound ih =>
      have hlower : ((List.range bound).flatMap fun n => l.filter fun x => key x = n) =
          (List.range bound).flatMap fun n =>
            (l.filter fun x => !decide (key x = bound)).filter fun x => key x = n := by
        apply List.flatMap_congr
        intro n hn
        rw [List.filter_filter]
        apply List.filter_congr
        intro x _
        have hlt := List.mem_range.mp hn
        by_cases hkey : key x = n
        · simp [hkey, hlt.ne]
        · simp [hkey]
      have hperm : ((List.range bound).flatMap fun n =>
          (l.filter fun x => !decide (key x = bound)).filter fun x => key x = n).Perm
            (l.filter fun x => !decide (key x = bound)) := by
        apply ih
        intro x hx
        obtain ⟨hx, hne⟩ := List.mem_filter.mp hx
        have hlt := hbound x hx
        have hne : key x ≠ bound := by simpa using hne
        omega
      rw [List.range_succ, List.flatMap_append, List.flatMap_singleton, hlower]
      exact ((hperm.append_right _).trans List.perm_append_comm).trans
        (List.filter_append_perm _ l)

/-- The ranks of the listed entities: level, position and entity. -/
def ranked (levels : Levels) (ids : List EntityId) : List (Nat × Nat × EntityId) :=
  ids.zipIdx.map fun (id, position) =>
    ((levels.lookup id).getD (levelAbove (levels.map Prod.snd)), position, id)

variable {levels : Levels} {ids : List EntityId} {e : EntityId} {n : Nat}

theorem ranksFirst_iff {a b : Nat × Nat × EntityId} :
    ranksFirst a b ↔ a.1 < b.1 ∨ a.1 = b.1 ∧
      (a.2.1 < b.2.1 ∨ a.2.1 = b.2.1 ∧ a.2.2.number ≤ b.2.2.number) := by
  simp [ranksFirst]

theorem ranksFirst_antisymm {a b : Nat × Nat × EntityId} (hab : ranksFirst a b)
    (hba : ranksFirst b a) : a = b := by
  rw [ranksFirst_iff] at hab hba
  have hnumber : a.2.2.number = b.2.2.number := by omega
  refine Prod.ext (by omega) (Prod.ext (by omega) ?_)
  exact congrArg Handle.mk hnumber

theorem pairwise_sortBy_ranksFirst (l : List (Nat × Nat × EntityId)) :
    (sortBy ranksFirst l).Pairwise fun a b => ranksFirst a b := by
  have htotal : Std.Total fun a b : Nat × Nat × EntityId => (ranksFirst a b : Prop) :=
    ⟨fun a b => by rw [ranksFirst_iff, ranksFirst_iff]; omega⟩
  have htrans : IsTrans (Nat × Nat × EntityId) fun a b => ranksFirst a b :=
    ⟨fun a b c => by rw [ranksFirst_iff, ranksFirst_iff, ranksFirst_iff]; omega⟩
  rw [sortBy_eq_insertionSort]
  exact List.pairwise_insertionSort _ l

theorem sortBy_perm (l : List (Nat × Nat × EntityId)) : (sortBy ranksFirst l).Perm l := by
  rw [sortBy_eq_insertionSort]
  exact List.perm_insertionSort _ l

theorem map_id_ranked (levels : Levels) (ids : List EntityId) :
    (ranked levels ids).map (fun rank => rank.2.2) = ids := by
  simp only [ranked, List.map_map, Function.comp_def, List.zipIdx_map_fst]

theorem pairwise_position_ranked (levels : Levels) (ids : List EntityId) :
    (ranked levels ids).Pairwise fun a b => a.2.1 < b.2.1 := by
  have hpositions : ((ranked levels ids).map fun rank => rank.2.1).Pairwise (· < ·) := by
    simp only [ranked, List.map_map, Function.comp_def, List.zipIdx_map_snd]
    exact List.pairwise_lt_range'
  exact List.pairwise_map.mp hpositions

/-- Ranks in order are those of the lowest level, then those of the next, and so on. -/
theorem sortBy_ranked {bound : Nat} (hbound : ∀ rank ∈ ranked levels ids, rank.1 < bound) :
    sortBy ranksFirst (ranked levels ids) =
      (List.range bound).flatMap fun n => (ranked levels ids).filter fun rank => rank.1 = n := by
  refine List.Perm.eq_of_pairwise (fun a b _ _ => ranksFirst_antisymm)
    (pairwise_sortBy_ranksFirst _) ?_
    ((sortBy_perm _).trans (flatMap_range_filter_perm _ hbound).symm)
  rw [List.pairwise_flatMap]
  constructor
  · -- Ranks of one level keep the order of their positions.
    intro n _
    refine List.Pairwise.imp_of_mem ?_ ((pairwise_position_ranked levels ids).filter _)
    intro a b ha hb hlt
    have ha : a.1 = n := by simpa using (List.mem_filter.mp ha).2
    have hb : b.1 = n := by simpa using (List.mem_filter.mp hb).2
    exact ranksFirst_iff.mpr (Or.inr ⟨ha.trans hb.symm, Or.inl hlt⟩)
  · refine List.Pairwise.imp ?_ List.pairwise_lt_range
    intro m n hlt a ha b hb
    have ha : a.1 = m := by simpa using (List.mem_filter.mp ha).2
    have hb : b.1 = n := by simpa using (List.mem_filter.mp hb).2
    exact ranksFirst_iff.mpr (Or.inl (by omega))

theorem orderByLevel_perm (levels : Levels) (ids : List EntityId) :
    (orderByLevel levels ids).Perm ids := by
  have hperm := (sortBy_perm (ranked levels ids)).map fun rank => rank.2.2
  rw [map_id_ranked] at hperm
  exact hperm

theorem flatMap_range_of_nil {α : Type} {f : Nat → List α} {a b : Nat} (hab : a ≤ b)
    (hnil : ∀ n, a ≤ n → f n = []) : (List.range b).flatMap f = (List.range a).flatMap f := by
  obtain ⟨more, rfl⟩ := Nat.exists_eq_add_of_le hab
  rw [List.range_add, List.flatMap_append, List.flatMap_map]
  have hmore : ((List.range more).flatMap fun n => f (a + n)) = [] :=
    List.flatMap_eq_nil_iff.mpr fun n _ => hnil _ (Nat.le_add_right a n)
  rw [hmore, List.append_nil]

/-- The order by levels: level after level in the given order, and then the rest. -/
theorem orderByLevel_eq {bound : Nat}
    (hbound : ∀ e ∈ ids, ∀ n, levels.lookup e = some n → n < bound) :
    orderByLevel levels ids =
      (List.range bound).flatMap (fun n => ids.filter fun e => levels.lookup e = some n) ++
        ids.filter fun e => levels.lookup e = none := by
  generalize htop : levelAbove (levels.map Prod.snd) = top
  have hlow : ∀ e n, levels.lookup e = some n → n < top := by
    intro e n hlookup
    obtain ⟨before, after, hsplit, _⟩ := List.lookup_eq_some_iff.mp hlookup
    rw [← htop, hsplit]
    exact lt_levelAbove (by simp)
  have hranks : ∀ rank ∈ ranked levels ids, rank.1 < top + 1 := by
    intro rank hrank
    obtain ⟨⟨e, position⟩, _, rfl⟩ := List.mem_map.mp hrank
    rw [htop]
    change (levels.lookup e).getD top < top + 1
    cases hlookup : levels.lookup e with
    | none => exact Nat.lt_succ_self top
    | some n => exact Nat.lt_succ_of_lt (hlow e n hlookup)
  have hlevel : ∀ n, ((ranked levels ids).filter fun rank => rank.1 = n).map (fun rank => rank.2.2) =
      ids.filter fun e => (levels.lookup e).getD top = n := by
    intro n
    rw [ranked, htop, List.filter_map, List.map_map]
    conv_rhs => rw [← List.zipIdx_map_fst 0 ids, List.filter_map]
    rfl
  have horder : orderByLevel levels ids = (List.range (top + 1)).flatMap
      fun n => ids.filter fun e => (levels.lookup e).getD top = n := by
    calc orderByLevel levels ids
        = (sortBy ranksFirst (ranked levels ids)).map (fun rank => rank.2.2) := rfl
      _ = _ := by rw [sortBy_ranked hranks, List.map_flatMap]; simp only [hlevel]
  have hgiven : ∀ n ∈ List.range top, (ids.filter fun e => (levels.lookup e).getD top = n) =
      ids.filter fun e => levels.lookup e = some n := by
    intro n hn
    apply List.filter_congr
    intro e _
    have hlt := List.mem_range.mp hn
    cases hlookup : levels.lookup e with
    | none => simp [hlt.ne']
    | some m => simp
  have hrest : (ids.filter fun e => (levels.lookup e).getD top = top) =
      ids.filter fun e => levels.lookup e = none := by
    apply List.filter_congr
    intro e _
    cases hlookup : levels.lookup e with
    | none => simp
    | some m => simp [(hlow e m hlookup).ne]
  -- No level reaches the top, and none of a listed entity reaches the bound.
  have hnil : ∀ n, top ≤ n ∨ bound ≤ n →
      (ids.filter fun e => levels.lookup e = some n) = [] := by
    intro n hn
    rw [List.filter_eq_nil_iff]
    intro e he heq
    have hlookup : levels.lookup e = some n := by simpa using heq
    have hlt := hlow e n hlookup
    have hlt' := hbound e he n hlookup
    omega
  rw [horder, List.range_succ, List.flatMap_append, List.flatMap_singleton, hrest,
    List.flatMap_congr hgiven,
    ← flatMap_range_of_nil (Nat.le_max_left top bound) fun n hn => hnil n (Or.inl hn),
    flatMap_range_of_nil (Nat.le_max_right top bound) fun n hn => hnil n (Or.inr hn)]

end Blueprint.Output.Postgres
