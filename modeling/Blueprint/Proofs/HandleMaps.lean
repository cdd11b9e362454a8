import Blueprint.HandleMap
import Mathlib.Data.List.Induction
import Mathlib.Data.List.Nodup

/-! # Maps by handle

A map that was built up from nothing has each handle once, in increasing order. So it is
known by what is found in it, and going through it means going through any increasing list
of handles that has all of its own.
-/

namespace Blueprint

variable {sort : NodeSort}

/-- Whether handles stand in the order of their issue. -/
def Increasing (hs : List (Handle sort)) : Prop :=
  hs.Pairwise fun h k => h.number < k.number

namespace Increasing

variable {hs hs' : List (Handle sort)}

theorem nodup (hhs : Increasing hs) : hs.Nodup := by
  refine List.Pairwise.imp ?_ hhs
  rintro h k hlt rfl
  exact Nat.lt_irrefl _ hlt

theorem sublist (hhs : Increasing hs) (hsub : hs'.Sublist hs) : Increasing hs' :=
  List.Pairwise.sublist hsub hhs

/-- The handle that is issued next goes to the end. -/
theorem concat (hhs : Increasing hs) {count : Nat} (hle : ∀ h ∈ hs, h.number ≤ count) :
    Increasing (hs ++ [.fresh count]) := by
  refine List.pairwise_append.mpr ⟨hhs, List.pairwise_singleton _ _, ?_⟩
  intro h hmem k hk
  rw [List.mem_singleton.mp hk]
  exact Nat.lt_succ_of_le (hle h hmem)

end Increasing

namespace HandleMap

variable {α : Type} {values : HandleMap sort α} {h k : Handle sort}

/-- Whether a map has its handles in increasing order. -/
def Sorted (values : HandleMap sort α) : Prop :=
  Increasing (values.map Prod.fst)

theorem sorted_nil : Sorted ([] : HandleMap sort α) :=
  List.Pairwise.nil

theorem mem_keys_alter (f : Option α → α) :
    k ∈ (alter h f values).map Prod.fst ↔ k = h ∨ k ∈ values.map Prod.fst := by
  induction values with
  | nil => simp [alter]
  | cons entry rest ih =>
      unfold alter
      split
      · simp
      · split
        next heq => simp [heq]
        next => simp only [List.map_cons, List.mem_cons, ih, or_left_comm]

theorem Sorted.alter (hvalues : values.Sorted) (h : Handle sort) (f : Option α → α) :
    (alter h f values).Sorted := by
  induction values with
  | nil => exact List.pairwise_singleton _ _
  | cons entry rest ih =>
      obtain ⟨hfirst, hrest⟩ := List.pairwise_cons.mp hvalues
      obtain ⟨other, value⟩ := entry
      unfold HandleMap.alter
      split
      next hlt =>
        refine List.pairwise_cons.mpr ⟨?_, hvalues⟩
        intro k hk
        rcases List.mem_cons.mp hk with rfl | hk
        · exact hlt
        · exact Nat.lt_trans hlt (hfirst k hk)
      next hnot =>
        split
        next heq => exact heq ▸ hvalues
        next hne =>
          refine List.pairwise_cons.mpr ⟨?_, ih hrest⟩
          intro k hk
          rcases (mem_keys_alter f).mp hk with rfl | hk
          · -- The handle is neither smaller nor the same, so it is larger.
            refine Nat.lt_of_le_of_ne (Nat.le_of_not_lt hnot) fun heq => hne ?_
            exact congrArg Handle.mk heq.symm
          · exact hfirst k hk

theorem lookup_eq_none_of_lt (hlt : ∀ k ∈ values.map Prod.fst, h.number < k.number) :
    values.lookup h = none := by
  rw [List.lookup_eq_none_iff]
  intro other hother
  rw [bne_iff_ne]
  rintro rfl
  exact Nat.lt_irrefl _ (hlt _ (List.mem_map_of_mem hother))

/-- Under its handle there is what was put there. -/
theorem Sorted.lookup_alter (hvalues : values.Sorted) (h : Handle sort) (f : Option α → α) :
    (HandleMap.alter h f values).lookup h = some (f (values.lookup h)) := by
  induction values with
  | nil => simp [HandleMap.alter]
  | cons entry rest ih =>
      obtain ⟨hfirst, hrest⟩ := List.pairwise_cons.mp hvalues
      obtain ⟨other, value⟩ := entry
      unfold HandleMap.alter
      split
      next hlt =>
        have hnone : List.lookup h ((other, value) :: rest) = none := by
          apply lookup_eq_none_of_lt
          intro k hk
          rcases List.mem_cons.mp hk with rfl | hk
          · exact hlt
          · exact Nat.lt_trans hlt (hfirst k hk)
        rw [hnone]
        simp
      next =>
        split
        next heq =>
          subst heq
          simp
        next hne =>
          have hother : (h == other) = false := by simpa using hne
          simp only [List.lookup_cons, hother]
          exact ih hrest

/-- The values in the order of an increasing list that has all their handles. -/
theorem Sorted.map_snd_eq (hvalues : values.Sorted) {ids : List (Handle sort)}
    (hids : Increasing ids) (hsub : ∀ k ∈ values.map Prod.fst, k ∈ ids) :
    values.map Prod.snd = ids.filterMap fun id => values.lookup id := by
  induction ids generalizing values with
  | nil =>
      have hnil : values = [] := by
        cases values with
        | nil => rfl
        | cons entry rest => exact absurd (hsub entry.1 (by simp)) List.not_mem_nil
      rw [hnil]
      rfl
  | cons id ids ih =>
      obtain ⟨hlater, hrestids⟩ := List.pairwise_cons.mp hids
      cases values with
      | nil => simp
      | cons entry rest =>
          obtain ⟨hfirst, hrest⟩ := List.pairwise_cons.mp hvalues
          obtain ⟨h, value⟩ := entry
          by_cases heq : id = h
          · -- The first handle is found at once, and nothing else is found under it.
            subst heq
            have hsub : ∀ k ∈ rest.map Prod.fst, k ∈ ids := by
              intro k hk
              rcases List.mem_cons.mp (hsub k (List.mem_cons_of_mem _ hk)) with rfl | hmem
              · exact absurd (hfirst _ hk) (Nat.lt_irrefl _)
              · exact hmem
            have hothers : ∀ k ∈ ids, List.lookup k ((id, value) :: rest) = List.lookup k rest := by
              intro k hk
              have hne : (k == id) = false := by
                rw [beq_eq_false_iff_ne]
                rintro rfl
                exact Nat.lt_irrefl _ (hlater _ hk)
              simp only [List.lookup_cons, hne]
            rw [List.map_cons, ih hrest hrestids hsub, List.filterMap_cons,
              List.filterMap_congr hothers]
            simp
          · -- The first handle of the map comes later, so all of them do.
            have hentry : h ∈ ids :=
              (List.mem_cons.mp (hsub h (by simp))).resolve_left (Ne.symm heq)
            have hlt : ∀ k ∈ ((h, value) :: rest).map Prod.fst, id.number < k.number := by
              intro k hk
              rcases List.mem_cons.mp hk with rfl | hk
              · exact hlater _ hentry
              · exact Nat.lt_trans (hlater _ hentry) (hfirst k hk)
            have hsub : ∀ k ∈ ((h, value) :: rest).map Prod.fst, k ∈ ids := by
              intro k hk
              refine (List.mem_cons.mp (hsub k hk)).resolve_left ?_
              rintro rfl
              exact Nat.lt_irrefl _ (hlt k hk)
            rw [List.filterMap_cons, lookup_eq_none_of_lt hlt, ih hvalues hrestids hsub]

/-! ### Maps of lists -/

theorem mem_alter_of_mem {f : Option α → α} {entry : Handle sort × α}
    (hentry : entry ∈ alter h f values) : entry ∈ values ∨ ∃ old, entry = (h, f old) := by
  induction values with
  | nil => exact Or.inr ⟨none, by simpa [alter] using hentry⟩
  | cons first rest ih =>
      unfold alter at hentry
      split at hentry
      · rcases List.mem_cons.mp hentry with rfl | hold
        · exact Or.inr ⟨none, rfl⟩
        · exact Or.inl hold
      · split at hentry
        · rcases List.mem_cons.mp hentry with rfl | hold
          · exact Or.inr ⟨some _, rfl⟩
          · exact Or.inl (List.mem_cons_of_mem _ hold)
        · rcases List.mem_cons.mp hentry with rfl | hold
          · exact Or.inl List.mem_cons_self
          · exact (ih hold).imp_left (List.mem_cons_of_mem _)

theorem ofList_concat (entries : List (Handle sort × α)) (entry : Handle sort × α) :
    ofList (entries ++ [entry]) = insert entry.1 entry.2 (ofList entries) := by
  simp [ofList]

theorem mem_of_mem_ofList {entries : List (Handle sort × α)} {entry : Handle sort × α}
    (hentry : entry ∈ ofList entries) : entry ∈ entries := by
  induction entries using List.reverseRecOn with
  | nil => exact hentry
  | append_singleton entries last ih =>
      rw [ofList_concat] at hentry
      rcases mem_alter_of_mem hentry with hold | ⟨_, rfl⟩
      · exact List.mem_append_left _ (ih hold)
      · exact List.mem_append_right _ (List.mem_singleton_self _)

theorem mem_keys_ofList {entries : List (Handle sort × α)} :
    k ∈ (ofList entries).map Prod.fst ↔ k ∈ entries.map Prod.fst := by
  induction entries using List.reverseRecOn with
  | nil => exact Iff.rfl
  | append_singleton entries entry ih =>
      rw [ofList_concat, insert, mem_keys_alter, ih]
      simp [or_comm]

theorem mem_handleSet {hs : List (Handle sort)} : k ∈ handleSet hs ↔ k ∈ hs := by
  rw [handleSet, mem_keys_ofList]
  simp

end HandleMap

end Blueprint
