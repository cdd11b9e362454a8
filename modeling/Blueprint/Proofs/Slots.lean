import Blueprint.Arena.Basic
import Blueprint.Proofs.HandleMaps
import Blueprint.Proofs.Tree
import Mathlib.Data.List.Perm.Basic

/-! # Nodes in slots

Nodes with different handles can be laid out in slots, each in the slot of its handle.
What the operations on slots do is then a change of the list of nodes, and the order of
that list does not matter.
-/

namespace Blueprint

variable {sort : NodeSort}

theorem Handle.slot?_eq_some_iff {h : Handle sort} {k : Nat} :
    h.slot? = some k ↔ h = .fresh k := by
  unfold slot? fresh
  cases h with
  | mk number =>
      rw [Handle.mk.injEq]
      by_cases hzero : number = 0
      · simp [hzero]
      · simp only [hzero, if_false, Option.some.injEq]
        omega

theorem Handle.slot?_fresh (k : Nat) : (Handle.fresh k : Handle sort).slot? = some k :=
  Handle.slot?_eq_some_iff.mpr rfl

theorem Handle.fresh_inj {j k : Nat} :
    (Handle.fresh j : Handle sort) = .fresh k ↔ j = k := by
  simp [Handle.fresh]

namespace Slots

variable {α : Type} {key : α → Handle sort} {count : Nat} {nodes : List α}

/-- The nodes in the slots of their handles, of which `count` were issued. -/
def layOut (key : α → Handle sort) (count : Nat) (nodes : List α) : Slots α :=
  (List.range count).map fun k => nodes.find? (key · = .fresh k)

/-- Whether the nodes have different handles, all of them issued. -/
structure Fits (key : α → Handle sort) (count : Nat) (nodes : List α) : Prop where
  nodup : (nodes.map key).Nodup
  issued : ∀ n ∈ nodes, 0 < (key n).number ∧ (key n).number ≤ count

theorem Fits.exists_fresh (hfits : Fits key count nodes) {n : α} (hn : n ∈ nodes) :
    ∃ k < count, key n = .fresh k := by
  obtain ⟨hpos, hle⟩ := hfits.issued n hn
  refine ⟨(key n).number - 1, by omega, ?_⟩
  rw [Handle.fresh, Nat.sub_add_cancel hpos]

theorem getElem?_layOut (key : α → Handle sort) (count : Nat) (nodes : List α) (k : Nat) :
    (layOut key count nodes)[k]? =
      if k < count then some (nodes.find? (key · = .fresh k)) else none := by
  unfold layOut
  rw [List.getElem?_map]
  split
  next hlt => rw [List.getElem?_range hlt, Option.map_some]
  next hle => rw [List.getElem?_eq_none (by simpa using hle), Option.map_none]

@[simp] theorem length_layOut : (layOut key count nodes).length = count := by
  simp [layOut]

/-- A node stands in the slot of its handle. -/
theorem key_of_getElem?_layOut (key : α → Handle sort) {k : Nat} {n : α}
    (hn : (layOut key count nodes)[k]? = some (some n)) : key n = .fresh k := by
  rw [getElem?_layOut] at hn
  split at hn
  · simpa using List.find?_some (Option.some.inj hn)
  · cases hn

/-- Slots are those of some nodes if each of them holds the node of its handle. -/
theorem eq_layOut {slots : Slots α} (hlength : slots.length = count)
    (hslots : ∀ k < count, slots[k]? = some (nodes.find? (key · = .fresh k))) :
    slots = layOut key count nodes := by
  apply List.ext_getElem?
  intro k
  rw [getElem?_layOut]
  split
  next hlt => exact hslots k hlt
  next hle => rw [List.getElem?_eq_none (by omega)]

theorem layOut_congr {nodes' : List α}
    (h : ∀ k < count, nodes.find? (key · = .fresh k) = nodes'.find? (key · = .fresh k)) :
    layOut key count nodes = layOut key count nodes' :=
  List.map_congr_left fun k hk => h k (List.mem_range.mp hk)

/-- Where a node stands in the list makes no difference. -/
theorem find?_eq_of_perm {nodes' : List α} (hnodup : (nodes.map key).Nodup)
    (hperm : nodes.Perm nodes') (h : Handle sort) :
    nodes.find? (key · = h) = nodes'.find? (key · = h) := by
  have hnodup' : (nodes'.map key).Nodup := (hperm.map key).nodup_iff.mp hnodup
  cases hfound : nodes.find? (key · = h) with
  | none =>
      rw [eq_comm, List.find?_eq_none]
      intro n hn
      exact List.find?_eq_none.mp hfound n (hperm.mem_iff.mpr hn)
  | some n =>
      have hn := hperm.mem_iff.mp (List.mem_of_find?_eq_some hfound)
      obtain rfl : key n = h := by simpa using List.find?_some hfound
      exact (find?_eq_some_of_nodup hnodup' hn).symm

theorem layOut_perm {nodes' : List α} (hnodup : (nodes.map key).Nodup)
    (hperm : nodes.Perm nodes') : layOut key count nodes = layOut key count nodes' :=
  layOut_congr fun k _ => find?_eq_of_perm hnodup hperm (.fresh k)

/-! ### Operations -/

theorem find?_layOut (hfits : Fits key count nodes) (h : Handle sort) :
    (layOut key count nodes).find? h = nodes.find? (key · = h) := by
  unfold find?
  cases hslot : h.slot? with
  | none =>
      rw [Option.bind_none, eq_comm, List.find?_eq_none]
      intro n hn
      obtain ⟨k, _, hkey⟩ := hfits.exists_fresh hn
      rw [decide_eq_true_eq]
      rintro rfl
      rw [hkey, Handle.slot?_fresh] at hslot
      cases hslot
  | some k =>
      obtain rfl := Handle.slot?_eq_some_iff.mp hslot
      rw [Option.bind_some, getElem?_layOut]
      split
      next => rfl
      next hle =>
        rw [Option.join_none, eq_comm, List.find?_eq_none]
        intro n hn
        obtain ⟨j, hlt, hkey⟩ := hfits.exists_fresh hn
        rw [hkey, decide_eq_true_eq, Handle.fresh_inj]
        omega

/-- A change of the node of one handle, as what is found under each. -/
theorem find?_map_if {f : α → α} {h : Handle sort} (hf : ∀ n, key n = h → key (f n) = h)
    (h' : Handle sort) :
    (nodes.map fun n => if key n = h then f n else n).find? (key · = h') =
      if h = h' then (nodes.find? (key · = h')).map f else nodes.find? (key · = h') := by
  have hkey : ∀ n, key (if key n = h then f n else n) = key n := by
    intro n
    split
    next heq => rw [hf n heq, heq]
    next => rfl
  rw [List.find?_map]
  simp only [Function.comp_def, hkey]
  cases hfound : nodes.find? (key · = h') with
  | none => simp
  | some n =>
      obtain rfl : key n = h' := by simpa using List.find?_some hfound
      by_cases heq : key n = h
      · simp [heq]
      · simp [heq, Ne.symm heq]

/-- To change the node of a handle changes nothing else. -/
theorem update_layOut {f : α → α} {h : Handle sort} (hf : ∀ n, key n = h → key (f n) = h) :
    (layOut key count nodes).update h f =
      layOut key count (nodes.map fun n => if key n = h then f n else n) := by
  unfold update
  cases hslot : h.slot? with
  | none =>
      refine layOut_congr fun k _ => ?_
      rw [find?_map_if hf, if_neg]
      rintro rfl
      rw [Handle.slot?_fresh] at hslot
      cases hslot
  | some j =>
      obtain rfl := Handle.slot?_eq_some_iff.mp hslot
      apply eq_layOut (by simp)
      intro k hk
      rw [List.getElem?_modify, getElem?_layOut, if_pos hk, find?_map_if hf]
      simp only [Handle.fresh_inj, Option.map_eq_map, Option.map_some]

@[simp] theorem update_id (h : Handle sort) (slots : Slots α) :
    slots.update h (fun n => n) = slots := by
  have hsame : (Option.map fun n : α => n) = id := funext fun o => by simp
  unfold update
  cases h.slot? with
  | none => rfl
  | some k => simp only [hsame, List.modify_id]

/-- To empty the slot of a handle takes its node away. -/
theorem clear_layOut (h : Handle sort) :
    (layOut key count nodes).clear h = layOut key count (nodes.filter (key · ≠ h)) := by
  have hother : ∀ k, h ≠ .fresh k →
      (nodes.filter (key · ≠ h)).find? (key · = .fresh k) = nodes.find? (key · = .fresh k) := by
    intro k hne
    rw [List.find?_filter]
    congr 1
    funext n
    by_cases hkey : key n = .fresh k
    · simp [hkey, hne.symm]
    · simp [hkey]
  unfold clear
  cases hslot : h.slot? with
  | none =>
      refine layOut_congr fun k _ => (hother k ?_).symm
      rintro rfl
      rw [Handle.slot?_fresh] at hslot
      cases hslot
  | some j =>
      obtain rfl := Handle.slot?_eq_some_iff.mp hslot
      apply eq_layOut (by simp)
      intro k hk
      by_cases hjk : j = k
      · subst hjk
        rw [List.getElem?_set_self (by simpa using hk), eq_comm, Option.some.injEq,
          List.find?_eq_none]
        intro n hn
        simpa using (List.mem_filter.mp hn).2
      · rw [List.getElem?_set_ne hjk, getElem?_layOut, if_pos hk,
          hother k fun heq => hjk (Handle.fresh_inj.mp heq)]

/-- What was done to a node before its slot is emptied makes no difference. -/
theorem clear_update (h : Handle sort) (f : α → α) (slots : Slots α) :
    (slots.update h f).clear h = slots.clear h := by
  unfold update clear
  cases h.slot? with
  | none => rfl
  | some k =>
      apply List.ext_getElem?
      intro i
      rw [List.getElem?_set, List.getElem?_set, List.getElem?_modify, List.length_modify]
      split
      next => rfl
      next => simp

theorem foldl_clear_layOut (hs : List (Handle sort)) :
    hs.foldl (fun slots h => slots.clear h) (layOut key count nodes) =
      layOut key count (nodes.filter (key · ∉ hs)) := by
  induction hs generalizing nodes with
  | nil => simp
  | cons h hs ih =>
      rw [List.foldl_cons, clear_layOut, ih, List.filter_filter]
      congr 2
      funext n
      simp [Bool.and_comm]

/-- A new node gets the next slot, wherever it stands in the list. -/
theorem push_layOut (hfits : Fits key count nodes) {node : α} (hnode : key node = .fresh count)
    {nodes' : List α} (hperm : nodes'.Perm (node :: nodes)) :
    (layOut key count nodes).push node = layOut key (count + 1) nodes' := by
  have hnew : ∀ k < count, key node ≠ .fresh k := by
    intro k hlt
    rw [hnode, ne_eq, Handle.fresh_inj]
    omega
  have hnodup : ((node :: nodes).map key).Nodup := by
    refine List.nodup_cons.mpr ⟨fun hmem => ?_, hfits.nodup⟩
    obtain ⟨n, hn, heq⟩ := List.mem_map.mp hmem
    obtain ⟨k, hlt, hkey⟩ := hfits.exists_fresh hn
    exact hnew k hlt (heq.symm.trans hkey)
  rw [layOut_perm ((hperm.map key).nodup_iff.mpr hnodup) hperm]
  apply eq_layOut (by simp [push])
  intro k hk
  unfold push
  by_cases hlt : k < count
  · rw [List.getElem?_append_left (by simpa using hlt), getElem?_layOut, if_pos hlt,
      List.find?_cons_of_neg (by simpa using hnew k hlt)]
  · obtain rfl : k = count := by omega
    rw [List.getElem?_append_right (by simp), length_layOut, Nat.sub_self,
      List.find?_cons_of_pos (by simpa using hnode)]
    rfl

theorem map_layOut {f : α → α} (hf : ∀ n, key (f n) = key n) :
    List.map (Option.map f) (layOut key count nodes) = layOut key count (nodes.map f) := by
  unfold layOut
  rw [List.map_map]
  refine List.map_congr_left fun k _ => ?_
  rw [List.find?_map, Function.comp_apply]
  congr 2
  funext n
  rw [Function.comp_apply, hf]

theorem mem_live_layOut (hfits : Fits key count nodes) {n : α} :
    n ∈ (layOut key count nodes).live ↔ n ∈ nodes := by
  simp only [live, layOut, List.filterMap_map, List.mem_filterMap, List.mem_range,
    Function.comp_apply, id]
  constructor
  · rintro ⟨k, _, hfound⟩
    exact List.mem_of_find?_eq_some hfound
  · intro hn
    obtain ⟨k, hlt, hkey⟩ := hfits.exists_fresh hn
    exact ⟨k, hlt, hkey ▸ find?_eq_some_of_nodup hfits.nodup hn⟩

/-- The live nodes come in the order of their handles. -/
theorem live_layOut (hfits : Fits key count nodes) (hordered : Increasing (nodes.map key)) :
    (layOut key count nodes).live = nodes := by
  have hlive : (layOut key count nodes).live.Pairwise
      fun n n' => (key n).number < (key n').number := by
    rw [live, layOut, List.filterMap_map, List.pairwise_filterMap]
    refine List.pairwise_lt_range.imp fun {j k} hlt n hn n' hn' => ?_
    have hkey : key n = .fresh j := by simpa using List.find?_some hn
    have hkey' : key n' = .fresh k := by simpa using List.find?_some hn'
    rw [hkey, hkey']
    exact Nat.succ_lt_succ hlt
  have hnodes := List.pairwise_map.mp hordered
  have hnodup : ∀ {l : List α}, (l.Pairwise fun n n' => (key n).number < (key n').number) →
      l.Nodup := fun hl => .of_map key (Increasing.nodup (List.pairwise_map.mpr hl))
  have hperm : (layOut key count nodes).live.Perm nodes :=
    (List.perm_ext_iff_of_nodup (hnodup hlive) (hnodup hnodes)).mpr fun _ => mem_live_layOut hfits
  exact hperm.eq_of_pairwise (fun _ _ _ _ hlt hgt => absurd hlt (Nat.lt_asymm hgt)) hlive hnodes

end Slots

end Blueprint
