import Blueprint.Proofs.Chains
import Blueprint.Recall

/-! # What is remembered

A memo is fresh if it holds nothing but what the document itself would work out. To ask
for the columns of an entity keeps a fresh memo fresh, and gives what the document has.
-/

namespace Blueprint

/-- Whether all that is remembered is of entities of the document, and as it is there. -/
def Memo.Fresh (d : Document) (memo : Memo) : Prop :=
  ∀ entry ∈ memo, (d.entity? entry.1).isSome ∧ entry.2 = d.entries entry.1

theorem Memo.fresh_nil (d : Document) : Memo.Fresh d [] :=
  fun _ hentry => absurd hentry List.not_mem_nil

namespace Recall

variable {d : Document} {entity : EntityId} {α β : Type}

/-- Whether the answer from every fresh memo is `a`, and the memo is fresh again afterwards. -/
def Answers (d : Document) (x : Recall α) (a : α) : Prop :=
  ∀ memo, Memo.Fresh d memo → (x.run memo).1 = a ∧ Memo.Fresh d (x.run memo).2

namespace Answers

theorem pure (a : α) : Answers d (pure a) a :=
  fun _ hmemo => ⟨rfl, hmemo⟩

theorem bind {x : Recall α} {f : α → Recall β} {a : α} {b : β} (hx : Answers d x a)
    (hf : Answers d (f a) b) : Answers d (x >>= f) b := by
  intro memo hmemo
  obtain ⟨rfl, hfresh⟩ := hx memo hmemo
  exact hf _ hfresh

end Answers

theorem entries_of_stale (hstale : d.entity? entity = none) : d.entries entity = [] := by
  rw [Document.entries, Document.walk, Document.attributesOf, hstale]
  simp

theorem mem_of_lookup {memo : Memo} {entries : List Entry}
    (hfound : memo.lookup entity = some entries) : (entity, entries) ∈ memo := by
  obtain ⟨before, after, rfl, _⟩ := List.lookup_eq_some_iff.mp hfound
  simp

theorem flatten_run_stale (hstale : d.entity? entity = none) (memo : Memo) :
    (flatten d entity).run memo = ([], memo) := by
  simp only [flatten, hstale]
  rfl

theorem flatten_run_hit (hlive : (d.entity? entity).isSome) {memo : Memo} {entries : List Entry}
    (hfound : memo.lookup entity = some entries) :
    (flatten d entity).run memo = (entries, memo) := by
  obtain ⟨e, he⟩ := Option.isSome_iff_exists.mp hlive
  simp only [flatten, he, Option.isNone_some, Bool.false_eq_true, if_false, StateT.run_bind,
    StateT.run_get, pure_bind, hfound]
  rfl

theorem flatten_run_miss (hlive : (d.entity? entity).isSome) {memo : Memo}
    (hnone : memo.lookup entity = none) :
    (flatten d entity).run memo = (d.entries entity, (entity, d.entries entity) :: memo) := by
  obtain ⟨e, he⟩ := Option.isSome_iff_exists.mp hlive
  simp only [flatten, he, Option.isNone_some, Bool.false_eq_true, if_false, StateT.run_bind,
    StateT.run_get, pure_bind, hnone]
  rfl

theorem answers_flatten (d : Document) (entity : EntityId) :
    Answers d (flatten d entity) (d.entries entity) := by
  intro memo hmemo
  cases hentity : d.entity? entity with
  | none =>
      rw [flatten_run_stale hentity, entries_of_stale hentity]
      exact ⟨rfl, hmemo⟩
  | some e =>
      have hlive : (d.entity? entity).isSome := by simp [hentity]
      cases hfound : memo.lookup entity with
      | some entries =>
          rw [flatten_run_hit hlive hfound]
          exact ⟨(hmemo _ (mem_of_lookup hfound)).2, hmemo⟩
      | none =>
          rw [flatten_run_miss hlive hfound]
          exact ⟨rfl, List.forall_mem_cons.mpr ⟨⟨hlive, rfl⟩, hmemo⟩⟩

end Recall

end Blueprint
