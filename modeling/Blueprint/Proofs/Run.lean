import Blueprint.Document.Reader

/-! # Runs of edits

A run carries out edits one after the other, and an edit that fails leaves the
document as it was. Runs start at an empty document or at one that was read.
-/

namespace Blueprint

/-- Whether an edit is given names, lines and handles only. A ready-made attribute
may hold any target, and nothing checks it. -/
def Edit.isWritten : Edit → Bool
  | .insertAttribute _ _ => false
  | _ => true

/-- The handles that an answer hands out. -/
inductive Answer.Issues : Answer → {sort : NodeSort} → Handle sort → Prop where
  | schema (id : SchemaId) : Issues (.schema id) id
  | entity (id : EntityId) : Issues (.entity id) id
  | attr (id : AttrId) : Issues (.attr id) id

namespace Document

/-- The document after an edit. -/
def perform (d : Document) (e : Edit) : Document :=
  match d.edit e with
  | .ok (next, _) => next
  | .error _ => d

def run (d : Document) (es : List Edit) : Document :=
  es.foldl perform d

/-- Where runs start. -/
inductive IsOrigin : Document → Prop where
  | empty (maxDepth : Nat) : IsOrigin (.empty maxDepth)
  | read {maxDepth : Nat} {source : String} {d : Document}
      (hread : Document.read maxDepth source = .ok d) : IsOrigin d

@[simp] theorem run_nil (d : Document) : d.run [] = d := rfl

@[simp] theorem run_cons (d : Document) (e : Edit) (es : List Edit) :
    d.run (e :: es) = (d.perform e).run es := rfl

theorem run_append (d : Document) (first rest : List Edit) :
    d.run (first ++ rest) = (d.run first).run rest :=
  List.foldl_append

theorem perform_of_ok {d next : Document} {e : Edit} {a : Answer}
    (hedit : d.edit e = .ok (next, a)) : d.perform e = next := by
  simp only [perform, hedit]

theorem perform_of_error {d : Document} {e : Edit} {err : EditError}
    (hedit : d.edit e = .error err) : d.perform e = d := by
  simp only [perform, hedit]

/-- What every successful written edit preserves holds after every run of them. -/
theorem run_induction {motive : Document → Prop}
    (hstep : ∀ d e next a, motive d → e.isWritten → d.edit e = .ok (next, a) → motive next)
    {d : Document} (hd : motive d) {es : List Edit} (hes : ∀ e ∈ es, e.isWritten) :
    motive (d.run es) := by
  induction es generalizing d with
  | nil => exact hd
  | cons e es ih =>
      obtain ⟨he, hes⟩ := List.forall_mem_cons.mp hes
      rw [run_cons]
      apply ih _ hes
      cases hedit : d.edit e with
      | ok answer =>
          rw [perform_of_ok hedit]
          exact hstep d e _ _ hd he hedit
      | error err =>
          rw [perform_of_error hedit]
          exact hd

end Document

end Blueprint
