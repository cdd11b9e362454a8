import Blueprint.Proofs.Simulation

/-! # Atomic edits

An edit of an arena is a sequence of changes, and a failure keeps what was changed before
it. Removing a schema is a loop over removals of entities. In every arena that edits lead
to, an edit fails before it has changed anything, on the first stale handle that it is given,
or because its line cannot be read.
-/

namespace Blueprint.Arena

variable {a : Arena} {e : Edit}

/-- An edit succeeds as a whole or changes nothing. -/
structure Atomic (a : Arena) (e : Edit) : Prop where
  /-- Where its line can be read, it fails exactly on a stale handle. -/
  fails_iff : e.fault? = none →
    ((∃ err rest, (edit e).run a = .error err rest) ↔ ∃ h ∈ e.given, ¬ a.isLive h.2)
  /-- The failure names the first one of these. -/
  names : e.fault? = none → ∀ err rest, (edit e).run a = .error err rest →
    ∃ h, a.firstStale? e = some h ∧ err = .unknown h
  /-- A fault of the line comes before any handle is looked at. -/
  faults : ∀ f, e.fault? = some f → (edit e).run a = .error (.fault f) a
  unchanged : ∀ err rest, (edit e).run a = .error err rest → rest = a
  /-- The outcome is that of the edit of the document. -/
  agrees : (edit e).run a = a.document.outcome (a.document.edit e)

theorem firstStale?_eq_none_iff : a.firstStale? e = none ↔ ¬ ∃ h ∈ e.given, ¬ a.isLive h.2 := by
  simp only [firstStale?, List.find?_eq_none, Bool.not_eq_true', Bool.not_eq_true, not_exists,
    not_and]

/-- The document of the arena does not fail on live handles, so neither does the arena. -/
theorem exists_ok_of_firstStale? {d : Document} (hd : d.HandlesSound) (hordered : d.Ordered)
    (hfault : e.fault? = none) (hlive : d.arena.firstStale? e = none) :
    ∃ answer next, (edit e).run d.arena = .ok answer next := by
  rw [hd.firstStale?_arena] at hlive
  rcases d.edit_cases e with ⟨f, hf, _⟩ | ⟨_, ⟨h, hstale, _⟩ | ⟨_, next, answer, hedit⟩⟩
  · cases hfault.symm.trans hf
  · cases hlive.symm.trans hstale
  · exact ⟨answer, next.arena, hd.run_step hordered (.of_edit hedit)⟩

theorem atomic_arena {d : Document} (hd : d.HandlesSound) (hordered : d.Ordered) (e : Edit) :
    d.arena.Atomic e := by
  have hagrees : (edit e).run d.arena = d.arena.document.outcome (d.arena.document.edit e) := by
    rw [hd.document_arena hordered]
    exact hd.edit_arena hordered e
  cases hfault : e.fault? with
  | some f =>
      have hrun : (edit e).run d.arena = _ := run_edit_of_fault hfault
      refine ⟨fun hnone => ?_, fun hnone => ?_, ?_, ?_, hagrees⟩
      · cases hfault.symm.trans hnone
      · cases hfault.symm.trans hnone
      · rintro f' hf'
        rw [hrun, Option.some.inj (hfault.symm.trans hf')]
      · rintro err rest herr
        cases hrun.symm.trans herr
        rfl
  | none =>
      have hnofault : ∀ f, e.fault? = some f → (edit e).run d.arena = .error (.fault f) d.arena :=
        fun f hf => by cases hfault.symm.trans hf
      cases hstale : d.arena.firstStale? e with
      | some h =>
          have hrun : (edit e).run d.arena = _ := run_edit_of_stale hfault hstale
          refine ⟨fun _ => ?_, fun _ err rest herr => ?_, hnofault, fun err rest herr => ?_, hagrees⟩
          · refine iff_of_true ⟨_, _, hrun⟩ ?_
            exact ⟨h, List.mem_of_find?_eq_some hstale, by simpa using List.find?_some hstale⟩
          · cases hrun.symm.trans herr
            exact ⟨h, hstale, rfl⟩
          · cases hrun.symm.trans herr
            rfl
      | none =>
          obtain ⟨answer, next, hrun⟩ := exists_ok_of_firstStale? hd hordered hfault hstale
          refine ⟨fun _ => ?_, fun _ err rest herr => ?_, hnofault, fun err rest herr => ?_, hagrees⟩
          · refine iff_of_false ?_ (firstStale?_eq_none_iff.mp hstale)
            rintro ⟨err, rest, herr⟩
            cases hrun.symm.trans herr
          · cases hrun.symm.trans herr
          · cases hrun.symm.trans herr

/-- Edits of an arena lead to the same documents as edits of its document, and in all of
these arenas every edit is atomic. -/
theorem IsOrigin.atomic_run (ha : a.IsOrigin) (es : List Edit) (e : Edit) :
    (a.run es).document = a.document.run es ∧ (a.run es).Atomic e := by
  obtain ⟨hd, _⟩ := ha.document
  obtain ⟨hrun, hstored⟩ := ha.run_eq es
  refine ⟨hstored, ?_⟩
  rw [hrun]
  exact atomic_arena (hd.handles_run es) (hd.ordered_run es) e

/-- A run that removes an entity and leaves another one in its schema. -/
def clearance : List Edit :=
  [.addSchema "blog", .addEntity ⟨1⟩ "tag", .addEntity ⟨1⟩ "post", .addAttribute ⟨2⟩ "- @tag",
    .removeEntity ⟨1⟩]

/-- The schema can be removed with the entity that it still has, the target of a reference is
looked up before the reference, and a line with a fault before the entity. -/
theorem atomic_run_clearance :
    (¬ ∃ err rest, (edit (.removeSchema ⟨1⟩)).run ((empty 5).run clearance) =
      .error err rest) ∧
    (edit (.setReference ⟨7⟩ ⟨1⟩)).run ((empty 5).run clearance) =
      .error (.unknownEntity ⟨1⟩) ((empty 5).run clearance) ∧
    (edit (.addAttribute ⟨9⟩ "- x as bit with ..65536, default:1")).run
        ((empty 5).run clearance) =
      .error (.fault .paddingTooWide) ((empty 5).run clearance) := by
  have hatomic := fun e => (IsOrigin.atomic_run (.empty 5) clearance e).2
  refine ⟨?_, ?_, ?_⟩
  · rw [(hatomic _).fails_iff rfl]
    decide +kernel
  · have hreference := hatomic (.setReference ⟨7⟩ ⟨1⟩)
    obtain ⟨err, rest, herr⟩ := (hreference.fails_iff rfl).mpr (by decide +kernel)
    have hfirst : ((empty 5).run clearance).firstStale? (.setReference ⟨7⟩ ⟨1⟩) =
        some ⟨.entity, ⟨1⟩⟩ := by decide +kernel
    obtain ⟨h, hh, rfl⟩ := hreference.names rfl err rest herr
    rw [herr, hreference.unchanged _ rest herr, Option.some.inj (hh.symm.trans hfirst)]
    rfl
  · exact (hatomic _).faults _ (by decide +kernel)

end Blueprint.Arena
