import Blueprint.Proofs.Sessions

/-! # No stale handle is ever used

Whatever is generated or inferred goes by handles that columns and relations hold. In every
session of edits and questions they are live when they are looked up, so no computation ends
at a stale handle. The one thing that can stop a backend is a bit string wider than any
padding.
-/

namespace Blueprint

/-! ### What stops a backend -/

/-- Whether the column holds bit strings too wide to be padded. -/
def Column.IsTooWide (c : Column) : Prop :=
  c.storageKind = .bit ∧ ∃ size ∈ c.terminal.maxSize?, 65535 < size

/-- Whether a computation ends in a fault exactly if `p`, and only because of a padding. -/
def PadsUnless {α : Type} (p : Prop) (x : Except Fault α) : Prop :=
  ∀ fault, x = .error fault ↔ fault = .paddingTooWide ∧ p

namespace PadsUnless

variable {α β : Type} {p q : Prop}

theorem of_ok (a : α) : PadsUnless False (.ok a) := by
  simp [PadsUnless]

theorem congr {x : Except Fault α} (hx : PadsUnless p x) (hpq : p ↔ q) : PadsUnless q x := by
  simpa only [PadsUnless, ← hpq] using hx

theorem map {x : Except Fault α} (hx : PadsUnless p x) (f : α → β) : PadsUnless p (x.map f) := by
  intro fault
  rw [← hx fault]
  cases x <;> simp [Except.map]

theorem mapM {f : α → Except Fault β} {p : α → Prop} (hf : ∀ a, PadsUnless (p a) (f a))
    (l : List α) : PadsUnless (∃ a ∈ l, p a) (l.mapM f) := by
  induction l with
  | nil => exact (of_ok []).congr (by simp)
  | cons a l ih =>
      rw [List.mapM_cons]
      cases hx : f a with
      | error fault =>
          obtain ⟨rfl, hp⟩ := (hf a fault).mp hx
          intro fault
          constructor
          · intro herror
            cases herror
            exact ⟨rfl, a, List.mem_cons_self, hp⟩
          · rintro ⟨rfl, _⟩
            rfl
      | ok b =>
          have hp : ¬ p a := fun hp => by simpa [hx] using (hf a _).mpr ⟨rfl, hp⟩
          have hrest : (Except.ok b >>= fun b => do return b :: (← l.mapM f)) =
              (l.mapM f).map (b :: ·) := by
            rw [ok_bind]
            cases l.mapM f <;> rfl
          rw [hrest]
          exact (ih.map _).congr (by simp [hp])

end PadsUnless

namespace Output

theorem Hurl.padsUnless_seed (c : Column) : PadsUnless c.IsTooWide (Hurl.seed c) := by
  unfold Hurl.seed Hurl.seedText Column.IsTooWide
  split
  case isFalse hkind => exact (PadsUnless.of_ok _).congr (by simp [hkind])
  case isTrue hkind =>
    cases c.terminal.maxSize? with
    | none => exact (PadsUnless.of_ok _).congr (by simp)
    | some size =>
        have hpadded : PadsUnless (maxPadding < size) (zeroPadded size "1") := by
          intro fault
          unfold zeroPadded
          split
          · simp only [reduceCtorEq, false_iff, not_and, Nat.not_lt]
            exact fun _ => ‹_›
          · simp only [Except.error.injEq, eq_comm, Nat.lt_of_not_le ‹_›, and_true]
        exact (hpadded.map _).congr (by simp [hkind, maxPadding])

theorem Hurl.padsUnless_bodyMembers (d : Document) (entity : EntityId) :
    PadsUnless (∃ c ∈ d.validColumns entity, c.IsTooWide) (Hurl.bodyMembers d entity) := by
  have hmembers := PadsUnless.mapM (fun c => (padsUnless_seed c).map (fieldName c, ·))
    (sentColumns d entity)
  refine hmembers.congr ⟨?_, ?_⟩
  · rintro ⟨c, hc, hwide⟩
    exact ⟨c, (List.mem_filter.mp hc).1, hwide⟩
  · -- a bit string is no serial, so it is among what is sent
    rintro ⟨c, hc, hwide⟩
    exact ⟨c, List.mem_filter.mpr ⟨hc, by simp [hwide.1]⟩, hwide⟩

theorem Hurl.padsUnless_generate (d : Document) :
    PadsUnless (∃ e ∈ d.entities, ∃ c ∈ d.validColumns e.id, c.IsTooWide) (Hurl.generate d) := by
  have hfiles := PadsUnless.mapM (fun placed : Schema × Entity =>
    (padsUnless_bodyMembers d placed.2.id).map fun members => (fileId placed.1 placed.2,
      Text.unlines (fileLines d placed.1 placed.2 (bodyText members)))) (placedEntities d)
  refine (hfiles.map Files.ofList).congr ?_
  simp only [placedEntities, Document.entities, List.mem_flatMap, List.mem_map, Prod.exists,
    Prod.mk.injEq]
  constructor
  · rintro ⟨_, _, ⟨s, hs, e, he, rfl, rfl⟩, hwide⟩
    exact ⟨e, ⟨s, hs, he⟩, hwide⟩
  · rintro ⟨e, ⟨s, hs, he⟩, hwide⟩
    exact ⟨s, e, ⟨s, hs, e, he, rfl, rfl⟩, hwide⟩

theorem Backend.generate_eq_error_iff (b : Backend) (d : Document) (fault : Fault) :
    b.generate d = .error fault ↔ b = .hurl ∧ fault = .paddingTooWide ∧
      ∃ e ∈ d.entities, ∃ c ∈ d.validColumns e.id, c.IsTooWide := by
  cases b with
  | go => simp [Backend.generate]
  | postgres => simp [Backend.generate]
  | hurl => simpa [Backend.generate] using Hurl.padsUnless_generate d fault

end Output

/-! ### Sessions -/

theorem Looks.unique {α : Type} {d : Document} {x : Lookup α} {r r' : Except Fault α}
    (hr : Looks d x r) (hr' : Looks d x r') : r = r' := by
  have hfresh := Memo.fresh_nil d
  rw [← (hr _ hfresh).1, (hr' _ hfresh).1]

/-- Whether all that goes by handle ends, from every fresh memo, with what the columns of the
document give. -/
structure Document.NeverStale (d : Document) : Prop where
  flatten : ∀ entity, Looks d (Lookup.flatten d entity) (.ok ((d.columns entity).map d.entry))
  primary : ∀ entity, Looks d (Lookup.primary d entity) (.ok ((d.primary entity).map d.entry))
  isComposite : ∀ entity, Looks d (Lookup.isComposite d entity) (.ok (d.isComposite entity))
  uniqueGroups : ∀ entity, Looks d (Lookup.uniqueGroups d entity)
    (.ok ((d.uniqueGroups entity).map fun group => (group.1, group.2.map d.entry)))
  fields : ∀ entity, Looks d (Lookup.fields d entity) (.ok ((d.fields entity).map d.entryField))
  isValid : ∀ entity, ∀ c ∈ d.columns entity, (d.entry c).isValid d = .ok c.isValid
  storageKind : ∀ entity, ∀ c ∈ d.columns entity,
    (d.entry c).storageKind d = .ok c.storageKind
  relations : Looks d (Lookup.relations d) (.ok d.relations)
  holds : ∀ r ∈ d.relations, d.Holds r
  baseToHas : ∀ r ∈ d.relations,
    Looks d (Lookup.baseToHas d r) (.ok ((r.baseToHas d).map d.entry))
  hasToBase : ∀ r ∈ d.relations,
    Looks d (Lookup.hasToBase d r) (.ok ((r.hasToBase d).map d.entry))
  assocKeys : ∀ r ∈ d.relations, Looks d (Lookup.assocKeys d r)
    (.ok ((r.assocKeys d).1.map d.entry, (r.assocKeys d).2.map d.entry))
  generate : ∀ b, Looks d (Lookup.generate d b) (b.generate d)

theorem Document.HandlesSound.neverStale {d : Document} (hd : d.HandlesSound) :
    d.NeverStale where
  flatten := Lookup.looks_flatten hd
  primary := Lookup.looks_primary hd
  isComposite := Lookup.looks_isComposite hd
  uniqueGroups := Lookup.looks_uniqueGroups hd
  fields := Lookup.looks_fields hd
  isValid _ _ hc := Entry.isValid_eq (hd.finds hc)
  storageKind _ _ hc := Entry.storageKind_eq (hd.finds hc)
  relations := Lookup.looks_relations hd
  holds _ hr := holds_of_mem_relations hr
  baseToHas r _ := Lookup.looks_columnsInto hd r.base r.has
  hasToBase r _ := Lookup.looks_columnsInto hd r.has r.base
  assocKeys r _ := Lookup.looks_assocKeys hd r
  generate := Lookup.looks_generate hd

namespace Session

variable {d : Document}

/-- After every session of edits and questions, whatever their order, what is remembered is
fresh, and from it all that goes by handle ends as it does without handles. A backend ends in
a fault only if it writes requests, and exactly if some valid column holds bit strings of more
than 65535 places. -/
theorem neverStale_run (hd : d.IsOrigin) (actions : List Action) :
    let s := (start d).run actions
    s.document = d.run (actions.filterMap Action.edit?) ∧
      Memo.Fresh s.document s.memo ∧
      s.document.NeverStale ∧
      ∀ b fault, Looks s.document (Lookup.generate s.document b) (.error fault) ↔
        b = .hurl ∧ fault = .paddingTooWide ∧
          ∃ e ∈ s.document.entities, ∃ c ∈ s.document.validColumns e.id,
            c.storageKind = .bit ∧ ∃ size ∈ c.terminal.maxSize?, 65535 < size := by
  intro s
  have hdocument : s.document = d.run (actions.filterMap Action.edit?) := document_run actions
  have hsound : s.document.HandlesSound := hdocument ▸ (hd.sound.handles.run _).1
  refine ⟨hdocument, fresh_run hd.sound.handles (Memo.fresh_nil d) actions, hsound.neverStale, ?_⟩
  intro b fault
  have hgenerate := Lookup.looks_generate hsound b
  have hfault : Looks s.document (Lookup.generate s.document b) (.error fault) ↔
      b.generate s.document = .error fault :=
    ⟨hgenerate.unique, fun heq => heq ▸ hgenerate⟩
  rw [hfault]
  exact Output.Backend.generate_eq_error_iff b s.document fault

/-- A badge that refers to a guest, with a bit string one place too wide. -/
def lobby : String :=
  "# lobby\n## guest\n- id as ++\n## badge\n- @guest\n- marks as bit with ..65536\n"

/-- The columns of the badge are remembered over the guest, and the guest is removed. Then the
marks are replaced by ones that can be padded. -/
def checkout : List Action :=
  [.ask (.flatten ⟨2⟩), .ask .relations, .edit (.removeEntity ⟨1⟩), .ask (.fields ⟨2⟩),
    .edit (.replaceAttribute ⟨3⟩ "- marks as bit with ..8")]

theorem neverStale_run_checkout :
    ∃ d, Document.read 5 lobby = .ok d ∧
      ((d.columns ⟨2⟩).map Column.name, d.relations.map Relation.pair) =
        (["guest_id", "marks"], [(⟨2⟩, ⟨1⟩), (⟨1⟩, ⟨2⟩)]) ∧
      (let s := (start d).run (checkout.take 4)
       ((s.document.columns ⟨2⟩).map Column.name, s.document.relations) = (["marks"], []) ∧
        s.document.NeverStale ∧
        Looks s.document (Lookup.generate s.document .hurl) (.error .paddingTooWide)) ∧
      (let s := (start d).run checkout
       s.document.NeverStale ∧
        ∀ b fault, ¬ Looks s.document (Lookup.generate s.document b) (.error fault)) := by
  have hall : (Document.read 5 lobby).toOption.any fun d =>
      ((d.columns ⟨2⟩).map Column.name, d.relations.map Relation.pair) =
        (["guest_id", "marks"], [(⟨2⟩, ⟨1⟩), (⟨1⟩, ⟨2⟩)]) ∧
      (let s := (start d).run (checkout.take 4)
       ((s.document.columns ⟨2⟩).map Column.name, s.document.relations) = (["marks"], []) ∧
        ∃ e ∈ s.document.entities, ∃ c ∈ s.document.validColumns e.id,
          c.storageKind = .bit ∧ ∃ size ∈ c.terminal.maxSize?, 65535 < size) ∧
      (let s := (start d).run checkout
       ¬ ∃ e ∈ s.document.entities, ∃ c ∈ s.document.validColumns e.id,
          c.storageKind = .bit ∧ ∃ size ∈ c.terminal.maxSize?, 65535 < size) := by
    decide +kernel
  cases hread : Document.read 5 lobby with
  | error fault => rw [hread] at hall; cases hall
  | ok d =>
      rw [hread, Except.toOption, Option.any_some, decide_eq_true_eq] at hall
      obtain ⟨hbefore, ⟨hafter, hwide⟩, hnarrow⟩ := hall
      obtain ⟨_, _, hstale, hfault⟩ := neverStale_run (.read hread) (checkout.take 4)
      obtain ⟨_, _, hstale', hfault'⟩ := neverStale_run (.read hread) checkout
      exact ⟨d, rfl, hbefore, ⟨hafter, hstale, (hfault _ _).mpr ⟨rfl, rfl, hwide⟩⟩, hstale',
        fun b fault hlooks => hnarrow ((hfault' b fault).mp hlooks).2.2⟩

end Session

end Blueprint
