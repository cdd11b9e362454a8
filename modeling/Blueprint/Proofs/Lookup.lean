import Blueprint.Lookup.Output
import Blueprint.Proofs.Recall
import Blueprint.Proofs.Relations

/-! # Lookups that never fail

A column that a document gives names attributes and entities that are there, and they are
the ones it was made of. So whatever is looked up for it is found, and every question that
is answered by handle is answered as it is from the columns themselves.
-/

namespace Blueprint

theorem ok_bind {α β ε : Type} (a : α) (f : α → Except ε β) : (Except.ok a >>= f) = f a :=
  rfl

theorem mapM_ok {α β ε : Type} {f : α → Except ε β} {g : α → β} {l : List α}
    (hf : ∀ a ∈ l, f a = .ok (g a)) : l.mapM f = .ok (l.map g) := by
  induction l with
  | nil => rfl
  | cons a l ih =>
      obtain ⟨ha, hl⟩ := List.forall_mem_cons.mp hf
      rw [List.mapM_cons, ha, ih hl]
      rfl

/-! ### Columns and their handles -/

namespace Document

variable {d : Document} {entity : EntityId} {c : Column}

/-- What is remembered of a column of the document. -/
def entry (d : Document) (c : Column) : Entry :=
  Flat.entry ⟨c, d.changesSchema c⟩

/-- A field of the document, by handle. -/
def entryField (d : Document) : Field → Entry.Field
  | .valid c => .valid (d.entry c)
  | .invalid name defects => .invalid name defects

theorem HandlesSound.entries_eq_map (hd : d.HandlesSound) (entity : EntityId) :
    d.entries entity = (d.columns entity).map d.entry := by
  rw [hd.entries_eq, flatten, List.map_map]
  rfl

/-- Whether the handles of a column lead back to it. -/
structure Finds (d : Document) (c : Column) : Prop where
  source : d.memberAt (d.entry c).source = .ok c.source
  terminal : d.memberAt (d.entry c).terminal = .ok c.terminal
  owner : d.ownerAt (d.entry c).terminal = .ok c.owner

theorem HandlesSound.memberAt_eq (hd : d.HandlesSound) {m : Member} (hm : m ∈ d.members) :
    d.memberAt m.id = .ok m := by
  rw [memberAt, hd.member?_eq hm]

theorem HandlesSound.finds (hd : d.HandlesSound) (hc : c ∈ d.columns entity) : d.Finds c where
  source := hd.memberAt_eq (mem_members_of_mem_attributesOf (source_mem_attributesOf hc))
  terminal := hd.memberAt_eq (mem_members_of_mem_attributesOf (terminal_mem_attributesOf hc))
  owner := by
    obtain ⟨owner, howner, hid⟩ := Option.map_eq_some_iff.mp
      (hd.ownerOf?_of_mem_attributesOf (terminal_mem_attributesOf hc))
    simp only [ownerAt, entry, Flat.entry, howner, hid]

end Document

namespace Entry

variable {d : Document} {c : Column}

theorem isValid_eq (hc : d.Finds c) : (d.entry c).isValid d = .ok c.isValid := by
  rw [isValid, hc.source, ok_bind, hc.terminal, ok_bind, Column.isValid]
  cases c.source.hasDefect <;> rfl

theorem isKey_eq (hc : d.Finds c) :
    (d.entry c).isKey d = .ok (c.isValid && c.source.primary) := by
  rw [isKey, isValid_eq hc, ok_bind, hc.source, ok_bind]
  cases c.isValid <;> rfl

theorem storageKind_eq (hc : d.Finds c) : (d.entry c).storageKind d = .ok c.storageKind := by
  rw [storageKind, hc.terminal, ok_bind]
  rfl

theorem pointsAt_eq (hc : d.Finds c) (target : EntityId) :
    (d.entry c).pointsAt d target = .ok (!c.isDirect && c.owner = target) := by
  have hdirect : (d.entry c).isDirect = c.isDirect := rfl
  rw [pointsAt, hc.owner, ok_bind, hdirect]
  cases c.isDirect <;> rfl

theorem labelled_eq (hc : d.Finds c) :
    (d.entry c).labelled d =
      .ok (if c.isValid then c.source.unique.map (·, d.entry c) else []) := by
  rw [labelled, isValid_eq hc, ok_bind, hc.source, ok_bind]
  cases c.isValid <;> rfl

theorem field_eq (hc : d.Finds c) : (d.entry c).field d = .ok (d.entryField (.ofColumn c)) := by
  rw [field, isValid_eq hc, ok_bind, hc.terminal, ok_bind, Field.ofColumn]
  cases c.isValid <;> rfl

/-- What stands in the place of an attribute. -/
theorem fieldsAt_eq {cs : List Column} (hcs : ∀ c ∈ cs, d.Finds c) (m : Member) :
    fieldsAt d (cs.map d.entry) m = .ok ((if m.hasDefect then
        [.invalid (Text.replaceChar '.' '_' m.segment) m.defectText]
      else (cs.filter fun c => c.source.id = m.id).map .ofColumn).map d.entryField) := by
  unfold fieldsAt
  split
  · rfl
  · rw [List.filter_map, List.mapM_map, List.map_map]
    exact mapM_ok fun c hc => field_eq (hcs c (List.mem_filter.mp hc).1)

end Entry

theorem filterMap_valid? (d : Document) (fields : List Field) :
    (fields.map d.entryField).filterMap Entry.Field.valid? =
      (fields.filterMap Field.column?).map d.entry := by
  rw [List.filterMap_map, List.map_filterMap]
  congr 1
  funext field
  cases field <;> rfl

/-! ### What a lookup gives -/

/-- Whether a lookup from every fresh memo ends with `r`, and the memo is fresh afterwards. -/
def Looks {α : Type} (d : Document) (x : Lookup α) (r : Except Fault α) : Prop :=
  Recall.Answers d x.run r

namespace Looks

variable {d : Document} {α β : Type}

theorem pure (a : α) : Looks d (pure a) (.ok a) :=
  Recall.Answers.pure _

theorem bind {x : Lookup α} {f : α → Lookup β} {a : α} {r : Except Fault β}
    (hx : Looks d x (.ok a)) (hf : Looks d (f a) r) : Looks d (x >>= f) r := by
  unfold Looks
  rw [ExceptT.run_bind]
  exact Recall.Answers.bind hx hf

/-- A fault ends the lookup. -/
theorem bindExcept {x : Lookup α} {f : α → Lookup β} {r : Except Fault α} {g : α → Except Fault β}
    (hx : Looks d x r) (hf : ∀ a, Looks d (f a) (g a)) : Looks d (x >>= f) (r >>= g) := by
  unfold Looks
  rw [ExceptT.run_bind]
  apply Recall.Answers.bind hx
  cases r with
  | error fault => exact .pure _
  | ok a => exact hf a

/-- What comes after a lookup that may end in a fault, and ends in none itself. -/
theorem mapExcept {x : Lookup α} {f : α → Lookup β} {r : Except Fault α} {g : α → β}
    (hx : Looks d x r) (hf : ∀ a, Looks d (f a) (.ok (g a))) : Looks d (x >>= f) (r.map g) := by
  have hbind := hx.bindExcept hf
  cases r with
  | error fault => exact hbind
  | ok a => exact hbind

theorem map {x : Lookup α} {r : Except Fault α} (hx : Looks d x r) (f : α → β) :
    Looks d (f <$> x) (r.map f) := by
  rw [← bind_pure_comp]
  exact hx.mapExcept fun _ => .pure _

/-- What is returned at the end. -/
theorem returning {x : Lookup α} {g : α → β} {a : α} {b : β} (hx : Looks d x (.ok a))
    (hg : g a = b) : Looks d (do return g (← x)) (.ok b) :=
  hg ▸ hx.bind (.pure (g a))

theorem lift {x r : Except Fault α} (hx : x = r) : Looks d (liftM x) r := by
  subst hx
  exact Recall.Answers.pure _

theorem ofRecall {x : Recall α} {a : α} (hx : Recall.Answers d x a) : Looks d (liftM x) (.ok a) :=
  hx.bind (f := fun a => Pure.pure (Except.ok a)) (.pure _)

/-- A fault ends a list of lookups. -/
theorem mapMExcept {f : α → Lookup β} {g : α → Except Fault β} {l : List α}
    (hf : ∀ a ∈ l, Looks d (f a) (g a)) : Looks d (l.mapM f) (l.mapM g) := by
  induction l with
  | nil =>
      rw [List.mapM_nil, List.mapM_nil]
      exact .pure []
  | cons a l ih =>
      obtain ⟨ha, hl⟩ := List.forall_mem_cons.mp hf
      rw [List.mapM_cons, List.mapM_cons]
      exact ha.bindExcept fun _ => (ih hl).bindExcept fun _ => .pure _

theorem mapM {f : α → Lookup β} {g : α → β} {l : List α}
    (hf : ∀ a ∈ l, Looks d (f a) (.ok (g a))) : Looks d (l.mapM f) (.ok (l.map g)) := by
  rw [← mapM_ok (f := fun a => .ok (g a)) fun _ _ => rfl]
  exact mapMExcept hf

theorem anyM {f : α → Lookup Bool} {p : α → Bool} {l : List α}
    (hf : ∀ a ∈ l, Looks d (f a) (.ok (p a))) : Looks d (l.anyM f) (.ok (l.any p)) := by
  induction l with
  | nil => exact .pure false
  | cons a l ih =>
      obtain ⟨ha, hl⟩ := List.forall_mem_cons.mp hf
      rw [List.anyM, List.any_cons]
      apply ha.bind
      cases p a with
      | true => exact .pure true
      | false => exact ih hl

/-- A choice among the elements of a list, made on what they are mapped to. -/
theorem filterM {f : β → Lookup Bool} {p : α → Bool} {g : α → β} {l : List α}
    (hf : ∀ a ∈ l, Looks d (f (g a)) (.ok (p a))) :
    Looks d ((l.map g).filterM f) (.ok ((l.filter p).map g)) := by
  have haux : ∀ kept, Looks d ((l.map g).filterAuxM f kept)
      (.ok (((l.filter p).map g).reverse ++ kept)) := by
    induction l with
    | nil => exact fun kept => .pure kept
    | cons a l ih =>
        intro kept
        obtain ⟨ha, hl⟩ := List.forall_mem_cons.mp hf
        refine ha.bind ?_
        cases hp : p a with
        | true =>
            rw [List.filter_cons_of_pos hp, List.map_cons, List.reverse_cons, List.append_assoc]
            exact ih hl (g a :: kept)
        | false =>
            rw [List.filter_cons_of_neg (by simp [hp])]
            exact ih hl kept
  exact (haux []).returning (by simp)

end Looks

namespace Lookup

variable {d : Document} (hd : d.HandlesSound) (entity : EntityId)

/-! ### Questions about columns -/

/-- What is looked up for each element of a list, by what it is remembered as. -/
theorem looks_mapM {α β γ : Type} {h : α → β} {f : β → Except Fault γ} {g : α → γ} {l : List α}
    (hf : ∀ a ∈ l, f (h a) = .ok (g a)) :
    Looks d ((l.map h).mapM fun b => liftM (f b)) (.ok (l.map g)) := by
  rw [List.mapM_map]
  exact Looks.mapM fun a ha => .lift (hf a ha)

include hd

theorem looks_flatten :
    Looks d (flatten d entity) (.ok ((d.columns entity).map d.entry)) := by
  rw [← hd.entries_eq_map]
  exact .ofRecall (Recall.answers_flatten d entity)

theorem looks_primary : Looks d (primary d entity) (.ok ((d.primary entity).map d.entry)) := by
  apply (looks_flatten hd entity).bind
  exact Looks.filterM fun c hc => .lift (Entry.isKey_eq (hd.finds hc))

theorem looks_isComposite : Looks d (isComposite d entity) (.ok (d.isComposite entity)) :=
  (looks_primary hd entity).returning (by rw [List.length_map, Document.isComposite])

theorem looks_uniqueGroups :
    Looks d (uniqueGroups d entity)
      (.ok ((d.uniqueGroups entity).map fun group => (group.1, group.2.map d.entry))) := by
  apply (looks_flatten hd entity).bind
  refine (looks_mapM fun c hc => Entry.labelled_eq (hd.finds hc)).returning ?_
  have hpairs : ((d.columns entity).map fun c =>
      if c.isValid then c.source.unique.map (·, d.entry c) else []).flatten =
        (d.labelled entity).map fun p => (p.1, d.entry p.2) := by
    unfold Document.labelled
    induction d.columns entity with
    | nil => rfl
    | cons c cs ih => cases hvalid : c.isValid <;> simp [hvalid, ih, Function.comp_def]
  simp only [hpairs, Document.uniqueGroups, List.map_map, Function.comp_def, List.filter_map]

theorem looks_fields :
    Looks d (fields d entity) (.ok ((d.fields entity).map d.entryField)) := by
  apply (looks_flatten hd entity).bind
  refine (Looks.mapM fun m _ => .lift (Entry.fieldsAt_eq (fun c => hd.finds) m)).returning ?_
  rw [Document.fields, List.map_flatMap, ← List.flatMap_def]

theorem looks_validEntries :
    Looks d (validEntries d entity) (.ok ((d.validColumns entity).map d.entry)) :=
  (looks_fields hd entity).returning (filterMap_valid? d _)

/-! ### Relations -/

theorem looks_keyOwners : Looks d (keyOwners d entity) (.ok (d.keyOwners entity)) := by
  apply (looks_primary hd entity).bind
  refine (looks_mapM (g := Column.owner) fun c hc => ?_).returning rfl
  exact (hd.finds (List.mem_filter.mp hc).1).owner

/-- What is looked up for each column that comes from a reference. -/
theorem looks_references {α : Type} {f : Entry → Lookup α} {g : Column → α}
    (hf : ∀ c, d.Finds c → Looks d (f (d.entry c)) (.ok (g c))) :
    Looks d (do ((← flatten d entity).filter fun e => !e.isDirect).mapM f)
      (.ok ((d.referenceColumns entity).map g)) := by
  apply (looks_flatten hd entity).bind
  rw [List.filter_map, List.mapM_map]
  exact Looks.mapM fun c hc => hf c (hd.finds (List.mem_filter.mp hc).1)

theorem looks_forwardRelations :
    Looks d (forwardRelations d entity) (.ok (d.forwardRelations entity)) := by
  apply (looks_isComposite hd entity).bind
  unfold Document.forwardRelations
  split
  · exact (looks_keyOwners hd entity).returning rfl
  · refine looks_references hd entity fun c hc => ?_
    exact (Looks.lift hc.owner).bind ((Looks.lift hc.source).returning rfl)

theorem looks_reverseRelations :
    Looks d (reverseRelations d entity) (.ok (d.reverseRelations entity)) := by
  apply (looks_isComposite hd entity).bind
  unfold Document.reverseRelations
  split
  · exact .pure []
  · exact looks_references hd entity fun c hc => (Looks.lift hc.owner).returning rfl

theorem looks_relations : Looks d (relations d) (.ok d.relations) := by
  apply (Looks.mapM fun entity _ => looks_forwardRelations hd entity).bind
  refine (Looks.mapM fun entity _ => looks_reverseRelations hd entity).returning ?_
  simp only [Document.relations, Document.suggestedRelations, List.flatMap_def]

theorem looks_columnsInto (target : EntityId) :
    Looks d (columnsInto d entity target) (.ok ((d.columnsInto entity target).map d.entry)) := by
  apply (looks_flatten hd entity).bind
  exact Looks.filterM fun c hc => .lift (Entry.pointsAt_eq (hd.finds hc) target)

theorem looks_assocKeys (r : Relation) :
    Looks d (assocKeys d r)
      (.ok ((r.assocKeys d).1.map d.entry, (r.assocKeys d).2.map d.entry)) := by
  unfold assocKeys Relation.assocKeys
  cases r.assoc with
  | none => exact .pure _
  | some assoc =>
      exact (looks_columnsInto hd assoc r.base).bind
        ((looks_columnsInto hd assoc r.has).bind (.pure _))

end Lookup

end Blueprint
