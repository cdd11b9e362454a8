import Blueprint.Proofs.Handles

/-! # Failing edits

An edit fails because its line cannot be read, or else on the first stale handle that it is
given. The line is read before any handle is looked up.
-/

namespace Blueprint

namespace Document

variable {d : Document}

/-! ### Lookups -/

theorem requireSchema_cases (d : Document) (id : SchemaId) :
    (∃ s, id ∈ d.handles .schema ∧ d.requireSchema id = .ok s) ∨
      id ∉ d.handles .schema ∧ d.requireSchema id = .error (.unknownSchema id) := by
  rw [← exists_schema?_iff, requireSchema]
  cases d.schema? id with
  | some s => exact Or.inl ⟨s, ⟨s, rfl⟩, rfl⟩
  | none => exact Or.inr ⟨by simp, rfl⟩

theorem requireEntity_cases (d : Document) (id : EntityId) :
    (∃ e, id ∈ d.handles .entity ∧ d.requireEntity id = .ok e) ∨
      id ∉ d.handles .entity ∧ d.requireEntity id = .error (.unknownEntity id) := by
  rw [← exists_entity?_iff, requireEntity]
  cases d.entity? id with
  | some e => exact Or.inl ⟨e, ⟨e, rfl⟩, rfl⟩
  | none => exact Or.inr ⟨by simp, rfl⟩

theorem exists_member?_iff {id : AttrId} :
    (∃ m, d.member? id = some m) ↔ id ∈ d.handles .attr := by
  simp [← Option.isSome_iff_exists, member?, handles, List.find?_isSome]

theorem requireMember_cases (d : Document) (id : AttrId) :
    (∃ m, id ∈ d.handles .attr ∧ d.requireMember id = .ok m) ∨
      id ∉ d.handles .attr ∧ d.requireMember id = .error (.unknownAttribute id) := by
  rw [← exists_member?_iff, requireMember]
  cases d.member? id with
  | some m => exact Or.inl ⟨m, ⟨m, rfl⟩, rfl⟩
  | none => exact Or.inr ⟨by simp, rfl⟩

/-- The fault that reading a line ends in. -/
def lineFault? (line : String) : Option Fault :=
  match Attribute.ofLine line with
  | .ok _ => none
  | .error f => some f

theorem lineFault?_eq_some_iff {line : String} {f : Fault} :
    lineFault? line = some f ↔ Attribute.ofLine line = .error f := by
  unfold lineFault?
  cases Attribute.ofLine line <;> simp

theorem lineFault?_eq_none_iff {line : String} :
    lineFault? line = none ↔ ∃ a, Attribute.ofLine line = .ok a := by
  unfold lineFault?
  cases Attribute.ofLine line <;> simp

theorem readLine_cases (line : String) :
    (∃ a, lineFault? line = none ∧ readLine line = .ok a) ∨
      ∃ f, lineFault? line = some f ∧ readLine line = .error (.fault f) := by
  unfold readLine lineFault?
  cases Attribute.ofLine line with
  | ok a => exact Or.inl ⟨a, rfl, rfl⟩
  | error f => exact Or.inr ⟨f, rfl, rfl⟩

end Document

/-! ### When an edit fails -/

/-- The handles that must be on nodes for an edit, in the order in which they are looked up. -/
def Edit.given : Edit → List (Σ sort, Handle sort)
  | renameSchema id _ | removeSchema id | addEntity id _ => [⟨.schema, id⟩]
  | renameEntity id _ | removeEntity id | addAttribute id _ | insertAttribute id _ =>
    [⟨.entity, id⟩]
  | replaceAttribute id _ | removeAttribute id => [⟨.attr, id⟩]
  | setReference id target => [⟨.entity, target⟩, ⟨.attr, id⟩]
  | addSchema _ | resolveReference _ | resolveReferences | setMaxDepth _ => []

/-- The fault that the line of an edit ends in. -/
def Edit.fault? : Edit → Option Fault
  | addAttribute _ line | replaceAttribute _ line => Document.lineFault? line
  | _ => none

/-- The failure to find the node of a handle. -/
def EditError.unknown : (Σ sort, Handle sort) → EditError
  | ⟨.schema, id⟩ => unknownSchema id
  | ⟨.entity, id⟩ => unknownEntity id
  | ⟨.attr, id⟩ => unknownAttribute id

namespace Document

variable {d : Document} {e : Edit}

/-- The first of the handles given to an edit that is on no node. -/
def firstStale? (d : Document) (e : Edit) : Option (Σ sort, Handle sort) :=
  e.given.find? fun h => h.2 ∉ d.handles h.1

/-- An edit fails where a lookup does, and in no other way. -/
def FailsLike {α : Type} (d : Document) (e : Edit) : Except EditError α → Prop
  | .ok _ => ∃ next answer, d.edit e = .ok (next, answer)
  | .error err => d.edit e = .error err

/-- An edit without a fault ends on the first stale handle, or it succeeds. -/
def EndsByHandles (d : Document) (e : Edit) : Prop :=
  (∃ h, d.firstStale? e = some h ∧ d.edit e = .error (.unknown h)) ∨
    d.firstStale? e = none ∧ ∃ next answer, d.edit e = .ok (next, answer)

theorem FailsLike.endsByHandles {α : Type} {find : Except EditError α} {h : Σ sort, Handle sort}
    (hedit : d.FailsLike e find) (hgiven : e.given = [h])
    (hfind : (∃ a, h.2 ∈ d.handles h.1 ∧ find = .ok a) ∨
      h.2 ∉ d.handles h.1 ∧ find = .error (.unknown h)) :
    d.EndsByHandles e := by
  rcases hfind with ⟨a, hlive, rfl⟩ | ⟨hstale, rfl⟩
  · exact Or.inr ⟨by simp [firstStale?, hgiven, hlive], hedit⟩
  · exact Or.inl ⟨h, by simp [firstStale?, hgiven, hstale], hedit⟩

theorem endsByHandles_of_total (hgiven : e.given = [])
    (hedit : ∃ next answer, d.edit e = .ok (next, answer)) : d.EndsByHandles e :=
  Or.inr ⟨by simp [firstStale?, hgiven], hedit⟩

/-- The target is looked up first. -/
theorem endsByHandles_setReference (d : Document) (id : AttrId) (target : EntityId) :
    d.EndsByHandles (.setReference id target) := by
  unfold EndsByHandles firstStale?
  simp only [Edit.given, edit, setReference]
  rcases d.requireEntity_cases target with ⟨e, htarget, hok⟩ | ⟨hstale, herr⟩
  · rcases d.requireMember_cases id with ⟨m, hid, hok'⟩ | ⟨hstale, herr⟩
    · refine Or.inr ⟨by simp [htarget, hid], ?_⟩
      simp only [hok, hok']
      exact ⟨_, _, rfl⟩
    · refine Or.inl ⟨⟨.attr, id⟩, by simp [htarget, hstale], ?_⟩
      simp only [hok, herr]
      rfl
  · refine Or.inl ⟨⟨.entity, target⟩, by simp [hstale], ?_⟩
    simp only [herr]
    rfl

/-- An edit ends in the fault of its line, or on the first stale handle, or it succeeds. -/
theorem edit_cases (d : Document) (e : Edit) :
    (∃ f, e.fault? = some f ∧ d.edit e = .error (.fault f)) ∨
      e.fault? = none ∧ d.EndsByHandles e := by
  cases e with
  | addSchema name => exact Or.inr ⟨rfl, endsByHandles_of_total rfl ⟨_, _, rfl⟩⟩
  | renameSchema id name =>
      refine Or.inr ⟨rfl, FailsLike.endsByHandles ?_ rfl (d.requireSchema_cases id)⟩
      simp only [FailsLike, edit, renameSchema]
      cases d.requireSchema id with
      | ok _ => exact ⟨_, _, rfl⟩
      | error _ => rfl
  | removeSchema id =>
      refine Or.inr ⟨rfl, FailsLike.endsByHandles ?_ rfl (d.requireSchema_cases id)⟩
      simp only [FailsLike, edit, removeSchema]
      cases d.requireSchema id with
      | ok _ => exact ⟨_, _, rfl⟩
      | error _ => rfl
  | addEntity schema name =>
      refine Or.inr ⟨rfl, FailsLike.endsByHandles ?_ rfl (d.requireSchema_cases schema)⟩
      simp only [FailsLike, edit, addEntity]
      cases d.requireSchema schema with
      | ok _ => exact ⟨_, _, rfl⟩
      | error _ => rfl
  | renameEntity id name =>
      refine Or.inr ⟨rfl, FailsLike.endsByHandles ?_ rfl (d.requireEntity_cases id)⟩
      simp only [FailsLike, edit, renameEntity]
      cases d.requireEntity id with
      | ok _ => exact ⟨_, _, rfl⟩
      | error _ => rfl
  | removeEntity id =>
      refine Or.inr ⟨rfl, FailsLike.endsByHandles ?_ rfl (d.requireEntity_cases id)⟩
      simp only [FailsLike, edit, removeEntity]
      cases d.requireEntity id with
      | ok _ => exact ⟨_, _, rfl⟩
      | error _ => rfl
  | addAttribute entity line =>
      -- The line is read before the entity is looked up.
      rcases readLine_cases line with ⟨a, hfault, hline⟩ | ⟨f, hfault, hline⟩
      · refine Or.inr ⟨hfault, FailsLike.endsByHandles ?_ rfl (d.requireEntity_cases entity)⟩
        simp only [FailsLike, edit, addAttribute, insertAttribute, attach, hline]
        cases d.requireEntity entity with
        | ok _ => exact ⟨_, _, rfl⟩
        | error _ => rfl
      · refine Or.inl ⟨f, hfault, ?_⟩
        simp only [edit, addAttribute, hline]
        rfl
  | insertAttribute entity a =>
      refine Or.inr ⟨rfl, FailsLike.endsByHandles ?_ rfl (d.requireEntity_cases entity)⟩
      simp only [FailsLike, edit, insertAttribute, attach]
      cases d.requireEntity entity with
      | ok _ => exact ⟨_, _, rfl⟩
      | error _ => rfl
  | replaceAttribute id line =>
      rcases readLine_cases line with ⟨a, hfault, hline⟩ | ⟨f, hfault, hline⟩
      · refine Or.inr ⟨hfault, FailsLike.endsByHandles ?_ rfl (d.requireMember_cases id)⟩
        simp only [FailsLike, edit, replaceAttribute, hline]
        cases d.requireMember id with
        | ok _ => exact ⟨_, _, rfl⟩
        | error _ => rfl
      · refine Or.inl ⟨f, hfault, ?_⟩
        simp only [edit, replaceAttribute, hline]
        rfl
  | removeAttribute id =>
      refine Or.inr ⟨rfl, FailsLike.endsByHandles ?_ rfl (d.requireMember_cases id)⟩
      simp only [FailsLike, edit, removeAttribute]
      cases d.requireMember id with
      | ok _ => exact ⟨_, _, rfl⟩
      | error _ => rfl
  | setReference id target => exact Or.inr ⟨rfl, endsByHandles_setReference d id target⟩
  | resolveReference id => exact Or.inr ⟨rfl, endsByHandles_of_total rfl ⟨_, _, rfl⟩⟩
  | resolveReferences => exact Or.inr ⟨rfl, endsByHandles_of_total rfl ⟨_, _, rfl⟩⟩
  | setMaxDepth n => exact Or.inr ⟨rfl, endsByHandles_of_total rfl ⟨_, _, rfl⟩⟩

end Document

end Blueprint
