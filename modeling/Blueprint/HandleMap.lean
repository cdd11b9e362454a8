import Blueprint.Handle

/-! # Values by handle

A map from handles to values is kept as a list in increasing order of the handles. Whoever
goes through it meets the values in that order.
-/

namespace Blueprint

/-- Values by handle, in increasing order of the handles. -/
abbrev HandleMap (sort : NodeSort) (α : Type) := List (Handle sort × α)

namespace HandleMap

variable {sort : NodeSort} {α : Type}

/-- Put a value under a handle, given the one that is there. -/
def alter (h : Handle sort) (f : Option α → α) : HandleMap sort α → HandleMap sort α
  | [] => [(h, f none)]
  | (other, a) :: rest =>
    if h.number < other.number then (h, f none) :: (other, a) :: rest
    else if h = other then (h, f (some a)) :: rest
    else (other, a) :: alter h f rest

def insert (h : Handle sort) (a : α) (values : HandleMap sort α) : HandleMap sort α :=
  alter h (fun _ => a) values

/-- Under every other handle there is what was there before. -/
theorem lookup_alter_of_ne {h k : Handle sort} (hne : k ≠ h) (f : Option α → α)
    (values : HandleMap sort α) : (alter h f values).lookup k = values.lookup k := by
  have hother : (k == h) = false := by simpa using hne
  induction values with
  | nil => simp [alter, List.lookup_cons, hother]
  | cons entry rest ih =>
      obtain ⟨other, value⟩ := entry
      unfold alter
      split
      · simp [List.lookup_cons, hother]
      · split
        next heq => simp [List.lookup_cons, ← heq, hother]
        next => simp only [List.lookup_cons, ih]

theorem lookup_insert (h k : Handle sort) (a : α) (values : HandleMap sort α) :
    (insert h a values).lookup k = if k = h then some a else values.lookup k := by
  split
  next heq =>
    subst heq
    unfold insert
    induction values with
    | nil => simp [alter]
    | cons entry rest ih =>
        obtain ⟨other, value⟩ := entry
        unfold alter
        split
        · simp
        · split
          next => simp
          next hne =>
            have hother : (k == other) = false := by simpa using hne
            simpa [List.lookup_cons, hother] using ih
  next hne => exact lookup_alter_of_ne hne _ values

/-- The last of the values that are listed for each handle. -/
def ofList (entries : List (Handle sort × α)) : HandleMap sort α :=
  entries.foldl (fun values (h, a) => insert h a values) []

/-- The given handles in increasing order, each of them once. -/
def handleSet (handles : List (Handle sort)) : List (Handle sort) :=
  (ofList (handles.map (·, ()))).map Prod.fst

end HandleMap

end Blueprint
