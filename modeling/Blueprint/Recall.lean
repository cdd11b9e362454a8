import Blueprint.Document.Walk

/-! # Remembered columns

To work out the columns of an entity takes a walk along its references, so a document
remembers them from the first time they are asked for.
-/

namespace Blueprint

/-- What is remembered, entity by entity. -/
abbrev Memo := List (EntityId × List Entry)

/-- A computation that looks into a memo and adds to it. -/
abbrev Recall := StateM Memo

/-- The columns of an entity, worked out unless they are remembered. Nothing is remembered
of a stale handle. -/
def Recall.flatten (d : Document) (entity : EntityId) : Recall (List Entry) := do
  if (d.entity? entity).isNone then return []
  match (← get).lookup entity with
  | some entries => return entries
  | none =>
    let entries := d.entries entity
    modify ((entity, entries) :: ·)
    return entries

end Blueprint
