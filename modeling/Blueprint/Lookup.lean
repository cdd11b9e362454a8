import Blueprint.Fault
import Blueprint.Recall
import Blueprint.Relation

/-! # Columns by handle

What is remembered of a column names its attributes by handle. Whatever else is asked
about them is looked up in the document as it is at that time, and a stale handle stops
the computation.
-/

namespace Blueprint

namespace Document

variable (d : Document)

/-! ### Lookups -/

def memberAt (id : AttrId) : Except Fault Member :=
  match d.member? id with
  | some m => .ok m
  | none => .error .staleAttribute

def entityAt (id : EntityId) : Except Fault Entity :=
  match d.entity? id with
  | some e => .ok e
  | none => .error .staleEntity

/-- The entity that declares an attribute. -/
def ownerAt (id : AttrId) : Except Fault EntityId :=
  match d.ownerOf? id with
  | some e => .ok e.id
  | none => .error .staleAttribute

end Document

namespace Entry

def name (e : Entry) : String :=
  Column.nameOf e.segments

/-- The name of the column that is pointed at in the entity `via?`. -/
def viaColumn? (e : Entry) : Option String :=
  if e.segments.length < 2 then none else some (Column.nameOf e.segments.tail)

variable (d : Document)

def isValid (e : Entry) : Except Fault Bool := do
  if (← d.memberAt e.source).hasDefect then return false
  else return !(← d.memberAt e.terminal).hasDefect

/-- Whether the column belongs to the key of its entity. -/
def isKey (e : Entry) : Except Fault Bool := do
  if ← e.isValid d then return (← d.memberAt e.source).primary
  else return false

def storageKind (e : Entry) : Except Fault Kind := do
  return (← d.memberAt e.terminal).kind.stored e.isDirect

/-- Whether the column holds a part of the key of `target`. -/
def pointsAt (target : EntityId) (e : Entry) : Except Fault Bool := do
  if e.isDirect then return false
  else return (← d.ownerAt e.terminal) = target

/-- The column under each of its uniqueness labels, if it is valid. -/
def labelled (e : Entry) : Except Fault (List (String × Entry)) := do
  if ← e.isValid d then return (← d.memberAt e.source).unique.map (·, e)
  else return []

/-- A place among the fields of an entity. -/
inductive Field where
  | valid (e : Entry)
  | invalid (name : String) (defects : String)
deriving DecidableEq, Repr

def Field.valid? : Field → Option Entry
  | valid e => some e
  | invalid _ _ => none

/-- A column as a field. -/
def field (e : Entry) : Except Fault Field := do
  if ← e.isValid d then return .valid e
  else return .invalid e.name (← d.memberAt e.terminal).defectText

/-- What stands in the place of an attribute, given the columns of its entity. -/
def fieldsAt (entries : List Entry) (m : Member) : Except Fault (List Field) :=
  if m.hasDefect then return [.invalid (Text.replaceChar '.' '_' m.segment) m.defectText]
  else (entries.filter fun e => e.source = m.id).mapM (field d)

end Entry

/-- A computation that looks into a memo and looks handles up. -/
abbrev Lookup := ExceptT Fault Recall

namespace Lookup

variable (d : Document) (entity : EntityId)

/-! ### Questions about columns -/

def flatten : Lookup (List Entry) :=
  Recall.flatten d entity

def primary : Lookup (List Entry) := do
  (← flatten d entity).filterM fun e => e.isKey d

def isComposite : Lookup Bool := do
  return 1 < (← primary d entity).length

def uniqueGroups : Lookup (List (String × List Entry)) := do
  let pairs := (← (← flatten d entity).mapM fun e => e.labelled d).flatten
  let labels := (distinctBy id (pairs.map Prod.fst)).mergeSort fun a b => decide (a ≤ b)
  return labels.map fun label => (label, (pairs.filter fun p => p.1 = label).map Prod.snd)

def fields : Lookup (List Entry.Field) := do
  let entries ← flatten d entity
  return (← (d.attributesOf entity).mapM fun m => Entry.fieldsAt d entries m).flatten

def validEntries : Lookup (List Entry) := do
  return (← fields d entity).filterMap Entry.Field.valid?

/-! ### Relations -/

def keyOwners : Lookup (List EntityId) := do
  return distinctBy id (← (← primary d entity).mapM fun e => d.ownerAt e.terminal)

def forwardRelations : Lookup (List Relation) := do
  if ← isComposite d entity then
    return (orderedPairs (← keyOwners d entity)).map fun (base, has) =>
      ⟨base, has, some entity, true, true⟩
  else
    ((← flatten d entity).filter fun e => !e.isDirect).mapM fun e => do
      return ⟨entity, ← d.ownerAt e.terminal, none, false, !(← d.memberAt e.source).required⟩

def reverseRelations : Lookup (List Relation) := do
  if ← isComposite d entity then return []
  else
    ((← flatten d entity).filter fun e => !e.isDirect).mapM fun e => do
      return ⟨← d.ownerAt e.terminal, entity, none, true, true⟩

def relations : Lookup (List Relation) := do
  let ids := d.entities.map Entity.id
  let forward ← ids.mapM (forwardRelations d)
  let reverse ← ids.mapM (reverseRelations d)
  return distinctBy (fun r => (r.base, r.has)) (forward.flatten ++ reverse.flatten)

/-- The columns of `entity` that hold the key of `target`. -/
def columnsInto (target : EntityId) : Lookup (List Entry) := do
  (← flatten d entity).filterM fun e => e.pointsAt d target

def baseToHas (r : Relation) : Lookup (List Entry) :=
  columnsInto d r.base r.has

def hasToBase (r : Relation) : Lookup (List Entry) :=
  columnsInto d r.has r.base

def assocKeys (r : Relation) : Lookup (List Entry × List Entry) := do
  match r.assoc with
  | some assoc => return (← columnsInto d assoc r.base, ← columnsInto d assoc r.has)
  | none => return ([], [])

end Lookup

end Blueprint
