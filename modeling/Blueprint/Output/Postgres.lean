import Blueprint.Attribute.Check
import Blueprint.Document.Column
import Blueprint.HandleMap
import Blueprint.Output.FileId
import Blueprint.Sort

/-! # Postgres tables

One file for the whole document: its schemas, then its tables in an order in which
referenced tables come first. Tables that depend on each other in a circle, or on
such a circle, come last.
-/

namespace Blueprint.Output.Postgres

open Text

def typeName : Kind → String
  | .unknown | .reference => "???"
  | .serial => "SERIAL"
  | .int => "INT"
  | .char => "CHARACTER"
  | .string => "VARCHAR"
  | .bit => "BIT"
  | .boolean => "BOOLEAN"
  | .date => "DATE"
  | .time => "TIME"
  | .timestamp => "TIMESTAMP"
  | .float => "FLOAT"
  | .real => "REAL"
  | .decimal => "DECIMAL"
  | .money => "MONEY"

def fieldName (c : Column) : String :=
  c.name

/-! ### Columns -/

/-- The text with every quote doubled. -/
def doubleQuotes (s : String) : String :=
  .ofList (s.toList.flatMap fun c => if c = '\'' then ['\'', '\''] else [c])

/-- The text as a quoted literal. -/
def quoted (s : String) : String :=
  "'" ++ doubleQuotes s ++ "'"

/-- A default value or a bound as a literal. -/
def literal (kind : Kind) (value : String) : String :=
  match kind with
  | .date => if value = Attribute.now then "CURRENT_DATE" else quoted value
  | .time => if value = Attribute.now then "CURRENT_TIME" else quoted value
  | .timestamp => if value = Attribute.now then "CURRENT_TIMESTAMP" else quoted value
  | .boolean => upper value
  | .bit => "B'" ++ value ++ "'"
  | .money => "'" ++ value ++ "'::money"
  | .char | .string => quoted value
  | _ => value

/-- Kinds whose values are compared with the bounds of their range. -/
def checksValue : Kind → Bool
  | .int | .float | .real | .decimal | .money | .date | .time | .timestamp => true
  | _ => false

/-- The condition that a range puts on a column. The upper bound of a text is the size of
its column and needs no condition. -/
def check? (column : String) (kind : Kind) (min max : Option String) : Option String :=
  if kind = .string then min.map fun low => "char_length(" ++ column ++ ") >= " ++ low
  else if checksValue kind then
    match min, max with
    | some low, some high =>
      some (column ++ " BETWEEN " ++ literal kind low ++ " AND " ++ literal kind high)
    | some low, none => some (column ++ " >= " ++ literal kind low)
    | none, some high => some (column ++ " <= " ++ literal kind high)
    | none, none => none
  else none

/-- A type with the size of the stored attribute, if it has one. -/
def sizedType (kind : Kind) (terminal : Attribute) : String :=
  let base := typeName kind
  if kind = .string || kind = .bit then
    match terminal.maxSize? with
    | some size => base ++ "(" ++ toString size ++ ")"
    | none => base
  else base

/-- The default value and the condition of a column that the entity itself declares. -/
def optionsText (name : String) (kind : Kind) (source terminal : Attribute) : String :=
  let value := (terminal.defaultValue.map fun v => " DEFAULT " ++ literal kind v).getD ""
  let condition := (check? name kind source.min source.max).map fun s => " CHECK (" ++ s ++ ")"
  value ++ condition.getD ""

/-- The definition of a column, given the attributes at the ends of its chain. -/
def definitionText (name : String) (kind : Kind) (isDirect : Bool) (source terminal : Attribute) :
    String :=
  name ++ " " ++ sizedType kind terminal ++
  (if source.required || source.primary then " NOT NULL" else "") ++
  (if isDirect then optionsText name kind source terminal else "")

def columnType (c : Column) : String :=
  sizedType c.storageKind c.terminal.toAttribute

def columnOptions (c : Column) : String :=
  optionsText (fieldName c) c.storageKind c.source.toAttribute c.terminal.toAttribute

def columnText (c : Column) : String :=
  definitionText (fieldName c) c.storageKind c.isDirect c.source.toAttribute c.terminal.toAttribute

/-! ### Tables -/

/-- The columns by which a reference points at another table. -/
structure ForeignKey where
  via : EntityId
  columns : List String
  targets : List String
deriving DecidableEq, Repr

/-- A column that comes from a reference, and the column that it points at. -/
structure Pointer where
  source : AttrId
  via : EntityId
  column : String
  target : String
deriving DecidableEq, Repr

def pointer? (c : Column) : Option Pointer :=
  match c.via?, c.viaColumn? with
  | some via, some target => some ⟨c.source.id, via, c.name, target⟩
  | _, _ => none

/-- The foreign key of a reference with one more column. -/
def ForeignKey.extend (p : Pointer) : Option ForeignKey → ForeignKey
  | none => ⟨p.via, [p.column], [p.target]⟩
  | some key => { key with
      columns := key.columns ++ [p.column], targets := key.targets ++ [p.target] }

/-- The foreign keys by the references they come from. -/
def collectKeys (pointers : List Pointer) : HandleMap .attr ForeignKey :=
  pointers.foldl (fun keys p => keys.alter p.source (.extend p)) []

/-- One foreign key per reference, in the order of their handles. -/
def foreignKeys (d : Document) (entity : EntityId) : List ForeignKey :=
  (collectKeys ((d.validColumns entity).filterMap pointer?)).map Prod.snd

/-- A line between the brackets of a table. Only definitions are separated by commas. -/
inductive Item where
  | definition (text : String)
  | comment (text : String)
deriving DecidableEq, Repr

def Item.ofField : Field → Item
  | .valid c => .definition (columnText c)
  | .invalid name defects => .comment ("-- " ++ name ++ " has errors: " ++ defects)

/-- Column names between brackets. -/
def columnList (columns : List String) : String :=
  "(" ++ joinWith ", " columns ++ ")"

def keyItems (d : Document) (entity : EntityId) : List Item :=
  match (d.primary entity).map Column.name with
  | [] => []
  | names => [.definition ("PRIMARY KEY " ++ columnList names)]

def uniqueItems (d : Document) (entity : EntityId) : List Item :=
  (d.uniqueGroups entity).map fun (_, columns) =>
    .definition ("UNIQUE " ++ columnList (columns.map Column.name))

def foreignKeyText (d : Document) (key : ForeignKey) : String :=
  "FOREIGN KEY " ++ columnList key.columns ++ " REFERENCES " ++ d.qualifiedName key.via ++ " " ++
    columnList key.targets

/-- What stands between the brackets of a table. -/
def items (d : Document) (entity : EntityId) : List Item :=
  (d.fields entity).map .ofField ++ keyItems d entity ++ uniqueItems d entity ++
  (foreignKeys d entity).map fun key => .definition (foreignKeyText d key)

def Item.isDefinition : Item → Bool
  | definition _ => true
  | comment _ => false

/-- The lines of the items, with a comma after each definition that another one follows. -/
def itemLines : List Item → List String
  | [] => []
  | .comment text :: rest => ("    " ++ text) :: itemLines rest
  | .definition text :: rest =>
    ("    " ++ text ++ if rest.any Item.isDefinition then "," else "") :: itemLines rest

def tableLines (d : Document) (entity : EntityId) : List String :=
  ["CREATE TABLE " ++ d.qualifiedName entity ++ " ("] ++ itemLines (items d entity) ++ [");"]

/-! ### Order of tables -/

/-- The other entities that an entity refers to. -/
def dependencies (d : Document) (entity : EntityId) : List EntityId :=
  ((d.columns entity).filterMap Column.via?).filter (· ≠ entity)

/-- Levels of entities. -/
abbrev Levels := HandleMap .entity Nat

/-- One above the largest level, or the lowest one if there is none. -/
def levelAbove (levels : List Nat) : Nat :=
  levels.max?.elim 0 (· + 1)

/-- Give an entity a level, unless it has one or depends on an entity without one. The flag
is set if it gets one. -/
def visit (state : Levels × Bool) (entry : EntityId × List EntityId) : Levels × Bool :=
  if (state.1.lookup entry.1).isSome then state
  else
    let below := entry.2.filterMap fun v => state.1.lookup v
    if below.length = entry.2.length then (state.1.insert entry.1 (levelAbove below), true)
    else state

/-- Visit all entities once. The flag says whether one of them got a level. -/
def pass (parents : HandleMap .entity (List EntityId)) (levels : Levels) : Levels × Bool :=
  parents.foldl visit (levels, false)

/-- How many entities have no level. -/
def unplaced (parents : HandleMap .entity (List EntityId)) (levels : Levels) : Nat :=
  (parents.filter fun entry => (levels.lookup entry.1).isNone).length

/-- A visit keeps the levels that were given before. -/
theorem lookup_visit {state : Levels × Bool} {entry : EntityId × List EntityId} {e : EntityId}
    (hgiven : (state.1.lookup e).isSome) :
    (visit state entry).1.lookup e = state.1.lookup e := by
  unfold visit
  split
  · rfl
  next hnone =>
    dsimp only
    split
    · rw [HandleMap.lookup_insert, if_neg]
      rintro rfl
      exact hnone hgiven
    · rfl

theorem lookup_foldl_visit {parents : HandleMap .entity (List EntityId)} {state : Levels × Bool}
    {e : EntityId} (hgiven : (state.1.lookup e).isSome) :
    (parents.foldl visit state).1.lookup e = state.1.lookup e := by
  induction parents generalizing state with
  | nil => rfl
  | cons entry parents ih =>
      have hstep : (visit state entry).1.lookup e = state.1.lookup e := lookup_visit hgiven
      rw [List.foldl_cons, ih (hstep ▸ hgiven), hstep]

/-- If the flag is set, some entity without a level has got one. -/
theorem exists_placed_of_pass {parents : HandleMap .entity (List EntityId)} {state : Levels × Bool}
    (hchanged : (parents.foldl visit state).2) (hbefore : state.2 = false) :
    ∃ entry ∈ parents, state.1.lookup entry.1 = none ∧
      ((parents.foldl visit state).1.lookup entry.1).isSome := by
  induction parents generalizing state with
  | nil => simp [hbefore] at hchanged
  | cons entry parents ih =>
      rw [List.foldl_cons] at hchanged ⊢
      by_cases hvisit : visit state entry = state
      · rw [hvisit] at hchanged ⊢
        obtain ⟨placed, hmem, hplaced⟩ := ih hchanged hbefore
        exact ⟨placed, List.mem_cons_of_mem _ hmem, hplaced⟩
      · refine ⟨entry, List.mem_cons_self, ?_⟩
        -- The visit has changed something, so the entity had no level and has one now.
        unfold visit at hvisit
        split at hvisit
        · exact absurd rfl hvisit
        next hnone =>
          dsimp only at hvisit
          split at hvisit
          next hready =>
            have hnow : ((visit state entry).1.lookup entry.1).isSome := by
              simp only [visit, hnone, hready, if_true, Bool.false_eq_true, if_false,
                HandleMap.lookup_insert, Option.isSome_some]
            refine ⟨Option.not_isSome_iff_eq_none.mp hnone, ?_⟩
            rw [lookup_foldl_visit hnow]
            exact hnow
          next => exact absurd rfl hvisit

/-- A pass that gives a level leaves fewer entities without one. -/
theorem unplaced_pass {parents : HandleMap .entity (List EntityId)} {levels : Levels}
    (hchanged : (pass parents levels).2) :
    unplaced parents (pass parents levels).1 < unplaced parents levels := by
  obtain ⟨entry, hmem, hnone, hplaced⟩ := exists_placed_of_pass hchanged rfl
  have hrest : (parents.filter fun entry => ((pass parents levels).1.lookup entry.1).isNone) =
      (parents.filter fun entry => (levels.lookup entry.1).isNone).filter
        fun entry => ((pass parents levels).1.lookup entry.1).isNone := by
    rw [List.filter_filter]
    apply List.filter_congr
    intro other _
    cases hgiven : levels.lookup other.1 with
    | none => simp
    | some level =>
        have hkept : (pass parents levels).1.lookup other.1 = levels.lookup other.1 :=
          lookup_foldl_visit (by simp [hgiven])
        simp only [hkept, hgiven, Option.isNone_some, Bool.false_and]
  unfold unplaced
  rw [hrest, List.length_filter_lt_length_iff_exists]
  refine ⟨entry, List.mem_filter.mpr ⟨hmem, by rw [hnone]; rfl⟩, ?_⟩
  rw [Option.isNone_iff_eq_none]
  exact Option.isSome_iff_ne_none.mp hplaced

/-- The levels after passes until one of them changes nothing. -/
def levelsFrom (parents : HandleMap .entity (List EntityId)) (levels : Levels) : Levels :=
  if (pass parents levels).2 then levelsFrom parents (pass parents levels).1
  else (pass parents levels).1
termination_by unplaced parents levels
decreasing_by exact unplaced_pass ‹_›

/-- The levels of entities that are listed with their dependencies. -/
def levelsOf (pending : List (EntityId × List EntityId)) : Levels :=
  levelsFrom (.ofList (pending.map fun entry => (entry.1, HandleMap.handleSet entry.2))) []

/-- Whether a level, position and entity do not come after others. -/
def ranksFirst (a b : Nat × Nat × EntityId) : Bool :=
  a.1 < b.1 || a.1 = b.1 &&
    (a.2.1 < b.2.1 || a.2.1 = b.2.1 && decide (a.2.2.number ≤ b.2.2.number))

/-- The listed entities by level and then by position. Those without a level come last. -/
def orderByLevel (levels : Levels) (ids : List EntityId) : List EntityId :=
  let top := levelAbove (levels.map Prod.snd)
  let ranked := ids.zipIdx.map fun (id, position) => ((levels.lookup id).getD top, position, id)
  (sortBy ranksFirst ranked).map fun rank => rank.2.2

/-- The entities with their dependencies, in document order. -/
def pendingTables (d : Document) : List (EntityId × List EntityId) :=
  d.entities.map fun e => (e.id, dependencies d e.id)

/-- The listed entities in the order their tables are created. -/
def orderTables (pending : List (EntityId × List EntityId)) : List EntityId :=
  orderByLevel (levelsOf pending) (pending.map Prod.fst)

/-- The entities in the order their tables are created. -/
def tableOrder (d : Document) : List EntityId :=
  orderTables (pendingTables d)

/-! ### The file -/

def schemaLines (s : Schema) : List String :=
  ["", "CREATE SCHEMA IF NOT EXISTS " ++ s.name ++ ";"]

def fileLines (d : Document) : List String :=
  ["-- Code generated by schemagen. DO NOT EDIT."] ++
  d.schemas.flatMap schemaLines ++
  (tableOrder d).flatMap fun entity => "" :: tableLines d entity

def fileId : FileId := ⟨"", "tables.sql"⟩

def generate (d : Document) : Files :=
  [(fileId, unlines (fileLines d))]

end Blueprint.Output.Postgres
