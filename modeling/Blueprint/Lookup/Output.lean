import Blueprint.Lookup
import Blueprint.Output.Backend

/-! # Files from columns by handle

The backends get columns as handles and look up what they write about them.
-/

namespace Blueprint.Lookup

open Output

variable (d : Document)

namespace Postgres

open Output.Postgres

def columnText (e : Entry) : Except Fault String := do
  let kind ← e.storageKind d
  let terminal ← d.memberAt e.terminal
  let source ← d.memberAt e.source
  return definitionText e.name kind e.isDirect source.toAttribute terminal.toAttribute

def fieldItem : Entry.Field → Except Fault Item
  | .valid e => do return .definition (← columnText d e)
  | .invalid name defects => return .comment ("-- " ++ name ++ " has errors: " ++ defects)

def pointer? (e : Entry) : Option Pointer :=
  match e.via?, e.viaColumn? with
  | some via, some target => some ⟨e.source, via, e.name, target⟩
  | _, _ => none

def foreignKeys (entity : EntityId) : Lookup (List ForeignKey) := do
  return (collectKeys ((← validEntries d entity).filterMap pointer?)).map Prod.snd

def keyItems (entity : EntityId) : Lookup (List Item) := do
  match (← primary d entity).map Entry.name with
  | [] => return []
  | names => return [.definition ("PRIMARY KEY " ++ columnList names)]

def uniqueItems (entity : EntityId) : Lookup (List Item) := do
  return (← uniqueGroups d entity).map fun (_, entries) =>
    .definition ("UNIQUE " ++ columnList (entries.map Entry.name))

def items (entity : EntityId) : Lookup (List Item) := do
  let columns ← (← fields d entity).mapM fun field => fieldItem d field
  let key ← keyItems d entity
  let unique ← uniqueItems d entity
  let foreign ← foreignKeys d entity
  return columns ++ key ++ unique ++ foreign.map fun key => .definition (foreignKeyText d key)

def tableLines (entity : EntityId) : Lookup (List String) := do
  return ["CREATE TABLE " ++ d.qualifiedName entity ++ " ("] ++
    itemLines (← items d entity) ++ [");"]

def dependencies (entity : EntityId) : Lookup (List EntityId) := do
  return ((← flatten d entity).filterMap Entry.via?).filter (· ≠ entity)

def tableOrder : Lookup (List EntityId) := do
  return orderTables (← d.entities.mapM fun e => do return (e.id, ← dependencies d e.id))

def fileLines : Lookup (List String) := do
  let tables ← (← tableOrder d).mapM fun entity => do return "" :: (← tableLines d entity)
  return ["-- Code generated by schemagen. DO NOT EDIT."] ++ d.schemas.flatMap schemaLines ++
    tables.flatten

def generate : Lookup Files := do
  return [(fileId, Text.unlines (← fileLines d))]

end Postgres

namespace Go

open Output.Go

def fieldType (e : Entry) : Except Fault String := do
  let kind ← e.storageKind d
  return typeText kind (← d.memberAt e.source).toAttribute

/-- The cells of a field line. -/
def cells (e : Entry) : Except Fault (List String) := do
  return [pascalName e.name, ← fieldType d e, tagText e.name]

/-- A relation in words. -/
def describe (r : Relation) : Except Fault String := do
  let base := pascalName (← d.entityAt r.base).name
  let through ← r.assoc.mapM fun assoc => do return pascalName (← d.entityAt assoc).name
  return relationText r base (pascalName (r.hasName d)) through

/-- The comment that stands for a field, if it is not valid. -/
def comment? : Entry.Field → Option String
  | .valid _ => none
  | .invalid name defects => some (commentText name defects)

/-- The lines between the brackets of a struct. -/
def bodyLines (fields : List Entry.Field) : Except Fault (List String) := do
  let rows ← (fields.filterMap Entry.Field.valid?).mapM (cells d)
  return interleave comment? (Grid.render Text.width rows) fields

def structLines (relations : List Relation) (e : Entity) : Lookup (List String) := do
  let comments ← (Relation.withBase e.id relations).mapM fun r => describe d r
  let body ← bodyLines d (← fields d e.id)
  return comments.map ("// " ++ ·) ++ ["type " ++ pascalName e.name ++ " struct \x7b"] ++ body ++
    ["\x7d"]

def usesTime (s : Schema) : Lookup Bool :=
  s.entities.anyM fun e => do
    return (← (← validEntries d e.id).mapM fun e => e.storageKind d).any Kind.isTemporal

def fileLines (relations : List Relation) (s : Schema) : Lookup (List String) := do
  let imports := if ← usesTime d s then ["", "import \"time\""] else []
  let structs ← s.entities.mapM fun e => do return "" :: (← structLines d relations e)
  return ["// Code generated by schemagen. DO NOT EDIT.", "", "package " ++ packageName s.name] ++
    imports ++ structs.flatten

def generate : Lookup Files := do
  let relations ← relations d
  let files ← d.schemas.mapM fun s => do
    return (fileId s, Text.unlines (← fileLines d relations s))
  return .ofList files

end Go

namespace Hurl

open Output.Hurl

def seed (e : Entry) : Except Fault String := do
  let kind ← e.storageKind d
  seedText kind (← d.memberAt e.terminal).toAttribute

/-- Whether the value of the column is sent. The server assigns the serials of the entity
itself. -/
def isSent (e : Entry) : Except Fault Bool := do
  return (← e.storageKind d) ≠ .serial

/-- The names and values that are sent. -/
def bodyMembers (entity : EntityId) : Lookup (List (String × String)) := do
  let sent ← (← validEntries d entity).filterM fun e => isSent d e
  sent.mapM fun e => do return (e.name, ← seed d e)

def keyWord (e : Entry) : Lookup String := do
  let terminal ← d.memberAt e.terminal
  return wordText e.name terminal.toAttribute (← isComposite d (← d.ownerAt e.terminal))

def keyAddress : List Entry → Lookup String
  | [e] => return placeholder e.name
  | key => do
    let parts ← key.mapM fun e => do return (← keyWord d e) ++ "/" ++ placeholder e.name
    return Text.joinWith "/" parts

def assertLine? (e : Entry) : Except Fault (Option String) := do
  return assertText? e.name (← e.storageKind d)

def assertLines (entity : EntityId) : Lookup (List String) := do
  let checks ← (← validEntries d entity).mapM fun e => assertLine? d e
  return assertSection (checks.filterMap id)

def rowLines (s : Schema) (e : Entity) (body : String) (key : List Entry) :
    Lookup (List String) := do
  let address ← keyAddress d key
  return rowText (route s e ++ "/" ++ address) body (key.map fun e => captureText e.name)
    (← assertLines d e.id)

def fileLines (s : Schema) (e : Entity) (body : String) : Lookup (List String) := do
  match ← primary d e.id with
  | [] => return createLines d s e body
  | key => return createLines d s e body ++ (← rowLines d s e body key)

def entityFile (s : Schema) (e : Entity) : Lookup (FileId × String) := do
  let members ← bodyMembers d e.id
  return (fileId s e, Text.unlines (← fileLines d s e (bodyText members)))

def generate : Lookup Files := do
  return Files.ofList (← (placedEntities d).mapM fun (s, e) => entityFile d s e)

end Hurl

def generate : Backend → Lookup Files
  | .go => Go.generate d
  | .postgres => Postgres.generate d
  | .hurl => Hurl.generate d

end Blueprint.Lookup
