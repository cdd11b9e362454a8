import Blueprint.Document.Column
import Blueprint.Fault
import Blueprint.Output.FileId
import Blueprint.Output.Naming

/-! # Hurl tests

One file per entity: requests that create, read, update and delete a row. Without a
key a row cannot be addressed, and only the first request is written.
-/

namespace Blueprint.Output.Hurl

open Text

/-- The type that a value of the kind is sent as. -/
def typeName : Kind → String
  | .unknown | .reference => "null"
  | .serial | .int | .float | .real | .decimal | .money => "number"
  | .boolean => "boolean"
  | .char | .string | .bit | .date | .time | .timestamp => "string"

def fieldName (c : Column) : String :=
  c.name

/-! ### Values -/

/-- The value sent for a kind. -/
def seedOfKind : Kind → String
  | .unknown | .reference => "null"
  | .serial => "2"
  | .int => "1"
  | .char => "\"a\""
  | .string => "\"foo\""
  | .bit => "\"1\""
  | .boolean => "false"
  | .date => "\"2025-11-08\""
  | .time => "\"21:24:52\""
  | .timestamp => "\"2025-11-08T21:24:52Z\""
  | .float | .real | .decimal | .money => "1.2"

/-- The value sent for a kind and the stored attribute. A bit string has the size of its
column. -/
def seedText (kind : Kind) (terminal : Attribute) : Except Fault String :=
  if kind = .bit then
    match terminal.maxSize? with
    | some size => (zeroPadded size "1").map fun bits => "\"" ++ bits ++ "\""
    | none => .ok (seedOfKind .bit)
  else .ok (seedOfKind kind)

def seed (c : Column) : Except Fault String :=
  seedText c.storageKind c.terminal.toAttribute

/-- The columns whose values are sent. The server assigns the serials of the entity itself. -/
def sentColumns (d : Document) (entity : EntityId) : List Column :=
  (d.validColumns entity).filter fun c => c.storageKind ≠ .serial

/-- The names and values that are sent. -/
def bodyMembers (d : Document) (entity : EntityId) : Except Fault (List (String × String)) :=
  (sentColumns d entity).mapM fun c => (seed c).map (fieldName c, ·)

def bodyText (members : List (String × String)) : String :=
  if members.isEmpty then "\x7b\x7d"
  else
    "\x7b\n" ++
    joinWith ",\n" (members.map fun (name, value) => "    \"" ++ name ++ "\": " ++ value) ++
    "\n\x7d"

/-! ### Addresses -/

/-- A variable as it is used. -/
def placeholder (name : String) : String :=
  "\x7b\x7b" ++ name ++ "\x7d\x7d"

/-- The address of all rows of an entity. -/
def route (s : Schema) (e : Entity) : String :=
  placeholder "host" ++ "/" ++ kebab s.name ++ "/" ++ kebab e.name

/-- The word before a part of a key of several columns: its name, without the name of the
stored attribute unless that belongs to such a key itself. -/
def wordText (name : String) (terminal : Attribute) (isComposite : Bool) : String :=
  let word := kebab name
  if isComposite then word
  else (stripEnd? ("-" ++ kebab terminal.name) word).getD word

def keyWord (d : Document) (c : Column) : String :=
  wordText c.name c.terminal.toAttribute (d.isComposite c.owner)

/-- The part of an address that picks a row by its key. -/
def keyAddress (d : Document) : List Column → String
  | [c] => placeholder c.name
  | key => joinWith "/" (key.map fun c => keyWord d c ++ "/" ++ placeholder c.name)

/-! ### Sections -/

def captureText (name : String) : String :=
  name ++ ": jsonpath \"$." ++ name ++ "\""

def captureLine (c : Column) : String :=
  captureText (fieldName c)

/-- The check that a value has a type. -/
def predicate? (kind : Kind) : Option String :=
  match typeName kind with
  | "number" => some "isNumber"
  | "boolean" => some "isBoolean"
  | "string" => some "isString"
  | _ => none

def assertText? (name : String) (kind : Kind) : Option String :=
  (predicate? kind).map fun predicate => "jsonpath \"$." ++ name ++ "\" " ++ predicate

def assertLine? (c : Column) : Option String :=
  assertText? (fieldName c) c.storageKind

/-- The section of the checks, if there are any. -/
def assertSection (checks : List String) : List String :=
  if checks.isEmpty then [] else "[Asserts]" :: checks

def assertLines (d : Document) (entity : EntityId) : List String :=
  assertSection ((d.validColumns entity).filterMap assertLine?)

def createLines (d : Document) (s : Schema) (e : Entity) (body : String) : List String :=
  ["# " ++ d.qualifiedName e.id, "", "# create", "POST " ++ route s e, body, "HTTP 201"]

/-- The lines that need the address of a row. -/
def rowText (item body : String) (captures asserts : List String) : List String :=
  ["[Captures]"] ++ captures ++
  ["", "# read", "GET " ++ item, "HTTP 200"] ++ asserts ++
  ["", "# update", "PUT " ++ item, body, "HTTP 200"] ++
  ["", "# delete", "DELETE " ++ item, "HTTP 204"]

def rowLines (d : Document) (s : Schema) (e : Entity) (body : String) (key : List Column) :
    List String :=
  rowText (route s e ++ "/" ++ keyAddress d key) body (key.map captureLine) (assertLines d e.id)

def fileLines (d : Document) (s : Schema) (e : Entity) (body : String) : List String :=
  createLines d s e body ++
  match d.primary e.id with
  | [] => []
  | key => rowLines d s e body key

def fileId (s : Schema) (e : Entity) : FileId :=
  ⟨packageName s.name, e.name ++ ".hurl"⟩

def entityFile (d : Document) (s : Schema) (e : Entity) : Except Fault (FileId × String) :=
  (bodyMembers d e.id).map fun members =>
    (fileId s e, unlines (fileLines d s e (bodyText members)))

/-- The entities of a document, each with its schema. -/
def placedEntities (d : Document) : List (Schema × Entity) :=
  d.schemas.flatMap fun s => s.entities.map (s, ·)

def generate (d : Document) : Except Fault Files :=
  ((placedEntities d).mapM fun (s, e) => entityFile d s e).map Files.ofList

end Blueprint.Output.Hurl
