import Blueprint.Attribute.Check
import Blueprint.Line
import Blueprint.Name

/-! # Reading an attribute line

A line declares `name as kind with options` or, for a reference,
`@target as name with options`. Reading never rejects a line: what is wrong with
it is noted on the attribute. Without an identifier or a kind the options are not
looked at.
-/

namespace Blueprint.Attribute

open Text

/-- The parts of an attribute line. -/
structure Declaration where
  ident : String
  kind : String
  options : String
  localName : Option String
deriving DecidableEq, Repr

/-- The text before the options and the options. -/
def cutOptions (s : String) : String × String :=
  let s := trim s
  match cut? Line.withMark s with
  | some (head, options) => (head, options)
  | none =>
    match stripStart? Line.withOpening s with
    | some options => ("", options)
    | none =>
      match stripEnd? Line.withEnding s with
      | some head => (head, "")
      | none => (s, "")

/-- Split the text after the dash of an attribute line. -/
def Declaration.ofText (body : String) : Declaration :=
  match stripStart? "@" body with
  | some rest =>
    match cut? Line.asMark rest with
    | some (target, after) =>
      let (localName, options) := cutOptions after
      ⟨target, Kind.reference.keyword, options, some localName⟩
    | none =>
      let (target, options) := cutOptions rest
      ⟨target, Kind.reference.keyword, options, none⟩
  | none =>
    let (ident, later) := (cut? Line.asMark body).getD (body, "")
    let (kind, options) := cutOptions later
    ⟨ident, kind, options, none⟩

/-- The identifier of an attribute. A reference keeps the handle of an entity and the
form `schema.entity`; everything else keeps what stands before a dot. -/
def identifier (ident : String) (kind : Kind) : String :=
  let ident := trim ident
  let (head, tail) :=
    match cut? "." ident with
    | some (head, tail) => (Name.normalize head, some (Name.normalize tail))
    | none => (Name.normalize ident, none)
  if kind = .reference then
    match (Handle.ofText? ident : Option EntityId) with
    | some handle => handle.text
    | none =>
      match tail with
      | some tail => head ++ "." ++ tail
      | none => head
  else head

/-- What one option of an attribute line sets. -/
inductive Setting where
  | primary
  | required
  /-- Unique on its own, under its segment as label. -/
  | unique
  | range (min max : Option String)
  | label (name : String)
  | defaultValue (value : String)
  | ignored
deriving DecidableEq, Repr

/-- Read an option. Flags come first, then ranges, then labelled values. -/
def Setting.ofText (s : String) : Setting :=
  let word := lower s
  if word = "p" ∨ word = "primary" then .primary
  else if word = "r" ∨ word = "required" then .required
  else if word = "u" ∨ word = "unique" then .unique
  else
    match cut? Line.rangeMark s with
    | some (min, max) => .range (trimmed? min) (trimmed? max)
    | none =>
      match cut? Line.labelMark s with
      | some (head, value) =>
        let word := lower (trim head)
        if word = "u" ∨ word = "unique" then .label (Name.normalize value)
        else if word = "d" ∨ word = "default" then .defaultValue (trim value)
        else .ignored
      | none => .ignored

/-- Add a uniqueness label, unless it is empty or already there. -/
def addUnique (a : Attribute) (label : String) : Attribute :=
  if label.isEmpty || a.unique.contains label then a
  else { a with unique := a.unique ++ [label] }

def apply (a : Attribute) : Setting → Attribute
  | .primary => { a with primary := true }
  | .required => { a with required := true }
  | .unique => a.addUnique (replaceChar '.' '_' a.segment)
  | .range min max => { a with min := min, max := max }
  | .label name => a.addUnique name
  | .defaultValue value => { a with defaultValue := some value }
  | .ignored => a

/-- The options of a line, in order. -/
def settings (options : String) : List Setting :=
  ((splitOn ',' options).filterMap trimmed?).map Setting.ofText

/-- The attribute that a declaration spells. -/
def ofDeclaration (d : Declaration) : Except Fault Attribute :=
  let word := trim d.kind
  let kind := Kind.ofText word
  let a : Attribute :=
    { name := identifier d.ident kind
      localName := (d.localName.map Name.normalize).filter (!·.isEmpty) }
  if a.name.isEmpty then .ok (a.note [.identifierRequired])
  else if word.isEmpty then .ok (a.note [.kindRequired])
  else if kind = .unknown then .ok (a.note [.kindInvalid])
  else ((settings d.options).foldl apply { a with kind := kind }).settle

/-- The text of an attribute line after its dash. -/
def lineBody (line : String) : String :=
  let line := trim line
  trimStart ((stripStart? Line.attributeMark line).getD line)

/-- Read an attribute line. -/
def ofLine (line : String) : Except Fault Attribute :=
  ofDeclaration (Declaration.ofText (lineBody line))

end Blueprint.Attribute
