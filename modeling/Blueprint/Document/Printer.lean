import Blueprint.Attribute.Printer
import Blueprint.Document.Reader

/-! # Writing a document

The text reads back as the same document.
-/

namespace Blueprint

/-- The lines of an entity and its attributes. -/
def Entity.render (e : Entity) : String :=
  Text.unlines (e.line :: e.attributes.map fun m => m.toAttribute.line)

/-- The lines of a schema and its entities, with an empty line before each entity. -/
def Schema.render (s : Schema) : String :=
  s.line ++ "\n" ++ String.join (s.entities.map fun e => "\n" ++ e.render)

namespace Document

/-- The lines of all schemas, with an empty line between them. -/
def render (d : Document) : String :=
  Text.joinWith "\n" (d.schemas.map Schema.render)

/-- Write a document and read it again. -/
def reread (d : Document) : Except Fault Document :=
  Document.read d.maxDepth d.render

end Document

end Blueprint
