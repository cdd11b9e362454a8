import Blueprint.Document.Edit

/-! # Reading a document

Lines are taken in order. An entity belongs to the latest schema and an attribute to
the latest entity of it; lines that have nothing to belong to are left out.
References are resolved at the end, so they may point forward.
-/

namespace Blueprint

/-- A document that is being read, and where the next line belongs. -/
structure Cursor where
  document : Document
  schema : Option SchemaId
  entity : Option EntityId
deriving DecidableEq, Repr

namespace Cursor

/-- The start of a document. -/
def start (maxDepth : Nat) : Cursor :=
  ⟨.empty maxDepth, none, none⟩

/-- The name on an entity line; options may follow it and mean nothing. -/
def entityText (text : String) : String :=
  ((Text.cut? Line.withMark text).map Prod.fst).getD text

def read (c : Cursor) : Line → Except Fault Cursor
  | .schema text =>
    let (document, id) := c.document.addSchema text
    .ok ⟨document, some id, none⟩
  | .entity text =>
    match c.schema with
    | none => .ok c
    | some schema =>
      match c.document.addEntity schema (entityText text) with
      | .ok (document, id) => .ok { c with document := document, entity := some id }
      | .error _ => .ok c
  | .attr text =>
    match c.entity with
    | none => .ok c
    | some entity =>
      (Attribute.ofLine text).map fun a =>
        match c.document.attach entity a with
        | .ok (document, _) => { c with document := document }
        | .error _ => c
  | .ignored => .ok c

end Cursor

namespace Document

/-- Read a document. -/
def read (maxDepth : Nat) (source : String) : Except Fault Document :=
  (((Line.scan source).map Prod.snd).foldlM Cursor.read (.start maxDepth)).map fun c =>
    c.document.resolveReferences

end Document

end Blueprint
