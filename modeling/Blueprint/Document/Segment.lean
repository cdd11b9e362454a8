import Blueprint.Document.Basic
import Blueprint.Name

/-! # Distinct segments

The segments of the attributes of one entity are kept apart. A taken local name is
dropped. A taken segment is replaced by a fallback name: a reference takes it as
its local name, so that its target can still be found, any other attribute as its name.
-/

namespace Blueprint

/-- Whether a sibling goes by the same local name. -/
def Member.localNameTaken (m : Member) (siblings : List Member) : Bool :=
  m.localName.isSome && siblings.any fun s => s.localName = m.localName

/-- The attribute without a local name that a sibling goes by. -/
def Member.dropTakenLocalName (siblings : List Member) (m : Member) : Member :=
  if m.localNameTaken siblings then { m with localName := none } else m

/-- The attribute with its fallback name in place of a segment that a sibling has. -/
def Member.replaceTakenSegment (siblings : List Member) (m : Member) : Member :=
  if siblings.any fun s => s.segment = m.segment then
    if m.isReference then { m with localName := some (Name.fallback m.id.number) }
    else { m with name := Name.fallback m.id.number }
  else m

/-- The attribute with a segment of its own among its siblings. -/
def Member.distinguish (siblings : List Member) (m : Member) : Member :=
  (m.dropTakenLocalName siblings).replaceTakenSegment siblings

/-- Give one attribute of the entity a segment of its own. -/
def Entity.distinguish (id : AttrId) (e : Entity) : Entity :=
  { e with attributes := e.attributes.map fun m =>
      if m.id = id then m.distinguish (e.attributes.filter (·.id ≠ id)) else m }

/-- Give one attribute of the document a segment of its own. -/
def Document.distinguish (id : AttrId) (d : Document) : Document :=
  d.mapEntities (Entity.distinguish id)

end Blueprint
