import Blueprint.Text.Numeral

/-! # Handles

A handle names a node of a document by number. Numbers start at one and are never
given twice, so a handle of a removed node never names another one. The hyphen in
its text keeps a handle apart from every name.
-/

namespace Blueprint

/-- What a handle can name. -/
inductive NodeSort where
  | schema
  | entity
  | attr
deriving DecidableEq, Repr

/-- The word that the text of a handle starts with. -/
def NodeSort.tag : NodeSort → String
  | .schema => "sch"
  | .entity => "ent"
  | .attr => "attr"

structure Handle (sort : NodeSort) where
  number : Nat
deriving DecidableEq, Repr

abbrev SchemaId := Handle .schema
abbrev EntityId := Handle .entity
abbrev AttrId := Handle .attr

namespace Handle

variable {sort : NodeSort}

/-- The handle that names no node. -/
def nowhere : Handle sort := ⟨0⟩

/-- The handle issued after `count` others. -/
def fresh (count : Nat) : Handle sort := ⟨count + 1⟩

def text (h : Handle sort) : String :=
  sort.tag ++ "-" ++ toString h.number

/-- Read the text of a handle; its number is positive and below `2 ^ 32`. -/
def ofText? (s : String) : Option (Handle sort) :=
  ((Text.stripStart? (sort.tag ++ "-") s).bind Text.Numeral.size?).bind fun n =>
    if 0 < n then some ⟨n⟩ else none

end Handle

end Blueprint
