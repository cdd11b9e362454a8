import Blueprint.Text.Split

/-! # Faults

Failures that stop a computation, as opposed to defects, which are noted on an
attribute and leave the rest of the document alone.
-/

namespace Blueprint

inductive Fault where
  /-- A value was to be padded to more places than a line can be given. -/
  | paddingTooWide
  /-- A handle names no schema of the document. -/
  | staleSchema
  /-- A handle names no entity of the document. -/
  | staleEntity
  /-- A handle names no attribute of the document. -/
  | staleAttribute
deriving DecidableEq, Repr

def Fault.message : Fault → String
  | paddingTooWide => "Formatting argument out of range"
  | staleSchema => "stale schema handle"
  | staleEntity => "stale entity handle"
  | staleAttribute => "stale attribute handle"

/-- The widest padding that can be written. -/
def maxPadding : Nat := 65535

/-- The digits padded with zeros on the left, unless that is wider than any padding. -/
def zeroPadded (width : Nat) (digits : String) : Except Fault String :=
  if width ≤ maxPadding then .ok (Text.padStart '0' width digits) else .error .paddingTooWide

end Blueprint
