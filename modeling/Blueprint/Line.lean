import Blueprint.Text.Blank
import Blueprint.Text.Split

/-! # Lines

A document is read line by line, and the first characters of a line alone decide
what it declares. Blanks around a line do not count.
-/

namespace Blueprint

namespace Line

def schemaMark : String := "# "
def entityMark : String := "## "
def attributeMark : String := "- "

/-- Stands between a name and its kind, or a target and its local name. -/
def asMark : String := " as "

/-- Stands before the options. -/
def withMark : String := " with "

/-- What is left of `withMark` at the start of a trimmed text. -/
def withOpening : String := "with "

/-- What is left of `withMark` at the end of a trimmed text. -/
def withEnding : String := " with"

/-- Stands between the bounds of a range. -/
def rangeMark : String := ".."

/-- Stands between an option and its value. -/
def labelMark : String := ":"

end Line

inductive Line where
  /-- `# name`; holds the name. -/
  | schema (text : String)
  /-- `## name`; holds what follows the mark. -/
  | entity (text : String)
  /-- `- declaration`; holds the whole line. -/
  | attr (text : String)
  | ignored
deriving DecidableEq, Repr

namespace Line

/-- What a line of a document declares. -/
def ofText (s : String) : Line :=
  let s := Text.trim s
  match Text.stripStart? schemaMark s with
  | some text => schema text
  | none =>
    match Text.stripStart? entityMark s with
    | some text => entity text
    | none => if (Text.stripStart? attributeMark s).isSome then attr s else ignored

/-- The lines of a document that declare something, with their numbers from one. -/
def scan (source : String) : List (Nat × Line) :=
  ((Text.lines source).zipIdx 1).filterMap fun (s, number) =>
    match ofText s with
    | ignored => none
    | line => some (number, line)

end Line

end Blueprint
