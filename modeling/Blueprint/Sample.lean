import Blueprint.Name

/-! # Sample documents -/

namespace Blueprint

/-- A document that comes with the program. -/
structure Sample where
  label : String
  source : String
deriving DecidableEq, Repr

namespace Sample

def booksAndPeople : Sample where
  label := "Books and People"
  source := Text.unlines [
    "# People",
    "",
    "## Author",
    "- id as ++",
    "- first name as string with unique:full name, required, 3..32",
    "- last name as str with u:full name, r, ..30",
    "- dob as date with 1900-01-01..",
    "",
    "# Library",
    "",
    "## Category",
    "- id as ++",
    "- name as str with unique, required, 3..30",
    "",
    "## Book",
    "- id as ++",
    "- title as str with unique, required, ..50",
    "- published as ts with default:now",
    "- @category with required",
    "",
    "## Publication",
    "- @book with primary",
    "- @people.author with primary",
    "- flags as bit with ..16"]

def fooBar : Sample where
  label := "Foo Bar"
  source := Text.unlines [
    "# Foo",
    "",
    "## Bar",
    "",
    "- id as ++",
    "- name as str with 0..3"]

def all : List Sample := [booksAndPeople, fooBar]

/-- The sample of a label; letter case and punctuation do not count. -/
def find? (name : String) : Option Sample :=
  all.find? fun s => Name.normalize s.label = Name.normalize name

end Sample

end Blueprint
