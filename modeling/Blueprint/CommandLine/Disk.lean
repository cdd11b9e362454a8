import Blueprint.Text.Split

/-! # Files on a disk

A disk in memory: files by their paths from the current directory. A directory exists
if a file lies in it or if it was made on the way to one.
-/

namespace Blueprint.CommandLine

/-- Why a file cannot be read or written. -/
inductive FileError where
  | notFound
  | alreadyExists
  | notDirectory
  | isDirectory
  | notText
deriving DecidableEq, Repr

def FileError.message : FileError → String
  | notFound => "No such file or directory (os error 2)"
  | alreadyExists => "File exists (os error 17)"
  | notDirectory => "Not a directory (os error 20)"
  | isDirectory => "Is a directory (os error 21)"
  | notText => "stream did not contain valid UTF-8"

/-- A place on the disk: the names to follow from the current directory. A place outside it
starts with `..` or with `/`, and nothing is known of what lies there. -/
abbrev Location := List String

structure Disk where
  files : List (Location × ByteArray)
  /-- The directories made so far. -/
  made : List Location := []

namespace Disk

def file? (d : Disk) (place : Location) : Option ByteArray :=
  d.files.lookup place

/-- Whether the place is the current directory, one around it, or the root. -/
def isAbove (place : Location) : Bool :=
  place = ["/"] || place.all (· = "..")

def isDirectory (d : Disk) (place : Location) : Bool :=
  isAbove place || d.made.contains place ||
    d.files.any fun (path, _) => place.isPrefixOf path && path ≠ place

def holds (d : Disk) (place : Location) : Bool :=
  (d.file? place).isSome || d.isDirectory place

/-- The directory around a place. -/
def parent (place : Location) : Location :=
  if place = ["/"] then place
  else if isAbove place then place ++ [".."]
  else place.dropLast

/-- Where one name of a path leads, whether or not something is there. -/
def follow (d : Disk) (place : Location) (name : String) : Except FileError Location :=
  if (d.file? place).isSome then .error .notDirectory
  else if name = "" ∨ name = "." then .ok place
  else if name = ".." then .ok (parent place)
  else .ok (place ++ [name])

/-- Go to what one name of a path leads to. -/
def enter (d : Disk) (place : Location) (name : String) : Except FileError Location := do
  let next ← d.follow place name
  if d.holds next then .ok next else .error .notFound

/-- Go to what one name of a path leads to, making a directory where nothing is. -/
def make (reached : Disk × Location) (name : String) : Except FileError (Disk × Location) := do
  let (d, place) := reached
  let next ← d.follow place name
  .ok (if d.holds next then d else { d with made := next :: d.made }, next)

/-- Where a path starts. -/
def startOf (path : String) : Location :=
  if (Text.stripStart? "/" path).isSome then ["/"] else []

/-- The place of what a path leads to. -/
def locate (d : Disk) (path : String) (names : List String) : Except FileError Location :=
  names.foldlM d.enter (startOf path)

/-- Make the directories along a path. A file in the way is no directory to go through if what
is there leads to it. It holds the place of a directory if it is the last on the way, or if
something before it had to be made. -/
def makeAll (d : Disk) (path : String) (names : List String) :
    Except FileError (Disk × Location) :=
  match names.foldlM make (d, startOf path) with
  | .ok (made, place) =>
    if (d.file? place).isSome then .error .alreadyExists else .ok (made, place)
  | .error e =>
    match d.locate path names with
    | .error .notFound => .error .alreadyExists
    | _ => .error e

/-- The text of a file. -/
def read (d : Disk) (path : String) : Except FileError String := do
  let place ← d.locate path (Text.splitOn '/' path)
  match d.file? place with
  | none => .error .isDirectory
  | some bytes =>
    match String.fromUTF8? bytes with
    | some text => .ok text
    | none => .error .notText

/-- Write a file and the directories it lies in. -/
def write (d : Disk) (path text : String) : Except FileError Disk := do
  let names := Text.splitOn '/' path
  let (made, directory) ← d.makeAll path names.dropLast
  let place ← made.follow directory (names.getLastD "")
  if made.isDirectory place then .error .isDirectory
  else
    let others := made.files.filter fun (path, _) => path ≠ place
    .ok { made with files := others ++ [(place, text.toUTF8)] }

/-- The files below the current directory. -/
def inside (d : Disk) : List (Location × ByteArray) :=
  d.files.filter fun (path, _) => path.head?.all fun name => name ≠ ".." && name ≠ "/"

end Disk

end Blueprint.CommandLine
