import Blueprint.Text.Split

/-! # Generated files

A file is identified by its directory and its name. A set of files is kept in the
order of their identifiers, directory first.
-/

namespace Blueprint.Output

/-- Where a generated file goes. -/
structure FileId where
  dir : String
  name : String
deriving DecidableEq, Repr

/-- A path with another part after it; an absolute part replaces it. -/
def pushPath (path part : String) : String :=
  if (Text.stripStart? "/" part).isSome then part
  else if path.isEmpty || (Text.stripEnd? "/" path).isSome then path ++ part
  else path ++ "/" ++ part

namespace FileId

/-- The same file under another directory. -/
def nest (f : FileId) (parent : String) : FileId :=
  if parent.isEmpty then f
  else if f.dir.isEmpty then { f with dir := parent }
  else { f with dir := parent ++ "/" ++ f.dir }

def text (f : FileId) : String :=
  if f.dir.isEmpty then f.name else f.dir ++ "/" ++ f.name

/-- The path of the file, without empty parts in its directory. -/
def path (f : FileId) : String :=
  pushPath (((Text.splitOn '/' f.dir).filter (!·.isEmpty)).foldl pushPath "") f.name

/-- The order of files: by directory, then by name. -/
def before (f g : FileId) : Bool :=
  f.dir < g.dir || f.dir = g.dir && f.name < g.name

end FileId

/-- Files with their contents, in increasing order. -/
abbrev Files := List (FileId × String)

namespace Files

/-- Add a file, in place of one with the same identifier. -/
def insert (id : FileId) (text : String) : Files → Files
  | [] => [(id, text)]
  | (other, content) :: rest =>
    if id = other then (id, text) :: rest
    else if id.before other then (id, text) :: (other, content) :: rest
    else (other, content) :: insert id text rest

/-- Add files one after the other. -/
def insertAll (files : Files) (more : List (FileId × String)) : Files :=
  more.foldl (fun files (id, text) => files.insert id text) files

/-- The set of the given files; a later one replaces an earlier one. -/
def ofList (files : List (FileId × String)) : Files :=
  insertAll [] files

/-- The same files under another directory. -/
def nest (files : Files) (parent : String) : List (FileId × String) :=
  files.map fun (id, text) => (id.nest parent, text)

end Files

end Blueprint.Output
