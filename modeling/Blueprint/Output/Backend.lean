import Blueprint.Document.Reader
import Blueprint.Output.Go
import Blueprint.Output.Hurl
import Blueprint.Output.Postgres

/-! # Backends

The output languages, and the files that a source compiles to. A backend can be given by
name.
-/

namespace Blueprint.Output

inductive Backend where
  | go
  | postgres
  | hurl
deriving DecidableEq, Repr

namespace Backend

def all : List Backend := [go, postgres, hurl]

/-- The names that a backend is called by. -/
def names : List (String × Backend) := [
  ("go", go), ("struct", go), ("postgres", postgres), ("sql", postgres), ("ddl", postgres),
  ("hurl", hurl), ("test", hurl)]

/-- The backend of a name as it is listed. -/
def ofName? (s : String) : Option Backend :=
  names.lookup s

/-- The backend of a name, whatever its letter case and the blanks around it. -/
def ofText? (s : String) : Option Backend :=
  ofName? (Text.lower (Text.trim s))

/-- The directory of the files of a backend among those of others. -/
def dir : Backend → String
  | go => "golang"
  | postgres => "postgres"
  | hurl => "hurl"

def typeName : Backend → Kind → String
  | go => Go.typeName
  | postgres => Postgres.typeName
  | hurl => Hurl.typeName

def fieldName : Backend → Column → String
  | go => Go.fieldName
  | postgres => Postgres.fieldName
  | hurl => Hurl.fieldName

def generate (b : Backend) (d : Document) : Except Fault Files :=
  match b with
  | go => .ok (Go.generate d)
  | postgres => .ok (Postgres.generate d)
  | hurl => Hurl.generate d

end Backend

/-- The files of several backends, each under its directory. -/
def generateAll (d : Document) (backends : List Backend) : Except Fault Files :=
  backends.foldlM (fun files b => (b.generate d).map fun new => files.insertAll (new.nest b.dir)) []

/-- A document and the files generated from it. -/
structure Compilation where
  document : Document
  files : Files
deriving DecidableEq, Repr

/-- Read a source and generate the files of the given backends. -/
def compile (maxDepth : Nat) (backends : List Backend) (source : String) :
    Except Fault Compilation := do
  let d ← Document.read maxDepth source
  return ⟨d, ← generateAll d backends⟩

/-! ### Compiling by name -/

/-- Why a source is not compiled. -/
inductive CompileError where
  | unknownBackend (name : String)
  | fault (f : Fault)
deriving DecidableEq, Repr

def CompileError.message : CompileError → String
  | unknownBackend name => "unknown backend: " ++ name
  | fault f => f.message

/-- The backend of a name, or all of them if no name is given. -/
def Backend.choose : Option String → Except CompileError (List Backend)
  | none => .ok all
  | some name =>
    match ofText? name with
    | some b => .ok [b]
    | none => .error (.unknownBackend name)

/-- The texts of the files that a source compiles to, each under its path. -/
def compileSchema (source : String) (backend : Option String) :
    Except CompileError (List (String × String)) := do
  let backends ← Backend.choose backend
  let compiled ← (compile Document.defaultDepth backends source).mapError .fault
  return compiled.files.map fun (id, text) => (id.text, text)

end Blueprint.Output
