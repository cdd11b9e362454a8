import Blueprint.CommandLine.Disk
import Blueprint.CommandLine.Options
import Blueprint.Document.Printer
import Blueprint.Sample

/-! # A run of the program

A run reads a source, compiles it, and writes the files or prints them. How files are
read and written is left open, so that a run can be carried out on any disk.
-/

namespace Blueprint.CommandLine

open Text

/-- Why a run failed. -/
inductive Failure where
  | read (path : String) (cause : FileError)
  | write (path : String) (cause : FileError)
  | unknownSample (name : String)
  | strict
deriving DecidableEq, Repr

def Failure.message : Failure → String
  | read path cause => "failed to read " ++ path ++ ": " ++ cause.message
  | write path cause => "failed to write " ++ path ++ ": " ++ cause.message
  | unknownSample name => "unknown sample: " ++ name
  | strict => "document has errors"

/-- How a run ended. -/
inductive Ending where
  | done
  | failed (cause : Failure)
  /-- The arguments were misused. -/
  | misused
  | stopped (fault : Fault)
deriving DecidableEq, Repr

/-- The exit code of a run. -/
def Ending.code : Ending → Nat
  | done => 0
  | failed _ => 1
  | misused => 2
  | stopped _ => 101

/-- What a run leaves behind, apart from files. -/
structure Report where
  ending : Ending
  output : String := ""
  log : List String := []
deriving DecidableEq, Repr

/-- How files are read and written. -/
structure FileAccess (m : Type → Type) where
  read : String → m (Except FileError String)
  write : String → String → m (Except FileError Unit)

variable {m : Type → Type} [Monad m]

/-- The text that is to be compiled. -/
def readSource (access : FileAccess m) (o : Options) : m (Except Failure String) :=
  match o.source with
  | .inl path => (Except.mapError (Failure.read path)) <$> access.read path
  | .inr name =>
    pure <| match Sample.find? name with
      | some sample => .ok sample.source
      | none => .error (.unknownSample name)

/-- The warnings about references without a target. -/
def referenceWarnings (d : Document) : List String :=
  d.lostReferences.map fun r =>
    "WARN cannot find reference attribute=" ++ d.attrPath r.id ++ " target=" ++ r.name

/-- The warnings about schemas with a defect. -/
def schemaWarnings (d : Document) : List String :=
  (d.schemas.filter Schema.hasDefect).map fun s => "WARN schema has errors schema=" ++ s.name

/-- The files one after the other, each under its name. -/
def listing (files : Output.Files) : String :=
  String.join (files.map fun (id, text) => "==> " ++ id.text ++ " <==\n" ++ text ++ "\n")

/-- Write the files into a directory, up to the first that fails. -/
def writeFiles (access : FileAccess m) (dir : String) : Output.Files → m (Except Failure Unit)
  | [] => pure (.ok ())
  | (id, text) :: rest => do
    let path := Output.pushPath dir id.path
    match ← access.write path text with
    | .ok () => writeFiles access dir rest
    | .error cause => pure (.error (.write path cause))

/-- The end of a run that has met no failure. -/
def Options.ending (o : Options) (d : Document) : Ending :=
  if o.strict && d.hasDefect then .failed .strict else .done

/-- Hand over the result of a compilation, after the lines `log`. -/
def deliver (access : FileAccess m) (o : Options) (c : Output.Compilation) (log : List String) :
    m Report := do
  let ending := o.ending c.document
  if o.printSource then
    return ⟨ending, c.document.render, log⟩
  else
    match o.output with
    | none => return ⟨ending, listing c.files, log⟩
    | some dir =>
      match ← writeFiles access dir c.files with
      | .error cause => return ⟨.failed cause, "", log⟩
      | .ok () =>
        let count := toString c.files.length
        return ⟨ending, "", log ++ ["INFO generated files=" ++ count ++ " dir=" ++ dir]⟩

/-- Compile a source and hand over the result. -/
def runSource (access : FileAccess m) (o : Options) (source : String) : m Report :=
  match Document.read o.maxDepth source with
  | .error fault => return ⟨.stopped fault, "", []⟩
  | .ok d =>
    match Output.generateAll d o.backends with
    | .error fault => return ⟨.stopped fault, "", referenceWarnings d⟩
    | .ok files => deliver access o ⟨d, files⟩ (referenceWarnings d ++ schemaWarnings d)

/-- Run the program with the given arguments. -/
def run (access : FileAccess m) (args : List String) : m Report :=
  match options? args with
  | none => return ⟨.misused, "", []⟩
  | some o => do
    match ← readSource access o with
    | .error cause => return ⟨.failed cause, "", []⟩
    | .ok source => runSource access o source

/-- Files on a disk in memory. -/
def Disk.access : FileAccess (StateM Disk) where
  read path := return (← get).read path
  write path text := do
    match (← get).write path text with
    | .ok disk => set disk; return .ok ()
    | .error cause => return .error cause

/-- Run the program on a disk in memory. -/
def runOn (disk : Disk) (args : List String) : Report × Disk :=
  (run Disk.access args).run disk

end Blueprint.CommandLine
