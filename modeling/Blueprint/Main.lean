import Blueprint.CommandLine.Run

/-! # The program

Files, standard output and standard error of the operating system.
-/

namespace Blueprint.CommandLine

/-- The cause that an error number of the operating system stands for. -/
def FileError.ofCode (code : UInt32) : FileError :=
  if code = 17 then .alreadyExists
  else if code = 20 then .notDirectory
  else if code = 21 then .isDirectory
  else .notFound

/-- The cause of a failure that the operating system reports. -/
def FileError.ofSystem : IO.Error → FileError
  | .inappropriateType _ code _ => .ofCode code
  | .alreadyExists _ code _ => .ofCode code
  | _ => .notFound

/-- Carry out an action, keeping the cause of a failure. -/
def attempt {α : Type} (action : IO α) : IO (Except FileError α) := do
  match ← action.toBaseIO with
  | .ok value => return .ok value
  | .error failure => return .error (.ofSystem failure)

def readFile (path : String) : IO (Except FileError String) := do
  match ← attempt (IO.FS.readBinFile path) with
  | .error cause => return .error cause
  | .ok bytes =>
    match String.fromUTF8? bytes with
    | some text => return .ok text
    | none => return .error .notText

/-- The directory part of a path. -/
def directoryOf (path : String) : String :=
  Text.joinWith "/" (Text.splitOn '/' path).dropLast

def writeFile (path text : String) : IO (Except FileError Unit) := do
  match ← attempt (IO.FS.createDirAll (directoryOf path)) with
  | .error cause => return .error cause
  | .ok () => attempt (IO.FS.writeFile path text)

/-- The files of the operating system. -/
def systemFiles : FileAccess IO := ⟨readFile, writeFile⟩

end Blueprint.CommandLine

open Blueprint.CommandLine in
def main (args : List String) : IO UInt32 := do
  let report ← run systemFiles args
  for line in report.log do
    IO.eprintln line
  IO.print report.output
  match report.ending with
  | .failed cause => IO.eprintln ("ERROR: " ++ cause.message)
  | .misused => IO.eprintln "error: unexpected arguments"
  | .stopped fault => IO.eprintln fault.message
  | .done => pure ()
  return report.ending.code.toUInt32
