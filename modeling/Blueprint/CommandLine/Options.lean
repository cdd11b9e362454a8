import Blueprint.Output.Backend

/-! # Command line arguments

Options have long names after two hyphens and some have a short name after one.
Short flags can be written together, and an option's value is the next argument or is
attached to it. After a bare `--` everything is an input.
-/

namespace Blueprint.CommandLine

open Text

/-- Options without a value. -/
inductive Flag where
  | strict
  | printSource
  | verbose
deriving DecidableEq, Repr

/-- Options with a value. -/
inductive Setting where
  | sample
  | output
  | backend
  | maxDepth
deriving DecidableEq, Repr

/-- An option of either sort. -/
inductive Switch where
  | flag (f : Flag)
  | setting (s : Setting)
deriving DecidableEq, Repr

def longOptions : List (String × Switch) := [
  ("sample", .setting .sample), ("output", .setting .output), ("backend", .setting .backend),
  ("max-depth", .setting .maxDepth), ("strict", .flag .strict), ("print-dsl", .flag .printSource),
  ("verbose", .flag .verbose)]

def shortOptions : List (Char × Switch) := [
  ('s', .setting .sample), ('o', .setting .output), ('b', .setting .backend),
  ('v', .flag .verbose)]

/-- The arguments as written, each kind in order. -/
structure Arguments where
  flags : List Flag := []
  settings : List (Setting × String) := []
  inputs : List String := []
deriving DecidableEq, Repr

namespace Arguments

def addFlag (a : Arguments) (f : Flag) : Arguments :=
  { a with flags := a.flags ++ [f] }

def addSetting (a : Arguments) (s : Setting) (value : String) : Arguments :=
  { a with settings := a.settings ++ [(s, value)] }

def addInputs (a : Arguments) (inputs : List String) : Arguments :=
  { a with inputs := a.inputs ++ inputs }

end Arguments

/-- What one argument adds, and the option whose value has to follow it. -/
abbrev Reading := Arguments × Option Setting

/-- Read the part of an argument after two hyphens. -/
def readLong (a : Arguments) (body : String) : Option Reading :=
  let (name, value) :=
    match cut? "=" body with
    | some (name, value) => (name, some value)
    | none => (body, none)
  match longOptions.lookup name, value with
  | some (.flag f), none => some (a.addFlag f, none)
  | some (.setting s), some value => some (a.addSetting s value, none)
  | some (.setting s), none => some (a, some s)
  | _, _ => none

/-- Read the part of an argument after one hyphen. -/
def readShort (a : Arguments) : List Char → Option Reading
  | [] => some (a, none)
  | c :: rest =>
    match shortOptions.lookup c with
    | some (.flag f) => readShort (a.addFlag f) rest
    | some (.setting s) =>
      match rest with
      | [] => some (a, some s)
      | '=' :: value => some (a.addSetting s (.ofList value), none)
      | value => some (a.addSetting s (.ofList value), none)
    | none => none

/-- Read one argument. -/
def readOne (a : Arguments) (arg : String) : Option Reading :=
  match arg.toList with
  | '-' :: '-' :: body => readLong a (.ofList body)
  | '-' :: c :: rest => readShort a (c :: rest)
  | _ => some (a.addInputs [arg], none)

/-- Whether an argument cannot be the value of the option before it. -/
def isOptionLike (arg : String) : Bool :=
  match arg.toList with
  | '-' :: _ :: _ => true
  | _ => false

/-- Read the arguments after `a`; `pending` waits for its value. -/
def readArguments (a : Arguments) (pending : Option Setting) : List String → Option Arguments
  | [] => if pending.isSome then none else some a
  | arg :: rest =>
    match pending with
    | some s => if isOptionLike arg then none else readArguments (a.addSetting s arg) none rest
    | none =>
      if arg = "--" then some (a.addInputs rest)
      else (readOne a arg).bind fun (a, pending) => readArguments a pending rest

/-- What a run is asked to do. -/
structure Options where
  /-- The file or the sample that is compiled. -/
  source : String ⊕ String
  output : Option String
  backends : List Output.Backend
  maxDepth : Nat
  strict : Bool
  printSource : Bool

namespace Arguments

/-- The values given for an option, in order. -/
def valuesOf (a : Arguments) (s : Setting) : List String :=
  (a.settings.filter fun p => p.1 = s).map Prod.snd

/-- The value of an option that may be given once: nothing if it is given more often. -/
def once? (values : List String) : Option (Option String) :=
  match values with
  | [] => some none
  | [value] => some (some value)
  | _ => none

/-- Whether a flag is set: nothing if it is given more than once. -/
def flag? (a : Arguments) (f : Flag) : Option Bool :=
  match a.flags.filter (· = f) with
  | [] => some false
  | [_] => some true
  | _ => none

/-- A path is not empty. -/
def path? (s : String) : Option String :=
  if s.isEmpty then none else some s

/-- What is compiled: either a file or a sample. -/
def source? (inputs : List String) (sample : Option String) : Option (String ⊕ String) :=
  match inputs, sample with
  | [path], none => (path? path).map .inl
  | [], some name => some (.inr name)
  | _, _ => none

/-- The options that arguments spell, if they are in order. -/
def options? (a : Arguments) : Option Options := do
  let sample ← once? (a.valuesOf .sample)
  let output ← (← once? (a.valuesOf .output)).mapM path?
  let depth ← (← once? (a.valuesOf .maxDepth)).mapM Numeral.word?
  let backends ← (a.valuesOf .backend).mapM Output.Backend.ofName?
  let _ ← a.flag? .verbose
  return {
    source := ← source? a.inputs sample
    output := output
    backends := if backends.isEmpty then Output.Backend.all else backends
    maxDepth := depth.getD Document.defaultDepth
    strict := ← a.flag? .strict
    printSource := ← a.flag? .printSource }

end Arguments

/-- Read the arguments of a run; nothing if they are misused. -/
def options? (args : List String) : Option Options :=
  (readArguments {} none args).bind Arguments.options?

end Blueprint.CommandLine
