import Blueprint.Text.Word

/-! # Names in generated code

Identifiers of the output languages. Some words are written in capitals throughout.
-/

namespace Blueprint.Output

open Text

/-- Words that are written in capitals. -/
def acronyms : List String := ["id", "html", "css", "js", "eol", "eof", "dob", "ttl"]

/-- Words in a style, unless there are none. -/
def styled (style : String → String) (run : List String) : String :=
  if run.isEmpty then "" else style (joinWith "_" run)

/-- The words after `run`: acronyms in capitals, each stretch of other words in a style. -/
def joinWords (style : String → String) (run : List String) : List String → String
  | [] => styled style run
  | word :: rest =>
    if acronyms.contains word then styled style run ++ upper word ++ joinWords style [] rest
    else joinWords style (run ++ [word]) rest

/-- The words of an identifier in a style, with acronyms in capitals. -/
def withAcronyms (style : String → String) (s : String) : String :=
  joinWords style [] ((splitOn '_' (snake s)).filter (!·.isEmpty))

/-- `foo_bar_id` as `fooBarID`. -/
def camelName (s : String) : String :=
  withAcronyms camel s

/-- `foo_bar_id` as `FooBarID`. -/
def pascalName (s : String) : String :=
  withAcronyms pascal s

/-- The package of a schema: its name without underscores. -/
def packageName (schema : String) : String :=
  eraseChar '_' (snake schema)

end Blueprint.Output
