import Blueprint.Attribute.Basic

/-! # Writing an attribute line

The line declares the same attribute when it is read again.
-/

namespace Blueprint.Attribute

open Text

/-- The range as an option, if there is one. -/
def rangeOption (a : Attribute) : List String :=
  if a.min.isSome || a.max.isSome then [a.min.getD "" ++ ".." ++ a.max.getD ""] else []

/-- The options of the line, in the order they are written. -/
def optionTexts (a : Attribute) : List String :=
  (if a.primary then ["primary"] else []) ++
  (if a.required then ["required"] else []) ++
  a.rangeOption ++
  (a.unique.filterMap trimmed?).map ("unique:" ++ ·) ++
  a.defaultValue.toList.map ("default:" ++ ·)

/-- What the line declares, without its options. -/
def headText (a : Attribute) : String :=
  if a.isReference then
    "- @" ++ a.name ++ (a.localName.map (" as " ++ ·)).getD ""
  else
    "- " ++ a.name ++ " as " ++ a.kind.keyword

/-- The line that declares the attribute. -/
def line (a : Attribute) : String :=
  if a.optionTexts.isEmpty then a.headText
  else a.headText ++ " with " ++ joinWith ", " a.optionTexts

end Blueprint.Attribute
