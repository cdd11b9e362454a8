import Blueprint.Text.CodeSet

/-! # Blanks and trimming

A blank is any character with the `White_Space` property; the zero-width space
and the byte order mark are not among them.
-/

namespace Blueprint.Text

/-- The characters with the `White_Space` property. -/
def blankSet : CodeSet := [
  (0x9, 0xd), (0x20, 0x20), (0x85, 0x85), (0xa0, 0xa0), (0x1680, 0x1680), (0x2000, 0x200a),
  (0x2028, 0x2029), (0x202f, 0x202f), (0x205f, 0x205f), (0x3000, 0x3000)]

def isBlank (c : Char) : Bool :=
  blankSet.contains c

namespace Chars

/-- The text without its leading blanks. -/
def trimStart (cs : List Char) : List Char :=
  cs.dropWhile isBlank

/-- The text without its trailing blanks. -/
def trimEnd (cs : List Char) : List Char :=
  (cs.reverse.dropWhile isBlank).reverse

/-- The text without the blanks around it. -/
def trim (cs : List Char) : List Char :=
  trimEnd (trimStart cs)

end Chars

/-- The text without its leading blanks. -/
def trimStart (s : String) : String :=
  .ofList (Chars.trimStart s.toList)

/-- The text without the blanks around it. -/
def trim (s : String) : String :=
  .ofList (Chars.trim s.toList)

/-- The trimmed text, or nothing if only blanks were written. -/
def trimmed? (s : String) : Option String :=
  let t := trim s
  if t.isEmpty then none else some t

end Blueprint.Text
