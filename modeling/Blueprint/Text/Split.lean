/-! # Cutting and joining text

Cuts at the first delimiter, at every delimiter character, and at line ends.
-/

namespace Blueprint.Text

namespace Chars

/-- The text after `head`, if it starts with it. -/
def stripStart? (head cs : List Char) : Option (List Char) :=
  if head.isPrefixOf cs then some (cs.drop head.length) else none

/-- The text before `tail`, if it ends with it. -/
def stripEnd? (tail cs : List Char) : Option (List Char) :=
  if tail.isSuffixOf cs then some (cs.take (cs.length - tail.length)) else none

/-- The texts before and after the first occurrence of `mark`. -/
def cut? (mark : List Char) : List Char → Option (List Char × List Char)
  | [] => none
  | c :: rest =>
    match stripStart? mark (c :: rest) with
    | some after => some ([], after)
    | none => (cut? mark rest).map fun (before, after) => (c :: before, after)

/-- The lines of a text; a line end is `\n`, with at most one `\r` before it. -/
def lines (cs : List Char) : List (List Char) :=
  let pieces := cs.splitOn '\n'
  let ended := pieces.dropLast.map fun piece => (stripEnd? ['\r'] piece).getD piece
  ended ++ pieces.getLast?.toList.filter (!·.isEmpty)

end Chars

/-- The text after `head`, if it starts with it. -/
def stripStart? (head s : String) : Option String :=
  (Chars.stripStart? head.toList s.toList).map .ofList

/-- The text before `tail`, if it ends with it. -/
def stripEnd? (tail s : String) : Option String :=
  (Chars.stripEnd? tail.toList s.toList).map .ofList

/-- The texts before and after the first occurrence of `mark`. -/
def cut? (mark s : String) : Option (String × String) :=
  (Chars.cut? mark.toList s.toList).map fun (before, after) => (.ofList before, .ofList after)

/-- Whether the text holds `mark`. -/
def holds (mark s : String) : Bool :=
  (cut? mark s).isSome

/-- The pieces between the occurrences of a character. -/
def splitOn (mark : Char) (s : String) : List String :=
  (s.toList.splitOn mark).map .ofList

/-- The lines of a text, without their ends. -/
def lines (s : String) : List String :=
  (Chars.lines s.toList).map .ofList

/-- The lines as one text, each with its end. -/
def unlines (ls : List String) : String :=
  String.join (ls.map (· ++ "\n"))

/-- The text with every `old` replaced by `new`. -/
def replaceChar (old new : Char) (s : String) : String :=
  .ofList (s.toList.map fun c => if c = old then new else c)

/-- The text without the characters equal to `c`. -/
def eraseChar (c : Char) (s : String) : String :=
  .ofList (s.toList.filter (· ≠ c))

/-- The texts joined with `separator` between them. -/
def joinWith (separator : String) (parts : List String) : String :=
  separator.intercalate parts

/-- The text padded on the left to `width` characters. -/
def padStart (fill : Char) (width : Nat) (s : String) : String :=
  .ofList (s.toList.leftpad width fill)

end Blueprint.Text
