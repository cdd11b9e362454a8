import Blueprint.Proofs.Alignment
import Blueprint.Proofs.Described
import Blueprint.Proofs.Files
import Blueprint.Proofs.Styles

/-! # Structs of a Go file

The lines of fields are laid out together and then put between the comments on defective
attributes. Whether times are imported is decided apart from how types are written. All the same,
the file is what its reader expects: every struct has a line for each field, in order, with the
name, the type and the tag of that field, and times are imported just when a line uses them.
-/

namespace Blueprint.Output.Go

open Text

/-! ### Reading a file -/

/-- What a line between the brackets of a struct says. -/
inductive Row where
  | field (name type tag : String)
  | comment (text : String)
deriving DecidableEq

namespace Row

/-- What a field should have in its struct. -/
def ofField : Field → Row
  | .valid c => field (fieldName c) (fieldType c) (fieldTag c)
  | .invalid name defects => comment (name ++ " has errors: " ++ defects)

/-- Whether a row needs the package of times. -/
def isTime : Row → Bool
  | field _ type _ => type = "time.Time" || type = "*time.Time"
  | comment _ => false

/-- A row on a line of its own, with blanks between its parts. -/
inductive Written : Row → String → Prop where
  | field {name type tag line : String} {blanks : List Nat}
      (hlaid : Grid.Laid [name, type, tag] blanks line) (hapart : ∀ n ∈ blanks, 0 < n) :
      Written (field name type tag) ("\t" ++ line)
  | comment (text : String) : Written (comment text) ("\t// " ++ text)

/-- The text before the first blank, and what follows the blanks there. -/
def cut (cs : List Char) : List Char × List Char :=
  (cs.takeWhile (· ≠ ' '), (cs.dropWhile (· ≠ ' ')).dropWhile (· = ' '))

/-- The row that a line shows. -/
def ofLine (line : String) : Row :=
  match stripStart? "\t// " line with
  | some text => comment text
  | none =>
    let name := cut (line.toList.drop 1)
    let type := cut name.2
    field (.ofList name.1) (.ofList type.1) (.ofList type.2)

end Row

/-- The name of the struct that a line opens. -/
def structName? (line : String) : Option String :=
  (stripStart? "type " line).bind (stripEnd? " struct \x7b")

/-- The structs of a file with their names, each with the lines up to its closing bracket. -/
def structs : List String → List (String × List String)
  | [] => []
  | line :: rest =>
    match structName? line with
    | some name => (name, rest.takeWhile (· ≠ "\x7d")) :: structs rest
    | none => structs rest

/-- What a file imports. -/
def imports (lines : List String) : List String :=
  lines.filterMap (stripStart? "import ")

/-! ### Rows -/

variable {d : Document} {s : Schema} {e : Entity} {c : Column} {line : String} {row : Row}

/-- A field holds a time just when its kind does. -/
theorem isTime_ofField (c : Column) :
    (Row.ofField (.valid c)).isTime = c.storageKind.isTemporal := by
  dsimp only [Row.ofField, Row.isTime, fieldType, typeText]
  generalize c.storageKind = kind
  generalize (c.source.required || c.source.primary) = given
  cases kind <;> cases given <;> decide

theorem usesTime_iff :
    usesTime d s ↔ ∃ e ∈ s.entities, ∃ field ∈ d.fields e.id, (Row.ofField field).isTime := by
  simp only [usesTime, List.any_eq_true, Document.mem_validColumns_iff]
  constructor
  · rintro ⟨e, he, c, hfield, htime⟩
    exact ⟨e, he, _, hfield, (isTime_ofField c).trans htime⟩
  · rintro ⟨e, he, field, hfield, htime⟩
    cases field with
    | invalid name defects => cases htime
    | valid c => exact ⟨e, he, c, hfield, (isTime_ofField c).symm.trans htime⟩

/-- The line of a field, aligned to the given widths. -/
def fieldLine (widths : List Nat) : Field → String
  | .valid c => "\t" ++ Grid.line width widths (cells c)
  | .invalid name defects => "\t" ++ commentText name defects

/-- Every field gets its own line: the aligned lines are as many as the valid fields. -/
theorem bodyLines_eq_map (fields : List Field) :
    bodyLines fields = fields.map
      (fieldLine (Grid.widths width ((fields.filterMap Field.column?).map cells))) := by
  rw [bodyLines, Grid.render]
  generalize Grid.widths width _ = widths
  induction fields with
  | nil => rfl
  | cons field fields ih =>
      cases field with
      | valid c => exact congrArg (fieldLine widths (.valid c) :: ·) ih
      | invalid name defects => exact congrArg (fieldLine widths (.invalid name defects) :: ·) ih

/-- A field is written on a line of its own. -/
theorem written_fieldLine {fields : List Field} {field : Field} (hfield : field ∈ fields) :
    (Row.ofField field).Written
      (fieldLine (Grid.widths width ((fields.filterMap Field.column?).map cells)) field) := by
  cases field with
  | invalid name defects =>
      have hline := Row.Written.comment (name ++ " has errors: " ++ defects)
      have htext : "\t" ++ commentText name defects =
          "\t// " ++ (name ++ " has errors: " ++ defects) := by
        simp [← String.toList_inj, commentText]
      rwa [Row.ofField, fieldLine, htext]
  | valid c =>
      have hrow : cells c ∈ (fields.filterMap Field.column?).map cells :=
        List.mem_map_of_mem (List.mem_filterMap.mpr ⟨_, hfield, rfl⟩)
      obtain ⟨blanks, haligned⟩ := Grid.exists_aligned hrow
      exact .field haligned.laid haligned.apart

theorem written_bodyLines (fields : List Field) :
    List.Forall₂ Row.Written (fields.map Row.ofField) (bodyLines fields) := by
  rw [bodyLines_eq_map, List.forall₂_map_left_iff, List.forall₂_map_right_iff, List.forall₂_same]
  exact fun _ => written_fieldLine

/-! ### Structs -/

theorem structName?_eq_none (hline : line.toList.head? ≠ some 't') : structName? line = none := by
  rw [structName?, stripStart?_eq_none rfl hline, Option.bind_none]

theorem structName?_type (name : String) :
    structName? ("type " ++ name ++ " struct \x7b") = some name := by
  rw [String.append_assoc, structName?, stripStart?_append, Option.bind_some, stripEnd?_append]

/-- Lines that open no struct are passed over. -/
theorem structs_append {lines : List String}
    (hlines : ∀ line ∈ lines, line.toList.head? ≠ some 't') (rest : List String) :
    structs (lines ++ rest) = structs rest := by
  induction lines with
  | nil => rfl
  | cons line lines ih =>
      obtain ⟨hline, hlines⟩ := List.forall_mem_cons.mp hlines
      rw [List.cons_append, structs, structName?_eq_none hline]
      exact ih hlines

theorem head?_fieldLine (widths : List Nat) (field : Field) :
    (fieldLine widths field).toList.head? = some '\t' := by
  cases field <;> simp [fieldLine]

theorem head?_of_mem_bodyLines {fields : List Field} (hline : line ∈ bodyLines fields) :
    line.toList.head? = some '\t' := by
  rw [bodyLines_eq_map] at hline
  obtain ⟨field, _, rfl⟩ := List.mem_map.mp hline
  exact head?_fieldLine _ field

theorem structs_structLines (d : Document) (relations : List Relation) (e : Entity)
    (rest : List String) :
    structs (("" :: structLines d relations e) ++ rest) =
      (pascalName e.name, bodyLines (d.fields e.id)) :: structs rest := by
  have hbody : ∀ line ∈ bodyLines (d.fields e.id),
      line.toList.head? ≠ some 't' ∧ line ≠ "\x7d" := by
    intro line hline
    have hhead := head?_of_mem_bodyLines hline
    refine ⟨by simp [hhead], ?_⟩
    rintro rfl
    cases hhead
  have hbefore : ∀ line ∈ "" :: (Relation.withBase e.id relations).map fun r =>
      "// " ++ describe d r, line.toList.head? ≠ some 't' := by
    simp
  have hafter : ∀ line ∈ bodyLines (d.fields e.id) ++ ["\x7d"], line.toList.head? ≠ some 't' := by
    intro line hline
    rcases List.mem_append.mp hline with hline | hline
    · exact (hbody line hline).1
    · simp [List.mem_singleton.mp hline]
  have htake : (bodyLines (d.fields e.id) ++ "\x7d" :: rest).takeWhile (· ≠ "\x7d") =
      bodyLines (d.fields e.id) := by
    rw [List.takeWhile_append_of_pos (by simpa using fun line hline => (hbody line hline).2)]
    simp
  have hsplit : ("" :: structLines d relations e) ++ rest =
      ("" :: (Relation.withBase e.id relations).map fun r => "// " ++ describe d r) ++
        ("type " ++ pascalName e.name ++ " struct \x7b") ::
          ((bodyLines (d.fields e.id) ++ ["\x7d"]) ++ rest) := by
    simp [structLines]
  rw [hsplit, structs_append hbefore, structs, structName?_type]
  dsimp only
  rw [structs_append hafter, List.append_assoc, List.singleton_append, htake]

theorem structs_entities (d : Document) (relations : List Relation) (entities : List Entity) :
    structs (entities.flatMap fun e => "" :: structLines d relations e) =
      entities.map fun e => (pascalName e.name, bodyLines (d.fields e.id)) := by
  induction entities with
  | nil => rfl
  | cons e entities ih =>
      rw [List.flatMap_cons, structs_structLines, ih]
      rfl

/-- Every struct of a file has the lines of its entity. -/
theorem structs_fileLines (d : Document) (relations : List Relation) (s : Schema) :
    structs (fileLines d relations s) =
      s.entities.map fun e => (pascalName e.name, bodyLines (d.fields e.id)) := by
  have htop : ∀ line ∈ ["// Code generated by schemagen. DO NOT EDIT.", "",
      "package " ++ packageName s.name] ++ if usesTime d s then ["", "import \"time\""] else [],
      line.toList.head? ≠ some 't' := by
    split <;> simp
  rw [fileLines, structs_append htop, structs_entities]

/-! ### Imports -/

theorem imports_append (lines lines' : List String) :
    imports (lines ++ lines') = imports lines ++ imports lines' :=
  List.filterMap_append

theorem imports_structLines (d : Document) (relations : List Relation) (e : Entity) :
    imports ("" :: structLines d relations e) = [] := by
  rw [imports, List.filterMap_eq_nil_iff]
  intro line hline
  apply stripStart?_eq_none (c := 'i') rfl
  simp only [structLines, List.mem_cons, List.mem_append, List.mem_map, List.not_mem_nil,
    or_false] at hline
  rcases hline with rfl | (((⟨r, _, rfl⟩ | rfl) | hline) | rfl)
  · simp
  · simp
  · simp
  · simp [head?_of_mem_bodyLines hline]
  · simp

theorem imports_fileLines (d : Document) (relations : List Relation) (s : Schema) :
    imports (fileLines d relations s) = if usesTime d s then ["\"time\""] else [] := by
  have hentities : imports (s.entities.flatMap fun e => "" :: structLines d relations e) = [] := by
    rw [imports, List.filterMap_flatMap, List.flatMap_eq_nil_iff]
    exact fun e _ => imports_structLines d relations e
  have hpackage : stripStart? "import " ("package " ++ packageName s.name) = none :=
    stripStart?_eq_none (c := 'i') rfl (by simp)
  have htop : imports ["// Code generated by schemagen. DO NOT EDIT.", "",
      "package " ++ packageName s.name] = [] := by
    simp only [imports, List.filterMap_cons, hpackage]
    rfl
  rw [fileLines, imports_append, imports_append, hentities, htop, List.append_nil]
  split <;> rfl

/-- Whether lines are a file of a schema: every struct has the name of its entity and a line for
each field, in order, and times are imported just when a field needs them. -/
structure Consistent (d : Document) (s : Schema) (lines : List String) : Prop where
  structs : List.Forall₂ (fun e struct => struct.1 = pascalName e.name ∧
    List.Forall₂ Row.Written ((d.fields e.id).map Row.ofField) struct.2) s.entities (structs lines)
  time : "\"time\"" ∈ imports lines ↔
    ∃ e ∈ s.entities, ∃ field ∈ d.fields e.id, (Row.ofField field).isTime

theorem consistent_fileLines (d : Document) (relations : List Relation) (s : Schema) :
    Consistent d s (fileLines d relations s) := by
  constructor
  · rw [structs_fileLines, List.forall₂_map_right_iff, List.forall₂_same]
    intro e _
    dsimp only
    exact ⟨rfl, written_bodyLines _⟩
  · refine Iff.trans ?_ usesTime_iff
    rw [imports_fileLines]
    cases usesTime d s <;> simp

/-! ### Reading rows -/

namespace Row

variable {name type tag : String}

theorem toList_blanks (n : Nat) : ("".pushn ' ' n).toList = List.replicate n ' ' := by
  induction n with
  | zero => rfl
  | succ n ih =>
      have hpush : "".pushn ' ' (n + 1) = ("".pushn ' ' n).push ' ' := rfl
      rw [hpush, String.toList_push, ih, List.replicate_succ']

theorem Written.toList_field (h : (Row.field name type tag).Written line) :
    ∃ n m, line.toList = '\t' :: (name.toList ++ List.replicate (n + 1) ' ' ++
      (type.toList ++ List.replicate (m + 1) ' ' ++ tag.toList)) := by
  cases h with
  | field hlaid hapart =>
      cases hlaid with
      | cons _ n hlaid =>
          cases hlaid with
          | cons _ m hlaid =>
              cases hlaid
              have hn := hapart n (by simp)
              have hm := hapart m (by simp)
              refine ⟨n - 1, m - 1, ?_⟩
              rw [Nat.sub_add_cancel hn, Nat.sub_add_cancel hm]
              simp only [String.toList_append, toList_blanks]
              rfl

/-- Blanks end a word. -/
theorem cut_append {word rest : List Char} (hword : ' ' ∉ word) (n : Nat)
    (hrest : rest.head? ≠ some ' ') :
    cut (word ++ List.replicate (n + 1) ' ' ++ rest) = (word, rest) := by
  have hall : ∀ c ∈ word, c ≠ ' ' := fun c hc heq => hword (heq ▸ hc)
  have hdrop : rest.dropWhile (· = ' ') = rest := by
    cases rest with
    | nil => rfl
    | cons c rest => simpa using fun heq => hrest (congrArg some heq)
  have hblanks : (List.replicate (n + 1) ' ' ++ rest).dropWhile (· = ' ') = rest := by
    rw [List.dropWhile_append_of_pos (by simp), hdrop]
  rw [cut, List.append_assoc, List.takeWhile_append_of_pos (by simpa using hall),
    List.dropWhile_append_of_pos (by simpa using hall), List.replicate_succ, List.cons_append]
  simp only [ne_eq, not_true_eq_false, decide_false, Bool.false_eq_true, not_false_eq_true,
    List.takeWhile_cons_of_neg, List.append_nil, List.dropWhile_cons_of_neg]
  rw [← List.cons_append, ← List.replicate_succ, hblanks]

/-- Whether the parts of a row can be told apart. -/
def IsLegible : Row → Prop
  | field name type tag => Name.IsPlain name ∧ ' ' ∉ type.toList ∧ type ≠ "" ∧
      tag.toList.head? = some '\x60'
  | comment _ => True

theorem Written.ofLine_eq (hline : row.Written line) (hrow : row.IsLegible) :
    ofLine line = row := by
  cases row with
  | comment text =>
      cases hline
      rw [ofLine, stripStart?_append]
  | field name type tag =>
      obtain ⟨hname, htype, hne, htag⟩ := hrow
      obtain ⟨n, m, htext⟩ := hline.toList_field
      have hstrip : stripStart? "\t// " line = none := by
        rw [Option.eq_none_iff_forall_ne_some]
        intro rest hrest
        rw [stripStart?_eq_some_iff.mp hrest] at htext
        cases hchars : name.toList with
        | nil => simp [hchars, List.replicate_succ] at htext
        | cons c cs =>
            have hc := hname c (by simp [hchars])
            simp only [String.toList_append, hchars, List.cons_append] at htext
            injection htext with _ htext
            injection htext with hslash
            exact absurd (hslash ▸ hc) (by decide)
      have hblank : ' ' ∉ name.toList := fun hmem => absurd (hname _ hmem) (by decide)
      have hfirst : (type.toList ++ List.replicate (m + 1) ' ' ++ tag.toList).head? ≠ some ' ' := by
        obtain ⟨c, cs, hchars⟩ := List.exists_cons_of_ne_nil (by simpa using hne : type.toList ≠ [])
        rw [hchars] at htype ⊢
        simpa using fun heq => htype (by simp [heq])
      rw [ofLine, hstrip]
      dsimp only
      rw [htext, List.drop_one, List.tail_cons, cut_append hblank n hfirst,
        cut_append htype m (by simp [htag])]
      simp only [String.ofList_toList]

end Row

theorem fieldType_isWord (c : Column) :
    ' ' ∉ (fieldType c).toList ∧ '\n' ∉ (fieldType c).toList ∧ fieldType c ≠ "" := by
  dsimp only [fieldType, typeText]
  generalize c.storageKind = kind
  generalize (c.source.required || c.source.primary) = given
  cases kind <;> cases given <;> decide

theorem isLegible_ofField (hname : Name.IsPlain c.name) : (Row.ofField (.valid c)).IsLegible :=
  ⟨isPlain_pascalName hname, (fieldType_isWord c).1, (fieldType_isWord c).2.2, by simp [fieldTag, tagText]⟩

/-! ### Lines of the text -/

theorem isPlain_plural {name : String} (hname : Name.IsPlain name) :
    Name.IsPlain (plural name) := by
  have happend : ∀ stem ending : String, Name.IsPlain stem → ending.toList.all Name.isNameChar →
      Name.IsPlain (stem ++ ending) := by
    intro stem ending hstem hending c hc
    rcases List.mem_append.mp (String.toList_append ▸ hc) with hc | hc
    · exact hstem c hc
    · exact List.all_eq_true.mp hending c hc
  unfold plural
  split
  next stem hstem =>
    exact happend stem _ (fun c hc => hname c (stripEnd?_subset hstem hc)) rfl
  next =>
    split
    · exact happend name _ hname rfl
    · exact happend name _ hname rfl

theorem not_mem_newline_describe (hd : d.PlainNames) (r : Relation) :
    '\n' ∉ (describe d r).toList := by
  have hname : ∀ id, Name.IsPlain (d.entityName id) := by
    intro id
    unfold Document.entityName
    cases hentity : d.entity? id with
    | none => exact fun _ hc => absurd hc List.not_mem_nil
    | some e => exact hd.of_mem_entities (List.mem_of_find?_eq_some hentity)
  have hbase := (isPlain_pascalName (hname r.base)).not_mem_newline
  have hhas : '\n' ∉ (pascalName (r.hasName d)).toList := by
    apply Name.IsPlain.not_mem_newline
    apply isPlain_pascalName
    unfold Relation.hasName
    dsimp only
    split
    · exact isPlain_plural (hname r.has)
    · exact hname r.has
  unfold describe relationText
  cases r.assoc with
  | some assoc => simp [hbase, hhas, (isPlain_pascalName (hname assoc)).not_mem_newline]
  | none =>
      dsimp only [Option.map_none]
      split <;> [skip; split] <;> simp [hbase, hhas]

variable (hd : d.Sound) (hnamed : ∀ m ∈ d.members, m.Named)

include hd hnamed

/-- The rows of an entity can be read, and none of them holds a line end. -/
theorem legible_rows {entity : EntityId} {field : Field} (hfield : field ∈ d.fields entity) :
    (Row.ofField field).IsLegible ∧
      ∀ line, (Row.ofField field).Written line → '\n' ∉ line.toList := by
  rcases hd.of_mem_fields hnamed hfield with
    ⟨c, _, rfl, _, hname⟩ | ⟨name, defects, rfl, hname, hdefects⟩
  · refine ⟨isLegible_ofField hname, fun line hline => ?_⟩
    obtain ⟨n, m, htext⟩ := hline.toList_field
    simp [htext, (fieldType_isWord c).2.1, fieldName, fieldTag, tagText, hname.not_mem_newline,
      (isPlain_pascalName hname).not_mem_newline]
  · refine ⟨trivial, fun line hline => ?_⟩
    cases hline
    simp [hname, hdefects]

theorem not_mem_newline_fileLines (hs : s ∈ d.schemas) (relations : List Relation)
    (hline : line ∈ fileLines d relations s) : '\n' ∉ line.toList := by
  obtain ⟨hschema, hentities⟩ := hd.plain s hs
  simp only [fileLines, structLines, List.mem_append, List.mem_cons, List.mem_flatMap,
    List.not_mem_nil, or_false, List.mem_map] at hline
  rcases hline with ((rfl | rfl | rfl) | himport) |
    ⟨e, he, rfl | (((⟨r, _, rfl⟩ | rfl) | hbody) | rfl)⟩
  · decide
  · decide
  · simp [(isPlain_packageName hschema).not_mem_newline]
  · split at himport
    · simp only [List.mem_cons, List.not_mem_nil, or_false] at himport
      rcases himport with rfl | rfl <;> decide
    · cases himport
  · decide
  · simp [not_mem_newline_describe hd.plain r]
  · simp [(isPlain_pascalName (hentities e he)).not_mem_newline]
  · rw [bodyLines_eq_map] at hbody
    obtain ⟨field, hfield, rfl⟩ := List.mem_map.mp hbody
    exact (legible_rows hd hnamed hfield).2 _ (written_fieldLine hfield)
  · decide

theorem map_ofLine_bodyLines (entity : EntityId) :
    (bodyLines (d.fields entity)).map Row.ofLine = (d.fields entity).map Row.ofField := by
  rw [bodyLines_eq_map, List.map_map]
  apply List.map_congr_left
  intro field hfield
  exact (written_fieldLine hfield).ofLine_eq (legible_rows hd hnamed hfield).1

omit hd hnamed

/-- Whether the lines of a file show the fields of a schema to its reader, and times are imported
just when a line that is read so has the type of a time. -/
structure Legible (d : Document) (s : Schema) (lines : List String) : Prop where
  rows : (structs lines).map (fun struct => (struct.1, struct.2.map Row.ofLine)) =
    s.entities.map fun e => (pascalName e.name, (d.fields e.id).map Row.ofField)
  time : "\"time\"" ∈ imports lines ↔
    ∃ struct ∈ structs lines, ∃ line ∈ struct.2, (Row.ofLine line).isTime

include hd hnamed

theorem legible_fileLines (relations : List Relation) (s : Schema) :
    Legible d s (fileLines d relations s) := by
  have hstructs := structs_fileLines d relations s
  constructor
  · rw [hstructs, List.map_map]
    apply List.map_congr_left
    intro e _
    simp only [Function.comp_apply, map_ofLine_bodyLines hd hnamed]
  · refine (consistent_fileLines d relations s).time.trans ?_
    rw [hstructs]
    simp only [List.mem_map, exists_exists_and_eq_and]
    refine exists_congr fun e => and_congr_right fun _ => ?_
    have hrow : ∀ row, row ∈ (d.fields e.id).map Row.ofField ↔
        row ∈ (bodyLines (d.fields e.id)).map Row.ofLine := by
      rw [map_ofLine_bodyLines hd hnamed]
      exact fun _ => Iff.rfl
    constructor
    · rintro ⟨field, hfield, htime⟩
      obtain ⟨line, hline, heq⟩ := List.mem_map.mp ((hrow _).mp (List.mem_map_of_mem hfield))
      exact ⟨line, hline, heq ▸ htime⟩
    · rintro ⟨line, hline, htime⟩
      obtain ⟨field, hfield, heq⟩ := List.mem_map.mp ((hrow _).mpr (List.mem_map_of_mem hline))
      exact ⟨field, hfield, heq ▸ htime⟩

omit hd hnamed

/-- After any run of edits, every file is the file of a schema. It has a struct for each entity,
and each struct a line for each field, in order: the name, the type and the tag of a valid field
with blanks between them, or a comment on a defective one. Times are imported just when a field has
a type that needs them. After written edits the lines are those of the text, and its reader finds
there what was said. -/
theorem generate_consistent_run (hd : d.IsOrigin) (es : List Edit) :
    let after := d.run es
    (generate after).Keeps (written after) ∧
      List.Forall₂ (fun s file => file.1 = fileId s ∧
        ∃ lines, file.2 = unlines lines ∧ Consistent after s lines ∧
          ((∀ e ∈ es, e.isWritten) →
            splitOn '\n' file.2 = lines ++ [""] ∧ Legible after s lines))
        after.schemas (written after) := by
  intro after
  refine ⟨Files.keeps_ofList _, ?_⟩
  rw [written, List.forall₂_map_right_iff, List.forall₂_same]
  intro s hs
  refine ⟨rfl, fileLines after after.relations s, rfl, consistent_fileLines _ _ _, fun hes => ?_⟩
  obtain ⟨hsound, hdescribed⟩ := hd.described_run hes
  have hnamed : ∀ m ∈ after.members, m.Named := fun m hm => (hdescribed m hm).named
  exact ⟨splitOn_unlines fun _ => not_mem_newline_fileLines hsound hnamed hs _,
    legible_fileLines hsound hnamed _ s⟩

/-- Seats on flights that leave at some time, from a gate that has a defect. -/
def flights : List Edit :=
  [.addSchema "air", .addEntity ⟨1⟩ "flight", .addAttribute ⟨1⟩ "- id as ++",
    .addAttribute ⟨1⟩ "- gate as bit", .addAttribute ⟨1⟩ "- off at as time",
    .addEntity ⟨1⟩ "seat", .addAttribute ⟨2⟩ "- @flight with p"]

/-- The file of these flights. -/
def flightLines : List String :=
  ["// Code generated by schemagen. DO NOT EDIT.", "", "package air", "", "import \"time\"", "",
    "// Flight has many Seats", "type Flight struct \x7b",
    "\tID    int        \x60json:\"id\"\x60", "\t// gate has errors: bit size is required",
    "\tOffAt *time.Time \x60json:\"off_at\"\x60", "\x7d", "", "// Seat has zero or one Flight",
    "type Seat struct \x7b", "\tFlightID int \x60json:\"flight_id\"\x60", "\x7d"]

theorem generate_consistent_run_flights :
    let after := (Document.empty 5).run flights
    let text := unlines flightLines
    written after = [(⟨"air", "air.go"⟩, text)] ∧
      ∃ s lines, after.schemas = [s] ∧ splitOn '\n' text = lines ++ [""] ∧
        Consistent after s lines ∧ Legible after s lines := by
  intro after text
  have hwritten : written after = [(⟨"air", "air.go"⟩, text)] := by decide +kernel
  obtain ⟨_, hfiles⟩ := generate_consistent_run (.empty 5) flights
  rw [hwritten] at hfiles
  obtain ⟨s, rest, ⟨_, lines, _, hconsistent, hlegible⟩, hnil, hschemas⟩ :=
    List.forall₂_cons_right_iff.mp hfiles
  obtain rfl := List.forall₂_nil_right_iff.mp hnil
  obtain ⟨hlines, hlegible⟩ := hlegible (by simp [flights, Edit.isWritten])
  exact ⟨hwritten, s, lines, hschemas, hlines, hconsistent, hlegible⟩

end Blueprint.Output.Go
