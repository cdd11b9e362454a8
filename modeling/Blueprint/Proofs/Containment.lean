import Blueprint.Proofs.Literals
import Blueprint.Proofs.Spelling
import Blueprint.Proofs.TableOrder

/-! # Containment

Nothing that a document says leaves its place in the file of tables. Names are plain,
values are literals, and what is known of a defective attribute stands in a comment. So
each definition is one piece of a line, and the brackets, commas and semicolons of the
file are its own.
-/

namespace Blueprint.Output.Postgres

open Text Document

variable {d : Document} {entity : EntityId}

/-! ### Names -/

theorem fragment_columnList {names : List String} (h : ∀ name ∈ names, Name.IsPlain name) :
    Fragment (columnList names) := by
  have hchars : ∀ c ∈ (joinWith ", " names).toList, c = ',' ∨ isQuiet c := by
    intro c hc
    rcases mem_joinWith hc with hsep | ⟨name, hname, hmem⟩
    · have hsep : c ∈ [',', ' '] := hsep
      rcases List.mem_cons.mp hsep with rfl | hsep
      · exact Or.inl rfl
      · exact Or.inr (List.mem_singleton.mp hsep ▸ by decide)
    · exact Or.inr (isQuiet_of (by decide) (h name hname c hmem))
  refine Statements.fragment_brackets (statements_of_isFlat (List.all_eq_true.mpr ?_) ?_) ?_
  · intro c hc
    rcases hchars c hc with rfl | hc
    · decide
    · exact isFlat_of_isQuiet hc
  · refine List.count_eq_zero_of_not_mem fun hmem => ?_
    exact absurd (hchars _ hmem) (by decide)
  · exact fun hmem => absurd (hchars _ hmem) (by decide)

theorem fragment_qualifiedName (hd : d.PlainNames) (id : EntityId) :
    Fragment (d.qualifiedName id) := by
  refine fragment_of_isVerbatim (isVerbatim_of_isQuiet fun c hc => ?_)
  rcases hd.of_mem_qualifiedName hc with hc | rfl
  · exact isQuiet_of (by decide) hc
  · decide

/-! ### Items -/

/-- What an item may be: a definition that is part of a line, or a comment of one line. -/
def Item.IsSafe : Item → Prop
  | .definition text => Fragment text
  | .comment text => ∃ rest, text = "--" ++ rest ∧ '\n' ∉ rest.toList

theorem isSafe_invalid {name defects : String} (hname : '\n' ∉ name.toList)
    (hdefects : '\n' ∉ defects.toList) : (Item.ofField (.invalid name defects)).IsSafe := by
  refine ⟨" " ++ name ++ " has errors: " ++ defects, ?_, ?_⟩
  · apply String.toList_inj.mp
    simp [String.toList_append]
  · simp [String.toList_append, hname, hdefects]

section Declared

-- What is known of every document that was read.
variable (hd : d.Sound) (hdeclared : ∀ m ∈ d.members, m.Declared)
include hd hdeclared

theorem isPlain_name {c : Column} (hc : c ∈ d.columns entity) : Name.IsPlain c.name :=
  hd.isPlain_name (fun m hm => (hdeclared m hm).named) hc

theorem isSafe_fields {field : Field} (hfield : field ∈ d.fields entity) :
    (Item.ofField field).IsSafe := by
  rcases hd.of_mem_fields (fun m hm => (hdeclared m hm).named) hfield with
    ⟨c, hc, rfl, hvalid, hname⟩ | ⟨name, defects, rfl, hname, hdefects⟩
  · refine fragment_columnText hname fun _ => ?_
    simp only [Column.isValid, Bool.and_eq_true, Bool.not_eq_true'] at hvalid
    exact (hdeclared _ (way_of_mem_columnsFrom hc).1).checked hvalid.2
  · exact isSafe_invalid hname hdefects

theorem isSafe_keyItems {item : Item} (hitem : item ∈ keyItems d entity) : item.IsSafe := by
  have hnames : ∀ name ∈ (d.primary entity).map Column.name, Name.IsPlain name := by
    intro name hname
    obtain ⟨c, hc, rfl⟩ := List.mem_map.mp hname
    exact isPlain_name hd hdeclared (List.mem_filter.mp hc).1
  unfold keyItems at hitem
  split at hitem
  · cases hitem
  · obtain rfl := List.mem_singleton.mp hitem
    exact (fragment_of_isVerbatim (by decide)).append (fragment_columnList hnames)

theorem isSafe_uniqueItems {item : Item} (hitem : item ∈ uniqueItems d entity) : item.IsSafe := by
  obtain ⟨⟨label, columns⟩, hgroup, rfl⟩ := List.mem_map.mp hitem
  refine (fragment_of_isVerbatim (by decide)).append (fragment_columnList ?_)
  intro name hname
  obtain ⟨c, hc, rfl⟩ := List.mem_map.mp hname
  obtain ⟨_, _, hpair⟩ := List.mem_map.mp hgroup
  obtain ⟨_, rfl⟩ := Prod.mk.inj hpair
  obtain ⟨⟨_, c⟩, hlabelled, rfl⟩ := List.mem_map.mp hc
  obtain ⟨_, hcolumn, hlabel⟩ := List.mem_flatMap.mp (List.mem_filter.mp hlabelled).1
  obtain ⟨_, _, hpair⟩ := List.mem_map.mp hlabel
  obtain ⟨_, rfl⟩ := Prod.mk.inj hpair
  exact isPlain_name hd hdeclared (List.mem_filter.mp hcolumn).1

theorem isSafe_foreignKeys {key : ForeignKey} (hkey : key ∈ foreignKeys d entity) :
    (Item.definition (foreignKeyText d key)).IsSafe := by
  have hnames : (∀ name ∈ key.columns, Name.IsPlain name) ∧
      ∀ name ∈ key.targets, Name.IsPlain name := by
    rw [foreignKeys_eq_filterMap hd.handles hd.ordered] at hkey
    obtain ⟨m, _, hkey⟩ := List.mem_filterMap.mp hkey
    rw [foreignKeyOf?] at hkey
    have hcolumns : ∀ c ∈ ((d.validColumns entity).filter fun c => !c.isDirect).filter
        (fun c => c.source.id = m.id), c ∈ d.columns entity := by
      intro c hc
      have hvalid := (List.mem_filter.mp (List.mem_filter.mp hc).1).1
      rw [hd.handles.validColumns_eq] at hvalid
      exact (List.mem_filter.mp hvalid).1
    generalize ((d.validColumns entity).filter fun c => !c.isDirect).filter
      (fun c => c.source.id = m.id) = columns at hkey hcolumns
    cases columns with
    | nil => cases hkey
    | cons first rest =>
        obtain ⟨via, _, rfl⟩ := Option.map_eq_some_iff.mp hkey
        constructor
        · intro name hname
          obtain ⟨c, hc, rfl⟩ := List.mem_map.mp hname
          exact isPlain_name hd hdeclared (hcolumns c hc)
        · intro name hname
          obtain ⟨c, hc, htarget⟩ := List.mem_filterMap.mp hname
          unfold Column.viaColumn? at htarget
          split at htarget
          · cases htarget
          · obtain rfl := Option.some.inj htarget
            exact Column.isPlain_nameOf fun s hs =>
              hd.mem_segments (fun m hm => (hdeclared m hm).named) (hcolumns c hc)
                (List.mem_of_mem_tail hs)
  exact ((((fragment_of_isVerbatim (by decide)).append (fragment_columnList hnames.1)).append
    (fragment_of_isVerbatim (by decide))).append (fragment_qualifiedName hd.plain key.via)).append
    (fragment_of_isVerbatim (by decide)) |>.append (fragment_columnList hnames.2)

theorem isSafe_items :
    ∀ item ∈ items d entity, item.IsSafe := by
  intro item hitem
  simp only [items, List.mem_append] at hitem
  rcases hitem with ((hitem | hitem) | hitem) | hitem
  · obtain ⟨field, hfield, rfl⟩ := List.mem_map.mp hitem
    exact isSafe_fields hd hdeclared hfield
  · exact isSafe_keyItems hd hdeclared hitem
  · exact isSafe_uniqueItems hd hdeclared hitem
  · obtain ⟨key, hkey, rfl⟩ := List.mem_map.mp hitem
    exact isSafe_foreignKeys hd hdeclared hkey

end Declared

/-! ### Lines of a table -/

/-- The text of a definition. -/
def Item.text? : Item → Option String
  | .definition text => some text
  | .comment _ => none

/-- Lines with a comma after each but the last. -/
def separated : List String → List String
  | [] => []
  | [line] => [line]
  | line :: next :: rest => (line ++ ",") :: separated (next :: rest)

/-- Whether a line shows nothing but blanks before a comment. -/
def isCommentLine (line : String) : Bool :=
  finish line = .comment && (shown line).all isBlank

/-- Whether a text can stand between two separating commas: it ends outside of literals and
comments and shows balanced brackets, commas only between them and no semicolon. -/
structure IsItem (text : String) : Prop where
  finish : finish text = .outside
  balanced : Balanced (shown text)
  commas : CommasInside (shown text)
  semicolon : ';' ∉ shown text

theorem Fragment.isItem {text : String} (h : Fragment text) : IsItem text := by
  obtain ⟨_, seen, hshows, hbalanced, hcommas, hsemicolon⟩ := h
  have hshown : shown text = seen := by rw [shown, hshows.scan_eq]
  exact ⟨by rw [Postgres.finish, hshows.scan_eq], hshown ▸ hbalanced, hshown ▸ hcommas,
    hshown ▸ hsemicolon⟩

theorem Statements.isCommentLine_eq_false {n : Nat} {line : String} (h : Statements n line) :
    isCommentLine line = false := by
  simp [isCommentLine, h.finish_eq]

theorem isCommentLine_comment {rest : String} (hrest : '\n' ∉ rest.toList) :
    isCommentLine ("    " ++ ("--" ++ rest)) := by
  have hscan : scan .outside ("    " ++ ("--" ++ rest)).toList =
      ([' ', ' ', ' ', ' '], .comment) := by
    have hcomment := scan_outside_comment hrest []
    rw [List.append_nil] at hcomment
    rw [String.toList_append, String.toList_append,
      shows_of_isVerbatim (by decide : isVerbatim "    ".toList)]
    exact congrArg (fun p : List Char × Mode => ([' ', ' ', ' ', ' '] ++ p.1, p.2)) hcomment
  rw [isCommentLine, finish, shown, hscan]
  decide

theorem fragment_indented {text : String} (h : Fragment text) : Fragment ("    " ++ text) :=
  (fragment_of_isVerbatim (by decide)).append h

theorem statements_comma : Statements 0 "," :=
  statements_of_isFlat (by decide) (by decide)

theorem statements_newline : Statements 0 "\n" :=
  statements_of_isFlat (by decide) (by decide)

/-- The line of a definition, with or without a comma. -/
theorem statements_line {text : String} (h : Fragment text) (comma : Bool) :
    Statements 0 ("    " ++ text ++ if comma then "," else "") := by
  refine (fragment_indented h).statements.append (n := 0) ?_
  split
  · exact statements_comma
  · exact (fragment_of_isVerbatim (by decide) : Fragment "").statements

theorem any_isDefinition (l : List Item) :
    l.any Item.isDefinition = !(l.filterMap Item.text?).isEmpty := by
  induction l with
  | nil => rfl
  | cons item l ih =>
      cases item <;> simp [Item.isDefinition, Item.text?, List.filterMap_cons, ih]

/-- Without the comment lines, every definition but the last is followed by a comma. -/
theorem filter_itemLines {l : List Item} (h : ∀ item ∈ l, item.IsSafe) :
    (itemLines l).filter (fun line => !isCommentLine line) =
      separated ((l.filterMap Item.text?).map ("    " ++ ·)) := by
  induction l with
  | nil => rfl
  | cons item l ih =>
      obtain ⟨hitem, hl⟩ := List.forall_mem_cons.mp h
      cases item with
      | comment text =>
          obtain ⟨rest, rfl, hrest⟩ := hitem
          rw [itemLines, List.filter_cons, isCommentLine_comment hrest]
          exact ih hl
      | definition text =>
          have hline := (statements_line hitem (l.any Item.isDefinition)).isCommentLine_eq_false
          rw [itemLines, List.filter_cons, hline, ih hl, any_isDefinition]
          -- Whether a comma follows is whether there is a definition left.
          cases hrest : l.filterMap Item.text? with
          | nil => simp [Item.text?, hrest, separated]
          | cons next more => simp [Item.text?, hrest, separated]

theorem unlines_cons (line : String) (rest : List String) :
    unlines (line :: rest) = line ++ "\n" ++ unlines rest := by
  rw [← List.singleton_append, unlines_append]
  simp [unlines]

theorem statements_itemLines {l : List Item} (h : ∀ item ∈ l, item.IsSafe) :
    Statements 0 (unlines (itemLines l)) := by
  induction l with
  | nil => exact (fragment_of_isVerbatim (by decide) : Fragment "").statements
  | cons item l ih =>
      obtain ⟨hitem, hl⟩ := List.forall_mem_cons.mp h
      cases item with
      | comment text =>
          obtain ⟨rest, rfl, hrest⟩ := hitem
          rw [itemLines, unlines_cons]
          refine Statements.append (m := 0) ?_ (ih hl)
          refine ⟨[' ', ' ', ' ', ' '] ++ ['\n'], ?_, balanced_of_not_mem (by decide) (by decide),
            by decide⟩
          have hshows := (shows_of_isVerbatim (by decide : isVerbatim [' ', ' ', ' ', ' '])).append
            (shows_comment hrest)
          simpa [String.toList_append] using hshows
      | definition text =>
          rw [itemLines, unlines_cons]
          exact ((statements_line hitem _).append statements_newline).append (ih hl)

theorem not_mem_newline_itemLines {l : List Item} (h : ∀ item ∈ l, item.IsSafe) {line : String}
    (hline : line ∈ itemLines l) : '\n' ∉ line.toList := by
  induction l with
  | nil => cases hline
  | cons item l ih =>
      obtain ⟨hitem, hl⟩ := List.forall_mem_cons.mp h
      cases item with
      | comment text =>
          obtain ⟨rest, rfl, hrest⟩ := hitem
          rcases List.mem_cons.mp hline with rfl | hline
          · simp [String.toList_append, hrest]
          · exact ih hl hline
      | definition text =>
          rcases List.mem_cons.mp hline with rfl | hline
          · split <;> simp [String.toList_append, hitem.1]
          · exact ih hl hline

/-! ### The file -/

theorem statements_schemaLines (hd : d.PlainNames) {s : Schema} (hs : s ∈ d.schemas) :
    Statements 1 (unlines (schemaLines s)) := by
  have hname : Statements 0 s.name := (fragment_of_isPlain (hd s hs).1).statements
  have htext : unlines (schemaLines s) =
      "\nCREATE SCHEMA IF NOT EXISTS " ++ s.name ++ ";\n" := by
    apply String.toList_inj.mp
    simp [schemaLines, toList_unlines, String.toList_append]
  rw [htext]
  exact (Statements.append (m := 0) (statements_of_isFlat (by decide) (by decide)) hname).append
    (n := 1) (statements_of_isFlat (by decide) (by decide))

/-- The table of an entity stands in the file. -/
theorem exists_fileLines_table {e : Entity} (he : e ∈ d.entities) :
    ∃ before after, fileLines d = before ++ tableLines d e.id ++ after := by
  have hmem : e.id ∈ tableOrder d :=
    (tableOrder_perm d).mem_iff.mpr (List.mem_map.mpr ⟨e, he, rfl⟩)
  obtain ⟨front, back, hsplit⟩ := List.append_of_mem hmem
  refine ⟨["-- Code generated by schemagen. DO NOT EDIT."] ++ d.schemas.flatMap schemaLines ++
    (front.flatMap fun entity => "" :: tableLines d entity) ++ [""],
    back.flatMap fun entity => "" :: tableLines d entity, ?_⟩
  rw [fileLines, hsplit]
  simp [List.flatMap_append, List.flatMap_cons]

section Declared

variable (hd : d.Sound) (hdeclared : ∀ m ∈ d.members, m.Declared)
include hd hdeclared

theorem statements_tableLines (entity : EntityId) :
    Statements 1 (unlines (tableLines d entity)) := by
  have hname := (fragment_qualifiedName hd.plain entity).statements
  have hbody : Statements 0 ("(" ++ ("\n" ++ unlines (itemLines (items d entity))) ++ ")") :=
    (statements_newline.append (statements_itemLines (isSafe_items hd hdeclared))).brackets
  have htext : unlines (tableLines d entity) = "CREATE TABLE " ++ d.qualifiedName entity ++ " " ++
      ("(" ++ ("\n" ++ unlines (itemLines (items d entity))) ++ ")") ++ ";\n" := by
    apply String.toList_inj.mp
    simp [tableLines, toList_unlines, String.toList_append]
  rw [htext]
  have hopening : Statements 0 ("CREATE TABLE " ++ d.qualifiedName entity ++ " ") :=
    (Statements.append (m := 0) (statements_of_isFlat (by decide) (by decide)) hname).append
      (n := 0) (statements_of_isFlat (by decide) (by decide))
  exact (hopening.append hbody).append (n := 1) (statements_of_isFlat (by decide) (by decide))

theorem statements_fileLines :
    Statements (d.schemas.length + d.entities.length) (unlines (fileLines d)) := by
  have hheader : Statements 0 (unlines ["-- Code generated by schemagen. DO NOT EDIT."]) := by
    have hline : '\n' ∉ " Code generated by schemagen. DO NOT EDIT.".toList := by decide
    exact ⟨['\n'], shows_comment hline, balanced_of_not_mem (by decide) (by decide), by decide⟩
  have hschemas := statements_unlines_flatMap fun s hs => statements_schemaLines hd.plain hs
  have htables : Statements (d.entities.length * 1)
      (unlines ((tableOrder d).flatMap fun entity => "" :: tableLines d entity)) := by
    have hlength : (tableOrder d).length = d.entities.length := by
      rw [(tableOrder_perm d).length_eq, List.length_map]
    rw [← hlength]
    refine statements_unlines_flatMap fun entity _ => ?_
    rw [← List.singleton_append, unlines_append]
    exact statements_newline.append (statements_tableLines hd hdeclared entity)
  rw [Nat.mul_one] at hschemas htables
  rw [fileLines, unlines_append, unlines_append]
  have hall := (hheader.append hschemas).append htables
  rwa [Nat.zero_add] at hall

theorem not_mem_newline_fileLines {line : String} (hline : line ∈ fileLines d) :
    '\n' ∉ line.toList := by
  simp only [fileLines, List.mem_append, List.mem_singleton, List.mem_flatMap] at hline
  rcases hline with (rfl | ⟨s, hs, hline⟩) | ⟨entity, _, hline⟩
  · decide
  · simp only [schemaLines, List.mem_cons, List.not_mem_nil, or_false] at hline
    rcases hline with rfl | rfl
    · decide
    · simp [String.toList_append, (hd.plain s hs).1.not_mem_newline]
  · simp only [tableLines, List.mem_append, List.mem_cons, List.not_mem_nil, or_false] at hline
    rcases hline with rfl | (rfl | hline) | rfl
    · decide
    · simp [String.toList_append, (fragment_qualifiedName hd.plain entity).1]
    · exact not_mem_newline_itemLines (isSafe_items hd hdeclared) hline
    · decide

end Declared

/-- Whatever a document says, its file of tables ends outside of literals and comments, its round
brackets are balanced, and the semicolons it shows are one for each schema and one for each
table. Between the brackets of a table the lines other than comments are the definitions, with
one separating comma after each but the last. -/
theorem read_generate_contained {maxDepth : Nat} {source : String} {d : Document}
    (hread : Document.read maxDepth source = .ok d) :
    ∃ text, generate d = [(fileId, text)] ∧ finish text = .outside ∧ Balanced (shown text) ∧
      (shown text).count ';' = d.schemas.length + d.entities.length ∧
      splitOn '\n' text = fileLines d ++ [""] ∧
      (∀ s ∈ d.schemas, (shown (unlines (schemaLines s))).count ';' = 1) ∧
      ∀ e ∈ d.entities, (shown (unlines (tableLines d e.id))).count ';' = 1 ∧
        ∃ before body after, fileLines d = before ++ tableLines d e.id ++ after ∧
          tableLines d e.id =
            ["CREATE TABLE " ++ d.qualifiedName e.id ++ " ("] ++ body ++ [");"] ∧
          ∃ definitions, definitions = ((items d e.id).filterMap Item.text?).map ("    " ++ ·) ∧
            body.filter (fun line => !isCommentLine line) = separated definitions ∧
            ∀ definition ∈ definitions, IsItem definition := by
  have hd := sound_read hread
  have hdeclared := Document.declared_read hread
  have hfile := statements_fileLines hd hdeclared
  refine ⟨unlines (fileLines d), rfl, hfile.finish_eq, hfile.balanced, hfile.count_eq, ?_,
    fun s hs => (statements_schemaLines hd.plain hs).count_eq, fun e he => ?_⟩
  · have hlines : ∀ l ∈ (fileLines d).map String.toList, '\n' ∉ l := by
      intro l hl
      obtain ⟨line, hline, rfl⟩ := List.mem_map.mp hl
      exact not_mem_newline_fileLines hd hdeclared hline
    rw [splitOn, toList_unlines, Chars.splitOn_flatMap_ended hlines]
    simp [Function.comp_def]
  · have hsafe : ∀ item ∈ items d e.id, item.IsSafe := isSafe_items hd hdeclared
    obtain ⟨before, after, hsplit⟩ := exists_fileLines_table he
    refine ⟨(statements_tableLines hd hdeclared e.id).count_eq, before,
      itemLines (items d e.id), after, hsplit, rfl, _, rfl, filter_itemLines hsafe, ?_⟩
    intro definition hdefinition
    obtain ⟨text, htext, rfl⟩ := List.mem_map.mp hdefinition
    obtain ⟨item, hitem, htext⟩ := List.mem_filterMap.mp htext
    cases item with
    | comment _ => cases htext
    | definition _ =>
        obtain rfl := Option.some.inj htext
        exact (fragment_indented (hsafe _ hitem)).isItem

/-- A text whose values try to close literals, brackets and statements. -/
def hostile : String :=
  "# a\n## b\n- s as str with 1..9, d:');--\n- n as int with (..\n- x as dec with -1.., d:-.5\n"

theorem read_generate_contained_hostile :
    ∃ d text, Document.read 5 hostile = .ok d ∧ generate d = [(fileId, text)] ∧
      itemLines (items d ⟨1⟩) =
        ["    s VARCHAR(9) DEFAULT ''');--' CHECK (char_length(s) >= 1),",
          "    -- n has errors: range invalid: min malformed",
          "    x DECIMAL DEFAULT -.5 CHECK (x >= -1)"] ∧
      finish text = .outside ∧ Balanced (shown text) ∧ (shown text).count ';' = 2 := by
  have hall : (Document.read 5 hostile).toOption.any fun d =>
      d.schemas.length + d.entities.length = 2 ∧ itemLines (items d ⟨1⟩) =
        ["    s VARCHAR(9) DEFAULT ''');--' CHECK (char_length(s) >= 1),",
          "    -- n has errors: range invalid: min malformed",
          "    x DECIMAL DEFAULT -.5 CHECK (x >= -1)"] := by
    decide +kernel
  cases hread : Document.read 5 hostile with
  | error fault => rw [hread] at hall; cases hall
  | ok d =>
      rw [hread] at hall
      obtain ⟨hcount, hlines⟩ := of_decide_eq_true hall
      obtain ⟨text, hgenerate, hfinish, hbalanced, hsemicolons, _⟩ := read_generate_contained hread
      exact ⟨d, text, rfl, hgenerate, hlines, hfinish, hbalanced, hsemicolons.trans hcount⟩

end Blueprint.Output.Postgres
