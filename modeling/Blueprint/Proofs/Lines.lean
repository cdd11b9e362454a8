import Blueprint.Document.Printer
import Blueprint.Proofs.Text
import Blueprint.Proofs.Tree
import Mathlib.Data.List.DropRight

/-! # Written lines

A document is written as lines, and each line is recognized as what it declares:
blanks around it and the line ends take nothing away.
-/

namespace Blueprint.Text

namespace Chars

/-! ### Trimming -/

/-- Trimming the end stops at a character that is no blank. -/
theorem trimEnd_append_of_mem {c : Char} {back : List Char} (hmem : c ∈ back)
    (hc : isBlank c = false) (front : List Char) :
    trimEnd (front ++ back) = front ++ trimEnd back := by
  have hkeep : (back.reverse.dropWhile isBlank).isEmpty = false := by
    rw [List.isEmpty_eq_false_iff, ne_eq, List.dropWhile_eq_nil_iff]
    intro hall
    simp [hall c (List.mem_reverse.mpr hmem)] at hc
  rw [trimEnd, trimEnd, List.reverse_append, List.dropWhile_append, hkeep]
  simp

theorem trimStart_cons {c : Char} (hc : isBlank c = false) (cs : List Char) :
    trimStart (c :: cs) = c :: cs := by
  simp [trimStart, hc]

theorem trim_concat_blank (cs : List Char) {c : Char} (hc : isBlank c) :
    trim (cs ++ [c]) = trim cs := by
  rw [trim, trim, trimStart, List.dropWhile_append]
  split
  next hempty =>
    have hnil : trimStart cs = [] := List.isEmpty_iff.mp hempty
    simp [hnil, hc]
  next => exact (List.rdropWhile_concat isBlank _ c).trans (if_pos hc)

theorem trim_append_blanks {blanks : List Char} (hblanks : ∀ c ∈ blanks, isBlank c)
    (cs : List Char) : trim (cs ++ blanks) = trim cs := by
  induction blanks generalizing cs with
  | nil => rw [List.append_nil]
  | cons b blanks ih =>
      obtain ⟨hb, hblanks⟩ := List.forall_mem_cons.mp hblanks
      rw [List.append_cons, ih hblanks, trim_concat_blank cs hb]

/-- A text that neither starts nor ends with a blank is left alone. -/
theorem trim_eq_self {c c' : Char} (hc : isBlank c = false) (hc' : isBlank c' = false)
    (cs : List Char) : trim (c :: cs ++ [c']) = c :: cs ++ [c'] := by
  rw [trim, List.cons_append, trimStart_cons hc]
  exact List.rdropWhile_concat_neg isBlank (c :: cs) c' (by simp [hc'])

theorem trim_trim (cs : List Char) : trim (trim cs) = trim cs := by
  have hstart : trimStart (trim cs) = trim cs := by
    obtain ⟨rest, hrest⟩ := List.rdropWhile_prefix isBlank (trimStart cs)
    cases htrim : trim cs with
    | nil => rfl
    | cons c back =>
        have hhead := List.head?_dropWhile_not isBlank cs
        have hcons : cs.dropWhile isBlank = c :: back ++ rest := htrim ▸ hrest.symm
        rw [hcons] at hhead
        exact trimStart_cons hhead back
  rw [trim, hstart]
  exact List.rdropWhile_idempotent isBlank (trimStart cs)

/-! ### Line ends -/

theorem splitOn_flatMap_ended {ls : List (List Char)} (hls : ∀ l ∈ ls, '\n' ∉ l) :
    (ls.flatMap (· ++ ['\n'])).splitOn '\n' = ls ++ [[]] := by
  induction ls with
  | nil => rfl
  | cons l ls ih =>
      obtain ⟨hl, hls⟩ := List.forall_mem_cons.mp hls
      rw [List.flatMap_cons, List.append_assoc, List.singleton_append, List.splitOn,
        List.splitOnP_append_cons (p := (· == '\n')) _ _ (beq_self_eq_true _), List.cons_append]
      exact congrArg₂ (· ++ ·) (List.splitOn_eq_singleton hl) (ih hls)

/-- The lines of a text that was written line by line. -/
theorem lines_flatMap_ended {ls : List (List Char)} (hls : ∀ l ∈ ls, '\n' ∉ l) :
    lines (ls.flatMap (· ++ ['\n'])) = ls.map fun l => (stripEnd? ['\r'] l).getD l := by
  simp [lines, splitOn_flatMap_ended hls]

theorem trim_getD_stripEnd? (cs : List Char) :
    trim ((stripEnd? ['\r'] cs).getD cs) = trim cs := by
  unfold stripEnd?
  split
  next hsuffix =>
    obtain ⟨front, rfl⟩ := List.isSuffixOf_iff_suffix.mp hsuffix
    simp [trim_concat_blank front (c := '\r') (by decide)]
  next => rfl

end Chars

theorem trim_trim (s : String) : trim (trim s) = trim s := by
  simp only [trim, String.toList_ofList, Chars.trim_trim]

theorem toList_unlines (ls : List String) :
    (unlines ls).toList = (ls.map String.toList).flatMap (· ++ ['\n']) := by
  simp only [unlines, String.toList_join, List.flatMap_map, String.toList_append]
  rfl

/-- A text that was written line by line ends with an empty piece. -/
theorem splitOn_unlines {ls : List String} (hls : ∀ l ∈ ls, '\n' ∉ l.toList) :
    splitOn '\n' (unlines ls) = ls ++ [""] := by
  rw [splitOn, toList_unlines, Chars.splitOn_flatMap_ended (by simpa using hls), List.map_append,
    List.map_map]
  simp [Function.comp_def]

theorem unlines_append (ls ls' : List String) :
    unlines (ls ++ ls') = unlines ls ++ unlines ls' := by
  apply String.toList_inj.mp
  simp only [String.toList_append, toList_unlines, List.map_append, List.flatMap_append]

/-- Lines with an empty line between their groups. -/
theorem unlines_intercalate (groups : List (List String)) :
    unlines ([""].intercalate groups) = joinWith "\n" (groups.map unlines) := by
  induction groups with
  | nil => rfl
  | cons group groups ih =>
      cases groups with
      | nil => simp [joinWith, String.intercalate_singleton]
      | cons next groups =>
          rw [List.intercalate_cons_cons, unlines_append, unlines_append, ih]
          simp [joinWith, String.intercalate_cons_cons, unlines]

/-- A character that a name can hold is no blank. -/
theorem isBlank_eq_false {c : Char} (hc : Name.isNameChar c) : isBlank c = false := by
  have hblank := Name.of_isNameChar (p := fun c => !isBlank c) (by decide +kernel) hc
  simpa using hblank

end Blueprint.Text

namespace Blueprint.Line

open Text

theorem ofText_empty : ofText "" = ignored := by decide

theorem ofText_congr {s s' : String} (htrim : trim s = trim s') : ofText s = ofText s' := by
  simp only [ofText, htrim]

theorem map_snd_scan (source : String) :
    (scan source).map Prod.snd = ((lines source).map ofText).filter (· ≠ ignored) := by
  unfold scan
  generalize 1 = number
  induction lines source generalizing number with
  | nil => rfl
  | cons l ls ih =>
      rw [List.zipIdx_cons, List.filterMap_cons, List.map_cons, List.filter_cons, ← ih (number + 1)]
      dsimp only
      cases ofText l <;> rfl

/-- What is declared by a text that was written line by line. -/
theorem scan_unlines {ls : List String} (hls : ∀ l ∈ ls, '\n' ∉ l.toList) :
    (scan (unlines ls)).map Prod.snd = (ls.map ofText).filter (· ≠ ignored) := by
  have hended : ∀ l ∈ ls.map String.toList, '\n' ∉ l := by simpa using hls
  rw [map_snd_scan, lines, toList_unlines, Chars.lines_flatMap_ended hended]
  congr 1
  simp only [List.map_map, Function.comp_def]
  apply List.map_congr_left
  intro l _
  apply ofText_congr
  simp only [trim, String.toList_ofList, Chars.trim_getD_stripEnd?]

/-! ### Lines that declare something -/

/-- A line that starts with a mark and ends with a name is read as it stands. -/
theorem trim_mark_append {mark name : String} {c : Char} {rest : List Char}
    (hmark : mark.toList = c :: rest) (hc : isBlank c = false) (hname : Name.IsPlain name)
    (hne : name ≠ "") : trim (mark ++ name) = mark ++ name := by
  have hne : name.toList ≠ [] := by simpa using hne
  have hlast : isBlank (name.toList.getLast hne) = false :=
    isBlank_eq_false (hname _ (List.getLast_mem hne))
  apply String.toList_inj.mp
  rw [trim, String.toList_ofList, String.toList_append, hmark,
    ← List.dropLast_append_getLast hne, ← List.append_assoc, List.cons_append]
  exact Chars.trim_eq_self hc hlast _

theorem ofText_schema {name : String} (hname : Name.IsPlain name) (hne : name ≠ "") :
    ofText ("# " ++ name) = schema name := by
  have hstrip : stripStart? schemaMark ("# " ++ name) = some name :=
    stripStart?_eq_some_iff.mpr rfl
  have htrim : trim ("# " ++ name) = "# " ++ name := trim_mark_append rfl (by decide) hname hne
  simp only [ofText, htrim, hstrip]

theorem ofText_entity {name : String} (hname : Name.IsPlain name) (hne : name ≠ "") :
    ofText ("## " ++ name) = entity name := by
  have hother : stripStart? schemaMark ("## " ++ name) = none := by
    simp [stripStart?, Chars.stripStart?, schemaMark]
  have hstrip : stripStart? entityMark ("## " ++ name) = some name :=
    stripStart?_eq_some_iff.mpr rfl
  have htrim : trim ("## " ++ name) = "## " ++ name := trim_mark_append rfl (by decide) hname hne
  simp only [ofText, htrim, hother, hstrip]

/-- What follows the dash of an attribute line is kept apart from blanks around it. -/
theorem ofText_attr {body : String} (hbody : ∃ c ∈ body.toList, isBlank c = false) :
    ofText ("- " ++ body) = attr (trim ("- " ++ body)) := by
  obtain ⟨c, hmem, hc⟩ := hbody
  have htrim : trim ("- " ++ body) = "- " ++ String.ofList (Chars.trimEnd body.toList) := by
    apply String.toList_inj.mp
    rw [trim, String.toList_ofList, String.toList_append, String.toList_append,
      String.toList_ofList, Chars.trim, List.cons_append, Chars.trimStart_cons (by decide),
      ← List.cons_append, Chars.trimEnd_append_of_mem hmem hc, String.toList_ofList]
  have hschema : stripStart? schemaMark ("- " ++ String.ofList (Chars.trimEnd body.toList)) =
      none := by
    simp [stripStart?, Chars.stripStart?, schemaMark]
  have hentity : stripStart? entityMark ("- " ++ String.ofList (Chars.trimEnd body.toList)) =
      none := by
    simp [stripStart?, Chars.stripStart?, entityMark]
  have hattr : stripStart? attributeMark ("- " ++ String.ofList (Chars.trimEnd body.toList)) =
      some (String.ofList (Chars.trimEnd body.toList)) := stripStart?_eq_some_iff.mpr rfl
  simp only [ofText, htrim, hschema, hentity, hattr, Option.isSome_some, if_true]

end Blueprint.Line

namespace Blueprint

open Text

/-! ### The lines of a document -/

/-- An attribute line goes on after its dash. -/
theorem Attribute.exists_line_eq (a : Attribute) :
    ∃ body, a.line = "- " ++ body ∧ ∃ c ∈ body.toList, isBlank c = false := by
  have hhead : ∃ body, a.headText = "- " ++ body ∧ ∃ c ∈ body.toList, isBlank c = false := by
    unfold headText
    split
    · refine ⟨"@" ++ (a.name ++ (a.localName.map (" as " ++ ·)).getD ""), ?_, '@', by simp,
        by decide⟩
      apply String.toList_inj.mp
      simp
    · refine ⟨a.name ++ (" as " ++ a.kind.keyword), ?_, 'a', by simp, by decide⟩
      simp only [String.append_assoc]
  obtain ⟨body, hbody, c, hmem, hc⟩ := hhead
  unfold line
  split
  · exact ⟨body, hbody, c, hmem, hc⟩
  · refine ⟨body ++ (" with " ++ joinWith ", " a.optionTexts), ?_, c, by simp [hmem], hc⟩
    simp only [hbody, String.append_assoc]

def Entity.lines (e : Entity) : List String :=
  e.line :: e.attributes.map fun m => m.toAttribute.line

def Schema.lines (s : Schema) : List String :=
  s.line :: s.entities.flatMap fun e => "" :: e.lines

theorem Schema.render_eq_unlines (s : Schema) : s.render = unlines s.lines := by
  have hentities : String.join (s.entities.map fun e => "\n" ++ e.render) =
      unlines (s.entities.flatMap fun e => "" :: e.lines) := by
    induction s.entities with
    | nil => rfl
    | cons e es ih =>
        rw [List.flatMap_cons, unlines_append, List.map_cons, String.join_cons, ih]
        congr 1
        simp [unlines, Entity.render, Entity.lines]
  rw [render, hentities, lines, ← List.singleton_append, unlines_append]
  simp [unlines]

theorem Document.render_eq_unlines (d : Document) :
    d.render = unlines ([""].intercalate (d.schemas.map Schema.lines)) := by
  rw [unlines_intercalate, List.map_map, render]
  congr 2
  funext s
  exact s.render_eq_unlines

/-- What the lines of an entity declare. -/
def Entity.declared (e : Entity) : List Line :=
  .entity e.name :: e.attributes.map fun m => .attr (trim m.line)

/-- What the lines of a schema declare. -/
def Schema.declared (s : Schema) : List Line :=
  .schema s.name :: s.entities.flatMap Entity.declared

theorem mem_intercalate_singleton {α : Type} {separator x : α} {groups : List (List α)}
    (hx : x ∈ [separator].intercalate groups) : x = separator ∨ ∃ group ∈ groups, x ∈ group := by
  induction groups with
  | nil => cases hx
  | cons group groups ih =>
      cases groups with
      | nil => exact Or.inr ⟨group, by simp, by simpa using hx⟩
      | cons next groups =>
          simp only [List.intercalate_cons_cons, List.mem_append, List.mem_singleton] at hx
          rcases hx with (hx | hx) | hx
          · exact Or.inr ⟨group, by simp, hx⟩
          · exact Or.inl hx
          · rcases ih hx with hsep | ⟨found, hfound, hx⟩
            · exact Or.inl hsep
            · exact Or.inr ⟨found, List.mem_cons_of_mem _ hfound, hx⟩

/-- Empty lines between groups declare nothing. -/
theorem filter_map_intercalate (groups : List (List String)) :
    (([""].intercalate groups).map Line.ofText).filter (· ≠ .ignored) =
      groups.flatMap fun group => (group.map Line.ofText).filter (· ≠ .ignored) := by
  induction groups with
  | nil => rfl
  | cons group groups ih =>
      cases groups with
      | nil => simp
      | cons next groups =>
          rw [List.intercalate_cons_cons, List.map_append, List.filter_append, ih,
            List.map_append, List.filter_append, List.flatMap_cons]
          simp [Line.ofText_empty]

/-- Whether every node of a document is written on a line of its own. -/
structure Document.Written (d : Document) : Prop where
  schema : ∀ s ∈ d.schemas, Name.IsPlain s.name ∧ s.name ≠ ""
  entity : ∀ e ∈ d.entities, Name.IsPlain e.name ∧ e.name ≠ ""
  member : ∀ m ∈ d.members, '\n' ∉ m.line.toList

namespace Document.Written

variable {d : Document}

theorem entity_lines (hd : d.Written) {e : Entity} (he : e ∈ d.entities) :
    (∀ l ∈ e.lines, '\n' ∉ l.toList) ∧
      (e.lines.map Line.ofText).filter (· ≠ .ignored) = e.declared := by
  obtain ⟨hplain, hne⟩ := hd.entity e he
  constructor
  · intro l hl
    rcases List.mem_cons.mp hl with rfl | hl
    · simp only [Entity.line, String.toList_append, List.mem_append, not_or]
      exact ⟨by decide, fun hmem => absurd (hplain _ hmem) (by decide)⟩
    · obtain ⟨m, hm, rfl⟩ := List.mem_map.mp hl
      exact hd.member m (Document.mem_members.mpr ⟨e, he, hm⟩)
  · have hattr : ∀ m : Member, Line.ofText m.line = .attr (trim m.line) := by
      intro m
      obtain ⟨body, hbody, hc⟩ := m.toAttribute.exists_line_eq
      rw [hbody]
      exact Line.ofText_attr hc
    simp only [Entity.lines, Entity.declared, Entity.line, List.map_cons, List.map_map,
      Function.comp_def, Line.ofText_entity hplain hne, hattr]
    simp [List.filter_map, Function.comp_def]

theorem schema_lines (hd : d.Written) {s : Schema} (hs : s ∈ d.schemas) :
    (∀ l ∈ s.lines, '\n' ∉ l.toList) ∧
      (s.lines.map Line.ofText).filter (· ≠ .ignored) = s.declared := by
  obtain ⟨hplain, hne⟩ := hd.schema s hs
  have hentity := fun e (he : e ∈ s.entities) =>
    hd.entity_lines (Document.mem_entities.mpr ⟨s, hs, he⟩)
  constructor
  · intro l hl
    rcases List.mem_cons.mp hl with rfl | hl
    · simp only [Schema.line, String.toList_append, List.mem_append, not_or]
      exact ⟨by decide, fun hmem => absurd (hplain _ hmem) (by decide)⟩
    · obtain ⟨e, he, hl⟩ := List.mem_flatMap.mp hl
      rcases List.mem_cons.mp hl with rfl | hl
      · simp
      · exact (hentity e he).1 l hl
  · have hrest : ∀ es : List Entity, (∀ e ∈ es, e ∈ s.entities) →
        ((es.flatMap fun e => "" :: e.lines).map Line.ofText).filter (· ≠ .ignored) =
          es.flatMap Entity.declared := by
      intro es hes
      -- The empty line before an entity declares nothing.
      induction es with
      | nil => rfl
      | cons e es ih =>
          obtain ⟨he, hes⟩ := List.forall_mem_cons.mp hes
          rw [List.flatMap_cons, List.map_append, List.filter_append, ih hes, List.flatMap_cons,
            ← (hentity e he).2]
          simp [Line.ofText_empty]
    rw [Schema.lines, List.map_cons, List.filter_cons, hrest s.entities fun _ he => he,
      Schema.line, Line.ofText_schema hplain hne]
    rfl

/-- Reading the text of a document finds what its nodes declare. -/
theorem scan_render (hd : d.Written) :
    (Line.scan d.render).map Prod.snd = d.schemas.flatMap Schema.declared := by
  rw [d.render_eq_unlines, Line.scan_unlines, filter_map_intercalate, List.flatMap_map]
  · rw [List.flatMap_def, List.flatMap_def, List.map_congr_left fun s hs => (hd.schema_lines hs).2]
  · intro l hl
    rcases mem_intercalate_singleton hl with rfl | ⟨group, hgroup, hl⟩
    · simp
    · obtain ⟨s, hs, rfl⟩ := List.mem_map.mp hgroup
      exact (hd.schema_lines hs).1 l hl

end Document.Written

end Blueprint
