import Blueprint.Output.Postgres
import Mathlib.Data.List.Forall2

/-! # The lines of a table

Between the first and the last line of a table there is one line for each item, in the order
of the items. So what is known of the items of a table holds of its lines.
-/

namespace Blueprint.Output.Postgres

variable {d : Document} {entity : EntityId} {c : Column}

/-- Whether a line holds an item. Only a definition may have a comma after it. -/
def Item.IsLine : Item → String → Prop
  | .definition text, line => line = "    " ++ text ∨ line = "    " ++ text ++ ","
  | .comment text, line => line = "    " ++ text

theorem forall₂_itemLines (l : List Item) : List.Forall₂ Item.IsLine l (itemLines l) := by
  induction l with
  | nil => exact .nil
  | cons item rest ih =>
      cases item with
      | comment text => exact .cons rfl ih
      | definition text =>
          refine .cons ?_ ih
          split
          · exact Or.inr rfl
          · exact Or.inl String.append_empty

/-- What is matched with two lists one after the other has a part for each of them. -/
theorem exists_append_of_forall₂ {α β : Type} {R : α → β → Prop} {as bs : List α} {l : List β}
    (h : List.Forall₂ R (as ++ bs) l) :
    ∃ first last, l = first ++ last ∧ List.Forall₂ R as first ∧ List.Forall₂ R bs last :=
  ⟨l.take as.length, l.drop as.length, (List.take_append_drop _ l).symm,
    (List.forall₂_take_append _ _ _ h.flip).flip, (List.forall₂_drop_append _ _ _ h.flip).flip⟩

/-- A table has one line for each of its items. -/
theorem exists_tableLines_eq (d : Document) (entity : EntityId) :
    ∃ lines, tableLines d entity =
        ("CREATE TABLE " ++ d.qualifiedName entity ++ " (") :: lines ++ [");"] ∧
      List.Forall₂ Item.IsLine (items d entity) lines :=
  ⟨itemLines (items d entity), rfl, forall₂_itemLines _⟩

/-- Every item of a table is one of its lines. -/
theorem exists_line_of_mem_items {item : Item} (hitem : item ∈ items d entity) :
    ∃ line ∈ tableLines d entity, item.IsLine line := by
  obtain ⟨above, below, hsplit⟩ := List.append_of_mem hitem
  obtain ⟨lines, htable, hlines⟩ := exists_tableLines_eq d entity
  rw [hsplit] at hlines
  obtain ⟨first, last, rfl, _, hbelow⟩ := exists_append_of_forall₂ hlines
  obtain ⟨line, rest, hline, _, rfl⟩ := List.forall₂_cons_left_iff.mp hbelow
  exact ⟨line, htable ▸ by simp, hline⟩

/-! ### Columns -/

/-- Whether a text is blank at its start if it is not empty. -/
def StandsApart (s : String) : Prop :=
  s = "" ∨ ∃ rest, s = " " ++ rest

/-- Whether a line of a table defines a column of the type. -/
def DefinesColumn (d : Document) (entity : EntityId) (name type : String) : Prop :=
  ∃ rest, StandsApart rest ∧ ∃ line ∈ tableLines d entity,
    Item.IsLine (.definition (name ++ " " ++ type ++ rest)) line

theorem standsApart_append {s : String} (hs : ∃ rest, s = " " ++ rest) (t : String) :
    StandsApart (s ++ t) := by
  obtain ⟨rest, rfl⟩ := hs
  exact Or.inr ⟨rest ++ t, String.append_assoc⟩

theorem StandsApart.append {s t : String} (hs : StandsApart s) (ht : StandsApart t) :
    StandsApart (s ++ t) := by
  rcases hs with rfl | hs
  · rwa [String.empty_append]
  · exact standsApart_append hs t

/-- What follows the type of a column stands apart from it. -/
theorem exists_columnText_eq (c : Column) :
    ∃ rest, columnText c = fieldName c ++ " " ++ columnType c ++ rest ∧ StandsApart rest := by
  have hoptions : StandsApart (columnOptions c) := by
    unfold columnOptions optionsText
    refine StandsApart.append ?_ ?_
    · cases c.terminal.defaultValue with
      | none => exact Or.inl rfl
      | some value => exact standsApart_append ⟨"DEFAULT ", rfl⟩ _
    · cases check? (fieldName c) c.storageKind c.source.min c.source.max with
      | none => exact Or.inl rfl
      | some condition =>
          rw [Option.map_some, Option.getD_some, String.append_assoc]
          exact standsApart_append ⟨"CHECK (", rfl⟩ _
  refine ⟨_, String.append_assoc .., StandsApart.append ?_ ?_⟩
  · split
    · exact Or.inr ⟨"NOT NULL", rfl⟩
    · exact Or.inl rfl
  · split
    · exact hoptions
    · exact Or.inl rfl

theorem columnText_mem_items (hc : c ∈ d.validColumns entity) :
    .definition (columnText c) ∈ items d entity := by
  obtain ⟨field, hfield, hcolumn⟩ := List.mem_filterMap.mp hc
  cases field with
  | invalid => cases hcolumn
  | valid c' =>
      obtain rfl := Option.some.inj hcolumn
      simp only [items, List.append_assoc]
      exact List.mem_append_left _ (List.mem_map.mpr ⟨_, hfield, rfl⟩)

theorem definesColumn (hc : c ∈ d.validColumns entity) :
    DefinesColumn d entity (fieldName c) (columnType c) := by
  obtain ⟨rest, htext, hrest⟩ := exists_columnText_eq c
  obtain ⟨line, hmem, hline⟩ := exists_line_of_mem_items (columnText_mem_items hc)
  exact ⟨rest, hrest, line, hmem, htext ▸ hline⟩

end Blueprint.Output.Postgres
