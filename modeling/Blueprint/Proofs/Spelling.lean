import Blueprint.Proofs.Columns
import Blueprint.Proofs.Declared

/-! # How columns are called

The name of a column is put together from what the attributes on its way are called, and each of
these goes by a name of its own or by that of its target. So it holds characters of names only,
and what is said about a defective attribute holds no line end.
-/

namespace Blueprint

theorem Text.mem_joinWith {separator : String} {parts : List String} {c : Char}
    (hc : c ∈ (joinWith separator parts).toList) :
    c ∈ separator.toList ∨ ∃ part ∈ parts, c ∈ part.toList := by
  induction parts with
  | nil => simp [joinWith] at hc
  | cons part parts ih =>
      cases parts with
      | nil =>
          rw [joinWith, String.intercalate_singleton] at hc
          exact Or.inr ⟨part, List.mem_cons_self, hc⟩
      | cons next parts =>
          rw [joinWith, String.intercalate_cons_cons, String.toList_append, String.toList_append,
            List.mem_append, List.mem_append] at hc
          rcases hc with (hc | hc) | hc
          · exact Or.inr ⟨part, List.mem_cons_self, hc⟩
          · exact Or.inl hc
          · rcases ih hc with hsep | ⟨found, hfound, hc⟩
            · exact Or.inl hsep
            · exact Or.inr ⟨found, List.mem_cons_of_mem _ hfound, hc⟩

theorem Column.isPlain_nameOf {segments : List String}
    (h : ∀ s ∈ segments, ∀ c ∈ s.toList, Name.isNameChar c ∨ c = '.') :
    Name.IsPlain (nameOf segments) := by
  intro c hc
  rw [nameOf, Text.replaceChar, String.toList_ofList] at hc
  obtain ⟨old, hold, rfl⟩ := List.mem_map.mp hc
  split
  · decide
  next hdot =>
    rcases Text.mem_joinWith hold with hsep | ⟨s, hs, hmem⟩
    · exact List.mem_singleton.mp hsep ▸ by decide
    · exact (h s hs old hmem).resolve_right hdot

namespace Attribute

theorem not_mem_newline_defectText (a : Attribute) : '\n' ∉ a.defectText.toList := by
  intro hmem
  rcases Text.mem_joinWith hmem with hsep | ⟨part, hpart, hmem⟩
  · exact absurd hsep (by decide)
  · obtain ⟨defect, _, rfl⟩ := List.mem_map.mp hpart
    cases defect <;> exact absurd hmem (by decide)

theorem Named.not_mem_newline_segment {a : Attribute} (ha : a.Named) :
    '\n' ∉ (Text.replaceChar '.' '_' a.segment).toList := by
  intro hmem
  rw [Text.replaceChar, String.toList_ofList] at hmem
  obtain ⟨c, hc, hnewline⟩ := List.mem_map.mp hmem
  split at hnewline
  · exact absurd hnewline (by decide)
  · subst hnewline
    unfold segment at hc
    cases hlocal : a.localName with
    | some s => exact (ha.localName s hlocal).not_mem_newline (by simpa [hlocal] using hc)
    | none => exact ha.line (by simpa [hlocal] using hc)

end Attribute

namespace Document

variable {d : Document} {entity : EntityId}

/-- A reference that was resolved goes by the name of its target, everything else by a name of
its own. -/
theorem Sound.mem_segment (hd : d.Sound) {m : Member} (hm : m ∈ d.members) (hnamed : m.Named)
    (hresolved : m.isReference → m.target.isSome) {c : Char} (hc : c ∈ m.segment.toList) :
    Name.isNameChar c ∨ c = '.' := by
  unfold Attribute.segment at hc
  cases hlocal : m.localName with
  | some s =>
      rw [hlocal] at hc
      exact Or.inl (hnamed.localName s hlocal c hc)
  | none =>
      rw [hlocal] at hc
      cases href : m.isReference with
      | false => exact Or.inl (hnamed.name href c hc)
      | true =>
          obtain ⟨t, ht⟩ := Option.isSome_iff_exists.mp (hresolved href)
          obtain ⟨_, s, hs, e, he, _, hname⟩ := (hd.settled m hm).denotes t ht
          obtain ⟨hschema, hentities⟩ := hd.plain s hs
          have hc : c ∈ m.name.toList := hc
          rcases hname with hname | hname
          · exact Or.inl (hentities e he c (hname ▸ hc))
          · rw [hname, String.toList_append, String.toList_append, List.mem_append,
              List.mem_append] at hc
            rcases hc with (hc | hc) | hc
            · exact Or.inl (hschema c hc)
            · exact Or.inr (List.mem_singleton.mp hc)
            · exact Or.inl (hentities e he c hc)

theorem Sound.mem_segments (hd : d.Sound) (hnamed : ∀ m ∈ d.members, m.Named) {c : Column}
    (hc : c ∈ d.columns entity) {s : String} (hs : s ∈ c.segments) :
    ∀ x ∈ s.toList, Name.isNameChar x ∨ x = '.' := by
  obtain ⟨hterminal, hplain, more, hhops, hmore⟩ := way_of_mem_columnsFrom hc
  obtain ⟨m, hm, rfl⟩ := List.mem_map.mp hs
  intro x hx
  rcases List.mem_append.mp hm with hm | hm
  · obtain ⟨hmember, _, htarget⟩ := hmore m (by simpa [hhops] using hm)
    exact hd.mem_segment hmember (hnamed m hmember) (fun _ => htarget) hx
  · obtain rfl := List.mem_singleton.mp hm
    refine hd.mem_segment hterminal (hnamed _ hterminal) (fun href => ?_) hx
    simp [hplain] at href

theorem Sound.isPlain_name (hd : d.Sound) (hnamed : ∀ m ∈ d.members, m.Named) {c : Column}
    (hc : c ∈ d.columns entity) : Name.IsPlain c.name :=
  Column.isPlain_nameOf fun _ hs => hd.mem_segments hnamed hc hs

/-- A field is a column with a plain name, or says what is wrong without a line end. -/
theorem Sound.of_mem_fields (hd : d.Sound) (hnamed : ∀ m ∈ d.members, m.Named) {field : Field}
    (hfield : field ∈ d.fields entity) :
    (∃ c ∈ d.columns entity, field = .valid c ∧ c.isValid ∧ Name.IsPlain c.name) ∨
      ∃ name defects, field = .invalid name defects ∧ '\n' ∉ name.toList ∧
        '\n' ∉ defects.toList := by
  obtain ⟨m, hm, hfield⟩ := List.mem_flatMap.mp hfield
  split at hfield
  next =>
    have hname := (hnamed m (mem_members_of_mem_attributesOf hm)).not_mem_newline_segment
    exact Or.inr ⟨_, _, List.mem_singleton.mp hfield, hname, m.not_mem_newline_defectText⟩
  next =>
    obtain ⟨c, hc, rfl⟩ := List.mem_map.mp hfield
    have hc := (List.mem_filter.mp hc).1
    have hname := hd.isPlain_name hnamed hc
    unfold Field.ofColumn
    split
    next hvalid => exact Or.inl ⟨c, hc, rfl, hvalid, hname⟩
    next => exact Or.inr ⟨_, _, rfl, hname.not_mem_newline, c.terminal.not_mem_newline_defectText⟩

end Document

end Blueprint
