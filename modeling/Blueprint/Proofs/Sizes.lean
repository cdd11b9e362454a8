import Blueprint.Output.Postgres
import Blueprint.Proofs.Columns
import Blueprint.Proofs.Given
import Blueprint.Proofs.Lineage
import Blueprint.Proofs.Numerals
import Blueprint.Proofs.Tables

/-! # Declared sizes

Texts and bit strings have to be given an upper bound, and it is meant to be the size of their
columns. The bound of a bit string is checked as a size. That of a text is checked as a decimal,
so it may also have a minus, a point or an exponent, or be larger than any size. Such a bound
is accepted and is no size, and the column then has none.
-/

namespace Blueprint

namespace Attribute

open Text

variable {a b : Attribute} {line bound : String}

theorem checks_max (h : a.kind ≠ .serial) : a.checks.max = a.max := by
  rw [checks, settleSerial, if_neg h]
  rfl

theorem findings_eq (h : a.kind ≠ .serial) : a.findings = a.rangeDefects ++ a.sizeDefects := by
  rw [findings, settleSerial, if_neg h]

theorem maxSize?_eq (hmax : a.max = some bound) (htrim : trim bound = bound) :
    a.maxSize? = Numeral.size? bound := by
  rw [maxSize?, hmax, Option.bind_some, htrim]

/-- A text or a bit string that has passed the checks has an upper bound of its kind. -/
theorem exists_max_of_settle (h : a.settle = .ok b) (hclean : b.defects = [])
    (hkind : a.kind = .string ∨ a.kind = .bit) :
    ∃ bound, a.max = some bound ∧ b.max = some bound ∧
      (a.kind = .string → (Decimal.read? bound).isSome) ∧ (a.kind = .bit → a.maxSize?.isSome) := by
  have hserial : a.kind ≠ .serial := by
    rcases hkind with hkind | hkind <;> rw [hkind] <;> decide
  have hfindings := findings_eq_nil h hclean
  rw [findings_eq hserial, List.append_eq_nil_iff] at hfindings
  obtain ⟨hrange, hsize⟩ := hfindings
  have hmax : b.max = a.max := (settle_fields h).2.2.2.2.2.trans (checks_max hserial)
  cases hbound : a.max with
  | none => rcases hkind with hkind | hkind <;> simp [sizeDefects, hkind, hbound] at hsize
  | some bound =>
      refine ⟨bound, rfl, hmax.trans hbound, fun hstring => ?_, fun hbit => ?_⟩
      · rw [rangeDefects, hstring] at hrange
        exact Output.Postgres.isSome_of_boundDefects hrange (Or.inr hbound)
      · simpa [rangeDefects, hbit, hbound, Option.isSome_iff_ne_none] using hrange

/-- The bound of a text or a bit string without defects is the one that its line gives. -/
theorem exists_upper_of_ofLine (h : ofLine line = .ok a) (hclean : a.defects = [])
    (hkind : a.kind = .string ∨ a.kind = .bit) :
    ∃ bound, (Declaration.ofText (lineBody line)).upper? = some bound ∧ a.max = some bound ∧
      trim bound = bound ∧ (a.kind = .string → (Decimal.read? bound).isSome) ∧
      (a.kind = .bit → a.maxSize?.isSome) := by
  rcases ofDeclaration_cases h with hunread | ⟨_, hsettle⟩
  · obtain ⟨stop, _, hdefects⟩ := hunread.defects
    rw [hclean] at hdefects
    cases hdefects
  have hsame : a.kind = (Declaration.ofText (lineBody line)).spelled.kind :=
    (settle_fields hsettle).1.trans (checks_kind _)
  rw [hsame] at hkind ⊢
  obtain ⟨bound, hgiven, hmax, hstring, hbit⟩ := exists_max_of_settle hsettle hclean hkind
  have hupper := (spelled_max _).symm.trans hgiven
  refine ⟨bound, hupper, hmax, upper?_trimmed hupper, hstring, fun h => ?_⟩
  rw [maxSize?, hmax, ← hgiven]
  exact hbit h

/-! ### Bounds that are sizes -/

theorem maxSize?_eq_some_iff (hmax : a.max = some bound) (htrim : trim bound = bound) {n : Nat} :
    a.maxSize? = some n ↔ Numeral.IsNatural 10 n bound.toList ∧ n < Nat.pow 2 32 := by
  rw [maxSize?_eq hmax htrim, Numeral.size?_eq_some_iff]

/-- A bound that is read as a decimal is no size if it is written in another way or too large. -/
theorem maxSize?_eq_none_iff (hmax : a.max = some bound) (htrim : trim bound = bound)
    (hread : (Decimal.read? bound).isSome) :
    a.maxSize? = none ↔ (∃ c ∈ ['-', '.', 'e', 'E'], c ∈ bound.toList) ∨
      ∃ n, Nat.pow 2 32 ≤ n ∧ Numeral.IsNatural 10 n bound.toList := by
  have hsize := fun {n : Nat} => maxSize?_eq_some_iff (n := n) hmax htrim
  constructor
  · intro hnone
    by_cases hmarks : ∃ c ∈ ['-', '.', 'e', 'E'], c ∈ bound.toList
    · exact Or.inl hmarks
    · have hplain : ∀ c ∈ ['-', '.', 'e', 'E'], c ∉ bound.toList :=
        fun c hc hmem => hmarks ⟨c, hc, hmem⟩
      obtain ⟨n, hn⟩ := Decimal.exists_isNatural_of_read? htrim hread hplain
      refine Or.inr ⟨n, Nat.le_of_not_lt fun hlt => ?_, hn⟩
      rw [hsize.mpr ⟨hn, hlt⟩] at hnone
      cases hnone
  · intro hother
    apply Option.eq_none_iff_forall_ne_some.mpr
    intro n hn
    obtain ⟨hn, hlt⟩ := hsize.mp hn
    rcases hother with ⟨c, hc, hmem⟩ | ⟨m, hle, hm⟩
    · have hmarks : ∀ c ∈ ['-', '.', 'e', 'E'], ¬ (c = '+' ∨ c.isDigit) := by simp
      exact hmarks c hc (hn.eq_plus_or_isDigit hmem)
    · obtain rfl := hn.unique (by decide) (by decide) hm
      exact absurd hlt (Nat.not_lt.mpr hle)

end Attribute

/-! ### Columns -/

namespace Output.Postgres

open Text

variable {c : Column} {d : Document} {entity : EntityId}

/-- The size of a column is that of its stored attribute. -/
theorem columnType_eq (hkind : c.terminal.kind = .string ∨ c.terminal.kind = .bit) :
    columnType c = (if c.terminal.kind = .string then "VARCHAR" else "BIT") ++
      c.terminal.maxSize?.elim "" fun n => "(" ++ toString n ++ ")" := by
  have hstorage : c.storageKind = c.terminal.kind := by
    apply if_neg
    rcases hkind with hkind | hkind <;> simp [hkind]
  have hname : typeName c.terminal.kind =
      if c.terminal.kind = .string then "VARCHAR" else "BIT" := by
    rcases hkind with hkind | hkind <;> rw [hkind] <;> rfl
  unfold columnType sizedType
  dsimp only
  rw [hstorage, if_pos (by simpa using hkind), hname]
  cases c.terminal.maxSize? with
  | none => exact String.append_empty.symm
  | some n => simp only [Option.elim_some, String.append_assoc]

end Output.Postgres

namespace Document

open Attribute

variable {d : Document} {entity : EntityId} {line : String} {a : Attribute}

theorem HandlesSound.attributesOf_attached (hd : d.HandlesSound) {e : Entity}
    (he : d.entity? entity = some e) (a : Attribute) :
    (d.attached entity a).attributesOf entity =
      e.attributes ++ [(d.nextMember a).distinguish e.attributes] := by
  have hid : e.id = entity := (mem_of_entity? he).2
  have hkeeps : KeepsOutline fun e => if e.id = entity then
      { e with attributes := e.attributes ++ [(d.nextMember a).distinguish e.attributes] }
      else e := by
    intro e
    dsimp only
    split <;> exact ⟨rfl, rfl⟩
  have hfound := entity?_mapEntities (d := d) hkeeps entity
  rw [he, Option.map_some, if_pos hid] at hfound
  have hfound : (d.appendMember entity (d.nextMember a)).entity? entity = _ := hfound
  rw [hd.attached_eq, attributesOf, hfound]

/-- Resolving passes a plain attribute by. -/
theorem HandlesSound.resolveReference_attached (hd : d.HandlesSound)
    (hlive : entity ∈ d.handles .entity) (hplain : a.isReference = false) :
    ((d.attached entity a).resolveReference (.fresh d.attrCount)).1 = d.attached entity a := by
  obtain ⟨e, he⟩ := exists_entity?_iff.mpr hlive
  rw [(hd.step (hd.step_attached he a)).resolveReference_eq]
  apply mapMembers_eq_self
  intro m hm
  apply if_neg
  rintro ⟨hid, hopen⟩
  rcases hd.mem_members_attached hm with hold | ⟨siblings, rfl⟩
  · exact hd.fresh_not_mem .attr (hid ▸ List.mem_map_of_mem hold)
  · rw [Member.distinguish_isOpen, Attribute.isOpen, Bool.and_eq_true] at hopen
    exact absurd (hopen.1.symm.trans hplain) (by decide)

/-- A plain attribute that is added stands in its entity as it was read, but for its name. -/
theorem HandlesSound.exists_added (hd : d.HandlesSound) (hlive : entity ∈ d.handles .entity)
    (ha : ofLine line = .ok a) (hplain : a.isReference = false) :
    ∃ next m, d.edit (.addAttribute entity line) = .ok (next, .attr (.fresh d.attrCount)) ∧
      next.HandlesSound ∧ next.maxDepth = d.maxDepth ∧ m ∈ next.attributesOf entity ∧
      m.id = .fresh d.attrCount ∧ m.kind = a.kind ∧ m.max = a.max ∧ m.defects = a.defects := by
  obtain ⟨e, he⟩ := exists_entity?_iff.mpr hlive
  have hedit : d.edit (.addAttribute entity line) =
      .ok (d.attached entity a, .attr (.fresh d.attrCount)) := by
    simp only [edit, addAttribute, readLine, ha]
    rw [← hd.resolveReference_attached hlive hplain]
    exact congrArg (Except.map _) (insertAttribute_of_entity? he a)
  refine ⟨_, (d.nextMember a).distinguish e.attributes, hedit,
    hd.step (hd.handleStep (Step.of_edit hedit)), rfl, ?_, Member.distinguish_id _ _, ?_, ?_, ?_⟩
  · rw [hd.attributesOf_attached he]
    exact List.mem_append_right _ (List.mem_singleton_self _)
  · exact Member.distinguish_kind _ _
  · exact congrArg (fun options => options.2.2.2.1) (options_distinguish e.attributes (d.nextMember a))
  · exact Member.distinguish_defects _ _

/-- A plain attribute without defects is a column of its own. -/
theorem HandlesSound.mem_validColumns (hd : d.HandlesSound) (hdepth : 0 < d.maxDepth) {m : Member}
    (hm : m ∈ d.attributesOf entity) (hplain : m.isReference = false) (hclean : m.defects = []) :
    ⟨entity, [], m, entity⟩ ∈ d.validColumns entity := by
  obtain ⟨depth, hdepth⟩ := Nat.exists_eq_succ_of_ne_zero hdepth.ne'
  rw [hd.validColumns_eq, List.mem_filter, columns, hdepth, columnsFrom_succ]
  refine ⟨List.mem_flatMap.mpr ⟨m, hm, ?_⟩, ?_⟩
  · rw [columnsAt_plain (Or.inl rfl) hplain]
    exact List.mem_singleton_self _
  · simp [Column.isValid, Column.source, Attribute.hasDefect, hclean]

end Document

namespace Attribute

open Text Output.Postgres

variable {line bound : String} {a : Attribute}

/-- Whether a line that is added to an entity gives it a column of the type, and its table a
line that defines the column. -/
def AddsColumn (d : Document) (entity : EntityId) (line type : String) : Prop :=
  ∃ next c rest, d.edit (.addAttribute entity line) = .ok (next, .attr c.source.id) ∧
    c ∈ next.validColumns entity ∧ c.isDirect ∧ StandsApart rest ∧
    .definition (fieldName c ++ " " ++ type ++ rest) ∈ items next entity ∧
    DefinesColumn next entity (fieldName c) type

/-- What becomes of the upper bound of a text or a bit string. -/
structure Sized (line : String) (a : Attribute) (bound : String) : Prop where
  given : (Declaration.ofText (lineBody line)).upper? = some bound
  kept : a.max = some bound
  /-- It is a size if it is written in digits and not too large. -/
  size : ∀ n, a.maxSize? = some n ↔ Numeral.IsNatural 10 n bound.toList ∧ n < Nat.pow 2 32
  /-- The check of a text has read the same number. -/
  value : a.kind = .string → ∀ n, a.maxSize? = some n →
    Decimal.read? bound = some (n * Decimal.unitScale : Nat)
  /-- Only a text can do without a size. -/
  unsized : a.maxSize? = none ↔ a.kind = .string ∧
    ((∃ c ∈ ['-', '.', 'e', 'E'], c ∈ bound.toList) ∨
      ∃ n, Nat.pow 2 32 ≤ n ∧ Numeral.IsNatural 10 n bound.toList)
  /-- Whatever document the line is added to, the column of the attribute has the size. -/
  emitted : ∀ d : Document, d.HandlesSound → 0 < d.maxDepth → ∀ entity ∈ d.handles .entity,
    AddsColumn d entity line ((if a.kind = .string then "VARCHAR" else "BIT") ++
      a.maxSize?.elim "" fun n => "(" ++ toString n ++ ")")

theorem addsColumn_of_ofLine (h : ofLine line = .ok a) (hclean : a.defects = [])
    (hkind : a.kind = .string ∨ a.kind = .bit) {d : Document} (hd : d.HandlesSound)
    (hdepth : 0 < d.maxDepth) {entity : EntityId} (hlive : entity ∈ d.handles .entity) :
    AddsColumn d entity line ((if a.kind = .string then "VARCHAR" else "BIT") ++
      a.maxSize?.elim "" fun n => "(" ++ toString n ++ ")") := by
  have hplain : ∀ b : Attribute, b.kind = a.kind → b.isReference = false := by
    intro b hb
    rw [isReference, hb]
    rcases hkind with hkind | hkind <;> rw [hkind] <;> rfl
  obtain ⟨next, m, hedit, hnext, hsame, hm, hid, hmkind, hmmax, hmdefects⟩ :=
    hd.exists_added hlive h (hplain a rfl)
  have hc := hnext.mem_validColumns (hsame ▸ hdepth) hm (hplain m.toAttribute hmkind)
    (hmdefects.trans hclean)
  obtain ⟨rest, htext, hrest⟩ := exists_columnText_eq ⟨entity, [], m, entity⟩
  have hsize : m.maxSize? = a.maxSize? := by rw [maxSize?, maxSize?, hmmax]
  have hitem := columnText_mem_items hc
  have hline := definesColumn hc
  rw [htext, columnType_eq (hmkind ▸ hkind)] at hitem
  rw [columnType_eq (hmkind ▸ hkind)] at hline
  rw [hmkind, hsize] at hitem hline
  exact ⟨next, _, rest, hid ▸ hedit, hc, rfl, hrest, hitem, hline⟩

/-- The upper bound of a text or a bit string is the size of the attribute, and of its column
in every document, unless it is that of a text and is not written in digits or too large. -/
theorem sized_of_ofLine (h : ofLine line = .ok a) (hclean : a.defects = [])
    (hkind : a.kind = .string ∨ a.kind = .bit) : ∃ bound, Sized line a bound := by
  obtain ⟨bound, hgiven, hmax, htrim, hstring, hbit⟩ := exists_upper_of_ofLine h hclean hkind
  have hsize := fun n => maxSize?_eq_some_iff (n := n) hmax htrim
  refine ⟨bound, hgiven, hmax, hsize, ?_, ?_, ?_⟩
  · intro _ n hn
    obtain ⟨hnatural, hlt⟩ := (hsize n).mp hn
    exact Decimal.read?_of_isNatural htrim hnatural (Nat.lt_trans hlt (by decide))
  · constructor
    · intro hnone
      have htext : a.kind = .string := by
        refine hkind.resolve_right fun hkind => ?_
        have hsome := hbit hkind
        rw [hnone] at hsome
        cases hsome
      exact ⟨htext, (maxSize?_eq_none_iff hmax htrim (hstring htext)).mp hnone⟩
    · rintro ⟨htext, hother⟩
      exact (maxSize?_eq_none_iff hmax htrim (hstring htext)).mpr hother
  · intro d hd hdepth entity hlive
    exact addsColumn_of_ofLine h hclean hkind hd hdepth hlive

/-- A bound with an exponent is accepted and lost, and one with a plus and a zero is a size. -/
theorem sized_of_ofLine_exponent :
    let title : Attribute := { kind := .string, name := "title", max := some "1e3" }
    let mask : Attribute := { kind := .bit, name := "mask", max := some "+08" }
    (ofLine "- title as str with ..1e3" = .ok title ∧ title.defects = [] ∧ title.maxSize? = none ∧
        ∃ bound, Sized "- title as str with ..1e3" title bound) ∧
      ofLine "- mask as bit with 4 ..+08" = .ok mask ∧ mask.defects = [] ∧
        mask.maxSize? = some 8 ∧ ∃ bound, Sized "- mask as bit with 4 ..+08" mask bound := by
  intro title mask
  have htitle : ofLine "- title as str with ..1e3" = .ok title := by decide +kernel
  have hmask : ofLine "- mask as bit with 4 ..+08" = .ok mask := by decide +kernel
  exact ⟨⟨htitle, rfl, by decide, sized_of_ofLine htitle rfl (Or.inl rfl)⟩,
    hmask, rfl, by decide, sized_of_ofLine hmask rfl (Or.inr rfl)⟩

end Attribute

end Blueprint
