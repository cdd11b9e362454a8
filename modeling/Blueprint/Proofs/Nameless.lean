import Blueprint.Proofs.Failures
import Blueprint.Proofs.Identifiers
import Blueprint.Proofs.Rereading
import Blueprint.Proofs.Succession

/-! # Nodes without a name

Schemas and entities always have a name: what they are called is brought into the form of a
name, and a fallback stands in if nothing is left. An attribute gets a fallback when it is put
into an entity, but not when another line is put in its place. So an attribute has no name just
if that line declared no identifier, no sibling had the segment it was left with, and it was not
written anew since.
-/

namespace Blueprint

/-- The identifier that a line declares; it is empty if there is none. -/
def Line.declaredName : Line → String
  | .schema text => Name.normalize text
  | .entity text => Name.normalize (Cursor.entityText text)
  | .attr text => Attribute.declaredName text
  | .ignored => ""

namespace Document

variable {d next : Document} {e : Edit} {answer : Answer}

/-! ### Schemas and entities -/

/-- The line of a schema declares a name. -/
theorem declaredName_schema_line {s : Schema} (hplain : Name.IsPlain s.name)
    (hled : Name.IsLed s.name) : (Line.ofText s.line).declaredName ≠ "" := by
  rw [Schema.line, Line.ofText_schema hplain hled.ne_empty]
  exact hled.normalize_ne_empty

/-- The line of an entity declares a name. -/
theorem declaredName_entity_line {e : Entity} (hplain : Name.IsPlain e.name)
    (hled : Name.IsLed e.name) : (Line.ofText e.line).declaredName ≠ "" := by
  rw [Entity.line, Line.ofText_entity hplain hled.ne_empty, Line.declaredName,
    Cursor.entityText_of_isPlain hplain]
  exact hled.normalize_ne_empty

/-- A name that an entity goes by identifies an attribute. -/
theorem PlainNames.identified_of_denotes (hplain : d.PlainNames) (hled : d.EveryName Name.IsLed)
    {a : Attribute} {t : EntityId} (hdenotes : d.Denotes a.name t)
    (hlocal : ∀ s, a.localName = some s → Text.IsWord s) : a.Identified := by
  obtain ⟨s, hs, e, he, _, hname⟩ := hdenotes
  have hschema := (hled s hs).1
  have hentity := (hled s hs).2 e he
  have hword := Text.isWord_of_isPlain ((hplain s hs).2 e he) hentity.ne_empty
  rcases hname with hname | hname
  · exact Attribute.identified_of_isLed (hname ▸ hword) (hname ▸ hentity) hlocal
  · have hprior := Text.isWord_of_isPlain (hplain s hs).1 hschema.ne_empty
    refine Attribute.identified_of_isLed (hname ▸ ⟨by simp, fun c hc => ?_⟩)
      (hname ▸ (hschema.append _).append _) hlocal
    simp only [String.toList_append, List.mem_append] at hc
    rcases hc with (hc | hc) | hc
    · exact hprior.chars c hc
    · obtain rfl : c = '.' := by simpa using hc
      decide
    · exact hword.chars c hc

end Document

/-! ### Names of attributes -/

/-- What every attribute is like: identified, unless it has no name and refers to nothing. -/
structure Attribute.IdentifiedOrBlank (a : Attribute) : Prop where
  localName : ∀ s, a.localName = some s → Text.IsWord s
  name : a.Identified ∨ a.name = "" ∧ a.isReference = false

theorem Attribute.ofLine_identifiedOrBlank {line : String} {a : Attribute}
    (ha : ofLine line = .ok a) : a.IdentifiedOrBlank := by
  obtain ⟨_, hlocal, hblank, hidentified⟩ := ofLine_name ha
  refine ⟨hlocal, ?_⟩
  by_cases hname : a.name = ""
  · exact Or.inr ⟨hname, hblank hname⟩
  · exact Or.inl (hidentified hname)

namespace Member

variable {m m' : Member}

theorem isWord_fallback (n : Nat) : Text.IsWord (Name.fallback n) :=
  Text.isWord_of_isPlain (Name.fallback_isPlain n) (Name.isLed_fallback n).ne_empty

theorem isWord_of_mem_localNames {localName : Option String} {n : Nat} {s : String}
    (hs : some s ∈ [localName, none, some (Name.fallback n)])
    (hlocal : ∀ s, localName = some s → Text.IsWord s) : Text.IsWord s := by
  simp only [List.mem_cons, List.not_mem_nil, or_false] at hs
  rcases hs with hold | hnone | hfallback
  · exact hlocal s hold.symm
  · cases hnone
  · rw [Option.some.inj hfallback]
    exact isWord_fallback n

theorem identified_of_fallback {n : Nat} (hname : m.name = Name.fallback n)
    (hlocal : ∀ s, m.localName = some s → Text.IsWord s) : m.Identified :=
  Attribute.identified_of_isLed (hname ▸ isWord_fallback n) (hname ▸ Name.isLed_fallback n) hlocal

theorem isWord_localName_distinguish (hlocal : ∀ s, m.localName = some s → Text.IsWord s)
    (siblings : List Member) :
    ∀ s, (m.distinguish siblings).localName = some s → Text.IsWord s :=
  fun _ hs => isWord_of_mem_localNames (hs ▸ distinguish_localName m siblings) hlocal

theorem identified_distinguish (hm : m.Identified) (siblings : List Member) :
    (m.distinguish siblings).Identified := by
  have hlocal := isWord_localName_distinguish hm.localName siblings
  have hsame : (m.distinguish siblings).name = m.name → (m.distinguish siblings).Identified := by
    intro hname
    refine ⟨hname ▸ hm.word, ?_, hlocal⟩
    rw [hname, distinguish_isReference]
    exact hm.head
  cases href : m.isReference with
  | true => exact hsame (distinguish_name siblings href)
  | false =>
      have hname := distinguish_name_of_not_isReference href siblings
      split at hname
      · exact hsame hname
      · exact identified_of_fallback hname hlocal

theorem identifiedOrBlank_distinguish (hm : m.IdentifiedOrBlank) (siblings : List Member) :
    (m.distinguish siblings).IdentifiedOrBlank := by
  have hlocal := isWord_localName_distinguish hm.localName siblings
  refine ⟨hlocal, ?_⟩
  rcases hm.name with hidentified | ⟨hempty, href⟩
  · exact Or.inl (identified_distinguish hidentified siblings)
  · have hname := distinguish_name_of_not_isReference href siblings
    split at hname
    · exact Or.inr ⟨hname.trans hempty, (distinguish_isReference siblings m).trans href⟩
    · exact Or.inl (identified_of_fallback hname hlocal)

end Member

namespace Document

variable {d next : Document} {e : Edit} {answer : Answer} {m m' : Member}

/-- What every document keeps of names: those of schemas and entities begin with a letter, and
attributes are identified or blank. -/
structure Presentable (d : Document) : Prop where
  sound : d.Sound
  led : d.EveryName Name.IsLed
  members : ∀ m ∈ d.members, m.IdentifiedOrBlank

theorem identified_nextMember {a : Attribute} (ha : a.IdentifiedOrBlank) (d : Document) :
    (d.nextMember a).Identified := by
  by_cases hempty : a.name = ""
  · have hname : (d.nextMember a).name =
        Name.fallback (Handle.fresh d.attrCount : AttrId).number := if_pos (by simp [hempty])
    exact Member.identified_of_fallback hname ha.localName
  · have hidentified := ha.name.resolve_right fun hblank => hempty hblank.1
    have hname : (d.nextMember a).name = a.name := if_neg (by simpa using hempty)
    exact ⟨hname ▸ hidentified.word, hname ▸ hidentified.head, ha.localName⟩

/-- An attribute that was read from a line is identified once it is put into an entity. -/
theorem identified_added {line : String} {a : Attribute} (ha : Attribute.ofLine line = .ok a)
    (d : Document) (siblings : List Member) :
    ((d.nextMember a).distinguish siblings).Identified :=
  Member.identified_distinguish
    (identified_nextMember (Attribute.ofLine_identifiedOrBlank ha) d) siblings

/-- An attribute that is not written anew has a name just if it had one before. -/
theorem Sound.identifiedOrBlank_of_carries (hsound : next.Sound)
    (hled : next.EveryName Name.IsLed) (hm' : m' ∈ next.members) (h : m.Carries m')
    (hm : m.IdentifiedOrBlank) :
    m'.IdentifiedOrBlank ∧ (m'.name = "" ↔ m.name = "") := by
  have hlocal : ∀ s, m'.localName = some s → Text.IsWord s :=
    fun s hs => Member.isWord_of_mem_localNames (hs ▸ h.localName) hm.localName
  cases htarget : m'.target with
  | some t =>
      obtain ⟨href, hdenotes⟩ := (hsound.settled m' hm').denotes t htarget
      have hidentified := hsound.plain.identified_of_denotes hled hdenotes hlocal
      refine ⟨⟨hlocal, Or.inl hidentified⟩, iff_of_false hidentified.word.ne_empty ?_⟩
      rcases hm.name with hold | ⟨_, hnot⟩
      · exact hold.word.ne_empty
      · rw [h.reference, hnot] at href
        cases href
  | none =>
      have hname := h.name htarget
      refine ⟨⟨hlocal, ?_⟩, by rw [hname]⟩
      rcases hm.name with hold | ⟨hempty, hnot⟩
      · refine Or.inl ⟨hname ▸ hold.word, ?_, hlocal⟩
        rw [hname, h.reference]
        exact hold.head
      · exact Or.inr ⟨hname.trans hempty, h.reference.trans hnot⟩

/-- Whether a line in the place of an attribute leaves it without a name: it declares no
identifier, and no sibling has the segment that is left then. -/
def LeavesNameless (d : Document) (id : AttrId) (line : String) : Prop :=
  ∃ entity ∈ d.entities, id ∈ entity.attributes.map Member.id ∧
    ∃ a, Attribute.ofLine line = .ok a ∧ Attribute.declaredName line = "" ∧
      ∀ s ∈ entity.attributes.filter (·.id ≠ id), s.segment ≠
        (({ a with id := id } : Member).dropTakenLocalName
          (entity.attributes.filter (·.id ≠ id))).segment

theorem Presentable.of_source (hd : d.Presentable) (hsource : d.Source e m) :
    m.IdentifiedOrBlank := by
  cases hsource with
  | kept hm _ => exact hd.members m hm
  | added ha _ siblings =>
      have hm := identified_added ha d siblings
      exact ⟨hm.localName, Or.inl hm⟩
  | replaced _ _ ha =>
      apply Member.identifiedOrBlank_distinguish
      obtain ⟨hlocal, hname⟩ := Attribute.ofLine_identifiedOrBlank ha
      exact ⟨hlocal, hname.imp_left fun h => ⟨h.word, h.head, h.localName⟩⟩
  | @pointed old hold target =>
      have hlocal := (hd.members old hold).localName
      exact ⟨hlocal, Or.inl (Attribute.identified_of_isLed (Text.isWord_text target)
        (Name.isLed_text target) hlocal)⟩

theorem Presentable.name_eq_empty_iff_of_replaced (hd : d.Presentable) {entity : Entity}
    {old : Member} (hentity : entity ∈ d.entities) (hold : old ∈ entity.attributes)
    {line : String} {a : Attribute} (ha : Attribute.ofLine line = .ok a) :
    (({ a with id := old.id } : Member).distinguish
      (entity.attributes.filter (·.id ≠ old.id))).name = "" ↔ d.LeavesNameless old.id line := by
  obtain ⟨hname, hlocal, hblank, hidentified⟩ := Attribute.ofLine_name ha
  by_cases hempty : a.name = ""
  · have href : ({ a with id := old.id } : Member).isReference = false := hblank hempty
    rw [Member.distinguish_name_of_not_isReference href]
    constructor
    · intro hdistinguished
      split at hdistinguished
      next hapart =>
        exact ⟨entity, hentity, List.mem_map_of_mem hold, a, ha, hname.symm.trans hempty, hapart⟩
      next => exact absurd hdistinguished (Name.isLed_fallback _).ne_empty
    · rintro ⟨entity', hentity', hmem, a', ha', _, hapart⟩
      obtain ⟨old', hold', hid⟩ := List.mem_map.mp hmem
      obtain ⟨rfl, _⟩ := hd.sound.handles.eq_of_attr_id hentity hold hentity' hold' hid
      obtain rfl := Except.ok.inj (ha.symm.trans ha')
      rw [if_pos hapart]
      exact hempty
  · obtain ⟨hword, hhead, _⟩ := hidentified hempty
    have hm := Member.identified_distinguish (m := { a with id := old.id }) ⟨hword, hhead, hlocal⟩
      (entity.attributes.filter (·.id ≠ old.id))
    refine iff_of_false hm.word.ne_empty ?_
    rintro ⟨_, _, _, _, _, hdeclared, _⟩
    exact hempty (hname.trans hdeclared)

/-- An attribute that an edit found or made has no name just if its line is replaced by one that
leaves it so, or if it had none and is not written anew. -/
theorem Presentable.name_eq_empty_iff_of_source (hd : d.Presentable) (hsource : d.Source e m) :
    m.name = "" ↔ (∃ line, e = .replaceAttribute m.id line ∧ d.LeavesNameless m.id line) ∨
      e.rewrites? ≠ some m.id ∧ ∃ old ∈ d.members, old.id = m.id ∧ old.name = "" := by
  cases hsource with
  | kept hm hother =>
      constructor
      · exact fun hempty => Or.inr ⟨hother, m, hm, rfl, hempty⟩
      · rintro (⟨line, rfl, _⟩ | ⟨_, old, hold, hid, hempty⟩)
        · exact absurd rfl hother
        · exact eq_of_key_eq (hd.sound.handles.nodup .attr) hold hm hid ▸ hempty
  | added ha entity siblings =>
      refine iff_of_false (identified_added ha d siblings).word.ne_empty ?_
      rintro (⟨line, hedit, _⟩ | ⟨_, old, hold, hid, _⟩)
      · cases hedit
      · have hfresh : old.id = .fresh d.attrCount := hid.trans (Member.distinguish_id siblings _)
        exact hd.sound.handles.fresh_not_mem .attr (List.mem_map.mpr ⟨old, hold, hfresh⟩)
  | @replaced entity old hentity hold line a ha =>
      rw [hd.name_eq_empty_iff_of_replaced hentity hold ha, Member.distinguish_id]
      constructor
      · exact fun hleaves => Or.inl ⟨line, rfl, hleaves⟩
      · rintro (⟨line', hedit, hleaves⟩ | ⟨hother, _⟩)
        · exact (Edit.replaceAttribute.inj hedit).2 ▸ hleaves
        · exact absurd rfl hother
  | pointed hold target =>
      refine iff_of_false (Text.isWord_text target).ne_empty ?_
      rintro (⟨line, hedit, _⟩ | ⟨hother, _⟩)
      · cases hedit
      · exact hother rfl

theorem Presentable.step (hd : d.Presentable) (hstep : Step d e next answer)
    (hwritten : e.isWritten) : next.Presentable := by
  have hsound := hd.sound.step hstep hwritten
  have hled := EveryName.step Name.isLed_ofText hd.led hstep
  refine ⟨hsound, hled, fun m' hm' => ?_⟩
  obtain ⟨m, hsource, hcarries⟩ := hd.sound.exists_source hstep hwritten hm'
  exact (hsound.identifiedOrBlank_of_carries hled hm' hcarries (hd.of_source hsource)).1

/-- What one edit means for attributes without a name. -/
theorem Presentable.name_eq_empty_iff_step (hd : d.Presentable) (hstep : Step d e next answer)
    (hwritten : e.isWritten) (hm' : m' ∈ next.members) :
    m'.name = "" ↔ (∃ line, e = .replaceAttribute m'.id line ∧ d.LeavesNameless m'.id line) ∨
      e.rewrites? ≠ some m'.id ∧ ∃ old ∈ d.members, old.id = m'.id ∧ old.name = "" := by
  have hnext := hd.step hstep hwritten
  obtain ⟨m, hsource, hcarries⟩ := hd.sound.exists_source hstep hwritten hm'
  have hiff := (hnext.sound.identifiedOrBlank_of_carries hnext.led hm' hcarries
    (hd.of_source hsource)).2
  rw [hiff, hcarries.id]
  exact hd.name_eq_empty_iff_of_source hsource

/-! ### Runs -/

/-- Whether an edit succeeds and writes an attribute anew. -/
def Rewrites (d : Document) (e : Edit) (id : AttrId) : Prop :=
  e.rewrites? = some id ∧ ∃ result, d.edit e = .ok result

/-- Whether a run leaves an attribute without a name: a line in its place does so, and it is not
written anew later. -/
def LeftNameless (d : Document) (es : List Edit) (id : AttrId) : Prop :=
  ∃ i line, es[i]? = some (.replaceAttribute id line) ∧
    (d.run (es.take i)).LeavesNameless id line ∧
      ∀ j e, i < j → es[j]? = some e → ¬ (d.run (es.take j)).Rewrites e id

theorem not_leftNameless_nil (id : AttrId) : ¬ d.LeftNameless [] id := by
  rintro ⟨i, line, hi, _⟩
  simp at hi

/-- Whether an attribute is left without a name is a matter of the last edit, unless that leaves
it alone. -/
theorem leftNameless_concat {es : List Edit} {id : AttrId} :
    d.LeftNameless (es ++ [e]) id ↔
      (∃ line, e = .replaceAttribute id line ∧ (d.run es).LeavesNameless id line) ∨
        d.LeftNameless es id ∧ ¬ (d.run es).Rewrites e id := by
  have hbefore : ∀ {i}, i < es.length →
      (es ++ [e])[i]? = es[i]? ∧ (es ++ [e]).take i = es.take i := fun hi =>
    ⟨List.getElem?_append_left hi, List.take_append_of_le_length hi.le⟩
  have hlast : (es ++ [e])[es.length]? = some e ∧ (es ++ [e]).take es.length = es :=
    ⟨List.getElem?_concat_length, List.take_left⟩
  have hwithin : ∀ {i} {e'}, (es ++ [e])[i]? = some e' → i < es.length ∨ i = es.length := by
    intro i e' hi
    obtain ⟨hlt, _⟩ := List.getElem?_eq_some_iff.mp hi
    rw [List.length_append, List.length_singleton] at hlt
    omega
  constructor
  · rintro ⟨i, line, hi, hleaves, hlater⟩
    rcases hwithin hi with hlt | rfl
    · right
      rw [(hbefore hlt).1] at hi
      rw [(hbefore hlt).2] at hleaves
      refine ⟨⟨i, line, hi, hleaves, fun j e' hij hj => ?_⟩, ?_⟩
      · obtain ⟨hj', _⟩ := List.getElem?_eq_some_iff.mp hj
        rw [← (hbefore hj').2]
        exact hlater j e' hij ((hbefore hj').1.trans hj)
      · have hnot := hlater es.length e hlt hlast.1
        rwa [hlast.2] at hnot
    · left
      rw [hlast.1] at hi
      rw [hlast.2] at hleaves
      exact ⟨line, Option.some.inj hi, hleaves⟩
  · rintro (⟨line, rfl, hleaves⟩ | ⟨⟨i, line, hi, hleaves, hlater⟩, hnot⟩)
    · refine ⟨es.length, line, hlast.1, by rwa [hlast.2], fun j e' hij hj => ?_⟩
      have := hwithin hj
      omega
    · obtain ⟨hlt, _⟩ := List.getElem?_eq_some_iff.mp hi
      refine ⟨i, line, (hbefore hlt).1.trans hi, by rwa [(hbefore hlt).2], fun j e' hij hj => ?_⟩
      rcases hwithin hj with hj' | rfl
      · rw [(hbefore hj').2]
        exact hlater j e' hij ((hbefore hj').1.symm.trans hj)
      · rw [hlast.1] at hj
        rw [hlast.2, ← Option.some.inj hj]
        exact hnot

/-- A line that leaves an attribute without a name is put in its place. -/
theorem LeavesNameless.exists_edit {id : AttrId} {line : String} (h : d.LeavesNameless id line) :
    id ∈ d.handles .attr ∧ ∃ result, d.edit (.replaceAttribute id line) = .ok result := by
  obtain ⟨entity, hentity, hid, a, ha, _⟩ := h
  obtain ⟨m, hm, rfl⟩ := List.mem_map.mp hid
  have hlive : m.id ∈ d.handles .attr :=
    List.mem_map_of_mem (mem_members.mpr ⟨entity, hentity, hm⟩)
  obtain ⟨found, hfound⟩ := exists_member?_iff.mpr hlive
  have hedit : d.edit (.replaceAttribute m.id line) =
      .ok ((((d.putMember m.id a).distinguish m.id).resolveReference m.id).1, .done) := by
    simp only [edit, replaceAttribute, readLine, ha, requireMember, hfound]
    rfl
  exact ⟨hlive, _, hedit⟩

theorem LeftNameless.issued (hd : d.HandlesSound) {es : List Edit} {id : AttrId}
    (h : d.LeftNameless es id) : id.number ≤ (d.run es).issued .attr := by
  obtain ⟨i, line, hi, hleaves, _⟩ := h
  obtain ⟨hlt, _⟩ := List.getElem?_eq_some_iff.mp hi
  have hextends := hd.extends_take es hlt.le
  rw [List.take_length] at hextends
  exact ((hd.run (es.take i)).1.issued .attr id hleaves.exists_edit.1).2.trans
    (hextends.issued_le .attr)

theorem Presentable.run (hd : d.Presentable) {es : List Edit} (hes : ∀ e ∈ es, e.isWritten) :
    (d.run es).Presentable :=
  run_induction (fun _ _ _ _ hpresentable hwritten hedit =>
    hpresentable.step (Step.of_edit hedit) hwritten) hd hes

/-- An attribute has no name after a run just if the run left it so. -/
theorem Presentable.name_eq_empty_iff_run (hd : d.Presentable)
    (hnamed : ∀ m ∈ d.members, m.name ≠ "") {es : List Edit} (hes : ∀ e ∈ es, e.isWritten) :
    ∀ m ∈ (d.run es).members, m.name = "" ↔ d.LeftNameless es m.id := by
  induction es using List.reverseRecOn with
  | nil => exact fun m hm => iff_of_false (hnamed m hm) (not_leftNameless_nil m.id)
  | append_singleton es e ih =>
      obtain ⟨hes, he⟩ := List.forall_mem_append.mp hes
      have hwritten := he e List.mem_cons_self
      have hrun := hd.run hes
      intro m hm
      rw [leftNameless_concat]
      have hperform : d.run (es ++ [e]) = (d.run es).perform e := run_append d es [e]
      rw [hperform] at hm
      cases hedit : (d.run es).edit e with
      | error err =>
          rw [perform_of_error hedit] at hm
          have hfails : ¬ ∃ result, (d.run es).edit e = .ok result := by simp [hedit]
          rw [ih hes m hm]
          constructor
          · exact fun hleft => Or.inr ⟨hleft, fun hrewrites => hfails hrewrites.2⟩
          · rintro (⟨line, rfl, hleaves⟩ | ⟨hleft, _⟩)
            · exact absurd hleaves.exists_edit.2 hfails
            · exact hleft
      | ok result =>
          have hstep : Step (d.run es) e result.1 result.2 := Step.of_edit hedit
          have hextends := (hrun.sound.handles.handleStep hstep).extends
          rw [perform_of_ok hedit] at hm
          rw [hrun.name_eq_empty_iff_step hstep hwritten hm]
          refine or_congr Iff.rfl ?_
          constructor
          · rintro ⟨hother, old, hold, hid, hempty⟩
            exact ⟨hid ▸ (ih hes old hold).mp hempty, fun hrewrites => hother hrewrites.1⟩
          · rintro ⟨hleft, hnot⟩
            refine ⟨fun hrewrites => hnot ⟨hrewrites, result, hedit⟩, ?_⟩
            -- The attribute was there before the edit, since its handle was issued long ago.
            have hissued := hleft.issued hd.sound.handles
            rcases hextends.old_or_new .attr m.id (List.mem_map_of_mem hm) with hlive | hnew
            · obtain ⟨old, hold, hid⟩ := List.mem_map.mp hlive
              exact ⟨old, hold, hid, (ih hes old hold).mpr (hid ▸ hleft)⟩
            · omega

/-! ### Documents that were read -/

/-- Every line of a document gives names to schemas, entities and attributes. -/
theorem keeps_named : Cursor.Keeps fun d =>
    d.EveryName Name.IsLed ∧ ∀ m ∈ d.members, m.Identified where
  schema d name hnamed := by
    refine ⟨hnamed.1.addSchema Name.isLed_ofText name, ?_⟩
    rw [members, entities_addSchema]
    exact hnamed.2
  entity d id name hnamed := by
    refine ⟨hnamed.1.placeEntity Name.isLed_ofText id name, ?_⟩
    rw [members_placeEntity]
    exact hnamed.2
  attr d id line a hhandles _ ha hnamed := by
    refine ⟨(everyName_congr (outline_attached id a)).mpr hnamed.1, fun m hm => ?_⟩
    rcases hhandles.mem_members_attached hm with hold | ⟨siblings, rfl⟩
    · exact hnamed.2 m hold
    · exact identified_added ha d siblings

/-- Runs start with documents in which everything has a name. -/
theorem IsOrigin.presentable (hd : d.IsOrigin) :
    d.Presentable ∧ ∀ m ∈ d.members, m.name ≠ "" := by
  have hsound := hd.sound
  cases hd with
  | empty maxDepth =>
      have hnone : ∀ m : Member, m ∉ (Document.empty maxDepth).members := fun _ => List.not_mem_nil
      exact ⟨⟨hsound, fun _ hs => absurd hs List.not_mem_nil, fun m hm => absurd hm (hnone m)⟩,
        fun m hm => absurd hm (hnone m)⟩
  | read hread =>
      obtain ⟨c, _, ⟨hled, hidentified⟩, rfl⟩ := exists_reading_of keeps_named
        ⟨fun _ hs => absurd hs List.not_mem_nil, fun _ hm => absurd hm List.not_mem_nil⟩ hread
      have hled : c.document.resolveReferences.EveryName Name.IsLed :=
        (everyName_congr (outline_mapMembers _)).mpr hled
      have hcarried : c.document.Carried c.document.resolveReferences :=
        Carried.resolveReferences (carried_of_subset (List.Subset.refl _))
      have hall : ∀ m' ∈ c.document.resolveReferences.members,
          m'.IdentifiedOrBlank ∧ m'.name ≠ "" := by
        intro m' hm'
        obtain ⟨m, hm, hcarries⟩ := hcarried m' hm'
        have hm := hidentified m hm
        obtain ⟨hkept, hiff⟩ := hsound.identifiedOrBlank_of_carries hled hm' hcarries
          ⟨hm.localName, Or.inl hm⟩
        exact ⟨hkept, fun hblank => hm.word.ne_empty (hiff.mp hblank)⟩
      exact ⟨⟨hsound, hled, fun m hm => (hall m hm).1⟩, fun m hm => (hall m hm).2⟩

/-! ### Printed lines -/

theorem declaredName_member_line (hm : m.Identified) :
    (Line.ofText m.line).declaredName ≠ "" := by
  obtain ⟨body, hline, hbody⟩ := m.exists_line_eq
  have htrim : Attribute.declaredName (Text.trim m.line) = Attribute.declaredName m.line := by
    simp only [Attribute.declaredName, Attribute.lineBody, Text.trim_trim]
  rw [hline, Line.ofText_attr hbody, ← hline, Line.declaredName, htrim]
  exact hm.declaredName_line

/-- After any run of written edits, every schema and every entity has a name and a line that
declares one. An attribute has no name just if a line without an identifier was put in its place,
no sibling had the segment left to it, and it was not written anew since; any other attribute has
a line that declares an identifier. -/
theorem IsOrigin.nameless_run_iff (hd : d.IsOrigin) {es : List Edit}
    (hes : ∀ e ∈ es, e.isWritten) :
    (∀ s ∈ (d.run es).schemas, s.name ≠ "" ∧ (Line.ofText s.line).declaredName ≠ "") ∧
      (∀ e ∈ (d.run es).entities, e.name ≠ "" ∧ (Line.ofText e.line).declaredName ≠ "") ∧
      ∀ m ∈ (d.run es).members, (m.name = "" ↔ d.LeftNameless es m.id) ∧
        (m.name ≠ "" → (Line.ofText m.line).declaredName ≠ "") := by
  obtain ⟨hpresentable, hnamed⟩ := hd.presentable
  obtain ⟨hsound, hled, hmembers⟩ := hpresentable.run hes
  refine ⟨fun s hs => ?_, fun e he => ?_, fun m hm => ⟨?_, fun hne => ?_⟩⟩
  · exact ⟨(hled s hs).1.ne_empty,
      declaredName_schema_line (hsound.plain s hs).1 (hled s hs).1⟩
  · obtain ⟨s, hs, he⟩ := mem_entities.mp he
    exact ⟨((hled s hs).2 e he).ne_empty,
      declaredName_entity_line ((hsound.plain s hs).2 e he) ((hled s hs).2 e he)⟩
  · exact hpresentable.name_eq_empty_iff_run hnamed hes m hm
  · exact declaredName_member_line ((hmembers m hm).name.resolve_right fun h => hne h.1)

/-- A column whose line is replaced by one that leaves nothing of its name. -/
def erasure : List Edit :=
  [.addSchema "s", .addEntity ⟨1⟩ "e", .addAttribute ⟨1⟩ "- x as int",
    .addAttribute ⟨1⟩ "- !!! as int", .replaceAttribute ⟨1⟩ "- !!! as int"]

/-- Of two attributes with the same line, the one that was put in place of another has no name. -/
theorem nameless_run_iff_erasure :
    (((empty 5).run erasure).members.map fun m => (m.id, m.name)) = [(⟨1⟩, ""), (⟨2⟩, "unset_2")] ∧
      (empty 5).LeftNameless erasure ⟨1⟩ ∧ ¬ (empty 5).LeftNameless erasure ⟨2⟩ := by
  have hmembers : (((empty 5).run erasure).members.map fun m => (m.id, m.name)) =
      [(⟨1⟩, ""), (⟨2⟩, "unset_2")] := by
    decide +kernel
  have hwritten : ∀ e ∈ erasure, e.isWritten := by simp [erasure, Edit.isWritten]
  have hall := (IsOrigin.nameless_run_iff (.empty 5) hwritten).2.2
  have hiff : ∀ id name, (id, name) ∈ [((⟨1⟩ : AttrId), ""), (⟨2⟩, "unset_2")] →
      (name = "" ↔ (empty 5).LeftNameless erasure id) := by
    intro id name hmem
    rw [← hmembers] at hmem
    obtain ⟨m, hm, heq⟩ := List.mem_map.mp hmem
    obtain ⟨rfl, rfl⟩ := Prod.mk.inj heq
    exact (hall m hm).1
  refine ⟨hmembers, (hiff ⟨1⟩ "" (by simp)).mp rfl, fun hleft => ?_⟩
  exact absurd ((hiff ⟨2⟩ "unset_2" (by simp)).mpr hleft) (by decide)

end Document

end Blueprint
