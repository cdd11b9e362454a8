import Blueprint.Proofs.Constraints
import Blueprint.Proofs.Described
import Blueprint.Proofs.Files
import Blueprint.Proofs.Liveness
import Blueprint.Proofs.Scripts
import Blueprint.Proofs.Styles

/-! # Requests that test an entity

The sections of a script are put together from the key, from the valid fields and from those that
are sent. They agree: an address uses the key and nothing else, the key is captured when a row is
created, and every valid field is checked once.
-/

namespace Blueprint.Output.Hurl

open Text

variable {d : Document} {s : Schema} {e : Entity} {c : Column} {key : List Column} {line : String}
  {members : List (String × String)}

/-! ### Addresses -/

theorem not_mem_bracket {name : String} (hname : Name.IsPlain name) : '\x7d' ∉ name.toList :=
  fun hmem => absurd (hname _ hmem) (by decide)

/-- A word of an address holds characters of names and hyphens. -/
def IsWord (word : String) : Prop :=
  ∀ c ∈ word.toList, c = '-' ∨ Name.isNameChar c

theorem IsWord.not_mem {word : String} (hword : IsWord word) :
    '\x7b' ∉ word.toList ∧ '\n' ∉ word.toList :=
  ⟨fun hmem => absurd (hword _ hmem) (by decide), fun hmem => absurd (hword _ hmem) (by decide)⟩

theorem isWord_kebab {name : String} (hname : Name.IsPlain name) : IsWord (kebab name) :=
  fun _ => mem_kebab hname

theorem isWord_keyWord (d : Document) (hname : Name.IsPlain c.name) : IsWord (keyWord d c) := by
  unfold keyWord wordText
  dsimp only
  split
  · exact isWord_kebab hname
  · cases hstrip : stripEnd? ("-" ++ kebab c.terminal.name) (kebab c.name) with
    | none => exact isWord_kebab hname
    | some word => exact fun x hx => isWord_kebab hname x (stripEnd?_subset hstrip hx)

/-- The words of an address stand between its variables. -/
theorem variablesAfter_parts (d : Document) (hkey : ∀ c ∈ key, Name.IsPlain c.name) :
    variablesAfter none
        (joinWith "/" (key.map fun c => keyWord d c ++ "/" ++ placeholder c.name)).toList =
      key.map Column.name := by
  have hpart : ∀ c : Column, Name.IsPlain c.name → ∀ rest, variablesAfter none
      ((keyWord d c ++ "/" ++ placeholder c.name).toList ++ rest) =
        c.name :: variablesAfter none rest := by
    intro c hname rest
    have hword : '\x7b' ∉ (keyWord d c ++ "/").toList := by
      simp [(isWord_keyWord d hname).not_mem]
    rw [String.toList_append, List.append_assoc, variablesAfter_append hword,
      variablesAfter_placeholder (not_mem_bracket hname)]
  induction key with
  | nil => rfl
  | cons c key ih =>
      obtain ⟨hc, hkey⟩ := List.forall_mem_cons.mp hkey
      cases key with
      | nil =>
          have hlast := hpart c hc []
          rw [List.append_nil] at hlast
          simpa [joinWith, variablesAfter] using hlast
      | cons next key =>
          rw [List.map_cons, List.map_cons, joinWith, String.intercalate_cons_cons,
            String.toList_append, String.toList_append, List.append_assoc, hpart c hc,
            variablesAfter_append (by decide), List.map_cons, ← ih hkey]
          rfl

theorem variablesAfter_keyAddress (d : Document) (hkey : ∀ c ∈ key, Name.IsPlain c.name) :
    variablesAfter none (keyAddress d key).toList = key.map Column.name := by
  unfold keyAddress
  split
  next c =>
    have hname := not_mem_bracket (hkey c (by simp))
    rw [← List.append_nil (placeholder c.name).toList, variablesAfter_placeholder hname]
    rfl
  next => exact variablesAfter_parts d hkey

/-- The address of a row uses the host and the key. -/
theorem variablesOf_item (d : Document) (hs : Name.IsPlain s.name) (he : Name.IsPlain e.name)
    (hkey : ∀ c ∈ key, Name.IsPlain c.name) :
    variablesOf (route s e ++ "/" ++ keyAddress d key) = "host" :: key.map Column.name := by
  have hroute : route s e ++ "/" ++ keyAddress d key =
      placeholder "host" ++ (("/" ++ kebab s.name ++ "/" ++ kebab e.name ++ "/") ++
        keyAddress d key) := by
    simp only [route, String.append_assoc]
  have hwords : '\x7b' ∉ ("/" ++ kebab s.name ++ "/" ++ kebab e.name ++ "/").toList := by
    simp [(isWord_kebab hs).not_mem, (isWord_kebab he).not_mem]
  rw [variablesOf, hroute, String.toList_append, variablesAfter_placeholder (by decide),
    String.toList_append, variablesAfter_append hwords, variablesAfter_keyAddress d hkey]

/-! ### Lines of sections -/

theorem captureLine_eq (c : Column) :
    captureLine c = c.name ++ (": jsonpath \"" ++ ("$." ++ c.name ++ "\"")) := by
  apply String.toList_inj.mp
  simp [captureLine, captureText, fieldName]

theorem capture?_captureLine (hname : Name.IsPlain c.name) :
    capture? (captureLine c) = some (c.name, "$." ++ c.name) := by
  have hcolon : ':' ∉ c.name.toList := fun hmem => absurd (hname _ hmem) (by decide)
  rw [captureLine_eq, capture?, cut?_append rfl hcolon, Option.bind_some, stripEnd?_append,
    Option.map_some]

theorem request?_captureLine (hname : Name.IsPlain c.name) : request? (captureLine c) = none := by
  have hword : captureLine c = (c.name ++ ":") ++ (" " ++ ("jsonpath \"$." ++ c.name ++ "\"")) := by
    apply String.toList_inj.mp
    simp [captureLine, captureText, fieldName]
  have hblank : ' ' ∉ (c.name ++ ":").toList := by
    simpa using fun hmem => absurd (hname _ hmem) (by decide)
  rw [hword]
  refine request?_eq_none hblank (fun hmem => ?_) _
  -- no method ends with a colon
  simp only [methods, List.mem_cons, List.not_mem_nil, or_false] at hmem
  rcases hmem with heq | heq | heq | heq <;>
    exact absurd (congrArg (fun s : String => s.toList.getLast?) heq) (by simp)

theorem plain_captureLine (hname : Name.IsPlain c.name) :
    isHeader (captureLine c) = false ∧ isNote (captureLine c) = false := by
  rw [captureLine_eq]
  cases hchars : c.name.toList with
  | nil => exact plain_of_head? (c := ':') (by simp [hchars]) (by decide) (by decide)
  | cons first rest =>
      have hfirst := hname first (by simp [hchars])
      refine plain_of_head? (c := first) (by simp [hchars]) ?_ ?_ <;>
        rintro rfl <;> cases hfirst

/-- The check that a value is of a type. -/
def checkOf (type : String) : String :=
  "is" ++ pascal type

/-- Every kind of values has a check. -/
theorem predicate?_eq {kind : Kind} (hunknown : kind ≠ .unknown) (href : kind ≠ .reference) :
    predicate? kind = some (checkOf (typeName kind)) := by
  have hpascal : pascal "number" = "Number" ∧ pascal "boolean" = "Boolean" ∧
      pascal "string" = "String" := by
    decide
  unfold predicate? checkOf
  cases kind <;> simp_all [typeName]

/-- The line that checks a field. -/
def checkLine (c : Column) : String :=
  "jsonpath \"" ++ (("$." ++ c.name) ++ ("\" " ++ checkOf (typeName c.storageKind)))

theorem assertLine?_eq (hunknown : c.storageKind ≠ .unknown) (href : c.storageKind ≠ .reference) :
    assertLine? c = some (checkLine c) := by
  rw [assertLine?, assertText?, predicate?_eq hunknown href, Option.map_some, Option.some.injEq]
  apply String.toList_inj.mp
  simp [checkLine, fieldName]

theorem check?_checkLine (hname : Name.IsPlain c.name) :
    check? (checkLine c) = some ("$." ++ c.name, checkOf (typeName c.storageKind)) := by
  have hquote : '"' ∉ ("$." ++ c.name).toList := by
    simpa using fun hmem => absurd (hname _ hmem) (by decide)
  rw [checkLine, check?, stripStart?_append, Option.bind_some, cut?_append rfl hquote]

theorem plain_checkLine (c : Column) :
    request? (checkLine c) = none ∧ isHeader (checkLine c) = false ∧
      isNote (checkLine c) = false := by
  have hhead : 'j' ∈ (checkLine c).toList.head? := by simp [checkLine]
  refine ⟨request?_of_head? fun c hc => ?_, plain_of_head? hhead (by decide) (by decide)⟩
  obtain rfl := Option.mem_unique hc hhead
  decide

/-! ### Scripts -/

/-- The columns that are sent: all valid ones but the serials of the entity itself. -/
theorem sentColumns_eq (d : Document) (entity : EntityId) :
    sentColumns d entity =
      (d.validColumns entity).filter fun c => !(c.terminal.kind = .serial && c.isDirect) := by
  refine List.filter_congr fun c _ => ?_
  unfold Column.storageKind Kind.stored
  cases c.isDirect <;> by_cases hkind : c.terminal.kind = .serial <;> simp [hkind]

/-- The request that creates a row, on the rows of its body, and what follows it. -/
def createScript (d : Document) (s : Schema) (e : Entity) (rows after : List String) :
    List String :=
  ["# " ++ d.qualifiedName e.id, "", "# create"] ++
    ("POST" ++ (" " ++ route s e)) :: (rows ++ ("HTTP " ++ "201") :: after)

/-- The requests that need the key of a row. -/
def rowScript (d : Document) (e : Entity) (item : String) (rows : List String) : List String :=
  ("GET" ++ (" " ++ item)) :: (("HTTP " ++ "200") :: (assertLines d e.id ++ ["", "# update"]) ++
    ("PUT" ++ (" " ++ item)) :: (rows ++ ("HTTP " ++ "200") :: ["", "# delete"] ++
      ["DELETE" ++ (" " ++ item), "HTTP " ++ "204"]))

/-- A file on the rows of its bodies. -/
def scriptLines (d : Document) (s : Schema) (e : Entity) (key : List Column) (rows : List String) :
    List String :=
  createScript d s e rows <|
    if key = [] then []
    else "[Captures]" :: (key.map captureLine ++ ["", "# read"] ++
      rowScript d e (route s e ++ "/" ++ keyAddress d key) rows)

theorem fileLines_eq (d : Document) (s : Schema) (e : Entity) (body : String) :
    fileLines d s e body = scriptLines d s e (d.primary e.id) [body] := by
  unfold fileLines scriptLines
  cases d.primary e.id <;>
    simp [createLines, rowLines, rowText, createScript, rowScript, ← String.append_assoc]

/-- Where a body is broken into rows makes no difference. -/
theorem unlines_scriptLines (d : Document) (s : Schema) (e : Entity) (key : List Column)
    {rows rows' : List String} (h : unlines rows = unlines rows') :
    unlines (scriptLines d s e key rows) = unlines (scriptLines d s e key rows') := by
  have hcons : ∀ l ls, unlines (l :: ls) = l ++ "\n" ++ unlines ls := by
    simp [unlines]
  unfold scriptLines
  split <;> simp only [createScript, rowScript, List.cons_append, unlines_append, hcons, h]

/-! ### Reading a script -/

/-- The requests of a script. -/
def script (d : Document) (s : Schema) (e : Entity) (key : List Column)
    (members : List (String × String)) : List Entry :=
  let item := route s e ++ "/" ++ keyAddress d key
  ⟨"POST", route s e, some members, some "201",
      some (key.map fun c => (c.name, "$." ++ c.name)), some []⟩ ::
    if key = [] then []
    else
      [⟨"GET", item, none, some "200", some [], some ((d.validColumns e.id).map fun c =>
          ("$." ++ c.name, checkOf (typeName c.storageKind)))⟩,
        ⟨"PUT", item, some members, some "200", some [], some []⟩,
        ⟨"DELETE", item, none, some "204", some [], some []⟩]

variable (hkey : ∀ c ∈ key, Name.IsPlain c.name)
  (hcolumns : ∀ c ∈ d.validColumns e.id,
    Name.IsPlain c.name ∧ c.storageKind ≠ .unknown ∧ c.storageKind ≠ .reference)
  (hmembers : ∀ m ∈ members, '"' ∉ m.1.toList)

include hmembers in
theorem entry_of_bodyRows (method url code : String) {notes : List String}
    (hnotes : ∀ line ∈ notes, isHeader line = false ∧ isNote line) :
    Entry.ofBlock method url (bodyRows members ++ ("HTTP " ++ code) :: notes) =
      ⟨method, url, some members, some code, some [], some []⟩ := by
  rw [Entry.ofBlock_notes (fun line hline => (plain_of_mem_bodyRows hline).2) hnotes,
    members?_bodyRows hmembers]

include hkey hmembers in
theorem entry_create (url : String) :
    Entry.ofBlock "POST" url (bodyRows members ++ ("HTTP " ++ "201") ::
        "[Captures]" :: (key.map captureLine ++ ["", "# read"])) =
      ⟨"POST", url, some members, some "201", some (key.map fun c => (c.name, "$." ++ c.name)),
        some []⟩ := by
  have hlines : ∀ line ∈ key.map captureLine, isHeader line = false ∧ isNote line = false := by
    intro line hline
    obtain ⟨c, hc, rfl⟩ := List.mem_map.mp hline
    exact plain_captureLine (hkey c hc)
  have hread : (key.map captureLine).mapM capture? =
      some (key.map fun c => (c.name, "$." ++ c.name)) :=
    mapM_map_eq_some fun c hc => capture?_captureLine (hkey c hc)
  rw [Entry.ofBlock_section (fun line hline => (plain_of_mem_bodyRows hline).2) hlines
    (by simp [isHeader, isNote]), members?_bodyRows hmembers, if_pos rfl, if_neg (by decide), hread]
  rfl

include hcolumns in
theorem filterMap_assertLine? :
    (d.validColumns e.id).filterMap assertLine? = (d.validColumns e.id).map checkLine := by
  rw [← List.filterMap_eq_map]
  apply List.filterMap_congr
  intro c hc
  obtain ⟨_, hunknown, href⟩ := hcolumns c hc
  exact assertLine?_eq hunknown href

include hcolumns in
theorem request?_of_mem_assertLines (hline : line ∈ assertLines d e.id) : request? line = none := by
  unfold assertLines assertSection at hline
  rw [filterMap_assertLine? hcolumns] at hline
  split at hline
  · cases hline
  · rcases List.mem_cons.mp hline with rfl | hline
    · decide
    · obtain ⟨c, _, rfl⟩ := List.mem_map.mp hline
      exact (plain_checkLine c).1

include hcolumns in
theorem entry_read (url : String) :
    Entry.ofBlock "GET" url (("HTTP " ++ "200") :: (assertLines d e.id ++ ["", "# update"])) =
      ⟨"GET", url, none, some "200", some [], some ((d.validColumns e.id).map fun c =>
        ("$." ++ c.name, checkOf (typeName c.storageKind)))⟩ := by
  have hnotes : ∀ line ∈ ["", "# update"], isHeader line = false ∧ isNote line := by
    simp [isHeader, isNote]
  unfold assertLines assertSection
  rw [filterMap_assertLine? hcolumns]
  split
  next hnone =>
    rw [List.nil_append, ← List.nil_append (_ :: _), Entry.ofBlock_notes (by simp) hnotes,
      List.map_eq_nil_iff.mp (List.isEmpty_iff.mp hnone)]
    rfl
  next =>
    have hlines : ∀ line ∈ (d.validColumns e.id).map checkLine,
        isHeader line = false ∧ isNote line = false := by
      intro line hline
      obtain ⟨c, _, rfl⟩ := List.mem_map.mp hline
      exact (plain_checkLine c).2
    have hread : ((d.validColumns e.id).map checkLine).mapM check? =
        some ((d.validColumns e.id).map fun c =>
          ("$." ++ c.name, checkOf (typeName c.storageKind))) :=
      mapM_map_eq_some fun c hc => check?_checkLine (hcolumns c hc).1
    rw [List.cons_append, ← List.nil_append (_ :: _), Entry.ofBlock_section (by simp) hlines hnotes,
      if_neg (by decide), if_pos rfl, hread]
    rfl

include hcolumns hmembers in
theorem entries_rowScript (item : String) :
    entries (rowScript d e item (bodyRows members) ++ [""]) =
      [⟨"GET", item, none, some "200", some [], some ((d.validColumns e.id).map fun c =>
          ("$." ++ c.name, checkOf (typeName c.storageKind)))⟩,
        ⟨"PUT", item, some members, some "200", some [], some []⟩,
        ⟨"DELETE", item, none, some "204", some [], some []⟩] := by
  have hshape : rowScript d e item (bodyRows members) ++ [""] =
      ("GET" ++ (" " ++ item)) :: ([] ++ ("HTTP " ++ "200") ::
        ((assertLines d e.id ++ ["", "# update"]) ++
          ("PUT" ++ (" " ++ item)) :: (bodyRows members ++ ("HTTP " ++ "200") ::
            (["", "# delete"] ++
              ("DELETE" ++ (" " ++ item)) :: ([] ++ ("HTTP " ++ "204") :: ([""] ++ [])))))) := by
    simp [rowScript]
  have hchecks : ∀ line ∈ assertLines d e.id ++ ["", "# update"], request? line = none :=
    List.forall_mem_append.mpr ⟨fun _ => request?_of_mem_assertLines hcolumns,
      by simpa using ⟨request?_note rfl, request?_note rfl⟩⟩
  have hrows : ∀ line ∈ bodyRows members, request? line = none :=
    fun line hline => (plain_of_mem_bodyRows hline).1
  have hnotes : ∀ line ∈ ["", "# delete"], request? line = none := by
    simpa using ⟨request?_note rfl, request?_note rfl⟩
  have hlast : ∀ line ∈ [""], request? line = none := by
    simpa using request?_note rfl
  rw [hshape,
    entries_block (by decide) (by simp) hchecks (isSome_request?_head (by decide) _ _),
    entries_block (by decide) hrows hnotes (isSome_request?_head (by decide) _ _),
    entries_block (by decide) (by simp) hlast (by simp), List.nil_append, entry_read hcolumns,
    entry_of_bodyRows hmembers _ _ _ (by simp [isHeader, isNote]),
    ← List.nil_append (_ :: _), Entry.ofBlock_notes (by simp) (by simp [isHeader, isNote])]
  rfl

/-- The first request is the one that creates a row. -/
theorem entries_createScript (d : Document) (s : Schema) (e : Entity) {after rest : List String}
    (hafter : ∀ line ∈ after, request? line = none)
    (hrest : ∀ next ∈ rest.head?, (request? next).isSome) :
    entries (createScript d s e (bodyRows members) (after ++ rest)) =
      .ofBlock "POST" (route s e) (bodyRows members ++ ("HTTP " ++ "201") :: after) ::
        entries rest := by
  have hfront : ∀ line ∈ ["# " ++ d.qualifiedName e.id, "", "# create"], request? line = none := by
    intro line hline
    apply request?_note
    simp only [List.mem_cons, List.not_mem_nil, or_false] at hline
    rcases hline with rfl | rfl | rfl <;> simp [isNote]
  have hrows : ∀ line ∈ bodyRows members, request? line = none :=
    fun line hline => (plain_of_mem_bodyRows hline).1
  rw [createScript, entries_append hfront, entries_block (by decide) hrows hafter hrest]

include hkey hcolumns hmembers in
theorem entries_scriptLines (s : Schema) :
    entries (scriptLines d s e key (bodyRows members) ++ [""]) = script d s e key members := by
  have hend : ∀ after, createScript d s e (bodyRows members) after ++ [""] =
      createScript d s e (bodyRows members) (after ++ [""]) := by
    simp [createScript]
  unfold scriptLines script
  rw [hend]
  split
  next hnone =>
    have hlast : ∀ line ∈ [""], request? line = none := by
      simpa using request?_note rfl
    rw [List.nil_append, ← List.append_nil [""], entries_createScript d s e hlast (by simp),
      entry_of_bodyRows hmembers _ _ _ (by simp [isHeader, isNote]), hnone]
    rfl
  next =>
    have hlines : ∀ line ∈ key.map captureLine, request? line = none := by
      intro line hline
      obtain ⟨c, hc, rfl⟩ := List.mem_map.mp hline
      exact request?_captureLine (hkey c hc)
    have hcaptures : ∀ line ∈ "[Captures]" :: (key.map captureLine ++ ["", "# read"]),
        request? line = none :=
      List.forall_mem_cons.mpr ⟨by decide, List.forall_mem_append.mpr
        ⟨hlines, by simpa using ⟨request?_note rfl, request?_note rfl⟩⟩⟩
    generalize route s e ++ "/" ++ keyAddress d key = item
    have hnext : ∀ next ∈ (rowScript d e item (bodyRows members) ++ [""]).head?,
        (request? next).isSome := isSome_request?_head (by decide : "GET" ∈ methods) _ _
    rw [List.cons_append, List.append_assoc, ← List.cons_append,
      entries_createScript d s e hcaptures hnext, entry_create hkey hmembers,
      entries_rowScript hcolumns hmembers]

omit hkey hcolumns hmembers

/-! ### Values -/

theorem not_mem_newline_seed {value : String} (h : seed c = .ok value) : '\n' ∉ value.toList := by
  have hkind : ∀ kind, '\n' ∉ (seedOfKind kind).toList := by
    intro kind
    cases kind <;> decide
  unfold seed seedText at h
  split at h
  · split at h
    · obtain ⟨bits, hbits, rfl⟩ := exists_of_map_eq_ok h
      unfold zeroPadded at hbits
      split at hbits
      · obtain rfl := Except.ok.inj hbits
        simp [padStart, List.leftpad]
      · cases hbits
    · exact Except.ok.inj h ▸ hkind _
  · exact Except.ok.inj h ▸ hkind _

theorem forall₂_bodyMembers {entity : EntityId} (h : bodyMembers d entity = .ok members) :
    List.Forall₂ (fun c m => m.1 = c.name ∧ seed c = .ok m.2) (sentColumns d entity) members := by
  refine (forall₂_of_mapM_ok h).imp fun c m hm => ?_
  obtain ⟨value, hvalue, rfl⟩ := exists_of_map_eq_ok hm
  exact ⟨rfl, hvalue⟩

theorem exists_of_mem_members {entity : EntityId} (h : bodyMembers d entity = .ok members)
    {m : String × String} (hm : m ∈ members) :
    ∃ c ∈ d.validColumns entity, m.1 = c.name ∧ seed c = .ok m.2 := by
  obtain ⟨hlength, hpairs⟩ := List.forall₂_iff_zip.mp (forall₂_bodyMembers h)
  obtain ⟨i, hi, rfl⟩ := List.mem_iff_getElem.mp hm
  have hpair : ((sentColumns d entity)[i], members[i]) ∈ (sentColumns d entity).zip members :=
    List.mem_iff_getElem.mpr ⟨i, by simp [hi, hlength], by simp⟩
  exact ⟨_, (List.mem_filter.mp (List.of_mem_zip hpair).1).1, hpairs hpair⟩

/-! ### Lines of the text -/

theorem not_mem_newline_route (hs : Name.IsPlain s.name) (he : Name.IsPlain e.name) :
    '\n' ∉ (route s e).toList := by
  simp [route, placeholder, (isWord_kebab hs).not_mem, (isWord_kebab he).not_mem]

theorem not_mem_newline_keyAddress (d : Document) (hkey : ∀ c ∈ key, Name.IsPlain c.name) :
    '\n' ∉ (keyAddress d key).toList := by
  unfold keyAddress
  split
  next c => simp [placeholder, (hkey c (by simp)).not_mem_newline]
  next =>
    intro hmem
    rcases mem_joinWith hmem with hmem | ⟨part, hpart, hmem⟩
    · cases hmem with | tail _ hmem => cases hmem
    · obtain ⟨c, hc, rfl⟩ := List.mem_map.mp hpart
      have hname := hkey c hc
      simp [placeholder, (isWord_keyWord d hname).not_mem, hname.not_mem_newline] at hmem

theorem not_mem_newline_bodyRows
    (hmembers : ∀ m ∈ members, '\n' ∉ m.1.toList ∧ '\n' ∉ m.2.toList)
    (hline : line ∈ bodyRows members) : '\n' ∉ line.toList := by
  rcases exists_of_mem_bodyRows hline with hline | ⟨m, hm, rfl | rfl⟩
  · simp only [List.mem_cons, List.not_mem_nil, or_false] at hline
    rcases hline with rfl | rfl | rfl <;> decide
  · simp [memberRow, hmembers m hm]
  · simp [memberRow, hmembers m hm]

include hcolumns in
theorem not_mem_newline_assertLines (hline : line ∈ assertLines d e.id) : '\n' ∉ line.toList := by
  unfold assertLines assertSection at hline
  rw [filterMap_assertLine? hcolumns] at hline
  split at hline
  · cases hline
  · rcases List.mem_cons.mp hline with rfl | hline
    · decide
    · obtain ⟨c, hc, rfl⟩ := List.mem_map.mp hline
      have htype : Name.IsPlain (typeName c.storageKind) := by
        intro x hx
        have hall : (typeName c.storageKind).toList.all Name.isNameChar := by
          cases c.storageKind <;> rfl
        exact List.all_eq_true.mp hall x hx
      simp [checkLine, checkOf, (hcolumns c hc).1.not_mem_newline,
        (isPlain_pascal htype).not_mem_newline]

include hkey hcolumns in
theorem not_mem_newline_scriptLines (hd : d.PlainNames) (hs : Name.IsPlain s.name)
    (he : Name.IsPlain e.name) {rows : List String} (hrows : ∀ line ∈ rows, '\n' ∉ line.toList)
    (hline : line ∈ scriptLines d s e key rows) : '\n' ∉ line.toList := by
  have hroute := not_mem_newline_route hs he
  have haddress := not_mem_newline_keyAddress d hkey
  have hqualified : '\n' ∉ (d.qualifiedName e.id).toList :=
    fun hmem => absurd (hd.of_mem_qualifiedName hmem) (by decide)
  have hrow : ∀ line ∈ rowScript d e (route s e ++ "/" ++ keyAddress d key) rows,
      '\n' ∉ line.toList := by
    intro line hline
    simp only [rowScript, List.mem_cons, List.mem_append, List.not_mem_nil, or_false] at hline
    rcases hline with rfl | ((rfl | hchecks | rfl | rfl) | rfl | ((hmem | rfl | rfl | rfl) |
      rfl | rfl))
    · simp [hroute, haddress]
    · decide
    · exact not_mem_newline_assertLines hcolumns hchecks
    · decide
    · decide
    · simp [hroute, haddress]
    · exact hrows line hmem
    · decide
    · decide
    · decide
    · simp [hroute, haddress]
    · decide
  simp only [scriptLines, createScript, List.mem_cons, List.mem_append, List.not_mem_nil,
    or_false] at hline
  rcases hline with (rfl | rfl | rfl) | rfl | hmem | rfl | hafter
  · simp [hqualified]
  · decide
  · decide
  · simp [hroute]
  · exact hrows line hmem
  · decide
  · split at hafter
    · cases hafter
    · simp only [List.mem_cons, List.mem_append, List.not_mem_nil, or_false] at hafter
      rcases hafter with rfl | (hcapture | rfl | rfl) | hline
      · decide
      · obtain ⟨c, hc, rfl⟩ := List.mem_map.mp hcapture
        simp [captureLine, captureText, fieldName, (hkey c hc).not_mem_newline]
      · decide
      · decide
      · exact hrow line hline

/-! ### Tests of an entity -/

/-- Whether a script tests an entity. Without a key it only creates a row. Otherwise the key is
captured then, each column once, and the addresses of the other requests use nothing else. Every
valid field is checked when the row is read, and sent with a value unless it is a serial of the
entity itself. -/
structure Tests (d : Document) (entity : EntityId) (script : List Entry) : Prop where
  requests : script.map Entry.method =
    if d.primary entity = [] then ["POST"] else ["POST", "GET", "PUT", "DELETE"]
  captures : ∀ entry ∈ script.head?, entry.captures =
    some ((d.primary entity).map fun c => (c.name, "$." ++ c.name))
  once : (d.primary entity).Nodup
  used : ∀ entry ∈ script.tail, variablesOf entry.url = "host" :: (d.primary entity).map Column.name
  declared : ∀ entry ∈ script.tail, ∀ name ∈ variablesOf entry.url,
    name ≠ "host" → ∃ create ∈ script.head?, name ∈ create.captured
  valid : ∀ entry ∈ script, ∀ name ∈ entry.captured ++ entry.sent,
    ∃ c, .valid c ∈ d.fields entity ∧ c.name = name
  asserts : ∀ entry ∈ script, entry.method = "GET" → entry.asserts =
    some ((d.validColumns entity).map fun c => ("$." ++ c.name, checkOf (typeName c.storageKind)))
  body : ∀ entry ∈ script, entry.method = "POST" ∨ entry.method = "PUT" →
    ∃ members, entry.body = some members ∧
      List.Forall₂ (fun c m => m.1 = c.name ∧ seed c = .ok m.2)
        ((d.validColumns entity).filter fun c => !(c.terminal.kind = .serial && c.isDirect)) members

include hcolumns in
theorem tests_script (hd : d.HandlesSound) (hs : Name.IsPlain s.name) (he : Name.IsPlain e.name)
    (hsent : List.Forall₂ (fun c m => m.1 = c.name ∧ seed c = .ok m.2)
      (sentColumns d e.id) members) :
    Tests d e.id (script d s e (d.primary e.id) members) := by
  have hprimary : ∀ c ∈ d.primary e.id, c ∈ d.validColumns e.id := by
    rw [Postgres.primary_eq hd]
    exact fun c hc => (List.mem_filter.mp hc).1
  have hitem := variablesOf_item d hs he fun c hc => (hcolumns c (hprimary c hc)).1
  have hnames : members.map Prod.fst = (sentColumns d e.id).map Column.name := by
    rw [← List.forall₂_eq_eq_eq, List.forall₂_map_left_iff, List.forall₂_map_right_iff]
    exact hsent.flip.imp fun _ _ h => h.1
  have hmember : ∀ name ∈ members.map Prod.fst, ∃ c, .valid c ∈ d.fields e.id ∧ c.name = name := by
    rw [hnames]
    intro name hname
    obtain ⟨c, hc, rfl⟩ := List.mem_map.mp hname
    exact ⟨c, Document.mem_validColumns_iff.mp (List.mem_filter.mp hc).1, rfl⟩
  have hcaptured : ∀ name ∈ (d.primary e.id).map Column.name,
      ∃ c, .valid c ∈ d.fields e.id ∧ c.name = name := by
    intro name hname
    obtain ⟨c, hc, rfl⟩ := List.mem_map.mp hname
    exact ⟨c, Document.mem_validColumns_iff.mp (hprimary c hc), rfl⟩
  have honce : (d.primary e.id).Nodup := (hd.columns_nodup e.id).filter _
  rw [sentColumns_eq] at hsent
  by_cases hkey : d.primary e.id = []
  · have hscript : script d s e (d.primary e.id) members =
        [⟨"POST", route s e, some members, some "201", some [], some []⟩] := by
      simp [script, hkey]
    rw [hscript]
    exact
      { requests := by simp [hkey]
        captures := by simp [hkey]
        once := honce
        used := by simp
        declared := by simp
        valid := by simpa [Entry.captured, Entry.sent] using hmember
        asserts := by simp
        body := by simpa using hsent }
  · obtain ⟨item, hitem, hscript⟩ : ∃ item,
        variablesOf item = "host" :: (d.primary e.id).map Column.name ∧
        script d s e (d.primary e.id) members = [⟨"POST", route s e, some members, some "201",
            some ((d.primary e.id).map fun c => (c.name, "$." ++ c.name)), some []⟩,
          ⟨"GET", item, none, some "200", some [], some ((d.validColumns e.id).map fun c =>
            ("$." ++ c.name, checkOf (typeName c.storageKind)))⟩,
          ⟨"PUT", item, some members, some "200", some [], some []⟩,
          ⟨"DELETE", item, none, some "204", some [], some []⟩] :=
      ⟨_, hitem, by simp [script, hkey]⟩
    rw [hscript]
    have hfst : ((d.primary e.id).map fun c => (c.name, "$." ++ c.name)).map Prod.fst =
        (d.primary e.id).map Column.name := by
      simp [Function.comp_def]
    rw [← hfst] at hcaptured
    exact
      { requests := by simp [hkey]
        captures := by simp
        once := honce
        used := by simp [hitem]
        declared := by
          intro entry hentry name hname hhost
          have hurl : entry.url = item := by
            simp only [List.tail_cons, List.mem_cons, List.not_mem_nil, or_false] at hentry
            rcases hentry with rfl | rfl | rfl <;> rfl
          rw [hurl, hitem, ← hfst] at hname
          exact ⟨_, rfl, (List.mem_cons.mp hname).resolve_left hhost⟩
        valid := by
          simp only [List.forall_mem_cons]
          exact ⟨List.forall_mem_append.mpr ⟨hcaptured, hmember⟩,
            by simp [Entry.captured, Entry.sent],
            List.forall_mem_append.mpr ⟨by simp [Entry.captured], hmember⟩,
            by simp [Entry.captured, Entry.sent], by simp⟩
        asserts := by simp
        body := by simpa using hsent }

/-- The file of an entity is read as a test of it. -/
theorem tests_entityFile (hd : d.Sound) (hdescribed : ∀ m ∈ d.members, m.Described)
    (hs : s ∈ d.schemas) (he : e ∈ s.entities) {file : FileId × String}
    (hfile : entityFile d s e = .ok file) :
    file.1 = fileId s e ∧ Tests d e.id (entries (splitOn '\n' file.2)) := by
  obtain ⟨members, hmembers, rfl⟩ := exists_of_map_eq_ok hfile
  obtain ⟨hschema, hentities⟩ := hd.plain s hs
  have hcolumns := fun c (hc : c ∈ d.validColumns e.id) => hd.of_mem_validColumns hdescribed hc
  have hkey : ∀ c ∈ d.primary e.id, Name.IsPlain c.name := by
    intro c hc
    rw [Postgres.primary_eq hd.handles] at hc
    exact (hcolumns c (List.mem_filter.mp hc).1).1
  have hmember : ∀ m ∈ members, Name.IsPlain m.1 ∧ '\n' ∉ m.2.toList := by
    intro m hm
    obtain ⟨c, hc, hname, hvalue⟩ := exists_of_mem_members hmembers hm
    exact ⟨hname ▸ (hcolumns c hc).1, not_mem_newline_seed hvalue⟩
  have htext : unlines (fileLines d s e (bodyText members)) =
      unlines (scriptLines d s e (d.primary e.id) (bodyRows members)) := by
    rw [fileLines_eq]
    exact unlines_scriptLines d s e _ (unlines_bodyRows members).symm
  have hrows : ∀ line ∈ bodyRows members, '\n' ∉ line.toList := fun _ =>
    not_mem_newline_bodyRows fun m hm => ⟨(hmember m hm).1.not_mem_newline, (hmember m hm).2⟩
  have hquote : ∀ m ∈ members, '"' ∉ m.1.toList := fun m hm hmem =>
    absurd ((hmember m hm).1 _ hmem) (by decide)
  refine ⟨rfl, ?_⟩
  dsimp only
  rw [htext, splitOn_unlines fun line => not_mem_newline_scriptLines hkey hcolumns hd.plain hschema
    (hentities e he) hrows, entries_scriptLines hkey hcolumns hquote]
  exact tests_script hcolumns hd.handles hschema (hentities e he) (forall₂_bodyMembers hmembers)

theorem exists_tests (hd : d.Sound) (hdescribed : ∀ m ∈ d.members, m.Described)
    (hwidth : ∀ e ∈ d.entities, ∀ c ∈ d.validColumns e.id, ¬ c.IsTooWide) :
    ∃ files written, generate d = .ok files ∧ files.Keeps written ∧
      List.Forall₂ (fun placed file => file.1 = fileId placed.1 placed.2 ∧
          Tests d placed.2.id (entries (splitOn '\n' file.2)))
        (placedEntities d) written := by
  cases hgenerate : generate d with
  | error fault =>
      obtain ⟨_, e, he, c, hc, hwide⟩ := (padsUnless_generate d fault).mp hgenerate
      exact absurd hwide (hwidth e he c hc)
  | ok files =>
      obtain ⟨written, hwritten, rfl⟩ := exists_of_map_eq_ok hgenerate
      refine ⟨_, written, rfl, Files.keeps_ofList written, ?_⟩
      obtain ⟨hlength, hfiles⟩ := List.forall₂_iff_zip.mp (forall₂_of_mapM_ok hwritten)
      refine List.forall₂_iff_zip.mpr ⟨hlength, fun {placed file} hmem => ?_⟩
      obtain ⟨s, hs, hplaced⟩ := List.mem_flatMap.mp (List.of_mem_zip hmem).1
      obtain ⟨e, he, rfl⟩ := List.mem_map.mp hplaced
      have hfile := hfiles hmem
      dsimp only at hfile ⊢
      exact tests_entityFile hd hdescribed hs he hfile

/-- After any run of written edits that leaves no bit string too wide for a padding, there is a file
for every entity, and its reader finds a test of the entity there. -/
theorem generate_tests_run (hd : d.IsOrigin) {es : List Edit} (hes : ∀ e ∈ es, e.isWritten)
    (hwidth : ∀ e ∈ (d.run es).entities, ∀ c ∈ (d.run es).validColumns e.id, ¬ c.IsTooWide) :
    let after := d.run es
    ∃ files written, generate after = .ok files ∧ files.Keeps written ∧
      List.Forall₂ (fun placed file => file.1 = fileId placed.1 placed.2 ∧
          Tests after placed.2.id (entries (splitOn '\n' file.2)))
        (placedEntities after) written :=
  exists_tests (hd.described_run hes).1 (hd.described_run hes).2 hwidth

/-- The stops of a van. Their key goes through the van, whose load has a defect. -/
def parcels : List Edit :=
  [.addSchema "post", .addEntity ⟨1⟩ "van", .addAttribute ⟨1⟩ "- id as ++",
    .addAttribute ⟨1⟩ "- load as ??", .addEntity ⟨1⟩ "stop", .addAttribute ⟨2⟩ "- @van with p",
    .addAttribute ⟨2⟩ "- no as int with p", .addAttribute ⟨2⟩ "- mask as bit with ..4"]

theorem generate_tests_run_parcels :
    let after := (Document.empty 5).run parcels
    (placedEntities after).map (fun placed => placed.2.name) = ["van", "stop"] ∧
      (after.primary ⟨2⟩).map Column.name = ["van_id", "no"] ∧
      (after.validColumns ⟨2⟩).map Column.name = ["van_id", "no", "mask"] ∧
      ∃ files written, generate after = .ok files ∧ files.Keeps written ∧
        List.Forall₂ (fun placed file => file.1 = fileId placed.1 placed.2 ∧
            Tests after placed.2.id (entries (splitOn '\n' file.2)))
          (placedEntities after) written := by
  intro after
  have hall : (placedEntities after).map (fun placed => placed.2.name) = ["van", "stop"] ∧
      (after.primary ⟨2⟩).map Column.name = ["van_id", "no"] ∧
      (after.validColumns ⟨2⟩).map Column.name = ["van_id", "no", "mask"] ∧
      after.entities.all fun e => (after.validColumns e.id).all fun c =>
        c.terminal.maxSize?.all (· ≤ 65535) := by
    decide +kernel
  obtain ⟨hnames, hprimary, hvalid, hwidth⟩ := hall
  refine ⟨hnames, hprimary, hvalid,
    generate_tests_run (.empty 5) (by simp [parcels, Edit.isWritten]) ?_⟩
  rintro e he c hc ⟨_, size, hsize, hwide⟩
  have hfits := List.all_eq_true.mp (List.all_eq_true.mp hwidth e he) c hc
  rw [Option.mem_def.mp hsize, Option.all_some, decide_eq_true_eq] at hfits
  omega

end Blueprint.Output.Hurl
