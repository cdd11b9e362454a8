import Blueprint.Output.Hurl
import Blueprint.Proofs.Cuts

/-! # Reading the scripts of requests

A script is read line by line. A request goes on up to the next one: first its body, a record with
one member on a line, then the status that is expected, then sections that say what is captured and
what is checked. Comments and empty lines stand for nothing. A section or a body with a line that
is not understood has no meaning at all.
-/

namespace Blueprint

/-- A mark cuts a text that does not hold its first character. -/
theorem Text.cut?_append {mark before : String} {c : Char} (hmark : c ∈ mark.toList.head?)
    (hbefore : c ∉ before.toList) (after : String) :
    cut? mark (before ++ (mark ++ after)) = some (before, after) := by
  obtain ⟨rest, hmark⟩ := List.head?_eq_some_iff.mp hmark
  have hhere : Chars.cut? (c :: rest) (c :: rest ++ after.toList) = some ([], after.toList) := by
    rw [List.cons_append, Chars.cut?, ← List.cons_append, Chars.stripStart?_append]
  rw [cut?, String.toList_append, String.toList_append, hmark,
    Chars.cut?_append_of_not_mem hbefore, hhere]
  simp only [Option.map_some, List.append_nil, String.ofList_toList]

namespace Output.Hurl

open Text

/-! ### Variables -/

/-- The variables in a text that follows `name`, the beginning of a variable if there is one. -/
def variablesAfter (name : Option (List Char)) : List Char → List String
  | c :: c' :: rest =>
    match name with
    | none =>
      if c = '\x7b' ∧ c' = '\x7b' then variablesAfter (some []) rest
      else variablesAfter none (c' :: rest)
    | some front =>
      if c = '\x7d' ∧ c' = '\x7d' then .ofList front :: variablesAfter none rest
      else variablesAfter (some (front ++ [c])) (c' :: rest)
  | _ => []

/-- The variables in a text, in the order they are used. -/
def variablesOf (s : String) : List String :=
  variablesAfter none s.toList

/-- Nothing but a bracket begins a variable. -/
theorem variablesAfter_append {cs : List Char} (hcs : '\x7b' ∉ cs) (rest : List Char) :
    variablesAfter none (cs ++ rest) = variablesAfter none rest := by
  induction cs with
  | nil => rfl
  | cons c cs ih =>
      obtain ⟨hc, hcs⟩ : '\x7b' ≠ c ∧ '\x7b' ∉ cs := by simpa using hcs
      rw [List.cons_append, ← ih hcs]
      cases cs ++ rest with
      | nil => rfl
      | cons c' rest => rw [variablesAfter, if_neg fun h => hc h.1.symm]

theorem variablesAfter_name {name : List Char} (hname : '\x7d' ∉ name) (front rest : List Char) :
    variablesAfter (some front) (name ++ '\x7d' :: '\x7d' :: rest) =
      .ofList (front ++ name) :: variablesAfter none rest := by
  induction name generalizing front with
  | nil => simp [variablesAfter]
  | cons c name ih =>
      obtain ⟨hc, hname⟩ : '\x7d' ≠ c ∧ '\x7d' ∉ name := by simpa using hname
      have hrest := ih hname (front ++ [c])
      rw [List.append_assoc, List.singleton_append] at hrest
      rw [List.cons_append, ← hrest]
      obtain ⟨c', rest', heq⟩ : ∃ c' rest', name ++ '\x7d' :: '\x7d' :: rest = c' :: rest' :=
        List.exists_cons_of_ne_nil (by simp)
      rw [heq, variablesAfter, if_neg fun h => hc h.1.symm]

theorem variablesAfter_placeholder {name : String} (hname : '\x7d' ∉ name.toList)
    (rest : List Char) :
    variablesAfter none ((placeholder name).toList ++ rest) = name :: variablesAfter none rest := by
  have hread := variablesAfter_name hname [] rest
  rw [List.nil_append, String.ofList_toList] at hread
  rw [← hread]
  simp [placeholder, variablesAfter]

/-! ### Lines -/

/-- The methods of requests. -/
def methods : List String := ["GET", "POST", "PUT", "DELETE"]

/-- The method and the address of the request that a line begins. -/
def request? (line : String) : Option (String × String) :=
  (cut? " " line).filter fun p => methods.contains p.1

/-- The status that a line expects. -/
def status? (line : String) : Option String :=
  stripStart? "HTTP " line

/-- Whether a line begins a section. -/
def isHeader (line : String) : Bool :=
  line.toList.head? = some '['

/-- Whether a line stands for nothing. -/
def isNote (line : String) : Bool :=
  line = "" || line.toList.head? = some '#'

/-- A variable and where its value is found. -/
def capture? (line : String) : Option (String × String) :=
  (cut? ": jsonpath \"" line).bind fun p => (stripEnd? "\"" p.2).map (p.1, ·)

/-- Where a value is found, and what it is checked for. -/
def check? (line : String) : Option (String × String) :=
  (stripStart? "jsonpath \"" line).bind (cut? "\" ")

/-- The name and the value of a member. -/
def member? (row : String) : Option (String × String) :=
  (stripStart? "    \"" row).bind (cut? "\": ")

/-- Members on rows of their own, with a comma after each but the last. -/
def rows? : List String → Option (List (String × String))
  | [] => none
  | [row] => (member? row).map fun m => [m]
  | row :: next :: rest =>
    ((stripEnd? "," row).bind member?).bind fun m => (rows? (next :: rest)).map (m :: ·)

/-- The members of a record. -/
def members? (lines : List String) : Option (List (String × String)) :=
  if lines = ["\x7b\x7d"] then some []
  else if lines.head? = some "\x7b" ∧ lines.getLast? = some "\x7d" then rows? lines.tail.dropLast
  else none

/-- The lines of a section, up to the next one. -/
def sectionLines (header : String) (block : List String) : List String :=
  (((block.dropWhile (· ≠ header)).drop 1).takeWhile (!isHeader ·)).filter (!isNote ·)

/-! ### Scripts -/

structure Entry where
  method : String
  url : String
  body : Option (List (String × String))
  status : Option String
  captures : Option (List (String × String))
  asserts : Option (List (String × String))
deriving DecidableEq

/-- A request with the lines that belong to it. -/
def Entry.ofBlock (method url : String) (block : List String) : Entry where
  method := method
  url := url
  body := members? (block.takeWhile fun line => (status? line).isNone)
  status := block.findSome? status?
  captures := (sectionLines "[Captures]" block).mapM capture?
  asserts := (sectionLines "[Asserts]" block).mapM check?

/-- The requests of a script. -/
def entries : List String → List Entry
  | [] => []
  | line :: rest =>
    match request? line with
    | some p => .ofBlock p.1 p.2 (rest.takeWhile fun line => (request? line).isNone) :: entries rest
    | none => entries rest

/-- The names that are captured after a request. -/
def Entry.captured (entry : Entry) : List String :=
  (entry.captures.getD []).map Prod.fst

/-- The names that are sent with a request. -/
def Entry.sent (entry : Entry) : List String :=
  (entry.body.getD []).map Prod.fst

variable {line method url : String} {block rest : List String}

/-- Lines before the first request are passed over. -/
theorem entries_append (hblock : ∀ line ∈ block, request? line = none) (rest : List String) :
    entries (block ++ rest) = entries rest := by
  induction block with
  | nil => rfl
  | cons line block ih =>
      obtain ⟨hline, hblock⟩ := List.forall_mem_cons.mp hblock
      rw [List.cons_append, entries, hline]
      exact ih hblock

/-- A request has the lines up to the next one. -/
theorem entries_request (hline : request? line = some (method, url))
    (hblock : ∀ line ∈ block, request? line = none)
    (hrest : ∀ next ∈ rest.head?, (request? next).isSome) :
    entries (line :: (block ++ rest)) = .ofBlock method url block :: entries rest := by
  have hstop : rest.takeWhile (fun line => (request? line).isNone) = [] := by
    cases rest with
    | nil => rfl
    | cons next rest =>
        have hnext := hrest next rfl
        rw [List.takeWhile_cons_of_neg]
        simpa using Option.isSome_iff_ne_none.mp hnext
  have hown : (block ++ rest).takeWhile (fun line => (request? line).isNone) = block := by
    rw [List.takeWhile_append_of_pos fun line hmem => by simp [hblock line hmem], hstop,
      List.append_nil]
  rw [entries, hline]
  dsimp only
  rw [hown, entries_append hblock]

theorem request?_append (hmethod : method ∈ methods) (url : String) :
    request? (method ++ (" " ++ url)) = some (method, url) := by
  have hblank : ' ' ∉ method.toList := by
    simp only [methods, List.mem_cons, List.not_mem_nil, or_false] at hmethod
    rcases hmethod with rfl | rfl | rfl | rfl <;> decide
  rw [request?, cut?_append rfl hblank, Option.filter_some,
    if_pos (List.contains_iff_mem.mpr hmethod)]

theorem isSome_request?_head (hmethod : method ∈ methods) (url : String) (rest : List String) :
    ∀ next ∈ ((method ++ (" " ++ url)) :: rest).head?, (request? next).isSome := by
  rintro next ⟨⟩
  rw [request?_append hmethod]
  rfl

/-- A line begins no request if its first word is no method. -/
theorem request?_eq_none {word : String} (hblank : ' ' ∉ word.toList) (hword : word ∉ methods)
    (s : String) : request? (word ++ (" " ++ s)) = none := by
  rw [request?, cut?_append rfl hblank, Option.filter_some]
  simpa using hword

theorem request?_of_head? (hline : ∀ c ∈ line.toList.head?, c ≠ 'G' ∧ c ≠ 'P' ∧ c ≠ 'D') :
    request? line = none := by
  rw [Option.eq_none_iff_forall_ne_some]
  rintro ⟨method, url⟩ hrequest
  obtain ⟨hcut, hmethod⟩ := Option.filter_eq_some_iff.mp hrequest
  have heq := eq_of_cut?_eq_some hcut
  have hmethod : method ∈ methods := by simpa using hmethod
  simp only [methods, List.mem_cons, List.not_mem_nil, or_false] at hmethod
  rcases hmethod with rfl | rfl | rfl | rfl <;> simp [heq] at hline

theorem request?_note (hline : isNote line) : request? line = none := by
  refine request?_of_head? fun c hc => ?_
  rw [isNote, Option.mem_def.mp hc] at hline
  simp only [Option.some.injEq, Bool.or_eq_true, decide_eq_true_eq] at hline
  rcases hline with rfl | rfl
  · cases hc
  · decide

/-- A line with another first character is neither a header nor a note. -/
theorem plain_of_head? {c : Char} (hline : c ∈ line.toList.head?) (hheader : c ≠ '[')
    (hnote : c ≠ '#') : isHeader line = false ∧ isNote line = false := by
  have hne : line ≠ "" := by
    rintro rfl
    cases hline
  rw [isHeader, isNote, Option.mem_def.mp hline]
  simp [hne, hheader, hnote]

/-! ### Sections -/

variable {before lines notes : List String} {header title : String}

theorem not_mem_of_isHeader (hheader : isHeader header)
    (hblock : ∀ line ∈ block, isHeader line = false) : header ∉ block :=
  fun hmem => Bool.noConfusion (hheader.symm.trans (hblock header hmem))

theorem sectionLines_eq_nil (hblock : header ∉ block) : sectionLines header block = [] := by
  have hdrop : block.dropWhile (· ≠ header) = [] := by
    rw [List.dropWhile_eq_nil_iff]
    intro line hline
    simpa using fun heq : line = header => hblock (heq ▸ hline)
  rw [sectionLines, hdrop]
  rfl

/-- A section has the lines after its header, but for the notes. -/
theorem sectionLines_eq (hheader : isHeader header)
    (hbefore : ∀ line ∈ before, isHeader line = false)
    (hlines : ∀ line ∈ lines, isHeader line = false ∧ isNote line = false)
    (hnotes : ∀ line ∈ notes, isHeader line = false ∧ isNote line) :
    sectionLines header (before ++ title :: (lines ++ notes)) =
      if header = title then lines else [] := by
  have hafter : ∀ line ∈ lines ++ notes, isHeader line = false := by
    intro line hline
    rcases List.mem_append.mp hline with hline | hline
    · exact (hlines line hline).1
    · exact (hnotes line hline).1
  have hbefore : header ∉ before := not_mem_of_isHeader hheader hbefore
  split
  next heq =>
    subst heq
    have hdrop : (before ++ header :: (lines ++ notes)).dropWhile (· ≠ header) =
        header :: (lines ++ notes) := by
      rw [List.dropWhile_append_of_pos]
      · simp
      · intro line hline
        simpa using fun heq : line = header => hbefore (heq ▸ hline)
    have htake : (lines ++ notes).takeWhile (!isHeader ·) = lines ++ notes := by
      rw [List.takeWhile_eq_self_iff]
      simpa using hafter
    have hkept : lines.filter (!isNote ·) = lines := by
      rw [List.filter_eq_self]
      exact fun line hline => by simp [(hlines line hline).2]
    have hleft : notes.filter (!isNote ·) = [] := by
      rw [List.filter_eq_nil_iff]
      exact fun line hline => by simp [(hnotes line hline).2]
    rw [sectionLines, hdrop, List.drop_one, List.tail_cons, htake, List.filter_append, hkept, hleft,
      List.append_nil]
  next hne =>
    have hafter : header ∉ lines ++ notes := not_mem_of_isHeader hheader hafter
    exact sectionLines_eq_nil (by simp_all)

/-! ### Blocks -/

variable {front : List String} {code : String}

theorem status?_append (code : String) : status? ("HTTP " ++ code) = some code :=
  stripStart?_append "HTTP " code

/-- What stands before the status is the body. -/
theorem takeWhile_status (hfront : ∀ line ∈ front, status? line = none) (code : String)
    (rest : List String) :
    (front ++ ("HTTP " ++ code) :: rest).takeWhile (fun line => (status? line).isNone) = front := by
  rw [List.takeWhile_append_of_pos fun line hline => by simp [hfront line hline],
    List.takeWhile_cons_of_neg (by simp [status?_append]), List.append_nil]

theorem findSome?_status (hfront : ∀ line ∈ front, status? line = none) (code : String)
    (rest : List String) :
    (front ++ ("HTTP " ++ code) :: rest).findSome? status? = some code := by
  rw [List.findSome?_append, List.findSome?_eq_none_iff.mpr hfront, Option.none_or,
    List.findSome?_cons, status?_append]

/-- A request ends where the next one begins. -/
theorem entries_block {after : List String} (hmethod : method ∈ methods)
    (hfront : ∀ line ∈ front, request? line = none) (hafter : ∀ line ∈ after, request? line = none)
    (hrest : ∀ next ∈ rest.head?, (request? next).isSome) (url code : String) :
    entries ((method ++ (" " ++ url)) :: (front ++ ("HTTP " ++ code) :: (after ++ rest))) =
      .ofBlock method url (front ++ ("HTTP " ++ code) :: after) :: entries rest := by
  have hstatus : request? ("HTTP " ++ code) = none := request?_of_head? (by simp)
  have hblock : ∀ line ∈ front ++ ("HTTP " ++ code) :: after, request? line = none :=
    List.forall_mem_append.mpr ⟨hfront, List.forall_mem_cons.mpr ⟨hstatus, hafter⟩⟩
  rw [← entries_request (request?_append hmethod url) hblock hrest, List.append_assoc,
    List.cons_append]

theorem isHeader_status (code : String) : isHeader ("HTTP " ++ code) = false := by
  simp [isHeader]

/-- A request without a section. -/
theorem Entry.ofBlock_notes (hfront : ∀ line ∈ front, status? line = none ∧ isHeader line = false)
    (hnotes : ∀ line ∈ notes, isHeader line = false ∧ isNote line) :
    Entry.ofBlock method url (front ++ ("HTTP " ++ code) :: notes) =
      ⟨method, url, members? front, some code, some [], some []⟩ := by
  have hblock : ∀ line ∈ front ++ ("HTTP " ++ code) :: notes, isHeader line = false := by
    intro line hline
    rcases List.mem_append.mp hline with hline | hline
    · exact (hfront line hline).2
    · rcases List.mem_cons.mp hline with rfl | hline
      · exact isHeader_status code
      · exact (hnotes line hline).1
  rw [ofBlock, takeWhile_status fun line hline => (hfront line hline).1,
    findSome?_status fun line hline => (hfront line hline).1,
    sectionLines_eq_nil (not_mem_of_isHeader rfl hblock),
    sectionLines_eq_nil (not_mem_of_isHeader rfl hblock)]
  rfl

/-- A request with a section. -/
theorem Entry.ofBlock_section (hfront : ∀ line ∈ front, status? line = none ∧ isHeader line = false)
    (hlines : ∀ line ∈ lines, isHeader line = false ∧ isNote line = false)
    (hnotes : ∀ line ∈ notes, isHeader line = false ∧ isNote line) :
    Entry.ofBlock method url (front ++ ("HTTP " ++ code) :: title :: (lines ++ notes)) =
      ⟨method, url, members? front, some code,
        (if "[Captures]" = title then lines else []).mapM capture?,
        (if "[Asserts]" = title then lines else []).mapM check?⟩ := by
  have hbefore : ∀ line ∈ front ++ ["HTTP " ++ code], isHeader line = false := by
    intro line hline
    rcases List.mem_append.mp hline with hline | hline
    · exact (hfront line hline).2
    · exact List.mem_singleton.mp hline ▸ isHeader_status code
  have hsplit : front ++ ("HTTP " ++ code) :: title :: (lines ++ notes) =
      front ++ ["HTTP " ++ code] ++ title :: (lines ++ notes) := by
    simp
  rw [ofBlock, takeWhile_status fun line hline => (hfront line hline).1,
    findSome?_status fun line hline => (hfront line hline).1, hsplit,
    sectionLines_eq rfl hbefore hlines hnotes, sectionLines_eq rfl hbefore hlines hnotes]

/-- What is written line by line is read line by line. -/
theorem mapM_map_eq_some {α β γ : Type} {write : α → β} {read : β → Option γ} {meaning : α → γ}
    {xs : List α} (h : ∀ x ∈ xs, read (write x) = some (meaning x)) :
    (xs.map write).mapM read = some (xs.map meaning) := by
  induction xs with
  | nil => rfl
  | cons x xs ih =>
      obtain ⟨hx, hxs⟩ := List.forall_mem_cons.mp h
      simp [List.mapM_cons, hx, ih hxs]

/-! ### Records -/

/-- A member as it is written. -/
def memberRow (m : String × String) : String :=
  "    \"" ++ m.1 ++ "\": " ++ m.2

/-- The rows between the brackets of a record. -/
def memberRows : List (String × String) → List String
  | [] => []
  | [m] => [memberRow m]
  | m :: next :: rest => (memberRow m ++ ",") :: memberRows (next :: rest)

/-- The lines of a record. -/
def bodyRows (members : List (String × String)) : List String :=
  if members.isEmpty then ["\x7b\x7d"] else "\x7b" :: (memberRows members ++ ["\x7d"])

theorem member?_memberRow {m : String × String} (hname : '"' ∉ m.1.toList) :
    member? (memberRow m) = some m := by
  have hrow : memberRow m = "    \"" ++ (m.1 ++ ("\": " ++ m.2)) := by
    simp only [memberRow, String.append_assoc]
  rw [hrow, member?, stripStart?_append, Option.bind_some, cut?_append rfl hname]

variable {members : List (String × String)}

theorem rows?_memberRows (hnames : ∀ m ∈ members, '"' ∉ m.1.toList) (hne : members ≠ []) :
    rows? (memberRows members) = some members := by
  fun_induction memberRows members with
  | case1 => exact absurd rfl hne
  | case2 m => rw [rows?, member?_memberRow (hnames m (by simp)), Option.map_some]
  | case3 m next rest ih =>
      obtain ⟨hm, hrest⟩ := List.forall_mem_cons.mp hnames
      have hread := ih hrest (by simp)
      obtain ⟨row, rows, hrows⟩ := List.exists_cons_of_ne_nil (l := memberRows (next :: rest))
        (by cases rest <;> simp [memberRows])
      rw [hrows] at hread ⊢
      rw [rows?, stripEnd?_append, Option.bind_some, member?_memberRow hm, Option.bind_some, hread,
        Option.map_some]

theorem members?_bodyRows (hnames : ∀ m ∈ members, '"' ∉ m.1.toList) :
    members? (bodyRows members) = some members := by
  unfold bodyRows
  split
  next hempty =>
    rw [List.isEmpty_iff.mp hempty]
    rfl
  next hempty =>
    have hne : members ≠ [] := by simpa using hempty
    have hhead : "\x7b" :: (memberRows members ++ ["\x7d"]) ≠ ["\x7b\x7d"] := by simp
    have hlast : ("\x7b" :: (memberRows members ++ ["\x7d"])).getLast? = some "\x7d" := by
      rw [← List.cons_append, List.getLast?_concat]
    rw [members?, if_neg hhead, if_pos ⟨rfl, hlast⟩, List.tail_cons, List.dropLast_concat,
      rows?_memberRows hnames hne]

theorem exists_of_mem_memberRows (hline : line ∈ memberRows members) :
    ∃ m ∈ members, line = memberRow m ∨ line = memberRow m ++ "," := by
  fun_induction memberRows members with
  | case1 => cases hline
  | case2 m => exact ⟨m, by simp, Or.inl (List.mem_singleton.mp hline)⟩
  | case3 m next rest ih =>
      rcases List.mem_cons.mp hline with rfl | hline
      · exact ⟨m, by simp, Or.inr rfl⟩
      · obtain ⟨m', hm', heq⟩ := ih hline
        exact ⟨m', List.mem_cons_of_mem _ hm', heq⟩

/-- A line of a record is one of its brackets or holds a member. -/
theorem exists_of_mem_bodyRows (hline : line ∈ bodyRows members) :
    line ∈ ["\x7b\x7d", "\x7b", "\x7d"] ∨
      ∃ m ∈ members, line = memberRow m ∨ line = memberRow m ++ "," := by
  unfold bodyRows at hline
  split at hline
  · exact Or.inl (by simp [List.mem_singleton.mp hline])
  · simp only [List.mem_cons, List.mem_append, List.not_mem_nil, or_false] at hline
    rcases hline with rfl | hline | rfl
    · simp
    · exact Or.inr (exists_of_mem_memberRows hline)
    · simp

theorem head?_of_mem_bodyRows (hline : line ∈ bodyRows members) :
    ∃ c ∈ line.toList.head?, c = '\x7b' ∨ c = '\x7d' ∨ c = ' ' := by
  rcases exists_of_mem_bodyRows hline with hline | ⟨m, _, rfl | rfl⟩
  · simp only [List.mem_cons, List.not_mem_nil, or_false] at hline
    rcases hline with rfl | rfl | rfl <;> simp
  · exact ⟨' ', by simp [memberRow], by simp⟩
  · exact ⟨' ', by simp [memberRow], by simp⟩

theorem plain_of_mem_bodyRows (hline : line ∈ bodyRows members) :
    request? line = none ∧ status? line = none ∧ isHeader line = false := by
  obtain ⟨c, hc, hclass⟩ := head?_of_mem_bodyRows hline
  have hhead : ∀ c' ∈ line.toList.head?, c' = c := fun c' hc' => Option.mem_unique hc' hc
  refine ⟨request?_of_head? fun c' hc' => ?_, stripStart?_eq_none (c := 'H') rfl fun hc' => ?_,
    (plain_of_head? hc ?_ ?_).1⟩
  · obtain rfl := hhead c' hc'
    rcases hclass with rfl | rfl | rfl <;> decide
  · obtain rfl := hhead 'H' hc'
    rcases hclass with heq | heq | heq <;> cases heq
  all_goals
    rintro rfl
    rcases hclass with heq | heq | heq <;> cases heq

theorem unlines_memberRows (hne : members ≠ []) :
    unlines (memberRows members) = joinWith ",\n" (members.map memberRow) ++ "\n" := by
  fun_induction memberRows members with
  | case1 => exact absurd rfl hne
  | case2 m => simp [unlines, joinWith]
  | case3 m next rest ih =>
      have hjoin : joinWith ",\n" ((m :: next :: rest).map memberRow) =
          memberRow m ++ ",\n" ++ joinWith ",\n" ((next :: rest).map memberRow) :=
        String.intercalate_cons_cons
      rw [← List.singleton_append, unlines_append, ih (by simp), hjoin]
      apply String.toList_inj.mp
      simp [unlines]

/-- A record is written row by row. -/
theorem unlines_bodyRows (members : List (String × String)) :
    unlines (bodyRows members) = unlines [bodyText members] := by
  unfold bodyRows bodyText
  split
  next => rfl
  next hempty =>
    have hne : members ≠ [] := by simpa using hempty
    have hrows := unlines_memberRows hne
    have hsplit : "\x7b" :: (memberRows members ++ ["\x7d"]) =
        ["\x7b"] ++ memberRows members ++ ["\x7d"] := rfl
    unfold memberRow at hrows
    rw [hsplit, unlines_append, unlines_append, hrows]
    apply String.toList_inj.mp
    simp [unlines]

end Output.Hurl

end Blueprint
