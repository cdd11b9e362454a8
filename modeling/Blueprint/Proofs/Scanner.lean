import Blueprint.Output.Postgres
import Blueprint.Proofs.Lines

/-! # Scanning tables

A scanner that knows nothing of tables but single quotes and the comments after two
hyphens tells what a text shows outside of them. What a text shows is that of its parts
put together, if each part ends outside again, and so it is with its round brackets.
-/

namespace Blueprint.Output.Postgres

/-- Where the scanner stands. -/
inductive Mode where
  | outside
  /-- Between single quotes; two of them in a row stand for one. -/
  | literal
  /-- After two hyphens, up to the end of the line. -/
  | comment
deriving DecidableEq, Repr

/-- The characters outside of literals and comments, and where the text ends. -/
def scan : Mode → List Char → List Char × Mode
  | mode, [] => ([], mode)
  | .outside, c :: rest =>
    if c = '\'' then scan .literal rest
    else if c = '-' ∧ rest.head? = some '-' then scan .comment rest
    else
      let (shown, last) := scan .outside rest
      (c :: shown, last)
  | .literal, [c] => ([], if c = '\'' then .outside else .literal)
  | .literal, c :: next :: rest =>
    if c = '\'' then
      if next = '\'' then scan .literal rest else scan .outside (next :: rest)
    else scan .literal (next :: rest)
  | .comment, c :: rest =>
    if c = '\n' then
      let (shown, last) := scan .outside rest
      (c :: shown, last)
    else scan .comment rest

/-- What a text shows outside of literals and comments. -/
def shown (text : String) : List Char :=
  (scan .outside text.toList).1

/-- Where a text ends that starts outside. -/
def finish (text : String) : Mode :=
  (scan .outside text.toList).2

/-! ### Steps of the scanner -/

theorem scan_outside (c : Char) (rest : List Char) :
    scan .outside (c :: rest) =
      if c = '\'' then scan .literal rest
      else if c = '-' ∧ rest.head? = some '-' then scan .comment rest
      else (c :: (scan .outside rest).1, (scan .outside rest).2) :=
  rfl

theorem scan_literal (c next : Char) (rest : List Char) :
    scan .literal (c :: next :: rest) =
      if c = '\'' then if next = '\'' then scan .literal rest else scan .outside (next :: rest)
      else scan .literal (next :: rest) :=
  rfl

theorem scan_comment (c : Char) (rest : List Char) :
    scan .comment (c :: rest) =
      if c = '\n' then (c :: (scan .outside rest).1, (scan .outside rest).2)
      else scan .comment rest :=
  rfl

theorem scan_outside_cons {c : Char} (hquote : c ≠ '\'') (hhyphen : c ≠ '-') (rest : List Char) :
    scan .outside (c :: rest) = (c :: (scan .outside rest).1, (scan .outside rest).2) := by
  rw [scan_outside, if_neg hquote, if_neg fun h => hhyphen h.1]

theorem scan_outside_hyphen {c : Char} (hc : c ≠ '-') (rest : List Char) :
    scan .outside ('-' :: c :: rest) =
      ('-' :: (scan .outside (c :: rest)).1, (scan .outside (c :: rest)).2) := by
  rw [scan_outside, if_neg (by decide), if_neg fun h => hc (Option.some.inj h.2)]

theorem scan_outside_quote (rest : List Char) :
    scan .outside ('\'' :: rest) = scan .literal rest := by
  rw [scan_outside, if_pos rfl]

theorem scan_literal_cons {c : Char} (hc : c ≠ '\'') (rest : List Char) :
    scan .literal (c :: rest) = scan .literal rest := by
  cases rest with
  | nil => exact congrArg (Prod.mk []) (if_neg hc)
  | cons next rest => rw [scan_literal, if_neg hc]

theorem scan_literal_doubled_quote (rest : List Char) :
    scan .literal ('\'' :: '\'' :: rest) = scan .literal rest := by
  rw [scan_literal, if_pos rfl, if_pos rfl]

/-- A quote ends a literal. If another one follows, that one opens it again, which is the same
as two quotes for one. -/
theorem scan_literal_quote (rest : List Char) :
    scan .literal ('\'' :: rest) = scan .outside rest := by
  cases rest with
  | nil => rfl
  | cons next rest =>
      by_cases hnext : next = '\''
      · rw [hnext, scan_literal_doubled_quote, scan_outside_quote]
      · rw [scan_literal, if_pos rfl, if_neg hnext]

theorem scan_literal_doubled (cs rest : List Char) :
    scan .literal ((cs.flatMap fun c => if c = '\'' then ['\'', '\''] else [c]) ++ rest) =
      scan .literal rest := by
  induction cs with
  | nil => rfl
  | cons c cs ih =>
      rw [List.flatMap_cons, List.append_assoc]
      split
      · rw [List.cons_append, List.cons_append, List.nil_append, scan_literal_doubled_quote, ih]
      next hc => rw [List.cons_append, List.nil_append, scan_literal_cons hc, ih]

theorem scan_comment_body {cs : List Char} (hcs : '\n' ∉ cs) (rest : List Char) :
    scan .comment (cs ++ rest) = scan .comment rest := by
  induction cs with
  | nil => rfl
  | cons c cs ih =>
      simp only [List.mem_cons, not_or] at hcs
      rw [List.cons_append, scan_comment, if_neg fun h => hcs.1 h.symm, ih hcs.2]

/-- Two hyphens start a comment, which the end of the line ends. -/
theorem scan_outside_comment {cs : List Char} (hcs : '\n' ∉ cs) (rest : List Char) :
    scan .outside ('-' :: '-' :: cs ++ rest) = scan .comment rest := by
  have hbody : '\n' ∉ '-' :: cs := by simpa using hcs
  rw [List.cons_append, scan_outside, if_neg (by decide), if_pos ⟨rfl, rfl⟩,
    scan_comment_body hbody]

theorem scan_comment_newline (rest : List Char) :
    scan .comment ('\n' :: rest) = ('\n' :: (scan .outside rest).1, (scan .outside rest).2) := by
  rw [scan_comment, if_pos rfl]

/-! ### Texts that end outside -/

/-- Whether a text shows what is given and ends outside, whatever follows it. -/
def Shows (text seen : List Char) : Prop :=
  ∀ rest, scan .outside (text ++ rest) =
    (seen ++ (scan .outside rest).1, (scan .outside rest).2)

theorem Shows.append {a b seen seen' : List Char} (ha : Shows a seen) (hb : Shows b seen') :
    Shows (a ++ b) (seen ++ seen') := by
  intro rest
  rw [List.append_assoc, ha, hb, List.append_assoc]

theorem Shows.scan_eq {text seen : List Char} (h : Shows text seen) :
    scan .outside text = (seen, .outside) := by
  have hscan := h []
  rw [List.append_nil] at hscan
  exact hscan.trans (congrArg (·, Mode.outside) (List.append_nil seen))

theorem shows_single {c : Char} (hquote : c ≠ '\'') (hhyphen : c ≠ '-') : Shows [c] [c] :=
  fun rest => scan_outside_cons hquote hhyphen rest

theorem shows_doubled (cs : List Char) :
    Shows ('\'' :: (cs.flatMap fun c => if c = '\'' then ['\'', '\''] else [c]) ++ ['\'']) [] := by
  intro rest
  rw [List.cons_append, List.cons_append, scan_outside_quote, List.append_assoc,
    scan_literal_doubled, List.singleton_append, scan_literal_quote]
  rfl

theorem shows_comment {cs : List Char} (hcs : '\n' ∉ cs) :
    Shows ('-' :: '-' :: cs ++ ['\n']) ['\n'] := by
  intro rest
  rw [List.append_assoc, scan_outside_comment hcs, List.singleton_append, scan_comment_newline]
  rfl

/-! ### Brackets -/

/-- Whether every round bracket has its partner and none closes before it is opened. -/
structure Balanced (cs : List Char) : Prop where
  opened : ∀ n, (cs.take n).count ')' ≤ (cs.take n).count '('
  closed : cs.count ')' = cs.count '('

/-- Whether every comma stands between round brackets. -/
def CommasInside (cs : List Char) : Prop :=
  ∀ n, cs[n]? = some ',' → (cs.take n).count ')' < (cs.take n).count '('

theorem balanced_of_not_mem {cs : List Char} (hopen : '(' ∉ cs) (hclose : ')' ∉ cs) :
    Balanced cs where
  opened n := by
    rw [List.count_eq_zero_of_not_mem fun h => hclose (List.mem_of_mem_take h)]
    exact Nat.zero_le _
  closed := by rw [List.count_eq_zero_of_not_mem hopen, List.count_eq_zero_of_not_mem hclose]

theorem Balanced.append {a b : List Char} (ha : Balanced a) (hb : Balanced b) :
    Balanced (a ++ b) where
  opened n := by
    rw [List.take_append, List.count_append, List.count_append]
    exact Nat.add_le_add (ha.opened n) (hb.opened _)
  closed := by rw [List.count_append, List.count_append, ha.closed, hb.closed]

theorem Balanced.brackets {cs : List Char} (h : Balanced cs) :
    Balanced ('(' :: cs ++ [')']) where
  opened n := by
    cases n with
    | zero => simp
    | succ n =>
        have hle := h.opened n
        have hlast : ([')'].take (n - cs.length)).count ')' ≤ 1 :=
          Nat.le_trans ((List.take_sublist _ _).count_le _) (by decide)
        simp only [List.cons_append, List.take_succ_cons, List.take_append, List.count_cons,
          List.count_append]
        simp
        omega
  closed := by
    have hclosed := h.closed
    simp [List.count_append, hclosed]

theorem commasInside_of_not_mem {cs : List Char} (h : ',' ∉ cs) : CommasInside cs :=
  fun _ hn => absurd (List.mem_of_getElem? hn) h

theorem CommasInside.append {a b : List Char} (hbalanced : Balanced a) (ha : CommasInside a)
    (hb : CommasInside b) : CommasInside (a ++ b) := by
  intro n hn
  have hclosed := hbalanced.closed
  rcases Nat.lt_or_ge n a.length with hlt | hge
  · rw [List.getElem?_append_left hlt] at hn
    rw [List.take_append_of_le_length (Nat.le_of_lt hlt)]
    exact ha n hn
  · rw [List.getElem?_append_right hge] at hn
    have hlt := hb _ hn
    rw [List.take_append, List.take_of_length_le hge, List.count_append, List.count_append]
    omega

theorem commasInside_brackets {cs : List Char} (h : Balanced cs) :
    CommasInside ('(' :: cs ++ [')']) := by
  intro n hn
  cases n with
  | zero => simp at hn
  | succ n =>
      rw [List.cons_append, List.getElem?_cons_succ] at hn
      have hlt : n < cs.length := by
        rcases Nat.lt_or_ge n cs.length with hlt | hge
        · exact hlt
        · rw [List.getElem?_append_right hge] at hn
          exact absurd (List.mem_of_getElem? hn) (by decide)
      have hle := h.opened n
      rw [List.cons_append, List.take_succ_cons, List.take_append_of_le_length (Nat.le_of_lt hlt)]
      simp only [List.count_cons]
      simp
      omega

/-! ### Statements -/

/-- Whether a text shows balanced brackets and `count` semicolons, whatever follows it. -/
def Statements (count : Nat) (text : String) : Prop :=
  ∃ seen, Shows text.toList seen ∧ Balanced seen ∧ seen.count ';' = count

theorem Statements.append {m n : Nat} {a b : String} (ha : Statements m a)
    (hb : Statements n b) : Statements (m + n) (a ++ b) := by
  obtain ⟨seen, hshows, hbalanced, rfl⟩ := ha
  obtain ⟨seen', hshows', hbalanced', rfl⟩ := hb
  refine ⟨seen ++ seen', ?_, hbalanced.append hbalanced', List.count_append⟩
  rw [String.toList_append]
  exact hshows.append hshows'

theorem Statements.brackets {n : Nat} {text : String} (h : Statements n text) :
    Statements n ("(" ++ text ++ ")") := by
  obtain ⟨seen, hshows, hbalanced, rfl⟩ := h
  refine ⟨'(' :: seen ++ [')'], ?_, hbalanced.brackets, by simp [List.count_append]⟩
  rw [String.toList_append, String.toList_append]
  exact ((shows_single (by decide) (by decide)).append hshows).append
    (shows_single (by decide) (by decide))

/-- Texts one after the other, each with as many semicolons. -/
theorem statements_unlines_flatMap {α : Type} {n : Nat} {f : α → List String} {l : List α}
    (h : ∀ x ∈ l, Statements n (Text.unlines (f x))) :
    Statements (l.length * n) (Text.unlines (l.flatMap f)) := by
  induction l with
  | nil =>
      rw [List.length_nil, Nat.zero_mul]
      exact ⟨[], fun _ => rfl, balanced_of_not_mem (by simp) (by simp), rfl⟩
  | cons x l ih =>
      obtain ⟨hx, hl⟩ := List.forall_mem_cons.mp h
      rw [List.flatMap_cons, Text.unlines_append, List.length_cons, Nat.succ_mul, Nat.add_comm]
      exact hx.append (ih hl)

theorem Statements.finish_eq {n : Nat} {text : String} (h : Statements n text) :
    finish text = .outside := by
  obtain ⟨seen, hshows, _, _⟩ := h
  rw [finish, hshows.scan_eq]

theorem Statements.balanced {n : Nat} {text : String} (h : Statements n text) :
    Balanced (shown text) := by
  obtain ⟨seen, hshows, hbalanced, _⟩ := h
  rwa [shown, hshows.scan_eq]

theorem Statements.count_eq {n : Nat} {text : String} (h : Statements n text) :
    (shown text).count ';' = n := by
  obtain ⟨seen, hshows, _, hcount⟩ := h
  rwa [shown, hshows.scan_eq]

/-! ### Parts of a line -/

/-- Whether a text is part of a line that shows balanced brackets, commas only between them and
no semicolon, whatever follows it. -/
def Fragment (text : String) : Prop :=
  '\n' ∉ text.toList ∧
    ∃ seen, Shows text.toList seen ∧ Balanced seen ∧ CommasInside seen ∧ ';' ∉ seen

theorem Fragment.append {a b : String} (ha : Fragment a) (hb : Fragment b) :
    Fragment (a ++ b) := by
  obtain ⟨hline, seen, hshows, hbalanced, hcommas, hsemicolon⟩ := ha
  obtain ⟨hline', seen', hshows', hbalanced', hcommas', hsemicolon'⟩ := hb
  rw [Fragment, String.toList_append]
  exact ⟨by simp [hline, hline'], seen ++ seen', hshows.append hshows',
    hbalanced.append hbalanced', hcommas.append hbalanced hcommas',
    by simp [hsemicolon, hsemicolon']⟩

theorem Fragment.statements {text : String} (h : Fragment text) : Statements 0 text := by
  obtain ⟨_, seen, hshows, hbalanced, _, hsemicolon⟩ := h
  exact ⟨seen, hshows, hbalanced, List.count_eq_zero_of_not_mem hsemicolon⟩

/-- Between brackets commas are harmless. -/
theorem Statements.fragment_brackets {text : String} (h : Statements 0 text)
    (hline : '\n' ∉ text.toList) : Fragment ("(" ++ text ++ ")") := by
  obtain ⟨seen, hshows, hbalanced, hcount⟩ := h
  have hsemicolon : ';' ∉ seen := List.count_eq_zero.mp hcount
  rw [Fragment, String.toList_append, String.toList_append]
  refine ⟨by simp [hline], '(' :: seen ++ [')'], ?_, hbalanced.brackets,
    commasInside_brackets hbalanced, by simp [hsemicolon]⟩
  exact ((shows_single (by decide) (by decide)).append hshows).append
    (shows_single (by decide) (by decide))

/-! ### Verbatim texts -/

/-- Characters that mean nothing to the scanner and separate nothing in a table. -/
def isQuiet (c : Char) : Bool :=
  !(['\'', '-', '(', ')', ',', ';', '\n'].contains c)

/-- Whether a text means nothing to the scanner. A hyphen needs another character after it, since
two of them start a comment. -/
def isVerbatim : List Char → Bool
  | [] => true
  | c :: rest => (if c = '-' then rest.head?.any (· ≠ '-') else isQuiet c) && isVerbatim rest

theorem isQuiet_of {p : Char → Bool} {c : Char}
    (hp : ['\'', '-', '(', ')', ',', ';', '\n'].any p = false) (hc : p c) : isQuiet c := by
  rw [isQuiet, Bool.not_eq_true', ← Bool.not_eq_true, List.contains_iff_mem]
  intro hmem
  exact absurd hc (List.any_eq_false.mp hp c hmem)

theorem isVerbatim_eq (c : Char) (rest : List Char) :
    isVerbatim (c :: rest) =
      ((if c = '-' then rest.head?.any (· ≠ '-') else isQuiet c) && isVerbatim rest) :=
  rfl

theorem isVerbatim_cons {c : Char} (hc : isQuiet c) (rest : List Char) :
    isVerbatim (c :: rest) = isVerbatim rest := by
  have hhyphen : c ≠ '-' := by
    rintro rfl
    exact absurd hc (by decide)
  rw [isVerbatim_eq, if_neg hhyphen, hc, Bool.true_and]

theorem isVerbatim_hyphen {c : Char} {rest : List Char} (hc : c ≠ '-')
    (h : isVerbatim (c :: rest)) : isVerbatim ('-' :: c :: rest) := by
  rw [isVerbatim_eq, if_pos rfl, h]
  simpa using hc

/-- A verbatim text starts with a quiet character or with a hyphen and something else. -/
theorem isVerbatim_cons_iff {c : Char} {rest : List Char} :
    isVerbatim (c :: rest) ↔
      (isQuiet c ∨ c = '-' ∧ ∃ next more, rest = next :: more ∧ next ≠ '-') ∧
        isVerbatim rest := by
  rw [isVerbatim_eq, Bool.and_eq_true]
  by_cases hc : c = '-'
  · have hquiet : isQuiet '-' = false := by decide
    subst hc
    cases rest <;> simp [hquiet]
  · simp [hc]

theorem isVerbatim_of_isQuiet {cs : List Char} (hcs : ∀ c ∈ cs, isQuiet c) : isVerbatim cs := by
  induction cs with
  | nil => rfl
  | cons c cs ih =>
      obtain ⟨hc, hcs⟩ := List.forall_mem_cons.mp hcs
      rw [isVerbatim_cons hc]
      exact ih hcs

theorem isVerbatim_append {a b : List Char} (ha : isVerbatim a) (hb : isVerbatim b) :
    isVerbatim (a ++ b) := by
  induction a with
  | nil => exact hb
  | cons c rest ih =>
      obtain ⟨hc, hrest⟩ := isVerbatim_cons_iff.mp ha
      rcases hc with hc | ⟨rfl, next, more, rfl, hnext⟩
      · exact (isVerbatim_cons hc _).trans (ih hrest)
      · exact isVerbatim_hyphen hnext (ih hrest)

theorem mem_of_isVerbatim {cs : List Char} (h : isVerbatim cs) {c : Char} (hc : c ∈ cs) :
    isQuiet c ∨ c = '-' := by
  induction cs with
  | nil => cases hc
  | cons d rest ih =>
      obtain ⟨hd, hrest⟩ := isVerbatim_cons_iff.mp h
      rcases List.mem_cons.mp hc with rfl | hc
      · exact hd.imp_right And.left
      · exact ih hrest hc

theorem not_mem_of_isVerbatim {cs : List Char} (h : isVerbatim cs) {c : Char}
    (hquiet : isQuiet c = false) (hhyphen : c ≠ '-') : c ∉ cs := by
  intro hc
  rcases mem_of_isVerbatim h hc with hc | hc
  · simp [hquiet] at hc
  · exact hhyphen hc

theorem shows_of_isVerbatim {cs : List Char} (h : isVerbatim cs) : Shows cs cs := by
  intro rest
  induction cs with
  | nil => rfl
  | cons c cs ih =>
      obtain ⟨hc, hcs⟩ := isVerbatim_cons_iff.mp h
      rcases hc with hc | ⟨rfl, next, more, rfl, hnext⟩
      · have hquote : c ≠ '\'' := by rintro rfl; exact absurd hc (by decide)
        have hhyphen : c ≠ '-' := by rintro rfl; exact absurd hc (by decide)
        rw [List.cons_append, scan_outside_cons hquote hhyphen, ih hcs]
        rfl
      · have hrest := ih hcs
        rw [List.cons_append] at hrest
        rw [List.cons_append, List.cons_append, scan_outside_hyphen hnext, hrest]
        rfl

theorem fragment_of_isVerbatim {text : String} (h : isVerbatim text.toList) : Fragment text :=
  ⟨not_mem_of_isVerbatim h (by decide) (by decide), text.toList, shows_of_isVerbatim h,
    balanced_of_not_mem (not_mem_of_isVerbatim h (by decide) (by decide))
      (not_mem_of_isVerbatim h (by decide) (by decide)),
    commasInside_of_not_mem (not_mem_of_isVerbatim h (by decide) (by decide)),
    not_mem_of_isVerbatim h (by decide) (by decide)⟩

/-! ### Flat texts -/

/-- Characters that the scanner shows and that are no brackets. -/
def isFlat (c : Char) : Bool :=
  !(['\'', '-', '(', ')'].contains c)

theorem isFlat_of_isQuiet {c : Char} (hc : isQuiet c) : isFlat c := by
  simp only [isQuiet, isFlat, Bool.not_eq_true', List.contains_eq_mem, decide_eq_false_iff_not,
    List.mem_cons, not_or] at hc ⊢
  simp [hc]

theorem shows_of_isFlat {cs : List Char} (h : ∀ c ∈ cs, isFlat c) : Shows cs cs := by
  induction cs with
  | nil => exact fun _ => rfl
  | cons c cs ih =>
      obtain ⟨hc, hcs⟩ := List.forall_mem_cons.mp h
      refine (shows_single ?_ ?_).append (ih hcs)
      · rintro rfl
        exact absurd hc (by decide)
      · rintro rfl
        exact absurd hc (by decide)

theorem statements_of_isFlat {n : Nat} {text : String} (h : text.toList.all isFlat)
    (hcount : text.toList.count ';' = n) : Statements n text := by
  have hflat : ∀ c ∈ text.toList, isFlat c := List.all_eq_true.mp h
  exact ⟨text.toList, shows_of_isFlat hflat,
    balanced_of_not_mem (fun hmem => absurd (hflat _ hmem) (by decide))
      (fun hmem => absurd (hflat _ hmem) (by decide)), hcount⟩

/-! ### Literals -/

/-- Between quotes any line is harmless, with its own quotes doubled. -/
theorem fragment_quoted {text : String} (hline : '\n' ∉ text.toList) : Fragment (quoted text) := by
  have htext : (quoted text).toList = '\'' ::
      (text.toList.flatMap fun c => if c = '\'' then ['\'', '\''] else [c]) ++ ['\''] := by
    simp [quoted, doubleQuotes, String.toList_append]
  refine ⟨?_, [], htext ▸ shows_doubled text.toList, balanced_of_not_mem (by simp) (by simp),
    commasInside_of_not_mem (by simp), by simp⟩
  rw [htext]
  simp only [List.cons_append, List.mem_cons, List.mem_append, List.mem_flatMap, not_or]
  refine ⟨by decide, ?_, by simp⟩
  rintro ⟨c, hc, hmem⟩
  split at hmem
  · simp at hmem
  · exact hline (List.mem_singleton.mp hmem ▸ hc)

/-- A text without quotes has none to double. -/
theorem quoted_eq {text : String} (h : '\'' ∉ text.toList) : quoted text = "'" ++ text ++ "'" := by
  have hdouble : (text.toList.flatMap fun c => if c = '\'' then ['\'', '\''] else [c]) =
      text.toList.flatMap fun c => [c] := by
    rw [List.flatMap_def, List.flatMap_def, List.map_congr_left]
    intro c hc
    rw [if_neg]
    rintro rfl
    exact h hc
  rw [quoted, doubleQuotes, hdouble, List.flatMap_singleton', String.ofList_toList]

end Blueprint.Output.Postgres
