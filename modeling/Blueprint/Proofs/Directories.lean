import Blueprint.Proofs.Files
import Blueprint.Proofs.Liveness

/-! # Files of several backends

Every backend has a directory of its own, and its files keep their order and stay apart when they
are put there. So backends cannot get in each other's way: the files of a compilation are those of
the backends that were asked for, in whatever order and however often they were named.
-/

namespace Blueprint.Output

namespace FileId

variable {f g : FileId} {parent : String}

/-! ### Files under a directory -/

/-- Whether the file is in a directory or in one below it. -/
def isUnder (parent : String) (f : FileId) : Bool :=
  f.dir = parent || (Text.stripStart? (parent ++ "/") f.dir).isSome

theorem isUnder_iff :
    f.isUnder parent ↔ f.dir = parent ∨ ∃ rest, f.dir = parent ++ "/" ++ rest := by
  simp [isUnder, Option.isSome_iff_exists, Text.stripStart?_eq_some_iff]

/-- The directory of a file that was put under another, by where it was before. -/
theorem dir_nest (hparent : parent ≠ "") (f : FileId) :
    (f.nest parent).dir = if f.dir = "" then parent else parent ++ "/" ++ f.dir := by
  have hne : parent.isEmpty = false := by simpa using hparent
  unfold nest
  rw [hne]
  by_cases hdir : f.dir = "" <;> simp [hdir]

@[simp] theorem name_nest (f : FileId) (parent : String) : (f.nest parent).name = f.name := by
  unfold nest
  split
  · rfl
  · split <;> rfl

theorem isUnder_nest (hparent : parent ≠ "") (f : FileId) : (f.nest parent).isUnder parent := by
  rw [isUnder_iff, dir_nest hparent]
  split
  · exact Or.inl rfl
  · exact Or.inr ⟨f.dir, rfl⟩

/-- What a directory without a slash holds is told by the first part of its path. -/
theorem takeWhile_dir (hparent : '/' ∉ parent.toList) (hf : f.isUnder parent) :
    f.dir.toList.takeWhile (· ≠ '/') = parent.toList := by
  have hall : ∀ c ∈ parent.toList, decide (c ≠ '/') = true := fun c hc =>
    decide_eq_true fun heq => hparent (heq ▸ hc)
  rcases isUnder_iff.mp hf with hdir | ⟨rest, hdir⟩
  · rw [hdir, List.takeWhile_eq_self_iff]
    exact hall
  · rw [hdir, String.toList_append, String.toList_append, List.append_assoc,
      List.takeWhile_append_of_pos hall]
    simp

theorem append_lt_append {s t : String} (hst : s < t) (parent : String) :
    parent ++ s < parent ++ t := by
  rw [String.lt_iff_toList_lt] at hst ⊢
  rw [String.toList_append, String.toList_append]
  exact List.append_left_lt hst

/-- Directories keep their order when they are put under another one. -/
theorem dir_nest_lt (hparent : parent ≠ "") (hfg : f.dir < g.dir) :
    (f.nest parent).dir < (g.nest parent).dir := by
  have hg : g.dir ≠ "" := by
    intro hempty
    rw [hempty, String.lt_iff_toList_lt] at hfg
    exact List.not_lt_nil _ hfg
  rw [dir_nest hparent, dir_nest hparent, if_neg hg]
  by_cases hf : f.dir = ""
  · rw [if_pos hf, String.lt_iff_toList_lt, String.toList_append, String.toList_append,
      List.append_assoc]
    nth_rewrite 1 [← List.append_nil parent.toList]
    exact List.append_left_lt (List.nil_lt_cons _ _)
  · rw [if_neg hf]
    exact append_lt_append hfg _

/-- Files keep their order when they are put under another directory. -/
theorem before_nest (hparent : parent ≠ "") (hfg : f.before g) :
    (f.nest parent).before (g.nest parent) := by
  simp only [before, Bool.or_eq_true, Bool.and_eq_true, decide_eq_true_eq] at hfg ⊢
  rcases hfg with hdir | ⟨hdir, hname⟩
  · exact Or.inl (dir_nest_lt hparent hdir)
  · right
    rw [dir_nest hparent, dir_nest hparent, hdir, name_nest, name_nest]
    exact ⟨rfl, hname⟩

end FileId

namespace Files

variable {files files' : Files} {more : List (FileId × String)} {file : FileId × String}
  {parent : String}

/-! ### Sets of files -/

/-- Ordered files are determined by which there are. -/
theorem eq_of_mem_iff (hfiles : files.Pairwise fun file file' => file.1.before file'.1)
    (hfiles' : files'.Pairwise fun file file' => file.1.before file'.1)
    (hmem : ∀ file, file ∈ files ↔ file ∈ files') : files = files' := by
  have hnodup : ∀ {files : Files}, (files.Pairwise fun file file' => file.1.before file'.1) →
      files.Nodup := fun hordered =>
    hordered.imp fun hbefore heq => FileId.ne_of_before hbefore (congrArg Prod.fst heq)
  have hperm : files.Perm files' :=
    (List.perm_ext_iff_of_nodup (hnodup hfiles) (hnodup hfiles')).mpr hmem
  refine hperm.eq_of_pairwise (fun file file' _ _ hbefore hafter => ?_) hfiles hfiles'
  exact absurd rfl (FileId.ne_of_before (FileId.before_trans hbefore hafter))

theorem sorted_insertAll (hfiles : files.Pairwise fun file file' => file.1.before file'.1)
    (more : List (FileId × String)) :
    (files.insertAll more).Pairwise fun file file' => file.1.before file'.1 := by
  induction more generalizing files with
  | nil => exact hfiles
  | cons file more ih => exact ih (sorted_insert hfiles)

/-- Files of different identifiers are all added, and replace nothing but files of the same
identifiers. -/
theorem mem_insertAll_iff (hfiles : files.Pairwise fun file file' => file.1.before file'.1)
    (hmore : (more.map Prod.fst).Nodup) :
    file ∈ files.insertAll more ↔ file ∈ more ∨ file ∈ files ∧ file.1 ∉ more.map Prod.fst := by
  induction more generalizing files with
  | nil => simp [insertAll]
  | cons added more ih =>
      rw [List.map_cons, List.nodup_cons] at hmore
      have hstep : files.insertAll (added :: more) =
          (files.insert added.1 added.2).insertAll more :=
        rfl
      rw [hstep, ih (sorted_insert hfiles) hmore.2, mem_insert_iff hfiles, List.mem_cons,
        List.map_cons, List.mem_cons, not_or]
      constructor
      · rintro (hlater | ⟨rfl | ⟨hold, hne⟩, hnot⟩)
        · exact Or.inl (Or.inr hlater)
        · exact Or.inl (Or.inl rfl)
        · exact Or.inr ⟨hold, hne.symm, hnot⟩
      · rintro ((rfl | hlater) | ⟨hold, hne, hnot⟩)
        · exact Or.inr ⟨Or.inl rfl, hmore.1⟩
        · exact Or.inl hlater
        · exact Or.inr ⟨Or.inr ⟨hold, Ne.symm hne⟩, hnot⟩

theorem sorted_nest (hparent : parent ≠ "")
    (hfiles : files.Pairwise fun file file' => file.1.before file'.1) :
    (files.nest parent).Pairwise fun file file' => file.1.before file'.1 :=
  List.pairwise_map.mpr (hfiles.imp (FileId.before_nest hparent))

theorem isUnder_of_mem_nest (hparent : parent ≠ "") (hfile : file ∈ files.nest parent) :
    file.1.isUnder parent := by
  obtain ⟨old, _, rfl⟩ := List.mem_map.mp hfile
  exact FileId.isUnder_nest hparent old.1

end Files

/-! ### Backends -/

namespace Backend

variable {d : Document} {b b' : Backend} {backends : List Backend} {files : Files}

theorem dir_ne_empty (b : Backend) : b.dir ≠ "" := by
  cases b <;> decide

/-- No file is under the directories of two backends. -/
theorem eq_of_isUnder {f : FileId} (hb : f.isUnder b.dir) (hb' : f.isUnder b'.dir) : b = b' := by
  have hslash : ∀ b : Backend, '/' ∉ b.dir.toList := by
    intro b
    cases b <;> decide
  have hsame : b.dir = b'.dir := String.toList_inj.mp
    ((FileId.takeWhile_dir (hslash b) hb).symm.trans (FileId.takeWhile_dir (hslash b') hb'))
  revert hsame
  cases b <;> cases b' <;> decide

theorem sorted_generate (h : b.generate d = .ok files) :
    files.Pairwise fun file file' => file.1.before file'.1 := by
  cases b with
  | go =>
      obtain rfl := Except.ok.inj h
      exact (Files.keeps_ofList _).sorted
  | postgres =>
      obtain rfl := Except.ok.inj h
      exact List.pairwise_singleton _ _
  | hurl =>
      obtain ⟨written, _, rfl⟩ := exists_of_map_eq_ok h
      exact (Files.keeps_ofList _).sorted

end Backend

/-- Whether the files are what the backends generate, each under its directory, in order. -/
structure Gathers (d : Document) (backends : List Backend) (files : Files) : Prop where
  sorted : files.Pairwise fun file file' => file.1.before file'.1
  mem_iff : ∀ file, file ∈ files ↔
    ∃ b ∈ backends, ∃ new, b.generate d = .ok new ∧ file ∈ new.nest b.dir

variable {d : Document} {backends : List Backend} {files : Files}

/-- One backend more adds its files to those of the others. -/
theorem Gathers.concat (h : Gathers d backends files) {b : Backend} {new : Files}
    (hnew : b.generate d = .ok new) :
    Gathers d (backends ++ [b]) (files.insertAll (new.nest b.dir)) := by
  have hnested := Files.sorted_nest b.dir_ne_empty (Backend.sorted_generate hnew)
  have hnodup : ((new.nest b.dir).map Prod.fst).Nodup :=
    List.pairwise_map.mpr (hnested.imp FileId.ne_of_before)
  refine ⟨Files.sorted_insertAll h.sorted _, fun file => ?_⟩
  rw [Files.mem_insertAll_iff h.sorted hnodup, h.mem_iff]
  constructor
  · rintro (hfile | ⟨⟨b', hb', old, hold, hfile⟩, _⟩)
    · exact ⟨b, by simp, new, hnew, hfile⟩
    · exact ⟨b', by simp [hb'], old, hold, hfile⟩
  · rintro ⟨b', hb', old, hold, hfile⟩
    by_cases hsame : b' = b
    · subst hsame
      obtain rfl := Except.ok.inj (hnew.symm.trans hold)
      exact Or.inl hfile
    · have hb' : b' ∈ backends := by simpa [hsame] using hb'
      refine Or.inr ⟨⟨b', hb', old, hold, hfile⟩, fun hmem => hsame ?_⟩
      obtain ⟨other, hother, hid⟩ := List.mem_map.mp hmem
      have hunder := Files.isUnder_of_mem_nest b.dir_ne_empty hother
      exact Backend.eq_of_isUnder (Files.isUnder_of_mem_nest b'.dir_ne_empty hfile) (hid ▸ hunder)

theorem generateAll_concat (d : Document) (backends : List Backend) (b : Backend) :
    generateAll d (backends ++ [b]) =
      generateAll d backends >>= fun files =>
        (b.generate d).map fun new => files.insertAll (new.nest b.dir) := by
  rw [generateAll, List.foldlM_append, ← generateAll]
  refine bind_congr fun files => ?_
  rw [List.foldlM_cons]
  cases b.generate d <;> rfl

/-- The backends give what they generate, unless one of them faults. -/
theorem generateAll_cases (d : Document) (backends : List Backend) :
    (∃ files, generateAll d backends = .ok files ∧ Gathers d backends files ∧
      ∀ b ∈ backends, ∃ new, b.generate d = .ok new) ∨
    generateAll d backends = .error .paddingTooWide ∧
      ∃ b ∈ backends, b.generate d = .error .paddingTooWide := by
  induction backends using List.reverseRecOn with
  | nil => exact Or.inl ⟨[], rfl, ⟨.nil, by simp⟩, by simp⟩
  | append_singleton backends b ih =>
      rw [generateAll_concat]
      rcases ih with ⟨files, hfiles, hgathers, hall⟩ | ⟨hfault, b', hb', herror⟩
      · rw [hfiles]
        cases hnew : b.generate d with
        | ok new =>
            refine Or.inl ⟨_, rfl, hgathers.concat hnew, fun b' hb' => ?_⟩
            rcases List.mem_append.mp hb' with hb' | hb'
            · exact hall b' hb'
            · exact ⟨new, List.mem_singleton.mp hb' ▸ hnew⟩
        | error fault =>
            obtain ⟨_, rfl, _⟩ := (Backend.generate_eq_error_iff b d fault).mp hnew
            exact Or.inr ⟨rfl, b, by simp, hnew⟩
      · rw [hfault]
        exact Or.inr ⟨rfl, b', by simp [hb'], herror⟩

theorem generateAll_eq_ok_iff :
    generateAll d backends = .ok files ↔
      Gathers d backends files ∧ ∀ b ∈ backends, ∃ new, b.generate d = .ok new := by
  rcases generateAll_cases d backends with ⟨found, hfound, hgathers, hall⟩ | ⟨hfault, b, hb, herror⟩
  · rw [hfound]
    constructor
    · intro heq
      exact Except.ok.inj heq ▸ ⟨hgathers, hall⟩
    · rintro ⟨hfiles, _⟩
      refine congrArg Except.ok (Files.eq_of_mem_iff hgathers.sorted hfiles.sorted fun file => ?_)
      rw [hgathers.mem_iff, hfiles.mem_iff]
  · rw [hfault]
    refine iff_of_false (fun heq => by cases heq) fun hboth => ?_
    obtain ⟨new, hnew⟩ := hboth.2 b hb
    rw [herror] at hnew
    cases hnew

theorem generateAll_congr {backends' : List Backend} (hsame : ∀ b, b ∈ backends ↔ b ∈ backends') :
    generateAll d backends = generateAll d backends' := by
  rcases generateAll_cases d backends' with
    ⟨files, hfiles, hgathers, hall⟩ | ⟨hfault, b, hb, herror⟩
  · rw [hfiles, generateAll_eq_ok_iff]
    simp only [hsame]
    exact ⟨⟨hgathers.sorted, by simpa only [hsame] using hgathers.mem_iff⟩, hall⟩
  · rw [hfault]
    refine ((generateAll_cases d backends).resolve_left ?_).1
    rintro ⟨_, _, _, hall⟩
    obtain ⟨new, hnew⟩ := hall b ((hsame b).mpr hb)
    rw [herror] at hnew
    cases hnew

/-- Whether files are those of the backends, each in the directory of one of them. -/
structure Separates (d : Document) (backends : List Backend) (files : Files) : Prop where
  sorted : files.Pairwise fun file file' => file.1.before file'.1
  under : ∀ b ∈ backends, ∃ new, b.generate d = .ok new ∧
    files.filter (fun file => file.1.isUnder b.dir) = new.nest b.dir
  backend : ∀ file ∈ files, ∃ b ∈ backends, ∀ b', file.1.isUnder b'.dir ↔ b' = b

theorem Gathers.separates (h : Gathers d backends files)
    (hall : ∀ b ∈ backends, ∃ new, b.generate d = .ok new) : Separates d backends files := by
  have hunder : ∀ {b : Backend} {new : Files} {file}, file ∈ new.nest b.dir →
      ∀ b', file.1.isUnder b'.dir ↔ b' = b := by
    intro b new file hfile b'
    have hb := Files.isUnder_of_mem_nest b.dir_ne_empty hfile
    exact ⟨fun hb' => Backend.eq_of_isUnder hb' hb, fun heq => heq ▸ hb⟩
  refine ⟨h.sorted, fun b hb => ?_, fun file hfile => ?_⟩
  · obtain ⟨new, hnew⟩ := hall b hb
    refine ⟨new, hnew, Files.eq_of_mem_iff (h.sorted.filter _)
      (Files.sorted_nest b.dir_ne_empty (Backend.sorted_generate hnew)) fun file => ?_⟩
    rw [List.mem_filter, h.mem_iff]
    constructor
    · rintro ⟨⟨b', _, old, hold, hfile⟩, hb⟩
      obtain rfl := (hunder hfile b).mp hb
      obtain rfl := Except.ok.inj (hnew.symm.trans hold)
      exact hfile
    · exact fun hfile => ⟨⟨b, hb, new, hnew, hfile⟩, (hunder hfile b).mpr rfl⟩
  · obtain ⟨b, hb, new, _, hfile⟩ := (h.mem_iff file).mp hfile
    exact ⟨b, hb, hunder hfile⟩

theorem compile_eq_ok_iff {maxDepth : Nat} {source : String} {c : Compilation} :
    compile maxDepth backends source = .ok c ↔
      Document.read maxDepth source = .ok c.document ∧
        generateAll c.document backends = .ok c.files := by
  unfold compile
  cases Document.read maxDepth source with
  | error fault => exact iff_of_false (fun h => by cases h) fun h => by cases h.1
  | ok d =>
      obtain ⟨document, files⟩ := c
      rw [ok_bind]
      cases hfiles : generateAll d backends with
      | error fault =>
          refine iff_of_false (fun h => by cases h) ?_
          rintro ⟨hread, hgenerate⟩
          obtain rfl := Except.ok.inj hread
          rw [hfiles] at hgenerate
          cases hgenerate
      | ok found =>
          constructor
          · intro h
            cases h
            exact ⟨rfl, hfiles⟩
          · rintro ⟨hread, hgenerate⟩
            obtain rfl := Except.ok.inj hread
            obtain rfl := Except.ok.inj (hfiles.symm.trans hgenerate)
            rfl

/-- Compiling does not depend on the order of the backends, nor on how often they are named. It
ends with files unless reading or one of the backends faults. Under the directory of each backend
are then the files that it generates, all of them and in their order, and no other file is there
than those of the backends. -/
theorem compile_separates {backends' : List Backend} (hsame : ∀ b, b ∈ backends ↔ b ∈ backends')
    (maxDepth : Nat) (source : String) :
    compile maxDepth backends source = compile maxDepth backends' source ∧
      ((∃ c, compile maxDepth backends source = .ok c) ↔
        ∃ d, Document.read maxDepth source = .ok d ∧
          ∀ b ∈ backends, ∃ new, b.generate d = .ok new) ∧
      ∀ c, compile maxDepth backends source = .ok c →
        Document.read maxDepth source = .ok c.document ∧
          Separates c.document backends c.files := by
  refine ⟨?_, ⟨?_, ?_⟩, fun c hc => ?_⟩
  · exact bind_congr fun d => by rw [generateAll_congr hsame]
  · rintro ⟨c, hc⟩
    obtain ⟨hread, hfiles⟩ := compile_eq_ok_iff.mp hc
    exact ⟨c.document, hread, (generateAll_eq_ok_iff.mp hfiles).2⟩
  · rintro ⟨d, hread, hall⟩
    rcases generateAll_cases d backends with ⟨files, hfiles, _⟩ | ⟨_, b, hb, herror⟩
    · exact ⟨⟨d, files⟩, compile_eq_ok_iff.mpr ⟨hread, hfiles⟩⟩
    · obtain ⟨new, hnew⟩ := hall b hb
      rw [herror] at hnew
      cases hnew
  · obtain ⟨hread, hfiles⟩ := compile_eq_ok_iff.mp hc
    obtain ⟨hgathers, hall⟩ := generateAll_eq_ok_iff.mp hfiles
    exact ⟨hread, hgathers.separates hall⟩

/-- Entities called like a directory of a backend and like the file of another. -/
def lookalikes : String :=
  "# hurl\n## golang\n- id as ++\n# tables\n## sql\n"

theorem compile_separates_lookalikes :
    compile 5 [.hurl, .postgres, .hurl, .go] lookalikes = compile 5 Backend.all lookalikes ∧
      ∃ c, compile 5 Backend.all lookalikes = .ok c ∧
        c.files.map (fun file => file.1.text) =
          ["golang/hurl/hurl.go", "golang/tables/tables.go", "hurl/hurl/golang.hurl",
            "hurl/tables/sql.hurl", "postgres/tables.sql"] ∧
        Separates c.document Backend.all c.files := by
  have hfiles : (compile 5 Backend.all lookalikes).toOption.any fun c =>
      c.files.map (fun file => file.1.text) =
        ["golang/hurl/hurl.go", "golang/tables/tables.go", "hurl/hurl/golang.hurl",
          "hurl/tables/sql.hurl", "postgres/tables.sql"] := by
    decide +kernel
  have hsame : ∀ b, b ∈ [.hurl, .postgres, .hurl, .go] ↔ b ∈ Backend.all := by
    intro b
    cases b <;> decide
  have hall : ∀ b, b ∈ Backend.all ↔ b ∈ Backend.all := fun _ => Iff.rfl
  refine ⟨(compile_separates hsame 5 lookalikes).1, ?_⟩
  cases hc : compile 5 Backend.all lookalikes with
  | error fault => simp [hc, Except.toOption] at hfiles
  | ok c =>
      rw [hc, Except.toOption, Option.any_some, decide_eq_true_eq] at hfiles
      exact ⟨c, rfl, hfiles, ((compile_separates hall 5 lookalikes).2.2 c hc).2⟩

end Blueprint.Output
