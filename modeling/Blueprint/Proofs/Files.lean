import Blueprint.Output.Backend
import Blueprint.Proofs.Declared
import Blueprint.Proofs.Words
import Mathlib.Data.Prod.Lex
import Mathlib.Data.String.Basic

/-! # Generated files

Files are written one after the other, and of those with the same identifier the last one
stays. So there is a file for every schema or entity just when their identifiers differ: no
two schemas have the same name up to underscores, and no two entities the same name in such
schemas.
-/

namespace Blueprint.Output

/-! ### The order of identifiers -/

namespace FileId

variable {f g h : FileId}

theorem before_iff : f.before g ↔ toLex (f.dir, f.name) < toLex (g.dir, g.name) := by
  simp [before, Prod.Lex.toLex_lt_toLex]

theorem before_trans (hfg : f.before g) (hgh : g.before h) : f.before h :=
  before_iff.mpr ((before_iff.mp hfg).trans (before_iff.mp hgh))

theorem ne_of_before (hfg : f.before g) : f ≠ g := by
  rintro rfl
  exact lt_irrefl _ (before_iff.mp hfg)

theorem before_of_ne (hne : f ≠ g) (hnot : ¬ f.before g) : g.before f := by
  rw [before_iff] at hnot ⊢
  refine lt_of_le_of_ne (not_lt.mp hnot) fun heq => hne ?_
  obtain ⟨hdir, hname⟩ := Prod.mk.inj (toLex_inj.mp heq)
  cases f
  cases g
  exact congrArg₂ FileId.mk hdir.symm hname.symm

end FileId

namespace Files

variable {files : Files} {written : List (FileId × String)} {file : FileId × String} {id : FileId}
  {text : String}

/-! ### What stays of the files that are written -/

/-- Whether a file is written and no later one replaces it. -/
def Stays (written : List (FileId × String)) (file : FileId × String) : Prop :=
  ∃ before after, written = before ++ file :: after ∧ ∀ later ∈ after, later.1 ≠ file.1

/-- Whether the files are what stays of those that are written, in order. -/
structure Keeps (files : Files) (written : List (FileId × String)) : Prop where
  sorted : files.Pairwise fun file file' => file.1.before file'.1
  mem_iff : ∀ file, file ∈ files ↔ Stays written file

theorem stays_concat_iff {last : FileId × String} :
    Stays (written ++ [last]) file ↔ file = last ∨ Stays written file ∧ last.1 ≠ file.1 := by
  constructor
  · rintro ⟨before, after, hsplit, hafter⟩
    rcases List.eq_nil_or_concat' after with rfl | ⟨after, later, rfl⟩
    · exact Or.inl (List.append_inj_right' hsplit rfl |> List.singleton_inj.mp).symm
    · rw [← List.cons_append, ← List.append_assoc] at hsplit
      obtain ⟨rfl, hlast⟩ := List.append_inj' hsplit rfl
      obtain rfl := List.singleton_inj.mp hlast
      exact Or.inr ⟨⟨before, after, rfl, fun other hother => hafter other (by simp [hother])⟩,
        hafter last (by simp)⟩
  · rintro (rfl | ⟨⟨before, after, rfl, hafter⟩, hne⟩)
    · exact ⟨written, [], rfl, by simp⟩
    · refine ⟨before, after ++ [last], by simp, ?_⟩
      intro later hlater
      rcases List.mem_append.mp hlater with hlater | hlater
      · exact hafter later hlater
      · rwa [List.mem_singleton.mp hlater]

theorem mem_insert_iff (hfiles : files.Pairwise fun file file' => file.1.before file'.1) :
    file ∈ files.insert id text ↔ file = (id, text) ∨ file ∈ files ∧ id ≠ file.1 := by
  induction files with
  | nil => simp [insert]
  | cons first rest ih =>
      obtain ⟨other, content⟩ := first
      obtain ⟨hfirst, hrest⟩ := List.pairwise_cons.mp hfiles
      unfold insert
      split
      next heq =>
        subst heq
        have hother : ∀ file ∈ rest, id ≠ file.1 := fun file hmem =>
          FileId.ne_of_before (hfirst file hmem)
        grind
      next hne =>
        split
        next hbefore =>
          have hother : ∀ file ∈ rest, id ≠ file.1 := fun file hmem =>
            FileId.ne_of_before (FileId.before_trans hbefore (hfirst file hmem))
          grind
        next => grind

theorem sorted_insert (hfiles : files.Pairwise fun file file' => file.1.before file'.1) :
    (files.insert id text).Pairwise fun file file' => file.1.before file'.1 := by
  induction files with
  | nil => exact List.pairwise_singleton _ _
  | cons first rest ih =>
      obtain ⟨other, content⟩ := first
      obtain ⟨hfirst, hrest⟩ := List.pairwise_cons.mp hfiles
      unfold insert
      split
      next heq =>
        subst heq
        exact List.pairwise_cons.mpr ⟨hfirst, hrest⟩
      next hne =>
        split
        next hbefore =>
          refine List.pairwise_cons.mpr ⟨?_, hfiles⟩
          intro file hfile
          rcases List.mem_cons.mp hfile with rfl | hfile
          · exact hbefore
          · exact FileId.before_trans hbefore (hfirst file hfile)
        next hnot =>
          refine List.pairwise_cons.mpr ⟨?_, ih hrest⟩
          intro file hfile
          rcases (mem_insert_iff hrest).mp hfile with rfl | ⟨hfile, _⟩
          · exact FileId.before_of_ne hne hnot
          · exact hfirst file hfile

theorem keeps_ofList (written : List (FileId × String)) : (ofList written).Keeps written := by
  induction written using List.reverseRecOn with
  | nil =>
      refine ⟨.nil, fun file => ⟨fun hfile => absurd hfile List.not_mem_nil, ?_⟩⟩
      rintro ⟨before, after, hsplit, _⟩
      simp at hsplit
  | append_singleton written last ih =>
      have hlast : ofList (written ++ [last]) = (ofList written).insert last.1 last.2 := by
        simp [ofList, insertAll]
      rw [hlast]
      refine ⟨sorted_insert ih.sorted, fun file => ?_⟩
      rw [mem_insert_iff ih.sorted, stays_concat_iff, ih.mem_iff]

theorem Keeps.nodup (hfiles : files.Keeps written) : (files.map Prod.fst).Nodup :=
  List.pairwise_map.mpr (hfiles.sorted.imp FileId.ne_of_before)

/-- Nothing is lost just when all identifiers differ. -/
theorem Keeps.perm_iff (hfiles : files.Keeps written) :
    files.Perm written ↔ (written.map Prod.fst).Nodup := by
  constructor
  · intro hperm
    exact (hperm.map Prod.fst).nodup_iff.mp hfiles.nodup
  · intro hnodup
    refine (List.perm_ext_iff_of_nodup hfiles.nodup.of_map hnodup.of_map).mpr fun file => ?_
    rw [hfiles.mem_iff]
    constructor
    · rintro ⟨before, after, rfl, _⟩
      simp
    · intro hfile
      obtain ⟨before, after, rfl⟩ := List.append_of_mem hfile
      refine ⟨before, after, rfl, fun later hlater heq => ?_⟩
      rw [List.map_append, List.map_cons] at hnodup
      have hnot := (List.nodup_cons.mp (List.nodup_append.mp hnodup).2.1).1
      exact hnot (List.mem_map.mpr ⟨later, hlater, heq⟩)

end Files

/-! ### The files of a document -/

/-- What a list of computations returns, one by one. -/
theorem forall₂_of_mapM_ok {α β ε : Type} {f : α → Except ε β} {xs : List α} {ys : List β}
    (h : xs.mapM f = .ok ys) : List.Forall₂ (fun x y => f x = .ok y) xs ys := by
  induction xs generalizing ys with
  | nil =>
      cases h
      exact .nil
  | cons x xs ih =>
      rw [List.mapM_cons] at h
      cases hx : f x with
      | error e => rw [hx] at h; cases h
      | ok y =>
          cases hxs : xs.mapM f with
          | error e => rw [hx, hxs] at h; cases h
          | ok ys' =>
              rw [hx, hxs] at h
              cases h
              exact .cons hx (ih hxs)

/-- The files of all schemas, as they are written. -/
def Go.written (d : Document) : List (FileId × String) :=
  d.schemas.map fun s => (fileId s, Text.unlines (fileLines d d.relations s))

theorem Go.fileId_eq_iff {s s' : Schema} (hs : Name.IsSmall s.name) (hs' : Name.IsSmall s'.name) :
    fileId s = fileId s' ↔ Text.eraseChar '_' s.name = Text.eraseChar '_' s'.name := by
  rw [← packageName_of_isSmall hs, ← packageName_of_isSmall hs']
  constructor
  · intro h
    exact (FileId.mk.inj h).1
  · intro h
    simp only [fileId, h]

theorem Hurl.fileId_eq_iff {s s' : Schema} {e e' : Entity} (hs : Name.IsSmall s.name)
    (hs' : Name.IsSmall s'.name) :
    fileId s e = fileId s' e' ↔
      Text.eraseChar '_' s.name = Text.eraseChar '_' s'.name ∧ e.name = e'.name := by
  rw [← packageName_of_isSmall hs, ← packageName_of_isSmall hs']
  constructor
  · intro h
    obtain ⟨hdir, hname⟩ := FileId.mk.inj h
    refine ⟨hdir, String.toList_inj.mp ?_⟩
    have hlist := String.toList_inj.mpr hname
    rw [String.toList_append, String.toList_append] at hlist
    exact List.append_cancel_right hlist
  · rintro ⟨hdir, hname⟩
    simp only [fileId, hdir, hname]

theorem Hurl.fst_of_entityFile {d : Document} {s : Schema} {e : Entity} {file : FileId × String}
    (h : entityFile d s e = .ok file) : file.1 = fileId s e := by
  obtain ⟨members, _, rfl⟩ := exists_of_map_eq_ok h
  rfl

end Blueprint.Output

namespace Blueprint.Document

open Output

/-- Every line keeps the names of schemas small. -/
theorem keeps_smallNames : Cursor.Keeps fun d => ∀ name ∈ d.schemas.map Schema.name,
    Name.IsSmall name where
  schema d text hnames := by
    have hnew : (d.addSchema text).1.schemas.map Schema.name =
        d.schemas.map Schema.name ++ [Name.ofText text (d.schemaCount + 1)] := by
      simp only [addSchema, List.map_append, List.map_cons, List.map_nil, Handle.fresh]
    rw [hnew]
    intro name hname
    rcases List.mem_append.mp hname with hname | hname
    · exact hnames name hname
    · rw [List.mem_singleton.mp hname]
      exact Name.ofText_isSmall text (d.schemaCount + 1)
  entity d id text hnames := by
    have hsame : (d.placeEntity id (d.nextEntity text)).schemas.map Schema.name =
        d.schemas.map Schema.name := by
      simp only [placeEntity, modifySchema, List.map_map]
      apply List.map_congr_left
      intro s _
      simp only [Function.comp_apply]
      split <;> rfl
    rwa [hsame]
  attr d id line a hhandles _ _ hnames := by
    have hsame : (d.attached id a).schemas.map Schema.name = d.schemas.map Schema.name := by
      rw [hhandles.attached_eq]
      simp [appendMember, mapEntities, Function.comp_def]
    rwa [hsame]

theorem isSmall_of_read {maxDepth : Nat} {source : String} {d : Document}
    (hread : Document.read maxDepth source = .ok d) {s : Schema} (hs : s ∈ d.schemas) :
    Name.IsSmall s.name := by
  obtain ⟨c, _, hnames, rfl⟩ := exists_reading_of keeps_smallNames
    (fun _ hname => absurd hname List.not_mem_nil) hread
  apply hnames
  simpa [resolveReferences, mapMembers, mapEntities, Function.comp_def] using
    List.mem_map_of_mem (f := Schema.name) hs

/-- Of the files of schemas, and of those of entities, the last one of each identifier stays.
None is lost just when no two schemas have the same name up to underscores, and no two
entities the same name in schemas that have. -/
theorem read_files_perm_iff {maxDepth : Nat} {source : String} {d : Document}
    (hread : Document.read maxDepth source = .ok d) :
    ((Go.generate d).Keeps (Go.written d) ∧
      ((Go.generate d).Perm (Go.written d) ↔
        d.schemas.Pairwise fun s s' =>
          Text.eraseChar '_' s.name ≠ Text.eraseChar '_' s'.name)) ∧
    ∀ files, Hurl.generate d = .ok files →
      ∃ written, List.Forall₂ (fun p file => Hurl.entityFile d p.1 p.2 = .ok file)
          (Hurl.placedEntities d) written ∧
        files.Keeps written ∧
        (files.Perm written ↔
          (Hurl.placedEntities d).Pairwise fun p p' =>
            p.2.name = p'.2.name →
              Text.eraseChar '_' p.1.name ≠ Text.eraseChar '_' p'.1.name) := by
  constructor
  · have hkeeps : (Go.generate d).Keeps (Go.written d) := Files.keeps_ofList _
    refine ⟨hkeeps, hkeeps.perm_iff.trans ?_⟩
    rw [Go.written, List.map_map, List.Nodup, List.pairwise_map]
    refine List.Pairwise.iff_of_mem fun {s s'} hs hs' => ?_
    exact not_congr (Go.fileId_eq_iff (isSmall_of_read hread hs) (isSmall_of_read hread hs'))
  · intro files hfiles
    obtain ⟨written, hwritten, rfl⟩ := exists_of_map_eq_ok hfiles
    have hfile := forall₂_of_mapM_ok hwritten
    have hkeeps := Files.keeps_ofList written
    have hids : written.map Prod.fst =
        (Hurl.placedEntities d).map fun p => Hurl.fileId p.1 p.2 := by
      rw [← List.forall₂_eq_eq_eq, List.forall₂_map_left_iff, List.forall₂_map_right_iff]
      exact hfile.flip.imp fun _ _ h => Hurl.fst_of_entityFile h
    have hsmall : ∀ p ∈ Hurl.placedEntities d, Name.IsSmall p.1.name := by
      intro p hp
      obtain ⟨s, hs, hp⟩ := List.mem_flatMap.mp hp
      obtain ⟨e, _, rfl⟩ := List.mem_map.mp hp
      exact isSmall_of_read hread hs
    refine ⟨written, hfile, hkeeps, hkeeps.perm_iff.trans ?_⟩
    rw [hids, List.Nodup, List.pairwise_map]
    refine List.Pairwise.iff_of_mem fun {p p'} hp hp' => ?_
    rw [ne_eq, Hurl.fileId_eq_iff (hsmall p hp) (hsmall p' hp'), not_and']

/-- Two schemas whose names differ in an underscore, with an entity of the same name in each. -/
def twoPackages : String :=
  "# a b\n## x\n# ab\n## x\n"

/-- One file is left of two, for the schemas and for the entities. -/
theorem read_files_perm_iff_twoPackages :
    ∃ d files written, Document.read 5 twoPackages = .ok d ∧
      d.schemas.map Schema.name = ["a_b", "ab"] ∧ ¬ (Go.generate d).Perm (Go.written d) ∧
      Hurl.generate d = .ok files ∧
      List.Forall₂ (fun p file => Hurl.entityFile d p.1 p.2 = .ok file)
        (Hurl.placedEntities d) written ∧
      ¬ files.Perm written := by
  have hread : (Document.read 5 twoPackages).toOption.any fun d =>
      d.schemas.map Schema.name = ["a_b", "ab"] ∧
        (Hurl.placedEntities d).map (fun p => (p.1.name, p.2.name)) = [("a_b", "x"), ("ab", "x")] ∧
        (Hurl.generate d).toOption.isSome := by decide +kernel
  cases hd : Document.read 5 twoPackages with
  | error fault => simp [hd, Except.toOption] at hread
  | ok d =>
      rw [hd, Except.toOption, Option.any_some, decide_eq_true_eq] at hread
      obtain ⟨hnames, hplaced, hfiles⟩ := hread
      cases hgenerate : Hurl.generate d with
      | error fault => simp [hgenerate, Except.toOption] at hfiles
      | ok files =>
          obtain ⟨⟨_, hgo⟩, hhurl⟩ := read_files_perm_iff hd
          obtain ⟨written, hwritten, _, hperm⟩ := hhurl files hgenerate
          refine ⟨d, files, written, rfl, hnames, fun h => ?_, hgenerate, hwritten, fun h => ?_⟩
          · have hapart : (d.schemas.map Schema.name).Pairwise fun name name' =>
                Text.eraseChar '_' name ≠ Text.eraseChar '_' name' :=
              List.pairwise_map.mpr (hgo.mp h)
            rw [hnames] at hapart
            exact absurd hapart (by decide)
          · have hapart : ((Hurl.placedEntities d).map fun p => (p.1.name, p.2.name)).Pairwise
                fun n n' => n.2 = n'.2 → Text.eraseChar '_' n.1 ≠ Text.eraseChar '_' n'.1 :=
              List.pairwise_map.mpr (hperm.mp h)
            rw [hplaced] at hapart
            exact absurd hapart (by decide)

end Blueprint.Document
