import Blueprint.Output.Grid
import Mathlib.Data.List.Forall2

/-! # Aligned rows

The widths of columns come from all rows, whatever their lengths, and each row takes from them
what it needs. A cell that another one follows has counted for its column, so it finds a width
there and fits into it. Hence the cells at one place start at the same display column in every
row that has one.
-/

namespace Blueprint.Output.Grid

/-! ### What a line should be -/

/-- The cells at a place that another cell of their row follows. -/
def followed (rows : List (List String)) (i : Nat) : List String :=
  (rows.filter fun row => i + 1 < row.length).filterMap fun row => row[i]?

/-- The width of the widest cell at a place, among those that another cell follows. -/
def columnWidth (width : String → Nat) (rows : List (List String)) (i : Nat) : Nat :=
  ((followed rows i).map width).foldr Nat.max 0

/-- The display column at which a place starts, where all places before it have the given widths
and a blank after them. -/
def start (widths : Nat → Nat) : Nat → Nat
  | 0 => 0
  | i + 1 => start widths i + (widths i + 1)

/-- A line that holds the cells in order, with as many blanks between them as given. -/
inductive Laid : List String → List Nat → String → Prop where
  | nil : Laid [] [] ""
  | last (cell : String) : Laid [cell] [] cell
  | cons {next : String} {rest : List String} {blanks : List Nat} {line : String} (cell : String)
      (n : Nat) (h : Laid (next :: rest) blanks line) :
      Laid (cell :: next :: rest) (n :: blanks) (cell ++ "".pushn ' ' n ++ line)

/-- The display width of the cells and blanks before a place. -/
def offset (width : String → Nat) : List String → List Nat → Nat → Nat
  | cell :: row, n :: blanks, i + 1 => width cell + n + offset width row blanks i
  | _, _, _ => 0

/-- A row with each cell but the last padded to its column, unless a cell has no column or does
not fit into it. -/
def line? (width : String → Nat) : List Nat → List String → Option String
  | _, [] => some ""
  | _, [cell] => some cell
  | [], _ :: _ :: _ => none
  | w :: ws, cell :: next :: rest =>
    if w < width cell then none
    else (line? width ws (next :: rest)).map fun line =>
      cell ++ "".pushn ' ' (w - width cell + gap) ++ line

variable {width : String → Nat} {rows : List (List String)} {row : List String} {i : Nat}

/-! ### Widths of columns -/

theorem length_widen (as bs : List Nat) :
    (widen as bs).length = Nat.max as.length bs.length := by
  fun_induction widen as bs with
  | case1 bs => simp
  | case2 as _ => simp
  | case3 a as b bs ih => simp [ih, Nat.succ_max_succ]

theorem getD_widen (as bs : List Nat) (i : Nat) :
    (widen as bs).getD i 0 = Nat.max (as.getD i 0) (bs.getD i 0) := by
  fun_induction widen as bs generalizing i with
  | case1 bs => simp
  | case2 as _ => simp
  | case3 a as b bs ih =>
      cases i with
      | zero => simp
      | succ i => simpa using ih i

theorem lt_length_foldl_widen {lists : List (List Nat)} {acc : List Nat} :
    i < (lists.foldl widen acc).length ↔ i < acc.length ∨ ∃ l ∈ lists, i < l.length := by
  induction lists generalizing acc with
  | nil => simp
  | cons l lists ih =>
      have hmax : i < Nat.max acc.length l.length ↔ i < acc.length ∨ i < l.length := by
        change i < max acc.length l.length ↔ _
        omega
      rw [List.foldl_cons, ih, length_widen, hmax, or_assoc]
      simp

theorem getD_foldl_widen (lists : List (List Nat)) (acc : List Nat) (i : Nat) :
    (lists.foldl widen acc).getD i 0 =
      Nat.max (acc.getD i 0) ((lists.filterMap fun l => l[i]?).foldr Nat.max 0) := by
  induction lists generalizing acc with
  | nil => simp
  | cons l lists ih =>
      have hassoc : ∀ a b c : Nat, (a.max b).max c = a.max (b.max c) := Nat.max_assoc
      rw [List.foldl_cons, ih, getD_widen, hassoc, List.filterMap_cons]
      cases hcell : l[i]? with
      | none => simp [List.getD_eq_getElem?_getD, hcell]
      | some w => simp [List.getD_eq_getElem?_getD, hcell]

/-- A row counts for the columns of its cells but the last. -/
theorem paddedWidths_getElem? (width : String → Nat) (row : List String) (i : Nat) :
    (paddedWidths width row)[i]? = if i + 1 < row.length then row[i]?.map width else none := by
  have hlast : i < row.length - 1 ↔ i + 1 < row.length := by omega
  rw [paddedWidths, List.getElem?_map, List.getElem?_dropLast]
  simp only [hlast]
  split <;> rfl

theorem map_width_followed (width : String → Nat) (rows : List (List String)) (i : Nat) :
    (followed rows i).map width = (rows.map (paddedWidths width)).filterMap fun l => l[i]? := by
  induction rows with
  | nil => rfl
  | cons row rows ih =>
      rw [List.map_cons, List.filterMap_cons, paddedWidths_getElem?, ← ih, followed, followed,
        List.filter_cons]
      by_cases hlast : i + 1 < row.length
      · simp [hlast, Nat.lt_of_succ_lt hlast]
      · simp [hlast]

theorem getD_widths (width : String → Nat) (rows : List (List String)) (i : Nat) :
    (widths width rows).getD i 0 = columnWidth width rows i := by
  rw [widths, getD_foldl_widen, columnWidth, map_width_followed]
  simp

/-- A cell that another one follows has a column and fits into it. -/
theorem exists_width (hrow : row ∈ rows) {cell : String} (hcell : row[i]? = some cell)
    (hnext : i + 1 < row.length) :
    (widths width rows)[i]? = some (columnWidth width rows i) ∧
      width cell ≤ columnWidth width rows i := by
  have hpadded : (paddedWidths width row)[i]? = some (width cell) := by
    rw [paddedWidths_getElem?, if_pos hnext, hcell, Option.map_some]
  have hcolumn : i < (widths width rows).length :=
    lt_length_foldl_widen.mpr (Or.inr ⟨_, List.mem_map_of_mem hrow,
      (List.getElem?_eq_some_iff.mp hpadded).1⟩)
  constructor
  · rw [← getD_widths, List.getD_eq_getElem?_getD, List.getElem?_eq_getElem hcolumn,
      Option.getD_some]
  · have hmem : width cell ∈ (followed rows i).map width := by
      rw [map_width_followed]
      exact List.mem_filterMap.mpr ⟨_, List.mem_map_of_mem hrow, hpadded⟩
    rw [columnWidth]
    generalize (followed rows i).map width = ws at hmem
    induction ws with
    | nil => cases hmem
    | cons w ws ih =>
        rcases List.mem_cons.mp hmem with hfirst | hmem
        · exact hfirst ▸ Nat.le_max_left _ _
        · exact Nat.le_trans (ih hmem) (Nat.le_max_right _ _)

/-! ### Lines -/

theorem start_succ (widths : Nat → Nat) (i : Nat) :
    start widths (i + 1) = widths 0 + 1 + start (fun j => widths (j + 1)) i := by
  induction i with
  | zero => simp [start]
  | succ i ih =>
      rw [start, ih, start]
      omega

/-- A row whose cells fit is written without a fault, and every cell of it stands at the start of
its column. -/
theorem laid_line (ws : List Nat) (row : List String)
    (hfits : ∀ i cell, row[i]? = some cell → i + 1 < row.length →
      ∃ w, ws[i]? = some w ∧ width cell ≤ w) :
    line? width ws row = some (line width ws row) ∧
      ∃ blanks, Laid row blanks (line width ws row) ∧ (∀ n ∈ blanks, 0 < n) ∧
        ∀ i < row.length, offset width row blanks i = start (fun j => ws.getD j 0) i := by
  fun_induction line? width ws row with
  | case1 ws => exact ⟨rfl, [], .nil, by simp, by simp⟩
  | case2 ws cell =>
      refine ⟨rfl, [], .last cell, by simp, fun i hi => ?_⟩
      obtain rfl : i = 0 := by simpa using hi
      rfl
  | case3 cell next rest =>
      obtain ⟨w, hw, _⟩ := hfits 0 cell rfl (by simp)
      simp at hw
  | case4 w ws cell next rest hwide =>
      obtain ⟨w', hw', hle⟩ := hfits 0 cell rfl (by simp)
      obtain rfl : w = w' := by simpa using hw'
      omega
  | case5 w ws cell next rest hwide ih =>
      have hrest : ∀ i cell', (next :: rest)[i]? = some cell' → i + 1 < (next :: rest).length →
          ∃ w, ws[i]? = some w ∧ width cell' ≤ w := fun i cell' hcell hnext =>
        hfits (i + 1) cell' (by simpa using hcell) (by simpa using hnext)
      obtain ⟨hline, blanks, hlaid, hpositive, hoffset⟩ := ih hrest
      refine ⟨by rw [hline]; rfl, _, .cons cell (w - width cell + gap) hlaid, ?_, ?_⟩
      · simpa [gap] using hpositive
      · intro i hi
        cases i with
        | zero => rfl
        | succ i =>
            rw [offset, hoffset i (by simpa using hi), start_succ]
            simp only [List.getD_cons_zero, List.getD_cons_succ, gap]
            omega

/-- Whether a line is an aligned row: it is written without a fault, it holds the cells of the row
with blanks between them, and each cell starts where its place does. -/
structure Aligned (width : String → Nat) (rows : List (List String)) (row : List String)
    (line : String) (blanks : List Nat) : Prop where
  checked : line? width (widths width rows) row = some line
  laid : Laid row blanks line
  apart : ∀ n ∈ blanks, 0 < n
  starts : ∀ i < row.length, offset width row blanks i = start (columnWidth width rows) i

theorem exists_aligned (hrow : row ∈ rows) :
    ∃ blanks, Aligned width rows row (line width (widths width rows) row) blanks := by
  have hwidths : (fun i => (widths width rows).getD i 0) = columnWidth width rows :=
    funext (getD_widths width rows)
  obtain ⟨hchecked, blanks, hlaid, hapart, hstarts⟩ :=
    laid_line (widths width rows) row fun i cell hcell hnext => ⟨_, exists_width hrow hcell hnext⟩
  exact ⟨blanks, hchecked, hlaid, hapart, hwidths ▸ hstarts⟩

/-- Whatever the lengths of the rows and the widths of their cells, every row becomes one line.
Every cell that is padded has a column and fits into it. The line holds the cells in order, with at
least one blank between two of them and nothing after the last. Each cell starts where the widest
cells before its place end, each with a blank after it, so at the same display column as all others
at its place. -/
theorem render_aligned (width : String → Nat) (rows : List (List String)) :
    List.Forall₂ (fun row line => ∃ blanks, Aligned width rows row line blanks) rows
      (render width rows) := by
  rw [render, List.forall₂_map_right_iff, List.forall₂_same]
  exact fun row hrow => exists_aligned hrow

example : render String.length [["a", "bcd", "e"], ["fgh", "i"], ["jklmnop"], ["q", "r", "s"]] =
    ["a   bcd e", "fgh i", "jklmnop", "q   r   s"] := by
  decide

end Blueprint.Output.Grid
