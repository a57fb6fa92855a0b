import Mathlib.Data.List.Induction

/-!
# Page — writing on a page without end, seen through a window

A page has rows of a fixed width, and as many of them as are needed.  Of these a window shows as many
as its height; it follows the cursor down, and never goes back up.

* `written_foldl` — what is on the page after a text has been written;
* `rows_concat` — how the rows of a text grow.
-/

namespace WhitexKernel
namespace Lib

universe u

structure Page (α : Type u) where
  cells : Nat → Nat → α
  row : Nat
  column : Nat
  /-- The first row in the window. -/
  top : Nat

namespace Page

variable {α : Type u} (width height : Nat)

/-! ## Writing -/

def fresh (blank : α) : Page α := { cells := fun _ _ => blank, row := 0, column := 0, top := 0 }

/-- The cell at the cursor. -/
def mark (p : Page α) (x : α) : Page α :=
  { p with cells := fun i j => if i = p.row ∧ j = p.column then x else p.cells i j }

/-- The next row, to which the window is moved if it is below. -/
def newline (p : Page α) : Page α :=
  { p with row := p.row + 1, column := 0, top := max p.top (p.row + 2 - height) }

def put (p : Page α) (x : α) : Page α :=
  if p.column + 1 = width then (p.mark x).newline height
  else { p.mark x with column := p.column + 1 }

/-- The cell before the cursor is blanked, unless it is above the window. -/
def back (blank : α) (p : Page α) : Page α :=
  (if p.column > 0 then { p with column := p.column - 1 }
    else if p.row > p.top then { p with row := p.row - 1, column := width - 1 }
    else p).mark blank

/-- A cell of a text, or the end of a line. -/
def type (p : Page α) : Option α → Page α
  | none => p.newline height
  | some x => p.put width height x

/-! ## The rows of a text -/

/-- The lines of a text. -/
def lines : List (Option α) → List (List α)
  | [] => [[]]
  | none :: text => [] :: lines text
  | some x :: text => (lines text).modifyHead (x :: ·)

/-- The rows of a line: those that are full, and one for the rest, which may be empty. -/
def lineRows (l : List α) : List (List α) :=
  (List.range (l.length / width + 1)).map fun k => (l.drop (k * width)).take width

def rows (text : List (Option α)) : List (List α) := (lines text).flatMap (lineRows width)

/-- What comes behind a text goes behind its last line. -/
theorem lines_concat (text : List (Option α)) :
    ∃ above last, lines text = above ++ [last] ∧ lines (text ++ [none]) = above ++ [last, []] ∧
      ∀ x, lines (text ++ [some x]) = above ++ [last ++ [x]] := by
  induction text with
  | nil => exact ⟨[], [], rfl, rfl, fun _ => rfl⟩
  | cons item text ih =>
      obtain ⟨above, last, htext, hline, hcell⟩ := ih
      cases item with
      | none =>
          refine ⟨[] :: above, last, ?_, ?_, fun x => ?_⟩
          · rw [lines, htext]
            rfl
          · rw [List.cons_append, lines, hline]
            rfl
          · rw [List.cons_append, lines, hcell]
            rfl
      | some y =>
          cases above with
          | nil =>
              refine ⟨[], y :: last, ?_, ?_, fun x => ?_⟩
              · rw [lines, htext]
                rfl
              · rw [List.cons_append, lines, hline]
                rfl
              · rw [List.cons_append, lines, hcell]
                rfl
          | cons first above =>
              refine ⟨(y :: first) :: above, last, ?_, ?_, fun x => ?_⟩
              · rw [lines, htext]
                rfl
              · rw [List.cons_append, lines, hline]
                rfl
              · rw [List.cons_append, lines, hcell]
                rfl

variable {width height}

/-- The full rows of a line, and the rest. -/
theorem lineRows_eq (hwidth : 0 < width) (l : List α) :
    lineRows width l = ((List.range (l.length / width)).map fun k => (l.drop (k * width)).take width) ++
      [l.drop (l.length / width * width)] := by
  have hrest : (l.drop (l.length / width * width)).length ≤ width := by
    have hmod := Nat.mod_lt l.length hwidth
    have hdiv := Nat.div_add_mod' l.length width
    rw [List.length_drop]
    omega
  unfold lineRows
  rw [List.range_succ, List.map_append, List.map_singleton, List.take_of_length_le hrest]

/-- A line of one more cell has it in its last row, and a new row where that is full. -/
theorem lineRows_concat (hwidth : 0 < width) (l : List α) :
    ∃ above last, lineRows width l = above ++ [last] ∧ last.length < width ∧
      ∀ x, lineRows width (l ++ [x]) =
        above ++ if last.length + 1 = width then [last ++ [x], []] else [last ++ [x]] := by
  have hmod := Nat.mod_lt l.length hwidth
  have hdiv := Nat.div_add_mod' l.length width
  have hlength : (l.drop (l.length / width * width)).length = l.length % width := by
    rw [List.length_drop]
    omega
  refine ⟨_, _, lineRows_eq hwidth l, by rw [hlength]; exact hmod, fun x => ?_⟩
  have hfull : ∀ k < l.length / width,
      ((l ++ [x]).drop (k * width)).take width = (l.drop (k * width)).take width := by
    intro k hk
    have hend : (k + 1) * width ≤ l.length / width * width := Nat.mul_le_mul_right width hk
    rw [Nat.succ_mul] at hend
    rw [List.drop_append_of_le_length (by omega), List.take_append_of_le_length]
    rw [List.length_drop]
    omega
  have habove : ((List.range (l.length / width)).map fun k =>
      ((l ++ [x]).drop (k * width)).take width) =
      (List.range (l.length / width)).map fun k => (l.drop (k * width)).take width :=
    List.map_congr_left fun k hk => hfull k (List.mem_range.1 hk)
  have hrest : (l ++ [x]).drop (l.length / width * width) =
      l.drop (l.length / width * width) ++ [x] := List.drop_append_of_le_length (by omega)
  rw [hlength, lineRows_eq hwidth, List.length_append, List.length_singleton]
  split
  case isTrue hedge =>
    have hnext : (l.length + 1) / width = l.length / width + 1 := by
      rw [show l.length + 1 = (l.length / width + 1) * width by rw [Nat.succ_mul]; omega]
      exact Nat.mul_div_cancel _ hwidth
    have hend : (l ++ [x]).drop ((l.length / width + 1) * width) = [] := by
      refine List.drop_of_length_le ?_
      rw [List.length_append, List.length_singleton, Nat.succ_mul]
      omega
    have hlast : (l.drop (l.length / width * width) ++ [x]).take width =
        l.drop (l.length / width * width) ++ [x] := by
      refine List.take_of_length_le ?_
      rw [List.length_append, hlength, List.length_singleton]
      omega
    rw [hnext, List.range_succ, List.map_append, habove, List.map_singleton, hend, hrest, hlast,
      List.append_assoc]
    rfl
  case isFalse hinner =>
    have hsame : (l.length + 1) / width = l.length / width := by
      refine Nat.div_eq_of_lt_le ?_ ?_
      · omega
      · rw [Nat.succ_mul]
        omega
    rw [hsame, habove, hrest]

/-- What comes behind a text goes into its last row, or below it. -/
theorem rows_concat (hwidth : 0 < width) (text : List (Option α)) :
    ∃ above last, rows width text = above ++ [last] ∧ last.length < width ∧
      rows width (text ++ [none]) = above ++ [last, []] ∧
      ∀ x, rows width (text ++ [some x]) =
        above ++ if last.length + 1 = width then [last ++ [x], []] else [last ++ [x]] := by
  obtain ⟨before, line, htext, hend, hcell⟩ := lines_concat text
  obtain ⟨above, last, hline, hroom, hgrown⟩ := lineRows_concat hwidth line
  refine ⟨before.flatMap (lineRows width) ++ above, last, ?_, hroom, ?_, fun x => ?_⟩
  · unfold rows
    rw [htext, List.flatMap_append, List.flatMap_singleton, hline, List.append_assoc]
  · have hempty : lineRows width ([] : List α) = [[]] := by simp [lineRows]
    unfold rows
    rw [hend, List.flatMap_append, List.flatMap_cons, List.flatMap_singleton, hline, hempty]
    simp
  · unfold rows
    rw [hcell, List.flatMap_append, List.flatMap_singleton, hgrown, List.append_assoc]

/-! ## What is on the page -/

/-- The rows are on the page, blank where they end, and the cursor is behind the last one. -/
structure Written (width height : Nat) (blank : α) (p : Page α) (rs : List (List α)) : Prop where
  cells : ∀ i j, p.cells i j = ((rs[i]?.getD [])[j]?).getD blank
  row : p.row + 1 = rs.length
  column : p.column = (rs.getLast?.getD []).length
  top : p.top = rs.length - height

variable {blank : α} {p : Page α} {above : List (List α)} {last : List α}

theorem Written.place (h : Written width height blank p (above ++ [last])) :
    p.row = above.length ∧ p.column = last.length := by
  have hrow := h.row
  have hcolumn := h.column
  rw [List.length_append, List.length_singleton] at hrow
  rw [List.getLast?_concat, Option.getD_some] at hcolumn
  exact ⟨by omega, hcolumn⟩

/-- The cells after a mark behind the last row. -/
theorem Written.mark_cells (h : Written width height blank p (above ++ [last])) (x : α) (i j : Nat) :
    (p.mark x).cells i j = (((above ++ [last ++ [x]])[i]?.getD [])[j]?).getD blank := by
  obtain ⟨hrow, hcolumn⟩ := h.place
  have hcells := h.cells i j
  unfold mark
  simp only [hrow, hcolumn, hcells]
  rcases Nat.lt_trichotomy i above.length with hlt | rfl | hgt
  · rw [if_neg (by omega), List.getElem?_append_left hlt, List.getElem?_append_left hlt]
  · rw [List.getElem?_concat_length, List.getElem?_concat_length, Option.getD_some, Option.getD_some]
    by_cases hj : j = last.length
    · rw [if_pos ⟨rfl, hj⟩, hj, List.getElem?_concat_length, Option.getD_some]
    · rw [if_neg fun hcell => hj hcell.2]
      rcases Nat.lt_or_gt_of_ne hj with hbefore | hbehind
      · rw [List.getElem?_append_left hbefore]
      · rw [List.getElem?_eq_none (by omega), List.getElem?_eq_none (by simp; omega)]
  · have hbelow : ∀ l : List α, (above ++ [l]).length ≤ i := by
      intro l
      rw [List.length_append, List.length_singleton]
      exact hgt
    rw [if_neg (by omega), List.getElem?_eq_none (hbelow _), List.getElem?_eq_none (hbelow _)]

/-- An empty row below is no other than none. -/
theorem getD_below (rs : List (List α)) (i j : Nat) (blank : α) :
    ((((rs ++ [[]])[i]?).getD [])[j]?).getD blank = ((rs[i]?.getD [])[j]?).getD blank := by
  rcases Nat.lt_trichotomy i rs.length with hlt | rfl | hgt
  · rw [List.getElem?_append_left hlt]
  · rw [List.getElem?_concat_length, List.getElem?_eq_none (Nat.le_refl _)]
    rfl
  · have hbelow : (rs ++ [[]]).length ≤ i := by
      rw [List.length_append, List.length_singleton]
      exact hgt
    rw [List.getElem?_eq_none hbelow, List.getElem?_eq_none (Nat.le_of_lt hgt)]

theorem Written.type (hwidth : 0 < width) {text : List (Option α)}
    (h : Written width height blank p (rows width text)) (item : Option α) :
    Written width height blank (p.type width height item) (rows width (text ++ [item])) := by
  obtain ⟨above, last, hrows, hroom, hline, hcell⟩ := rows_concat hwidth text
  rw [hrows] at h
  obtain ⟨hrow, hcolumn⟩ := h.place
  have htop := h.top
  rw [List.length_append, List.length_singleton] at htop
  cases item with
  | none =>
      have hsplit : above ++ [last, []] = above ++ [last] ++ [[]] := by simp
      rw [hline]
      refine { cells := fun i j => ?_, row := ?_, column := ?_, top := ?_ }
      · rw [hsplit, getD_below]
        exact h.cells i j
      · simp [Page.type, newline, hrow]
      · simp [Page.type, newline]
      · simp only [Page.type, newline, List.length_append, List.length_cons, List.length_nil]
        omega
  | some x =>
      rw [hcell]
      unfold Page.type put
      simp only [hcolumn]
      split
      case isTrue hedge =>
        have hsplit : above ++ [last ++ [x], []] = above ++ [last ++ [x]] ++ [[]] := by simp
        refine { cells := fun i j => ?_, row := ?_, column := ?_, top := ?_ }
        · rw [hsplit, getD_below]
          exact h.mark_cells x i j
        · simp [newline, mark, hrow]
        · simp [newline]
        · simp only [newline, mark, List.length_append, List.length_cons, List.length_nil]
          omega
      case isFalse hinner =>
        refine { cells := fun i j => h.mark_cells x i j, row := ?_, column := ?_, top := ?_ }
        · simp [mark, hrow]
        · simp
        · simp only [mark, List.length_append, List.length_singleton]
          exact htop

/-- A text on a fresh page. -/
theorem written_foldl (hwidth : 0 < width) (hheight : 0 < height) (blank : α)
    (text : List (Option α)) :
    Written width height blank (text.foldl (Page.type width height) (fresh blank))
      (rows width text) := by
  induction text using List.reverseRecOn with
  | nil =>
      have hempty : rows width ([] : List (Option α)) = [[]] := by simp [rows, lines, lineRows]
      rw [hempty]
      refine { cells := fun i j => ?_, row := rfl, column := rfl, top := ?_ }
      · cases i with
        | zero => rfl
        | succ i => rfl
      · change 0 = 1 - height
        omega
  | append_singleton text item ih =>
      rw [List.foldl_append]
      exact ih.type hwidth item

end Page

end Lib
end WhitexKernel
