import WhitexKernel.Lib.Page
import WhitexKernel.Shell.Screen

/-!
# Output — what is printed, and what of it is on the screen (`vga.h`, `cls.h`)

The screen is a window on a page without end: scrolling moves the window, and the cursor is where the
next character of the page goes.

* `shownBy_run` — for any sequence of characters, backspaces and `cls`;
* `print_cls` — a text that is printed on a cleared screen: its last 25 rows are there.
-/

namespace WhitexKernel
namespace Shell

open Lib

def vgaBlack : UInt8 := 0

namespace VgaState

/-- `init`, which sets the colour before it clears the cells. -/
def init (v : VgaState) : VgaState :=
  (List.range vgaHeight).foldl
    (fun v y => (List.range vgaWidth).foldl
      (fun v x => v.store (y * vgaWidth + x) (vgaEntry ' ' v.terminalColor)) v)
    { v with
      terminalRow := 0
      terminalColumn := 0
      terminalColor := vgaEntryColor vgaWhite vgaBlack }

def cls (v : VgaState) : VgaState := v.init

def print (v : VgaState) (data : List Char) : VgaState := data.foldl putchar v

/-! ## The page behind the screen -/

/-- A cell that nothing is printed in. -/
def blankCell : UInt16 := vgaEntry ' ' (vgaEntryColor vgaWhite vgaBlack)

/-- What a character puts into a cell, and none for the end of a line. -/
def glyph (c : Char) : Option UInt16 := if c = '\n' then none else some (vgaEntry c highlightColor)

/-- The screen shows the rows of the page from `top` on. -/
structure ShownBy (v : VgaState) (p : Page UInt16) : Prop where
  row : v.terminalRow + p.top = p.row
  rowInside : v.terminalRow < vgaHeight
  column : v.terminalColumn = p.column
  columnInside : v.terminalColumn < vgaWidth
  color : v.terminalColor = vgaEntryColor vgaWhite vgaBlack
  cells : ∀ i < vgaHeight, ∀ j < vgaWidth, v.vgaBuffer (i * vgaWidth + j) = p.cells (p.top + i) j
  /-- Below the screen the page is empty. -/
  below : ∀ i j, p.top + vgaHeight ≤ i → p.cells i j = blankCell

theorem init_eq (v : VgaState) :
    v.init = VgaState.clearFrom
      { v with
        terminalRow := 0
        terminalColumn := 0
        terminalColor := vgaEntryColor vgaWhite vgaBlack } 0 2000 := by
  unfold init clearFrom
  rw [Bytes.foldl_rows (fun (v : VgaState) i => v.store i (vgaEntry ' ' v.terminalColor)) _ vgaHeight
    vgaWidth]
  simp only [Nat.zero_add, show vgaHeight * vgaWidth = 2000 from rfl]

theorem shownBy_init (v : VgaState) : ShownBy v.init (Page.fresh blankCell) := by
  rw [init_eq, clearFrom_eq]
  refine
    { row := rfl
      rowInside := Nat.zero_lt_succ 24
      column := rfl
      columnInside := Nat.zero_lt_succ 79
      color := rfl
      cells := fun i hi j hj => ?_
      below := fun i j _ => rfl }
  have hindex : 0 ≤ i * vgaWidth + j ∧ i * vgaWidth + j < 0 + 2000 := by
    unfold vgaHeight at hi
    unfold vgaWidth at hj ⊢
    omega
  simp only [if_pos hindex]
  rfl

/-- The last row after scrolling. -/
theorem scroll_last (v : VgaState) : v.scroll.terminalColor = v.terminalColor ∧
    ∀ i, 1920 ≤ i → i < 2000 → v.scroll.vgaBuffer i = vgaEntry ' ' v.terminalColor := by
  rw [scroll_eq, clearFrom_eq, copyDown_eq]
  refine ⟨rfl, fun i hle hlt => ?_⟩
  have hin : 1920 ≤ i ∧ i < 1920 + vgaWidth := ⟨hle, hlt⟩
  simp only [if_pos hin]

/-- The cursor goes to the start of the next row. -/
def nextRow (v : VgaState) : VgaState :=
  if v.terminalRow + 1 ≥ vgaHeight then
    VgaState.scroll { v with terminalColumn := 0, terminalRow := v.terminalRow + 1 }
  else { v with terminalColumn := 0, terminalRow := v.terminalRow + 1 }

variable {v : VgaState} {p : Page UInt16}

theorem putchar_newline (v : VgaState) : v.putchar '\n' = v.nextRow := by
  unfold putchar nextRow
  rw [if_pos rfl]

theorem putchar_edge {c : Char} (hc : c ≠ '\n') (hedge : v.terminalColumn + 1 = vgaWidth) :
    v.putchar c = (v.store v.cursor (vgaEntry c highlightColor)).nextRow := by
  unfold putchar nextRow advance store
  rw [if_neg hc]
  simp only [if_pos hedge]

theorem putchar_inner {c : Char} (hc : c ≠ '\n') (hinner : v.terminalColumn + 1 ≠ vgaWidth)
    (hrow : v.terminalRow < vgaHeight) :
    v.putchar c = { v.store v.cursor (vgaEntry c highlightColor) with
      terminalColumn := v.terminalColumn + 1 } := by
  unfold putchar advance store
  rw [if_neg hc]
  simp only [if_neg hinner]
  rw [if_neg (Nat.not_le_of_lt hrow)]

namespace ShownBy

theorem store (h : ShownBy v p) (cell : UInt16) :
    ShownBy (v.store v.cursor cell) (p.mark cell) := by
  have hrow := h.row
  have hcolumn := h.column
  have hinside := h.rowInside
  refine
    { row := h.row
      rowInside := h.rowInside
      column := h.column
      columnInside := h.columnInside
      color := h.color
      cells := fun i hi j hj => ?_
      below := fun i j hi => ?_ }
  · have hcell := h.cells i hi j hj
    have hplace : i * vgaWidth + j = v.cursor ↔ p.top + i = p.row ∧ j = p.column := by
      have hcolumnInside := h.columnInside
      unfold cursor
      unfold vgaWidth at *
      omega
    unfold VgaState.store Page.mark
    simp only [Function.update_apply, hplace, hcell]
  · unfold Page.mark
    have hout : ¬(i = p.row ∧ j = p.column) := by
      unfold Page.mark at hi
      simp only at hi
      omega
    simp only [if_neg hout]
    exact h.below i j hi

theorem nextRow (h : ShownBy v p) : ShownBy v.nextRow (p.newline vgaHeight) := by
  have hrow := h.row
  have hinside := h.rowInside
  unfold VgaState.nextRow Page.newline
  split
  case isTrue hbottom =>
    have htop : max p.top (p.row + 2 - vgaHeight) = p.top + 1 := by omega
    obtain ⟨hlast, hkept, hrows, _⟩ :=
      scroll_spec { v with terminalColumn := 0, terminalRow := v.terminalRow + 1 }
    obtain ⟨hcolor, hblank⟩ :=
      scroll_last { v with terminalColumn := 0, terminalRow := v.terminalRow + 1 }
    simp only [htop]
    refine
      { row := ?_
        rowInside := by rw [hlast]; decide
        column := hkept
        columnInside := by rw [hkept]; exact Nat.zero_lt_succ 79
        color := hcolor.trans h.color
        cells := fun i hi j hj => ?_
        below := fun i j hi => h.below i j (by simp only at hi; omega) }
    · rw [hlast]
      simp only
      unfold vgaHeight at hinside hbottom
      omega
    · simp only
      unfold vgaHeight at hi
      unfold vgaWidth at hj ⊢
      by_cases hupper : i < 24
      · have hcell := h.cells (i + 1) (by unfold vgaHeight; omega) j hj
        have hmoved := hrows (i * 80 + j) (by omega)
        have hindex : i * 80 + j + vgaWidth = (i + 1) * vgaWidth + j := by
          unfold vgaWidth
          omega
        have hrowIndex : p.top + 1 + i = p.top + (i + 1) := by omega
        rw [hmoved, hrowIndex, ← hcell, hindex]
      · have hlastRow := hblank (i * 80 + j) (by omega) (by omega)
        have hempty := h.below (p.top + 1 + i) j (by unfold vgaHeight; omega)
        rw [hlastRow, hempty]
        simp only [h.color]
        rfl
  case isFalse hroom =>
    have htop : max p.top (p.row + 2 - vgaHeight) = p.top := by omega
    simp only [htop]
    exact
      { row := by simp only; omega
        rowInside := Nat.lt_of_not_le hroom
        column := rfl
        columnInside := Nat.zero_lt_succ 79
        color := h.color
        cells := h.cells
        below := h.below }

theorem putchar (h : ShownBy v p) (c : Char) :
    ShownBy (v.putchar c) (p.type vgaWidth vgaHeight (glyph c)) := by
  unfold glyph
  by_cases hc : c = '\n'
  · rw [if_pos hc, hc, putchar_newline]
    exact h.nextRow
  · rw [if_neg hc]
    have hcolumn := h.column
    have hinside := h.columnInside
    have hstored := h.store (vgaEntry c highlightColor)
    unfold Page.type Page.put
    by_cases hedge : v.terminalColumn + 1 = vgaWidth
    · rw [putchar_edge hc hedge]
      simp only [← hcolumn, if_pos hedge]
      exact hstored.nextRow
    · rw [putchar_inner hc hedge h.rowInside]
      simp only [← hcolumn, if_neg hedge]
      exact
        { row := hstored.row
          rowInside := hstored.rowInside
          column := rfl
          columnInside := by simp only; omega
          color := hstored.color
          cells := hstored.cells
          below := hstored.below }

theorem terminalBackspace (h : ShownBy v p) :
    ShownBy v.terminalBackspace (p.back vgaWidth blankCell) := by
  have hrow := h.row
  have hcolumn := h.column
  have hinside := h.rowInside
  have hcolumnInside := h.columnInside
  have hmoved : ShownBy
      (if v.terminalColumn > 0 then { v with terminalColumn := v.terminalColumn - 1 }
        else if v.terminalRow > 0 then
          { v with terminalRow := v.terminalRow - 1, terminalColumn := vgaWidth - 1 }
        else v)
      (if p.column > 0 then { p with column := p.column - 1 }
        else if p.row > p.top then { p with row := p.row - 1, column := vgaWidth - 1 }
        else p) := by
    rw [← hcolumn]
    split
    · exact { h with
        column := rfl
        columnInside := Nat.lt_of_le_of_lt (Nat.sub_le _ _) hcolumnInside }
    · have hiff : p.row > p.top ↔ v.terminalRow > 0 := by omega
      simp only [hiff]
      split
      · exact { h with
          row := by simp only; omega
          rowInside := Nat.lt_of_le_of_lt (Nat.sub_le _ _) hinside
          column := rfl
          columnInside := Nat.lt_succ_self 79 }
      · exact h
  have hstored := hmoved.store blankCell
  unfold VgaState.terminalBackspace Page.back
  simp only [hmoved.color]
  exact hstored

end ShownBy

/-! ## Nothing outside -/

theorem Inside.init (hwritten : ∀ index ∈ v.written, index < 2000) : v.init.Inside := by
  rw [init_eq, clearFrom_eq]
  refine ⟨Nat.zero_lt_succ 24, Nat.zero_lt_succ 79, fun index hindex => ?_⟩
  simp only [List.mem_append, List.mem_map, List.mem_range] at hindex
  rcases hindex with hold | ⟨x, hx, rfl⟩
  · exact hwritten index hold
  · omega

/-- In the first cell of the screen a backspace stays where it is. -/
theorem Inside.terminalBackspace_any (h : v.Inside) : v.terminalBackspace.Inside := by
  rcases Nat.eq_zero_or_pos v.cursor with hzero | hpos
  · have hplace : ¬ v.terminalColumn > 0 ∧ ¬ v.terminalRow > 0 := by
      unfold cursor vgaWidth at hzero
      omega
    unfold VgaState.terminalBackspace
    rw [if_neg hplace.1, if_neg hplace.2]
    refine ⟨h.row, h.column, fun index hindex => ?_⟩
    rcases List.mem_append.1 hindex with hold | hnew
    · exact h.written index hold
    · rw [List.mem_singleton.1 hnew, hzero]
      decide
  · exact (h.terminalBackspace hpos).1

theorem Inside.putchar_any (h : v.Inside) (c : Char) : (v.putchar c).Inside := by
  by_cases hc : c = '\n'
  · rw [hc]
    exact h.putchar_newline
  · cases h.putchar hc with
    | next inside cursor cells => exact inside
    | scrolled inside last cursor cells => exact inside

end VgaState

/-! ## Runs -/

/-- The calls that change the screen. -/
inductive ScreenCall
  | terminal (call : TerminalCall)
  | cls
  deriving DecidableEq, Repr

namespace ScreenCall

def run : ScreenCall → VgaState → VgaState
  | terminal call, v => call.run v
  | cls, v => v.cls

/-- What the call does to the page behind the screen. -/
def page : ScreenCall → Page UInt16 → Page UInt16
  | terminal (.putchar c), p => p.type vgaWidth vgaHeight (VgaState.glyph c)
  | terminal .backspace, p => p.back vgaWidth VgaState.blankCell
  | cls, _ => Page.fresh VgaState.blankCell

end ScreenCall

namespace VgaState

theorem ShownBy.run {v : VgaState} {p : Page UInt16} (h : ShownBy v p) (call : ScreenCall) :
    ShownBy (call.run v) (call.page p) := by
  cases call with
  | terminal call =>
      cases call with
      | putchar c => exact h.putchar c
      | backspace => exact h.terminalBackspace
  | cls => exact shownBy_init v

theorem Inside.run {v : VgaState} (h : v.Inside) (call : ScreenCall) : (call.run v).Inside := by
  cases call with
  | terminal call =>
      cases call with
      | putchar c => exact h.putchar_any c
      | backspace => exact h.terminalBackspace_any
  | cls =>
      change v.init.Inside
      exact Inside.init h.written

theorem ShownBy.foldl {v : VgaState} {p : Page UInt16} (h : ShownBy v p) (calls : List ScreenCall) :
    ShownBy (calls.foldl (fun v call => call.run v) v) (calls.foldl (fun p call => call.page p) p) := by
  induction calls generalizing v p with
  | nil => exact h
  | cons call calls ih => exact ih (h.run call)

theorem Inside.foldl {v : VgaState} (h : v.Inside) (calls : List ScreenCall) :
    (calls.foldl (fun v call => call.run v) v).Inside := by
  induction calls generalizing v with
  | nil => exact h
  | cons call calls ih => exact ih (h.run call)

/-- A cleared screen, and the start of the history. -/
def cleared (v : VgaState) : VgaState := { v with written := [] }.cls

theorem inside_cleared (v : VgaState) : v.cleared.Inside := by
  unfold cleared cls
  exact Inside.init fun _ hindex => absurd hindex List.not_mem_nil

theorem shownBy_cls (v : VgaState) : ShownBy v.cls (Page.fresh blankCell) := by
  unfold cls
  exact shownBy_init v

/-- From a cleared screen on, whatever is printed, taken back and cleared, the screen is the window
of the page, and no cell outside it is written. -/
theorem shownBy_run (v : VgaState) (calls : List ScreenCall) :
    ShownBy (calls.foldl (fun v call => call.run v) v.cleared)
        (calls.foldl (fun p call => call.page p) (Page.fresh blankCell)) ∧
      ∀ index ∈ (calls.foldl (fun v call => call.run v) v.cleared).written, index < 2000 := by
  refine ⟨?_, (v.inside_cleared.foldl calls).written⟩
  unfold cleared
  exact (shownBy_cls _).foldl calls

/-! ## Texts -/

theorem print_eq (v : VgaState) (text : List Char) :
    v.print text =
      (text.map fun c => ScreenCall.terminal (.putchar c)).foldl (fun v call => call.run v) v := by
  rw [List.foldl_map]
  rfl

theorem page_eq (p : Page UInt16) (text : List Char) :
    (text.map fun c => ScreenCall.terminal (.putchar c)).foldl (fun p call => call.page p) p =
      (text.map glyph).foldl (Page.type vgaWidth vgaHeight) p := by
  rw [List.foldl_map, List.foldl_map]
  rfl

/-- A text in rows of 80 cells. -/
def textRows (text : List Char) : List (List UInt16) := Page.rows vgaWidth (text.map glyph)

/-- Of a text on a cleared screen the last 25 rows are shown, the others have been scrolled away, and
the cursor is behind the last character. -/
theorem print_cls (v : VgaState) (text : List Char) :
    (∀ i < vgaHeight, ∀ j < vgaWidth,
      (v.cls.print text).vgaBuffer (i * vgaWidth + j) =
        (((((textRows text).drop ((textRows text).length - vgaHeight))[i]?).getD [])[j]?).getD
          blankCell) ∧
    (v.cls.print text).terminalRow + 1 = min (textRows text).length vgaHeight ∧
    (v.cls.print text).terminalColumn = ((textRows text).getLast?.getD []).length := by
  have hshown := (shownBy_cls v).foldl (text.map fun c => ScreenCall.terminal (.putchar c))
  have hwidth : 0 < vgaWidth := Nat.zero_lt_succ 79
  have hheight : 0 < vgaHeight := Nat.zero_lt_succ 24
  have hpage := Page.written_foldl hwidth hheight blankCell (text.map glyph)
  rw [← print_eq, page_eq] at hshown
  have hrow := hshown.row
  have hpageRow := hpage.row
  have htop := hpage.top
  have hinside := hshown.rowInside
  unfold textRows
  refine ⟨fun i hi j hj => ?_, ?_, hshown.column.trans hpage.column⟩
  · rw [hshown.cells i hi j hj, hpage.cells, htop, List.getElem?_drop]
  · omega

end VgaState

end Shell
end WhitexKernel
