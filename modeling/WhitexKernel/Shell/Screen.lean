import Mathlib.Tactic.SplitIfs
import WhitexKernel.Lib.Bytes
import WhitexKernel.Lib.Transition
import WhitexKernel.Shell.Keyboard

/-!
# Screen — the text screen, and the line that is typed on it (`vga.h`)

The screen is an array of cells, 80 to a row.  `putchar` writes at the cursor, moves it on and
scrolls when it falls off the last row; `terminal_backspace` moves it back and blanks the cell there.

* `mirrors_run` — while a line is typed, the cells in front of the cursor show it.
-/

namespace WhitexKernel
namespace Shell

open Lib

/-! ## Cells -/

/-- `VGA_WIDTH` -/
abbrev vgaWidth : Nat := 80

/-- `VGA_HEIGHT` -/
abbrev vgaHeight : Nat := 25

/-- `enum vga_color`, as far as it is used. -/
def vgaBlue : UInt8 := 1

def vgaWhite : UInt8 := 15

def vgaEntryColor (fg bg : UInt8) : UInt8 := fg ||| (bg <<< 4)

def vgaEntry (uc : Char) (color : UInt8) : UInt16 :=
  UInt16.ofNat (uc.toNat % 256) ||| (color.toUInt16 <<< 8)

/-- `highlight_color` of `putchar`. -/
def highlightColor : UInt8 := vgaEntryColor vgaWhite vgaBlue

/-- The screen's globals; `written` is the history of the indices into `VGA_BUFFER` that were
written, which nothing reads. -/
structure VgaState where
  terminalRow : Nat
  terminalColumn : Nat
  terminalColor : UInt8
  vgaBuffer : Nat → UInt16
  written : List Nat

namespace VgaState

/-- `VGA_BUFFER[index] = cell` -/
def store (v : VgaState) (index : Nat) (cell : UInt16) : VgaState :=
  { v with
    vgaBuffer := Function.update v.vgaBuffer index cell
    written := v.written ++ [index] }

/-- `terminal_row * VGA_WIDTH + terminal_column` -/
def cursor (v : VgaState) : Nat := v.terminalRow * vgaWidth + v.terminalColumn

/-- The first loop of `scroll`, for one row. -/
def scrollRow (v : VgaState) (y : Nat) : VgaState :=
  (List.range vgaWidth).foldl
    (fun v x => v.store (y * vgaWidth + x) (v.vgaBuffer ((y + 1) * vgaWidth + x))) v

/-- The second loop of `scroll`. -/
def clearLastRow (v : VgaState) : VgaState :=
  (List.range vgaWidth).foldl
    (fun v x => v.store ((vgaHeight - 1) * vgaWidth + x) (vgaEntry ' ' v.terminalColor)) v

def scroll (v : VgaState) : VgaState :=
  { ((List.range (vgaHeight - 1)).foldl scrollRow v).clearLastRow with terminalRow := vgaHeight - 1 }

/-- The cursor behind the cell that was written. -/
def advance (v : VgaState) : VgaState :=
  if v.terminalColumn + 1 = vgaWidth then
    { v with terminalColumn := 0, terminalRow := v.terminalRow + 1 }
  else { v with terminalColumn := v.terminalColumn + 1 }

def putchar (v : VgaState) (c : Char) : VgaState :=
  let v :=
    if c = '\n' then { v with terminalColumn := 0, terminalRow := v.terminalRow + 1 }
    else (v.store v.cursor (vgaEntry c highlightColor)).advance
  if v.terminalRow ≥ vgaHeight then v.scroll else v

def terminalBackspace (v : VgaState) : VgaState :=
  let v :=
    if v.terminalColumn > 0 then { v with terminalColumn := v.terminalColumn - 1 }
    else if v.terminalRow > 0 then
      { v with terminalRow := v.terminalRow - 1, terminalColumn := vgaWidth - 1 }
    else v
  v.store v.cursor (vgaEntry ' ' v.terminalColor)

end VgaState

/-- What a call does to the screen. -/
def TerminalCall.run : TerminalCall → VgaState → VgaState
  | .putchar c, v => v.putchar c
  | .backspace, v => v.terminalBackspace

/-! ## What the screen operations do -/

namespace VgaState

variable {v : VgaState}

/-- The first `n` stores of the first loop of `scroll`. -/
def copyDown (v : VgaState) (n : Nat) : VgaState :=
  (List.range n).foldl (fun v i => v.store i (v.vgaBuffer (i + vgaWidth))) v

/-- The first `n` stores of the second loop. -/
def clearFrom (v : VgaState) (start n : Nat) : VgaState :=
  (List.range n).foldl (fun v x => v.store (start + x) (vgaEntry ' ' v.terminalColor)) v

theorem scrollRow_eq (v : VgaState) (y : Nat) :
    v.scrollRow y = (List.range vgaWidth).foldl
      (fun v x => v.store (y * vgaWidth + x) (v.vgaBuffer (y * vgaWidth + x + vgaWidth))) v := by
  have hindex : ∀ x, (y + 1) * vgaWidth + x = y * vgaWidth + x + vgaWidth := by
    intro x
    rw [Nat.succ_mul]
    omega
  unfold scrollRow
  simp only [hindex]

theorem scroll_eq (v : VgaState) :
    v.scroll = { (v.copyDown 1920).clearFrom 1920 vgaWidth with terminalRow := 24 } := by
  have hrows : (List.range (vgaHeight - 1)).foldl scrollRow v = v.copyDown 1920 := by
    have hrow : scrollRow = fun v y => (List.range vgaWidth).foldl
        (fun v x => v.store (y * vgaWidth + x) (v.vgaBuffer (y * vgaWidth + x + vgaWidth))) v := by
      funext v y
      exact scrollRow_eq v y
    rw [hrow]
    exact Bytes.foldl_rows (fun v i => v.store i (v.vgaBuffer (i + vgaWidth))) v 24 vgaWidth
  unfold scroll clearLastRow
  rw [hrows]
  rfl

theorem copyDown_eq (v : VgaState) (n : Nat) :
    v.copyDown n =
      { v with
        vgaBuffer := fun i => if i < n then v.vgaBuffer (i + vgaWidth) else v.vgaBuffer i
        written := v.written ++ List.range n } := by
  induction n with
  | zero => simp [copyDown]
  | succ n ih =>
      have hstore : v.copyDown (n + 1) =
          (v.copyDown n).store n ((v.copyDown n).vgaBuffer (n + vgaWidth)) := by
        unfold copyDown
        rw [List.range_succ, List.foldl_append]
        rfl
      rw [hstore, ih, List.range_succ, ← List.append_assoc]
      unfold store
      congr 1
      funext i
      -- the cell that is read has not been overwritten yet
      have hread : ¬ n + vgaWidth < n := by omega
      simp only [if_neg hread]
      by_cases hlast : i = n
      · rw [hlast, Function.update_self, if_pos (Nat.lt_succ_self n)]
      · rw [Function.update_of_ne hlast]
        by_cases hlt : i < n
        · rw [if_pos hlt, if_pos (Nat.lt_succ_of_lt hlt)]
        · rw [if_neg hlt, if_neg (by omega)]

theorem clearFrom_eq (v : VgaState) (start n : Nat) :
    v.clearFrom start n =
      { v with
        vgaBuffer := fun i =>
          if start ≤ i ∧ i < start + n then vgaEntry ' ' v.terminalColor else v.vgaBuffer i
        written := v.written ++ (List.range n).map (start + ·) } := by
  induction n with
  | zero =>
      have hnone : ∀ i, ¬ (start ≤ i ∧ i < start) := fun i => by omega
      simp [clearFrom, hnone]
  | succ n ih =>
      have hstore : v.clearFrom start (n + 1) =
          (v.clearFrom start n).store (start + n)
            (vgaEntry ' ' (v.clearFrom start n).terminalColor) := by
        unfold clearFrom
        rw [List.range_succ, List.foldl_append]
        rfl
      rw [hstore, ih, List.range_succ, List.map_append, ← List.append_assoc]
      unfold store
      congr 1
      funext i
      -- the cell just written, one written before, or one outside
      by_cases hlast : i = start + n
      · rw [hlast, Function.update_self, if_pos ⟨by omega, by omega⟩]
      · rw [Function.update_of_ne hlast]
        simp only
        by_cases hin : start ≤ i ∧ i < start + n
        · rw [if_pos hin, if_pos ⟨hin.1, by omega⟩]
        · rw [if_neg hin, if_neg (by omega)]

/-- The rows move up by one, and the last one is blank. -/
theorem scroll_spec (v : VgaState) :
    v.scroll.terminalRow = 24 ∧ v.scroll.terminalColumn = v.terminalColumn ∧
      (∀ i < 1920, v.scroll.vgaBuffer i = v.vgaBuffer (i + vgaWidth)) ∧
      ∀ i ∈ v.scroll.written, i ∈ v.written ∨ i < 2000 := by
  rw [scroll_eq, clearFrom_eq, copyDown_eq]
  refine ⟨rfl, rfl, fun i hi => ?_, fun i hi => ?_⟩
  · simp only
    rw [if_neg (by omega), if_pos hi]
  · simp only [List.mem_append, List.mem_range, List.mem_map] at hi
    rcases hi with (hi | hi) | ⟨x, hx, rfl⟩
    · exact .inl hi
    · exact .inr (by omega)
    · unfold vgaWidth at hx
      exact .inr (by omega)

theorem scroll_cursor (v : VgaState) : v.scroll.cursor = 1920 + v.terminalColumn := by
  obtain ⟨hrow, hcolumn, _⟩ := scroll_spec v
  unfold cursor
  rw [hrow, hcolumn, show 24 * vgaWidth = 1920 from rfl]

/-- The cursor is inside the screen, and so is all that was written. -/
structure Inside (v : VgaState) : Prop where
  row : v.terminalRow < vgaHeight
  column : v.terminalColumn < vgaWidth
  written : ∀ index ∈ v.written, index < 2000

theorem Inside.cursor_lt (h : v.Inside) : v.cursor < 2000 := by
  have hrow := h.row
  have hcolumn := h.column
  unfold vgaHeight at hrow
  unfold vgaWidth at hcolumn
  unfold cursor vgaWidth
  omega

/-- Scrolling, when the cursor has come to the row below the last one. -/
theorem Inside.scroll (hcolumn : v.terminalColumn < vgaWidth)
    (hwritten : ∀ index ∈ v.written, index < 2000) : v.scroll.Inside := by
  obtain ⟨hrow, hsame, _, hindices⟩ := scroll_spec v
  refine ⟨by rw [hrow]; decide, by rw [hsame]; exact hcolumn, fun index hindex => ?_⟩
  exact (hindices index hindex).elim (hwritten index) id

theorem Inside.putchar_newline (h : v.Inside) : (v.putchar '\n').Inside := by
  unfold putchar
  rw [if_pos rfl]
  simp only
  split
  case isTrue => exact Inside.scroll (Nat.zero_lt_succ 79) h.written
  case isFalse hrow => exact ⟨Nat.lt_of_not_ge hrow, Nat.zero_lt_succ 79, h.written⟩

/-- A character that moves the cursor by one cell, and what scrolling adds to that. -/
inductive Typed (v w : VgaState) (c : Char) : Prop
  | next (inside : w.Inside) (cursor : w.cursor = v.cursor + 1)
      (cells : w.vgaBuffer = Function.update v.vgaBuffer v.cursor (vgaEntry c highlightColor))
  | scrolled (inside : w.Inside) (last : v.cursor + 1 = 2000) (cursor : w.cursor = 1920)
      (cells : ∀ i < 1920, w.vgaBuffer i =
        Function.update v.vgaBuffer v.cursor (vgaEntry c highlightColor) (i + vgaWidth))

theorem Inside.putchar (h : v.Inside) {c : Char} (hc : c ≠ '\n') : Typed v (v.putchar c) c := by
  have hcursor := h.cursor_lt
  have hrow := h.row
  have hcolumn := h.column
  have hwritten : ∀ index ∈ v.written ++ [v.cursor], index < 2000 := by
    intro index hindex
    rcases List.mem_append.1 hindex with hold | hnew
    · exact h.written index hold
    · rw [List.mem_singleton.1 hnew]
      exact hcursor
  unfold vgaHeight at hrow
  unfold vgaWidth at hcolumn
  unfold VgaState.putchar
  rw [if_neg hc]
  unfold advance store
  simp only
  by_cases hedge : v.terminalColumn + 1 = vgaWidth
  · -- the last cell of its row
    rw [if_pos hedge]
    simp only
    unfold vgaWidth at hedge
    split
    case isTrue hbottom =>
      unfold vgaHeight at hbottom
      refine .scrolled (Inside.scroll (Nat.zero_lt_succ 79) hwritten) ?_ (scroll_cursor _)
        (scroll_spec _).2.2.1
      unfold cursor vgaWidth
      omega
    case isFalse hbottom =>
      unfold vgaHeight at hbottom
      refine .next ⟨by unfold vgaHeight; simp only; omega, Nat.zero_lt_succ 79, hwritten⟩ ?_ rfl
      unfold cursor vgaWidth
      simp only
      omega
  · rw [if_neg hedge]
    simp only
    unfold vgaWidth at hedge
    rw [if_neg (by unfold vgaHeight; omega)]
    refine .next ⟨hrow, by unfold vgaWidth; simp only; omega, hwritten⟩ ?_ rfl
    unfold cursor
    simp only
    omega

/-- The cursor moves back by one cell, and that cell is blank. -/
theorem Inside.terminalBackspace (h : v.Inside) (hpos : 0 < v.cursor) :
    v.terminalBackspace.Inside ∧ v.terminalBackspace.cursor = v.cursor - 1 ∧
      v.terminalBackspace.terminalColor = v.terminalColor ∧
      v.terminalBackspace.vgaBuffer =
        Function.update v.vgaBuffer (v.cursor - 1) (vgaEntry ' ' v.terminalColor) := by
  have hrow := h.row
  have hcolumn := h.column
  have hcursor := h.cursor_lt
  have hwritten : ∀ index ∈ v.written ++ [v.cursor - 1], index < 2000 := by
    intro index hindex
    rcases List.mem_append.1 hindex with hold | hnew
    · exact h.written index hold
    · rw [List.mem_singleton.1 hnew]
      omega
  unfold VgaState.terminalBackspace
  by_cases hfirst : v.terminalColumn > 0
  · have hback : VgaState.cursor { v with terminalColumn := v.terminalColumn - 1 } = v.cursor - 1 := by
      unfold cursor
      simp only
      omega
    rw [if_pos hfirst]
    unfold store
    simp only [hback]
    exact ⟨⟨hrow, Nat.lt_of_le_of_lt (Nat.sub_le _ _) hcolumn, hwritten⟩, hback, trivial, trivial⟩
  · -- back to the end of the row above
    have habove : v.terminalRow > 0 := by
      unfold cursor vgaWidth at hpos
      omega
    have hback : VgaState.cursor
        { v with terminalRow := v.terminalRow - 1, terminalColumn := vgaWidth - 1 } = v.cursor - 1 := by
      unfold cursor vgaWidth
      simp only
      omega
    rw [if_neg hfirst, if_pos habove]
    unfold store
    simp only [hback]
    exact ⟨⟨Nat.lt_of_le_of_lt (Nat.sub_le _ _) hrow, Nat.lt_succ_self 79, hwritten⟩, hback, trivial,
      trivial⟩

end VgaState

/-! ## The console -/

/-- The keyboard and the screen, while a line is read. -/
structure Console where
  keyboard : KeyboardState
  vga : VgaState

namespace Console

/-- The calls to the screen that a scancode leads to. -/
def calls (c : Console) (scancode : UInt8) : List TerminalCall :=
  (keyboardHandler scancode c.keyboard).terminal.drop c.keyboard.terminal.length

/-- A scancode in the loop of `scan`; none once the line is complete. -/
def key (c : Console) (scancode : UInt8) : Option Console :=
  if c.keyboard.inputComplete then none
  else
    some
      { keyboard := keyboardHandler scancode c.keyboard
        vga := (c.calls scancode).foldl (fun v call => call.run v) c.vga }

/-- The start of `scan`, and of the history of the screen. -/
def start (s : KeyboardState) (v : VgaState) : Console :=
  { keyboard := scanStart s, vga := { v with written := [] } }

/-- The line on the screen: the cursor is inside it, nothing was written outside it, and before
Enter the cells in front of the cursor show the line. -/
structure Mirrors (c : Console) : Prop where
  inside : c.vga.Inside
  room : c.keyboard.inputComplete = false → c.keyboard.bufferIdx ≤ c.vga.cursor
  cells : c.keyboard.inputComplete = false → ∀ i < c.keyboard.bufferIdx,
    c.vga.vgaBuffer (c.vga.cursor - c.keyboard.bufferIdx + i) =
      vgaEntry (c.keyboard.inputBuffer i) highlightColor

/-- The kinds of scancodes: nothing is shown, a character is taken back, Enter, or a character is
typed. -/
inductive KeyEffect (c d : Console) : Prop
  | quiet (buffer : d.keyboard.inputBuffer = c.keyboard.inputBuffer)
      (idx : d.keyboard.bufferIdx = c.keyboard.bufferIdx) (vga : d.vga = c.vga)
  | erased (pos : 0 < c.keyboard.bufferIdx)
      (buffer : d.keyboard.inputBuffer =
        Function.update c.keyboard.inputBuffer (c.keyboard.bufferIdx - 1) nul)
      (idx : d.keyboard.bufferIdx = c.keyboard.bufferIdx - 1) (vga : d.vga = c.vga.terminalBackspace)
  | ended (complete : d.keyboard.inputComplete = true)
      (idx : d.keyboard.bufferIdx = c.keyboard.bufferIdx) (vga : d.vga = c.vga.putchar '\n')
  | appended (ch : Char) (typable : Typable ch) (room : c.keyboard.bufferIdx < 254)
      (buffer : d.keyboard.inputBuffer =
        Function.update c.keyboard.inputBuffer c.keyboard.bufferIdx ch)
      (idx : d.keyboard.bufferIdx = c.keyboard.bufferIdx + 1) (vga : d.vga = c.vga.putchar ch)

/-- The calls are what the handler has put behind the history. -/
theorem calls_of_terminal {c : Console} {scancode : UInt8} {l : List TerminalCall}
    (h : (keyboardHandler scancode c.keyboard).terminal = c.keyboard.terminal ++ l) :
    c.calls scancode = l := by
  unfold calls
  rw [h, List.drop_left]

theorem key_effect {c d : Console} {scancode : UInt8} (h : c.key scancode = some d) :
    c.keyboard.inputComplete = false ∧ KeyEffect c d := by
  unfold key at h
  split at h
  case isTrue => cases h
  case isFalse hopen =>
    cases h
    refine ⟨by simpa using hopen, ?_⟩
    -- what the handler does to the line decides what it shows
    cases keyboardHandler_stroke scancode c.keyboard with
    | quiet buffer idx complete terminal =>
        refine .quiet buffer idx ?_
        rw [calls_of_terminal (terminal.trans (List.append_nil _).symm)]
        rfl
    | erased pos buffer idx complete terminal =>
        refine .erased pos buffer idx ?_
        rw [calls_of_terminal terminal]
        rfl
    | ended buffer idx complete terminal =>
        refine .ended complete idx ?_
        rw [calls_of_terminal terminal]
        rfl
    | appended ch typable room eq =>
        have hterminal : (keyboardHandler scancode c.keyboard).terminal =
            c.keyboard.terminal ++ [.putchar ch] := by
          rw [eq]
          rfl
        refine .appended ch typable room ?_ ?_ ?_
        · rw [eq]
          rfl
        · rw [eq]
          rfl
        · rw [calls_of_terminal hterminal]
          rfl

theorem not_typable_newline : ¬ Typable '\n' := by
  have hall : ∀ code < 0x80, code ∉ actionKeys →
      kbdUs.getD code nul ≠ '\n' ∧ kbdUsShift.getD code nul ≠ '\n' := by
    decide +kernel
  rintro ⟨_, code, hcode, haction, hchar | hchar⟩
  · exact (hall code hcode haction).1 hchar.symm
  · exact (hall code hcode haction).2 hchar.symm

/-- The cell at the cursor, when a character has been taken back. -/
def BlankBehind (c d : Console) : Prop :=
  d.keyboard.bufferIdx < c.keyboard.bufferIdx →
    d.vga.vgaBuffer d.vga.cursor = vgaEntry ' ' d.vga.terminalColor

theorem Mirrors.key {c d : Console} {scancode : UInt8} (hc : c.Mirrors)
    (h : c.key scancode = some d) : d.Mirrors ∧ BlankBehind c d := by
  obtain ⟨hopen, heffect⟩ := key_effect h
  have hroom := hc.room hopen
  have hcells := hc.cells hopen
  have hcursor := hc.inside.cursor_lt
  cases heffect with
  | quiet buffer idx vga =>
      refine ⟨⟨vga ▸ hc.inside, fun _ => ?_, fun _ => ?_⟩, fun hlt => absurd hlt (by omega)⟩
      · rw [idx, vga]
        exact hroom
      · rw [idx, vga, buffer]
        exact hcells
  | erased pos buffer idx vga =>
      obtain ⟨hinside, hback, hcolor, hblank⟩ := hc.inside.terminalBackspace (by omega)
      refine ⟨⟨vga ▸ hinside, fun _ => ?_, fun _ i hi => ?_⟩, fun _ => ?_⟩
      · rw [idx, vga, hback]
        omega
      · rw [idx] at hi
        rw [idx, vga, hback, hblank, buffer, Function.update_of_ne (by omega),
          Function.update_of_ne (by omega), ← hcells i (by omega)]
        congr 1
        omega
      · rw [vga, hback, hblank, hcolor, Function.update_self]
  | ended complete idx vga =>
      have hdone : ¬ d.keyboard.inputComplete = false := by simp [complete]
      exact ⟨⟨vga ▸ hc.inside.putchar_newline, fun hgoes => absurd hgoes hdone,
        fun hgoes => absurd hgoes hdone⟩, fun hlt => absurd hlt (by omega)⟩
  | appended ch typable room buffer idx vga =>
      have hnewline : ch ≠ '\n' := fun heq => not_typable_newline (heq ▸ typable)
      have hline : ∀ i < c.keyboard.bufferIdx + 1,
          Function.update c.vga.vgaBuffer c.vga.cursor (vgaEntry ch highlightColor)
              (c.vga.cursor - c.keyboard.bufferIdx + i) =
            vgaEntry (d.keyboard.inputBuffer i) highlightColor := by
        intro i hi
        rw [buffer]
        rcases Nat.lt_succ_iff_lt_or_eq.1 hi with hlt | rfl
        · rw [Function.update_of_ne (by omega), Function.update_of_ne (by omega)]
          exact hcells i hlt
        · rw [Nat.sub_add_cancel hroom, Function.update_self, Function.update_self]
      refine ⟨?_, fun hlt => absurd hlt (by omega)⟩
      cases hc.inside.putchar hnewline with
      | next inside cursor cells =>
          refine ⟨vga ▸ inside, fun _ => ?_, fun _ i hi => ?_⟩
          · rw [vga, cursor, idx]
            exact Nat.succ_le_succ hroom
          · rw [idx] at hi
            rw [vga, cursor, cells, idx, Nat.add_sub_add_right]
            exact hline i hi
      | scrolled inside last cursor cells =>
          -- the line has moved up by a row, and the cursor with it
          refine ⟨vga ▸ inside, fun _ => ?_, fun _ i hi => ?_⟩
          · rw [vga, cursor, idx]
            omega
          · rw [idx] at hi
            rw [vga, cursor, idx, cells _ (by omega), ← hline i hi]
            congr 1
            unfold vgaWidth
            omega

theorem mirrors_start (s : KeyboardState) {v : VgaState} (hrow : v.terminalRow < vgaHeight)
    (hcolumn : v.terminalColumn < vgaWidth) : (start s v).Mirrors :=
  { inside := ⟨hrow, hcolumn, fun _ hindex => absurd hindex List.not_mem_nil⟩
    room := fun _ => Nat.zero_le _
    cells := fun _ i hi => absurd hi (Nat.not_lt_zero i) }

/-- While a line is typed, from any place of the cursor, the cells in front of the cursor show it,
a character that is taken back leaves a blank cell, and nothing is written outside the screen. -/
theorem mirrors_run (s : KeyboardState) (v : VgaState) (hrow : v.terminalRow < vgaHeight)
    (hcolumn : v.terminalColumn < vgaWidth) (codes : List UInt8) :
    AllStates key Mirrors (start s v) codes ∧
      AllSteps key (fun c scancode => ∀ d, c.key scancode = some d → BlankBehind c d) (start s v)
        codes := by
  have hrun : AllStates key Mirrors (start s v) codes :=
    allStates_of_invariant (fun c scancode d hc hkey => (hc.key hkey).1) (mirrors_start s hrow hcolumn)
      codes
  exact ⟨hrun, hrun.allSteps.mono fun c scancode hc d hkey => (hc.key hkey).2⟩

/-- The last cell of the screen. -/
def bottomRight : VgaState :=
  { terminalRow := 24
    terminalColumn := 79
    terminalColor := vgaEntryColor vgaWhite 0
    vgaBuffer := fun _ => 0
    written := [] }

theorem mirrors_run_bottomRight :
    AllStates key Mirrors (start KeyboardState.zero bottomRight) [0x1E, 0x1F, 0x0E, 0x1C] ∧
      AllSteps key (fun c scancode => ∀ d, c.key scancode = some d → BlankBehind c d)
        (start KeyboardState.zero bottomRight) [0x1E, 0x1F, 0x0E, 0x1C] :=
  mirrors_run KeyboardState.zero bottomRight (by decide) (by decide) [0x1E, 0x1F, 0x0E, 0x1C]

end Console

end Shell
end WhitexKernel
