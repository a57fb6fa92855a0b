import WhitexKernel.Nano.Model

/-!
# Document — what the editor keeps of the typed text

A `Draft` is a text that fits the editor; whoever types beyond its capacity types in vain.  The
table of lines shows a draft: its lines are full up to the last one, the cursor stands at the end
of that, and what is behind it is empty.  Typing a character into the table is typing it into the
draft, so the editor keeps the first `capacity` characters typed since it was last cleared.
-/

namespace WhitexKernel
namespace Nano

open Lib Machine Shell

/-- The characters of a line that is not broken yet. -/
abbrev lineCapacity : Nat := nanoMaxLineLength - 2

/-- The characters of a document. -/
abbrev capacity : Nat := nanoMaxTotalLines * lineCapacity

/-! ## Drafts -/

structure Draft where
  text : List Char
  fits : text.length ≤ capacity

namespace Draft

def empty : Draft :=
  { text := []
    fits := Nat.zero_le _ }

/-- A character typed behind the text, if there is room for it. -/
def type (d : Draft) (c : Char) : Draft :=
  if h : d.text.length < capacity then
    { text := d.text ++ [c]
      fits := by
        rw [List.length_append, List.length_singleton]
        exact h }
  else d

theorem text_type_of_lt {d : Draft} (h : d.text.length < capacity) (c : Char) :
    (d.type c).text = d.text ++ [c] := by
  simp [type, h]

theorem type_of_full {d : Draft} (h : d.text.length = capacity) (c : Char) : d.type c = d := by
  simp [type, h]

/-- Typing keeps the beginning of what is typed. -/
theorem text_foldl_type (d : Draft) (cs : List Char) :
    (cs.foldl type d).text = (d.text ++ cs).take capacity := by
  induction cs generalizing d with
  | nil => simp [List.take_of_length_le d.fits]
  | cons c cs ih =>
      rw [List.foldl_cons, ih]
      rcases Nat.lt_or_eq_of_le d.fits with hroom | hfull
      · rw [text_type_of_lt hroom, List.append_assoc, List.singleton_append]
      · rw [type_of_full hfull, List.take_append_of_le_length (Nat.le_of_eq hfull.symm),
          List.take_append_of_le_length (Nat.le_of_eq hfull.symm)]

end Draft

/-! ## The text in the table -/

/-- The characters in use of a line. -/
def NanoTextLine.text (line : NanoTextLine) : List Char :=
  (List.range line.occupiedLength).map line.characterData

theorem NanoTextLine.length_text (line : NanoTextLine) :
    line.text.length = line.occupiedLength := by
  simp [NanoTextLine.text]

namespace NanoContext

/-- The characters in use of the first `n` lines. -/
def textOfLines (c : NanoContext) (n : Nat) : List Char :=
  (List.range n).flatMap fun i => (c.lines i).text

/-- The characters in use, line after line. -/
def documentText (c : NanoContext) : List Char := c.textOfLines c.activeLineCount

theorem textOfLines_succ (c : NanoContext) (n : Nat) :
    c.textOfLines (n + 1) = c.textOfLines n ++ (c.lines n).text := by
  simp [textOfLines, List.range_succ]

theorem textOfLines_congr {c c' : NanoContext} {n : Nat}
    (h : ∀ i, i < n → c'.lines i = c.lines i) : c'.textOfLines n = c.textOfLines n := by
  induction n with
  | zero => rfl
  | succ n ih =>
      rw [textOfLines_succ, textOfLines_succ, h n (Nat.lt_succ_self n)]
      rw [ih fun i hi => h i (Nat.lt_succ_of_lt hi)]

/-- Full lines hold `lineCapacity` characters each. -/
theorem length_textOfLines {c : NanoContext} {n : Nat}
    (h : ∀ i, i < n → (c.lines i).occupiedLength = lineCapacity) :
    (c.textOfLines n).length = n * lineCapacity := by
  induction n with
  | zero => rfl
  | succ n ih =>
      rw [textOfLines_succ, List.length_append, NanoTextLine.length_text,
        h n (Nat.lt_succ_self n), ih fun i hi => h i (Nat.lt_succ_of_lt hi), Nat.succ_mul]

end NanoContext

/-! ## Tables that show a draft -/

/-- The table shows the draft `d`: the lines before the cursor are full, those behind it empty, and
all of them are terminated. -/
structure Shows (c : NanoContext) (d : Draft) : Prop where
  last : c.globalCursorY + 1 = c.activeLineCount
  inTable : c.activeLineCount ≤ nanoMaxTotalLines
  atEnd : c.globalCursorX = (c.lines c.globalCursorY).occupiedLength
  full : ∀ i, i < c.globalCursorY → (c.lines i).occupiedLength = lineCapacity
  room : (c.lines c.globalCursorY).occupiedLength ≤ lineCapacity
  unused : ∀ i, c.globalCursorY < i → i < nanoMaxTotalLines → (c.lines i).occupiedLength = 0
  terminated : ∀ i, i < nanoMaxTotalLines →
    (c.lines i).characterData (c.lines i).occupiedLength = nul
  text : c.documentText = d.text

namespace Shows

variable {c : NanoContext} {d : Draft}

theorem cursorY_lt (h : Shows c d) : c.globalCursorY < nanoMaxTotalLines :=
  Nat.lt_of_lt_of_le (by rw [← h.last]; exact Nat.lt_succ_self _) h.inTable

theorem documentText_eq (h : Shows c d) :
    c.documentText = c.textOfLines c.globalCursorY ++ (c.lines c.globalCursorY).text := by
  rw [NanoContext.documentText, ← h.last, NanoContext.textOfLines_succ]

theorem length_text (h : Shows c d) :
    d.text.length =
      c.globalCursorY * lineCapacity + (c.lines c.globalCursorY).occupiedLength := by
  rw [← h.text, h.documentText_eq, List.length_append, NanoTextLine.length_text,
    NanoContext.length_textOfLines h.full]

/-- The table of empty lines shows the empty draft. -/
theorem of_zeroLines {c₀ : NanoContext} (hlines : c.lines = c₀.zeroLines.lines)
    (hcount : c.activeLineCount = 1) (hx : c.globalCursorX = 0) (hy : c.globalCursorY = 0) :
    Shows c Draft.empty := by
  have hzero : ∀ i, i < nanoMaxTotalLines → c.lines i = NanoTextLine.zero := by
    intro i hi
    rw [hlines]
    exact if_pos hi
  have hfirst : c.lines 0 = NanoTextLine.zero := hzero 0 (by decide)
  refine ⟨?_, ?_, ?_, ?_, ?_, ?_, ?_, ?_⟩
  · rw [hy, hcount]
  · rw [hcount]
    decide
  · rw [hx, hy, hfirst]
    rfl
  · intro i hi
    rw [hy] at hi
    exact absurd hi (Nat.not_lt_zero i)
  · rw [hy, hfirst]
    exact Nat.zero_le _
  · intro i _ hi
    rw [hzero i hi]
    rfl
  · intro i hi
    rw [hzero i hi]
    rfl
  -- one line, with nothing in it
  · rw [NanoContext.documentText, hcount, NanoContext.textOfLines_succ, hfirst]
    rfl

theorem hardReset (c : NanoContext) : Shows c.nanoContextHardReset Draft.empty :=
  of_zeroLines rfl rfl rfl rfl

theorem executeClear (c : NanoContext) : Shows c.nanoSubsystemExecuteClear Draft.empty :=
  of_zeroLines rfl rfl rfl rfl

theorem breakLine_cursorY (h : Shows c d) :
    c.breakLine.globalCursorY = c.globalCursorY + 1 := by
  have hlimit : c.globalCursorY < 1024 := h.cursorY_lt
  exact wrap32_of_lt (by omega)

/-- Breaking a full line changes nothing about the text. -/
theorem breakLine (h : Shows c d) (hfull : (c.lines c.globalCursorY).occupiedLength = lineCapacity)
    (hroom : c.activeLineCount < nanoMaxTotalLines) : Shows c.breakLine d := by
  have hlast := h.last
  have hy : c.breakLine.globalCursorY = c.globalCursorY + 1 := h.breakLine_cursorY
  have hcount : c.breakLine.activeLineCount = c.activeLineCount + 1 := by
    have hlimit : c.activeLineCount < 1024 := hroom
    exact wrap32_of_lt (by omega)
  have hnew : (c.lines (c.globalCursorY + 1)).occupiedLength = 0 :=
    h.unused _ (Nat.lt_succ_self _) (by omega)
  -- the cursor moves to a line that was unused, and so is empty
  refine ⟨?_, ?_, ?_, ?_, ?_, ?_, h.terminated, ?_⟩
  · rw [hy, hcount, hlast]
  · rw [hcount]
    exact hroom
  · rw [hy]
    exact hnew.symm
  · intro i hi
    rw [hy] at hi
    rcases Nat.lt_succ_iff_lt_or_eq.1 hi with hi | rfl
    · exact h.full i hi
    · exact hfull
  · rw [hy]
    exact Nat.le_trans (Nat.le_of_eq hnew) (Nat.zero_le _)
  · intro i hi
    rw [hy] at hi
    exact h.unused i (Nat.lt_of_succ_lt hi)
  · -- the new line is empty
    have hempty : (c.lines (c.globalCursorY + 1)).text = [] := by
      rw [NanoTextLine.text, hnew]
      rfl
    rw [← h.text, NanoContext.documentText, NanoContext.documentText, hcount, ← hlast,
      NanoContext.textOfLines_succ]
    change c.textOfLines _ ++ (c.lines (c.globalCursorY + 1)).text = _
    rw [hempty, List.append_nil]

/-- The line after a character was put at its end. -/
def extended (line : NanoTextLine) (inputChar : Char) : NanoTextLine :=
  { characterData := Function.update
      (Function.update line.characterData line.occupiedLength inputChar)
      (line.occupiedLength + 1) nul
    occupiedLength := line.occupiedLength + 1 }

theorem text_extended (line : NanoTextLine) (inputChar : Char) :
    (extended line inputChar).text = line.text ++ [inputChar] := by
  have hold : ∀ i, i < line.occupiedLength →
      (extended line inputChar).characterData i = line.characterData i := by
    intro i hi
    simp [extended, Nat.ne_of_lt hi, Nat.ne_of_lt (Nat.lt_succ_of_lt hi)]
  have hnew : (extended line inputChar).characterData line.occupiedLength = inputChar := by
    simp [extended]
  unfold NanoTextLine.text
  change (List.range (line.occupiedLength + 1)).map _ = _
  rw [List.range_succ, List.map_append, List.map_singleton, hnew]
  congr 1
  exact List.map_congr_left fun i hi => hold i (List.mem_range.1 hi)

/-- The table after a character was put at the end of the line of the cursor. -/
def placed (c : NanoContext) (inputChar : Char) : NanoContext :=
  NanoContext.nanoSetStatusMessage
    { c with
      lines := Function.update c.lines c.globalCursorY
        (extended (c.lines c.globalCursorY) inputChar)
      globalCursorX := (c.lines c.globalCursorY).occupiedLength + 1
      documentModifiedFlag := 1 } "Document Modified."

theorem placed_lines_self (c : NanoContext) (inputChar : Char) :
    (placed c inputChar).lines c.globalCursorY =
      extended (c.lines c.globalCursorY) inputChar := Function.update_self _ _ _

theorem placed_lines_of_ne (c : NanoContext) (inputChar : Char) {i : Nat}
    (hi : i ≠ c.globalCursorY) : (placed c inputChar).lines i = c.lines i :=
  Function.update_of_ne hi _ _

/-- At the end of a line with room nothing is shifted, and every index is inside its array. -/
theorem placeCharacter_eq (h : Shows c d)
    (hroom : (c.lines c.globalCursorY).occupiedLength < lineCapacity) (inputChar : Char) :
    c.placeCharacter inputChar = some (placed c inputChar) := by
  have hlimit : (c.lines c.globalCursorY).occupiedLength < 254 := hroom
  have hx : (c.lines c.globalCursorY).occupiedLength < nanoMaxLineLength :=
    Nat.lt_trans hlimit (by decide)
  have hend : (c.lines c.globalCursorY).occupiedLength + 1 < nanoMaxLineLength :=
    Nat.lt_of_le_of_lt (Nat.succ_le_of_lt hlimit) (by decide)
  have hwrap : wrap32 ((c.lines c.globalCursorY).occupiedLength + 1) =
      (c.lines c.globalCursorY).occupiedLength + 1 := wrap32_of_lt (by omega)
  have hshift : (c.lines c.globalCursorY).shiftRight
      (c.lines c.globalCursorY).occupiedLength = some (c.lines c.globalCursorY) := by
    unfold NanoTextLine.shiftRight
    rw [Nat.sub_self]
    rfl
  unfold NanoContext.placeCharacter
  rw [if_pos h.cursorY_lt, h.atEnd]
  simp only [hshift, Option.bind_eq_bind, Option.bind_some, NanoTextLine.write, hx, if_true, hwrap,
    hend]
  rfl

theorem placed_shows (h : Shows c d)
    (hroom : (c.lines c.globalCursorY).occupiedLength < lineCapacity) (inputChar : Char) :
    Shows (placed c inputChar) (d.type inputChar) := by
  have hfits : d.text.length < capacity := by
    have hrows : (c.globalCursorY + 1) * lineCapacity ≤ capacity :=
      Nat.mul_le_mul_right _ h.cursorY_lt
    rw [Nat.succ_mul] at hrows
    rw [h.length_text]
    exact Nat.lt_of_lt_of_le (Nat.add_lt_add_left hroom _) hrows
  -- the fields in order: only the line at the cursor changes
  refine ⟨h.last, h.inTable, ?_, ?_, ?_, ?_, ?_, ?_⟩
  · change _ = ((placed c inputChar).lines c.globalCursorY).occupiedLength
    rw [placed_lines_self]
    rfl
  · intro i hi
    rw [placed_lines_of_ne c inputChar (Nat.ne_of_lt hi)]
    exact h.full i hi
  · change ((placed c inputChar).lines c.globalCursorY).occupiedLength ≤ _
    rw [placed_lines_self]
    exact hroom
  · intro i hi hlt
    rw [placed_lines_of_ne c inputChar (Nat.ne_of_gt hi)]
    exact h.unused i hi hlt
  · intro i hi
    by_cases hic : i = c.globalCursorY
    · rw [hic, placed_lines_self]
      exact Function.update_self _ _ _
    · rw [placed_lines_of_ne c inputChar hic]
      exact h.terminated i hi
  · -- only the last line changes, and it gets the character
    rw [Draft.text_type_of_lt hfits, ← h.text, h.documentText_eq, NanoContext.documentText]
    change (placed c inputChar).textOfLines c.activeLineCount = _
    rw [← h.last, NanoContext.textOfLines_succ, placed_lines_self, text_extended,
      List.append_assoc]
    congr 1
    exact NanoContext.textOfLines_congr fun i hi =>
      placed_lines_of_ne c inputChar (Nat.ne_of_lt hi)

/-- A character is put at the end of the last line, or of a new one behind it, or is refused. -/
theorem insertCharacter_cases (h : Shows c d) (inputChar : Char) :
    (∃ c₁, Shows c₁ d ∧ (c₁.lines c₁.globalCursorY).occupiedLength < lineCapacity ∧
        c₁.viewportOffsetY = c.viewportOffsetY ∧ c₁.editorRunningState = c.editorRunningState ∧
        c.nanoInsertCharacterAtCursor inputChar = some (placed c₁ inputChar)) ∨
      d.text.length = capacity ∧ c.nanoInsertCharacterAtCursor inputChar =
        some (c.nanoSetStatusMessage "ERROR: Maximum document length reached.") := by
  have hlast := h.last
  unfold NanoContext.nanoInsertCharacterAtCursor
  rw [if_neg (Nat.not_le.2 h.cursorY_lt)]
  by_cases hbreak : (c.lines c.globalCursorY).occupiedLength ≥ nanoMaxLineLength - 2
  · have hfull : (c.lines c.globalCursorY).occupiedLength = lineCapacity :=
      Nat.le_antisymm h.room hbreak
    rw [if_pos hbreak]
    by_cases hroom : c.activeLineCount < nanoMaxTotalLines
    · have hbroken := h.breakLine hfull hroom
      have hnew : (c.breakLine.lines c.breakLine.globalCursorY).occupiedLength = 0 := by
        rw [h.breakLine_cursorY]
        exact h.unused _ (Nat.lt_succ_self _) (by omega)
      have hempty : (c.breakLine.lines c.breakLine.globalCursorY).occupiedLength <
          lineCapacity := by
        rw [hnew]
        decide
      rw [if_pos hroom]
      exact .inl ⟨c.breakLine, hbroken, hempty, rfl, rfl,
        hbroken.placeCharacter_eq hempty inputChar⟩
    · have hrow : c.globalCursorY + 1 = nanoMaxTotalLines :=
        hlast.trans (Nat.le_antisymm h.inTable (Nat.le_of_not_lt hroom))
      rw [if_neg hroom]
      refine .inr ⟨?_, rfl⟩
      calc d.text.length = c.globalCursorY * lineCapacity + lineCapacity := by
            rw [h.length_text, hfull]
        _ = (c.globalCursorY + 1) * lineCapacity := (Nat.succ_mul _ _).symm
        _ = capacity := by rw [hrow]
  · have hroom : (c.lines c.globalCursorY).occupiedLength < lineCapacity := Nat.lt_of_not_le hbreak
    rw [if_neg hbreak]
    exact .inl ⟨c, h, hroom, rfl, rfl, h.placeCharacter_eq hroom inputChar⟩

/-- A character is typed into the table as it is into the draft. -/
theorem insertCharacter (h : Shows c d) (inputChar : Char) :
    ∃ c', c.nanoInsertCharacterAtCursor inputChar = some c' ∧ Shows c' (d.type inputChar) := by
  rcases h.insertCharacter_cases inputChar with
    ⟨c₁, hshows, hroom, _, _, hinsert⟩ | ⟨hcapacity, hinsert⟩
  · exact ⟨_, hinsert, hshows.placed_shows hroom inputChar⟩
  · rw [Draft.type_of_full hcapacity]
    exact ⟨_, hinsert, h.last, h.inTable, h.atEnd, h.full, h.room, h.unused, h.terminated, h.text⟩

theorem processRawInputStream (h : Shows c d) (streamBuffer : List Char) :
    ∃ c', c.nanoProcessRawInputStream streamBuffer = some c' ∧
      Shows c' ((streamBuffer.takeWhile (· ≠ nul)).foldl Draft.type d) := by
  induction streamBuffer generalizing c d with
  | nil => exact ⟨c, rfl, h⟩
  | cons inputChar streamBuffer ih =>
      unfold NanoContext.nanoProcessRawInputStream
      by_cases hnul : inputChar = nul
      · rw [if_pos hnul]
        exact ⟨c, rfl, by simpa [hnul] using h⟩
      · rw [if_neg hnul]
        rcases h.insertCharacter inputChar with ⟨c₁, hinsert, hshows⟩
        rcases ih hshows with ⟨c₂, hrest, hend⟩
        refine ⟨c₂, ?_, by simpa [hnul] using hend⟩
        rw [hinsert]
        exact hrest

end Shows

/-! ## Runs -/

/-- The characters typed since the last clear, after one more call. -/
def typedAfter (typed : List Char) : NanoAction → List Char
  | .processRawInputStream streamBuffer => typed ++ streamBuffer.takeWhile (· ≠ nul)
  | .executeClear => []

/-- The characters that the calls have typed since the last clear. -/
def typedSinceClear (as : List NanoAction) : List Char := as.foldl typedAfter []

/-- The document is the beginning of `typed`; every line is terminated, and the cursor is at the end
of the last one. -/
structure DocumentKept (c : NanoContext) (typed : List Char) : Prop where
  text : c.documentText = typed.take (1024 * 254)
  terminated : ∀ i, i < nanoMaxTotalLines →
    (c.lines i).characterData (c.lines i).occupiedLength = nul
  lastLine : c.globalCursorY + 1 = c.activeLineCount
  endOfLine : c.globalCursorX = (c.lines c.globalCursorY).occupiedLength

/-- A call keeps the table a picture of the beginning of what is typed. -/
theorem Shows.step {c : NanoContext} {d : Draft} {typed : List Char} (h : Shows c d)
    (htyped : d.text = typed.take capacity) (a : NanoAction) :
    ∃ c' d', c.step a = some c' ∧ Shows c' d' ∧ d'.text = (typedAfter typed a).take capacity := by
  cases a with
  | executeClear =>
      exact ⟨_, Draft.empty, rfl, Shows.executeClear c, by simp [typedAfter, Draft.empty]⟩
  | processRawInputStream streamBuffer =>
      rcases h.processRawInputStream streamBuffer with ⟨c', hstep, hshows⟩
      refine ⟨c', _, hstep, hshows, ?_⟩
      rw [Draft.text_foldl_type, htyped, typedAfter]
      -- what did not fit before does not fit now
      rw [List.take_append, List.take_append, List.take_take, Nat.min_self, List.length_take]
      congr 2
      omega

theorem Shows.run {c : NanoContext} {d : Draft} {typed : List Char} (h : Shows c d)
    (htyped : d.text = typed.take capacity) (as : List NanoAction) :
    ∃ c' d', exec NanoContext.step c as = some c' ∧ Shows c' d' ∧
      d'.text = (as.foldl typedAfter typed).take capacity := by
  induction as generalizing c d typed with
  | nil => exact ⟨c, d, rfl, h, htyped⟩
  | cons a as ih =>
      rcases h.step htyped a with ⟨c₁, d₁, hstep, hshows, htyped₁⟩
      rcases ih hshows htyped₁ with ⟨c₂, d₂, hrest, hend⟩
      refine ⟨c₂, d₂, ?_, hend⟩
      rw [exec_cons, hstep]
      exact hrest

/-- After a reset, every sequence of inputs and clears returns, without an index outside the lines
or outside the characters of a line, and leaves the beginning of what was typed since the last
clear. -/
theorem documentKept_run (c : NanoContext) (as : List NanoAction) :
    ∃ c', exec NanoContext.step c.nanoContextHardReset as = some c' ∧
      DocumentKept c' (typedSinceClear as) := by
  have hempty : Draft.empty.text = List.take capacity [] := rfl
  rcases (Shows.hardReset c).run hempty as with ⟨c', d, hexec, hshows, htext⟩
  exact ⟨c', hexec, hshows.text.trans htext, hshows.terminated, hshows.last, hshows.atEnd⟩

end Nano
end WhitexKernel
