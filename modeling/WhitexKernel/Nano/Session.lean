import WhitexKernel.Nano.Document
import WhitexKernel.Shell.Comparisons

/-!
# Session — the editor from its first refresh to its end

`execute_nano_terminal_simulator` shows the document, reads a line and types it, unless it is one of
two words; the second of these leads to the directives, most of which are acknowledged with one more
line.  What has been read and is waited for makes up the state of the session, so a session is the
run of its lines.

`Editing` is what the session is about: the text typed since it was last wiped.  The session follows
it (`session_follows`); the window of 16 lines on the text never moves.
-/

namespace WhitexKernel
namespace Nano

open Lib Machine Shell
open Vfs (IsText)

/-! ## What is printed -/

/-- `NANO_SYS_MAX_ROWS` -/
abbrev nanoSysMaxRows : Nat := 25

/-- What `print` makes of `character_data`. -/
def NanoTextLine.printed (line : NanoTextLine) : List Char :=
  ((List.range nanoMaxLineLength).map line.characterData).takeWhile (· ≠ nul)

namespace NanoContext

def nanoRenderHeaderComponent : List Char :=
  "================================================================================\n".toList ++
  " GNU nano 7.2.X-Advanced       [ SYSTEM KERNEL BUFFER ]                         \n".toList ++
  "================================================================================\n".toList

/-- A rule, and the status line with the message in it. -/
def statusComponent (message : String) : List Char :=
  "--------------------------------------------------------------------------------\n".toList ++
  "[ STATUS ]: ".toList ++ message.toList ++ "\n".toList

def nanoRenderStatusComponent (c : NanoContext) : List Char := statusComponent c.statusMessageBuffer

def nanoRenderFooterComponent : List Char :=
  "--------------------------------------------------------------------------------\n".toList ++
  " COMMAND MODE : Type '-cmdnanocmd'     |   EXIT SEQUENCE : Type 'exit'          \n".toList ++
  "================================================================================\n".toList

/-- The loop of `nano_render_text_viewport`, one line of it for each index. -/
def nanoRenderTextViewport (c : NanoContext) : List Char :=
  (List.range (nanoSysMaxRows - 9)).flatMap fun renderYIterator =>
    let actualLineIndex := c.viewportOffsetY + renderYIterator
    if actualLineIndex < c.activeLineCount then
      if (c.lines actualLineIndex).occupiedLength = 0 then " \n".toList
      else (c.lines actualLineIndex).printed ++ "\n".toList
    else "~\n".toList

/-- What is printed on the cleared screen. -/
def nanoForceDisplayRefresh (c : NanoContext) : List Char :=
  nanoRenderHeaderComponent ++ c.nanoRenderTextViewport ++ c.nanoRenderStatusComponent ++
    nanoRenderFooterComponent

def nanoSubsystemExecuteStats (c : NanoContext) : NanoContext :=
  c.nanoSetStatusMessage "Total Lines: ACTIVE | Memory: SECURE | Subsystem: ONLINE"

end NanoContext

/-! ## The session -/

/-- What the next line is read for. -/
inductive NanoMode
  | editing
  | directives
  | acknowledging
  | left
  deriving DecidableEq, Repr

/-- The editor, and what it has printed since the screen was last cleared. -/
structure NanoSession where
  context : NanoContext
  mode : NanoMode
  printed : List Char

namespace NanoSession

/-- The head of the loop of `execute_nano_terminal_simulator`, up to the next `scan`. -/
def editing (c : NanoContext) : NanoSession :=
  if c.editorRunningState = 1 then
    { context := c
      mode := .editing
      printed := c.nanoForceDisplayRefresh ++ "\n[INPUT]> ".toList }
  else
    { context := c
      mode := .left
      printed := [] }

/-- The head of the loop of `nano_subsystem_terminal_dispatcher`, up to the next `scan`. -/
def directives (c : NanoContext) : NanoSession :=
  { context := c
    mode := .directives
    printed :=
      "================================================================================\n".toList ++
      "                 [ NANO INTERNAL COMMAND SUBSYSTEM ]                            \n".toList ++
      "================================================================================\n".toList ++
      " Available Directives:\n".toList ++
      "   -> return    : Return to document editing\n".toList ++
      "   -> clear     : Destroy all document contents\n".toList ++
      "   -> stats     : Display buffer memory statistics\n".toList ++
      "   -> save      : Commit buffer to virtual file system\n".toList ++
      "   -> abort     : Terminate entire editor instance\n".toList ++
      "--------------------------------------------------------------------------------\n".toList ++
      "root@nano-internal:~# ".toList }

/-- A directive that waits for a key, which is a line. -/
def acknowledging (s : NanoSession) (c : NanoContext) (message : String) : NanoSession :=
  { context := c
    mode := .acknowledging
    printed := s.printed ++ message.toList }

/-- `execute_nano_terminal_simulator` up to its first `scan` -/
def start (c : NanoContext) : NanoSession := editing c.nanoContextHardReset

/-- One more line; `none` when it is written behind the end of an array. -/
def read (s : NanoSession) (line : TypedLine) : Option NanoSession :=
  let c := s.context
  match s.mode with
  | .editing =>
      if nanoSysStrcmp line.text "exit".toList then
        some (editing { c with editorRunningState := 0 })
      else if nanoSysStrcmp line.text "-cmdnanocmd".toList then some (directives c)
      else if line.text.headD nul ≠ nul then
        (c.nanoProcessRawInputStream line.text).map editing
      else some (editing c)
  | .directives =>
      if nanoSysStrcmp line.text "return".toList then
        some (editing (c.nanoSetStatusMessage "Returned to editor mode."))
      else if nanoSysStrcmp line.text "abort".toList then
        some (editing { c with editorRunningState := 0 })
      else if nanoSysStrcmp line.text "clear".toList then
        some (s.acknowledging c.nanoSubsystemExecuteClear
          "\n[SUCCESS] Document completely erased. Press any key...")
      else if nanoSysStrcmp line.text "stats".toList then
        some (s.acknowledging c.nanoSubsystemExecuteStats
          "\n[SUCCESS] Statistics updated in status bar. Press any key...")
      else if nanoSysStrcmp line.text "save".toList then
        some (s.acknowledging (c.nanoSetStatusMessage "File saved to VFS (Simulated).")
          "\n[SUCCESS] I/O Operation complete. Press any key...")
      else
        some (s.acknowledging c "\n[FATAL] Unrecognized directive. Try again. Press any key...")
  -- `char dummy[10]`
  | .acknowledging => if line.text.length < 10 then some (directives c) else none
  -- the lines that follow are not for the editor
  | .left => some s

end NanoSession

/-! ## What it is about -/

/-- The text typed since it was last wiped, all of it, and the last message. -/
structure Editing where
  mode : NanoMode
  typed : List Char
  status : String

namespace Editing

def start : Editing :=
  { mode := .editing
    typed := []
    status := "System Initialized. Awaiting Input." }

/-- The text with a line behind it, whether there is room for all of it or not. -/
def type (e : Editing) (line : List Char) : Editing :=
  { e with
    typed := e.typed ++ line
    status :=
      if (e.typed ++ line).length ≤ capacity then "Document Modified."
      else "ERROR: Maximum document length reached." }

def acknowledge (e : Editing) (status : String) : Editing :=
  { e with
    mode := .acknowledging
    status := status }

def directive (e : Editing) (line : List Char) : Editing :=
  if line = "return".toList then
    { e with
      mode := .editing
      status := "Returned to editor mode." }
  else if line = "abort".toList then { e with mode := .left }
  else if line = "clear".toList then
    { mode := .acknowledging
      typed := []
      status := "Buffer wiped clean successfully." }
  else if line = "stats".toList then
    e.acknowledge "Total Lines: ACTIVE | Memory: SECURE | Subsystem: ONLINE"
  else if line = "save".toList then e.acknowledge "File saved to VFS (Simulated)."
  else e.acknowledge e.status

/-- One more line; there is room for nine characters of an acknowledgement. -/
def read (e : Editing) (line : TypedLine) : Option Editing :=
  match e.mode with
  | .editing =>
      some (if line.text = "exit".toList then { e with mode := .left }
        else if line.text = "-cmdnanocmd".toList then { e with mode := .directives }
        else if line.text = [] then e
        else e.type line.text)
  | .directives => some (e.directive line.text)
  | .acknowledging =>
      if line.text.length ≤ 9 then some { e with mode := .directives } else none
  | .left => some e

/-- The text as far as there is room for it. -/
def kept (e : Editing) : List Char := e.typed.take capacity

/-- Line `y` of the viewport. -/
def viewportLine (text : List Char) (y : Nat) : List Char :=
  if y * lineCapacity < text.length then
    (text.drop (y * lineCapacity)).take lineCapacity ++ "\n".toList
  else if y = 0 then " \n".toList
  else "~\n".toList

/-- The screen on which the next line is typed: of the text it shows the first 16 lines. -/
def frame (e : Editing) : List Char :=
  NanoContext.nanoRenderHeaderComponent ++ (List.range 16).flatMap (viewportLine e.kept) ++
    NanoContext.statusComponent e.status ++ NanoContext.nanoRenderFooterComponent ++
    "\n[INPUT]> ".toList

end Editing

/-! ## The viewport -/

namespace NanoContext

theorem textOfLines_add (c : NanoContext) (n k : Nat) :
    ∃ rest, c.textOfLines (n + k) = c.textOfLines n ++ rest := by
  induction k with
  | zero => exact ⟨[], (List.append_nil _).symm⟩
  | succ k ih =>
      rcases ih with ⟨rest, hrest⟩
      refine ⟨rest ++ (c.lines (n + k)).text, ?_⟩
      rw [← Nat.add_assoc, textOfLines_succ, hrest, List.append_assoc]

end NanoContext

/-- A terminated line without a NUL in it is printed as it is. -/
theorem NanoTextLine.printed_eq {line : NanoTextLine}
    (hroom : line.occupiedLength < nanoMaxLineLength)
    (hend : line.characterData line.occupiedLength = nul) (htext : IsText line.text) :
    line.printed = line.text := by
  obtain ⟨k, hk⟩ := Nat.exists_eq_add_of_lt hroom
  have hsplit : (List.range nanoMaxLineLength).map line.characterData =
      line.text ++ nul :: (List.range k).map fun i =>
        line.characterData (line.occupiedLength + (i + 1)) := by
    rw [hk, Nat.add_assoc, List.range_add, List.map_append, List.range_succ_eq_map, List.map_cons,
      List.map_cons, Nat.add_zero, hend, List.map_map, List.map_map]
    rfl
  rw [NanoTextLine.printed, hsplit, List.takeWhile_append_of_pos, List.takeWhile_cons_of_neg]
  · exact List.append_nil _
  · simp
  · intro ch hch
    have hne : ch ≠ nul := by
      rintro rfl
      exact htext hch
    simp [hne]

namespace Shows

variable {c : NanoContext} {d : Draft}

/-- The lines cut the text into pieces. -/
theorem line_text (h : Shows c d) {y : Nat} (hy : y ≤ c.globalCursorY) :
    (c.lines y).text = (d.text.drop (y * lineCapacity)).take lineCapacity := by
  have hbefore : (c.textOfLines y).length = y * lineCapacity :=
    NanoContext.length_textOfLines fun i hi => h.full i (Nat.lt_of_lt_of_le hi hy)
  have hlen := NanoTextLine.length_text (c.lines y)
  rcases Nat.lt_or_eq_of_le hy with hlt | rfl
  · obtain ⟨k, hk⟩ := Nat.exists_eq_add_of_lt hlt
    obtain ⟨rest, hrest⟩ := c.textOfLines_add (y + 1) (k + 1)
    have htext : d.text = c.textOfLines y ++ ((c.lines y).text ++ rest) := by
      rw [← h.text, NanoContext.documentText, ← h.last, hk, ← List.append_assoc,
        ← NanoContext.textOfLines_succ, ← hrest]
      congr 1
      omega
    rw [htext, ← hbefore, List.drop_left, List.take_left' (hlen.trans (h.full y hlt))]
  · rw [← h.text, h.documentText_eq, ← hbefore, List.drop_left,
      List.take_of_length_le (hlen.trans_le h.room)]

theorem occupied_pos_iff (h : Shows c d) {y : Nat} (hy : y ≤ c.globalCursorY) :
    0 < (c.lines y).occupiedLength ↔ y * lineCapacity < d.text.length := by
  have hlength := h.length_text
  rcases Nat.lt_or_eq_of_le hy with hlt | rfl
  · have hfull : (c.lines y).occupiedLength = 254 := h.full y hlt
    have hbefore : (y + 1) * 254 ≤ c.globalCursorY * 254 := Nat.mul_le_mul_right 254 hlt
    change d.text.length = c.globalCursorY * 254 + _ at hlength
    change _ ↔ y * 254 < _
    omega
  · omega

/-- Lines of a draft that have been begun are shown in the viewport at the beginning of the text. -/
theorem viewport (h : Shows c d) (hbegun : 0 < c.globalCursorY →
      0 < (c.lines c.globalCursorY).occupiedLength) (htext : IsText d.text)
    (hoffset : c.viewportOffsetY = 0) :
    c.nanoRenderTextViewport = (List.range 16).flatMap (Editing.viewportLine d.text) := by
  have hlast := h.last
  have hsame : ∀ y, (if c.viewportOffsetY + y < c.activeLineCount then
      if (c.lines (c.viewportOffsetY + y)).occupiedLength = 0 then " \n".toList
      else (c.lines (c.viewportOffsetY + y)).printed ++ "\n".toList
      else "~\n".toList) = Editing.viewportLine d.text y := by
    intro y
    rw [hoffset, Nat.zero_add]
    unfold Editing.viewportLine
    by_cases hactive : y < c.activeLineCount
    · have hy : y ≤ c.globalCursorY := by omega
      rw [if_pos hactive]
      by_cases hpos : 0 < (c.lines y).occupiedLength
      · have hlimit : (c.lines y).occupiedLength < nanoMaxLineLength := by
          have hroom : (c.lines y).occupiedLength ≤ lineCapacity := by
            rcases Nat.lt_or_eq_of_le hy with hlt | rfl
            · exact Nat.le_of_eq (h.full y hlt)
            · exact h.room
          exact Nat.lt_of_le_of_lt hroom (by decide)
        have hplain : IsText (c.lines y).text := by
          rw [h.line_text hy]
          exact fun hnul => htext (List.mem_of_mem_drop (List.mem_of_mem_take hnul))
        have hin : y < nanoMaxTotalLines := Nat.lt_of_lt_of_le hactive h.inTable
        rw [if_neg (Nat.ne_of_gt hpos), if_pos ((h.occupied_pos_iff hy).1 hpos),
          NanoTextLine.printed_eq hlimit (h.terminated y hin) hplain, h.line_text hy]
      · -- only the first line can be empty
        have hzero : y = 0 := by
          by_contra hne
          rcases Nat.lt_or_eq_of_le hy with hlt | rfl
          · exact hpos (by rw [h.full y hlt]; decide)
          · exact hpos (hbegun (Nat.pos_of_ne_zero hne))
        rw [if_pos (Nat.eq_zero_of_not_pos hpos), if_neg fun hlt =>
          hpos ((h.occupied_pos_iff hy).2 hlt), if_pos hzero]
    · have hbehind : ¬ y * lineCapacity < d.text.length := by
        have hlength := h.length_text
        have hroom : (c.lines c.globalCursorY).occupiedLength ≤ 254 := h.room
        have hrows : (c.globalCursorY + 1) * 254 ≤ y * 254 := Nat.mul_le_mul_right 254 (by omega)
        change d.text.length = c.globalCursorY * 254 + _ at hlength
        change ¬ y * 254 < _
        omega
      rw [if_neg hactive, if_neg hbehind, if_neg (by omega)]
  exact congrArg (fun f => (List.range 16).flatMap f) (funext hsame)

end Shows

/-! ## Typing -/

/-- The editor shows the text of `e` as far as it goes, and its message. -/
structure Edits (c : NanoContext) (e : Editing) : Prop where
  shows : ∃ d, Shows c d ∧ d.text = e.kept
  begun : 0 < c.globalCursorY → 0 < (c.lines c.globalCursorY).occupiedLength
  plain : IsText e.typed
  viewport : c.viewportOffsetY = 0
  running : c.editorRunningState = if e.mode = .left then 0 else 1
  status : c.statusMessageBuffer = e.status

namespace Shows

variable {c : NanoContext} {d : Draft}

theorem fits (h : Shows c d) (hroom : (c.lines c.globalCursorY).occupiedLength < lineCapacity) :
    d.text.length < capacity := by
  have hlength := h.length_text
  have hrows : (c.globalCursorY + 1) * 254 ≤ 1024 * 254 := Nat.mul_le_mul_right 254 h.cursorY_lt
  change _ < 254 at hroom
  change d.text.length = c.globalCursorY * 254 + _ at hlength
  change _ < 1024 * 254
  omega

end Shows

namespace Editing

/-- What does not fit before does not fit afterwards. -/
theorem kept_type (e : Editing) (line : List Char) :
    (e.type line).kept = (e.kept ++ line).take capacity := by
  change (e.typed ++ line).take capacity = _
  rw [kept, List.take_append, List.take_append, List.take_take, Nat.min_self, List.length_take]
  congr 2
  omega

theorem type_type (e : Editing) (line line' : List Char) :
    (e.type line).type line' = e.type (line ++ line') := by
  simp [type, List.append_assoc]

end Editing

namespace Edits

variable {c : NanoContext} {e : Editing}

theorem insertCharacter (h : Edits c e) {inputChar : Char} (hchar : inputChar ≠ nul) :
    ∃ c', c.nanoInsertCharacterAtCursor inputChar = some c' ∧ Edits c' (e.type [inputChar]) := by
  obtain ⟨d, hshows, htext⟩ := h.shows
  have hlength : d.text.length = min capacity e.typed.length := by
    rw [htext, Editing.kept, List.length_take]
  have hkept : (d.type inputChar).text = (e.type [inputChar]).kept := by
    rw [Editing.kept_type, ← htext]
    exact Draft.text_foldl_type d [inputChar]
  have hplain : IsText (e.type [inputChar]).typed := by
    intro hnul
    rcases List.mem_append.1 hnul with hold | hnew
    · exact h.plain hold
    · exact hchar (List.mem_singleton.1 hnew).symm
  rcases hshows.insertCharacter_cases inputChar with
    ⟨c₁, hshows₁, hroom, hviewport, hrunning, hinsert⟩ | ⟨hfull, hinsert⟩
  · have hfits := hshows₁.fits hroom
    refine ⟨_, hinsert, ⟨⟨_, hshows₁.placed_shows hroom inputChar, hkept⟩, fun _ => ?_, hplain,
      hviewport.trans h.viewport, hrunning.trans h.running, ?_⟩⟩
    · change 0 < ((Shows.placed c₁ inputChar).lines c₁.globalCursorY).occupiedLength
      rw [Shows.placed_lines_self]
      exact Nat.succ_pos _
    · refine (if_pos ?_).symm
      rw [List.length_append, List.length_singleton]
      omega
  · have hsame : d.type inputChar = d := Draft.type_of_full hfull inputChar
    refine ⟨_, hinsert, ⟨⟨d, ?_, hsame ▸ hkept⟩, h.begun, hplain, h.viewport, h.running, ?_⟩⟩
    · exact ⟨hshows.last, hshows.inTable, hshows.atEnd, hshows.full, hshows.room, hshows.unused,
        hshows.terminated, hshows.text⟩
    · refine (if_neg ?_).symm
      rw [List.length_append, List.length_singleton]
      omega

theorem processRawInputStream (h : Edits c e) {line : List Char} (hne : line ≠ [])
    (hline : IsText line) :
    ∃ c', c.nanoProcessRawInputStream line = some c' ∧ Edits c' (e.type line) := by
  induction line generalizing c e with
  | nil => exact absurd rfl hne
  | cons inputChar line ih =>
      have hchar : inputChar ≠ nul := by
        rintro rfl
        exact hline List.mem_cons_self
      rcases h.insertCharacter hchar with ⟨c₁, hinsert, h₁⟩
      rw [NanoContext.nanoProcessRawInputStream, if_neg hchar, hinsert, Option.bind_eq_bind,
        Option.bind_some]
      by_cases hrest : line = []
      · rw [hrest]
        exact ⟨c₁, rfl, h₁⟩
      · rcases ih h₁ hrest fun hnul => hline (List.mem_cons_of_mem _ hnul) with ⟨c₂, hprocess, h₂⟩
        rw [Editing.type_type] at h₂
        exact ⟨c₂, hprocess, h₂⟩

theorem refreshed (h : Edits c e) (hmode : e.mode = .editing) :
    NanoSession.editing c =
      { context := c
        mode := .editing
        printed := e.frame } := by
  obtain ⟨d, hshows, htext⟩ := h.shows
  have hplain : IsText d.text := by
    rw [htext]
    exact fun hnul => h.plain (List.mem_of_mem_take hnul)
  have hrunning : c.editorRunningState = 1 := by
    rw [h.running, hmode]
    rfl
  unfold NanoSession.editing Editing.frame NanoContext.nanoForceDisplayRefresh
    NanoContext.nanoRenderStatusComponent
  rw [if_pos hrunning, hshows.viewport h.begun hplain h.viewport, htext, h.status]

/-- The editor stops when the session is left. -/
theorem stopped (h : Edits c e) :
    Edits { c with editorRunningState := 0 } { e with mode := .left } := by
  obtain ⟨d, hshows, htext⟩ := h.shows
  refine ⟨⟨d, ?_, htext⟩, h.begun, h.plain, h.viewport, rfl, h.status⟩
  exact ⟨hshows.last, hshows.inTable, hshows.atEnd, hshows.full, hshows.room, hshows.unused,
    hshows.terminated, hshows.text⟩

/-- Between two modes in which the editor is running, only the message may change. -/
theorem moved (h : Edits c e) (hmode : e.mode ≠ .left) {mode : NanoMode} (hnew : mode ≠ .left)
    (message : String) :
    Edits (c.nanoSetStatusMessage message)
      { mode := mode
        typed := e.typed
        status := message } := by
  obtain ⟨d, hshows, htext⟩ := h.shows
  refine ⟨⟨d, ?_, htext⟩, h.begun, h.plain, h.viewport, ?_, rfl⟩
  · exact ⟨hshows.last, hshows.inTable, hshows.atEnd, hshows.full, hshows.room, hshows.unused,
      hshows.terminated, hshows.text⟩
  · rw [if_neg hnew]
    exact h.running.trans (if_neg hmode)

/-- The same without a new message. -/
theorem entered (h : Edits c e) (hmode : e.mode ≠ .left) {mode : NanoMode} (hnew : mode ≠ .left) :
    Edits c { e with mode := mode } := by
  obtain ⟨d, hshows, htext⟩ := h.shows
  refine ⟨⟨d, hshows, htext⟩, h.begun, h.plain, h.viewport, ?_, h.status⟩
  rw [if_neg hnew]
  exact h.running.trans (if_neg hmode)

/-- After a wipe there is nothing. -/
theorem wiped (h : Edits c e) (hmode : e.mode ≠ .left) {mode : NanoMode} (hnew : mode ≠ .left) :
    Edits c.nanoSubsystemExecuteClear
      { mode := mode
        typed := []
        status := "Buffer wiped clean successfully." } := by
  refine ⟨⟨_, Shows.executeClear c, rfl⟩, fun hpos => absurd hpos (Nat.lt_irrefl 0), nofun, rfl, ?_,
    rfl⟩
  rw [if_neg hnew]
  exact h.running.trans (if_neg hmode)

theorem hardReset (c : NanoContext) : Edits c.nanoContextHardReset Editing.start :=
  ⟨⟨_, Shows.hardReset c, rfl⟩, fun hpos => absurd hpos (Nat.lt_irrefl 0), nofun, rfl, rfl, rfl⟩

end Edits

/-! ## Sessions -/

/-- The session is where `e` is, with its text, and shows its screen when it waits for text. -/
structure NanoSession.Follows (s : NanoSession) (e : Editing) : Prop where
  mode : s.mode = e.mode
  edits : Edits s.context e
  printed : e.mode = .editing → s.printed = e.frame

namespace NanoSession

variable {s : NanoSession} {c : NanoContext} {e : Editing}

theorem follows_editing (h : Edits c e) (hmode : e.mode = .editing) : (editing c).Follows e := by
  rw [h.refreshed hmode]
  exact ⟨hmode.symm, h, fun _ => rfl⟩

theorem follows_left (h : Edits c e) :
    (editing { c with editorRunningState := 0 }).Follows { e with mode := .left } :=
  ⟨rfl, h.stopped, nofun⟩

theorem isText_of_typedLine (line : TypedLine) : IsText line.text :=
  fun hnul => (line.typable _ hnul).1 rfl

/-- The words are compared as words. -/
theorem strcmp_iff (line : TypedLine) (word : List Char) (hword : IsText word) :
    nanoSysStrcmp line.text word = true ↔ line.text = word :=
  nanoSysStrcmp_iff (isText_of_typedLine line) hword

/-- A line does to the session what it does to `e`. -/
theorem Follows.read (h : s.Follows e) (line : TypedLine) :
    (s.read line = none ∧ e.read line = none) ∨
      ∃ s' e', s.read line = some s' ∧ e.read line = some e' ∧ s'.Follows e' := by
  have hmode := h.mode
  have hedits := h.edits
  unfold NanoSession.read Editing.read
  rw [hmode]
  cases he : e.mode with
  | editing =>
      have hrunning : e.mode ≠ .left := by rw [he]; decide
      refine .inr ?_
      simp only [strcmp_iff line "exit".toList (by decide),
        strcmp_iff line "-cmdnanocmd".toList (by decide)]
      by_cases hexit : line.text = "exit".toList
      · rw [if_pos hexit, if_pos hexit]
        exact ⟨_, _, rfl, rfl, follows_left hedits⟩
      · rw [if_neg hexit, if_neg hexit]
        by_cases hcommand : line.text = "-cmdnanocmd".toList
        · rw [if_pos hcommand, if_pos hcommand]
          exact ⟨_, _, rfl, rfl, rfl, hedits.entered hrunning (by decide), nofun⟩
        · rw [if_neg hcommand, if_neg hcommand]
          by_cases hempty : line.text = []
          · rw [if_neg (by simp [hempty]), if_pos hempty]
            exact ⟨_, _, rfl, rfl, follows_editing hedits he⟩
          · have hhead : line.text.headD nul ≠ nul := by
              rcases List.exists_cons_of_ne_nil hempty with ⟨ch, rest, hcons⟩
              have hfirst : ch ∈ line.text := by simp [hcons]
              rw [hcons]
              exact (line.typable ch hfirst).1
            rcases hedits.processRawInputStream hempty (isText_of_typedLine line) with
              ⟨c', hprocess, hnew⟩
            rw [if_pos hhead, if_neg hempty, hprocess]
            exact ⟨_, _, rfl, rfl, follows_editing hnew he⟩
  | directives =>
      have hrunning : e.mode ≠ .left := by rw [he]; decide
      refine .inr ?_
      simp only [strcmp_iff line "return".toList (by decide),
        strcmp_iff line "abort".toList (by decide),
        strcmp_iff line "clear".toList (by decide),
        strcmp_iff line "stats".toList (by decide),
        strcmp_iff line "save".toList (by decide)]
      unfold Editing.directive
      split_ifs
      · exact ⟨_, _, rfl, rfl, follows_editing (hedits.moved hrunning (by decide) _) rfl⟩
      · exact ⟨_, _, rfl, rfl, follows_left hedits⟩
      · exact ⟨_, _, rfl, rfl, rfl, hedits.wiped hrunning (by decide), nofun⟩
      · exact ⟨_, _, rfl, rfl, rfl, hedits.moved hrunning (by decide) _, nofun⟩
      · exact ⟨_, _, rfl, rfl, rfl, hedits.moved hrunning (by decide) _, nofun⟩
      · exact ⟨_, _, rfl, rfl, rfl, hedits.entered hrunning (by decide), nofun⟩
  | acknowledging =>
      have hrunning : e.mode ≠ .left := by rw [he]; decide
      by_cases hshort : line.text.length ≤ 9
      · simp only [if_pos hshort, if_pos (Nat.lt_succ_of_le hshort)]
        exact .inr ⟨_, _, rfl, rfl, rfl, hedits.entered hrunning (by decide), nofun⟩
      · simp only [if_neg hshort, if_neg fun hlt => hshort (Nat.le_of_lt_succ hlt)]
        exact .inl ⟨trivial, trivial⟩
  | left =>
      exact .inr ⟨_, _, rfl, rfl, h⟩

end NanoSession

/-- Every session is at each line where the text and the words typed so far have brought it, shows
the first lines of the text, and goes on unless an acknowledgement has more than nine characters. -/
theorem session_follows (c : NanoContext) (lines : List TypedLine) :
    (exec NanoSession.read (NanoSession.start c) lines = none ∧
        exec Editing.read Editing.start lines = none) ∨
      ∃ s e, exec NanoSession.read (NanoSession.start c) lines = some s ∧
        exec Editing.read Editing.start lines = some e ∧ s.mode = e.mode ∧
        s.context.documentText = e.kept ∧ (e.mode = .editing → s.printed = e.frame) := by
  have hstart : (NanoSession.start c).Follows Editing.start :=
    NanoSession.follows_editing (Edits.hardReset c) rfl
  generalize NanoSession.start c = s at hstart ⊢
  generalize Editing.start = e at hstart ⊢
  induction lines generalizing s e with
  | nil =>
      obtain ⟨d, hshows, htext⟩ := hstart.edits.shows
      exact .inr ⟨s, e, rfl, rfl, hstart.mode, hshows.text.trans htext, hstart.printed⟩
  | cons line lines ih =>
      rw [exec_cons, exec_cons]
      rcases hstart.read line with ⟨hs, he⟩ | ⟨s', e', hs, he, hfollows⟩
      · rw [hs, he]
        exact .inl ⟨rfl, rfl⟩
      · rw [hs, he]
        exact ih s' e' hfollows

end Nano
end WhitexKernel
