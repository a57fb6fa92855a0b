import Mathlib.Logic.Function.Basic
import WhitexKernel.Lib.Transition
import WhitexKernel.Machine.Word
import WhitexKernel.Shell.Keyboard

/-!
# Nano — the document of the editor (`nano.h`)

A document is a table of text lines with a cursor.  The C code writes into `lines` and
`character_data` without a check of its own, so an index outside one of the two arrays is the
outcome `none` of the functions below; whoever shows that they return shows that no such index
occurs.
-/

namespace WhitexKernel
namespace Nano

open Lib Machine Shell

/-- `NANO_MAX_LINE_LENGTH` -/
abbrev nanoMaxLineLength : Nat := 256

/-- `NANO_MAX_TOTAL_LINES` -/
abbrev nanoMaxTotalLines : Nat := 1024

/-- `nano_text_line_t`, without the index nothing reads. -/
structure NanoTextLine where
  characterData : Nat → Char
  occupiedLength : Nat

/-- `nano_global_context_t`; the status buffer is the string in it. -/
structure NanoContext where
  lines : Nat → NanoTextLine
  activeLineCount : Nat
  globalCursorX : Nat
  globalCursorY : Nat
  viewportOffsetY : Nat
  documentModifiedFlag : Nat
  editorRunningState : Nat
  statusMessageBuffer : String

/-! ## Strings -/

/-- Where one of the strings ends, the two last characters are compared, a NUL among them. -/
def nanoSysStrcmp : List Char → List Char → Bool
  | c :: stringAlpha, d :: stringBeta =>
      if c ≠ d then false else nanoSysStrcmp stringAlpha stringBeta
  | stringAlpha, stringBeta => decide (stringAlpha.headD nul = stringBeta.headD nul)

/-! ## Lines -/

namespace NanoTextLine

/-- A line in zeroed memory. -/
def zero : NanoTextLine :=
  { characterData := fun _ => nul
    occupiedLength := 0 }

/-- `character_data[i] = c` -/
def write (line : NanoTextLine) (i : Nat) (c : Char) : Option NanoTextLine :=
  if i < nanoMaxLineLength then
    some { line with characterData := Function.update line.characterData i c }
  else none

/-- The loop that moves the characters from `xPos` on one place to the right, the last one first. -/
def shiftRight (line : NanoTextLine) (xPos : Nat) : Option NanoTextLine :=
  (List.range (line.occupiedLength - xPos)).foldlM
    (fun shifted k =>
      let i := line.occupiedLength - k
      shifted.write i (shifted.characterData (i - 1))) line

end NanoTextLine

/-! ## The editor -/

namespace NanoContext

/-- `nano_sys_memzero(&core_editor_env.lines, …)` -/
def zeroLines (c : NanoContext) : NanoContext :=
  { c with
    lines := fun i => if i < nanoMaxTotalLines then NanoTextLine.zero else c.lines i }

def nanoSetStatusMessage (c : NanoContext) (message : String) : NanoContext :=
  { c with statusMessageBuffer := message }

def nanoContextHardReset (c : NanoContext) : NanoContext :=
  { c.zeroLines with
    activeLineCount := 1
    globalCursorX := 0
    globalCursorY := 0
    viewportOffsetY := 0
    documentModifiedFlag := 0
    editorRunningState := 1
    statusMessageBuffer := "System Initialized. Awaiting Input." }

def nanoSubsystemExecuteClear (c : NanoContext) : NanoContext :=
  nanoSetStatusMessage
    { c.zeroLines with
      activeLineCount := 1
      globalCursorX := 0
      globalCursorY := 0
      viewportOffsetY := 0 } "Buffer wiped clean successfully."

/-- The cursor moves to a new line behind the current one. -/
def breakLine (c : NanoContext) : NanoContext :=
  { c with
    globalCursorY := wrap32 (c.globalCursorY + 1)
    globalCursorX := 0
    activeLineCount := wrap32 (c.activeLineCount + 1) }

/-- The part of `nano_insert_character_at_cursor` that works on `target_line`. -/
def placeCharacter (c : NanoContext) (inputChar : Char) : Option NanoContext :=
  if c.globalCursorY < nanoMaxTotalLines then do
    let xPos := c.globalCursorX
    let line ← (c.lines c.globalCursorY).shiftRight xPos
    let line ← line.write xPos inputChar
    let line := { line with occupiedLength := wrap32 (line.occupiedLength + 1) }
    let line ← line.write line.occupiedLength nul
    some (nanoSetStatusMessage
      { c with
        lines := Function.update c.lines c.globalCursorY line
        globalCursorX := wrap32 (c.globalCursorX + 1)
        documentModifiedFlag := 1 } "Document Modified.")
  else none

def nanoInsertCharacterAtCursor (c : NanoContext) (inputChar : Char) : Option NanoContext :=
  if c.globalCursorY ≥ nanoMaxTotalLines then some c
  else if (c.lines c.globalCursorY).occupiedLength ≥ nanoMaxLineLength - 2 then
    if c.activeLineCount < nanoMaxTotalLines then c.breakLine.placeCharacter inputChar
    else some (c.nanoSetStatusMessage "ERROR: Maximum document length reached.")
  else c.placeCharacter inputChar

/-- The buffer is given by its characters; the loop stops at the first `nul`, or behind the last
character given. -/
def nanoProcessRawInputStream : NanoContext → List Char → Option NanoContext
  | c, [] => some c
  | c, inputChar :: streamBuffer =>
      if inputChar = nul then some c
      else do
        let c ← c.nanoInsertCharacterAtCursor inputChar
        nanoProcessRawInputStream c streamBuffer

end NanoContext

/-! ## The system -/

inductive NanoAction
  | processRawInputStream (streamBuffer : List Char)
  | executeClear

/-- A call returns unless it uses an index outside the arrays. -/
def NanoContext.step (c : NanoContext) : NanoAction → Option NanoContext
  | .processRawInputStream streamBuffer => c.nanoProcessRawInputStream streamBuffer
  | .executeClear => some c.nanoSubsystemExecuteClear

end Nano
end WhitexKernel
