import Mathlib.Logic.Function.Basic
import Mathlib.Data.List.GetD

/-!
# Keyboard — typed lines (`keyboard.h`)

`keyboard_handler` takes one scancode; `scan` feeds it scancodes until Enter has been pressed, and
copies the line out.  A string is the list of its characters before the terminating NUL.

* `scan_typedLine` — what `scan` returns is at most 254 characters, each of them on a key;
* `exists_scan` — every such line can be typed.
-/

namespace WhitexKernel
namespace Shell

/-! ## Key tables -/

def nul : Char := Char.ofNat 0

/-- `27` in the tables. -/
def escape : Char := Char.ofNat 27

/-- `kbd_us`; what is behind the last entry is zero. -/
def kbdUs : List Char :=
  [nul, escape, '1', '2', '3', '4', '5', '6', '7', '8', '9', '0', '-', '=', nul,
    '\t', 'q', 'w', 'e', 'r', 't', 'y', 'u', 'i', 'o', 'p', '[', ']', '\n',
    nul, 'a', 's', 'd', 'f', 'g', 'h', 'j', 'k', 'l', ';', '\'', '`', nul,
    '\\', 'z', 'x', 'c', 'v', 'b', 'n', 'm', ',', '.', '/', nul, '*', nul, ' ',
    nul, nul, nul, nul, nul, nul, nul, nul, nul, nul, nul, nul, nul, nul, nul, nul,
    '7', '8', '9', '-', '4', '5', '6', '+', '1', '2', '3', '0', '.']

/-- `kbd_us_shift` -/
def kbdUsShift : List Char :=
  [nul, escape, '!', '@', '#', '$', '%', '^', '&', '*', '(', ')', '_', '+', nul,
    '\t', 'Q', 'W', 'E', 'R', 'T', 'Y', 'U', 'I', 'O', 'P', '{', '}', '\n',
    nul, 'A', 'S', 'D', 'F', 'G', 'H', 'J', 'K', 'L', ':', '"', '~', nul,
    '|', 'Z', 'X', 'C', 'V', 'B', 'N', 'M', '<', '>', '?', nul, '*', nul, ' ',
    nul, nul, nul, nul, nul, nul, nul, nul, nul, nul, nul, nul, nul, nul, nul, nul,
    '7', '8', '9', '-', '4', '5', '6', '+', '1', '2', '3', '0', '.']

/-- The character a key stands for. -/
def keyChar (shiftPressed capsLock : Bool) (scancode : Nat) : Char :=
  let shifted := kbdUsShift.getD scancode nul
  if (shiftPressed ^^ capsLock) ∧ 'A' ≤ shifted ∧ shifted ≤ 'Z' then shifted
  else if shiftPressed then shifted
  else kbdUs.getD scancode nul

/-! ## The handler -/

/-- What the handler shows on the screen. -/
inductive TerminalCall
  | putchar (c : Char)
  | backspace
  deriving DecidableEq, Repr

/-- The keyboard's globals; `terminal` is the history of calls to the screen, which nothing reads. -/
structure KeyboardState where
  shiftPressed : Bool
  capsLock : Bool
  isExtended : Bool
  inputBuffer : Nat → Char
  bufferIdx : Nat
  inputComplete : Bool
  terminal : List TerminalCall

namespace KeyboardState

/-- The keyboard's globals in zeroed static storage. -/
def zero : KeyboardState :=
  { shiftPressed := false
    capsLock := false
    isExtended := false
    inputBuffer := fun _ => nul
    bufferIdx := 0
    inputComplete := false
    terminal := [] }

/-- `input_buffer[buffer_idx++] = c; putchar(c)` -/
def append (s : KeyboardState) (c : Char) : KeyboardState :=
  { s with
    inputBuffer := Function.update s.inputBuffer s.bufferIdx c
    bufferIdx := s.bufferIdx + 1
    terminal := s.terminal ++ [.putchar c] }

end KeyboardState

def keyboardHandler (scancode : UInt8) (s : KeyboardState) : KeyboardState :=
  if scancode = 0xE0 then { s with isExtended := true }
  else if scancode &&& 0x80 ≠ 0 then
    let released := scancode &&& 0x7F
    { s with
      shiftPressed := if released = 0x2A ∨ released = 0x36 then false else s.shiftPressed
      isExtended := false }
  else if scancode = 0x2A ∨ scancode = 0x36 then { s with shiftPressed := true }
  else if scancode = 0x3A then { s with capsLock := !s.capsLock }
  -- the arrow keys get no action of their own
  else if s.isExtended then { s with isExtended := false }
  else if scancode = 0x0E then
    if s.bufferIdx > 0 then
      { s with
        bufferIdx := s.bufferIdx - 1
        inputBuffer := Function.update s.inputBuffer (s.bufferIdx - 1) nul
        terminal := s.terminal ++ [.backspace] }
    else s
  else if scancode = 0x1C then
    { s with
      inputBuffer := Function.update s.inputBuffer s.bufferIdx nul
      inputComplete := true
      terminal := s.terminal ++ [.putchar '\n'] }
  else if scancode < 128 then
    let c := keyChar s.shiftPressed s.capsLock scancode.toNat
    if c ≠ nul ∧ s.bufferIdx < 254 then s.append c else s
  else s

/-- The loop of `scan` on the scancodes to come; `none` if they end before Enter. -/
def scanLoop : List UInt8 → KeyboardState → Option (KeyboardState × List UInt8)
  | [], s => if s.inputComplete then some (s, []) else none
  | code :: codes, s =>
      if s.inputComplete then some (s, code :: codes) else scanLoop codes (keyboardHandler code s)

/-- The copy loop of `scan` over `input_buffer`. -/
def copiedLine (inputBuffer : Nat → Char) : List Char :=
  ((List.range 256).map inputBuffer).takeWhile (· ≠ nul)

def scanStart (s : KeyboardState) : KeyboardState :=
  { s with bufferIdx := 0, inputComplete := false, inputBuffer := fun _ => nul }

/-- The line typed, the state after it and the scancodes not yet read. -/
def scan (codes : List UInt8) (s : KeyboardState) :
    Option (List Char × KeyboardState × List UInt8) :=
  (scanLoop codes (scanStart s)).map fun r => (copiedLine r.1.inputBuffer, r)

/-! ## Typed lines -/

/-- The scancodes of keys that have an action of their own: Backspace, Enter, Shift and Caps Lock. -/
def actionKeys : List Nat := [0x0E, 0x1C, 0x2A, 0x36, 0x3A]

/-- `c` is on a key. -/
def Typable (c : Char) : Prop :=
  c ≠ nul ∧ ∃ code < 0x80, code ∉ actionKeys ∧
    (c = kbdUs.getD code nul ∨ c = kbdUsShift.getD code nul)

instance (c : Char) : Decidable (Typable c) :=
  inferInstanceAs (Decidable (c ≠ nul ∧ ∃ code < 0x80, code ∉ actionKeys ∧
    (c = kbdUs.getD code nul ∨ c = kbdUsShift.getD code nul)))

/-- Every character of `text` is on a key. -/
def OnKeys (text : List Char) : Prop := ∀ c ∈ text, Typable c

instance (text : List Char) : Decidable (OnKeys text) := List.decidableBAll Typable text

/-- A line as `scan` returns it. -/
structure TypedLine where
  text : List Char
  length_le : text.length ≤ 254
  typable : OnKeys text

/-! ## What a scancode does to the line -/

theorem keyChar_mem (shiftPressed capsLock : Bool) (code : Nat) :
    keyChar shiftPressed capsLock code = kbdUs.getD code nul ∨
      keyChar shiftPressed capsLock code = kbdUsShift.getD code nul := by
  unfold keyChar
  dsimp only
  split
  · exact .inr rfl
  · split
    · exact .inr rfl
    · exact .inl rfl

theorem not_mem_actionKeys {scancode : UInt8} (hback : scancode ≠ 0x0E) (henter : scancode ≠ 0x1C)
    (hleft : scancode ≠ 0x2A) (hright : scancode ≠ 0x36) (hcaps : scancode ≠ 0x3A) :
    scancode.toNat ∉ actionKeys := by
  simp only [ne_eq, ← UInt8.toNat_inj] at hback henter hleft hright hcaps
  simp only [UInt8.reduceToNat] at hback henter hleft hright hcaps
  simp [actionKeys, hback, henter, hleft, hright, hcaps]

theorem typable_keyChar {scancode : UInt8} {shiftPressed capsLock : Bool} (hlt : scancode < 128)
    (haction : scancode.toNat ∉ actionKeys)
    (hc : keyChar shiftPressed capsLock scancode.toNat ≠ nul) :
    Typable (keyChar shiftPressed capsLock scancode.toNat) :=
  ⟨hc, scancode.toNat, by simpa [UInt8.lt_iff_toNat_lt] using hlt, haction, keyChar_mem _ _ _⟩

/-- A code that appends a character: the make code of a key with a symbol, not of an extended key,
while the line has room. -/
structure Types (s : KeyboardState) (code : UInt8) : Prop where
  plain : s.isExtended = false
  make : code < 128
  key : code.toNat ∉ actionKeys
  symbol : kbdUs.getD code.toNat nul ≠ nul
  room : s.bufferIdx < 254

/-- A key has two symbols or none. -/
theorem keyChar_ne_nul (shiftPressed capsLock : Bool) {code : UInt8} (hmake : code < 128) :
    keyChar shiftPressed capsLock code.toNat ≠ nul ↔ kbdUs.getD code.toNat nul ≠ nul := by
  have htable : ∀ code < 128, ∀ shiftPressed capsLock : Bool,
      keyChar shiftPressed capsLock code ≠ nul ↔ kbdUs.getD code nul ≠ nul := by
    decide +kernel
  exact htable code.toNat hmake shiftPressed capsLock

/-- The code is no prefix and no release, and its key is neither Shift nor Caps Lock. -/
structure OtherKey (code : UInt8) : Prop where
  extend : code ≠ 0xE0
  make : ¬ code &&& 0x80 ≠ 0
  shift : ¬(code = 0x2A ∨ code = 0x36)
  caps : code ≠ 0x3A

/-- The branches of the handler, in order, with what they do. -/
inductive HandlerBranch (code : UInt8) (s : KeyboardState) : KeyboardState → Prop
  | extended (h : code = 0xE0) : HandlerBranch code s { s with isExtended := true }
  | released (hextend : code ≠ 0xE0) (h : code &&& 0x80 ≠ 0) :
      HandlerBranch code s
        { s with
          shiftPressed := if code &&& 0x7F = 0x2A ∨ code &&& 0x7F = 0x36 then false
            else s.shiftPressed
          isExtended := false }
  | shift (h : code = 0x2A ∨ code = 0x36) : HandlerBranch code s { s with shiftPressed := true }
  | caps (h : code = 0x3A) : HandlerBranch code s { s with capsLock := !s.capsLock }
  | extendedKey (hkey : OtherKey code) (hextended : s.isExtended = true) :
      HandlerBranch code s { s with isExtended := false }
  | erased (hkey : OtherKey code) (hplain : s.isExtended = false) (hpos : s.bufferIdx > 0) :
      HandlerBranch code s
        { s with
          bufferIdx := s.bufferIdx - 1
          inputBuffer := Function.update s.inputBuffer (s.bufferIdx - 1) nul
          terminal := s.terminal ++ [.backspace] }
  | entered (hkey : OtherKey code) (hplain : s.isExtended = false) :
      HandlerBranch code s
        { s with
          inputBuffer := Function.update s.inputBuffer s.bufferIdx nul
          inputComplete := true
          terminal := s.terminal ++ [.putchar '\n'] }
  | typed (hkey : OtherKey code) (h : Types s code) :
      HandlerBranch code s (s.append (keyChar s.shiftPressed s.capsLock code.toNat))
  | kept (hkey : OtherKey code) (hplain : s.isExtended = false) (h : ¬ Types s code) :
      HandlerBranch code s s

theorem keyboardHandler_branch (code : UInt8) (s : KeyboardState) :
    HandlerBranch code s (keyboardHandler code s) := by
  unfold keyboardHandler
  by_cases hextend : code = 0xE0
  · rw [if_pos hextend]
    exact .extended hextend
  rw [if_neg hextend]
  by_cases hbreak : code &&& 0x80 ≠ 0
  · rw [if_pos hbreak]
    exact .released hextend hbreak
  rw [if_neg hbreak]
  by_cases hshift : code = 0x2A ∨ code = 0x36
  · rw [if_pos hshift]
    exact .shift hshift
  rw [if_neg hshift]
  by_cases hcaps : code = 0x3A
  · rw [if_pos hcaps]
    exact .caps hcaps
  rw [if_neg hcaps]
  -- from here on the code is a key that is pressed and no modifier
  have hkey : OtherKey code := ⟨hextend, hbreak, hshift, hcaps⟩
  by_cases hextended : s.isExtended = true
  · rw [if_pos hextended]
    exact .extendedKey hkey hextended
  rw [if_neg hextended]
  have hplain : s.isExtended = false := by simpa using hextended
  by_cases hback : code = 0x0E
  · rw [if_pos hback]
    -- a backspace in an empty line does nothing
    by_cases hpos : s.bufferIdx > 0
    · rw [if_pos hpos]
      exact .erased hkey hplain hpos
    · rw [if_neg hpos]
      refine .kept hkey hplain fun h => h.key ?_
      rw [hback]
      decide
  rw [if_neg hback]
  by_cases henter : code = 0x1C
  · rw [if_pos henter]
    exact .entered hkey hplain
  rw [if_neg henter]
  -- no key that acts is left: the rest put down their symbol, if they have one
  have haction : code.toNat ∉ actionKeys :=
    not_mem_actionKeys hback henter (fun h => hshift (.inl h)) (fun h => hshift (.inr h)) hcaps
  by_cases hlt : code < 128
  · rw [if_pos hlt]
    have hsymbol := keyChar_ne_nul s.shiftPressed s.capsLock hlt
    by_cases hc : keyChar s.shiftPressed s.capsLock code.toNat ≠ nul ∧ s.bufferIdx < 254
    · rw [if_pos hc]
      exact .typed hkey ⟨hplain, hlt, haction, hsymbol.1 hc.1, hc.2⟩
    · rw [if_neg hc]
      exact .kept hkey hplain fun h => hc ⟨hsymbol.2 h.symbol, h.room⟩
  · rw [if_neg hlt]
    exact .kept hkey hplain fun h => hlt h.make

/-- What a scancode does: nothing that is seen, or it takes a character back, ends the line, or puts a
character on a key behind it, and shows it. -/
inductive Stroke (s t : KeyboardState) : Prop
  | quiet (buffer : t.inputBuffer = s.inputBuffer) (idx : t.bufferIdx = s.bufferIdx)
      (complete : t.inputComplete = s.inputComplete) (terminal : t.terminal = s.terminal)
  | erased (pos : 0 < s.bufferIdx)
      (buffer : t.inputBuffer = Function.update s.inputBuffer (s.bufferIdx - 1) nul)
      (idx : t.bufferIdx = s.bufferIdx - 1) (complete : t.inputComplete = s.inputComplete)
      (terminal : t.terminal = s.terminal ++ [.backspace])
  | ended (buffer : t.inputBuffer = Function.update s.inputBuffer s.bufferIdx nul)
      (idx : t.bufferIdx = s.bufferIdx) (complete : t.inputComplete = true)
      (terminal : t.terminal = s.terminal ++ [.putchar '\n'])
  | appended (c : Char) (typable : Typable c) (room : s.bufferIdx < 254) (eq : t = s.append c)

/-- Only the branches for keys that are no modifiers touch the line. -/
theorem keyboardHandler_stroke (scancode : UInt8) (s : KeyboardState) :
    Stroke s (keyboardHandler scancode s) := by
  have hbranch := keyboardHandler_branch scancode s
  generalize keyboardHandler scancode s = t at hbranch ⊢
  cases hbranch with
  | extended h => exact .quiet rfl rfl rfl rfl
  | released hextend h => exact .quiet rfl rfl rfl rfl
  | shift h => exact .quiet rfl rfl rfl rfl
  | caps h => exact .quiet rfl rfl rfl rfl
  | extendedKey hkey hextended => exact .quiet rfl rfl rfl rfl
  | erased hkey hplain hpos => exact .erased hpos rfl rfl rfl rfl
  | entered hkey hplain => exact .ended rfl rfl rfl rfl
  | typed hkey h =>
      have hsymbol := (keyChar_ne_nul s.shiftPressed s.capsLock h.make).2 h.symbol
      exact .appended _ (typable_keyChar h.make h.key hsymbol) h.room rfl
  | kept hkey hplain h => exact .quiet rfl rfl rfl rfl

/-- The line is left alone, shortened, ended, or a character on a key is put behind it. -/
inductive LineChange (s t : KeyboardState) : Prop
  | none (buffer : t.inputBuffer = s.inputBuffer) (idx : t.bufferIdx = s.bufferIdx)
      (complete : t.inputComplete = s.inputComplete)
  | erased (pos : 0 < s.bufferIdx)
      (buffer : t.inputBuffer = Function.update s.inputBuffer (s.bufferIdx - 1) nul)
      (idx : t.bufferIdx = s.bufferIdx - 1) (complete : t.inputComplete = s.inputComplete)
  | ended (buffer : t.inputBuffer = Function.update s.inputBuffer s.bufferIdx nul)
      (idx : t.bufferIdx = s.bufferIdx) (complete : t.inputComplete = true)
  | appended (c : Char) (typable : Typable c) (room : s.bufferIdx < 254) (eq : t = s.append c)

theorem keyboardHandler_lineChange (scancode : UInt8) (s : KeyboardState) :
    LineChange s (keyboardHandler scancode s) := by
  cases keyboardHandler_stroke scancode s with
  | quiet buffer idx complete terminal => exact .none buffer idx complete
  | erased pos buffer idx complete terminal => exact .erased pos buffer idx complete
  | ended buffer idx complete terminal => exact .ended buffer idx complete
  | appended c typable room eq => exact .appended c typable room eq

/-! ## What `scan` returns -/

/-- The line as far as it has been typed. -/
structure Filling (s : KeyboardState) : Prop where
  bufferIdx_le : s.bufferIdx ≤ 254
  typable : ∀ i < s.bufferIdx, Typable (s.inputBuffer i)
  terminated : s.inputComplete = true → s.inputBuffer s.bufferIdx = nul

namespace Filling

variable {s t : KeyboardState}

theorem scanStart (s : KeyboardState) : Filling (scanStart s) := by
  refine ⟨Nat.zero_le _, ?_, ?_⟩
  · intro i hi
    exact absurd hi (Nat.not_lt_zero i)
  · intro _
    rfl

theorem lineChange (h : Filling s) (hopen : s.inputComplete = false) (hchange : LineChange s t) :
    Filling t := by
  cases hchange with
  | none buffer idx complete =>
      refine ⟨by simpa [idx] using h.bufferIdx_le, ?_, ?_⟩
      · simpa [buffer, idx] using h.typable
      · simp [complete, hopen]
  | erased pos buffer idx complete =>
      refine ⟨?_, ?_, ?_⟩
      · have hle := h.bufferIdx_le
        omega
      · intro i hi
        have hlt : i < s.bufferIdx - 1 := by simpa [idx] using hi
        rw [buffer, Function.update_of_ne (Nat.ne_of_lt hlt)]
        exact h.typable i (by omega)
      · simp [complete, hopen]
  | ended buffer idx complete =>
      refine ⟨by simpa [idx] using h.bufferIdx_le, ?_, ?_⟩
      · intro i hi
        have hlt : i < s.bufferIdx := by simpa [idx] using hi
        rw [buffer, Function.update_of_ne (Nat.ne_of_lt hlt)]
        exact h.typable i hlt
      · intro _
        simp [buffer, idx]
  | appended c typable room eq =>
      subst eq
      refine ⟨room, ?_, ?_⟩
      · intro i hi
        -- either the new character, or one of those before it
        rcases Nat.lt_succ_iff_lt_or_eq.1 hi with hlt | rfl
        · simpa [KeyboardState.append, Function.update_of_ne (Nat.ne_of_lt hlt)] using
            h.typable i hlt
        · simpa [KeyboardState.append] using typable
      · simp [KeyboardState.append, hopen]

/-- The line that is copied out. -/
theorem copiedLine_eq (h : Filling s) (hdone : s.inputComplete = true) :
    copiedLine s.inputBuffer = (List.range s.bufferIdx).map s.inputBuffer := by
  have hle := h.bufferIdx_le
  have hsplit : 256 = s.bufferIdx + ((255 - s.bufferIdx) + 1) := by omega
  unfold copiedLine
  rw [hsplit, List.range_add, List.map_append, List.takeWhile_append_of_pos]
  · -- the terminating NUL comes right behind the line
    rw [List.range_succ_eq_map]
    simp [h.terminated hdone]
  · intro c hc
    rcases List.mem_map.1 hc with ⟨i, hi, rfl⟩
    simpa using (h.typable i (List.mem_range.1 hi)).1

end Filling

theorem scanLoop_filling {codes rest : List UInt8} {s t : KeyboardState} (h : Filling s)
    (hscan : scanLoop codes s = some (t, rest)) : Filling t ∧ t.inputComplete = true := by
  induction codes generalizing s with
  | nil =>
      unfold scanLoop at hscan
      split at hscan
      case isTrue hdone =>
        cases hscan
        exact ⟨h, hdone⟩
      case isFalse => cases hscan
  | cons code codes ih =>
      unfold scanLoop at hscan
      split at hscan
      case isTrue hdone =>
        cases hscan
        exact ⟨h, hdone⟩
      case isFalse hopen =>
        have hkept : Filling (keyboardHandler code s) :=
          h.lineChange (by simpa using hopen) (keyboardHandler_lineChange code s)
        exact ih hkept hscan

/-- Whatever is typed, `scan` returns at most 254 characters, all of them on keys. -/
theorem scan_typedLine {codes rest : List UInt8} {s t : KeyboardState} {text : List Char}
    (hscan : scan codes s = some (text, t, rest)) : ∃ line : TypedLine, line.text = text := by
  unfold scan at hscan
  rcases Option.map_eq_some_iff.1 hscan with ⟨⟨u, more⟩, hloop, heq⟩
  cases heq
  rcases scanLoop_filling (Filling.scanStart s) hloop with ⟨hfilling, hdone⟩
  have hline := hfilling.copiedLine_eq hdone
  refine ⟨⟨copiedLine t.inputBuffer, ?_, ?_⟩, rfl⟩
  · simpa [hline] using hfilling.bufferIdx_le
  · intro c hc
    rw [hline] at hc
    rcases List.mem_map.1 hc with ⟨i, hi, rfl⟩
    exact hfilling.typable i (List.mem_range.1 hi)

/-! ## Every line can be typed -/

/-- No modifier is on, and no line is complete. -/
structure Idle (s : KeyboardState) : Prop where
  shiftPressed : s.shiftPressed = false
  capsLock : s.capsLock = false
  isExtended : s.isExtended = false
  inputComplete : s.inputComplete = false

theorem Idle.append {s : KeyboardState} (h : Idle s) (c : Char) : Idle (s.append c) :=
  ⟨h.shiftPressed, h.capsLock, h.isExtended, h.inputComplete⟩

theorem ofNat_masked : ∀ code < 0x80, UInt8.ofNat code &&& 0x80 = 0 := by
  decide

/-- A code that types appends the symbol that the flags select. -/
theorem keyboardHandler_types {s : KeyboardState} {code : UInt8} (h : Types s code) :
    keyboardHandler code s = s.append (keyChar s.shiftPressed s.capsLock code.toNat) := by
  have hextend : code ≠ 0xE0 := by
    rintro rfl
    exact absurd h.make (by decide)
  have hbreak : ¬ code &&& 0x80 ≠ 0 := by
    have hlow := ofNat_masked code.toNat h.make
    simpa using hlow
  have hother : ∀ key ∈ actionKeys, code ≠ UInt8.ofNat key := by
    rintro key hkey rfl
    refine h.key ?_
    have hkeys : ∀ key ∈ actionKeys, (UInt8.ofNat key).toNat = key := by decide
    rwa [hkeys key hkey]
  have hshift : ¬(code = 0x2A ∨ code = 0x36) :=
    not_or.2 ⟨hother 0x2A (by decide), hother 0x36 (by decide)⟩
  have hcaps : code ≠ 0x3A := hother 0x3A (by decide)
  have hback : code ≠ 0x0E := hother 0x0E (by decide)
  have henter : code ≠ 0x1C := hother 0x1C (by decide)
  unfold keyboardHandler
  rw [if_neg hextend, if_neg hbreak, if_neg hshift, if_neg hcaps, if_neg (by simp [h.plain]),
    if_neg hback, if_neg henter, if_pos h.make]
  exact if_pos ⟨(keyChar_ne_nul _ _ h.make).2 h.symbol, h.room⟩

/-- A key that has no action of its own. -/
theorem keyboardHandler_plain {code : Nat} {s : KeyboardState} (hcode : code < 0x80)
    (hplain : code ∉ actionKeys) (hext : s.isExtended = false) (hroom : s.bufferIdx < 254)
    (hc : keyChar s.shiftPressed s.capsLock code ≠ nul) :
    keyboardHandler (UInt8.ofNat code) s = s.append (keyChar s.shiftPressed s.capsLock code) := by
  have htoNat : (UInt8.ofNat code).toNat = code := by
    simpa using Nat.mod_eq_of_lt (show code < 256 by omega)
  have hlt : UInt8.ofNat code < 128 := by
    simpa [UInt8.lt_iff_toNat_lt, htoNat] using hcode
  have htypes : Types s (UInt8.ofNat code) :=
    { plain := hext
      make := hlt
      key := by rwa [htoNat]
      symbol := (keyChar_ne_nul s.shiftPressed s.capsLock hlt).1 (by rwa [htoNat])
      room := hroom }
  have happend := keyboardHandler_types htypes
  rwa [htoNat] at happend

theorem keyChar_plain (code : Nat) : keyChar false false code = kbdUs.getD code nul := by
  simp [keyChar]

theorem keyChar_shift (code : Nat) : keyChar true false code = kbdUsShift.getD code nul := by
  simp [keyChar]

theorem scanLoop_cons {s : KeyboardState} (hopen : s.inputComplete = false) (code : UInt8)
    (codes : List UInt8) : scanLoop (code :: codes) s = scanLoop codes (keyboardHandler code s) := by
  simp [scanLoop, hopen]

namespace KeyboardState

/-- The state with Shift held down. -/
def withShift (s : KeyboardState) : KeyboardState := { s with shiftPressed := true }

end KeyboardState

theorem keyboardHandler_shiftDown (s : KeyboardState) : keyboardHandler 0x2A s = s.withShift := by
  have hmake : (0x2A : UInt8) &&& 0x80 = 0 := by decide
  simp [keyboardHandler, hmake, KeyboardState.withShift]

/-- Letting go of Shift takes back what pressing it did. -/
theorem keyboardHandler_shiftUp {s : KeyboardState} (h : Idle s) (c : Char) :
    keyboardHandler 0xAA (s.withShift.append c) = s.append c := by
  have hbreak : (0xAA : UInt8) &&& 0x80 ≠ 0 := by decide
  have hreleased : (0xAA : UInt8) &&& 0x7F = 0x2A := by decide
  simp [keyboardHandler, hbreak, hreleased, KeyboardState.withShift, KeyboardState.append,
    h.shiftPressed, h.isExtended]

/-- The strokes for one character: its key, if need be with Shift held down. -/
theorem exists_strokes {c : Char} (hc : Typable c) :
    ∃ strokes : List UInt8, ∀ (s : KeyboardState) (rest : List UInt8), Idle s →
      s.bufferIdx < 254 → scanLoop (strokes ++ rest) s = scanLoop rest (s.append c) := by
  rcases hc with ⟨hnul, code, hcode, hplain, rfl | rfl⟩
  · refine ⟨[UInt8.ofNat code], fun s rest hidle hroom => ?_⟩
    have hchar : keyChar s.shiftPressed s.capsLock code = kbdUs.getD code nul := by
      rw [hidle.shiftPressed, hidle.capsLock, keyChar_plain]
    have hkey : keyboardHandler (UInt8.ofNat code) s = s.append (kbdUs.getD code nul) := by
      simpa only [hchar] using keyboardHandler_plain hcode hplain hidle.isExtended hroom
        (by simpa only [hchar] using hnul)
    calc scanLoop ([UInt8.ofNat code] ++ rest) s
        = scanLoop rest (keyboardHandler (UInt8.ofNat code) s) :=
          scanLoop_cons hidle.inputComplete _ _
      _ = scanLoop rest (s.append (kbdUs.getD code nul)) := by rw [hkey]
  · -- Shift down, the key, Shift up
    refine ⟨[0x2A, UInt8.ofNat code, 0xAA], fun s rest hidle hroom => ?_⟩
    have hchar : keyChar s.withShift.shiftPressed s.withShift.capsLock code =
        kbdUsShift.getD code nul := by
      simpa [KeyboardState.withShift, hidle.capsLock] using keyChar_shift code
    have hkey : keyboardHandler (UInt8.ofNat code) s.withShift =
        s.withShift.append (kbdUsShift.getD code nul) := by
      simpa only [hchar] using keyboardHandler_plain (s := s.withShift) hcode hplain
        hidle.isExtended hroom (by simpa only [hchar] using hnul)
    have hopen : s.withShift.inputComplete = false := hidle.inputComplete
    calc scanLoop ([0x2A, UInt8.ofNat code, 0xAA] ++ rest) s
        = scanLoop (UInt8.ofNat code :: 0xAA :: rest) s.withShift := by
          rw [← keyboardHandler_shiftDown]
          exact scanLoop_cons hidle.inputComplete _ _
      _ = scanLoop (0xAA :: rest) (s.withShift.append (kbdUsShift.getD code nul)) := by
          rw [← hkey]
          exact scanLoop_cons hopen _ _
      _ = scanLoop rest (s.append (kbdUsShift.getD code nul)) := by
          rw [← keyboardHandler_shiftUp hidle]
          exact scanLoop_cons (s := s.withShift.append _) hidle.inputComplete _ _

namespace KeyboardState

/-- `s` with a text behind the line. -/
def appendText (s : KeyboardState) (text : List Char) : KeyboardState := text.foldl append s

end KeyboardState

theorem Idle.appendText {s : KeyboardState} (h : Idle s) (text : List Char) :
    Idle (s.appendText text) := by
  induction text generalizing s with
  | nil => exact h
  | cons c text ih => exact ih (h.append c)

/-- The strokes for a whole text. -/
theorem exists_strokes_text {text : List Char} (htext : OnKeys text) :
    ∃ strokes : List UInt8, ∀ (s : KeyboardState) (rest : List UInt8), Idle s →
      s.bufferIdx + text.length ≤ 254 →
      scanLoop (strokes ++ rest) s = scanLoop rest (s.appendText text) := by
  induction text with
  | nil => exact ⟨[], fun s rest _ _ => rfl⟩
  | cons c text ih =>
      rcases ih fun d hd => htext d (List.mem_cons_of_mem c hd) with ⟨later, hlater⟩
      rcases exists_strokes (htext c (by simp)) with ⟨first, hfirst⟩
      refine ⟨first ++ later, fun s rest hidle hroom => ?_⟩
      have hlength : s.bufferIdx + (text.length + 1) ≤ 254 := by simpa using hroom
      have hnext : (s.append c).bufferIdx = s.bufferIdx + 1 := rfl
      calc scanLoop (first ++ later ++ rest) s
          = scanLoop (first ++ (later ++ rest)) s := by rw [List.append_assoc]
        _ = scanLoop (later ++ rest) (s.append c) := hfirst s _ hidle (by omega)
        _ = scanLoop rest ((s.append c).appendText text) :=
          hlater _ rest (hidle.append c) (by omega)

theorem appendText_buffer {s : KeyboardState} {text : List Char} :
    (List.range (s.appendText text).bufferIdx).map (s.appendText text).inputBuffer =
      (List.range s.bufferIdx).map s.inputBuffer ++ text := by
  induction text generalizing s with
  | nil => simp [KeyboardState.appendText]
  | cons c text ih =>
      have hkept : (List.range s.bufferIdx).map (s.append c).inputBuffer =
          (List.range s.bufferIdx).map s.inputBuffer := by
        refine List.map_congr_left fun i hi => ?_
        exact Function.update_of_ne (Nat.ne_of_lt (List.mem_range.1 hi)) _ _
      have hlast : (s.append c).inputBuffer s.bufferIdx = c := Function.update_self _ _ _
      calc (List.range ((s.append c).appendText text).bufferIdx).map
            ((s.append c).appendText text).inputBuffer
          = (List.range (s.bufferIdx + 1)).map (s.append c).inputBuffer ++ text := ih
        _ = (List.range s.bufferIdx).map s.inputBuffer ++ c :: text := by
          rw [List.range_succ, List.map_append, hkept]
          simp [hlast]

theorem keyboardHandler_enter {s : KeyboardState} (hext : s.isExtended = false) :
    (keyboardHandler 0x1C s).inputComplete = true ∧
      (keyboardHandler 0x1C s).bufferIdx = s.bufferIdx ∧
      (keyboardHandler 0x1C s).inputBuffer = Function.update s.inputBuffer s.bufferIdx nul := by
  have hmake : (0x1C : UInt8) &&& 0x80 = 0 := by decide
  refine ⟨?_, ?_, ?_⟩ <;> simp [keyboardHandler, hmake, hext]

/-- Every line of keys is the answer to some strokes. -/
theorem exists_scan (line : TypedLine) {s : KeyboardState} (hshift : s.shiftPressed = false)
    (hcaps : s.capsLock = false) (hext : s.isExtended = false) :
    ∃ codes t, scan codes s = some (line.text, t, []) := by
  rcases exists_strokes_text line.typable with ⟨strokes, hstrokes⟩
  have hidle : Idle (scanStart s) := ⟨hshift, hcaps, hext, rfl⟩
  have htyped : Idle ((scanStart s).appendText line.text) := hidle.appendText line.text
  rcases keyboardHandler_enter htyped.isExtended with ⟨hdone, hidx, hbuffer⟩
  -- the line is ended by Enter
  have hloop : scanLoop (strokes ++ [0x1C]) (scanStart s) =
      some (keyboardHandler 0x1C ((scanStart s).appendText line.text), []) := by
    rw [hstrokes (scanStart s) [0x1C] hidle (by simpa [scanStart] using line.length_le),
      scanLoop_cons htyped.inputComplete]
    simp [scanLoop, hdone]
  have hfilling := (scanLoop_filling (Filling.scanStart s) hloop).1
  refine ⟨strokes ++ [0x1C], keyboardHandler 0x1C ((scanStart s).appendText line.text), ?_⟩
  have htext : copiedLine (keyboardHandler 0x1C ((scanStart s).appendText line.text)).inputBuffer =
      line.text := by
    rw [hfilling.copiedLine_eq hdone, hidx, hbuffer]
    calc (List.range ((scanStart s).appendText line.text).bufferIdx).map
          (Function.update ((scanStart s).appendText line.text).inputBuffer
            ((scanStart s).appendText line.text).bufferIdx nul)
        = (List.range ((scanStart s).appendText line.text).bufferIdx).map
            ((scanStart s).appendText line.text).inputBuffer := by
          refine List.map_congr_left fun i hi => ?_
          exact Function.update_of_ne (Nat.ne_of_lt (List.mem_range.1 hi)) _ _
      _ = [] ++ line.text := appendText_buffer
  simp [scan, hloop, htext]

end Shell
end WhitexKernel
