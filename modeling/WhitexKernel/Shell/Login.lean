import Mathlib.Data.Option.Basic
import Mathlib.Tactic.SplitIfs
import WhitexKernel.Lib.Transition
import WhitexKernel.Shell.Keyboard

/-!
# Login — the password reader, and the buffers lines are read into (`login.h`)

`scan_password` is a reader of its own beside `scan`.  It shows a star for every character, and it
knows no extended keys.

* `neverOverruns_iff` — the buffers that no line overruns;
* `readAlike_iff` — the streams of scancodes that both readers read alike.
-/

namespace WhitexKernel
namespace Shell

open Lib

namespace KeyboardState

/-- `input_buffer[buffer_idx++] = c; putchar('*')` -/
def appendHidden (s : KeyboardState) (c : Char) : KeyboardState :=
  { s.append c with terminal := s.terminal ++ [.putchar '*'] }

end KeyboardState

/-- What a scancode does to the line in the loop of `scan_password`. -/
def passwordEdit (scancode : UInt8) (s : KeyboardState) : KeyboardState :=
  if scancode = 0x1C then
    { s with
      inputBuffer := Function.update s.inputBuffer s.bufferIdx nul
      inputComplete := true
      terminal := s.terminal ++ [.putchar '\n'] }
  else if scancode = 0x0E then
    if s.bufferIdx > 0 then
      { s with
        bufferIdx := s.bufferIdx - 1
        inputBuffer := Function.update s.inputBuffer (s.bufferIdx - 1) nul
        terminal := s.terminal ++ [.backspace] }
    else s
  else if scancode &&& 0x80 = 0 ∧ scancode < 128 ∧ scancode ≠ 0x2A ∧ scancode ≠ 0x36 ∧
      scancode ≠ 0x3A then
    let c := keyChar s.shiftPressed s.capsLock scancode.toNat
    if c ≠ nul ∧ s.bufferIdx < 254 then s.appendHidden c else s
  else s

/-- What it does to the modifiers, after that. -/
def passwordModifiers (scancode : UInt8) (s : KeyboardState) : KeyboardState :=
  let s := if scancode = 0x2A ∨ scancode = 0x36 then { s with shiftPressed := true } else s
  let s :=
    if scancode &&& 0x80 ≠ 0 ∧ (scancode &&& 0x7F = 0x2A ∨ scancode &&& 0x7F = 0x36) then
      { s with shiftPressed := false }
    else s
  if scancode = 0x3A then { s with capsLock := !s.capsLock } else s

/-- A scancode in the loop of `scan_password`. -/
def passwordKey (scancode : UInt8) (s : KeyboardState) : KeyboardState :=
  passwordModifiers scancode (passwordEdit scancode s)

/-! ## Readers -/

/-- The functions that read a line. -/
inductive LineReader
  | scan
  | scanPassword
  deriving DecidableEq, Repr

namespace LineReader

/-- The body of the reader's loop. -/
def key : LineReader → UInt8 → KeyboardState → KeyboardState
  | .scan => keyboardHandler
  | .scanPassword => passwordKey

/-- The loop on the scancodes to come; `none` if they end before Enter. -/
def loop (r : LineReader) : List UInt8 → KeyboardState → Option (KeyboardState × List UInt8)
  | [], s => if s.inputComplete then some (s, []) else none
  | code :: codes, s =>
      if s.inputComplete then some (s, code :: codes) else r.loop codes (r.key code s)

/-- The line read, the state after it and the scancodes not yet read. -/
def read (r : LineReader) (codes : List UInt8) (s : KeyboardState) :
    Option (List Char × KeyboardState × List UInt8) :=
  (r.loop codes (scanStart s)).map fun r => (copiedLine r.1.inputBuffer, r)

theorem loop_scan (codes : List UInt8) (s : KeyboardState) :
    LineReader.scan.loop codes s = scanLoop codes s := by
  induction codes generalizing s with
  | nil => rfl
  | cons code codes ih =>
      unfold loop scanLoop
      rw [ih]
      rfl

theorem read_scan (codes : List UInt8) (s : KeyboardState) :
    LineReader.scan.read codes s = Shell.scan codes s := by
  unfold read Shell.scan
  rw [loop_scan]

end LineReader

/-- `scan_password` -/
def scanPassword (codes : List UInt8) (s : KeyboardState) :
    Option (List Char × KeyboardState × List UInt8) :=
  LineReader.scanPassword.read codes s

/-! ## What a key does to the line -/

theorem passwordModifiers_line (scancode : UInt8) (s : KeyboardState) :
    (passwordModifiers scancode s).inputBuffer = s.inputBuffer ∧
      (passwordModifiers scancode s).bufferIdx = s.bufferIdx ∧
      (passwordModifiers scancode s).inputComplete = s.inputComplete := by
  unfold passwordModifiers
  simp only
  split_ifs <;> exact ⟨rfl, rfl, rfl⟩

theorem passwordEdit_lineChange (scancode : UInt8) (s : KeyboardState) :
    ∃ terminal, LineChange s { passwordEdit scancode s with terminal := terminal } := by
  unfold passwordEdit
  split
  case isTrue => exact ⟨s.terminal, .ended rfl rfl rfl⟩
  case isFalse henter =>
    split
    case isTrue =>
      split
      case isTrue hpos => exact ⟨s.terminal, .erased hpos rfl rfl rfl⟩
      case isFalse => exact ⟨s.terminal, .none rfl rfl rfl⟩
    case isFalse hback =>
      split
      case isTrue hplain =>
        simp only
        split
        case isTrue hc =>
          obtain ⟨_, hlt, hleft, hright, hcaps⟩ := hplain
          have haction : scancode.toNat ∉ actionKeys :=
            not_mem_actionKeys hback henter hleft hright hcaps
          -- `scan` would show the character itself
          exact ⟨s.terminal ++ [.putchar (keyChar s.shiftPressed s.capsLock scancode.toNat)],
            .appended _ (typable_keyChar hlt haction hc.1) hc.2 rfl⟩
        case isFalse => exact ⟨s.terminal, .none rfl rfl rfl⟩
      case isFalse => exact ⟨s.terminal, .none rfl rfl rfl⟩

/-- Apart from what is shown, both readers change the line in the same ways. -/
theorem LineReader.key_lineChange (r : LineReader) (scancode : UInt8) (s : KeyboardState) :
    ∃ t, LineChange s t ∧ (r.key scancode s).inputBuffer = t.inputBuffer ∧
      (r.key scancode s).bufferIdx = t.bufferIdx ∧
      (r.key scancode s).inputComplete = t.inputComplete := by
  cases r with
  | scan => exact ⟨_, keyboardHandler_lineChange scancode s, rfl, rfl, rfl⟩
  | scanPassword =>
      obtain ⟨terminal, hchange⟩ := passwordEdit_lineChange scancode s
      exact ⟨_, hchange, passwordModifiers_line scancode (passwordEdit scancode s)⟩

theorem Filling.key {s : KeyboardState} (h : Filling s) (hopen : s.inputComplete = false)
    (r : LineReader) (scancode : UInt8) : Filling (r.key scancode s) := by
  obtain ⟨t, hchange, hbuffer, hidx, hcomplete⟩ := r.key_lineChange scancode s
  have ht : Filling t := h.lineChange hopen hchange
  exact
    { bufferIdx_le := by rw [hidx]; exact ht.bufferIdx_le
      typable := by rw [hbuffer, hidx]; exact ht.typable
      terminated := by rw [hbuffer, hidx, hcomplete]; exact ht.terminated }

theorem LineReader.loop_filling (r : LineReader) {codes rest : List UInt8} {s t : KeyboardState}
    (h : Filling s) (hloop : r.loop codes s = some (t, rest)) :
    Filling t ∧ t.inputComplete = true := by
  induction codes generalizing s with
  | nil =>
      unfold loop at hloop
      split at hloop
      case isTrue hdone =>
        cases hloop
        exact ⟨h, hdone⟩
      case isFalse => cases hloop
  | cons code codes ih =>
      unfold loop at hloop
      split at hloop
      case isTrue hdone =>
        cases hloop
        exact ⟨h, hdone⟩
      case isFalse hopen => exact ih (h.key (by simpa using hopen) r code) hloop

/-- The length of the line read. -/
theorem LineReader.read_length (r : LineReader) {codes rest : List UInt8} {s t : KeyboardState}
    {line : List Char} (h : r.read codes s = some (line, t, rest)) :
    line.length = t.bufferIdx ∧ t.bufferIdx ≤ 254 := by
  obtain ⟨⟨u, more⟩, hloop, heq⟩ := Option.map_eq_some_iff.1 h
  cases heq
  obtain ⟨hfilling, hdone⟩ := r.loop_filling (Filling.scanStart s) hloop
  refine ⟨?_, hfilling.bufferIdx_le⟩
  rw [hfilling.copiedLine_eq hdone, List.length_map, List.length_range]

/-! ## Buffers -/

/-- What the copy loop of a reader stores in its caller's buffer. -/
def copiedOut (line : List Char) : List Char := line ++ [nul]

/-- The capacities of the buffers that lines are read into: of `login`; of `mkdir`, `cd`, `touch`,
`rm`, `whitex_touch`, `whitex_rm` and `fsshell`; of `shellfs`; of `notepad`; of the editor's
acknowledgements and of its commands; of the shell, `sudo` and `htop`. -/
def callerCapacities : List Nat := [64, 32, 16, 128, 10, 512, 256]

/-- Shift is released, and the key with the digit 1 pressed so many times before Enter. -/
def digits (n : Nat) : List UInt8 := 0xAA :: (List.replicate n 0x02 ++ [0x1C])

/-- No modifier or prefix is pending that would change what a digit key does. -/
structure LineReader.Unshifted (r : LineReader) (s : KeyboardState) : Prop where
  shiftPressed : s.shiftPressed = false
  isExtended : r = .scan → s.isExtended = false
  inputComplete : s.inputComplete = false

theorem keyChar_digit (capsLock : Bool) : keyChar false capsLock 2 = '1' := by
  cases capsLock <;> decide

theorem LineReader.key_digit (r : LineReader) {s : KeyboardState} (h : r.Unshifted s)
    (hroom : s.bufferIdx < 254) :
    r.Unshifted (r.key 0x02 s) ∧ (r.key 0x02 s).bufferIdx = s.bufferIdx + 1 := by
  obtain ⟨hshift, hext, hopen⟩ := h
  have hchar : keyChar s.shiftPressed s.capsLock 2 = '1' := by rw [hshift, keyChar_digit]
  have hnul : ¬ ('1' : Char) = nul := by decide
  have hmask : (0x02 : UInt8) &&& 0x80 = 0 := by decide
  cases r with
  | scan =>
      have hkey : keyboardHandler 0x02 s = s.append '1' := by
        simp [keyboardHandler, hext rfl, hmask, hchar, hnul, hroom]
      change LineReader.scan.Unshifted (keyboardHandler 0x02 s) ∧ (keyboardHandler 0x02 s).bufferIdx = _
      rw [hkey]
      exact ⟨⟨hshift, hext, hopen⟩, rfl⟩
  | scanPassword =>
      have hkey : passwordKey 0x02 s = s.appendHidden '1' := by
        simp [passwordKey, passwordEdit, passwordModifiers, hmask, hchar, hnul, hroom]
      change LineReader.scanPassword.Unshifted (passwordKey 0x02 s) ∧ (passwordKey 0x02 s).bufferIdx = _
      rw [hkey]
      exact ⟨⟨hshift, hext, hopen⟩, rfl⟩

theorem LineReader.key_enter (r : LineReader) {s : KeyboardState} (h : r.Unshifted s) :
    (r.key 0x1C s).inputComplete = true ∧ (r.key 0x1C s).bufferIdx = s.bufferIdx := by
  have hmask : (0x1C : UInt8) &&& 0x80 = 0 := by decide
  cases r with
  | scan =>
      change (keyboardHandler 0x1C s).inputComplete = true ∧ (keyboardHandler 0x1C s).bufferIdx = _
      simp [keyboardHandler, h.isExtended rfl, hmask]
  | scanPassword =>
      change (passwordKey 0x1C s).inputComplete = true ∧ (passwordKey 0x1C s).bufferIdx = _
      simp [passwordKey, passwordEdit, passwordModifiers, hmask]

theorem LineReader.loop_digits (r : LineReader) {s : KeyboardState} (h : r.Unshifted s) {n : Nat}
    (hroom : s.bufferIdx + n ≤ 254) :
    ∃ t, r.loop (List.replicate n 0x02 ++ [0x1C]) s = some (t, []) ∧ t.bufferIdx = s.bufferIdx + n := by
  induction n generalizing s with
  | zero =>
      obtain ⟨hdone, hidx⟩ := r.key_enter h
      refine ⟨r.key 0x1C s, ?_, hidx⟩
      simp [LineReader.loop, h.inputComplete, hdone]
  | succ n ih =>
      obtain ⟨hnext, hidx⟩ := r.key_digit h (by omega)
      obtain ⟨t, hloop, ht⟩ := ih hnext (by omega)
      refine ⟨t, ?_, by omega⟩
      rw [List.replicate_succ, List.cons_append, LineReader.loop, if_neg (by simp [h.inputComplete])]
      exact hloop

/-- Whatever modifiers are on, 254 digits can be typed. -/
theorem LineReader.read_digits (r : LineReader) (s : KeyboardState) :
    ∃ line t, r.read (digits 254) s = some (line, t, []) ∧ line.length = 254 := by
  have hstart : r.Unshifted (r.key 0xAA (scanStart s)) ∧ (r.key 0xAA (scanStart s)).bufferIdx = 0 := by
    cases r with
    | scan => exact ⟨⟨rfl, fun _ => rfl, rfl⟩, rfl⟩
    | scanPassword => exact ⟨⟨rfl, fun heq => LineReader.noConfusion heq, rfl⟩, rfl⟩
  obtain ⟨t, hloop, hidx⟩ := r.loop_digits hstart.1 (n := 254) (by omega)
  have hread : r.read (digits 254) s = some (copiedLine t.inputBuffer, t, []) := by
    unfold read digits
    rw [LineReader.loop, if_neg (by simp [scanStart]), hloop]
    rfl
  refine ⟨_, _, hread, ?_⟩
  have hlength := (r.read_length hread).1
  omega

/-- A buffer is never overrun, whatever is typed into it, exactly when it has 255 bytes. -/
theorem neverOverruns_iff (r : LineReader) (s : KeyboardState) (capacity : Nat) :
    (∀ codes line t rest, r.read codes s = some (line, t, rest) →
      (copiedOut line).length ≤ capacity) ↔ 255 ≤ capacity := by
  constructor
  · intro h
    obtain ⟨line, t, hread, hlength⟩ := r.read_digits s
    have hfits := h _ _ _ _ hread
    rw [copiedOut, List.length_append, hlength] at hfits
    exact hfits
  · intro hcapacity codes line t rest hread
    obtain ⟨hlength, hle⟩ := r.read_length hread
    rw [copiedOut, List.length_append, hlength]
    exact Nat.le_trans (Nat.succ_le_succ hle) hcapacity

/-- Ten digits, typed where the editor waits for a key. -/
theorem neverOverruns_false :
    ¬ ∀ (r : LineReader) (s : KeyboardState), ∀ capacity ∈ callerCapacities,
      ∀ codes line t rest, r.read codes s = some (line, t, rest) →
        (copiedOut line).length ≤ capacity := by
  intro h
  have hfits := h .scan KeyboardState.zero 10 (by decide) (digits 10) _ _ _ rfl
  exact absurd hfits (by decide)

/-! ## Two readers of one stream -/

/-- The keyboards agree on the line and the modifiers. -/
structure InStep (s t : KeyboardState) : Prop where
  shiftPressed : s.shiftPressed = t.shiftPressed
  capsLock : s.capsLock = t.capsLock
  inputBuffer : s.inputBuffer = t.inputBuffer
  bufferIdx : s.bufferIdx = t.bufferIdx
  inputComplete : s.inputComplete = t.inputComplete

/-- The scancode, taken for a key without prefix, would end the line or change it. -/
def EditsLine (scancode : UInt8) (s : KeyboardState) : Prop :=
  scancode = 0x1C ∨ (scancode = 0x0E ∧ 0 < s.bufferIdx) ∨
    (scancode &&& 0x80 = 0 ∧ scancode.toNat ∉ actionKeys ∧
      keyChar s.shiftPressed s.capsLock scancode.toNat ≠ nul ∧ s.bufferIdx < 254)

/-- A press of a key that is no modifier. -/
def PlainPress (scancode : UInt8) : Prop :=
  scancode &&& 0x80 = 0 ∧ scancode ≠ 0x2A ∧ scancode ≠ 0x36 ∧ scancode ≠ 0x3A

theorem EditsLine.plainPress {scancode : UInt8} {s : KeyboardState} (h : EditsLine scancode s) :
    PlainPress scancode := by
  unfold PlainPress
  rcases h with rfl | ⟨rfl, _⟩ | ⟨hpress, haction, _⟩
  · decide
  · decide
  · refine ⟨hpress, ?_, ?_, ?_⟩ <;>
    · rintro rfl
      exact haction (by decide)

theorem lt_of_press {scancode : UInt8} (h : scancode &&& 0x80 = 0) : scancode < 128 := by
  have hall : ∀ code < 256, UInt8.ofNat code &&& 0x80 = 0 → UInt8.ofNat code < 128 := by
    decide +kernel
  have hcode := hall scancode.toNat scancode.toNat_lt
  rw [UInt8.ofNat_toNat] at hcode
  exact hcode h

theorem passwordKey_plainPress {scancode : UInt8} (h : PlainPress scancode) (s : KeyboardState) :
    passwordKey scancode s = passwordEdit scancode s := by
  obtain ⟨hpress, hleft, hright, hcaps⟩ := h
  simp [passwordKey, passwordModifiers, hpress, hleft, hright, hcaps]

/-- A press of a plain key without prefix: both readers do the same. -/
theorem inStep_plain {scancode : UInt8} {s t : KeyboardState} (h : InStep s t)
    (hplain : PlainPress scancode) (hext : s.isExtended = false) :
    InStep (keyboardHandler scancode s) (passwordEdit scancode t) := by
  obtain ⟨hpress, hleft, hright, hcaps⟩ := hplain
  obtain ⟨hshift, hlock, hbuffer, hidx, hcomplete⟩ := h
  have hlt := lt_of_press hpress
  have hescape : ¬ scancode = 0xE0 := by
    rintro rfl
    exact absurd hpress (by decide)
  have hpos : ¬ (s.isExtended = true) := by simp [hext]
  unfold keyboardHandler passwordEdit
  rw [if_neg hescape, if_neg (fun hne => hne hpress), if_neg (fun hor => hor.elim hleft hright),
    if_neg hcaps, if_neg hpos]
  by_cases henter : scancode = 0x1C
  · -- Enter ends both lines
    rw [if_neg (by rw [henter]; decide), if_pos henter, if_pos henter]
    exact ⟨hshift, hlock, by rw [hbuffer, hidx], hidx, rfl⟩
  · rw [if_neg henter, if_neg henter]
    by_cases hback : scancode = 0x0E
    · -- Backspace takes the last character off both lines
      rw [if_pos hback, if_pos hback, ← hidx]
      split
      case isTrue => exact ⟨hshift, hlock, by rw [hbuffer], rfl, hcomplete⟩
      case isFalse => exact ⟨hshift, hlock, hbuffer, hidx, hcomplete⟩
    · -- any other key puts the same character behind both lines
      have hkey : scancode &&& 0x80 = 0 ∧ scancode < 128 ∧ scancode ≠ 0x2A ∧ scancode ≠ 0x36 ∧
        scancode ≠ 0x3A := ⟨hpress, hlt, hleft, hright, hcaps⟩
      rw [if_neg hback, if_neg hback, if_pos hlt, if_pos hkey, ← hshift, ← hlock, ← hidx]
      by_cases hc : keyChar s.shiftPressed s.capsLock scancode.toNat ≠ nul ∧ s.bufferIdx < 254
      · simp only [if_pos hc]
        refine ⟨hshift, hlock, ?_, congrArg (· + 1) hidx, hcomplete⟩
        change Function.update s.inputBuffer s.bufferIdx _ = Function.update t.inputBuffer _ _
        rw [hbuffer, hidx]
      · simp only [if_neg hc]
        exact ⟨hshift, hlock, hbuffer, hidx, hcomplete⟩

/-- A press of a plain key behind the prefix: `scan` takes no notice of it. -/
theorem inStep_extended_iff {scancode : UInt8} {s t : KeyboardState} (h : InStep s t)
    (hopen : s.inputComplete = false) (hplain : PlainPress scancode) :
    InStep { s with isExtended := false } (passwordEdit scancode t) ↔ ¬ EditsLine scancode s := by
  obtain ⟨hpress, hleft, hright, hcaps⟩ := hplain
  have hlt := lt_of_press hpress
  unfold passwordEdit EditsLine
  -- the three ways in which the key would edit the line without the prefix
  by_cases henter : scancode = 0x1C
  · rw [if_pos henter]
    refine iff_of_false (fun hstep => ?_) (fun hnot => hnot (.inl henter))
    have hdone : s.inputComplete = true := hstep.inputComplete
    rw [hopen] at hdone
    cases hdone
  · rw [if_neg henter]
    by_cases hback : scancode = 0x0E
    · rw [if_pos hback, ← h.bufferIdx]
      split
      case isTrue hpos =>
        refine iff_of_false (fun hstep => ?_) (fun hnot => hnot (.inr (.inl ⟨hback, hpos⟩)))
        have hidx : s.bufferIdx = s.bufferIdx - 1 := hstep.bufferIdx
        omega
      case isFalse hempty =>
        refine iff_of_true ⟨h.shiftPressed, h.capsLock, h.inputBuffer, h.bufferIdx,
          h.inputComplete⟩ ?_
        rintro (heq | ⟨_, hpos⟩ | ⟨_, haction, _⟩)
        · exact henter heq
        · exact hempty hpos
        · exact haction (by rw [hback]; decide)
    · have haction : scancode.toNat ∉ actionKeys :=
        not_mem_actionKeys hback henter hleft hright hcaps
      rw [if_neg hback, if_pos ⟨hpress, hlt, hleft, hright, hcaps⟩, ← h.shiftPressed, ← h.capsLock,
        ← h.bufferIdx]
      simp only
      split
      case isTrue hc =>
        refine iff_of_false (fun hstep => ?_) (fun hnot => hnot (.inr (.inr ⟨hpress, haction, hc⟩)))
        have hidx : s.bufferIdx = t.bufferIdx + 1 := hstep.bufferIdx
        have hsame := h.bufferIdx
        omega
      case isFalse hc =>
        refine iff_of_true ⟨h.shiftPressed, h.capsLock, h.inputBuffer, h.bufferIdx,
          h.inputComplete⟩ ?_
        rintro (heq | ⟨heq, _⟩ | ⟨_, _, hchar⟩)
        · exact henter heq
        · exact hback heq
        · exact hc hchar

/-- Releases, prefixes and modifiers leave the line alone, and do the same to the modifiers. -/
theorem inStep_other {scancode : UInt8} {s t : KeyboardState} (h : InStep s t)
    (hother : ¬ PlainPress scancode) :
    InStep (keyboardHandler scancode s) (passwordKey scancode t) := by
  obtain ⟨hshift, hlock, hbuffer, hidx, hcomplete⟩ := h
  have henter : ¬ scancode = 0x1C := by
    rintro rfl
    exact hother (by unfold PlainPress; decide)
  have hback : ¬ scancode = 0x0E := by
    rintro rfl
    exact hother (by unfold PlainPress; decide)
  have hedit : passwordEdit scancode t = t := by
    unfold passwordEdit
    rw [if_neg henter, if_neg hback, if_neg]
    rintro ⟨hpress, _, hmodifiers⟩
    exact hother ⟨hpress, hmodifiers⟩
  unfold passwordKey
  rw [hedit]
  by_cases hpress : scancode &&& 0x80 = 0
  · -- a modifier goes down
    have hescape : ¬ scancode = 0xE0 := by
      rintro rfl
      exact absurd hpress (by decide)
    unfold keyboardHandler passwordModifiers
    rw [if_neg hescape, if_neg (fun hne => hne hpress)]
    simp only [hpress, ne_eq, not_true_eq_false, false_and, if_false]
    by_cases hshifts : scancode = 0x2A ∨ scancode = 0x36
    · have hcaps : ¬ scancode = 0x3A := by
        rintro rfl
        exact absurd hshifts (by decide)
      rw [if_pos hshifts, if_pos hshifts, if_neg hcaps]
      exact ⟨rfl, hlock, hbuffer, hidx, hcomplete⟩
    · have hcaps : scancode = 0x3A := by
        apply Classical.byContradiction
        intro hcaps
        exact hother ⟨hpress, fun hleft => hshifts (.inl hleft), fun hright => hshifts (.inr hright),
          hcaps⟩
      rw [if_neg hshifts, if_neg hshifts, if_pos hcaps, if_pos hcaps]
      exact ⟨hshift, congrArg (fun lock => !lock) hlock, hbuffer, hidx, hcomplete⟩
  · -- a release, or the prefix
    have hcaps : ¬ scancode = 0x3A := by
      rintro rfl
      exact hpress (by decide)
    have hdown : ¬ (scancode = 0x2A ∨ scancode = 0x36) := by
      rintro (rfl | rfl) <;> exact hpress (by decide)
    unfold passwordModifiers
    simp only [hpress, hdown, hcaps, ne_eq, not_false_eq_true, true_and, if_false]
    by_cases hescape : scancode = 0xE0
    · have hreleased : ¬ (scancode &&& 0x7F = 0x2A ∨ scancode &&& 0x7F = 0x36) := by
        rw [hescape]
        decide
      unfold keyboardHandler
      rw [if_pos hescape, if_neg hreleased]
      exact ⟨hshift, hlock, hbuffer, hidx, hcomplete⟩
    · unfold keyboardHandler
      rw [if_neg hescape, if_pos hpress]
      simp only
      split
      case isTrue => exact ⟨rfl, hlock, hbuffer, hidx, hcomplete⟩
      case isFalse => exact ⟨hshift, hlock, hbuffer, hidx, hcomplete⟩

theorem inStep_key_iff {s t : KeyboardState} (h : InStep s t) (hopen : s.inputComplete = false)
    (scancode : UInt8) :
    InStep (keyboardHandler scancode s) (passwordKey scancode t) ↔
      ¬ (s.isExtended = true ∧ EditsLine scancode s) := by
  by_cases hplain : PlainPress scancode
  · rw [passwordKey_plainPress hplain]
    cases hext : s.isExtended with
    | false => exact iff_of_true (inStep_plain h hplain hext) (fun hacts => Bool.noConfusion hacts.1)
    | true =>
        have hhandler : keyboardHandler scancode s = { s with isExtended := false } := by
          obtain ⟨hpress, hleft, hright, hcaps⟩ := hplain
          have hescape : ¬ scancode = 0xE0 := by
            rintro rfl
            exact absurd hpress (by decide)
          simp [keyboardHandler, hescape, hpress, hleft, hright, hcaps, hext]
        rw [hhandler, inStep_extended_iff h hopen hplain]
        simp
  · exact iff_of_true (inStep_other h hplain) fun hacts => hplain hacts.2.plainPress

/-- Both readers at once, until one of them has read its line. -/
def bothKeys (p : KeyboardState × KeyboardState) (scancode : UInt8) :
    Option (KeyboardState × KeyboardState) :=
  if p.1.inputComplete ∨ p.2.inputComplete then none
  else some (keyboardHandler scancode p.1, passwordKey scancode p.2)

/-- They have read the same line at the same Enter, and leave the modifiers in the same state. -/
def SameReading (a b : List Char × KeyboardState × List UInt8) : Prop :=
  a.1 = b.1 ∧ a.2.2 = b.2.2 ∧ a.2.1.shiftPressed = b.2.1.shiftPressed ∧
    a.2.1.capsLock = b.2.1.capsLock

/-- `scan` and `scan_password` agree on a stream after each of its scancodes, and in what they
return. -/
def ReadAlike (codes : List UInt8) (s : KeyboardState) : Prop :=
  AllStates bothKeys (fun p => InStep p.1 p.2) (scanStart s, scanStart s) codes ∧
    Option.Rel SameReading (scan codes s) (scanPassword codes s)

/-- The scancode is not a key behind the prefix that would edit the line without it. -/
def NoExtendedEdit (p : KeyboardState × KeyboardState) (scancode : UInt8) : Prop :=
  ¬ (p.1.isExtended = true ∧ EditsLine scancode p.1)

/-- Readers that stay in step return the same. -/
theorem loop_inStep {codes : List UInt8} {s t : KeyboardState}
    (h : AllStates bothKeys (fun p => InStep p.1 p.2) (s, t) codes) :
    Option.Rel (fun a b => InStep a.1 b.1 ∧ a.2 = b.2) (scanLoop codes s)
      (LineReader.scanPassword.loop codes t) := by
  induction codes generalizing s t with
  | nil =>
      have hstep : InStep s t := h
      unfold scanLoop LineReader.loop
      rw [← hstep.inputComplete]
      split
      case isTrue => exact .some ⟨hstep, rfl⟩
      case isFalse => exact .none
  | cons code codes ih =>
      have hstep : InStep s t := h.1
      unfold scanLoop LineReader.loop
      rw [← hstep.inputComplete]
      split
      case isTrue => exact .some ⟨hstep, rfl⟩
      case isFalse hopen =>
        refine ih (h.2 _ ?_)
        exact if_neg (by simp [← hstep.inputComplete, hopen])

/-- Both readers read a stream alike exactly when no key behind the prefix `0xE0` would edit the
line without it. -/
theorem readAlike_iff (codes : List UInt8) (s : KeyboardState) :
    ReadAlike codes s ↔ AllSteps bothKeys NoExtendedEdit (scanStart s, scanStart s) codes := by
  -- the two lines stay equal as long as every key does the same to both
  have hrun : AllStates bothKeys (fun p => InStep p.1 p.2) (scanStart s, scanStart s) codes ↔
      AllSteps bothKeys NoExtendedEdit (scanStart s, scanStart s) codes := by
    refine allStates_iff_allSteps (J := fun _ => True) (fun _ _ _ _ _ => trivial) ?_ trivial
      ⟨rfl, rfl, rfl, rfl, rfl⟩
    intro p scancode q _ hp hq
    unfold bothKeys at hq
    split at hq
    case isTrue => cases hq
    case isFalse hopen =>
      cases hq
      exact inStep_key_iff hp (by simpa using fun hdone => hopen (.inl hdone)) scancode
  refine ⟨fun h => hrun.1 h.1, fun h => ⟨hrun.2 h, ?_⟩⟩
  have hloops := loop_inStep (hrun.2 h)
  unfold scan scanPassword LineReader.read
  generalize scanLoop codes (scanStart s) = first at hloops
  generalize LineReader.scanPassword.loop codes (scanStart s) = second at hloops
  cases hloops with
  | none => exact .none
  | some hsame =>
      obtain ⟨hstep, hrest⟩ := hsame
      exact .some ⟨congrArg copiedLine hstep.inputBuffer, hrest, hstep.shiftPressed, hstep.capsLock⟩

/-- The left arrow key, whose code stands for an 8 without the prefix. -/
theorem readAlike_false :
    ¬ ∀ (codes : List UInt8) (s : KeyboardState), s.isExtended = false →
      Option.Rel SameReading (scan codes s) (scanPassword codes s) := by
  intro h
  have hscan : ∃ t, scan [0xE0, 0x4B, 0x1C] KeyboardState.zero = some ([], t, []) := ⟨_, rfl⟩
  have hpassword : ∃ t, scanPassword [0xE0, 0x4B, 0x1C] KeyboardState.zero = some (['8'], t, []) :=
    ⟨_, rfl⟩
  obtain ⟨t, ht⟩ := hscan
  obtain ⟨u, hu⟩ := hpassword
  have hsame := h [0xE0, 0x4B, 0x1C] KeyboardState.zero rfl
  rw [ht, hu, Option.rel_some_some] at hsame
  exact List.cons_ne_nil _ _ hsame.1.symm

end Shell
end WhitexKernel
