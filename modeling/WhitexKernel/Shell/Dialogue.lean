import Mathlib.Data.List.TakeWhile
import WhitexKernel.Lib.Since
import WhitexKernel.Shell.Login
import WhitexKernel.Vfs.Names

/-!
# Dialogue — three attempts to log in (`login`)

`login` asks for a name and a password until one attempt is right or three have been wrong.  Here it
goes on with every scancode that its two readers take from the keyboard, so what it has shown is
known at any time, also in the middle of a password.

* `run_name`, `run_password` — a line is read as its reader reads it;
* `login_dialogue` — who gets in, and what can be seen of a password: how it was edited, and no
  character of it.
-/

namespace WhitexKernel
namespace Shell

open Lib
open Vfs (IsText strcmp strcmp_eq_zero)

/-! ## The function -/

/-- What `login` reads the next scancode for. -/
inductive LoginPhase
  | username
  | password (username : List Char)
  | granted
  | halted
  /-- A line was longer than its buffer, and what is on the stack behind the buffer is lost: nothing
  is said of what `login` does from there on. -/
  | overrun
  deriving DecidableEq, Repr

structure LoginState where
  keyboard : KeyboardState
  attempts : Nat
  phase : LoginPhase

def KeyboardState.print (s : KeyboardState) (text : String) : KeyboardState :=
  { s with terminal := s.terminal ++ text.toList.map TerminalCall.putchar }

namespace LoginState

/-- The head of the loop, up to the loop of `scan`. -/
def ask (keyboard : KeyboardState) (attempts : Nat) : LoginState :=
  if attempts > 0 then
    { keyboard := scanStart (keyboard.print "Username: ")
      attempts := attempts
      phase := .username }
  else
    { keyboard := keyboard.print "\n[!!!] ACCESS DENIED. TRY AGAIN .\n"
      attempts := attempts
      phase := .halted }

/-- `login` up to the first loop of `scan` -/
def start (keyboard : KeyboardState) : LoginState := ask keyboard 3

/-- From the end of `scan(username)` to the loop of `scan_password`. -/
def named (s : LoginState) (keyboard : KeyboardState) : LoginState :=
  let username := copiedLine keyboard.inputBuffer
  -- `char username[64]`
  if username.length < 64 then
    { s with
      keyboard := scanStart (keyboard.print "Password: ")
      phase := .password username }
  else
    { s with
      keyboard := keyboard
      phase := .overrun }

/-- From the end of `scan_password(password)` to the next line read, if there is one. -/
def compared (s : LoginState) (username : List Char) (keyboard : KeyboardState) : LoginState :=
  let password := copiedLine keyboard.inputBuffer
  -- `char password[64]`
  if password.length < 64 then
    if strcmp username "nousr".toList = 0 ∧ strcmp password "root".toList = 0 then
      { s with
        keyboard := keyboard.print "\n[+] ACCESS GRANTED.\n\n"
        phase := .granted }
    else
      let attempts := s.attempts - 1
      let keyboard := keyboard.print "\n[-] INVALID CREDENTIALS. "
      ask (if attempts > 0 then keyboard.print "Please try again.\n" else keyboard) attempts
  else
    { s with
      keyboard := keyboard
      phase := .overrun }

/-- The dialogue goes on. -/
def Reading (s : LoginState) : Prop :=
  s.phase = .username ∨ ∃ username, s.phase = .password username

theorem phases (s : LoginState) :
    s.Reading ∨ s.phase = .granted ∨ s.phase = .halted ∨ s.phase = .overrun := by
  cases hphase : s.phase with
  | username => exact .inl (.inl hphase)
  | password username => exact .inl (.inr ⟨username, hphase⟩)
  | granted => exact .inr (.inl rfl)
  | halted => exact .inr (.inr (.inl rfl))
  | overrun => exact .inr (.inr (.inr rfl))

/-- One more scancode; whoever reads it after `login` has returned or halted is not `login`. -/
def step (s : LoginState) (scancode : UInt8) : LoginState :=
  match s.phase with
  | .username =>
      let keyboard := keyboardHandler scancode s.keyboard
      if keyboard.inputComplete then s.named keyboard else { s with keyboard := keyboard }
  | .password username =>
      let keyboard := passwordKey scancode s.keyboard
      if keyboard.inputComplete then s.compared username keyboard
      else { s with keyboard := keyboard }
  | .granted => s
  | .halted => s
  | .overrun => s

def run (s : LoginState) (codes : List UInt8) : LoginState := codes.foldl step s

/-! ## Lines -/

/-- A loop that reads a line and goes on with it. -/
theorem run_line (reader : LineReader) (reading done : KeyboardState → LoginState)
    (hstep : ∀ keyboard code, (reading keyboard).step code =
      if (reader.key code keyboard).inputComplete then done (reader.key code keyboard)
      else reading (reader.key code keyboard))
    {codes rest : List UInt8} {keyboard t : KeyboardState} (hopen : keyboard.inputComplete = false)
    (hloop : reader.loop codes keyboard = some (t, rest)) :
    (reading keyboard).run codes = (done t).run rest := by
  induction codes generalizing keyboard with
  | nil =>
      rw [LineReader.loop, if_neg (by simp [hopen])] at hloop
      cases hloop
  | cons code codes ih =>
      rw [LineReader.loop, if_neg (by simp [hopen])] at hloop
      rw [run, List.foldl_cons, hstep]
      by_cases hdone : (reader.key code keyboard).inputComplete = true
      · rw [if_pos hdone]
        have hrest : reader.loop codes (reader.key code keyboard) =
            some (reader.key code keyboard, codes) := by
          cases codes with
          | nil => rw [LineReader.loop, if_pos hdone]
          | cons => rw [LineReader.loop, if_pos hdone]
        rw [hrest] at hloop
        cases hloop
        rfl
      · rw [if_neg hdone]
        exact ih (by simpa using hdone) hloop

/-- A name is read as `scan` reads it. -/
theorem run_name {codes rest : List UInt8} {keyboard t : KeyboardState} {line : List Char}
    (hread : scan codes keyboard = some (line, t, rest)) (s : LoginState) :
    LoginState.run { s with keyboard := scanStart keyboard, phase := .username } codes =
      (s.named t).run rest := by
  rw [← LineReader.read_scan] at hread
  obtain ⟨⟨u, more⟩, hloop, heq⟩ := Option.map_eq_some_iff.1 hread
  cases heq
  exact run_line .scan (fun keyboard => { s with keyboard := keyboard, phase := .username })
    (fun keyboard => s.named keyboard) (fun _ _ => rfl) rfl hloop

/-- A password is read as `scan_password` reads it. -/
theorem run_password {codes rest : List UInt8} {keyboard t : KeyboardState} {line : List Char}
    (hread : scanPassword codes keyboard = some (line, t, rest)) (s : LoginState)
    (username : List Char) :
    LoginState.run { s with keyboard := scanStart keyboard, phase := .password username } codes =
      (s.compared username t).run rest := by
  obtain ⟨⟨u, more⟩, hloop, heq⟩ := Option.map_eq_some_iff.1 hread
  cases heq
  exact run_line .scanPassword
    (fun keyboard => { s with keyboard := keyboard, phase := .password username })
    (fun keyboard => s.compared username keyboard) (fun _ _ => rfl) rfl hloop

end LoginState

/-! ## Who gets in -/

/-- The name and the password that are let in. -/
def rightPair : List Char × List Char := ("nousr".toList, "root".toList)

/-- The attempt that a scancode completes. -/
def attempted (s : LoginState) (scancode : UInt8) : Option (List Char × List Char) :=
  match s.phase with
  | .password username =>
      let keyboard := passwordKey scancode s.keyboard
      if keyboard.inputComplete ∧ (copiedLine keyboard.inputBuffer).length < 64 then
        some (username, copiedLine keyboard.inputBuffer)
      else none
  | _ => none

/-- The attempts made in the course of a dialogue. -/
def tried (keyboard : KeyboardState) (codes : List UInt8) : List (List Char × List Char) :=
  observed (fun s code => some (s.step code)) attempted (LoginState.start keyboard) codes

theorem isText_copiedLine (inputBuffer : Nat → Char) : IsText (copiedLine inputBuffer) := by
  intro hnul
  have hne := List.mem_takeWhile_imp hnul
  simp [nul] at hne

/-- The attempts made so far, by the point that has been reached. -/
structure Counted (pairs : List (List Char × List Char)) (s : LoginState) : Prop where
  username : ∀ username, s.phase = .password username → IsText username
  reading : s.Reading → pairs.length + s.attempts = 3 ∧ 0 < s.attempts ∧ rightPair ∉ pairs
  granted : s.phase = .granted → pairs.length ≤ 3 ∧ rightPair ∈ pairs
  halted : s.phase = .halted → pairs.length = 3 ∧ rightPair ∉ pairs
  overrun : s.phase = .overrun → pairs.length < 3 ∧ rightPair ∉ pairs

namespace Counted

variable {pairs : List (List Char × List Char)} {s : LoginState}

theorem ask (keyboard : KeyboardState) {attempts : Nat} (hcount : pairs.length + attempts = 3)
    (hright : rightPair ∉ pairs) : Counted pairs (LoginState.ask keyboard attempts) := by
  unfold LoginState.ask
  split
  case isTrue hpos =>
    exact ⟨nofun, fun _ => ⟨hcount, hpos, hright⟩, nofun, nofun, nofun⟩
  case isFalse hzero =>
    refine ⟨nofun, ?_, nofun, fun _ => ⟨by omega, hright⟩, nofun⟩
    rintro (h | ⟨_, h⟩) <;> cases h

theorem named (h : Counted pairs s) (hphase : s.phase = .username) (keyboard : KeyboardState) :
    Counted pairs (s.named keyboard) := by
  have hreading := h.reading (.inl hphase)
  unfold LoginState.named
  simp only
  split
  · refine ⟨?_, fun _ => hreading, nofun, nofun, nofun⟩
    intro username hname
    cases hname
    exact isText_copiedLine _
  · refine ⟨nofun, ?_, nofun, nofun, fun _ => ⟨?_, hreading.2.2⟩⟩
    · rintro (h | ⟨_, h⟩) <;> cases h
    · obtain ⟨hcount, hpos, _⟩ := hreading
      omega

/-- An attempt is let in if it is the right one, and otherwise it is one attempt less. -/
theorem compared (h : Counted pairs s) {username : List Char}
    (hphase : s.phase = .password username) {keyboard : KeyboardState}
    (hroom : (copiedLine keyboard.inputBuffer).length < 64) :
    Counted (pairs ++ [(username, copiedLine keyboard.inputBuffer)])
      (s.compared username keyboard) := by
  obtain ⟨hcount, hpos, hright⟩ := h.reading (.inr ⟨username, hphase⟩)
  have hlength : (pairs ++ [(username, copiedLine keyboard.inputBuffer)]).length =
      pairs.length + 1 := by simp
  have hequal : strcmp username "nousr".toList = 0 ∧
      strcmp (copiedLine keyboard.inputBuffer) "root".toList = 0 ↔
      (username, copiedLine keyboard.inputBuffer) = rightPair := by
    rw [strcmp_eq_zero (h.username username hphase) (by decide),
      strcmp_eq_zero (isText_copiedLine _) (by decide), rightPair, Prod.mk.injEq]
  unfold LoginState.compared
  simp only [if_pos hroom]
  by_cases hpair : (username, copiedLine keyboard.inputBuffer) = rightPair
  · rw [if_pos (hequal.2 hpair)]
    refine ⟨nofun, ?_, fun _ => ⟨by omega, ?_⟩, nofun, nofun⟩
    · rintro (h | ⟨_, h⟩) <;> cases h
    · rw [hpair]
      exact List.mem_append_right _ List.mem_cons_self
  · rw [if_neg fun hboth => hpair (hequal.1 hboth)]
    refine Counted.ask _ (by omega) ?_
    rw [List.mem_append, List.mem_singleton, not_or]
    exact ⟨hright, fun heq => hpair heq.symm⟩

theorem granted_iff (h : Counted pairs s) : s.phase = .granted ↔ rightPair ∈ pairs := by
  refine ⟨fun hgranted => (h.granted hgranted).2, fun hright => ?_⟩
  rcases s.phases with hreading | hgranted | hhalted | hover
  · exact absurd hright (h.reading hreading).2.2
  · exact hgranted
  · exact absurd hright (h.halted hhalted).2
  · exact absurd hright (h.overrun hover).2

theorem length_le (h : Counted pairs s) : pairs.length ≤ 3 := by
  rcases s.phases with hreading | hgranted | hhalted | hover
  · have hleft := h.reading hreading
    omega
  · exact (h.granted hgranted).1
  · exact Nat.le_of_eq (h.halted hhalted).1
  · exact Nat.le_of_lt (h.overrun hover).1

theorem step (h : Counted pairs s) (scancode : UInt8) :
    Counted (pairs ++ (attempted s scancode).toList) (s.step scancode) := by
  unfold LoginState.step attempted
  cases hphase : s.phase with
  | username =>
      simp only [Option.toList_none, List.append_nil]
      split
      · exact h.named hphase _
      · exact ⟨nofun, fun _ => h.reading (.inl hphase), nofun, nofun, nofun⟩
  | password username =>
      simp only
      by_cases hdone : (passwordKey scancode s.keyboard).inputComplete = true
      · rw [if_pos hdone]
        by_cases hroom : (copiedLine (passwordKey scancode s.keyboard).inputBuffer).length < 64
        · rw [if_pos ⟨hdone, hroom⟩]
          exact h.compared hphase hroom
        · obtain ⟨hcount, hpos, hright⟩ := h.reading (.inr ⟨username, hphase⟩)
          rw [if_neg fun hboth => hroom hboth.2, Option.toList_none, List.append_nil]
          unfold LoginState.compared
          simp only [if_neg hroom]
          refine ⟨nofun, ?_, nofun, nofun, fun _ => ⟨by omega, hright⟩⟩
          rintro (h | ⟨_, h⟩) <;> cases h
      · rw [if_neg hdone, if_neg fun hboth => hdone hboth.1, Option.toList_none, List.append_nil]
        refine ⟨?_, fun _ => h.reading (.inr ⟨username, hphase⟩), nofun, nofun, nofun⟩
        intro other hother
        cases hother
        exact h.username username hphase
  | granted =>
      rw [Option.toList_none, List.append_nil]
      exact h
  | halted =>
      rw [Option.toList_none, List.append_nil]
      exact h
  | overrun =>
      rw [Option.toList_none, List.append_nil]
      exact h

end Counted

theorem exec_run (s : LoginState) (codes : List UInt8) :
    exec (fun s code => some (LoginState.step s code)) s codes = some (s.run codes) := by
  induction codes generalizing s with
  | nil => rfl
  | cons code codes ih => exact ih (s.step code)

theorem counted_run (keyboard : KeyboardState) (codes : List UInt8) :
    Counted (tried keyboard codes) ((LoginState.start keyboard).run codes) := by
  have hkeep : ∀ (pairs : List (List Char × List Char)) (s : LoginState) (code : UInt8)
      (t : LoginState), Counted pairs s → some (s.step code) = some t →
      Counted (pairs ++ (attempted s code).toList) t := by
    intro pairs s code t h hstep
    cases hstep
    exact h.step code
  have hstart : Counted [] (LoginState.start keyboard) :=
    Counted.ask keyboard rfl List.not_mem_nil
  have hrun := observed_invariant hkeep hstart (exec_run _ codes)
  rwa [List.nil_append] at hrun

/-! ## What is seen of a password -/

/-- The press of a key with a symbol. -/
structure PressesSymbol (code : UInt8) : Prop where
  make : code < 128
  key : code.toNat ∉ actionKeys
  symbol : kbdUs.getD code.toNat nul ≠ nul

/-- The same scancode, or two symbols. -/
def SameStroke (a b : UInt8) : Prop := a = b ∨ PressesSymbol a ∧ PressesSymbol b

/-- Two streams of scancodes that differ in the symbols of passwords only. -/
def Disguised : LoginState → List UInt8 → List UInt8 → Prop
  | _, [], [] => True
  | s, a :: as, b :: bs =>
      (a = b ∨ (∃ username, s.phase = .password username) ∧ SameStroke a b) ∧
        Disguised (s.step a) as bs
  | _, _, _ => False

/-- The same but for the characters of the line. -/
structure Veiled (s t : KeyboardState) : Prop where
  shiftPressed : t.shiftPressed = s.shiftPressed
  capsLock : t.capsLock = s.capsLock
  isExtended : t.isExtended = s.isExtended
  bufferIdx : t.bufferIdx = s.bufferIdx
  inputComplete : t.inputComplete = s.inputComplete
  terminal : t.terminal = s.terminal

namespace Veiled

variable {s t : KeyboardState}

theorem refl (s : KeyboardState) : Veiled s s := ⟨rfl, rfl, rfl, rfl, rfl, rfl⟩

theorem print (h : Veiled s t) (text : String) : Veiled (s.print text) (t.print text) :=
  ⟨h.shiftPressed, h.capsLock, h.isExtended, h.bufferIdx, h.inputComplete,
    congrArg (· ++ text.toList.map TerminalCall.putchar) h.terminal⟩

/-- A new line is empty on both sides. -/
theorem scanStart (h : Veiled s t) : scanStart t = scanStart s := by
  unfold Shell.scanStart
  rw [h.shiftPressed, h.capsLock, h.isExtended, h.terminal]

theorem appendHidden (h : Veiled s t) (a b : Char) :
    Veiled (s.appendHidden a) (t.appendHidden b) :=
  ⟨h.shiftPressed, h.capsLock, h.isExtended, congrArg (· + 1) h.bufferIdx, h.inputComplete,
    congrArg (· ++ [TerminalCall.putchar '*']) h.terminal⟩

theorem shifted (h : Veiled s t) (down : Bool) :
    Veiled { s with shiftPressed := down } { t with shiftPressed := down } :=
  ⟨rfl, h.capsLock, h.isExtended, h.bufferIdx, h.inputComplete, h.terminal⟩

theorem locked (h : Veiled s t) :
    Veiled { s with capsLock := !s.capsLock } { t with capsLock := !t.capsLock } :=
  ⟨h.shiftPressed, congrArg not h.capsLock, h.isExtended, h.bufferIdx, h.inputComplete, h.terminal⟩

theorem ite {s' t' : KeyboardState} {p : Prop} [Decidable p] (h : Veiled s t) (h' : Veiled s' t') :
    Veiled (if p then s else s') (if p then t else t') := by
  split
  · exact h
  · exact h'

theorem passwordModifiers (h : Veiled s t) (code : UInt8) :
    Veiled (passwordModifiers code s) (passwordModifiers code t) := by
  have hpressed := (h.shifted true).ite (p := code = 0x2A ∨ code = 0x36) h
  have hreleased := (hpressed.shifted false).ite
    (p := code &&& 0x80 ≠ 0 ∧ (code &&& 0x7F = 0x2A ∨ code &&& 0x7F = 0x36)) hpressed
  exact hreleased.locked.ite hreleased

end Veiled

/-- A symbol is no modifier, and nothing that the reader acts upon otherwise. -/
theorem passwordKey_symbol {code : UInt8} (h : PressesSymbol code) (s : KeyboardState) :
    passwordKey code s =
      if s.bufferIdx < 254 then s.appendHidden (keyChar s.shiftPressed s.capsLock code.toNat)
      else s := by
  have hmask : code &&& 0x80 = 0 := by
    have hall : ∀ n < 128, UInt8.ofNat n &&& 0x80 = 0 := by decide +kernel
    have hcode := hall code.toNat (by simpa [UInt8.lt_iff_toNat_lt] using h.make)
    rwa [UInt8.ofNat_toNat] at hcode
  have hne : ∀ n ∈ actionKeys, code ≠ UInt8.ofNat n := by
    rintro n hn rfl
    have hsmall : ∀ m ∈ actionKeys, (UInt8.ofNat m).toNat = m := by decide
    exact h.key (by rwa [hsmall n hn])
  have hback : code ≠ 0x0E := hne 0x0E (by decide)
  have henter : code ≠ 0x1C := hne 0x1C (by decide)
  have hleft : code ≠ 0x2A := hne 0x2A (by decide)
  have hright : code ≠ 0x36 := hne 0x36 (by decide)
  have hcaps : code ≠ 0x3A := hne 0x3A (by decide)
  have hchar := (keyChar_ne_nul s.shiftPressed s.capsLock h.make).2 h.symbol
  have hedit : passwordEdit code s =
      if s.bufferIdx < 254 then s.appendHidden (keyChar s.shiftPressed s.capsLock code.toNat)
      else s := by
    unfold passwordEdit
    rw [if_neg henter, if_neg hback, if_pos ⟨hmask, h.make, hleft, hright, hcaps⟩]
    simp only [hchar, ne_eq, not_false_eq_true, true_and]
  rw [passwordKey, hedit, passwordModifiers]
  simp only [hleft, hright, hcaps, hmask, or_self, if_false, ne_eq, not_true_eq_false, false_and]

namespace Veiled

variable {s t : KeyboardState}

theorem passwordEdit (h : Veiled s t) (code : UInt8) :
    Veiled (passwordEdit code s) (passwordEdit code t) := by
  unfold Shell.passwordEdit
  simp only [h.shiftPressed, h.capsLock, h.bufferIdx]
  split_ifs
  · exact ⟨rfl, rfl, h.isExtended, rfl, rfl,
      congrArg (· ++ [TerminalCall.putchar '\n']) h.terminal⟩
  · exact ⟨rfl, rfl, h.isExtended, rfl, h.inputComplete,
      congrArg (· ++ [TerminalCall.backspace]) h.terminal⟩
  · exact h
  · exact h.appendHidden _ _
  · exact h
  · exact h

/-- The same stroke shows the same, whatever is behind it. -/
theorem passwordKey (h : Veiled s t) {a b : UInt8} (hstroke : SameStroke a b) :
    Veiled (passwordKey a s) (passwordKey b t) := by
  rcases hstroke with rfl | ⟨ha, hb⟩
  · exact (h.passwordEdit a).passwordModifiers a
  · rw [passwordKey_symbol ha, passwordKey_symbol hb, h.bufferIdx]
    split
    · exact h.appendHidden _ _
    · exact h

/-- The lines have the same length. -/
theorem copiedLine_length (h : Veiled s t) (hs : Filling s) (ht : Filling t)
    (hdone : s.inputComplete = true) :
    (copiedLine t.inputBuffer).length = (copiedLine s.inputBuffer).length := by
  rw [hs.copiedLine_eq hdone, ht.copiedLine_eq (h.inputComplete.trans hdone), List.length_map,
    List.length_map, h.bufferIdx]

end Veiled

/-- Both dialogues have come to the same point, and only the characters of the password being typed
may differ. -/
inductive SameDialogue : LoginState → LoginState → Prop
  | naming (s : LoginState) (hphase : s.phase = .username) (hs : Filling s.keyboard)
      (hopen : s.keyboard.inputComplete = false) : SameDialogue s s
  | hidden (keyboard keyboard' : KeyboardState) (attempts : Nat) (username : List Char)
      (hsame : Veiled keyboard keyboard') (hs : Filling keyboard) (ht : Filling keyboard')
      (hopen : keyboard.inputComplete = false) :
      SameDialogue
        { keyboard := keyboard
          attempts := attempts
          phase := .password username }
        { keyboard := keyboard'
          attempts := attempts
          phase := .password username }
  | ended (keyboard keyboard' : KeyboardState) (attempts : Nat) (phase : LoginPhase)
      (hphase : phase = .granted ∨ phase = .halted ∨ phase = .overrun)
      (hsame : Veiled keyboard keyboard') :
      SameDialogue
        { keyboard := keyboard
          attempts := attempts
          phase := phase }
        { keyboard := keyboard'
          attempts := attempts
          phase := phase }

namespace SameDialogue

variable {s t : LoginState}

theorem veiled (h : SameDialogue s t) : Veiled s.keyboard t.keyboard := by
  cases h with
  | naming => exact Veiled.refl _
  | hidden keyboard keyboard' attempts username hsame => exact hsame
  | ended keyboard keyboard' attempts phase hphase hsame => exact hsame

theorem ask {keyboard keyboard' : KeyboardState} (hsame : Veiled keyboard keyboard')
    (attempts : Nat) :
    SameDialogue (LoginState.ask keyboard attempts) (LoginState.ask keyboard' attempts) := by
  unfold LoginState.ask
  split
  · rw [(hsame.print _).scanStart]
    exact .naming _ rfl (Filling.scanStart _) rfl
  · exact .ended _ _ _ _ (.inr (.inl rfl)) (hsame.print _)

theorem named (keyboard : KeyboardState) : SameDialogue (s.named keyboard) (s.named keyboard) := by
  unfold LoginState.named
  simp only
  split
  · exact .hidden _ _ _ _ (Veiled.refl _) (Filling.scanStart _) (Filling.scanStart _) rfl
  · exact .ended _ _ _ _ (.inr (.inr rfl)) (Veiled.refl _)

/-- Two passwords that are both refused lead to the same answer. -/
theorem compared {keyboard keyboard' : KeyboardState} (hsame : Veiled keyboard keyboard')
    (hlength : (copiedLine keyboard'.inputBuffer).length = (copiedLine keyboard.inputBuffer).length)
    {username : List Char} (hattempts : t.attempts = s.attempts)
    (hs : (s.compared username keyboard).phase ≠ .granted)
    (ht : (t.compared username keyboard').phase ≠ .granted) :
    SameDialogue (s.compared username keyboard) (t.compared username keyboard') := by
  unfold LoginState.compared at hs ht ⊢
  simp only [hlength, hattempts] at hs ht ⊢
  split
  case isTrue hroom =>
    simp only [if_pos hroom] at hs ht
    split at hs
    · exact absurd rfl hs
    · split at ht
      · exact absurd rfl ht
      case isFalse.isFalse hwrong hwrong' =>
        rw [if_neg hwrong, if_neg hwrong']
        refine SameDialogue.ask ?_ _
        split
        · exact (hsame.print _).print _
        · exact hsame.print _
  case isFalse => exact .ended _ _ _ _ (.inr (.inr rfl)) hsame

/-- One stroke on both sides, the same one but in a password. -/
theorem step (h : SameDialogue s t) {a b : UInt8}
    (hstroke : a = b ∨ (∃ username, s.phase = .password username) ∧ SameStroke a b)
    (hs : (s.step a).phase ≠ .granted) (ht : (t.step b).phase ≠ .granted) :
    SameDialogue (s.step a) (t.step b) := by
  cases h with
  | naming _ hphase hfilling hopen =>
      have hab : a = b := by
        rcases hstroke with hab | ⟨⟨username, hpassword⟩, _⟩
        · exact hab
        · rw [hphase] at hpassword
          cases hpassword
      rw [← hab]
      unfold LoginState.step
      rw [hphase]
      simp only
      split
      · exact SameDialogue.named _
      case isFalse hdone =>
        exact .naming _ rfl (hfilling.key hopen .scan a) (by simpa using hdone)
  | hidden keyboard keyboard' attempts username hsame hfilling hfilling' hopen =>
      have hsame' : SameStroke a b := by
        rcases hstroke with hab | ⟨_, hboth⟩
        · exact .inl hab
        · exact hboth
      have hnext := hsame.passwordKey hsame'
      have hfilled : Filling (passwordKey a keyboard) := hfilling.key hopen .scanPassword a
      have hfilled' : Filling (passwordKey b keyboard') :=
        hfilling'.key (hsame.inputComplete.trans hopen) .scanPassword b
      unfold LoginState.step at hs ht ⊢
      simp only [hnext.inputComplete] at hs ht ⊢
      by_cases hdone : (passwordKey a keyboard).inputComplete = true
      · rw [if_pos hdone] at hs ht ⊢
        rw [if_pos hdone]
        exact SameDialogue.compared hnext (hnext.copiedLine_length hfilled hfilled' hdone) rfl hs ht
      · rw [if_neg hdone, if_neg hdone]
        exact .hidden _ _ _ _ hnext hfilled hfilled' (by simpa using hdone)
  | ended keyboard keyboard' attempts phase hphase hsame =>
      have hkept : ∀ (keyboard : KeyboardState) (code : UInt8),
          LoginState.step
            { keyboard := keyboard
              attempts := attempts
              phase := phase } code =
            { keyboard := keyboard
              attempts := attempts
              phase := phase } := by
        intro keyboard code
        rcases hphase with rfl | rfl | rfl <;> rfl
      rw [hkept, hkept]
      exact .ended _ _ _ _ hphase hsame

/-- Who has not got in at the end has not got in before. -/
theorem not_granted_step {code : UInt8} {codes : List UInt8}
    (h : (s.run (code :: codes)).phase ≠ .granted) : (s.step code).phase ≠ .granted := by
  have hstays : ∀ (codes : List UInt8) (u : LoginState), u.phase = .granted →
      (u.run codes).phase = .granted := by
    intro codes
    induction codes with
    | nil => exact fun u hu => hu
    | cons code codes ih =>
        intro u hu
        refine ih (u.step code) ?_
        unfold LoginState.step
        rw [hu]
        exact hu
  exact fun hgranted => h (hstays codes (s.step code) hgranted)

theorem run (h : SameDialogue s t) {as bs : List UInt8} (hdisguised : Disguised s as bs)
    (hs : (s.run as).phase ≠ .granted) (ht : (t.run bs).phase ≠ .granted) :
    SameDialogue (s.run as) (t.run bs) := by
  induction as generalizing s t bs with
  | nil =>
      cases bs with
      | nil => exact h
      | cons b bs => exact absurd hdisguised id
  | cons a as ih =>
      cases bs with
      | nil => exact absurd hdisguised id
      | cons b bs =>
          have hstep := h.step hdisguised.1 (not_granted_step hs) (not_granted_step ht)
          exact ih hstep hdisguised.2 hs ht

end SameDialogue

/-! ## The dialogue -/

/-- A dialogue that has not left its buffers lets somebody in exactly by the right name and password
in one of three attempts, halts the machine exactly after three wrong ones and otherwise goes on
reading, and of the passwords of those who are not let in nothing is seen but their length and how
they have been edited. -/
theorem login_dialogue (keyboard : KeyboardState) (as : List UInt8)
    (hfits : ((LoginState.start keyboard).run as).phase ≠ .overrun) :
    (((LoginState.start keyboard).run as).phase = .granted ↔ rightPair ∈ tried keyboard as) ∧
      (((LoginState.start keyboard).run as).phase = .halted ↔
        (tried keyboard as).length = 3 ∧ rightPair ∉ tried keyboard as) ∧
      (((LoginState.start keyboard).run as).Reading ↔
        (tried keyboard as).length < 3 ∧ rightPair ∉ tried keyboard as) ∧
      (tried keyboard as).length ≤ 3 ∧
      ∀ bs, Disguised (LoginState.start keyboard) as bs → rightPair ∉ tried keyboard as →
        rightPair ∉ tried keyboard bs →
        ((LoginState.start keyboard).run bs).keyboard.terminal =
          ((LoginState.start keyboard).run as).keyboard.terminal := by
  have hcounted := counted_run keyboard as
  have hlength : (tried keyboard as).length ≤ 3 := hcounted.length_le
  refine ⟨hcounted.granted_iff, ⟨hcounted.halted, fun h => ?_⟩,
    ⟨fun h => ?_, fun h => ?_⟩, hlength, ?_⟩
  · rcases ((LoginState.start keyboard).run as).phases with hreading | hgranted | hhalted | hover
    · have hleft := hcounted.reading hreading
      omega
    · exact absurd (hcounted.granted hgranted).2 h.2
    · exact hhalted
    · exact absurd hover hfits
  · have hleft := hcounted.reading h
    exact ⟨by omega, hleft.2.2⟩
  · rcases ((LoginState.start keyboard).run as).phases with hreading | hgranted | hhalted | hover
    · exact hreading
    · exact absurd (hcounted.granted hgranted).2 h.2
    · have hthree := (hcounted.halted hhalted).1
      omega
    · exact absurd hover hfits
  · intro bs hdisguised has hbs
    have hstart : SameDialogue (LoginState.start keyboard) (LoginState.start keyboard) :=
      SameDialogue.ask (Veiled.refl keyboard) 3
    have hsame := hstart.run hdisguised (fun h => has (hcounted.granted_iff.1 h))
      fun h => hbs ((counted_run keyboard bs).granted_iff.1 h)
    exact hsame.veiled.terminal

/-- The keys for a wrong attempt, `a` and `r`, and then for the right one. -/
def secondAttempt : List UInt8 :=
  [0x1E, 0x1C, 0x13, 0x1C] ++ [0x31, 0x18, 0x16, 0x1F, 0x13, 0x1C] ++ [0x13, 0x18, 0x18, 0x14, 0x1C]

theorem login_dialogue_secondAttempt :
    ((LoginState.start KeyboardState.zero).run secondAttempt).phase = .granted ∧
      rightPair ∈ tried KeyboardState.zero secondAttempt := by
  have hgranted : ((LoginState.start KeyboardState.zero).run secondAttempt).phase = .granted := by
    decide +kernel
  exact ⟨hgranted,
    (login_dialogue KeyboardState.zero secondAttempt (by rw [hgranted]; decide)).1.1 hgranted⟩

end Shell
end WhitexKernel
