import WhitexKernel.Lib.Transition
import WhitexKernel.Shell.Keyboard

/-!
# Modifiers — which symbol of a key is typed

Whether a Shift key is held and whether Caps Lock is on is a matter of all scancodes so far
(`shiftHeld`, `capsLocked`).  `keyboard_handler` keeps three flags instead.  They say which Shift code
came last, of whichever key, how often the code of Caps Lock came, and which code came last that is
not one of these; a prefix `0xE0` in front of a modifier makes no difference to them (`Flags`).

* `keyboardHandler_appends_iff` — when a scancode appends a character, and which one;
* `rightSymbols_iff` — in which runs every character is the one that was typed.
-/

namespace WhitexKernel
namespace Shell

open Lib

/-! ## What is typed -/

/-- The codes that do not belong to an extended key; the next one does if `prefixed`. -/
def plainCodes : Bool → List UInt8 → List UInt8
  | _, [] => []
  | prefixed, code :: codes =>
      if code = 0xE0 then plainCodes true codes
      else if prefixed then plainCodes false codes
      else code :: plainCodes false codes

/-- The last code that meets `p`. -/
def lastOf (p : UInt8 → Bool) (history : List UInt8) : Option UInt8 := (history.filter p).getLast?

/-- The key with the code `make` was pressed and has not been released. -/
def isDown (make : UInt8) (history : List UInt8) : Bool :=
  lastOf (fun code => code = make ∨ code = make ||| 0x80) (plainCodes false history) = some make

/-- Some Shift key is held down. -/
def shiftHeld (history : List UInt8) : Bool := isDown 0x2A history || isDown 0x36 history

/-- Caps Lock was pressed an odd number of times. -/
def capsLocked (history : List UInt8) : Bool := (plainCodes false history).count 0x3A % 2 = 1

/-- The key is one of the letters. -/
def LetterKey (code : UInt8) : Prop := (kbdUs.getD code.toNat nul).isAlpha = true

instance (code : UInt8) : Decidable (LetterKey code) :=
  inferInstanceAs (Decidable (_ = true))

/-- `c` is what the key `code` stands for after `history`. -/
structure RightSymbol (history : List UInt8) (code : UInt8) (c : Char) : Prop where
  letter : LetterKey code → c.isUpper = (shiftHeld history ^^ capsLocked history)
  other : ¬ LetterKey code →
    c = if shiftHeld history then kbdUsShift.getD code.toNat nul else kbdUs.getD code.toNat nul

/-! ## Runs -/

/-- The keyboard sends a code, or `scan` is called and starts a new line. -/
inductive KeyboardEvent
  | scancode (code : UInt8)
  | newLine
  deriving DecidableEq, Repr

/-- The keyboard's globals with the codes that have been sent so far. -/
structure Typing where
  keyboard : KeyboardState
  history : List UInt8

namespace Typing

def zero : Typing :=
  { keyboard := KeyboardState.zero
    history := [] }

def apply (t : Typing) : KeyboardEvent → Typing
  | .scancode code =>
      { keyboard := keyboardHandler code t.keyboard
        history := t.history ++ [code] }
  | .newLine => { t with keyboard := scanStart t.keyboard }

end Typing

def typingStep (t : Typing) (event : KeyboardEvent) : Option Typing := some (t.apply event)

/-- A character that the event appends to `input_buffer` is the one that was typed. -/
def AppendsRight (t : Typing) : KeyboardEvent → Prop
  | .scancode code => ∀ c, keyboardHandler code t.keyboard = t.keyboard.append c →
      RightSymbol t.history code c
  | .newLine => True

/-! ## What the handler appends -/

theorem append_inj {s : KeyboardState} {c d : Char} (h : s.append c = s.append d) : c = d := by
  have hbuffer := congrFun (congrArg KeyboardState.inputBuffer h) s.bufferIdx
  simpa [KeyboardState.append] using hbuffer

/-- A code that types nothing does not move the end of the line behind a new character. -/
theorem keyboardHandler_idle {s : KeyboardState} {code : UInt8} (h : ¬ Types s code) :
    (keyboardHandler code s).bufferIdx ≠ s.bufferIdx + 1 := by
  have hbranch := keyboardHandler_branch code s
  generalize keyboardHandler code s = t at hbranch ⊢
  cases hbranch with
  | extended hextend => exact Nat.ne_of_lt (Nat.lt_succ_self _)
  | released hextend hbreak => exact Nat.ne_of_lt (Nat.lt_succ_self _)
  | shift hshift => exact Nat.ne_of_lt (Nat.lt_succ_self _)
  | caps hcaps => exact Nat.ne_of_lt (Nat.lt_succ_self _)
  | extendedKey hkey hextended => exact Nat.ne_of_lt (Nat.lt_succ_self _)
  | erased hkey hplain hpos =>
      show s.bufferIdx - 1 ≠ s.bufferIdx + 1
      omega
  | entered hkey hplain => exact Nat.ne_of_lt (Nat.lt_succ_self _)
  | typed hkey htypes => exact absurd htypes h
  | kept hkey hplain hidle => exact Nat.ne_of_lt (Nat.lt_succ_self _)

/-- When a code appends a character, and which one. -/
theorem keyboardHandler_appends_iff {s : KeyboardState} {code : UInt8} {c : Char} :
    keyboardHandler code s = s.append c ↔
      Types s code ∧ c = keyChar s.shiftPressed s.capsLock code.toNat := by
  constructor
  · intro happends
    have htypes : Types s code := by
      by_contra hidle
      exact keyboardHandler_idle hidle (congrArg KeyboardState.bufferIdx happends)
    exact ⟨htypes, append_inj (happends.symm.trans (keyboardHandler_types htypes))⟩
  · rintro ⟨htypes, rfl⟩
    exact keyboardHandler_types htypes

/-! ## The flags -/

/-- A code of one of the Shift keys. -/
def shiftCodes : List UInt8 := [0x2A, 0x36, 0xAA, 0xB6]

/-- The codes that leave `is_extended` as it is. -/
def modifierCodes : List UInt8 := [0x2A, 0x36, 0x3A]

/-- The last Shift code was that of a key pressed. -/
def shiftLast (history : List UInt8) : Bool :=
  lastOf (· ∈ shiftCodes) history = some 0x2A || lastOf (· ∈ shiftCodes) history = some 0x36

/-- The code of Caps Lock came an odd number of times. -/
def capsOdd (history : List UInt8) : Bool := history.count 0x3A % 2 = 1

/-- The last code that is no modifier was a prefix. -/
def prefixLast (history : List UInt8) : Bool :=
  lastOf (· ∉ modifierCodes) history = some 0xE0

/-- What the flags say of the codes so far. -/
structure Flags (history : List UInt8) (s : KeyboardState) : Prop where
  shift : s.shiftPressed = shiftLast history
  caps : s.capsLock = capsOdd history
  extended : s.isExtended = prefixLast history

theorem lastOf_append (p : UInt8 → Bool) (history : List UInt8) (code : UInt8) :
    lastOf p (history ++ [code]) = if p code then some code else lastOf p history := by
  unfold lastOf
  by_cases hp : p code = true
  · simp [hp]
  · simp [hp]

theorem capsOdd_append (history : List UInt8) (code : UInt8) :
    capsOdd (history ++ [code]) = if code = 0x3A then !capsOdd history else capsOdd history := by
  unfold capsOdd
  by_cases hcaps : code = 0x3A
  · rw [if_pos hcaps, hcaps, List.count_append, List.count_singleton_self]
    rcases Nat.mod_two_eq_zero_or_one (history.count 0x3A) with heven | hodd
    · simp [Nat.add_mod, heven]
    · simp [Nat.add_mod, hodd]
  · simp [hcaps, List.count_append]

/-- A break code tells the key in its lower seven bits. -/
theorem breakCode (code : UInt8) (h : code &&& 0x80 ≠ 0) :
    (code &&& 0x7F = 0x2A ∨ code &&& 0x7F = 0x36 ↔ code ∈ shiftCodes) ∧ code ∉ modifierCodes := by
  have htable : ∀ n < 256, UInt8.ofNat n &&& 0x80 ≠ 0 →
      (UInt8.ofNat n &&& 0x7F = 0x2A ∨ UInt8.ofNat n &&& 0x7F = 0x36 ↔
        UInt8.ofNat n ∈ shiftCodes) ∧ UInt8.ofNat n ∉ modifierCodes := by
    decide +kernel
  rw [← UInt8.ofNat_toNat (x := code)] at h ⊢
  exact htable code.toNat code.toNat_lt h

theorem makeCode (code : UInt8) (h : code &&& 0x80 = 0) :
    code ∈ shiftCodes ↔ code = 0x2A ∨ code = 0x36 := by
  constructor
  · intro hmem
    simp only [shiftCodes, List.mem_cons, List.not_mem_nil, or_false] at hmem
    rcases hmem with rfl | rfl | rfl | rfl
    · exact .inl rfl
    · exact .inr rfl
    · exact absurd h (by decide)
    · exact absurd h (by decide)
  · rintro (rfl | rfl)
    · decide
    · decide

/-- What a code does to the flags. -/
structure FlagsChange (code : UInt8) (s t : KeyboardState) : Prop where
  shift : t.shiftPressed =
    if code ∈ shiftCodes then decide (code = 0x2A ∨ code = 0x36) else s.shiftPressed
  caps : t.capsLock = if code = 0x3A then !s.capsLock else s.capsLock
  extended : t.isExtended =
    if code ∉ modifierCodes then decide (code = 0xE0) else s.isExtended

/-- A code that is no modifier and no prefix leaves Shift and Caps Lock alone. -/
theorem flagsChange_other {code : UInt8} {s t : KeyboardState} (hshift : code ∉ shiftCodes)
    (hmodifier : code ∉ modifierCodes) (hextend : code ≠ 0xE0)
    (hsame : t.shiftPressed = s.shiftPressed ∧ t.capsLock = s.capsLock)
    (hextended : t.isExtended = false) : FlagsChange code s t := by
  have hcaps : code ≠ 0x3A := by
    rintro rfl
    exact hmodifier (by decide)
  refine ⟨?_, ?_, ?_⟩
  · rw [if_neg hshift, hsame.1]
  · rw [if_neg hcaps, hsame.2]
  · rw [if_pos hmodifier, hextended]
    exact (decide_eq_false hextend).symm

theorem keyboardHandler_flags (code : UInt8) (s : KeyboardState) :
    FlagsChange code s (keyboardHandler code s) := by
  -- the keys that are no modifiers work on the line, or end an extended key
  have hother : ∀ {t : KeyboardState}, OtherKey code → t.shiftPressed = s.shiftPressed →
      t.capsLock = s.capsLock → t.isExtended = false → FlagsChange code s t := by
    intro t hkey hshift hcaps hextended
    have hmem : code ∉ shiftCodes := by
      rw [makeCode code (by simpa using hkey.make)]
      exact hkey.shift
    have hmodifier : code ∉ modifierCodes := by
      simp only [modifierCodes, List.mem_cons, List.not_mem_nil, or_false]
      rintro (h | h | h)
      · exact hkey.shift (.inl h)
      · exact hkey.shift (.inr h)
      · exact hkey.caps h
    exact flagsChange_other hmem hmodifier hkey.extend ⟨hshift, hcaps⟩ hextended
  have hbranch := keyboardHandler_branch code s
  generalize keyboardHandler code s = t at hbranch ⊢
  cases hbranch with
  | extended h =>
      subst h
      exact ⟨rfl, rfl, rfl⟩
  | released hextend h =>
      have hreleased := breakCode code h
      by_cases hmem : code ∈ shiftCodes
      · have hmake : ¬(code = 0x2A ∨ code = 0x36) := by
          rintro (rfl | rfl)
          · exact hreleased.2 (by decide)
          · exact hreleased.2 (by decide)
        have hcaps : code ≠ 0x3A := by
          rintro rfl
          exact hreleased.2 (by decide)
        refine ⟨?_, ?_, ?_⟩
        · rw [if_pos hmem, decide_eq_false hmake]
          exact if_pos (hreleased.1.2 hmem)
        · exact (if_neg hcaps).symm
        · rw [if_pos hreleased.2]
          exact (decide_eq_false hextend).symm
      · refine flagsChange_other hmem hreleased.2 hextend ⟨?_, rfl⟩ rfl
        exact if_neg fun hmake => hmem (hreleased.1.1 hmake)
  | shift h =>
      rcases h with rfl | rfl
      · exact ⟨rfl, rfl, rfl⟩
      · exact ⟨rfl, rfl, rfl⟩
  | caps h =>
      subst h
      exact ⟨rfl, rfl, rfl⟩
  | extendedKey hkey hextended => exact hother hkey rfl rfl rfl
  | erased hkey hplain hpos => exact hother hkey rfl rfl hplain
  | entered hkey hplain => exact hother hkey rfl rfl hplain
  | typed hkey h => exact hother hkey rfl rfl h.plain
  | kept hkey hplain h => exact hother hkey rfl rfl hplain

namespace Flags

theorem zero : Flags [] KeyboardState.zero := ⟨rfl, rfl, rfl⟩

theorem handler {history : List UInt8} {s : KeyboardState} (h : Flags history s) (code : UInt8) :
    Flags (history ++ [code]) (keyboardHandler code s) := by
  have hchange := keyboardHandler_flags code s
  refine ⟨?_, ?_, ?_⟩
  · rw [hchange.shift, h.shift]
    unfold shiftLast
    rw [lastOf_append]
    by_cases hmem : code ∈ shiftCodes
    · simp [hmem]
    · simp [hmem]
  · rw [hchange.caps, h.caps, capsOdd_append]
  · rw [hchange.extended, h.extended]
    unfold prefixLast
    rw [lastOf_append]
    by_cases hmem : code ∉ modifierCodes
    · simp [hmem]
    · simp [hmem]

end Flags

/-! ## Whole runs -/

/-- The flags that `keyboard_handler` keeps select the symbol that was typed. -/
structure ModifiersAgree (history : List UInt8) (code : UInt8) : Prop where
  letter : LetterKey code →
    (shiftLast history || capsOdd history) = (shiftHeld history ^^ capsLocked history)
  other : ¬ LetterKey code → shiftLast history = shiftHeld history ∨
    kbdUs.getD code.toNat nul = kbdUsShift.getD code.toNat nul

/-- What is typed is typed with modifiers that agree. -/
def TypesAgreed (t : Typing) : KeyboardEvent → Prop
  | .scancode code => Types t.keyboard code → ModifiersAgree t.history code
  | .newLine => True

/-- The letters are where the handler looks for them. -/
theorem letterKey_iff {code : UInt8} (hmake : code < 128) :
    LetterKey code ↔
      'A' ≤ kbdUsShift.getD code.toNat nul ∧ kbdUsShift.getD code.toNat nul ≤ 'Z' := by
  have htable : ∀ code < 128, (kbdUs.getD code nul).isAlpha = true ↔
      'A' ≤ kbdUsShift.getD code nul ∧ kbdUsShift.getD code nul ≤ 'Z' := by
    decide +kernel
  exact htable code.toNat hmake

/-- A letter is upper-case when either flag is set, or both. -/
theorem isUpper_keyChar (shiftPressed capsLock : Bool) {code : UInt8} (hmake : code < 128)
    (hletter : LetterKey code) :
    (keyChar shiftPressed capsLock code.toNat).isUpper = (shiftPressed || capsLock) := by
  have htable : ∀ code < 128, (kbdUs.getD code nul).isAlpha = true →
      ∀ shiftPressed capsLock : Bool,
        (keyChar shiftPressed capsLock code).isUpper = (shiftPressed || capsLock) := by
    decide +kernel
  exact htable code.toNat hmake hletter shiftPressed capsLock

theorem keyChar_other (shiftPressed capsLock : Bool) {code : UInt8} (hmake : code < 128)
    (hother : ¬ LetterKey code) :
    keyChar shiftPressed capsLock code.toNat =
      if shiftPressed then kbdUsShift.getD code.toNat nul else kbdUs.getD code.toNat nul := by
  rw [letterKey_iff hmake] at hother
  unfold keyChar
  dsimp only
  exact if_neg fun h => hother h.2

theorem rightSymbol_iff {history : List UInt8} {s : KeyboardState} (h : Flags history s)
    {code : UInt8} (hmake : code < 128) :
    RightSymbol history code (keyChar s.shiftPressed s.capsLock code.toNat) ↔
      ModifiersAgree history code := by
  have hflags : (s.shiftPressed || s.capsLock) = (shiftLast history || capsOdd history) := by
    rw [h.shift, h.caps]
  -- on a letter key only the case counts, and it is the disjunction of the two flags
  have hletter : LetterKey code → ((keyChar s.shiftPressed s.capsLock code.toNat).isUpper =
      (shiftHeld history ^^ capsLocked history) ↔
        (shiftLast history || capsOdd history) = (shiftHeld history ^^ capsLocked history)) := by
    intro hkey
    rw [isUpper_keyChar _ _ hmake hkey, hflags]
  -- elsewhere the flag of the shift keys alone picks the table, unless both have the symbol
  have hother : ¬ LetterKey code → (keyChar s.shiftPressed s.capsLock code.toNat =
      (if shiftHeld history then kbdUsShift.getD code.toNat nul
        else kbdUs.getD code.toNat nul) ↔
      shiftLast history = shiftHeld history ∨
        kbdUs.getD code.toNat nul = kbdUsShift.getD code.toNat nul) := by
    intro hkey
    rw [keyChar_other _ _ hmake hkey, h.shift]
    cases shiftLast history with
    | false =>
        cases shiftHeld history with
        | false => simp
        | true => simp
    | true =>
        cases shiftHeld history with
        | false => simp [eq_comm]
        | true => simp
  constructor
  · intro hright
    exact ⟨fun hkey => (hletter hkey).1 (hright.letter hkey),
      fun hkey => (hother hkey).1 (hright.other hkey)⟩
  · intro hagree
    exact ⟨fun hkey => (hletter hkey).2 (hagree.letter hkey),
      fun hkey => (hother hkey).2 (hagree.other hkey)⟩

theorem appendsRight_iff {t : Typing} (h : Flags t.history t.keyboard) (event : KeyboardEvent) :
    AppendsRight t event ↔ TypesAgreed t event := by
  cases event with
  | newLine => exact Iff.rfl
  | scancode code =>
      constructor
      · intro hright htypes
        have happends := keyboardHandler_types htypes
        exact (rightSymbol_iff h htypes.make).1 (hright _ happends)
      · intro hagreed c happends
        rcases keyboardHandler_appends_iff.1 happends with ⟨htypes, rfl⟩
        exact (rightSymbol_iff h htypes.make).2 (hagreed htypes)

/-- Every character of a run is the one that was typed exactly when every key that types is pressed
with modifiers that agree. -/
theorem rightSymbols_iff (events : List KeyboardEvent) :
    AllTried typingStep AppendsRight Typing.zero events ↔
      AllTried typingStep TypesAgreed Typing.zero events := by
  refine allTried_congr (J := fun t => Flags t.history t.keyboard) ?_ ?_ Flags.zero events
  · intro t event u hflags hstep
    cases hstep
    cases event with
    | newLine => exact ⟨hflags.shift, hflags.caps, hflags.extended⟩
    | scancode code => exact hflags.handler code
  · intro t event hflags
    exact appendsRight_iff hflags event

/-- Both Shift keys are pressed, the right one is released, and `a` is typed. -/
def oneShiftReleased : List KeyboardEvent :=
  [.scancode 0x2A, .scancode 0x36, .scancode 0xB6, .scancode 0x1E]

/-- The letter is lower-case, although the left Shift key is held. -/
theorem rightSymbols_false :
    ¬ ∀ events : List KeyboardEvent, AllTried typingStep AppendsRight Typing.zero events := by
  intro h
  have hlast := (((h oneShiftReleased).2 _ rfl).2 _ rfl).2 _ rfl
  have htyped := hlast.1 'a' (keyboardHandler_types ⟨rfl, by decide, by decide, by decide, by decide⟩)
  exact absurd (htyped.letter (by decide)) (by decide)

end Shell
end WhitexKernel
