import WhitexKernel.Shell.CommandLine

/-!
# Echo — a line that starts with `echo`

`cmd_echo_handler` passes its argument on to `echo` (`echo.h`), and `echo` takes what it gets for a
whole line: it looks for a space behind four characters and prints what follows.  What it gets is
what stands behind the command, so the first five characters of a text are never printed.

* `echo_wholeLine` — of a whole line, `echo` prints the text;
* `enterLine_echo` — what the shell prints for a line.
-/

namespace WhitexKernel
namespace Shell

open Lib Machine

/-! ## The routines -/

/-- `input` lies in a buffer that is zero behind it. -/
def echo (input : List Char) (s : ShellState) : ShellState :=
  if input.getD 4 nul = ' ' ∧ input.getD 5 nul ≠ nul then
    (s.print (input.drop 5)).print "\n".toList
  else s.print "\n".toList

def cmdEchoHandler (argBuffer : List Char) (s : ShellState) : ShellState :=
  if argBuffer = [] then s.print "\n".toList
  else echo argBuffer s

/-- What the routines of the other commands do. -/
abbrev OtherRoutines := Invocation → ShellState → Except Stop ShellState

/-- A routine that was called, run. -/
def performCall (other : OtherRoutines) (s : ShellState) : Invocation → Except Stop ShellState
  | .withArgs .cmdEchoHandler args => .ok (cmdEchoHandler args s)
  | call => other call s

/-- The main loop with the line that `scan` has read: it is cut and split, and the routine it calls
runs. -/
def enterLine (other : OtherRoutines) (line : List Char) (s : ShellState) :
    Except Stop ShellState :=
  let localIoBuffer := sysSanitizeString line sysMaxBuffer
  if localIoBuffer ≠ [] then do
    let t ← sysParseInput localIoBuffer s
    (t.invoked.drop s.invoked.length).foldlM (performCall other) t
  else .ok s

/-- The line is entered and prints `text`. -/
def EntersPrinting (other : OtherRoutines) (line text : List Char) (s : ShellState) : Prop :=
  ∃ t, enterLine other line s = .ok t ∧ t.printed = s.printed ++ text

/-! ## What `echo` prints -/

/-- The part of its argument that `echo` prints. -/
def echoed (input : List Char) : List Char :=
  if input.getD 4 nul = ' ' ∧ input.getD 5 nul ≠ nul then input.drop 5 else []

theorem printed_echo (input : List Char) (s : ShellState) :
    (echo input s).printed = s.printed ++ (echoed input ++ "\n".toList) := by
  unfold echo echoed
  split
  · exact List.append_assoc _ _ _
  · rfl

theorem printed_cmdEchoHandler (input : List Char) (s : ShellState) :
    (cmdEchoHandler input s).printed = s.printed ++ (echoed input ++ "\n".toList) := by
  unfold cmdEchoHandler
  split
  case isTrue hempty =>
    subst hempty
    rfl
  case isFalse => exact printed_echo input s

/-- Of a whole line, `echo` prints the text. -/
theorem echo_wholeLine {c : Char} (hc : c ≠ nul) (text : List Char) (s : ShellState) :
    (echo ("echo ".toList ++ (c :: text)) s).printed =
      s.printed ++ ((c :: text) ++ "\n".toList) := by
  have hline : echoed ("echo ".toList ++ (c :: text)) = c :: text := if_pos ⟨rfl, hc⟩
  rw [printed_echo, hline]

/-- What is printed is shorter than the text. -/
theorem echoed_ne {text : List Char} (hsome : text ≠ []) : echoed text ≠ text := by
  intro h
  have hlength : (echoed text).length < text.length := by
    have hpos : 0 < text.length := List.length_pos_iff.2 hsome
    unfold echoed
    split
    · rw [List.length_drop]
      omega
    · simpa using hpos
  rw [h] at hlength
  exact Nat.lt_irrefl _ hlength

/-! ## What the shell prints -/

section Line

variable {text : List Char} {s : ShellState}

/-- The entry of `echo`. -/
def echoEntry : DispatchEntry := ⟨"echo", none, some .cmdEchoHandler, 1, 0⟩

/-- The line is cut nowhere, and split behind its first space. -/
theorem sanitized_echo (hclean : Clean text) (hlength : text.length ≤ sysArgMax - 1) :
    sysSanitizeString ("echo ".toList ++ text) sysMaxBuffer = "echo".toList ++ (' ' :: text) := by
  have hline : ("echo ".toList ++ text).length ≤ sysMaxBuffer := by
    have hword : "echo ".toList.length = 5 := rfl
    rw [List.length_append, hword]
    unfold sysMaxBuffer
    unfold sysArgMax at hlength
    omega
  refine (sysSanitizeString_eq_self_iff hline).2 fun c hc => ?_
  rcases List.mem_append.1 hc with hword | htext
  · exact (by decide : Clean "echo ".toList) c hword
  · exact hclean c htext

theorem extractCommand_echo (hstart : text.head? ≠ some ' ')
    (hlength : text.length ≤ sysArgMax - 1) :
    extractCommand ("echo".toList ++ (' ' :: text)) = ("echo".toList, text) := by
  have hcommand : copyWhile (· ≠ ' ') (sysCmdMax - 1) ("echo".toList ++ (' ' :: text)) =
      ("echo".toList, ' ' :: text) := copyWhile_word (by simp) (by decide) (by simp)
  have htext : (' ' :: text).dropWhile (· = ' ') = text :=
    CommandLine.dropWhile_spaces 1 fun c hc => by
      refine decide_eq_false fun hspace => hstart ?_
      rw [← hspace]
      exact hc
  unfold extractCommand
  rw [hcommand]
  dsimp only
  rw [htext, copyWhile_true, List.take_of_length_le hlength]

/-- What a line prints, if the integrity check passes. -/
theorem enterLine_echo (other : OtherRoutines) (hintact : Intact s)
    (hstart : text.head? ≠ some ' ') (hclean : Clean text)
    (hlength : text.length ≤ sysArgMax - 1) :
    enterLine other ("echo ".toList ++ text) s =
      .ok (cmdEchoHandler text
        ((counted "echo".toList s).invoke (.withArgs .cmdEchoHandler text))) := by
  have hexecuted : sysExecuteVector "echo".toList text s =
      .ok ((counted "echo".toList s).invoke (.withArgs .cmdEchoHandler text)) :=
    sysExecuteVector_known hintact (by decide : echoEntry ∈ dispatchTable) rfl
  have hparsed : sysParseInput ("echo".toList ++ (' ' :: text)) s =
      .ok ((counted "echo".toList s).invoke (.withArgs .cmdEchoHandler text)) := by
    unfold sysParseInput
    rw [show sysVerifyIntegrity s = .ok s from hintact, Outcome.ok_bind, if_neg (by simp),
      extractCommand_echo hstart hlength]
    exact hexecuted
  unfold enterLine
  dsimp only
  rw [sanitized_echo hclean hlength, if_pos (by simp), hparsed, Outcome.ok_bind]
  -- the only call since then is that of the handler
  simp [ShellState.invoke, performCall]

/-- A state that fails the check lets no line be entered. -/
theorem enterLine_halted (other : OtherRoutines) {line : List Char}
    (hline : sysSanitizeString line sysMaxBuffer ≠ []) {t : ShellState}
    (h : sysVerifyIntegrity s = .error (.halted t)) :
    enterLine other line s = .error (.halted t) := by
  unfold enterLine sysParseInput
  dsimp only
  rw [if_pos hline, h]
  rfl

theorem entersPrinting_iff (other : OtherRoutines) (hintact : Intact s)
    (hstart : text.head? ≠ some ' ') (hclean : Clean text)
    (hlength : text.length ≤ sysArgMax - 1) (expected : List Char) :
    EntersPrinting other ("echo ".toList ++ text) expected s ↔
      expected = echoed text ++ "\n".toList := by
  unfold EntersPrinting
  rw [enterLine_echo other hintact hstart hclean hlength]
  have hprinted := printed_cmdEchoHandler text
    ((counted "echo".toList s).invoke (.withArgs .cmdEchoHandler text))
  have hbefore : ((counted "echo".toList s).invoke
      (.withArgs .cmdEchoHandler text)).printed = s.printed := rfl
  rw [hbefore] at hprinted
  constructor
  · rintro ⟨t, ht, hexpected⟩
    cases ht
    exact (List.append_cancel_left (hprinted.symm.trans hexpected)).symm
  · rintro rfl
    exact ⟨_, rfl, hprinted⟩

/-- No line with a text prints this text. -/
theorem echo_prints_never (other : OtherRoutines) (s : ShellState) (hsome : 1 ≤ text.length)
    (hlength : text.length ≤ 189) (hstart : text.head? ≠ some ' ') (hclean : Clean text) :
    ¬ EntersPrinting other ("echo ".toList ++ text) (text ++ "\n".toList) s := by
  rcases verify_cases s with ⟨hintact, _⟩ | ⟨_, t, ht⟩
  · rw [entersPrinting_iff other hintact hstart hclean hlength]
    intro h
    have htext : echoed text = text := (List.append_cancel_right h).symm
    exact echoed_ne (List.length_pos_iff.1 hsome) htext
  · rintro ⟨u, hu, _⟩
    have hline : sysSanitizeString ("echo ".toList ++ text) sysMaxBuffer ≠ [] := by
      rw [sanitized_echo hclean hlength]
      simp
    rw [enterLine_halted other hline ht] at hu
    cases hu

end Line

/-- `echo hi` after the bootstrap -/
theorem echo_prints_never_hi :
    ¬ EntersPrinting (fun _ t => .ok t) ("echo ".toList ++ ['h', 'i']) (['h', 'i'] ++ "\n".toList)
      (bootstrapped ShellState.initial) :=
  echo_prints_never (fun _ t => .ok t) (bootstrapped ShellState.initial) (by decide) (by decide)
    (by decide) (by decide)

/-- `echo hi` prints an empty line. -/
theorem echo_prints_false :
    ¬ ∀ (other : OtherRoutines) (text : List Char) (s : ShellState), Intact s →
      1 ≤ text.length → text.length ≤ 189 → text.head? ≠ some ' ' → Clean text →
      EntersPrinting other ("echo ".toList ++ text) (text ++ "\n".toList) s := by
  intro h
  have hintact : Intact (bootstrapped ShellState.initial) :=
    (bootstrapped_shows ShellState.initial).verify
  have hprints := h (fun _ t => .ok t) ['h', 'i'] _ hintact (by decide) (by decide) (by decide)
    (by decide)
  rw [entersPrinting_iff _ hintact (by decide) (by decide) (by decide)] at hprints
  exact absurd hprints (by decide)

end Shell
end WhitexKernel
