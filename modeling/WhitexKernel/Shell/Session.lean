import WhitexKernel.Shell.Echo
import WhitexKernel.Shell.SelfCheck

/-!
# Session — the main loop (`Kernel.c`)

`Kernel` shows its prompt, reads a line, cuts it off at the first separator and hands it on, round after
round; every 500th round it looks after its stack, and every 3000th after the memory and itself.

`Summary` says what a session amounts to, without flags, canaries and rings.  The kernel follows it for
as long as only commands of the table are typed and their routines come back (`kernelLoop_follows`).
-/

namespace WhitexKernel
namespace Shell

open Lib Machine

/-! ## Rounds -/

/-- What a round of the loop gets: the line typed at the prompt, the answers that `sudo` would get, and
what the routine of any other command would do at this time, with the files, the tasks, the disk and
the further lines that it finds. -/
structure Round where
  line : TypedLine
  authLine : TypedLine
  credLine : TypedLine
  other : OtherRoutines

/-- What the loop does besides. -/
inductive LoopEvent
  | watchStack
  | oomMonitorCheck
  | prompt (text : List Char)
  deriving DecidableEq, Repr

structure KernelState where
  shell : ShellState
  trace : List LoopEvent

/-- `SYS_TICK_MAX` -/
def sysTickMax : Nat := 3000

/-- The routines behind the calls. -/
def otherRoutine (round : Round) : OtherRoutines
  | .withArgs .cmdSudoHandler _, s => cmdSudoHandler round.authLine round.credLine s
  | call, s => round.other call s

def readLine (round : Round) (s : ShellState) : Except Stop ShellState :=
  enterLine (otherRoutine round) round.line.text s

/-- `"\nroot@whitex~$ "` or `"\nwhitex~$ "` -/
def promptText (isRoot : Nat) : List Char :=
  if isRoot = 1 then "\nroot@whitex~$ ".toList else "\nwhitex~$ ".toList

/-- The body of the loop before the prompt; the two routines that it calls are left to themselves. -/
def kernelTick (k : KernelState) : Except Stop KernelState := do
  let tick := (k.shell.tickCounter + 1) % 2 ^ 64
  let trace := k.trace ++ (if tick % 500 = 0 then [.watchStack] else [])
  if tick ≥ sysTickMax then
    let s ← sysVerifyIntegrity { k.shell with tickCounter := 0 }
    return { shell := s, trace := trace ++ [.oomMonitorCheck] }
  else
    return { shell := { k.shell with tickCounter := tick }, trace := trace }

def kernelRound (round : Round) (k : KernelState) : Except Stop KernelState := do
  let k ← kernelTick k
  let text := promptText k.shell.env.isRoot
  let s ← readLine round (k.shell.print text)
  return { shell := s, trace := k.trace ++ [.prompt text] }

/-- The loop, for the lines typed so far. -/
def kernelLoop : List Round → KernelState → Except Stop KernelState
  | [], k => .ok k
  | round :: rounds, k =>
      if k.shell.env.systemState = 1 then do
        let k ← kernelRound round k
        kernelLoop rounds k
      else do
        let s ← sysPanic "ERR_MAIN_LOOP_EXIT".toList k.shell
        return { k with shell := s }

/-- The state in which the loop is entered: only `sys_env_bootstrap` has to do with these globals. -/
def kernelStart : KernelState :=
  { shell := bootstrapped ShellState.initial
    trace := [] }

/-! ## What a session amounts to -/

/-- The command of a line and its arguments. -/
def Round.command (round : Round) : Option (List Char × List Char) :=
  let raw := sysSanitizeString round.line.text sysMaxBuffer
  if raw = [] ∨ raw.head? = some ' ' then none else some (extractCommand raw)

/-- The line is blank or starts with a command of the table. -/
def Round.Recognized (round : Round) : Prop := ∀ command ∈ round.command, Known command.1

/-- The call that a command leads to. -/
def commandCall (cmdName args : List Char) : Option Invocation :=
  (dispatchTable.find? (selects cmdName)).bind fun entry => entry.call args

/-- If the line calls a routine other than those of `echo` and `sudo`, it comes back: it does not
shut down, reset or fault.  What is printed is all that these routines have to do with the globals of
`Kernel.c`. -/
def Round.Returns (round : Round) : Prop :=
  ∀ command ∈ round.command, command.1 ≠ "echo".toList → command.1 ≠ "sudo".toList →
    ∀ call ∈ commandCall command.1 command.2, ∀ s, ∃ text,
      round.other call s = .ok (s.print text)

/-- What an attempt to become root leaves in the log. -/
def sudoEntries (tick : Nat) (round : Round) : List LogEntry :=
  if confirms (sysSanitizeString round.authLine.text sysMaxBuffer) then
    if granted round.authLine round.credLine then
      [logEntry 1 tick "PRIVILEGE_ESCALATION_SUCCESS_RING0".toList]
    else [logEntry 2 tick "PRIVILEGE_ESCALATION_FAILED_INVALID_CREDENTIAL".toList]
  else []

structure Summary where
  rounds : Nat
  authority : Authority
  /-- The commands that have been carried out. -/
  commands : Nat
  calls : List Invocation
  /-- All that has been logged. -/
  history : List LogEntry
  trace : List LoopEvent

namespace Summary

/-- What happens in round `n` before the line is read. -/
def events (a : Authority) (n : Nat) : List LoopEvent :=
  (if n % 500 = 0 then [.watchStack] else []) ++ (if n % 3000 = 0 then [.oomMonitorCheck] else []) ++
    [.prompt (promptText a.isRoot)]

def round (a : Summary) (round : Round) : Summary :=
  let n := a.rounds + 1
  let a := { a with rounds := n, trace := a.trace ++ events a.authority n }
  match round.command with
  | none => a
  | some (cmdName, args) =>
      let attempt := cmdName = "sudo".toList
      { a with
        authority :=
          if attempt then a.authority.next (.sudoAttempt round.authLine round.credLine)
          else a.authority
        commands := a.commands + 1
        calls := a.calls ++ (commandCall cmdName args).toList
        history := a.history ++ logEntry 0 (n % 3000) cmdName ::
          if attempt then sudoEntries (n % 3000) round else [] }

def start : Summary :=
  { rounds := 0
    authority := .guarded
    commands := 0
    calls := []
    history := [logEntry 0 0 "KERNEL_BOOTSTRAP_INITIALIZED_WITH_ASLR".toList]
    trace := [] }

end Summary

/-- The globals show `a`. -/
structure ShellState.Tracks (s : ShellState) (a : Summary) : Prop where
  authority : Shows a.authority s
  running : s.env.systemState = 1
  cycles : s.env.executionCycles = wrap32 a.commands
  tick : s.tickCounter = a.rounds % 3000
  invoked : s.invoked = a.calls
  ring : s.sysLog.ring.WellFormed sysLogCapacity
  log : s.sysLog.walk = a.history.rtake sysLogCapacity

structure KernelState.Follows (k : KernelState) (a : Summary) : Prop where
  shell : k.shell.Tracks a
  trace : k.trace = a.trace

/-! ## One step of the globals -/

namespace ShellState.Tracks

variable {s : ShellState} {a : Summary}

theorem print (h : s.Tracks a) (text : List Char) : (s.print text).Tracks a :=
  ⟨h.authority.print text, h.running, h.cycles, h.tick, h.invoked, h.ring, h.log⟩

theorem invoke (h : s.Tracks a) (call : Invocation) :
    (s.invoke call).Tracks { a with calls := a.calls ++ [call] } where
  authority := ⟨⟨h.authority.sound.structuralCanary, h.authority.sound.structuresCanary,
    h.authority.sound.baseAddress, h.authority.sound.limit⟩, h.authority.isRoot,
    h.authority.isolationActive, h.authority.memoryGuard⟩
  running := h.running
  cycles := h.cycles
  tick := h.tick
  invoked := congrArg (· ++ [call]) h.invoked
  ring := h.ring
  log := h.log

theorem logged (h : s.Tracks a) (level : Nat) (msg : List Char) :
    (s.logged level msg).Tracks
      { a with history := a.history ++ [logEntry level (a.rounds % 3000) msg] } where
  authority := h.authority.logged level msg
  running := h.running
  cycles := h.cycles
  tick := h.tick
  invoked := h.invoked
  ring := by
    have hring := h.ring.overwrite (logEntry level s.tickCounter msg)
    rw [← SysLogRing.ring_logged] at hring
    exact hring
  log := by
    have hring := h.ring.overwrite (logEntry level s.tickCounter msg)
    have hcontents := h.ring.contents_overwrite (logEntry level s.tickCounter msg)
    rw [← SysLogRing.ring_logged] at hring hcontents
    have hlog := h.log
    rw [SysLogRing.walk_eq h.ring] at hlog
    change (s.sysLog.makeRoom.store (logEntry level s.tickCounter msg)).walk = _
    rw [SysLogRing.walk_eq hring, hcontents, hlog, Ring.rtake_rtake_concat (by decide), h.tick]

theorem setTick (h : s.Tracks a) (n : Nat) :
    ({ s with tickCounter := n % 3000 } : ShellState).Tracks { a with rounds := n } where
  authority := h.authority.tick _
  running := h.running
  cycles := h.cycles
  tick := rfl
  invoked := h.invoked
  ring := h.ring
  log := h.log

theorem counted (h : s.Tracks a) (cmdName : List Char) :
    (counted cmdName s).Tracks
      { a with
        commands := a.commands + 1
        history := a.history ++ [logEntry 0 (a.rounds % 3000) cmdName] } := by
  have hone : ({ s with env := { s.env with
      executionCycles := wrap32 (s.env.executionCycles + 1) } } : ShellState).Tracks
        { a with commands := a.commands + 1 } :=
    { authority := ⟨⟨h.authority.sound.structuralCanary, h.authority.sound.structuresCanary,
        h.authority.sound.baseAddress, h.authority.sound.limit⟩, h.authority.isRoot,
        h.authority.isolationActive, h.authority.memoryGuard⟩
      running := h.running
      cycles := by
        change wrap32 (s.env.executionCycles + 1) = wrap32 (a.commands + 1)
        rw [h.cycles]
        exact Nat.mod_add_mod _ _ _
      tick := h.tick
      invoked := h.invoked
      ring := h.ring
      log := h.log }
  exact hone.logged 0 cmdName

/-- Other flags, which show another authority. -/
theorem withFlags (h : s.Tracks a) {b : Authority} {isRoot isolationActive memoryGuard : Nat}
    (hb : Shows b (s.withFlags isRoot isolationActive memoryGuard)) :
    (s.withFlags isRoot isolationActive memoryGuard).Tracks { a with authority := b } :=
  ⟨hb, h.running, h.cycles, h.tick, h.invoked, h.ring, h.log⟩

/-- The log entry and the message that an attempt to become root ends with. -/
theorem report (h : s.Tracks a) (level : Nat) (msg text : List Char) :
    ∃ t, (do
      let s ← sysLogWrite level msg s
      return s.print text) = Except.ok t ∧
        t.Tracks { a with history := a.history ++ [logEntry level (a.rounds % 3000) msg] } :=
  ⟨(s.logged level msg).print text,
    by simp [sysLogWrite_ok h.authority.sound.structuresCanary, pure, Except.pure],
    (h.logged level msg).print text⟩

theorem cmdSudoHandler (h : s.Tracks a) (round : Round) :
    ∃ t, cmdSudoHandler round.authLine round.credLine s = .ok t ∧
      t.Tracks
        { a with
          authority := a.authority.next (.sudoAttempt round.authLine round.credLine)
          history := a.history ++ sudoEntries (a.rounds % 3000) round } := by
  have hasked := h.print "Do you have root privileges? (yes/no): ".toList
  have hcred := hasked.print "Enter root authentication password: ".toList
  unfold Shell.cmdSudoHandler sudoEntries
  simp only [h.authority.verify, Outcome.ok_bind, Authority.next]
  by_cases hauth : confirms (sysSanitizeString round.authLine.text sysMaxBuffer) = true
  · by_cases hroot : sysConstantTimeCompare (sysSanitizeString round.credLine.text sysMaxBuffer)
        "root".toList sysMaxBuffer = true
    · have hgranted : granted round.authLine round.credLine := ⟨hauth, hroot⟩
      rw [if_pos hauth, if_pos hroot, if_pos hgranted, if_pos hauth, if_pos hgranted]
      exact (hcred.withFlags (Shows.withFlags hcred.authority.sound .root)).report _ _ _
    · have hgranted : ¬ granted round.authLine round.credLine := fun hboth => hroot hboth.2
      rw [if_pos hauth, if_neg hroot, if_neg hgranted, if_pos hauth, if_neg hgranted]
      exact (hcred.withFlags hcred.authority.refused).report _ _ _
  · have hgranted : ¬ granted round.authLine round.credLine := fun hboth => hauth hboth.1
    rw [if_neg hauth, if_neg hgranted, if_neg hauth, List.append_nil]
    exact ⟨_, rfl, (hasked.withFlags hasked.authority.refused).print _⟩

end ShellState.Tracks

/-! ## One round -/

section Rounds

variable {s : ShellState} {a : Summary} {round : Round}

theorem commandCall_known {entry : DispatchEntry} (hentry : entry ∈ dispatchTable)
    (args : List Char) : commandCall entry.signature.toList args = entry.call args := by
  unfold commandCall
  rw [find_known hentry]
  rfl

/-- Only `echo` calls its own handler. -/
theorem call_echo_iff {entry : DispatchEntry} (hentry : entry ∈ dispatchTable) (args : List Char) :
    entry.call args = some (.withArgs .cmdEchoHandler args) ↔
      entry.signature.toList = "echo".toList := by
  have htable : ∀ entry ∈ dispatchTable,
      (entry.requiresArgs ≠ 0 ∧ entry.execArgPtr = some .cmdEchoHandler) ↔
        entry.signature.toList = "echo".toList := by decide
  rw [← htable entry hentry]
  unfold DispatchEntry.call
  split
  case isTrue hargs => simp [hargs]
  case isFalse hargs => simp [hargs]

/-- Only `sudo` calls its own handler. -/
theorem call_sudo_iff {entry : DispatchEntry} (hentry : entry ∈ dispatchTable) (args : List Char) :
    entry.call args = some (.withArgs .cmdSudoHandler args) ↔
      entry.signature.toList = "sudo".toList := by
  have htable : ∀ entry ∈ dispatchTable,
      (entry.requiresArgs ≠ 0 ∧ entry.execArgPtr = some .cmdSudoHandler) ↔
        entry.signature.toList = "sudo".toList := by decide
  rw [← htable entry hentry]
  unfold DispatchEntry.call
  split
  case isTrue hargs => simp [hargs]
  case isFalse hargs => simp [hargs]

theorem withArgs_args {entry : DispatchEntry} {args args' : List Char} {routine : ArgRoutine}
    (h : entry.call args = some (.withArgs routine args')) : args' = args := by
  unfold DispatchEntry.call at h
  split at h
  · rcases Option.map_eq_some_iff.1 h with ⟨_, _, hcall⟩
    exact (Invocation.withArgs.inj hcall).2.symm
  · rcases Option.map_eq_some_iff.1 h with ⟨_, _, hcall⟩
    cases hcall

theorem tracks_cmdEchoHandler (h : s.Tracks a) (args : List Char) :
    (cmdEchoHandler args s).Tracks a := by
  unfold cmdEchoHandler echo
  split
  · exact h.print _
  · split
    · exact (h.print _).print _
    · exact h.print _

/-- What the routine does with the globals. -/
theorem performCall_tracks (h : s.Tracks a) {entry : DispatchEntry}
    (hentry : entry ∈ dispatchTable) {args : List Char} {call : Invocation}
    (hcall : entry.call args = some call) {round : Round}
    (hreturns : entry.signature.toList ≠ "echo".toList → entry.signature.toList ≠ "sudo".toList →
      ∀ s, ∃ text, round.other call s = .ok (s.print text)) :
    ∃ t, performCall (otherRoutine round) s call = .ok t ∧
      t.Tracks
        { a with
          authority :=
            if entry.signature.toList = "sudo".toList then
              a.authority.next (.sudoAttempt round.authLine round.credLine)
            else a.authority
          history := a.history ++
            if entry.signature.toList = "sudo".toList then sudoEntries (a.rounds % 3000) round
            else [] } := by
  by_cases hsudo : entry.signature.toList = "sudo".toList
  · have hsame := (call_sudo_iff hentry args).2 hsudo
    rw [hcall] at hsame
    cases hsame
    rw [if_pos hsudo, if_pos hsudo]
    exact h.cmdSudoHandler round
  · rw [if_neg hsudo, if_neg hsudo, List.append_nil]
    unfold performCall
    split
    case h_1 args' => exact ⟨_, rfl, tracks_cmdEchoHandler h args'⟩
    case h_2 hecho =>
      unfold otherRoutine
      split
      case h_1 args' _ =>
        rw [withArgs_args hcall] at hcall
        exact absurd ((call_sudo_iff hentry _).1 hcall) hsudo
      case h_2 =>
        have hother : entry.signature.toList ≠ "echo".toList := by
          intro hname
          have hsame := (call_echo_iff hentry args).2 hname
          rw [hcall] at hsame
          exact hecho args (Option.some.inj hsame)
        rcases hreturns hother hsudo s with ⟨text, htext⟩
        exact ⟨_, htext, h.print text⟩

/-- A command that starts with a character has a name. -/
theorem extractCommand_ne_nil {raw : List Char} (hraw : ¬(raw = [] ∨ raw.head? = some ' ')) :
    (extractCommand raw).1 ≠ [] := by
  cases raw with
  | nil => exact absurd (.inl rfl) hraw
  | cons c raw =>
      have hc : c ≠ ' ' := fun hspace => hraw (.inr (congrArg some hspace))
      unfold extractCommand
      change (copyWhile (· ≠ ' ') 63 (c :: raw)).1 ≠ []
      rw [copyWhile, if_pos (by simpa using hc)]
      exact List.cons_ne_nil _ _

theorem Round.command_eq_none :
    round.command = none ↔ sysSanitizeString round.line.text sysMaxBuffer = [] ∨
      (sysSanitizeString round.line.text sysMaxBuffer).head? = some ' ' := by
  unfold Round.command
  dsimp only
  split
  case isTrue h => simp [h]
  case isFalse h => simp [h]

theorem Round.command_eq_some {command : List Char × List Char} (h : round.command = some command) :
    ¬(sysSanitizeString round.line.text sysMaxBuffer = [] ∨
      (sysSanitizeString round.line.text sysMaxBuffer).head? = some ' ') ∧
      command = extractCommand (sysSanitizeString round.line.text sysMaxBuffer) := by
  unfold Round.command at h
  dsimp only at h
  split at h
  case isTrue => cases h
  case isFalse hraw => exact ⟨hraw, (Option.some.inj h).symm⟩

theorem readLine_blank (h : s.Tracks a) (hblank : round.command = none) :
    readLine round s = .ok s := by
  rcases Round.command_eq_none.1 hblank with hempty | hspace
  · exact if_neg (not_not.2 hempty)
  · have hparse : sysParseInput (sysSanitizeString round.line.text sysMaxBuffer) s = .ok s := by
      unfold sysParseInput
      rw [h.authority.verify, Outcome.ok_bind, if_pos (.inr hspace)]
      rfl
    unfold readLine enterLine
    dsimp only
    split
    case isFalse => rfl
    case isTrue =>
      rw [hparse, Outcome.ok_bind, List.drop_length]
      rfl

theorem readLine_unknown (h : s.Tracks a) {command : List Char × List Char}
    (hcommand : round.command = some command) (hunknown : ¬ Known command.1) :
    readLine round s = .error (.outOfBounds dispatchTable.length) := by
  rcases Round.command_eq_some hcommand with ⟨hraw, rfl⟩
  have hparse : sysParseInput (sysSanitizeString round.line.text sysMaxBuffer) s =
      .error (.outOfBounds dispatchTable.length) := by
    unfold sysParseInput
    rw [h.authority.verify, Outcome.ok_bind, if_neg hraw]
    exact sysExecuteVector_unknown h.authority.verify (extractCommand_ne_nil hraw) hunknown
  unfold readLine enterLine
  dsimp only
  rw [if_pos (fun hempty => hraw (.inl hempty)), hparse]
  rfl

theorem readLine_known (h : s.Tracks a) {cmdName args : List Char}
    (hcommand : round.command = some (cmdName, args)) (hknown : Known cmdName)
    (hreturns : round.Returns) :
    ∃ t, readLine round s = .ok t ∧
      t.Tracks
        { a with
          authority :=
            if cmdName = "sudo".toList then
              a.authority.next (.sudoAttempt round.authLine round.credLine)
            else a.authority
          commands := a.commands + 1
          calls := a.calls ++ (commandCall cmdName args).toList
          history := a.history ++ logEntry 0 (a.rounds % 3000) cmdName ::
            if cmdName = "sudo".toList then sudoEntries (a.rounds % 3000) round else [] } := by
  rcases Round.command_eq_some hcommand with ⟨hraw, hextract⟩
  rcases hknown with ⟨entry, hentry, rfl⟩
  have hparse : sysParseInput (sysSanitizeString round.line.text sysMaxBuffer) s =
      sysExecuteVector entry.signature.toList args s := by
    unfold sysParseInput
    rw [h.authority.verify, Outcome.ok_bind, if_neg hraw, ← hextract]
  have hcounted := h.counted entry.signature.toList
  unfold readLine enterLine
  dsimp only
  rw [if_pos (fun hempty => hraw (.inl hempty)), hparse,
    sysExecuteVector_known h.authority.verify hentry rfl, Outcome.ok_bind,
    commandCall_known hentry]
  cases hcall : entry.call args with
  | none =>
      -- a command without a routine is counted and logged all the same
      dsimp only
      rw [invoked_counted, List.drop_length]
      refine ⟨_, rfl, ?_⟩
      have hsudo : entry.signature.toList ≠ "sudo".toList := by
        intro hsudo
        rw [(call_sudo_iff hentry _).2 hsudo] at hcall
        cases hcall
      rw [if_neg hsudo, if_neg hsudo, Option.toList_none, List.append_nil]
      exact hcounted
  | some call =>
      have hnew : ((counted entry.signature.toList s).invoke call).invoked.drop
          s.invoked.length = [call] := by
        change (s.invoked ++ [call]).drop s.invoked.length = [call]
        exact List.drop_left
      dsimp only
      rw [hnew, List.foldlM_cons]
      have hcomes : entry.signature.toList ≠ "echo".toList → entry.signature.toList ≠ "sudo".toList →
          ∀ s, ∃ text, round.other call s = .ok (s.print text) := by
        intro hecho hsudo
        refine hreturns _ hcommand hecho hsudo call ?_
        rw [commandCall_known hentry]
        exact hcall
      rcases performCall_tracks (hcounted.invoke call) hentry hcall hcomes with ⟨t, ht, htracks⟩
      rw [ht, Outcome.ok_bind]
      refine ⟨t, rfl, ?_⟩
      rw [List.append_assoc] at htracks
      exact htracks

/-- The bookkeeping before the prompt. -/
theorem kernelTick_follows {k : KernelState} (h : k.Follows a) :
    ∃ u : KernelState, kernelTick k = .ok u ∧ u.shell.Tracks { a with rounds := a.rounds + 1 } ∧
      u.trace ++ [.prompt (promptText a.authority.isRoot)] =
        a.trace ++ Summary.events a.authority (a.rounds + 1) := by
  have htick : (k.shell.tickCounter + 1) % 2 ^ 64 = a.rounds % 3000 + 1 := by
    rw [h.shell.tick]
    omega
  -- the counter starts again at a multiple of 500
  have hwatch : (a.rounds % 3000 + 1) % 500 = 0 ↔ (a.rounds + 1) % 500 = 0 := by omega
  unfold kernelTick Summary.events
  dsimp only
  rw [htick, h.trace]
  simp only [hwatch]
  split
  case isTrue hmax =>
    unfold sysTickMax at hmax
    have hround : (a.rounds + 1) % 3000 = 0 := by omega
    have htracks := h.shell.setTick (a.rounds + 1)
    rw [hround] at htracks
    rw [htracks.authority.verify, Outcome.ok_bind, if_pos hround]
    refine ⟨_, rfl, htracks, ?_⟩
    simp only [List.append_assoc]
  case isFalse hmax =>
    unfold sysTickMax at hmax
    have hround : (a.rounds + 1) % 3000 ≠ 0 := by omega
    have hsame : a.rounds % 3000 + 1 = (a.rounds + 1) % 3000 := by omega
    rw [if_neg hround, hsame]
    refine ⟨_, rfl, h.shell.setTick (a.rounds + 1), ?_⟩
    simp only [List.append_assoc, List.nil_append]

theorem kernelRound_follows {k : KernelState} (h : k.Follows a) (round : Round) :
    (round.Recognized → round.Returns →
      ∃ u, kernelRound round k = .ok u ∧ u.Follows (a.round round)) ∧
      (¬ round.Recognized → kernelRound round k = .error (.outOfBounds dispatchTable.length)) := by
  rcases kernelTick_follows h with ⟨u, hu, htracks, htrace⟩
  have hroot : u.shell.env.isRoot = a.authority.isRoot := htracks.authority.isRoot
  have hprinted := htracks.print (promptText a.authority.isRoot)
  unfold kernelRound
  rw [hu, Outcome.ok_bind, hroot]
  dsimp only
  cases hcommand : round.command with
  | none =>
      have hrecognized : round.Recognized := by
        intro command hmem
        rw [hcommand] at hmem
        cases hmem
      refine ⟨fun _ _ => ?_, fun hnot => absurd hrecognized hnot⟩
      rw [readLine_blank hprinted hcommand, Outcome.ok_bind]
      refine ⟨_, rfl, ?_, ?_⟩
      · unfold Summary.round
        rw [hcommand]
        exact ⟨hprinted.authority, hprinted.running, hprinted.cycles, hprinted.tick,
          hprinted.invoked, hprinted.ring, hprinted.log⟩
      · unfold Summary.round
        rw [hcommand]
        exact htrace
  | some command =>
      constructor
      · intro hrecognized hreturns
        have hknown := hrecognized command hcommand
        rcases readLine_known hprinted hcommand hknown hreturns with ⟨t, ht, hafter⟩
        rw [ht, Outcome.ok_bind]
        refine ⟨_, rfl, ?_, ?_⟩
        · unfold Summary.round
          rw [hcommand]
          exact ⟨hafter.authority, hafter.running, hafter.cycles, hafter.tick, hafter.invoked,
            hafter.ring, hafter.log⟩
        · unfold Summary.round
          rw [hcommand]
          exact htrace
      · intro hnot
        have hunknown : ¬ Known command.1 := by
          intro hknown
          refine hnot fun other hother => ?_
          rw [hcommand] at hother
          cases hother
          exact hknown
        rw [readLine_unknown hprinted hcommand hunknown]
        rfl

end Rounds

/-! ## Whole sessions -/

theorem kernelStart_follows : kernelStart.Follows .start := by
  rcases sysLogWrites_bootstrapped ShellState.initial [] with ⟨u, hu, hring, hwalk⟩
  cases hu
  refine ⟨⟨bootstrapped_shows ShellState.initial, ?_, ?_, ?_, ?_, hring, hwalk⟩, rfl⟩
  all_goals rfl

/-- A session goes on for as long as lines are blank or start with a command of the table whose
routine comes back, and the kernel is then where the summary of the session says; with the first other
line, it leaves the table. -/
theorem kernelLoop_follows (rounds : List Round)
    (hlines : ∀ round ∈ rounds, round.Recognized ∧ round.Returns) :
    (∃ k, kernelLoop rounds kernelStart = .ok k ∧
      k.Follows (rounds.foldl Summary.round .start)) ∧
    ∀ other rest, ¬ other.Recognized →
      kernelLoop (rounds ++ other :: rest) kernelStart =
        .error (.outOfBounds dispatchTable.length) := by
  have hall : ∀ k a, KernelState.Follows k a →
      (∃ u, kernelLoop rounds k = .ok u ∧ u.Follows (rounds.foldl Summary.round a)) ∧
      ∀ other rest, ¬ other.Recognized →
        kernelLoop (rounds ++ other :: rest) k = .error (.outOfBounds dispatchTable.length) := by
    induction rounds with
    | nil =>
        intro k a h
        refine ⟨⟨k, rfl, h⟩, fun other rest hnot => ?_⟩
        rw [List.nil_append, kernelLoop, if_pos h.shell.running, (kernelRound_follows h other).2 hnot]
        rfl
    | cons round rounds ih =>
        intro k a h
        rcases List.forall_mem_cons.1 hlines with ⟨⟨hrecognized, hreturns⟩, hrest⟩
        rcases (kernelRound_follows h round).1 hrecognized hreturns with ⟨u, hu, hfollows⟩
        rcases ih hrest u _ hfollows with ⟨hgood, hbad⟩
        refine ⟨?_, fun other rest hnot => ?_⟩
        · rw [kernelLoop, if_pos h.shell.running, hu, Outcome.ok_bind]
          exact hgood
        rw [List.cons_append, kernelLoop, if_pos h.shell.running, hu, Outcome.ok_bind]
        exact hbad other rest hnot
  exact hall kernelStart .start kernelStart_follows

/-- The characters of `text` are on keys, and the input buffer has room for them. -/
def Fits (text : List Char) : Prop := text.length ≤ 254 ∧ OnKeys text

theorem fits_blank : Fits [] := by
  unfold Fits
  decide +kernel

theorem fits_pwd : Fits ['p', 'w', 'd'] := by
  unfold Fits
  decide +kernel

theorem fits_sudo : Fits ['s', 'u', 'd', 'o'] := by
  unfold Fits
  decide +kernel

theorem fits_yes : Fits ['y', 'e', 's'] := by
  unfold Fits
  decide +kernel

theorem fits_root : Fits ['r', 'o', 'o', 't'] := by
  unfold Fits
  decide +kernel

/-- A round for `line` in which whoever asks gets the right answers, and every other routine prints a
newline and comes back. -/
def plainRound (line : TypedLine) : Round :=
  { line := line
    authLine := typed ['y', 'e', 's'] fits_yes
    credLine := typed ['r', 'o', 'o', 't'] fits_root
    other := fun _ s => .ok (s.print ['\n']) }

theorem plainRound_returns (line : TypedLine) : (plainRound line).Returns :=
  fun _ _ _ _ _ _ _ => ⟨['\n'], rfl⟩

/-- A blank line, a command that prints, and a successful `sudo`. -/
def sudoSession : List Round :=
  [plainRound (typed [] fits_blank),
    plainRound (typed ['p', 'w', 'd'] fits_pwd),
    plainRound (typed ['s', 'u', 'd', 'o'] fits_sudo)]

theorem kernelLoop_follows_sudoSession :
    ∃ k, kernelLoop sudoSession kernelStart = .ok k ∧ k.shell.env.isRoot = 1 ∧
      k.shell.env.executionCycles = 2 := by
  have hlines : ∀ round ∈ sudoSession, round.Recognized ∧ round.Returns := by
    intro round hround
    simp only [sudoSession, List.mem_cons, List.not_mem_nil, or_false] at hround
    rcases hround with rfl | rfl | rfl
    all_goals
      refine ⟨?_, plainRound_returns _⟩
      unfold Round.Recognized Known
      decide +kernel
  rcases (kernelLoop_follows sudoSession hlines).1 with ⟨k, hk, hfollows⟩
  exact ⟨k, hk, hfollows.shell.authority.isRoot, hfollows.shell.cycles⟩

end Shell
end WhitexKernel
