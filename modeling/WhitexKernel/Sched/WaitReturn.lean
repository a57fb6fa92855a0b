import Mathlib.Tactic.SplitIfs
import WhitexKernel.Sched.Wait

/-!
# WaitReturn — when `scheduler_wait_pid` returns

`scheduler_ipc_receive` tests its channel again whenever it is resumed; `scheduler_wait_pid` blocks
once and returns as soon as its process is current again.  So whether its target is dead by then
depends on everything that can make a process ready or current: `SIGCONT`, the fallback to entry 0,
the shortcut for a single process, and a second process of the same PID.
-/

namespace WhitexKernel
namespace Sched

open Lib Machine Oom SchedulerState

/-! ## Where a turn yields -/

/-- The state in which `scheduler_ipc_receive` yields. -/
def receiveYieldState (s : SchedulerState) : Option SchedulerState :=
  if s.current.communicationChannel.count = 0 then
    some (s.modifyPcb s.runningProcessIndex (blockPcb 0))
  else none

/-- The state in which `scheduler_send_signal` yields: the current process stops or kills itself. -/
def signalYieldState (s : SchedulerState) (targetPid signal : Nat) : Option SchedulerState :=
  match s.findLive targetPid with
  | none => none
  | some i =>
      if s.runningProcessIndex = i then
        if signal = signalSigkill then
          some ((s.modifyPcb i (addPending signal)).modifyPcb i (setState .dead))
        else if signal = signalSigstop then
          some ((s.modifyPcb i (addPending signal)).modifyPcb i (setState .stopped))
        else none
      else none

/-- The state in which the turn calls `scheduler_yield`, if it does. -/
def yieldState (s : System) : Action → Option SchedulerState
  | .call .terminateCurrent => some (schedulerTerminateProcess s.sched s.sched.current.taskId).1
  | .call (.sendSignal targetPid signal) => signalYieldState s.sched targetPid signal
  | .call (.waitPid targetPid) =>
      (s.sched.findLive targetPid).map fun _ => s.sched.modifyPcb s.running (blockPcb targetPid)
  | .call (.ipcReceive _) => receiveYieldState s.sched
  | .call (.sleep ticks) =>
      some (s.sched.modifyPcb s.running (setDeadline (wrap32 (s.sched.kernelElapsedTicks + ticks))))
  | .call .yield => some s.sched
  | .resume =>
      match s.suspended s.running with
      | .inReceive _ => receiveYieldState s.sched
      | _ => none
  | _ => none

/-- The turn hands control on by one `scheduler_yield`, or keeps it. -/
def Controls (s t : SchedulerState) : Option SchedulerState → Prop
  | some u => t = schedulerYield u
  | none => t.runningProcessIndex = s.runningProcessIndex

theorem controls_schedulerSendSignal (s : SchedulerState) (pid signal : Nat) :
    Controls s (schedulerSendSignal s pid signal).1 (signalYieldState s pid signal) := by
  unfold schedulerSendSignal signalYieldState
  by_cases hsig : signal > 31
  -- a signal out of range is neither of the two that can end in a yield
  · have h9 : signal ≠ signalSigkill := by
      unfold signalSigkill
      omega
    have h19 : signal ≠ signalSigstop := by
      unfold signalSigstop
      omega
    cases s.findLive pid with
    | none => simp [hsig, Controls]
    | some i => simp [hsig, h9, h19, Controls]
  · simp only [hsig, if_false]
    cases s.findLive pid with
    | none => rfl
    | some i =>
        simp only [deliverSignal, yieldIfCurrent, modifyPcb_runningProcessIndex]
        by_cases hcur : s.runningProcessIndex = i
        · simp only [hcur, if_true]
          split_ifs <;> rfl
        · simp only [hcur, if_false]
          split_ifs <;> rfl

theorem controls_schedulerIpcReceive (s : SchedulerState) (maxLength : Nat) :
    Controls s (schedulerIpcReceive s maxLength).1 (receiveYieldState s) := by
  unfold schedulerIpcReceive receiveYieldState
  by_cases hempty : s.current.communicationChannel.count = 0
  · simp [hempty, Controls, blockCurrent]
  · simp [hempty, Controls]

theorem controls_schedulerIpcSend (s : SchedulerState) (dest : Nat) (message : Nat → UInt8)
    (length type : Nat) :
    Controls s (schedulerIpcSend s dest message length type).1 none := by
  unfold schedulerIpcSend
  simp only [Controls]
  repeat' split
  all_goals rfl

theorem controls_schedulerTerminateProcess (s : SchedulerState) (pid : Nat) :
    Controls s (schedulerTerminateProcess s pid).1 none := by
  unfold schedulerTerminateProcess
  simp only [Controls]
  repeat' split
  all_goals rfl

theorem controls_register {s t : System} {entryPoint priority rss flags : Nat}
    (h : s.register entryPoint priority rss flags = some t) : Controls s.sched t.sched none := by
  rcases System.register_cases h with ⟨_, _, ht | ht | ⟨_, stackRaw, ht⟩⟩
  all_goals
    rw [ht]
    rfl

/-- Control moves only by the yield of a turn. -/
theorem step_controls {s t : System} {a : Action} (h : s.step a = some t) :
    Controls s.sched t.sched (yieldState s a) := by
  cases System.step_turn h with
  | receiveAgain maxLength hsus =>
      simp only [yieldState, hsus]
      rw [System.receiveRound_sched]
      exact controls_schedulerIpcReceive s.sched maxLength
  | waitReturns pid target hsus =>
      -- the call returns without another yield
      simp only [yieldState, hsus]
      rfl
  | call c _ hcall =>
      cases c with
      | registerProcess entryPoint priority rss flags => exact controls_register hcall
      | terminateProcess pid =>
          cases hcall
          exact controls_schedulerTerminateProcess s.sched pid
      | terminateCurrent =>
          cases hcall
          rfl
      | sendSignal pid signal =>
          cases hcall
          exact controls_schedulerSendSignal s.sched pid signal
      | waitPid pid =>
          cases hcall
          simp only [yieldState, System.wait, schedulerWaitPid]
          cases s.sched.findLive pid with
          | none => rfl
          | some i => rfl
      | ipcSend dest message length type =>
          cases hcall
          rw [System.send_sched]
          exact controls_schedulerIpcSend s.sched dest message length type
      | ipcReceive maxLength =>
          cases hcall
          rw [System.receiveRound_sched]
          exact controls_schedulerIpcReceive s.sched maxLength
      | sleep ticks =>
          cases hcall
          rfl
      | yield =>
          cases hcall
          rfl

/-! ## Sparing the waiters -/

/-- The PID and the entry that a process suspended in `scheduler_wait_pid` waits for. -/
def Suspended.wait? : Suspended → Option (Nat × Nat)
  | .inWait pid target => some (pid, target)
  | _ => none

/-- What the processes are suspended in when the turn yields. -/
def pendingAt (s : System) : Action → Nat → Suspended
  | .call (.waitPid pid) =>
      match s.sched.findLive pid with
      | some i => Function.update s.suspended s.running (.inWait pid i)
      | none => s.suspended
  | _ => s.suspended

instance (s : SchedulerState) : Decidable s.SomeoneReady := by
  unfold SchedulerState.SomeoneReady
  infer_instance

/-- The entry that a yield made in this state resumes without having found it eligible. -/
def SchedulerState.fallback (s : SchedulerState) : Option Nat :=
  if s.activeProcessCount ≤ 1 then some s.runningProcessIndex
  else if s.SomeoneReady then none
  else some 0

instance (l : Lifecycle) (c pid target : Nat) (e : LifecycleEvent) :
    Decidable (l.SparesWait c pid target e) := by
  cases e <;> unfold Lifecycle.SparesWait <;> infer_instance

/-- The turn spares the processes inside `scheduler_wait_pid`: its event neither makes one of them
ready while its target lives nor revives a dead target, and its yield does not fall back on one of
them while its target lives. -/
structure SparesWaits (s : System) (a : Action) : Prop where
  event : ∀ c, c < s.sched.activeProcessCount → ∀ w ∈ (s.suspended c).wait?,
    (view s.sched).SparesWait c w.1 w.2 (lifecycleEvent s a)
  fallback : ∀ u ∈ yieldState s a, ∀ c ∈ u.fallback, ∀ w ∈ (pendingAt s a c).wait?,
    (u.processTable w.2).executionState = .dead

instance (s : System) (a : Action) : Decidable (SparesWaits s a) :=
  decidable_of_iff (_ ∧ _) ⟨fun h => ⟨h.1, h.2⟩, fun h => ⟨h.event, h.fallback⟩⟩

/-! ## Who is inside `scheduler_wait_pid` -/

theorem receiveRound_suspended (s : System) (maxLength c : Nat) {pid i : Nat}
    (h : (s.receiveRound maxLength).suspended c = .inWait pid i) :
    s.suspended c = .inWait pid i ∧ c ≠ s.running := by
  unfold System.receiveRound at h
  split at h
  all_goals
    simp only [System.suspend_suspended] at h
    split at h
    · cases h
    case isFalse hc => exact ⟨h, hc⟩

theorem send_suspended (s : System) (dest : Nat) (message : Nat → UInt8) (length type : Nat) :
    (s.send dest message length type).suspended = s.suspended := by
  unfold System.send
  split <;> rfl

theorem register_suspended {s t : System} {entryPoint priority rss flags c pid i : Nat}
    (h : s.register entryPoint priority rss flags = some t)
    (hc : t.suspended c = .inWait pid i) : s.suspended c = .inWait pid i := by
  unfold System.register at h
  split at h
  · cases h
  · cases h
    simp only [System.suspend_suspended] at hc
    split at hc
    · cases hc
    · exact hc
  · cases h
    exact hc

/-- A process inside `scheduler_wait_pid` has called it this turn, or was inside before and is not
the one whose turn it is. -/
theorem step_suspended {s t : System} {a : Action} {c pid i : Nat} (h : s.step a = some t)
    (hc : t.suspended c = .inWait pid i) :
    (a = .call (.waitPid pid) ∧ c = s.running ∧ s.sched.findLive pid = some i) ∨
      (s.suspended c = .inWait pid i ∧ c ≠ s.running) := by
  cases System.step_turn h with
  | receiveAgain maxLength => exact .inr (receiveRound_suspended s maxLength c hc)
  | waitReturns pid' target =>
      rw [System.suspend_suspended] at hc
      split at hc
      · cases hc
      case isFalse hne => exact .inr ⟨hc, hne⟩
  | call call hidle hcall =>
      -- the process that makes a call is inside no other
      have hold : s.suspended c = .inWait pid i →
          s.suspended c = .inWait pid i ∧ c ≠ s.running := by
        intro hc'
        refine ⟨hc', ?_⟩
        rintro rfl
        rw [hidle] at hc'
        cases hc'
      cases call with
      | registerProcess entryPoint priority rss flags =>
          exact .inr (hold (register_suspended hcall hc))
      | terminateProcess pid' =>
          cases hcall
          exact .inr (hold hc)
      | terminateCurrent =>
          cases hcall
          exact .inr (hold hc)
      | sendSignal pid' signal =>
          cases hcall
          exact .inr (hold hc)
      | waitPid pid' =>
          cases hcall
          simp only [System.wait, schedulerWaitPid] at hc
          cases hfind : s.sched.findLive pid' with
          | none =>
              simp only [hfind, Option.map_none] at hc
              exact .inr (hold hc)
          | some j =>
              simp only [hfind, Option.map_some, System.suspend_suspended,
                System.withSched_suspended] at hc
              split at hc
              case isTrue hrun =>
                cases hc
                exact .inl ⟨rfl, hrun, hfind⟩
              case isFalse => exact .inr (hold hc)
      | ipcSend dest message length type =>
          cases hcall
          rw [send_suspended] at hc
          exact .inr (hold hc)
      | ipcReceive maxLength =>
          cases hcall
          exact .inr (receiveRound_suspended s maxLength c hc)
      | sleep ticks =>
          cases hcall
          exact .inr (hold hc)
      | yield =>
          cases hcall
          exact .inr (hold hc)

/-- Whoever is inside `scheduler_wait_pid` after the turn was so when it yielded. -/
theorem pendingAt_of_step {s t : System} {a : Action} {c pid i : Nat} (h : s.step a = some t)
    (hc : t.suspended c = .inWait pid i) : pendingAt s a c = .inWait pid i := by
  rcases step_suspended h hc with ⟨rfl, rfl, hfind⟩ | ⟨hc', hne⟩
  · simp [pendingAt, hfind]
  · cases a with
    | resume => exact hc'
    | call call =>
        cases call with
        | waitPid q =>
            cases hfind : s.sched.findLive q with
            | none => simpa [pendingAt, hfind] using hc'
            | some j => simpa [pendingAt, hfind, hne] using hc'
        | _ => exact hc'

/-! ## Waiting to the end -/

/-- Every process inside `scheduler_wait_pid` waits to the end: while its target lives, it is
neither ready nor current. -/
def WaitsHeld (s : System) : Prop :=
  ∀ c pid i, s.suspended c = .inWait pid i →
    c < s.sched.activeProcessCount ∧ (view s.sched).Waits c pid i ∧
      ((s.sched.processTable i).executionState ≠ .dead → c ≠ s.running)

/-- Whenever a call of `scheduler_wait_pid` is about to return, the process it found live is an
entry of that PID that is dead now. -/
def ReturnsAfterDeath (s : System) : Prop :=
  ∀ pid i, s.suspended s.running = .inWait pid i →
    i < s.sched.activeProcessCount ∧ (s.sched.processTable i).taskId = pid ∧
      (s.sched.processTable i).executionState = .dead

theorem WaitsHeld.returnsAfterDeath {s : System} (h : WaitsHeld s) : ReturnsAfterDeath s := by
  intro pid i hsus
  rcases h _ pid i hsus with ⟨_, hwaits, hcurrent⟩
  refine ⟨hwaits.used, hwaits.pid_target, ?_⟩
  by_contra hlive
  exact hcurrent hlive rfl

theorem waitsHeld_boot (k : Kernel) : WaitsHeld (System.boot k) := by
  intro c pid i hc
  cases hc

/-- The wait of a process that calls `scheduler_wait_pid`, or was inside it, after a sparing
turn. -/
theorem waits_of_step {s t : System} {a : Action} {c pid i : Nat} (hrun : RunningInTable s.sched)
    (hs : WaitsHeld s) (hspare : SparesWaits s a) (h : s.step a = some t)
    (hc : t.suspended c = .inWait pid i) :
    c < s.sched.activeProcessCount ∧ (view t.sched).Waits c pid i := by
  rw [step_view h]
  rcases step_suspended h hc with ⟨rfl, rfl, hfind⟩ | ⟨hc', hne⟩
  · -- A new wait: the caller is blocked on the PID of the live process it found.
    have htarget := findLive_eq_some hfind
    have hevent : lifecycleEvent s (.call (.waitPid pid)) = .block s.running pid := by
      simp [lifecycleEvent, waitEvent, hfind]
    refine ⟨hrun, ?_⟩
    rw [hevent]
    refine ⟨htarget.1.1, htarget.2, fun _ => ?_⟩
    simp [Lifecycle.apply, Lifecycle.setState]
  · rcases hs c pid i hc' with ⟨hcount, hwaits, _⟩
    refine ⟨hcount, hwaits.apply (step_enabled hrun a) ?_ ?_ ?_⟩
    · exact hspare.event c hcount (pid, i) (by simp [hc', Suspended.wait?])
    · intro q hq
      exact hne (eq_running_of_block hq)
    · intro q _
      exact Nat.ne_of_lt hcount

/-- A sparing turn lets every wait go on to its end. -/
theorem WaitsHeld.step {s t : System} {a : Action} (hrun : RunningInTable s.sched)
    (hs : WaitsHeld s) (hspare : SparesWaits s a) (h : s.step a = some t) : WaitsHeld t := by
  intro c pid i hc
  rcases waits_of_step hrun hs hspare h hc with ⟨hcount, hwaits⟩
  refine ⟨Nat.lt_of_lt_of_le hcount (step_count_le h), hwaits, fun hlive hcur => ?_⟩
  have hnotready : (t.sched.processTable c).executionState ≠ .running := (hwaits.held hlive).1
  have hcontrol := step_controls h
  cases hyield : yieldState s a with
  | none =>
      -- Without a yield the same process stays current, and it was not inside a wait.
      rw [hyield] at hcontrol
      have hsame : c = s.running := hcur.trans hcontrol
      rcases step_suspended h hc with ⟨rfl, _, hfind⟩ | ⟨_, hne⟩
      · simp [yieldState, hfind] at hyield
      · exact hne hsame
  | some u =>
      rw [hyield] at hcontrol
      have htable : t.sched = schedulerYield u := hcontrol
      have hpending := pendingAt_of_step h hc
      have hdead : c ∈ u.fallback → False := by
        intro hfall
        have hu := hspare.fallback u hyield c hfall (pid, i) (by simp [hpending, Suspended.wait?])
        refine hlive ?_
        have hstate := (schedulerYield_sameCore u).executionState i
        rw [← htable, hu] at hstate
        exact hstate
      have hindex : c = (schedulerYield u).runningProcessIndex := by
        rw [hcur, ← htable]
      rcases schedulerYield_cases u with ⟨hle, hfix⟩ | ⟨_, _, _, hel⟩ | ⟨hlt, hnone, hzero⟩
      · refine hdead ?_
        simp [SchedulerState.fallback, hle, hindex, hfix]
      · refine hnotready ?_
        rw [hindex, htable]
        exact hel.1
      · refine hdead ?_
        have hnle : ¬ u.activeProcessCount ≤ 1 := by omega
        simp [SchedulerState.fallback, hnle, hnone, hindex, hzero]

/-- In a run whose turns all spare the processes inside `scheduler_wait_pid`, every call returns
only after its target is dead. -/
theorem returnsAfterDeath_run (k : Kernel) (as : List Action)
    (h : AllSteps System.step SparesWaits (System.boot k) as) :
    AllStates System.step ReturnsAfterDeath (System.boot k) as := by
  refine (allStates_of_allSteps (I := fun s => RunningInTable s.sched ∧ WaitsHeld s) ?_
    ⟨runningInTable_boot k, waitsHeld_boot k⟩ h).mono fun s hs => hs.2.returnsAfterDeath
  rintro s a t ⟨hrun, hs⟩ ha hstep
  exact ⟨hrun.step hstep, hs.step hrun ha hstep⟩

/-- The master waits for the second process registered; the first one terminates that process and
yields, and the master returns. -/
theorem returnsAfterDeath_run_terminated :
    AllStates System.step ReturnsAfterDeath (System.boot (coldKernel 4096))
      [.call (.registerProcess 0x100000 schedDefaultPriority 128 0),
        .call (.registerProcess 0x100000 schedDefaultPriority 128 0),
        .call (.waitPid 101), .call (.terminateProcess 101), .call .yield, .resume] :=
  returnsAfterDeath_run _ _ (by decide)

/-- The master waits for the second process registered; the first one sends the master a `SIGCONT`
and yields, and the master returns while its target lives. -/
theorem returnsAfterDeath_run_false :
    ¬ ∀ (k : Kernel) (as : List Action),
      AllStates System.step ReturnsAfterDeath (System.boot k) as := by
  intro h
  have hrun : (exec System.step (System.boot (coldKernel 4096))
      [.call (.registerProcess 0x100000 schedDefaultPriority 128 0),
        .call (.registerProcess 0x100000 schedDefaultPriority 128 0),
        .call (.waitPid 101), .call (.sendSignal 100 signalSigcont), .call .yield]).any
        (fun t => decide (t.suspended t.running = .inWait 101 2) &&
          decide ((t.sched.processTable 2).executionState = .running)) = true := by
    decide
  rcases exists_of_exec_any hrun with ⟨t, hexec, ht⟩
  simp only [Bool.and_eq_true, decide_eq_true_eq] at ht
  have hdead := ((h _ _).last hexec 101 2 ht.1).2.2
  rw [ht.2] at hdead
  cases hdead

end Sched
end WhitexKernel
