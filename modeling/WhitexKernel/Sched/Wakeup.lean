import WhitexKernel.Sched.Ipc
import WhitexKernel.Sched.Supply

/-!
# Wakeup — a process that waits for a message has none

`waiting_on_pid = 0` says that a blocked process waits for a message.  It is set where the channel is
empty, and a message that arrives later makes the process ready.  But `scheduler_wait_pid` stores the
PID it is called with, so a process with messages must not wait for PID 0.

* `messagesHeard_run_iff` — nothing else can go wrong, on any machine;
* `messagesHeard_run` — no process has PID 0, since the seed does not get that far.
-/

namespace WhitexKernel
namespace Sched

open Lib Machine Oom SchedulerState

/-! ## Blocked processes and their channels -/

/-- A process that is blocked without a PID to wait for has no message. -/
def HeardAt (pcb : ProcessControlBlock) : Prop :=
  pcb.executionState = .blocked → pcb.waitingOnPid = 0 → pcb.communicationChannel.count = 0

namespace SchedulerState

/-- No process is blocked for a message that it has. -/
def MessagesHeard (s : SchedulerState) : Prop :=
  ∀ i, i < s.activeProcessCount → HeardAt (s.processTable i)

namespace MessagesHeard

variable {s t : SchedulerState}

theorem of_sameCore (hs : s.MessagesHeard) (h : SameCore s t) : t.MessagesHeard := by
  intro i hi
  rw [h.count] at hi
  have hi := hs i hi
  unfold HeardAt at hi ⊢
  rwa [h.executionState, h.waitingOnPid, h.communicationChannel]

theorem modifyPcb {i : Nat} {f : ProcessControlBlock → ProcessControlBlock}
    (hs : s.MessagesHeard) (hf : i < s.activeProcessCount → HeardAt (f (s.processTable i))) :
    (s.modifyPcb i f).MessagesHeard := by
  intro j hj
  rw [modifyPcb_processTable]
  split
  case isTrue h =>
    subst h
    exact hf hj
  case isFalse => exact hs j hj

theorem yield (hs : s.MessagesHeard) : (schedulerYield s).MessagesHeard :=
  hs.of_sameCore (schedulerYield_sameCore s)

theorem yieldIfCurrent (hs : s.MessagesHeard) (i : Nat) : (yieldIfCurrent s i).MessagesHeard := by
  unfold Sched.yieldIfCurrent
  split
  · exact hs.yield
  · exact hs

theorem setState (hs : s.MessagesHeard) (i : Nat) {st : TaskState} (hst : st ≠ .blocked) :
    (s.modifyPcb i (setState st)).MessagesHeard :=
  hs.modifyPcb fun _ hblocked => absurd hblocked hst

theorem sendSignal (hs : s.MessagesHeard) (pid signal : Nat) :
    (schedulerSendSignal s pid signal).1.MessagesHeard := by
  have hpending : ∀ i, (s.modifyPcb i (addPending signal)).MessagesHeard :=
    fun i => hs.modifyPcb (hs i)
  unfold schedulerSendSignal deliverSignal
  split
  · exact hs
  · split
    · simp only
      split
      · exact ((hpending _).setState _ (by simp)).yieldIfCurrent _
      · split
        · exact ((hpending _).setState _ (by simp)).yieldIfCurrent _
        · split
          · exact (hpending _).setState _ (by simp)
          · exact hpending _
    · exact hs

/-- Releasing a waiter makes it ready. -/
theorem terminateProcess (hs : s.MessagesHeard) (pid : Nat) :
    (schedulerTerminateProcess s pid).1.MessagesHeard := by
  unfold schedulerTerminateProcess
  split
  · exact hs
  · split
    · exact hs
    case isFalse i _ _ =>
      have hdead : (s.modifyPcb i (Sched.setState .dead)).MessagesHeard := hs.setState i (by simp)
      intro j hj
      have hj' := hdead j hj
      unfold releaseWaiters releasePcb
      simp only
      split
      · split
        · intro hblocked
          cases hblocked
        · exact hj'
      · exact hj'

/-- A message makes the process ready that waits for one. -/
theorem ipcSend (hs : s.MessagesHeard) (dest : Nat) (message : Nat → UInt8) (length type : Nat) :
    (schedulerIpcSend s dest message length type).1.MessagesHeard := by
  unfold schedulerIpcSend
  split
  · exact hs
  · split
    · exact hs
    · split
      · exact hs
      · refine hs.modifyPcb fun _ hblocked hwait => ?_
        unfold deliverMessage at hblocked hwait
        simp only at hblocked hwait
        split at hblocked
        · cases hblocked
        case isFalse hawake => exact absurd ⟨hblocked, hwait⟩ hawake

/-- Blocking without a PID is fine with an empty channel, and only then. -/
theorem blockCurrent_iff (hrun : RunningInTable s) (hs : s.MessagesHeard) (pid : Nat) :
    (blockCurrent s pid).MessagesHeard ↔
      (pid = 0 → s.current.communicationChannel.count = 0) := by
  constructor
  · rintro h rfl
    have hcore := schedulerYield_sameCore
      (s.modifyPcb s.runningProcessIndex (blockPcb 0))
    have hcurrent := h s.runningProcessIndex (by
      unfold blockCurrent
      rw [hcore.count]
      exact hrun)
    unfold HeardAt blockCurrent at hcurrent
    rw [hcore.executionState, hcore.waitingOnPid, hcore.communicationChannel, modifyPcb_self]
      at hcurrent
    exact hcurrent rfl rfl
  · intro hempty
    exact (hs.modifyPcb (f := blockPcb pid) fun _ _ hwait => hempty hwait).yield

theorem ipcReceive (hrun : RunningInTable s) (hs : s.MessagesHeard) (maxLength : Nat) :
    (schedulerIpcReceive s maxLength).1.MessagesHeard := by
  unfold schedulerIpcReceive
  simp only
  split
  case isTrue hempty => exact (blockCurrent_iff hrun hs 0).2 fun _ => hempty
  case isFalse =>
    refine hs.modifyPcb fun hi hblocked hwait => ?_
    have hcount := hs _ hi hblocked hwait
    unfold popMessage IpcChannel.pop
    simp only
    omega

theorem sleep (hs : s.MessagesHeard) (ticks : Nat) : (schedulerSleep s ticks).MessagesHeard :=
  MessagesHeard.yield (hs.modifyPcb (f := setDeadline _) (hs _))

theorem addProcess (hs : s.MessagesHeard) (entryPoint pid priority rss flags stackRaw : Nat) :
    (s.addProcess entryPoint pid priority rss flags stackRaw).MessagesHeard := by
  intro i hi
  have hcount : i < s.activeProcessCount + 1 := hi
  unfold SchedulerState.addProcess
  simp only [modifyPcb_processTable]
  split
  · intro hblocked
    cases hblocked
  case isFalse hold => exact hs i (by omega)

end MessagesHeard

end SchedulerState

/-! ## Turns -/

namespace System

/-- A process with messages does not wait for a live process with PID 0. -/
def SparesQueued (s : System) : Action → Prop
  | .call (.waitPid pid) => pid = 0 → s.sched.findLive 0 ≠ none →
      s.sched.current.communicationChannel.count = 0
  | _ => True

theorem messagesHeard_wait_iff {s : System} (hrun : RunningInTable s.sched)
    (hs : s.sched.MessagesHeard) (pid : Nat) :
    (s.wait pid).sched.MessagesHeard ↔ s.SparesQueued (.call (.waitPid pid)) := by
  unfold wait schedulerWaitPid SparesQueued
  cases hfind : s.sched.findLive pid with
  | none =>
      refine ⟨?_, fun _ => hs⟩
      rintro - rfl hlive
      exact absurd hfind hlive
  | some target =>
      refine (MessagesHeard.blockCurrent_iff hrun hs pid).trans (forall_congr' fun hpid => ?_)
      subst hpid
      simp [hfind]

theorem messagesHeard_step_iff {s t : System} {a : Action} (hrun : RunningInTable s.sched)
    (hs : s.sched.MessagesHeard) (h : s.step a = some t) :
    t.sched.MessagesHeard ↔ s.SparesQueued a := by
  cases step_turn h with
  | receiveAgain maxLength =>
      rw [receiveRound_sched]
      exact iff_of_true (hs.ipcReceive hrun maxLength) trivial
  | waitReturns pid target => exact iff_of_true hs trivial
  | call c _ hcall =>
      cases c with
      | registerProcess entryPoint priority rss flags =>
          refine iff_of_true ?_ trivial
          rcases register_cases hcall with ⟨_, _, ht | ht | ⟨_, stackRaw, ht⟩⟩
          · rw [ht]
            exact hs
          · rw [ht]
            exact hs
          · rw [ht]
            exact MessagesHeard.addProcess hs _ _ _ _ _ _
      | terminateProcess pid =>
          cases hcall
          exact iff_of_true (hs.terminateProcess pid) trivial
      | terminateCurrent =>
          cases hcall
          exact iff_of_true (hs.terminateProcess _).yield trivial
      | sendSignal pid signal =>
          cases hcall
          exact iff_of_true (hs.sendSignal pid signal) trivial
      | waitPid pid =>
          cases hcall
          -- the only call after which a process with queued messages can be blocked
          exact messagesHeard_wait_iff hrun hs pid
      | ipcSend dest message length type =>
          cases hcall
          rw [send_sched]
          exact iff_of_true (hs.ipcSend dest message length type) trivial
      | ipcReceive maxLength =>
          cases hcall
          rw [receiveRound_sched]
          exact iff_of_true (hs.ipcReceive hrun maxLength) trivial
      | sleep ticks =>
          cases hcall
          exact iff_of_true (hs.sleep ticks) trivial
      | yield =>
          cases hcall
          exact iff_of_true hs.yield trivial

end System

/-! ## Whole runs -/

theorem messagesHeard_boot (k : Kernel) : (System.boot k).sched.MessagesHeard := by
  intro i hi hblocked
  have hzero : i = 0 := by
    simpa [System.boot, schedulerInitialize] using hi
  subst hzero
  simp [System.boot, schedulerInitialize, masterPcb] at hblocked

/-- Over every run, nobody is blocked for a message that it has exactly when nobody with messages
waits for a process with PID 0. -/
theorem messagesHeard_run_iff (k : Kernel) (as : List Action) :
    AllStates System.step (fun t => t.sched.MessagesHeard) (System.boot k) as ↔
      AllSteps System.step System.SparesQueued (System.boot k) as := by
  refine allStates_iff_allSteps (J := fun s => RunningInTable s.sched) ?_ ?_
    (runningInTable_boot k) (messagesHeard_boot k)
  · exact fun s a t hs h => hs.step h
  · exact fun s a t hrun hs h => System.messagesHeard_step_iff hrun hs h

/-! ## PID 0 -/

/-- Where the PIDs follow the entries, none of them is 0. -/
theorem Paced.findLive_zero {pages : Nat} {k : Kernel} (hk : Paced pages k) :
    k.sched.findLive 0 = none := by
  cases hfind : k.sched.findLive 0 with
  | none => rfl
  | some i =>
      rcases findLive_eq_some hfind with ⟨hlive, hzero⟩
      have hpid := hk.pid i hlive.1
      omega

/-- In every state of every run from `scheduler_initialize`, with the page allocator as `sys_oom_init`
leaves it, a process that is blocked without a PID to wait for has no message. -/
theorem messagesHeard_run {k : Kernel} {pages : Nat} (hk : k.OomInitialised pages)
    (as : List Action) :
    AllStates System.step (fun t => t.sched.MessagesHeard) (System.boot k) as := by
  have hboth : AllStates System.step
      (fun t => Paced pages t.kernel ∧ RunningInTable t.sched ∧ t.sched.MessagesHeard)
      (System.boot k) as := by
    refine allStates_of_invariant ?_ ⟨paced_boot hk, runningInTable_boot k, messagesHeard_boot k⟩ as
    rintro s a t ⟨hpaced, hrun, hheard⟩ h
    refine ⟨hpaced.step hk.1 h, hrun.step h, (System.messagesHeard_step_iff hrun hheard h).2 ?_⟩
    -- the PID of a process that somebody waits for is never 0
    cases a with
    | resume => trivial
    | call c =>
        cases c with
        | waitPid pid =>
            rintro rfl hlive
            exact absurd hpaced.findLive_zero hlive
        | _ => trivial
  exact hboth.mono fun t ht => ht.2.2

/-- The master waits for a message, gets it from the process it has registered, and then waits for
that process with another message in its channel. -/
def messageAndWait : List Action :=
  [registration, registration, .call (.ipcReceive 64), .call (.ipcSend 100 (fun _ => 7) 4 1),
    .call (.ipcSend 100 (fun _ => 8) 4 1), .call .yield, .resume, .call (.waitPid 101)]

/-- On a machine with 4096 pages in each zone; in the third state the master is blocked for a message,
and at the end it is blocked with a message in its channel, but for PID 101. -/
theorem messagesHeard_run_messageAndWait :
    AllStates System.step (fun t => t.sched.MessagesHeard) (System.boot (coldKernel 4096))
      messageAndWait ∧
    (exec System.step (System.boot (coldKernel 4096)) (messageAndWait.take 3)).any (fun t =>
      decide ((t.sched.processTable 0).executionState = .blocked) &&
        decide ((t.sched.processTable 0).waitingOnPid = 0)) = true ∧
    (exec System.step (System.boot (coldKernel 4096)) messageAndWait).any (fun t =>
      decide ((t.sched.processTable 0).executionState = .blocked) &&
        decide ((t.sched.processTable 0).waitingOnPid = 101) &&
        decide ((t.sched.processTable 0).communicationChannel.count = 1)) = true :=
  ⟨messagesHeard_run (coldKernel_oomInitialised (by decide)) _, by decide +kernel,
    by decide +kernel⟩

end Sched
end WhitexKernel
