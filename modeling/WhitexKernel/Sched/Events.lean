import WhitexKernel.Sched.Selection
import WhitexKernel.Sched.Lifecycle

/-!
# Events — every turn of the scheduler is a lifecycle event

`view` forgets everything about the process table but the lifecycle, and `lifecycleEvent` names the
event a turn amounts to.  The two results of this module connect the faithful model to the abstract
one: a turn changes the view by exactly its event (`step_view`), and the event is one the scheduler
has checked for (`step_enabled`).
-/

namespace WhitexKernel
namespace Sched

open Lib Machine Oom

/-- The lifecycle of a process table. -/
def view (s : SchedulerState) : Lifecycle :=
  { count := s.activeProcessCount
    pid := fun i => (s.processTable i).taskId
    state := fun i => (s.processTable i).executionState
    waitingOn := fun i => (s.processTable i).waitingOnPid }

/-! ## The linear scans -/

namespace SchedulerState

variable {s : SchedulerState} {i : Nat}

theorem findIndex_eq_some {p : ProcessControlBlock → Bool} (h : s.findIndex p = some i) :
    i < s.activeProcessCount ∧ p (s.processTable i) = true ∧
      ∀ j, j < i → p (s.processTable j) = false := by
  have hfind := List.find?_range_eq_some.1 h
  refine ⟨List.mem_range.1 hfind.2.1, hfind.1, fun j hj => ?_⟩
  simpa using hfind.2.2 j hj

/-- The scan for a live process finds one that carries the PID. -/
theorem findLive_eq_some {pid : Nat} (h : s.findLive pid = some i) :
    (view s).Live i ∧ (s.processTable i).taskId = pid := by
  have hfind := findIndex_eq_some h
  simp only [Bool.and_eq_true, beq_iff_eq, bne_iff_ne] at hfind
  exact ⟨⟨hfind.1, hfind.2.1.2⟩, hfind.2.1.1⟩

end SchedulerState

open SchedulerState

/-! ## The event of each call -/

/-- `scheduler_terminate_process` -/
def terminateEvent (s : SchedulerState) (targetPid : Nat) : LifecycleEvent :=
  match s.findIndex fun pcb => pcb.taskId == targetPid with
  | none => .skip
  | some i =>
      if targetPid = 100 ∨ (s.processTable i).allocationFlags.testBit oomFlagCritical then .skip
      else .terminate i targetPid

/-- `scheduler_send_signal` -/
def signalEvent (s : SchedulerState) (targetPid signal : Nat) : LifecycleEvent :=
  if signal > 31 then .skip
  else
    match s.findLive targetPid with
    | none => .skip
    | some i =>
        if signal = signalSigkill then .kill i
        else if signal = signalSigstop then .stop i
        else if signal = signalSigcont then .cont i
        else .skip

/-- `scheduler_wait_pid` -/
def waitEvent (s : SchedulerState) (targetPid : Nat) : LifecycleEvent :=
  match s.findLive targetPid with
  | none => .skip
  | some _ => .block s.runningProcessIndex targetPid

/-- `scheduler_ipc_send` -/
def sendEvent (s : SchedulerState) (destinationPid length : Nat) : LifecycleEvent :=
  if length > schedIpcMsgSize then .skip
  else
    match s.findLive destinationPid with
    | none => .skip
    | some i =>
        if (s.processTable i).communicationChannel.count ≥ schedIpcMaxMessages then .skip
        else if (s.processTable i).executionState = .blocked ∧
            (s.processTable i).waitingOnPid = 0 then .wake i
        else .skip

/-- One round of `scheduler_ipc_receive` -/
def receiveEvent (s : SchedulerState) : LifecycleEvent :=
  if s.current.communicationChannel.count = 0 then .block s.runningProcessIndex 0 else .skip

/-- `scheduler_register_process` -/
def registerEvent (k : Kernel) (entryPoint priority initialRss allocationFlags : Nat) :
    LifecycleEvent :=
  match schedulerRegisterProcess k entryPoint priority initialRss allocationFlags with
  | .ok (_, .ok) => .spawn k.sched.globalProcessIdentifierSeed
  | _ => .skip

/-- The lifecycle event a turn amounts to. -/
def lifecycleEvent (s : System) : Action → LifecycleEvent
  | .call (.registerProcess entryPoint priority initialRss allocationFlags) =>
      registerEvent s.kernel entryPoint priority initialRss allocationFlags
  | .call (.terminateProcess targetPid) => terminateEvent s.sched targetPid
  | .call .terminateCurrent => terminateEvent s.sched s.sched.current.taskId
  | .call (.sendSignal targetPid signal) => signalEvent s.sched targetPid signal
  | .call (.waitPid targetPid) => waitEvent s.sched targetPid
  | .call (.ipcSend destinationPid _ length _) => sendEvent s.sched destinationPid length
  | .call (.ipcReceive _) => receiveEvent s.sched
  | .call (.sleep _) => .skip
  | .call .yield => .skip
  | .resume =>
      match s.suspended s.running with
      | .inReceive _ => receiveEvent s.sched
      | _ => .skip

/-! ## Each call changes the view by its event -/

theorem view_eq_of_sameCore {s t : SchedulerState} (h : SameCore s t) : view t = view s := by
  simp only [view, Lifecycle.mk.injEq]
  exact ⟨h.count, funext h.taskId, funext h.executionState, funext h.waitingOnPid⟩

@[simp] theorem view_schedulerYield (s : SchedulerState) : view (schedulerYield s) = view s :=
  view_eq_of_sameCore (schedulerYield_sameCore s)

/-- Rewriting one entry without changing its PID. -/
theorem view_modifyPcb (s : SchedulerState) (i : Nat)
    {f : ProcessControlBlock → ProcessControlBlock}
    (hpid : (f (s.processTable i)).taskId = (s.processTable i).taskId) :
    view (s.modifyPcb i f) =
      { view s with
        state := Function.update (view s).state i (f (s.processTable i)).executionState
        waitingOn := Function.update (view s).waitingOn i (f (s.processTable i)).waitingOnPid } := by
  simp only [view, Lifecycle.mk.injEq]
  refine ⟨rfl, ?_, ?_, ?_⟩ <;> funext j <;> rw [modifyPcb_processTable]
  · split
    case isTrue h => rw [h, hpid]
    case isFalse => rfl
  · rw [Function.update_apply]
    split <;> rfl
  · rw [Function.update_apply]
    split <;> rfl

/-- Rewriting the state of one entry. -/
theorem view_modifyPcb_state (s : SchedulerState) (i : Nat)
    {f : ProcessControlBlock → ProcessControlBlock}
    (hpid : (f (s.processTable i)).taskId = (s.processTable i).taskId)
    (hwait : (f (s.processTable i)).waitingOnPid = (s.processTable i).waitingOnPid) :
    view (s.modifyPcb i f) = (view s).setState i (f (s.processTable i)).executionState := by
  rw [view_modifyPcb s i hpid, hwait]
  simp only [Lifecycle.setState, Lifecycle.mk.injEq]
  exact ⟨trivial, trivial, trivial, Function.update_eq_self i _⟩

/-- Rewriting what the view does not show. -/
theorem view_modifyPcb_same (s : SchedulerState) (i : Nat)
    {f : ProcessControlBlock → ProcessControlBlock}
    (hpid : (f (s.processTable i)).taskId = (s.processTable i).taskId)
    (hstate : (f (s.processTable i)).executionState = (s.processTable i).executionState)
    (hwait : (f (s.processTable i)).waitingOnPid = (s.processTable i).waitingOnPid) :
    view (s.modifyPcb i f) = view s := by
  rw [view_modifyPcb_state s i hpid hwait, hstate, Lifecycle.setState]
  simp only [view]
  rw [Function.update_eq_self]

@[simp] theorem view_yieldIfCurrent (s : SchedulerState) (i : Nat) :
    view (yieldIfCurrent s i) = view s := by
  unfold yieldIfCurrent
  split
  · exact view_schedulerYield s
  · rfl

theorem view_releaseWaiters (s : SchedulerState) (pid : Nat) :
    view (releaseWaiters s pid) = (view s).release pid := by
  simp only [view, releaseWaiters, Lifecycle.release, Lifecycle.BlockedOn, releasePcb,
    Lifecycle.mk.injEq]
  refine ⟨trivial, ?_, ?_, ?_⟩ <;> funext j <;> by_cases hj : j < s.activeProcessCount <;>
    by_cases hb : (s.processTable j).executionState = .blocked ∧
      (s.processTable j).waitingOnPid = pid <;>
    simp [hj, hb]

theorem view_schedulerTerminateProcess (s : SchedulerState) (pid : Nat) :
    view (schedulerTerminateProcess s pid).1 = (view s).apply (terminateEvent s pid) := by
  unfold schedulerTerminateProcess terminateEvent
  cases hfind : s.findIndex fun pcb => pcb.taskId == pid with
  | none => rfl
  | some i =>
      by_cases hdenied : pid = 100 ∨ (s.processTable i).allocationFlags.testBit oomFlagCritical
      · simp [hdenied, Lifecycle.apply]
      · simp only [hdenied, if_false, Lifecycle.apply, view_releaseWaiters]
        rw [view_modifyPcb_state (f := setState .dead) s i rfl rfl]
        rfl

theorem view_deliverSignal (s : SchedulerState) (i signal : Nat) :
    view (deliverSignal s i signal) = (view s).apply
      (if signal = signalSigkill then .kill i
        else if signal = signalSigstop then .stop i
        else if signal = signalSigcont then .cont i
        else .skip) := by
  -- the pending mask is not part of the view, only the states that follow are
  have hpending : view (s.modifyPcb i (addPending signal)) = view s :=
    view_modifyPcb_same s i rfl rfl rfl
  have hstate : ∀ st : TaskState,
      view ((s.modifyPcb i (addPending signal)).modifyPcb i (setState st)) =
        (view s).setState i st := by
    intro st
    rw [view_modifyPcb_state (f := setState st) _ i rfl rfl, hpending]
    rfl
  unfold deliverSignal
  simp only
  split
  · rw [view_yieldIfCurrent]
    exact hstate .dead
  · split
    · rw [view_yieldIfCurrent]
      exact hstate .stopped
    · split
      · exact hstate .running
      · exact hpending

theorem view_schedulerSendSignal (s : SchedulerState) (pid signal : Nat) :
    view (schedulerSendSignal s pid signal).1 = (view s).apply (signalEvent s pid signal) := by
  unfold schedulerSendSignal signalEvent
  by_cases hsig : signal > 31
  · simp [hsig, Lifecycle.apply]
  · simp only [hsig, if_false]
    cases s.findLive pid with
    | none => rfl
    | some i => exact view_deliverSignal s i signal

/-- Blocking the current process is the event `block`. -/
theorem view_blockCurrent (s : SchedulerState) (pid : Nat) :
    view (blockCurrent s pid) = (view s).apply (.block s.runningProcessIndex pid) := by
  unfold blockCurrent
  rw [view_schedulerYield, view_modifyPcb (f := blockPcb pid) s _ rfl]
  rfl

theorem view_deliverMessage (s : SchedulerState) (i : Nat) (fill : IpcMessage → IpcMessage) :
    view (s.modifyPcb i (deliverMessage fill)) = (view s).apply
      (if (s.processTable i).executionState = .blocked ∧ (s.processTable i).waitingOnPid = 0 then
        .wake i else .skip) := by
  by_cases hwake : (s.processTable i).executionState = .blocked ∧ (s.processTable i).waitingOnPid = 0
  · rw [view_modifyPcb_state (f := deliverMessage fill) s i rfl rfl]
    simp [deliverMessage, hwake, Lifecycle.apply]
  · rw [view_modifyPcb_same (f := deliverMessage fill) s i rfl (by simp [deliverMessage, hwake]) rfl]
    simp [hwake, Lifecycle.apply]

theorem view_schedulerIpcSend (s : SchedulerState) (dest : Nat) (message : Nat → UInt8)
    (length type : Nat) :
    view (schedulerIpcSend s dest message length type).1 =
      (view s).apply (sendEvent s dest length) := by
  unfold schedulerIpcSend sendEvent
  by_cases hlen : length > schedIpcMsgSize
  · simp [hlen, Lifecycle.apply]
  · simp only [hlen, if_false]
    cases s.findLive dest with
    | none => rfl
    | some i =>
        by_cases hfull : (s.processTable i).communicationChannel.count ≥ schedIpcMaxMessages
        · simp [hfull, Lifecycle.apply]
        · simp only [hfull, if_false]
          exact view_deliverMessage s i _

theorem view_schedulerIpcReceive (s : SchedulerState) (maxLength : Nat) :
    view (schedulerIpcReceive s maxLength).1 = (view s).apply (receiveEvent s) := by
  unfold schedulerIpcReceive receiveEvent
  by_cases hempty : s.current.communicationChannel.count = 0
  · simp only [hempty, if_true]
    exact view_blockCurrent s 0
  · simp only [hempty, if_false]
    exact view_modifyPcb_same s _ rfl rfl rfl

theorem view_schedulerSleep (s : SchedulerState) (ticks : Nat) :
    view (schedulerSleep s ticks) = view s := by
  unfold schedulerSleep
  rw [view_schedulerYield]
  exact view_modifyPcb_same s _ rfl rfl rfl

/-! ## Registration -/

/-- What a registration does to the scheduler globals, by its return code. -/
theorem schedulerRegisterProcess_cases {k k' : Kernel} {e : ErrCode}
    {entryPoint priority rss flags : Nat}
    (h : schedulerRegisterProcess k entryPoint priority rss flags = .ok (k', e)) :
    (e = .memOutOfMem ∧ k' = k) ∨
    (e = .memFault ∧ k'.sched = k.drawPid.1.sched) ∨
    (e = .ok ∧ k.sched.activeProcessCount < sysMaxTasks ∧ ∃ stackRaw, stackRaw ≠ 0 ∧
      k'.sched = k.drawPid.1.sched.addProcess entryPoint k.sched.globalProcessIdentifierSeed
        priority rss flags stackRaw) := by
  unfold schedulerRegisterProcess at h
  by_cases hfull : k.sched.activeProcessCount ≥ sysMaxTasks
  · simp only [hfull, if_true, Except.ok.injEq, Prod.mk.injEq] at h
    exact .inl ⟨h.2.symm, h.1.symm⟩
  · simp only [hfull, if_false, bind, Except.bind, pure, Except.pure] at h
    -- the PID is drawn before the first request, so every later failure has lost it
    split at h
    · cases h
    · split at h
      · simp only [Except.ok.injEq, Prod.mk.injEq] at h
        rcases h with ⟨rfl, rfl⟩
        exact .inr (.inl ⟨rfl, rfl⟩)
      · split at h
        · cases h
        · split at h
          · cases h
          · split at h
            · simp only [Except.ok.injEq, Prod.mk.injEq] at h
              rcases h with ⟨rfl, rfl⟩
              exact .inr (.inl ⟨rfl, rfl⟩)
            case isFalse hstack =>
              simp only [Except.ok.injEq, Prod.mk.injEq] at h
              rcases h with ⟨rfl, rfl⟩
              exact .inr (.inr ⟨rfl, by omega, _, hstack, rfl⟩)

/-- What a registration leaves: the logs, and scheduler globals that are the old ones, or these
with a PID drawn, or these with the next entry filled as well. -/
theorem System.register_cases {s t : System} {entryPoint priority rss flags : Nat}
    (h : s.register entryPoint priority rss flags = some t) :
    t.sends = s.sends ∧ t.receives = s.receives ∧
      (t.sched = s.sched ∨ t.sched = s.kernel.drawPid.1.sched ∨
        s.sched.activeProcessCount < sysMaxTasks ∧
          ∃ stackRaw, t.sched = s.kernel.drawPid.1.sched.addProcess entryPoint
            s.sched.globalProcessIdentifierSeed priority rss flags stackRaw) := by
  unfold System.register at h
  cases hreg : schedulerRegisterProcess s.kernel entryPoint priority rss flags with
  | error e => simp [hreg] at h
  | ok r =>
      rcases r with ⟨k, e⟩
      rcases schedulerRegisterProcess_cases hreg with
        ⟨rfl, rfl⟩ | ⟨rfl, hk⟩ | ⟨rfl, hroom, stackRaw, _, hk⟩
      all_goals
        simp only [hreg, Option.some.injEq] at h
        subst h
        refine ⟨rfl, rfl, ?_⟩
      · exact .inl rfl
      · exact .inr (.inl hk)
      · exact .inr (.inr ⟨hroom, stackRaw, hk⟩)

theorem view_drawPid (k : Kernel) : view k.drawPid.1.sched = view k.sched := rfl

theorem view_addProcess (s : SchedulerState) (entryPoint pid priority rss flags stackRaw : Nat) :
    view (s.addProcess entryPoint pid priority rss flags stackRaw) =
      (view s).apply (.spawn pid) := by
  simp only [view, addProcess, Lifecycle.apply, Lifecycle.mk.injEq]
  refine ⟨trivial, ?_, ?_, ?_⟩ <;> funext j <;> rw [modifyPcb_processTable] <;> split <;>
    simp_all [newPcb]

theorem view_schedulerRegisterProcess {k k' : Kernel} {e : ErrCode}
    {entryPoint priority rss flags : Nat}
    (h : schedulerRegisterProcess k entryPoint priority rss flags = .ok (k', e)) :
    view k'.sched = (view k.sched).apply (registerEvent k entryPoint priority rss flags) := by
  unfold registerEvent
  rcases schedulerRegisterProcess_cases h with ⟨rfl, rfl⟩ | ⟨rfl, hk⟩ | ⟨rfl, _, stackRaw, _, hk⟩
  · simp only [h]
    rfl
  · simp only [h, hk]
    rfl
  · simp only [h, hk, view_addProcess, view_drawPid]

theorem view_register {s t : System} {entryPoint priority rss flags : Nat}
    (h : s.register entryPoint priority rss flags = some t) :
    view t.sched = (view s.sched).apply (registerEvent s.kernel entryPoint priority rss flags) := by
  unfold System.register at h
  split at h
  case h_1 => cases h
  case h_2 k hreg =>
    cases h
    exact view_schedulerRegisterProcess hreg
  case h_3 k e _ hreg =>
    cases h
    exact view_schedulerRegisterProcess hreg

/-! ## Turns -/

@[simp] theorem receiveRound_view (s : System) (maxLength : Nat) :
    view (s.receiveRound maxLength).sched = (view s.sched).apply (receiveEvent s.sched) := by
  rw [System.receiveRound_sched, view_schedulerIpcReceive]

@[simp] theorem send_view (s : System) (dest : Nat) (message : Nat → UInt8) (length type : Nat) :
    view (s.send dest message length type).sched =
      (view s.sched).apply (sendEvent s.sched dest length) := by
  rw [System.send_sched, view_schedulerIpcSend]

@[simp] theorem wait_view (s : System) (pid : Nat) :
    view (s.wait pid).sched = (view s.sched).apply (waitEvent s.sched pid) := by
  unfold System.wait schedulerWaitPid waitEvent
  cases s.sched.findLive pid with
  | none => rfl
  | some i => exact view_blockCurrent s.sched pid

/-- A turn changes the lifecycle view by exactly its event. -/
theorem step_view {s t : System} {a : Action} (h : s.step a = some t) :
    view t.sched = (view s.sched).apply (lifecycleEvent s a) := by
  cases System.step_turn h with
  | receiveAgain maxLength hsus =>
      simp only [lifecycleEvent, hsus]
      exact receiveRound_view s maxLength
  | waitReturns pid target hsus =>
      simp only [lifecycleEvent, hsus]
      rfl
  | call c _ hcall =>
      cases c with
      | registerProcess entryPoint priority rss flags => exact view_register hcall
      | terminateProcess pid =>
          cases hcall
          exact view_schedulerTerminateProcess s.sched pid
      | terminateCurrent =>
          -- the event is that of the termination: the yield after it changes no view
          cases hcall
          simp only [System.withSched_sched, schedulerTerminateCurrent, view_schedulerYield]
          exact view_schedulerTerminateProcess s.sched _
      | sendSignal pid signal =>
          cases hcall
          exact view_schedulerSendSignal s.sched pid signal
      | waitPid pid =>
          cases hcall
          exact wait_view s pid
      | ipcSend dest message length type =>
          cases hcall
          exact send_view s dest message length type
      | ipcReceive maxLength =>
          cases hcall
          exact receiveRound_view s maxLength
      | sleep ticks =>
          cases hcall
          exact view_schedulerSleep s.sched ticks
      | yield =>
          cases hcall
          exact view_schedulerYield s.sched

/-- Entries are never taken out of use. -/
theorem step_count_le {s t : System} {a : Action} (h : s.step a = some t) :
    s.sched.activeProcessCount ≤ t.sched.activeProcessCount := by
  have hle := Lifecycle.count_le_apply (view s.sched) (lifecycleEvent s a)
  rw [← step_view h] at hle
  exact hle

/-- A PID never changes once its entry is in use. -/
theorem step_taskId {s t : System} {a : Action} (h : s.step a = some t) {i : Nat}
    (hi : i < s.sched.activeProcessCount) :
    (t.sched.processTable i).taskId = (s.sched.processTable i).taskId := by
  have hpid := Lifecycle.pid_apply_of_lt (view s.sched) (lifecycleEvent s a) hi
  rw [← step_view h] at hpid
  exact hpid

/-! ## The current process is in the table -/

/-- The current index is an entry in use. -/
def RunningInTable (s : SchedulerState) : Prop :=
  s.runningProcessIndex < s.activeProcessCount

namespace RunningInTable

variable {s : SchedulerState}

theorem schedulerYield (h : RunningInTable s) : RunningInTable (schedulerYield s) := by
  unfold RunningInTable at h ⊢
  rw [(schedulerYield_sameCore s).count]
  rcases schedulerYield_cases s with ⟨_, hrun⟩ | ⟨_, _, hrun, _⟩ | ⟨_, _, hrun⟩
  · rwa [hrun]
  · exact hrun
  · omega

theorem modifyPcb (h : RunningInTable s) (i : Nat)
    (f : ProcessControlBlock → ProcessControlBlock) : RunningInTable (s.modifyPcb i f) := h

theorem yieldIfCurrent (h : RunningInTable s) (i : Nat) :
    RunningInTable (yieldIfCurrent s i) := by
  unfold Sched.yieldIfCurrent
  split
  · exact h.schedulerYield
  · exact h

theorem deliverSignal (h : RunningInTable s) (i signal : Nat) :
    RunningInTable (deliverSignal s i signal) := by
  unfold Sched.deliverSignal
  simp only
  split
  · exact ((h.modifyPcb _ _).modifyPcb _ _).yieldIfCurrent i
  · split
    · exact ((h.modifyPcb _ _).modifyPcb _ _).yieldIfCurrent i
    · split
      · exact (h.modifyPcb _ _).modifyPcb _ _
      · exact h.modifyPcb _ _

theorem schedulerSendSignal (h : RunningInTable s) (pid signal : Nat) :
    RunningInTable (schedulerSendSignal s pid signal).1 := by
  unfold Sched.schedulerSendSignal
  split
  · exact h
  · split
    · exact h.deliverSignal _ _
    · exact h

theorem schedulerTerminateProcess (h : RunningInTable s) (pid : Nat) :
    RunningInTable (schedulerTerminateProcess s pid).1 := by
  unfold Sched.schedulerTerminateProcess
  split
  · exact h
  · split
    · exact h
    · exact h

theorem blockCurrent (h : RunningInTable s) (pid : Nat) : RunningInTable (blockCurrent s pid) :=
  (h.modifyPcb _ _).schedulerYield

theorem schedulerIpcSend (h : RunningInTable s) (dest : Nat) (message : Nat → UInt8)
    (length type : Nat) : RunningInTable (schedulerIpcSend s dest message length type).1 := by
  unfold Sched.schedulerIpcSend
  split
  · exact h
  · split
    · exact h
    · split
      · exact h
      · exact h.modifyPcb _ _

theorem schedulerIpcReceive (h : RunningInTable s) (maxLength : Nat) :
    RunningInTable (schedulerIpcReceive s maxLength).1 := by
  unfold Sched.schedulerIpcReceive
  simp only
  split
  · exact h.blockCurrent 0
  · exact h.modifyPcb _ _

theorem register {s t : System} {entryPoint priority rss flags : Nat} (hs : RunningInTable s.sched)
    (h : s.register entryPoint priority rss flags = some t) : RunningInTable t.sched := by
  rcases System.register_cases h with ⟨_, _, ht | ht | ⟨_, stackRaw, ht⟩⟩
  · rw [ht]
    exact hs
  · rw [ht]
    exact hs
  · rw [ht]
    exact Nat.lt_succ_of_lt hs

/-- Every turn leaves an entry in use current. -/
theorem step {s t : System} {a : Action} (hs : RunningInTable s.sched) (h : s.step a = some t) :
    RunningInTable t.sched := by
  -- every call that switches ends in `scheduler_yield`, which picks an entry in use
  cases System.step_turn h with
  | receiveAgain maxLength =>
      rw [System.receiveRound_sched]
      exact hs.schedulerIpcReceive maxLength
  | waitReturns pid target => exact hs
  | call c _ hcall =>
      cases c with
      | registerProcess entryPoint priority rss flags => exact hs.register hcall
      | terminateProcess pid =>
          cases hcall
          exact hs.schedulerTerminateProcess pid
      | terminateCurrent =>
          cases hcall
          exact (hs.schedulerTerminateProcess _).schedulerYield
      | sendSignal pid signal =>
          cases hcall
          exact hs.schedulerSendSignal pid signal
      | waitPid pid =>
          cases hcall
          unfold System.wait schedulerWaitPid
          cases s.sched.findLive pid with
          | none => exact hs
          | some i => exact hs.blockCurrent pid
      | ipcSend dest message length type =>
          cases hcall
          rw [System.send_sched]
          exact hs.schedulerIpcSend dest message length type
      | ipcReceive maxLength =>
          cases hcall
          rw [System.receiveRound_sched]
          exact hs.schedulerIpcReceive maxLength
      | sleep ticks =>
          cases hcall
          exact (hs.modifyPcb _ _).schedulerYield
      | yield =>
          cases hcall
          exact RunningInTable.schedulerYield hs

end RunningInTable

theorem runningInTable_boot (k : Kernel) : RunningInTable (System.boot k).sched := by
  simp [RunningInTable, System.boot, schedulerInitialize]

/-! ## The event has been checked for -/

theorem terminateEvent_enabled (s : SchedulerState) (pid : Nat) :
    (view s).Enabled (terminateEvent s pid) := by
  unfold terminateEvent
  cases hfind : s.findIndex fun pcb => pcb.taskId == pid with
  | none => trivial
  | some i =>
      have hi := findIndex_eq_some hfind
      simp only
      split
      · trivial
      · exact ⟨hi.1, beq_iff_eq.1 hi.2.1⟩

theorem signalEvent_enabled (s : SchedulerState) (pid signal : Nat) :
    (view s).Enabled (signalEvent s pid signal) := by
  unfold signalEvent
  split
  · trivial
  · cases hfind : s.findLive pid with
    | none => trivial
    | some i =>
        have hi := (findLive_eq_some hfind).1
        simp only
        split
        · exact hi
        · split
          · exact hi
          · split
            · exact hi
            · trivial

theorem waitEvent_enabled {s : SchedulerState} (hrun : RunningInTable s) (pid : Nat) :
    (view s).Enabled (waitEvent s pid) := by
  unfold waitEvent
  cases hfind : s.findLive pid with
  | none => trivial
  | some i => exact ⟨hrun, fun _ => ⟨i, findLive_eq_some hfind⟩⟩

theorem sendEvent_enabled (s : SchedulerState) (dest length : Nat) :
    (view s).Enabled (sendEvent s dest length) := by
  unfold sendEvent
  split
  · trivial
  · cases hfind : s.findLive dest with
    | none => trivial
    | some i =>
        have hi := (findLive_eq_some hfind).1
        simp only
        split
        · trivial
        · split
          case isTrue hwake => exact ⟨hi.1, hwake.1, hwake.2⟩
          case isFalse => trivial

theorem receiveEvent_enabled {s : SchedulerState} (hrun : RunningInTable s) :
    (view s).Enabled (receiveEvent s) := by
  unfold receiveEvent
  split
  · exact ⟨hrun, fun h => absurd rfl h⟩
  · trivial

theorem registerEvent_enabled (k : Kernel) (entryPoint priority rss flags : Nat) :
    (view k.sched).Enabled (registerEvent k entryPoint priority rss flags) := by
  unfold registerEvent
  split <;> trivial

/-- The event of a turn is one the scheduler has checked for. -/
theorem step_enabled {s : System} (hrun : RunningInTable s.sched) (a : Action) :
    (view s.sched).Enabled (lifecycleEvent s a) := by
  cases a with
  | resume =>
      simp only [lifecycleEvent]
      split
      · exact receiveEvent_enabled hrun
      · trivial
  | call c =>
      cases c with
      | registerProcess entryPoint priority rss flags => exact registerEvent_enabled _ _ _ _ _
      | terminateProcess pid => exact terminateEvent_enabled _ pid
      | terminateCurrent => exact terminateEvent_enabled _ _
      | sendSignal pid signal => exact signalEvent_enabled _ pid signal
      | waitPid pid => exact waitEvent_enabled hrun pid
      | ipcSend dest message length type => exact sendEvent_enabled _ dest length
      | ipcReceive maxLength => exact receiveEvent_enabled hrun
      | sleep ticks => trivial
      | yield => trivial

/-! ## The kinds of turns -/

theorem terminateEvent_mortal (s : SchedulerState) (pid : Nat) : (terminateEvent s pid).Mortal := by
  unfold terminateEvent
  split
  · trivial
  · split
    · trivial
    · trivial

theorem signalEvent_mortal (s : SchedulerState) (pid signal : Nat) :
    (signalEvent s pid signal).Mortal := by
  unfold signalEvent
  split
  · trivial
  · split
    · trivial
    · split
      · trivial
      · split
        · trivial
        · split
          · trivial
          · trivial

theorem sendEvent_mortal (s : SchedulerState) (dest length : Nat) :
    (sendEvent s dest length).Mortal := by
  unfold sendEvent
  split
  · trivial
  · split
    · trivial
    · split
      · trivial
      · split
        · trivial
        · trivial

theorem receiveEvent_cases (s : SchedulerState) :
    (receiveEvent s).Mortal ∨ receiveEvent s = .block s.runningProcessIndex 0 := by
  unfold receiveEvent
  split
  · exact .inr rfl
  · exact .inl trivial

theorem registerEvent_cases (k : Kernel) (entryPoint priority rss flags : Nat) :
    (registerEvent k entryPoint priority rss flags).Mortal ∨
      (k.sched.activeProcessCount < sysMaxTasks ∧
        registerEvent k entryPoint priority rss flags =
          .spawn k.sched.globalProcessIdentifierSeed) := by
  unfold registerEvent
  split
  case h_1 k' hreg =>
    rcases schedulerRegisterProcess_cases hreg with ⟨hcode, _⟩ | ⟨hcode, _⟩ | ⟨_, hroom, _⟩
    · cases hcode
    · cases hcode
    · exact .inr ⟨hroom, rfl⟩
  case h_2 => exact .inl trivial

/-- A turn brings nobody to life, or the current process blocks, or a process is registered. -/
theorem lifecycleEvent_cases (s : System) (a : Action) :
    (lifecycleEvent s a).Mortal ∨
    (∃ pid, lifecycleEvent s a = .block s.running pid) ∨
    (∃ entryPoint priority rss flags,
      a = .call (.registerProcess entryPoint priority rss flags) ∧
      s.sched.activeProcessCount < sysMaxTasks ∧
      lifecycleEvent s a = .spawn s.sched.globalProcessIdentifierSeed) := by
  cases a with
  | resume =>
      simp only [lifecycleEvent]
      split
      -- a receiver that finds nothing blocks as if it waited for PID 0
      · exact (receiveEvent_cases s.sched).imp_right fun h => .inl ⟨0, h⟩
      · exact .inl trivial
  | call c =>
      cases c with
      | registerProcess entryPoint priority rss flags =>
          exact (registerEvent_cases s.kernel entryPoint priority rss flags).imp_right fun h =>
            .inr ⟨entryPoint, priority, rss, flags, rfl, h.1, h.2⟩
      | terminateProcess pid => exact .inl (terminateEvent_mortal _ pid)
      | terminateCurrent => exact .inl (terminateEvent_mortal _ _)
      | sendSignal pid signal => exact .inl (signalEvent_mortal _ pid signal)
      | waitPid pid =>
          simp only [lifecycleEvent, waitEvent]
          split
          · exact .inl trivial
          · exact .inr (.inl ⟨pid, rfl⟩)
      | ipcSend dest message length type => exact .inl (sendEvent_mortal _ dest length)
      | ipcReceive maxLength => exact (receiveEvent_cases s.sched).imp_right fun h => .inl ⟨0, h⟩
      | sleep ticks => exact .inl trivial
      | yield => exact .inl trivial

/-- Only the current process blocks. -/
theorem eq_running_of_block {s : System} {a : Action} {k q : Nat}
    (h : lifecycleEvent s a = .block k q) : k = s.running := by
  rcases lifecycleEvent_cases s a with hmortal | ⟨pid, hblock⟩ | ⟨_, _, _, _, _, _, hspawn⟩
  · rw [h] at hmortal
    cases hmortal
  · rw [h] at hblock
    cases hblock
    rfl
  · rw [h] at hspawn
    cases hspawn

end Sched
end WhitexKernel
