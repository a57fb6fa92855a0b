import WhitexKernel.Sched.Aging
import WhitexKernel.Sched.Echo

/-!
# Operations — the functions of the scheduler in any order

`Kernel.operate` is the scheduler with nothing said about who calls it: its functions, one after the
other, each up to the point where control may move.  What the processes do in their turns is one of
its runs (`reachable_operate`).

Three of the functions write the priorities of an entry: aging counts, and raises `dynamic_priority`
when the counter is full, the selection takes both back for the entry it chooses, and a registration
starts an entry anew.  `inRange_operate` is what they keep together.
-/

namespace WhitexKernel
namespace Sched

open Lib Machine Oom SchedulerState

/-! ## The functions that no turn makes by itself -/

def setHandler (signal handler : Nat) (pcb : ProcessControlBlock) : ProcessControlBlock :=
  { pcb with
    signalSubsystem := { pcb.signalSubsystem with
      handlers := Function.update pcb.signalSubsystem.handlers signal handler } }

def schedulerRegisterSignalHandler (s : SchedulerState) (signal handler : Nat) :
    SchedulerState × ErrCode :=
  if signal > 31 ∨ signal = signalSigkill ∨ signal = signalSigstop then (s, .ioPermission)
  else (s.modifyPcb s.runningProcessIndex (setHandler signal handler), .ok)

/-- `newtask2`, for the address of `dummy_task_procedure`; what the registration returns is dropped. -/
def newtask2 (k : Kernel) (dummyTaskProcedure : Nat) : Except Halt Kernel :=
  (schedulerRegisterProcess k dummyTaskProcedure schedDefaultPriority 128 0).map Prod.fst

/-- One signal that the loop of `scheduler_check_pending_signals` finds active.  The loop keeps to
the entry it was called for, also when a handler has yielded. -/
def takeSignal (s : SchedulerState) (index signal : Nat) : SchedulerState :=
  s.modifyPcb index (clearPending [signal])

/-! ## Operations -/

/-- The functions of the scheduler with their arguments.  A call that loops or calls back is the
sequence of its parts: `ipcReceive` is one round of its loop, and `takeSignal` is followed by what
the handler does. -/
inductive Operation
  | boot
  | applyAging
  | selectNextCandidate
  | yield
  | registerProcess (entryPoint priority initialRss allocationFlags : Nat)
  | newtask2 (dummyTaskProcedure : Nat)
  | sleep (ticks : Nat)
  | sendSignal (targetPid signal : Nat)
  | takeSignal (index signal : Nat)
  | registerSignalHandler (signal handler : Nat)
  | ipcSend (destinationPid : Nat) (message : Nat → UInt8) (length type : Nat)
  | ipcReceive (maxLength : Nat)
  | terminateProcess (targetPid : Nat)
  | terminateCurrent
  | waitPid (targetPid : Nat)

/-- A registration asks for `SCHED_MAX_PRIORITY` at most. -/
def Operation.WithinCap : Operation → Prop
  | .registerProcess _ priority _ _ => priority ≤ schedMaxPriority
  | _ => True

namespace Kernel

def withSched (k : Kernel) (sched : SchedulerState) : Kernel := { k with sched := sched }

/-- The globals after `scheduler_initialize`. -/
def boot (k : Kernel) : Kernel := k.withSched (schedulerInitialize k.sched)

/-- `none` when the operation halts the machine. -/
def operate (k : Kernel) : Operation → Option Kernel
  | .boot => some k.boot
  | .applyAging => some (k.withSched (schedulerApplyAging k.sched))
  | .selectNextCandidate => some (k.withSched (schedulerSelectNextCandidate k.sched).1)
  | .yield => some (k.withSched (schedulerYield k.sched))
  | .registerProcess entryPoint priority initialRss allocationFlags =>
      match schedulerRegisterProcess k entryPoint priority initialRss allocationFlags with
      | .error _ => none
      | .ok (k', _) => some k'
  | .newtask2 dummyTaskProcedure => (Sched.newtask2 k dummyTaskProcedure).toOption
  | .sleep ticks => some (k.withSched (schedulerSleep k.sched ticks))
  | .sendSignal targetPid signal =>
      some (k.withSched (schedulerSendSignal k.sched targetPid signal).1)
  | .takeSignal index signal => some (k.withSched (Sched.takeSignal k.sched index signal))
  | .registerSignalHandler signal handler =>
      some (k.withSched (schedulerRegisterSignalHandler k.sched signal handler).1)
  | .ipcSend destinationPid message length type =>
      some (k.withSched (schedulerIpcSend k.sched destinationPid message length type).1)
  | .ipcReceive maxLength => some (k.withSched (schedulerIpcReceive k.sched maxLength).1)
  | .terminateProcess targetPid =>
      some (k.withSched (schedulerTerminateProcess k.sched targetPid).1)
  | .terminateCurrent => some (k.withSched (schedulerTerminateCurrent k.sched))
  | .waitPid targetPid =>
      match schedulerWaitPid k.sched targetPid with
      | none => some k
      | some (sched, _) => some (k.withSched sched)

end Kernel

/-- Signals that are taken one after the other are all taken. -/
theorem exec_takeSignal (k : Kernel) (index : Nat) (signals : List Nat) :
    exec Kernel.operate k (signals.map (Operation.takeSignal index)) =
      some (k.withSched (k.sched.modifyPcb index (clearPending signals))) := by
  induction signals generalizing k with
  | nil =>
      have hsame : k.sched.modifyPcb index (clearPending []) = k.sched := by
        unfold SchedulerState.modifyPcb clearPending
        simp
      rw [hsame]
      rfl
  | cons signal signals ih =>
      have hstep : k.operate (.takeSignal index signal) =
          some (k.withSched (takeSignal k.sched index signal)) := rfl
      rw [List.map_cons, exec_cons, hstep, Option.bind_some, ih]
      unfold takeSignal SchedulerState.modifyPcb
      simp [Kernel.withSched, clearPending]

/-- Handlers apart, `scheduler_check_pending_signals` takes the active signals. -/
theorem exec_schedulerCheckPendingSignals (k : Kernel) :
    exec Kernel.operate k
        (((List.range 32).filter fun i => k.sched.current.signalSubsystem.active.testBit i).map
          (Operation.takeSignal k.sched.runningProcessIndex)) =
      some (k.withSched (schedulerCheckPendingSignals k.sched).1) := by
  unfold schedulerCheckPendingSignals
  simp only
  split
  case isTrue hnone =>
    simp only [hnone, Nat.zero_testBit, Bool.false_eq_true, not_false_eq_true, implies_true,
      List.filter_eq_nil_iff.2, List.map_nil]
    rfl
  case isFalse => exact exec_takeSignal k _ _

/-! ## Turns as operations -/

theorem operate_receiveRound (s : System) (maxLength : Nat) :
    s.kernel.operate (.ipcReceive maxLength) = some (s.receiveRound maxLength).kernel := by
  simp only [Kernel.operate, System.receiveRound]
  rcases schedulerIpcReceive s.sched maxLength with ⟨sched, _ | receipt⟩ <;> rfl

theorem operate_send (s : System) (destinationPid : Nat) (message : Nat → UInt8)
    (length type : Nat) :
    s.kernel.operate (.ipcSend destinationPid message length type) =
      some (s.send destinationPid message length type).kernel := by
  simp only [Kernel.operate, System.send]
  split
  case h_1 sched i heq _ =>
    rw [heq]
    rfl
  case h_2 sched e _ heq _ =>
    rw [heq]
    rfl

theorem operate_wait (s : System) (targetPid : Nat) :
    s.kernel.operate (.waitPid targetPid) = some (s.wait targetPid).kernel := by
  simp only [Kernel.operate, System.wait]
  rcases schedulerWaitPid s.sched targetPid with _ | ⟨sched, target⟩ <;> rfl

theorem operate_register {s t : System} {entryPoint priority rss flags : Nat}
    (h : s.register entryPoint priority rss flags = some t) :
    s.kernel.operate (.registerProcess entryPoint priority rss flags) = some t.kernel := by
  simp only [System.register] at h
  simp only [Kernel.operate]
  split at h
  case h_1 => cases h
  case h_2 heq =>
    cases h
    rw [heq]
  case h_3 heq =>
    cases h
    rw [heq]

/-- A turn is an operation, or only returns from one. -/
theorem System.step_operate {s t : System} {a : Action} (h : s.step a = some t) :
    t.kernel = s.kernel ∨ ∃ op, s.kernel.operate op = some t.kernel := by
  cases step_turn h with
  | receiveAgain maxLength => exact .inr ⟨_, operate_receiveRound s maxLength⟩
  | waitReturns => exact .inl rfl
  | call c _ hcall =>
      refine .inr ?_
      cases c with
      | registerProcess => exact ⟨_, operate_register hcall⟩
      | terminateProcess targetPid =>
          cases hcall
          exact ⟨.terminateProcess targetPid, rfl⟩
      | terminateCurrent =>
          cases hcall
          exact ⟨.terminateCurrent, rfl⟩
      | sendSignal targetPid signal =>
          cases hcall
          exact ⟨.sendSignal targetPid signal, rfl⟩
      | waitPid targetPid =>
          cases hcall
          exact ⟨_, operate_wait s targetPid⟩
      | ipcSend destinationPid message length type =>
          cases hcall
          exact ⟨_, operate_send s destinationPid message length type⟩
      | ipcReceive maxLength =>
          cases hcall
          exact ⟨_, operate_receiveRound s maxLength⟩
      | sleep ticks =>
          cases hcall
          exact ⟨.sleep ticks, rfl⟩
      | yield =>
          cases hcall
          exact ⟨.yield, rfl⟩

/-- Whatever the processes do in their turns is a run of operations. -/
theorem reachable_operate {s t : System} (h : Reachable System.step s t) :
    Reachable Kernel.operate s.kernel t.kernel := by
  refine Reachable.invariant (I := fun u => Reachable Kernel.operate s.kernel u.kernel) ?_
    (Reachable.refl _) h
  intro u a v hu hstep
  rcases System.step_operate hstep with hsame | ⟨op, hop⟩
  · exact hsame ▸ hu
  · exact hu.tail hop

/-! ## The limits of the priorities -/

namespace SchedulerState.InRange

variable {s t : SchedulerState}

/-- Without a registration nobody gets a new base priority. -/
theorem turned {yieldedIn : Option SchedulerState} (hs : s.InRange)
    (h : Turned s .resume yieldedIn t) : t.InRange := by
  cases h with
  | quiet hquiet => exact hs.quiet hquiet
  | yielded hquiet => exact (hs.quiet hquiet).schedulerYield
  | added pid stackRaw ha => cases ha

theorem schedulerRegisterProcess {k k' : Kernel} {e : ErrCode}
    {entryPoint priority rss flags : Nat} (hk : k.sched.InRange)
    (hpriority : priority ≤ schedMaxPriority)
    (h : Sched.schedulerRegisterProcess k entryPoint priority rss flags = .ok (k', e)) :
    k'.sched.InRange := by
  have hdrawn : k.drawPid.1.sched.InRange := hk.quiet (quiet_drawPid k)
  rcases schedulerRegisterProcess_cases h with ⟨_, rfl⟩ | ⟨_, hk'⟩ | ⟨_, _, stackRaw, _, hk'⟩
  · exact hk
  · rw [hk']
    exact hdrawn
  · rw [hk']
    exact hdrawn.addProcess hpriority _ _ _ _ _

/-- No operation leaves the limits. -/
theorem operate {k k' : Kernel} {op : Operation} (hk : k.sched.InRange) (hop : op.WithinCap)
    (h : k.operate op = some k') : k'.sched.InRange := by
  cases op with
  | boot =>
      cases h
      exact inRange_schedulerInitialize k.sched
  | applyAging =>
      cases h
      exact hk.schedulerApplyAging
  | selectNextCandidate =>
      cases h
      exact hk.schedulerSelectNextCandidate
  | yield =>
      cases h
      exact hk.schedulerYield
  | registerProcess entryPoint priority rss flags =>
      simp only [Kernel.operate] at h
      split at h
      · cases h
      · cases h
        exact hk.schedulerRegisterProcess hop ‹_›
  | newtask2 dummyTaskProcedure =>
      simp only [Kernel.operate, Sched.newtask2] at h
      cases hreg : Sched.schedulerRegisterProcess k dummyTaskProcedure schedDefaultPriority 128 0 with
      | error e =>
          rw [hreg] at h
          cases h
      | ok r =>
          rw [hreg] at h
          cases h
          exact hk.schedulerRegisterProcess (by decide) hreg
  | sleep ticks =>
      cases h
      exact (hk.quiet (Quiet.modifyPcb (f := setDeadline _) k.sched _ fun _ => rfl)).schedulerYield
  | sendSignal targetPid signal =>
      cases h
      exact hk.turned (turned_schedulerSendSignal k.sched .resume targetPid signal)
  | takeSignal index signal =>
      cases h
      exact hk.quiet (Quiet.modifyPcb (f := clearPending _) k.sched index fun _ => rfl)
  | registerSignalHandler signal handler =>
      cases h
      unfold Kernel.withSched schedulerRegisterSignalHandler
      simp only
      split
      · exact hk
      · exact hk.quiet (Quiet.modifyPcb (f := setHandler _ _) k.sched _ fun _ => rfl)
  | ipcSend destinationPid message length type =>
      cases h
      exact hk.quiet (Quiet.schedulerIpcSend k.sched destinationPid message length type)
  | ipcReceive maxLength =>
      cases h
      exact hk.turned (turned_schedulerIpcReceive k.sched .resume maxLength)
  | terminateProcess targetPid =>
      cases h
      exact hk.quiet (Quiet.schedulerTerminateProcess k.sched targetPid)
  | terminateCurrent =>
      cases h
      exact (hk.quiet (Quiet.schedulerTerminateProcess k.sched _)).schedulerYield
  | waitPid targetPid =>
      simp only [Kernel.operate] at h
      cases hwait : schedulerWaitPid k.sched targetPid with
      | none =>
          rw [hwait] at h
          cases h
          exact hk
      | some r =>
          rw [hwait] at h
          cases h
          -- the process it waits for exists, and the wait is a block and a yield
          rcases Option.map_eq_some_iff.1 hwait with ⟨_, _, rfl⟩
          exact (hk.quiet (quiet_blocked k.sched targetPid)).schedulerYield

end SchedulerState.InRange

/-- Over every run of operations from `scheduler_initialize` in which processes are registered with
at most `SCHED_MAX_PRIORITY`, every process has `base_priority ≤ dynamic_priority ≤
SCHED_MAX_PRIORITY` and `accumulation_cycles < SCHED_PRIORITY_AGING_LIMIT`. -/
theorem inRange_operate (k : Kernel) (ops : List Operation) (hops : ∀ op ∈ ops, op.WithinCap) :
    AllStates Kernel.operate (fun t => t.sched.InRange) k.boot ops := by
  refine allStates_of_allSteps (I := fun t : Kernel => t.sched.InRange) ?_
    (inRange_schedulerInitialize k.sched) (allSteps_of_forall_mem hops _)
  exact fun t op u ht hop h => SchedulerState.InRange.operate ht hop h

/-- A process at the cap and one below it are registered and aged, and one of them is chosen. -/
theorem inRange_operate_two :
    (exec Kernel.operate (coldKernel 4096).boot
        [.registerProcess 0x100000 100 128 0, .newtask2 0x100000, .applyAging, .yield,
          .selectNextCandidate]).isSome ∧
      AllStates Kernel.operate (fun t => t.sched.InRange) (coldKernel 4096).boot
        [.registerProcess 0x100000 100 128 0, .newtask2 0x100000, .applyAging, .yield,
          .selectNextCandidate] :=
  ⟨by decide +kernel, inRange_operate (coldKernel 4096) _
    (by simp [Operation.WithinCap, schedMaxPriority])⟩

end Sched
end WhitexKernel
