import WhitexKernel.Sched.WaitReturn

/-!
# Turns — what one turn does to the scheduling bookkeeping

The priorities, the aging counter and the metrics of an entry are its *bookkeeping*.  A turn does not
touch it (`Quiet`) but in a `scheduler_yield` at its end, or where it puts a new process into the
next entry; `System.step_turned` says which turns there are.
-/

namespace WhitexKernel
namespace Sched

open Lib Machine Oom

/-! ## Bookkeeping -/

/-- What the scheduler keeps about a process for its own use. -/
structure Bookkeeping where
  basePriority : Nat
  dynamicPriority : Nat
  accumulationCycles : Nat
  metrics : PerformanceMetrics

def ProcessControlBlock.bookkeeping (pcb : ProcessControlBlock) : Bookkeeping :=
  { basePriority := pcb.basePriority
    dynamicPriority := pcb.dynamicPriority
    accumulationCycles := pcb.accumulationCycles
    metrics := pcb.metrics }

namespace SchedulerState

/-- `t` differs from `s` in no bookkeeping. -/
structure Quiet (s t : SchedulerState) : Prop where
  bookkeeping : ∀ i, (t.processTable i).bookkeeping = (s.processTable i).bookkeeping
  count : t.activeProcessCount = s.activeProcessCount
  running : t.runningProcessIndex = s.runningProcessIndex
  cycles : t.schedulerCycles = s.schedulerCycles
  now : t.kernelElapsedTicks = s.kernelElapsedTicks

namespace Quiet

variable {s t u : SchedulerState}

theorem refl (s : SchedulerState) : Quiet s s := ⟨fun _ => rfl, rfl, rfl, rfl, rfl⟩

theorem trans (hst : Quiet s t) (htu : Quiet t u) : Quiet s u :=
  ⟨fun i => (htu.bookkeeping i).trans (hst.bookkeeping i), htu.count.trans hst.count,
    htu.running.trans hst.running, htu.cycles.trans hst.cycles, htu.now.trans hst.now⟩

theorem metrics (h : Quiet s t) (i : Nat) :
    (t.processTable i).metrics = (s.processTable i).metrics :=
  congrArg Bookkeeping.metrics (h.bookkeeping i)

/-- Rewriting an entry, its bookkeeping apart. -/
theorem modifyPcb (s : SchedulerState) (i : Nat) {f : ProcessControlBlock → ProcessControlBlock}
    (hf : ∀ pcb, (f pcb).bookkeeping = pcb.bookkeeping) : Quiet s (s.modifyPcb i f) :=
  ⟨fun j => modifyPcb_field s i j hf, rfl, rfl, rfl, rfl⟩

theorem releaseWaiters (s : SchedulerState) (pid : Nat) : Quiet s (releaseWaiters s pid) := by
  refine ⟨fun j => releaseWaiters_field s pid j fun pcb => ?_, rfl, rfl, rfl, rfl⟩
  unfold releasePcb
  split <;> rfl

theorem schedulerTerminateProcess (s : SchedulerState) (pid : Nat) :
    Quiet s (schedulerTerminateProcess s pid).1 := by
  unfold Sched.schedulerTerminateProcess
  split
  · exact refl s
  · split
    · exact refl s
    · exact (modifyPcb (f := setState .dead) s _ fun _ => rfl).trans (releaseWaiters _ pid)

theorem schedulerIpcSend (s : SchedulerState) (dest : Nat) (message : Nat → UInt8)
    (length type : Nat) : Quiet s (schedulerIpcSend s dest message length type).1 := by
  unfold Sched.schedulerIpcSend
  split
  · exact refl s
  · split
    · exact refl s
    · split
      · exact refl s
      · exact modifyPcb (f := deliverMessage _) s _ fun _ => rfl

end Quiet

end SchedulerState

open SchedulerState

/-! ## Turns -/

/-- The ways a turn changes the scheduler globals, by the state in which it yields: quietly, with a
yield at its end, or by putting a new process into the table. -/
inductive Turned (s : SchedulerState) (a : Action) : Option SchedulerState → SchedulerState → Prop
  | quiet {t : SchedulerState} (h : Quiet s t) : Turned s a none t
  | yielded {t : SchedulerState} (h : Quiet s t) : Turned s a (some t) (schedulerYield t)
  | added {t : SchedulerState} {entryPoint priority rss flags : Nat} (pid stackRaw : Nat)
      (ha : a = .call (.registerProcess entryPoint priority rss flags)) (h : Quiet s t)
      (hroom : s.activeProcessCount < sysMaxTasks) :
      Turned s a none (t.addProcess entryPoint pid priority rss flags stackRaw)

theorem quiet_blocked (s : SchedulerState) (pid : Nat) :
    Quiet s (s.modifyPcb s.runningProcessIndex (blockPcb pid)) :=
  Quiet.modifyPcb (f := blockPcb pid) s _ fun _ => rfl

theorem turned_schedulerIpcReceive (s : SchedulerState) (a : Action) (maxLength : Nat) :
    Turned s a (receiveYieldState s) (schedulerIpcReceive s maxLength).1 := by
  unfold schedulerIpcReceive receiveYieldState
  simp only
  split
  · exact .yielded (quiet_blocked s 0)
  · exact .quiet (Quiet.modifyPcb (f := popMessage) s _ fun _ => rfl)

theorem turned_schedulerSendSignal (s : SchedulerState) (a : Action) (pid signal : Nat) :
    Turned s a (signalYieldState s pid signal) (schedulerSendSignal s pid signal).1 := by
  have hcontrols := controls_schedulerSendSignal s pid signal
  have hpending : ∀ i, Quiet s (s.modifyPcb i (addPending signal)) :=
    fun i => Quiet.modifyPcb s i fun _ => rfl
  have hstate : ∀ (i : Nat) (st : TaskState),
      Quiet s ((s.modifyPcb i (addPending signal)).modifyPcb i (setState st)) :=
    fun i st => (hpending i).trans (Quiet.modifyPcb (f := setState st) _ i fun _ => rfl)
  cases hyield : signalYieldState s pid signal with
  | some u =>
      rw [hyield] at hcontrols
      rw [show (schedulerSendSignal s pid signal).1 = schedulerYield u from hcontrols]
      refine .yielded ?_
      unfold signalYieldState at hyield
      split at hyield
      · cases hyield
      · split_ifs at hyield
        · cases hyield
          exact hstate _ .dead
        · cases hyield
          exact hstate _ .stopped
  | none =>
      refine .quiet ?_
      unfold schedulerSendSignal deliverSignal yieldIfCurrent
      unfold signalYieldState at hyield
      cases hfind : s.findLive pid with
      | none =>
          split
          · exact Quiet.refl s
          · exact Quiet.refl s
      | some i =>
          rw [hfind] at hyield
          simp only [modifyPcb_runningProcessIndex] at hyield ⊢
          by_cases hcur : s.runningProcessIndex = i
          -- the current process stops itself only by yielding
          · simp only [hcur, if_true] at hyield ⊢
            split_ifs at hyield ⊢
            · exact Quiet.refl s
            · exact hstate i .running
            · exact hpending i
          · simp only [hcur, if_false]
            split_ifs
            · exact Quiet.refl s
            · exact hstate i .dead
            · exact hstate i .stopped
            · exact hstate i .running
            · exact hpending i

theorem quiet_drawPid (k : Kernel) : Quiet k.sched k.drawPid.1.sched :=
  ⟨fun _ => rfl, rfl, rfl, rfl, rfl⟩

theorem turned_register {s t : System} {entryPoint priority rss flags : Nat}
    (h : s.register entryPoint priority rss flags = some t) :
    Turned s.sched (.call (.registerProcess entryPoint priority rss flags)) none t.sched := by
  rcases System.register_cases h with ⟨_, _, ht | ht | ⟨hroom, stackRaw, ht⟩⟩
  · rw [ht]
    exact .quiet (Quiet.refl _)
  · rw [ht]
    exact .quiet (quiet_drawPid s.kernel)
  · rw [ht]
    exact .added _ stackRaw rfl (quiet_drawPid s.kernel) hroom

/-- Every turn is one of them. -/
theorem System.step_turned {s t : System} {a : Action} (h : s.step a = some t) :
    Turned s.sched a (yieldState s a) t.sched := by
  cases step_turn h with
  | receiveAgain maxLength hsus =>
      simp only [yieldState, hsus]
      rw [receiveRound_sched]
      exact turned_schedulerIpcReceive s.sched _ maxLength
  | waitReturns pid target hsus =>
      simp only [yieldState, hsus]
      exact .quiet (Quiet.refl _)
  | call c _ hcall =>
      -- only some of the calls yield, and what precedes the yield leaves priorities alone
      cases c with
      | registerProcess entryPoint priority rss flags => exact turned_register hcall
      | terminateProcess pid =>
          cases hcall
          exact .quiet (Quiet.schedulerTerminateProcess s.sched pid)
      | terminateCurrent =>
          cases hcall
          exact .yielded (Quiet.schedulerTerminateProcess s.sched _)
      | sendSignal pid signal =>
          cases hcall
          exact turned_schedulerSendSignal s.sched _ pid signal
      | waitPid pid =>
          cases hcall
          simp only [yieldState, wait, schedulerWaitPid]
          cases s.sched.findLive pid with
          | none => exact .quiet (Quiet.refl _)
          | some i => exact .yielded (quiet_blocked s.sched pid)
      | ipcSend dest message length type =>
          cases hcall
          rw [send_sched]
          exact .quiet (Quiet.schedulerIpcSend s.sched dest message length type)
      | ipcReceive maxLength =>
          cases hcall
          rw [receiveRound_sched]
          exact turned_schedulerIpcReceive s.sched _ maxLength
      | sleep ticks =>
          cases hcall
          exact .yielded (Quiet.modifyPcb (f := setDeadline _) s.sched _ fun _ => rfl)
      | yield =>
          cases hcall
          exact .yielded (Quiet.refl _)

end Sched
end WhitexKernel
