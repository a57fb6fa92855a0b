import WhitexKernel.Sched.WaitReturn

/-!
# Fields — what a turn leaves of an entry

Signals, messages and terminations rewrite a few fields of a process and leave the rest.  A part of
the entries that they leave alone is *lasting*: up to the yield at its end, a turn changes it in no
entry that is in use, except by `scheduler_sleep` in that of the current process.
-/

namespace WhitexKernel
namespace Sched

open Lib Machine Oom SchedulerState

variable {β : Type} {π : ProcessControlBlock → β}

/-- A part of an entry that signals, messages and terminations leave alone. -/
structure Lasting (π : ProcessControlBlock → β) : Prop where
  state : ∀ st pcb, π (setState st pcb) = π pcb
  pending : ∀ signal pcb, π (addPending signal pcb) = π pcb
  blocked : ∀ pid pcb, π (blockPcb pid pcb) = π pcb
  released : ∀ pid pcb, π (releasePcb pid pcb) = π pcb
  delivered : ∀ fill pcb, π (deliverMessage fill pcb) = π pcb
  popped : ∀ pcb, π (popMessage pcb) = π pcb

namespace Lasting

theorem schedulerTerminateProcess (hπ : Lasting π) (s : SchedulerState) (pid i : Nat) :
    π ((schedulerTerminateProcess s pid).1.processTable i) = π (s.processTable i) :=
  schedulerTerminateProcess_field s pid i (hπ.state .dead) (hπ.released pid)

theorem schedulerIpcSend (hπ : Lasting π) (s : SchedulerState) (dest : Nat)
    (message : Nat → UInt8) (length type i : Nat) :
    π ((schedulerIpcSend s dest message length type).1.processTable i) =
      π (s.processTable i) := by
  unfold Sched.schedulerIpcSend
  split
  · rfl
  · split
    · rfl
    · split
      · rfl
      · exact modifyPcb_field (f := deliverMessage _) s _ i (hπ.delivered _)

theorem schedulerIpcReceive (hπ : Lasting π) (s : SchedulerState) (maxLength i : Nat) :
    π (((receiveYieldState s).getD (schedulerIpcReceive s maxLength).1).processTable i) =
      π (s.processTable i) := by
  unfold receiveYieldState Sched.schedulerIpcReceive
  by_cases hempty : s.current.communicationChannel.count = 0
  · simp only [hempty, if_true, Option.getD_some]
    exact modifyPcb_field (f := blockPcb 0) s _ i (hπ.blocked 0)
  · simp only [hempty, if_false, Option.getD_none]
    exact modifyPcb_field (f := popMessage) s _ i hπ.popped

theorem schedulerSendSignal (hπ : Lasting π) (s : SchedulerState) (pid signal i : Nat) :
    π (((signalYieldState s pid signal).getD (schedulerSendSignal s pid signal).1).processTable i) =
      π (s.processTable i) := by
  have hpending : ∀ j, π ((s.modifyPcb j (addPending signal)).processTable i) =
      π (s.processTable i) :=
    fun j => modifyPcb_field (f := addPending signal) s j i (hπ.pending signal)
  have hstate : ∀ j st, π (((s.modifyPcb j (addPending signal)).modifyPcb j
      (setState st)).processTable i) = π (s.processTable i) :=
    fun j st => (modifyPcb_field (f := setState st) _ j i (hπ.state st)).trans (hpending j)
  unfold signalYieldState Sched.schedulerSendSignal deliverSignal yieldIfCurrent
  cases hfind : s.findLive pid with
  | none =>
      simp only [Option.getD_none]
      split
      · rfl
      · rfl
  | some j =>
      simp only [modifyPcb_runningProcessIndex]
      by_cases hcur : s.runningProcessIndex = j
      -- the current process yields if it kills or stops itself
      · simp only [hcur, if_true]
        by_cases hkill : signal = signalSigkill
        · rw [if_pos hkill, Option.getD_some]
          exact hstate j .dead
        · by_cases hstop : signal = signalSigstop
          · rw [if_neg hkill, if_pos hstop, Option.getD_some]
            exact hstate j .stopped
          · simp only [if_neg hkill, if_neg hstop, Option.getD_none]
            split_ifs
            · rfl
            · exact hstate j .running
            · exact hpending j
      · simp only [hcur, if_false, Option.getD_none]
        split_ifs
        · rfl
        · exact hstate j .dead
        · exact hstate j .stopped
        · exact hstate j .running
        · exact hpending j

/-- Up to its yield, a turn leaves what is lasting in every entry in use, the deadline of the current
process apart. -/
theorem step (hπ : Lasting π) {s t : System} {a : Action} (h : s.step a = some t) {i : Nat}
    (hi : i < s.sched.activeProcessCount)
    (hsleep : i ≠ s.running ∨ ∀ tick pcb, π (setDeadline tick pcb) = π pcb) :
    π (((yieldState s a).getD t.sched).processTable i) = π (s.sched.processTable i) := by
  cases System.step_turn h with
  | receiveAgain maxLength hsus =>
      simp only [yieldState, hsus, System.receiveRound_sched]
      exact hπ.schedulerIpcReceive s.sched maxLength i
  | waitReturns pid target hsus =>
      simp only [yieldState, hsus]
      rfl
  | call c _ hcall =>
      cases c with
      | registerProcess entryPoint priority rss flags =>
          simp only [yieldState, Option.getD_none]
          rcases System.register_cases hcall with ⟨_, _, ht | ht | ⟨_, stackRaw, ht⟩⟩
          · rw [ht]
          · rw [ht]
            rfl
          -- the entry that is filled was not in use
          · have hne : i ≠ s.sched.activeProcessCount := Nat.ne_of_lt hi
            rw [ht]
            simp [SchedulerState.addProcess, Kernel.drawPid, hne]
      | terminateProcess pid =>
          cases hcall
          exact hπ.schedulerTerminateProcess s.sched pid i
      | terminateCurrent =>
          cases hcall
          exact hπ.schedulerTerminateProcess s.sched s.sched.current.taskId i
      | sendSignal pid signal =>
          cases hcall
          exact hπ.schedulerSendSignal s.sched pid signal i
      | waitPid pid =>
          cases hcall
          simp only [yieldState, System.wait, schedulerWaitPid]
          cases s.sched.findLive pid with
          | none => rfl
          | some j => exact modifyPcb_field (f := blockPcb pid) s.sched s.running i (hπ.blocked pid)
      | ipcSend dest message length type =>
          cases hcall
          simp only [yieldState, Option.getD_none, System.send_sched]
          exact hπ.schedulerIpcSend s.sched dest message length type i
      | ipcReceive maxLength =>
          cases hcall
          simp only [yieldState, System.receiveRound_sched]
          exact hπ.schedulerIpcReceive s.sched maxLength i
      | sleep ticks =>
          cases hcall
          rcases hsleep with hother | hdeadline
          · simp [yieldState, hother]
          · exact modifyPcb_field (f := setDeadline _) s.sched s.running i (hdeadline _)
      | yield =>
          cases hcall
          rfl

end Lasting

end Sched
end WhitexKernel
