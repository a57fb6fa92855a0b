import WhitexKernel.Lib.Transition
import WhitexKernel.Sched.Commands
import WhitexKernel.Sched.Events

/-!
# Protection — who stops or kills the processes that must not be killed

The master process and the processes with `OOM_FLAG_CRITICAL` are protected: a termination refuses
them.  A signal does not ask, so a protected process falls exactly to the `SIGKILL` or `SIGSTOP` of
another one.  `Watched` remembers of every entry who was current when it became dead or stopped.
-/

namespace WhitexKernel
namespace Sched

open Lib Machine Oom

/-! ## The system -/

/-- The calls of whoever is current, with their arguments. -/
inductive ProcessCall
  | registerProcess (entryPoint priority initialRss allocationFlags : Nat)
  | cmdKill (arg : List Char)
  | terminateProcess (targetPid : Nat)
  | sendSignal (targetPid signal : Nat)
  | yield

/-- The kernel after a call that returns. -/
def ProcessCall.run (k : Kernel) : ProcessCall → Option Kernel
  | .registerProcess entryPoint priority initialRss allocationFlags =>
      match schedulerRegisterProcess k entryPoint priority initialRss allocationFlags with
      | .error _ => none
      | .ok (k', _) => some k'
  | .cmdKill arg => some { k with sched := (Sched.cmdKill k.sched arg).1 }
  | .terminateProcess targetPid =>
      some { k with sched := (schedulerTerminateProcess k.sched targetPid).1 }
  | .sendSignal targetPid signal =>
      some { k with sched := (schedulerSendSignal k.sched targetPid signal).1 }
  | .yield => some { k with sched := schedulerYield k.sched }

/-- Dead or stopped. -/
def Down (st : TaskState) : Prop := st = .dead ∨ st = .stopped

instance (st : TaskState) : Decidable (Down st) := inferInstanceAs (Decidable (_ ∨ _))

/-- The kernel, and the entry that was current when an entry last became dead or stopped. -/
structure Watched where
  kernel : Kernel
  felledBy : Nat → Option Nat

namespace Watched

/-- The scheduler globals. -/
abbrev sched (w : Watched) : SchedulerState := w.kernel.sched

/-- After a call of the current process. -/
def after (w : Watched) (k : Kernel) : Watched :=
  { kernel := k
    felledBy := fun i =>
      if Down (k.sched.processTable i).executionState ∧
          (k.sched.processTable i).executionState ≠ (w.sched.processTable i).executionState then
        some w.sched.runningProcessIndex
      else w.felledBy i }

def step (w : Watched) (call : ProcessCall) : Option Watched := (call.run w.kernel).map w.after

/-- After `scheduler_initialize`. -/
def boot (k : Kernel) : Watched :=
  { kernel := { k with sched := schedulerInitialize k.sched }
    felledBy := fun _ => none }

end Watched

/-- Entry `i` is in use, and is that of the master process or of a critical one. -/
def ProtectedEntry (s : SchedulerState) (i : Nat) : Prop :=
  i < s.activeProcessCount ∧ (i = 0 ∨ (s.processTable i).allocationFlags.testBit oomFlagCritical)

/-- No protected process has been stopped or killed by another process. -/
def Watched.Unharmed (w : Watched) : Prop :=
  ∀ i c, ProtectedEntry w.sched i → Down (w.sched.processTable i).executionState →
    w.felledBy i = some c → c = i

/-- The signal would stop or kill entry `i`. -/
def Fells (s : SchedulerState) (i signal : Nat) : Prop :=
  signal = signalSigkill ∨
    (signal = signalSigstop ∧ (s.processTable i).executionState ≠ .stopped)

/-- The call is not a signal that stops or kills a protected process other than the current one. -/
def Watched.SparesProtected (w : Watched) : ProcessCall → Prop
  | .sendSignal targetPid signal =>
      ∀ i, w.sched.findLive targetPid = some i → ProtectedEntry w.sched i →
        i ≠ w.sched.runningProcessIndex → ¬ Fells w.sched i signal
  | _ => True

/-! ## The event of each call -/

def ProcessCall.event (k : Kernel) : ProcessCall → LifecycleEvent
  | .registerProcess entryPoint priority initialRss allocationFlags =>
      registerEvent k entryPoint priority initialRss allocationFlags
  | .cmdKill arg => if arg = [] then .skip else terminateEvent k.sched (parseInteger arg)
  | .terminateProcess targetPid => terminateEvent k.sched targetPid
  | .sendSignal targetPid signal => signalEvent k.sched targetPid signal
  | .yield => .skip

theorem ProcessCall.run_view {k k' : Kernel} {call : ProcessCall} (h : call.run k = some k') :
    view k'.sched = (view k.sched).apply (call.event k) := by
  cases call with
  | registerProcess entryPoint priority rss flags =>
      simp only [ProcessCall.run] at h
      split at h
      · cases h
      case h_2 code hreg =>
        cases h
        exact view_schedulerRegisterProcess hreg
  | cmdKill arg =>
      cases h
      -- without an argument the command only prints its usage
      by_cases harg : arg = []
      · simp [Sched.cmdKill, ProcessCall.event, harg, Lifecycle.apply]
      · simp only [ProcessCall.event, harg, if_false, cmdKill_sched k.sched harg]
        exact view_schedulerTerminateProcess k.sched _
  | terminateProcess pid =>
      cases h
      exact view_schedulerTerminateProcess k.sched pid
  | sendSignal pid signal =>
      cases h
      exact view_schedulerSendSignal k.sched pid signal
  | yield =>
      cases h
      exact view_schedulerYield k.sched

/-! ## Flags never change -/

/-- The entries in use keep their flags. -/
def SameFlags (s t : SchedulerState) : Prop :=
  ∀ i, i < s.activeProcessCount →
    (t.processTable i).allocationFlags = (s.processTable i).allocationFlags

theorem SchedulerState.SameCore.sameFlags {s t : SchedulerState}
    (h : SchedulerState.SameCore s t) : SameFlags s t := by
  intro i _
  have hcore := congrArg ProcessControlBlock.allocationFlags (h.core i)
  exact hcore

theorem sameFlags_terminateProcess (s : SchedulerState) (pid : Nat) :
    SameFlags s (schedulerTerminateProcess s pid).1 := by
  intro j _
  refine schedulerTerminateProcess_field s pid j (fun _ => rfl) fun pcb => ?_
  unfold releasePcb
  split <;> rfl

theorem yieldIfCurrent_flags (s : SchedulerState) (i j : Nat) :
    ((yieldIfCurrent s i).processTable j).allocationFlags =
      (s.processTable j).allocationFlags := by
  unfold yieldIfCurrent
  split
  · have hcore := congrArg ProcessControlBlock.allocationFlags ((schedulerYield_sameCore s).core j)
    exact hcore
  · rfl

theorem sameFlags_sendSignal (s : SchedulerState) (pid signal : Nat) :
    SameFlags s (schedulerSendSignal s pid signal).1 := by
  intro j _
  -- the bit of the signal, the state and the yield all leave the flags
  have hpending : ∀ i, ((s.modifyPcb i (addPending signal)).processTable j).allocationFlags =
      (s.processTable j).allocationFlags := fun i => SchedulerState.modifyPcb_field s i j fun _ => rfl
  have hstate : ∀ i st, (((s.modifyPcb i (addPending signal)).modifyPcb i
      (setState st)).processTable j).allocationFlags = (s.processTable j).allocationFlags :=
    fun i st => (SchedulerState.modifyPcb_field (f := setState st) _ i j fun _ => rfl).trans (hpending i)
  unfold schedulerSendSignal
  split
  · rfl
  · split
    case h_2 => rfl
    case h_1 i _ =>
      simp only [deliverSignal]
      split
      · exact (yieldIfCurrent_flags _ i j).trans (hstate i .dead)
      · split
        · exact (yieldIfCurrent_flags _ i j).trans (hstate i .stopped)
        · split
          · exact hstate i .running
          · exact hpending i

theorem ProcessCall.run_flags {k k' : Kernel} {call : ProcessCall} (h : call.run k = some k') :
    SameFlags k.sched k'.sched := by
  cases call with
  | registerProcess entryPoint priority rss flags =>
      simp only [ProcessCall.run] at h
      split at h
      · cases h
      case h_2 code hreg =>
        cases h
        intro i hi
        rcases schedulerRegisterProcess_cases hreg with
          ⟨_, rfl⟩ | ⟨_, hk⟩ | ⟨_, _, stackRaw, _, hk⟩
        · rfl
        · rw [hk]
          rfl
        -- the entry that is filled was not in use
        · have hne : i ≠ k.sched.activeProcessCount := Nat.ne_of_lt hi
          rw [hk]
          simp [SchedulerState.addProcess, Kernel.drawPid, hne]
  | cmdKill arg =>
      cases h
      by_cases harg : arg = []
      · simp [Sched.cmdKill, harg, SameFlags]
      · simp only [cmdKill_sched k.sched harg]
        exact sameFlags_terminateProcess k.sched _
  | terminateProcess pid =>
      cases h
      exact sameFlags_terminateProcess k.sched pid
  | sendSignal pid signal =>
      cases h
      exact sameFlags_sendSignal k.sched pid signal
  | yield =>
      cases h
      exact (schedulerYield_sameCore k.sched).sameFlags

/-! ## Who falls -/

/-- The entry that an event stops or kills. -/
def LifecycleEvent.felled : LifecycleEvent → Option Nat
  | .terminate i _ => some i
  | .kill i => some i
  | .stop i => some i
  | _ => none

/-- Whoever is dead or stopped after an event was so before, or the event felled him. -/
theorem Lifecycle.state_of_down {l : Lifecycle} {e : LifecycleEvent} {i : Nat}
    (h : Down ((l.apply e).state i)) :
    (l.apply e).state i = l.state i ∨ e.felled = some i := by
  have hset : ∀ j st, Down ((l.setState j st).state i) →
      (l.setState j st).state i = l.state i ∨ (i = j ∧ Down st) := by
    intro j st hdown
    by_cases hij : i = j
    · exact .inr ⟨hij, by simpa [Lifecycle.setState, hij] using hdown⟩
    · exact .inl (by simp [Lifecycle.setState, hij])
  cases e with
  | skip => exact .inl rfl
  | spawn pid =>
      by_cases hi : i = l.count
      · simp [Lifecycle.apply, hi, Down] at h
      · exact .inl (by simp [Lifecycle.apply, hi])
  | terminate j pid =>
      by_cases hij : i = j
      · exact .inr (by rw [hij]; rfl)
      · simp only [Lifecycle.apply, Lifecycle.release] at h ⊢
        -- a waiter that is released runs
        split at h
        · simp [Down] at h
        case isFalse hnot =>
          rw [if_neg hnot]
          exact .inl (by simp [Lifecycle.setState, hij])
  | kill j => exact (hset j .dead h).imp_right fun hij => by rw [hij.1]; rfl
  | stop j => exact (hset j .stopped h).imp_right fun hij => by rw [hij.1]; rfl
  | cont j => exact .inl ((hset j .running h).resolve_right fun hij => by simp [Down] at hij)
  | block j pid => exact .inl ((hset j .blocked h).resolve_right fun hij => by simp [Down] at hij)
  | wake j => exact .inl ((hset j .running h).resolve_right fun hij => by simp [Down] at hij)

/-- The master process is at index 0, under the PID 100. -/
structure MasterInPlace (s : SchedulerState) : Prop where
  used : 0 < s.activeProcessCount
  taskId : (s.processTable 0).taskId = 100

theorem masterInPlace_run {k k' : Kernel} {call : ProcessCall} (hs : MasterInPlace k.sched)
    (h : call.run k = some k') : MasterInPlace k'.sched := by
  have hview := ProcessCall.run_view h
  refine ⟨?_, ?_⟩
  · have hcount := Lifecycle.count_le_apply (view k.sched) (call.event k)
    rw [← hview] at hcount
    exact Nat.lt_of_lt_of_le hs.used hcount
  · have hpid := Lifecycle.pid_apply_of_lt (view k.sched) (call.event k) hs.used
    rw [← hview] at hpid
    exact hpid.trans hs.taskId

theorem terminateEvent_used {s : SchedulerState} {pid i : Nat}
    (h : (terminateEvent s pid).felled = some i) : i < s.activeProcessCount := by
  unfold terminateEvent at h
  cases hfind : s.findIndex fun pcb => pcb.taskId == pid with
  | none => simp [hfind, LifecycleEvent.felled] at h
  | some j =>
      simp only [hfind] at h
      split at h
      · cases h
      · cases h
        exact (SchedulerState.findIndex_eq_some hfind).1

/-- A termination refuses the protected. -/
theorem terminateEvent_spares {s : SchedulerState} (hmaster : MasterInPlace s) {pid i : Nat}
    (h : (terminateEvent s pid).felled = some i) : ¬ ProtectedEntry s i := by
  unfold terminateEvent at h
  cases hfind : s.findIndex fun pcb => pcb.taskId == pid with
  | none => simp [hfind, LifecycleEvent.felled] at h
  | some j =>
      simp only [hfind] at h
      split at h
      · cases h
      case isFalse hallowed =>
        cases h
        rw [not_or] at hallowed
        have htask : (s.processTable i).taskId = pid :=
          beq_iff_eq.1 (SchedulerState.findIndex_eq_some hfind).2.1
        rintro ⟨_, rfl | hcritical⟩
        · exact hallowed.1 (htask.symm.trans hmaster.taskId)
        · exact hallowed.2 hcritical

/-- A signal fells whom it finds, if it is one of the two that fell. -/
theorem signalEvent_felled {s : SchedulerState} {pid signal i : Nat}
    (h : (signalEvent s pid signal).felled = some i) :
    s.findLive pid = some i ∧ (signal = signalSigkill ∨ signal = signalSigstop) := by
  unfold signalEvent at h
  split at h
  · cases h
  · cases hfind : s.findLive pid with
    | none => simp [hfind, LifecycleEvent.felled] at h
    | some j =>
        simp only [hfind] at h
        split at h
        case isTrue hkill =>
          cases h
          exact ⟨rfl, .inl hkill⟩
        case isFalse =>
          split at h
          case isTrue hstop =>
            cases h
            exact ⟨rfl, .inr hstop⟩
          case isFalse => split at h <;> cases h

theorem registerEvent_felled (k : Kernel) (entryPoint priority rss flags : Nat) :
    (registerEvent k entryPoint priority rss flags).felled = none := by
  unfold registerEvent
  split <;> rfl

/-- Only entries in use fall. -/
theorem ProcessCall.event_felled_used {k : Kernel} {call : ProcessCall} {i : Nat}
    (h : (call.event k).felled = some i) : i < k.sched.activeProcessCount := by
  cases call with
  | registerProcess entryPoint priority rss flags =>
      rw [ProcessCall.event, registerEvent_felled] at h
      cases h
  | cmdKill arg =>
      simp only [ProcessCall.event] at h
      split at h
      · cases h
      · exact terminateEvent_used h
  | terminateProcess pid => exact terminateEvent_used h
  | sendSignal pid signal => exact (SchedulerState.findLive_eq_some (signalEvent_felled h).1).1.1
  | yield => cases h

/-- Only a signal fells the protected. -/
theorem ProcessCall.event_felled {k : Kernel} (hmaster : MasterInPlace k.sched)
    {call : ProcessCall} {i : Nat} (h : (call.event k).felled = some i)
    (hi : ProtectedEntry k.sched i) :
    ∃ pid signal, call = .sendSignal pid signal ∧ k.sched.findLive pid = some i ∧
      (signal = signalSigkill ∨ signal = signalSigstop) := by
  cases call with
  | registerProcess entryPoint priority rss flags =>
      rw [ProcessCall.event, registerEvent_felled] at h
      cases h
  | cmdKill arg =>
      simp only [ProcessCall.event] at h
      split at h
      · cases h
      · exact absurd hi (terminateEvent_spares hmaster h)
  | terminateProcess pid => exact absurd hi (terminateEvent_spares hmaster h)
  | sendSignal pid signal =>
      rcases signalEvent_felled h with ⟨hfind, hsignal⟩
      exact ⟨pid, signal, rfl, hfind, hsignal⟩
  | yield => cases h

/-- The state a felling signal leaves its target in. -/
theorem sendSignal_state {s : SchedulerState} {pid signal i : Nat} (hfind : s.findLive pid = some i)
    (hfells : Fells s i signal) :
    Down ((schedulerSendSignal s pid signal).1.processTable i).executionState ∧
      ((schedulerSendSignal s pid signal).1.processTable i).executionState ≠
        (s.processTable i).executionState := by
  have hview := congrFun (congrArg Lifecycle.state (view_schedulerSendSignal s pid signal)) i
  have halive : (s.processTable i).executionState ≠ .dead :=
    (SchedulerState.findLive_eq_some hfind).1.2
  have hstate : ((schedulerSendSignal s pid signal).1.processTable i).executionState =
      ((view s).apply (signalEvent s pid signal)).state i := hview
  rw [hstate]
  rcases hfells with rfl | ⟨rfl, hstopped⟩
  · have hevent : signalEvent s pid signalSigkill = .kill i := by
      simp [signalEvent, hfind, signalSigkill]
    rw [hevent]
    simp only [Lifecycle.apply, Lifecycle.setState, Function.update_self]
    exact ⟨.inl rfl, Ne.symm halive⟩
  · have hevent : signalEvent s pid signalSigstop = .stop i := by
      simp [signalEvent, hfind, signalSigstop, signalSigkill]
    rw [hevent]
    simp only [Lifecycle.apply, Lifecycle.setState, Function.update_self]
    exact ⟨.inr rfl, Ne.symm hstopped⟩

/-! ## Runs -/

namespace Watched

/-- Who was in use and is protected afterwards was protected before. -/
theorem protectedEntry_iff {k k' : Kernel} {call : ProcessCall} (h : call.run k = some k') {i : Nat}
    (hi : i < k.sched.activeProcessCount) :
    ProtectedEntry k'.sched i ↔ ProtectedEntry k.sched i := by
  have hcount := Lifecycle.count_le_apply (view k.sched) (call.event k)
  rw [← ProcessCall.run_view h] at hcount
  have hi' : i < k'.sched.activeProcessCount := Nat.lt_of_lt_of_le hi hcount
  unfold ProtectedEntry
  rw [ProcessCall.run_flags h i hi]
  simp [hi, hi']

/-- A call that fells no protected process but the current one harms nobody. -/
theorem unharmed_after {w : Watched} {k' : Kernel} {call : ProcessCall}
    (hmaster : MasterInPlace w.sched) (hw : w.Unharmed) (h : call.run w.kernel = some k')
    (hspare : w.SparesProtected call) : (w.after k').Unharmed := by
  have hview := ProcessCall.run_view h
  intro i c hprotected hdown hfelled
  have hstate : (k'.sched.processTable i).executionState =
      ((view w.sched).apply (call.event w.kernel)).state i :=
    congrFun (congrArg Lifecycle.state hview) i
  simp only [after] at hfelled
  split at hfelled
  case isTrue hchanged =>
    cases hfelled
    rw [hstate] at hchanged
    -- the event of the call has felled entry `i`, so the call is a signal to it
    have hevent := (Lifecycle.state_of_down hchanged.1).resolve_left hchanged.2
    have hused : i < w.sched.activeProcessCount := ProcessCall.event_felled_used hevent
    have hold : ProtectedEntry w.sched i := (protectedEntry_iff h hused).1 hprotected
    rcases ProcessCall.event_felled hmaster hevent hold with ⟨pid, signal, rfl, hfind, hsignal⟩
    by_contra hne
    refine hspare i hfind hold (Ne.symm hne) ?_
    rcases hsignal with rfl | rfl
    · exact .inl rfl
    · refine .inr ⟨rfl, fun hstopped => hchanged.2 ?_⟩
      have hstop : signalEvent w.sched pid signalSigstop = .stop i := by
        simp [signalEvent, hfind, signalSigstop, signalSigkill]
      rw [ProcessCall.event, hstop]
      simp only [Lifecycle.apply, Lifecycle.setState, Function.update_self]
      exact hstopped.symm
  case isFalse hsame =>
    have hkept : (k'.sched.processTable i).executionState =
        (w.sched.processTable i).executionState := by
      by_contra hchanged
      exact hsame ⟨hdown, hchanged⟩
    have hused : i < w.sched.activeProcessCount := by
      by_contra hnew
      have hcount : i < ((view w.sched).apply (call.event w.kernel)).count := by
        rw [← hview]
        exact hprotected.1
      have hrunning := Lifecycle.state_of_new (Nat.not_lt.1 hnew) hcount
      rw [← hstate] at hrunning
      have hdown' : Down (k'.sched.processTable i).executionState := hdown
      rw [hrunning] at hdown'
      simp [Down] at hdown'
    exact hw i c ((protectedEntry_iff h hused).1 hprotected) (hkept ▸ hdown) hfelled

/-- A call that fells a protected process other than the current one harms it. -/
theorem sparesProtected_of_unharmed {w : Watched} {k' : Kernel} {call : ProcessCall}
    (h : call.run w.kernel = some k') (hw : (w.after k').Unharmed) : w.SparesProtected call := by
  cases call with
  | sendSignal pid signal =>
      intro i hfind hprotected hother hfells
      have hstate := sendSignal_state hfind hfells
      have hsend := h
      cases h
      have hprotected' : ProtectedEntry (schedulerSendSignal w.sched pid signal).1 i :=
        (protectedEntry_iff hsend hprotected.1).2 hprotected
      exact hother (hw i w.sched.runningProcessIndex hprotected' hstate.1
        (by simp [after, hstate])).symm
  | _ => trivial

theorem unharmed_step_iff {w u : Watched} {call : ProcessCall} (hmaster : MasterInPlace w.sched)
    (hw : w.Unharmed) (h : w.step call = some u) : u.Unharmed ↔ w.SparesProtected call := by
  rcases Option.map_eq_some_iff.1 h with ⟨k', hrun, rfl⟩
  exact ⟨sparesProtected_of_unharmed hrun, unharmed_after hmaster hw hrun⟩

theorem masterInPlace_boot (k : Kernel) : MasterInPlace (boot k).sched := by
  refine ⟨Nat.one_pos, ?_⟩
  simp [boot, sched, schedulerInitialize, masterPcb]

theorem unharmed_boot (k : Kernel) : (boot k).Unharmed := by
  intro i c _ _ hfelled
  cases hfelled

/-- Over every run from `scheduler_initialize`, no protected process is stopped or killed by another
one exactly when no process sends a protected one a `SIGKILL` or `SIGSTOP` that fells it. -/
theorem unharmed_run_iff (k : Kernel) (calls : List ProcessCall) :
    AllStates step Unharmed (boot k) calls ↔ AllSteps step SparesProtected (boot k) calls := by
  refine allStates_iff_allSteps (J := fun w : Watched => MasterInPlace w.sched) ?_ ?_
    (masterInPlace_boot k) (unharmed_boot k)
  · intro w call u hmaster h
    rcases Option.map_eq_some_iff.1 h with ⟨k', hrun, rfl⟩
    exact masterInPlace_run hmaster hrun
  · intro w call u hmaster hw h
    exact unharmed_step_iff hmaster hw h

/-- A child of higher priority kills the master process. -/
theorem unharmed_run_false :
    ¬ ∀ (k : Kernel) (calls : List ProcessCall), AllStates step Unharmed (boot k) calls := by
  intro h
  have hrun : (exec step (boot (coldKernel 4096))
      [.registerProcess 0x100000 schedMaxPriority 128 0, .yield, .sendSignal 100 signalSigkill]).any
        (fun w => decide ((w.sched.processTable 0).executionState = .dead) &&
          decide (w.sched.activeProcessCount = 2) && decide (w.felledBy 0 = some 1)) = true := by
    decide
  rcases exists_of_exec_any hrun with ⟨w, hexec, hw⟩
  simp only [Bool.and_eq_true, decide_eq_true_eq] at hw
  have hharmed := (h (coldKernel 4096) _).last hexec 0 1 ⟨by omega, .inl rfl⟩ (.inl hw.1.1) hw.2
  cases hharmed

end Watched

end Sched
end WhitexKernel
