import WhitexKernel.Lib.Since
import WhitexKernel.Sched.Operations

/-!
# Signals — what is pending for a process, and which handlers it has

The signals of an entry are written in four ways: its first turn finds them cleared, a signal is
sent to it, it takes one, and it registers a handler while it is the current process.
`signals_operate` says which of these an operation does, and that all others leave the
signals of all entries alone; `signalAccounts_run` is the balance over a run.
-/

namespace WhitexKernel
namespace Sched

open Lib Machine Oom SchedulerState

/-! ## What happens to the signals of an entry -/

inductive SignalEvent
  | fresh
  | sent (signal : Nat)
  | taken (signal : Nat)
  | registered (signal handler : Nat)
  deriving DecidableEq, Repr

namespace SignalEvent

def apply (c : SignalContext) : SignalEvent → SignalContext
  | fresh => SignalContext.zero
  | sent signal => { c with pendingSignals := c.pendingSignals ||| 1 <<< signal }
  | taken signal =>
      { c with pendingSignals := c.pendingSignals &&& (0xFFFFFFFF ^^^ 1 <<< signal) }
  | registered signal handler =>
      { c with handlers := Function.update c.handlers signal handler }

/-- `signal` is not pending any more. -/
def Settles (signal : Nat) : SignalEvent → Prop
  | taken other => other = signal
  | fresh => True
  | _ => False

/-- The handler of `signal` is another one, or none. -/
def Replaces (signal : Nat) : SignalEvent → Prop
  | registered other _ => other = signal
  | fresh => True
  | _ => False

/-- What `scheduler_register_signal_handler` refuses does not happen. -/
def Allowed : SignalEvent → Prop
  | registered signal _ => signal ≠ signalSigkill ∧ signal ≠ signalSigstop
  | _ => True

end SignalEvent

/-- A registration clears the signals of the entry it fills. -/
def registrationEvent (k : Kernel) (i : Nat) : Except Halt (Kernel × ErrCode) → Option SignalEvent
  | .ok (_, .ok) => if i = k.sched.activeProcessCount then some .fresh else none
  | _ => none

/-- What an operation does to the signals of entry `i`. -/
def Operation.signalEvent (k : Kernel) (i : Nat) : Operation → Option SignalEvent
  | boot => some .fresh
  | registerProcess entryPoint priority initialRss allocationFlags =>
      registrationEvent k i
        (schedulerRegisterProcess k entryPoint priority initialRss allocationFlags)
  | newtask2 dummyTaskProcedure =>
      registrationEvent k i
        (schedulerRegisterProcess k dummyTaskProcedure schedDefaultPriority 128 0)
  | sendSignal targetPid signal =>
      if signal ≤ 31 ∧ k.sched.findLive targetPid = some i then some (.sent signal) else none
  | takeSignal index signal => if i = index then some (.taken signal) else none
  | registerSignalHandler signal handler =>
      if (schedulerRegisterSignalHandler k.sched signal handler).2 = .ok ∧
          i = k.sched.runningProcessIndex then some (.registered signal handler)
      else none
  | _ => none

/-! ## What an operation does to them -/

section Effects

variable {s t : SchedulerState} {k k' : Kernel} {i : Nat}

/-- The signals of entry `i`. -/
def SchedulerState.signals (s : SchedulerState) (i : Nat) : SignalContext :=
  (s.processTable i).signalSubsystem

theorem signals_sameCore (h : SameCore s t) (i : Nat) : t.signals i = s.signals i := by
  have hi := congrArg ProcessControlBlock.signalSubsystem (h.core i)
  exact hi

@[simp] theorem signals_schedulerYield (s : SchedulerState) (i : Nat) :
    (schedulerYield s).signals i = s.signals i :=
  signals_sameCore (schedulerYield_sameCore s) i

/-- Rewriting an entry without its signals. -/
theorem signals_modifyPcb_same (s : SchedulerState) (j i : Nat)
    {f : ProcessControlBlock → ProcessControlBlock}
    (hf : ∀ pcb, (f pcb).signalSubsystem = pcb.signalSubsystem) :
    (s.modifyPcb j f).signals i = s.signals i :=
  modifyPcb_field s j i hf

/-- Rewriting the signals of an entry. -/
theorem signals_modifyPcb_apply (s : SchedulerState) (j i : Nat) (event : SignalEvent)
    {f : ProcessControlBlock → ProcessControlBlock}
    (hf : ∀ pcb, (f pcb).signalSubsystem = event.apply pcb.signalSubsystem) :
    (s.modifyPcb j f).signals i =
      (if i = j then some event else none).elim (s.signals i) (SignalEvent.apply (s.signals i)) := by
  unfold SchedulerState.signals
  rw [modifyPcb_processTable]
  split
  case isTrue h =>
    cases h
    exact hf _
  case isFalse => rfl

theorem signals_yieldIfCurrent (s : SchedulerState) (j i : Nat) :
    (yieldIfCurrent s j).signals i = s.signals i := by
  unfold yieldIfCurrent
  split
  · exact signals_schedulerYield s i
  · rfl

theorem signals_deliverSignal (s : SchedulerState) (j signal i : Nat) :
    (deliverSignal s j signal).signals i =
      (if i = j then some (.sent signal) else none).elim (s.signals i)
        (SignalEvent.apply (s.signals i)) := by
  have hstate : ∀ st, ((s.modifyPcb j (addPending signal)).modifyPcb j (setState st)).signals i =
      (s.modifyPcb j (addPending signal)).signals i :=
    fun st => signals_modifyPcb_same (f := setState st) _ j i fun _ => rfl
  rw [← signals_modifyPcb_apply (f := addPending signal) s j i (.sent signal) fun _ => rfl]
  unfold deliverSignal
  split_ifs
  · rw [signals_yieldIfCurrent, hstate]
  · rw [signals_yieldIfCurrent, hstate]
  · exact hstate .running
  · rfl

theorem signals_schedulerSendSignal (s : SchedulerState) (targetPid signal i : Nat) :
    (schedulerSendSignal s targetPid signal).1.signals i =
      (if signal ≤ 31 ∧ s.findLive targetPid = some i then some (.sent signal) else none).elim
        (s.signals i) (SignalEvent.apply (s.signals i)) := by
  unfold schedulerSendSignal
  by_cases hsignal : signal ≤ 31
  · rw [if_neg (Nat.not_lt.2 hsignal)]
    cases hfind : s.findLive targetPid with
    | none => simp
    | some j =>
        simp only [signals_deliverSignal, hsignal, true_and, Option.some.injEq, eq_comm]
  · rw [if_pos (Nat.lt_of_not_le hsignal), if_neg fun h => hsignal h.1]
    rfl

theorem signals_schedulerRegisterSignalHandler (s : SchedulerState) (signal handler i : Nat) :
    (schedulerRegisterSignalHandler s signal handler).1.signals i =
      (if (schedulerRegisterSignalHandler s signal handler).2 = .ok ∧ i = s.runningProcessIndex then
        some (.registered signal handler) else none).elim
        (s.signals i) (SignalEvent.apply (s.signals i)) := by
  unfold schedulerRegisterSignalHandler
  split
  · rfl
  · simp only [true_and]
    exact signals_modifyPcb_apply (f := setHandler signal handler) s _ i _ fun _ => rfl

theorem signals_schedulerTerminateProcess (s : SchedulerState) (targetPid i : Nat) :
    (schedulerTerminateProcess s targetPid).1.signals i = s.signals i := by
  refine schedulerTerminateProcess_field s targetPid i (fun _ => rfl) fun pcb => ?_
  unfold releasePcb
  split <;> rfl

theorem signals_blockCurrent (s : SchedulerState) (pid i : Nat) :
    (blockCurrent s pid).signals i = s.signals i := by
  unfold blockCurrent
  rw [signals_schedulerYield]
  exact signals_modifyPcb_same (f := blockPcb pid) s _ i fun _ => rfl

theorem signals_schedulerIpcSend (s : SchedulerState) (destinationPid : Nat)
    (message : Nat → UInt8) (length type i : Nat) :
    (schedulerIpcSend s destinationPid message length type).1.signals i = s.signals i := by
  unfold schedulerIpcSend
  split
  · rfl
  · split
    · rfl
    · split
      · rfl
      · exact signals_modifyPcb_same (f := deliverMessage _) s _ i fun _ => rfl

theorem signals_schedulerIpcReceive (s : SchedulerState) (maxLength i : Nat) :
    (schedulerIpcReceive s maxLength).1.signals i = s.signals i := by
  unfold schedulerIpcReceive
  simp only
  split
  · exact signals_blockCurrent s 0 i
  · exact signals_modifyPcb_same (f := popMessage) s _ i fun _ => rfl

theorem signals_schedulerRegisterProcess {e : ErrCode} {entryPoint priority rss flags : Nat}
    (h : schedulerRegisterProcess k entryPoint priority rss flags = .ok (k', e)) (i : Nat) :
    k'.sched.signals i =
      (registrationEvent k i (.ok (k', e))).elim (k.sched.signals i)
        (SignalEvent.apply (k.sched.signals i)) := by
  rcases schedulerRegisterProcess_cases h with ⟨rfl, rfl⟩ | ⟨rfl, hk'⟩ | ⟨rfl, _, stackRaw, _, hk'⟩
  · rfl
  · rw [hk']
    rfl
  · rw [hk']
    simp only [registrationEvent, SchedulerState.signals, addProcess, Kernel.drawPid,
      modifyPcb_processTable]
    split <;> rfl

/-- After `scheduler_initialize` no entry has anything pending or any handler. -/
theorem signals_schedulerInitialize (s : SchedulerState) (hi : i < sysMaxTasks) :
    (schedulerInitialize s).signals i = SignalContext.zero := by
  unfold schedulerInitialize SchedulerState.signals
  simp only [modifyPcb_processTable]
  split
  case isTrue h => simp [masterPcb, clearPcb, sysMaxTasks]
  case isFalse => simp [clearPcb]

/-- An operation changes the signals of an entry as its event says, and not at all without one. -/
theorem signals_operate {op : Operation} (hi : i < sysMaxTasks)
    (h : k.operate op = some k') :
    k'.sched.signals i =
      (op.signalEvent k i).elim (k.sched.signals i) (SignalEvent.apply (k.sched.signals i)) := by
  cases op with
  | boot =>
      cases h
      exact signals_schedulerInitialize k.sched hi
  | applyAging =>
      cases h
      exact signals_sameCore (schedulerApplyAging_sameCore k.sched) i
  | selectNextCandidate =>
      cases h
      exact signals_sameCore (schedulerSelectNextCandidate_sameCore k.sched) i
  | yield =>
      cases h
      exact signals_schedulerYield k.sched i
  | registerProcess entryPoint priority rss flags =>
      simp only [Kernel.operate] at h
      simp only [Operation.signalEvent]
      split at h
      · cases h
      · cases h
        rename_i hreg
        rw [hreg]
        exact signals_schedulerRegisterProcess hreg i
  | newtask2 dummyTaskProcedure =>
      simp only [Kernel.operate, Sched.newtask2] at h
      simp only [Operation.signalEvent]
      cases hreg : schedulerRegisterProcess k dummyTaskProcedure schedDefaultPriority 128 0 with
      | error e =>
          rw [hreg] at h
          cases h
      | ok r =>
          rw [hreg] at h
          cases h
          exact signals_schedulerRegisterProcess hreg i
  | sleep ticks =>
      cases h
      refine (signals_schedulerYield _ i).trans ?_
      exact signals_modifyPcb_same (f := setDeadline _) k.sched _ i fun _ => rfl
  | sendSignal targetPid signal =>
      cases h
      exact signals_schedulerSendSignal k.sched targetPid signal i
  | takeSignal index signal =>
      cases h
      exact signals_modifyPcb_apply (f := clearPending [signal]) k.sched index i (.taken signal)
        fun _ => rfl
  | registerSignalHandler signal handler =>
      cases h
      exact signals_schedulerRegisterSignalHandler k.sched signal handler i
  | ipcSend destinationPid message length type =>
      cases h
      exact signals_schedulerIpcSend k.sched destinationPid message length type i
  | ipcReceive maxLength =>
      cases h
      exact signals_schedulerIpcReceive k.sched maxLength i
  | terminateProcess targetPid =>
      cases h
      exact signals_schedulerTerminateProcess k.sched targetPid i
  | terminateCurrent =>
      cases h
      refine (signals_schedulerYield _ i).trans ?_
      exact signals_schedulerTerminateProcess k.sched _ i
  | waitPid targetPid =>
      simp only [Kernel.operate] at h
      cases hwait : schedulerWaitPid k.sched targetPid with
      | none =>
          rw [hwait] at h
          cases h
          rfl
      | some r =>
          rw [hwait] at h
          cases h
          rcases Option.map_eq_some_iff.1 hwait with ⟨_, _, rfl⟩
          exact signals_blockCurrent k.sched targetPid i

theorem fresh_of_registrationEvent {r : Except Halt (Kernel × ErrCode)} {event : SignalEvent}
    (h : registrationEvent k i r = some event) : event = .fresh := by
  unfold registrationEvent at h
  split at h
  · exact (Option.some.inj (Option.ite_none_right_eq_some.1 h).2).symm
  · cases h

/-- Nobody registers a handler for `SIGKILL` or `SIGSTOP`. -/
theorem allowed_signalEvent {op : Operation} {event : SignalEvent}
    (h : op.signalEvent k i = some event) : event.Allowed := by
  cases op with
  | boot =>
      cases h
      trivial
  | registerProcess =>
      rw [fresh_of_registrationEvent h]
      trivial
  | newtask2 =>
      rw [fresh_of_registrationEvent h]
      trivial
  | sendSignal =>
      cases (Option.ite_none_right_eq_some.1 h).2
      trivial
  | takeSignal =>
      cases (Option.ite_none_right_eq_some.1 h).2
      trivial
  | registerSignalHandler signal handler =>
      rcases Option.ite_none_right_eq_some.1 h with ⟨⟨hok, _⟩, hevent⟩
      cases hevent
      unfold schedulerRegisterSignalHandler at hok
      split at hok
      · cases hok
      case isFalse hallowed =>
        exact ⟨fun hkill => hallowed (.inr (.inl hkill)),
          fun hstop => hallowed (.inr (.inr hstop))⟩
  | _ => cases h

end Effects

/-! ## The balance -/

section Balance

variable {events : List SignalEvent} {c : SignalContext}

theorem testBit_setBit (pending : Nat) (signal n : Nat) :
    (pending ||| 1 <<< signal).testBit n = (pending.testBit n || decide (signal = n)) := by
  rw [Nat.testBit_or, Nat.one_shiftLeft, Nat.testBit_two_pow]

theorem testBit_clearBit (pending : Nat) (signal : Nat) {n : Nat} (hn : n < 32) :
    (pending &&& (0xFFFFFFFF ^^^ 1 <<< signal)).testBit n =
      (pending.testBit n && !decide (signal = n)) := by
  have hones : (0xFFFFFFFF : Nat).testBit n = true := by
    have hmask : (0xFFFFFFFF : Nat) = 2 ^ 32 - 1 := rfl
    rw [hmask, Nat.testBit_two_pow_sub_one, decide_eq_true hn]
  rw [Nat.testBit_and, Nat.testBit_xor, hones, Nat.one_shiftLeft, Nat.testBit_two_pow,
    Bool.true_xor]

/-- The signals of an entry by what has happened to them: pending is what has been sent and neither
taken nor cleared since, and a handler is the last one registered. -/
structure SignalAccounts (events : List SignalEvent) (c : SignalContext) : Prop where
  pending : ∀ n < 32, c.pendingSignals.testBit n = true ↔
    Since (· = .sent n) (SignalEvent.Settles n) events
  blocked : c.blockedSignals = 0
  handler : ∀ n handler, handler ≠ 0 →
    (c.handlers n = handler ↔ Since (· = .registered n handler) (SignalEvent.Replaces n) events)
  unhandled : c.handlers signalSigkill = 0 ∧ c.handlers signalSigstop = 0

namespace SignalAccounts

theorem zero : SignalAccounts [] SignalContext.zero where
  pending n _ := by simp [SignalContext.zero, not_since_nil]
  blocked := rfl
  handler n handler hne := by simp [SignalContext.zero, not_since_nil, hne.symm]
  unhandled := ⟨rfl, rfl⟩

/-- With nothing blocked, the signals that are acted upon are those that are pending. -/
theorem active (h : SignalAccounts events c) {n : Nat} (hn : n < 32) :
    c.active.testBit n = true ↔ Since (· = .sent n) (SignalEvent.Settles n) events := by
  have hmask : (0xFFFFFFFF : Nat) = 2 ^ 32 - 1 := rfl
  rw [← h.pending n hn, SignalContext.active, h.blocked, Nat.xor_zero, hmask, Nat.testBit_and,
    Nat.testBit_two_pow_sub_one, decide_eq_true hn, Bool.and_true]

theorem apply (h : SignalAccounts events c) {event : SignalEvent} (hevent : event.Allowed) :
    SignalAccounts (events ++ [event]) (event.apply c) := by
  refine ⟨fun n hn => ?_, ?_, fun n handler hne => ?_, ?_⟩
  · rw [since_concat, ← h.pending n hn]
    cases event with
    | fresh => simp [SignalEvent.apply, SignalEvent.Settles, SignalContext.zero]
    | sent signal =>
        simp only [SignalEvent.apply, testBit_setBit, SignalEvent.Settles]
        simp [or_comm]
    | taken signal =>
        simp only [SignalEvent.apply, testBit_clearBit _ _ hn, SignalEvent.Settles]
        simp
    | registered signal other => simp [SignalEvent.apply, SignalEvent.Settles]
  · cases event with
    | fresh => rfl
    | _ => exact h.blocked
  · rw [since_concat, ← h.handler n handler hne]
    cases event with
    | fresh => simp [SignalEvent.apply, SignalEvent.Replaces, SignalContext.zero, hne.symm]
    | sent signal => simp [SignalEvent.apply, SignalEvent.Replaces]
    | taken signal => simp [SignalEvent.apply, SignalEvent.Replaces]
    | registered signal other =>
        simp only [SignalEvent.apply, SignalEvent.Replaces, SignalEvent.registered.injEq]
        by_cases hsignal : signal = n
        · cases hsignal
          simp
        · rw [Function.update_of_ne (Ne.symm hsignal)]
          simp [hsignal]
  · cases event with
    | fresh => exact ⟨rfl, rfl⟩
    | sent signal => exact h.unhandled
    | taken signal => exact h.unhandled
    | registered signal handler =>
        refine ⟨?_, ?_⟩
        · exact (Function.update_of_ne (Ne.symm hevent.1) _ _).trans h.unhandled.1
        · exact (Function.update_of_ne (Ne.symm hevent.2) _ _).trans h.unhandled.2

end SignalAccounts

end Balance

/-! ## Runs -/

/-- In every run from `scheduler_initialize`, what `scheduler_check_pending_signals` would act upon
for a process is what has been sent to it and not been taken since, and the handler it would call is
the last one that the process itself has registered. -/
theorem signalAccounts_run (k : Kernel) {ops : List Operation} {t : Kernel}
    (hexec : exec Kernel.operate k.boot ops = some t) {i : Nat} (hi : i < sysMaxTasks) :
    SignalAccounts (observed Kernel.operate (fun k op => op.signalEvent k i) k.boot ops)
        (t.sched.signals i) ∧
      ∀ n < 32, (t.sched.signals i).active.testBit n = true ↔
        Since (· = .sent n) (SignalEvent.Settles n)
          (observed Kernel.operate (fun k op => op.signalEvent k i) k.boot ops) := by
  have hstart : SignalAccounts [] (k.boot.sched.signals i) := by
    have hzero : k.boot.sched.signals i = SignalContext.zero :=
      signals_schedulerInitialize k.sched hi
    rw [hzero]
    exact SignalAccounts.zero
  have hkeep : ∀ (events : List SignalEvent) (k : Kernel) (op : Operation) (k' : Kernel),
      SignalAccounts events (k.sched.signals i) → k.operate op = some k' →
      SignalAccounts (events ++ (op.signalEvent k i).toList) (k'.sched.signals i) := by
    intro events k op k' h hstep
    rw [signals_operate hi hstep]
    cases hevent : op.signalEvent k i with
    | none =>
        rw [Option.toList_none, List.append_nil]
        exact h
    | some event => exact h.apply (allowed_signalEvent hevent)
  have haccounts := observed_invariant hkeep hstart hexec
  rw [List.nil_append] at haccounts
  exact ⟨haccounts, fun n hn => haccounts.active hn⟩

/-- The master process sends itself a signal, takes it, and sends it once more. -/
theorem signalAccounts_run_twice : ∃ t,
    exec Kernel.operate (coldKernel 4096).boot
      [.registerSignalHandler 5 0x200000, .sendSignal 100 5, .takeSignal 0 5, .sendSignal 100 5] =
        some t ∧
      SignalAccounts (observed Kernel.operate (fun k op => op.signalEvent k 0) (coldKernel 4096).boot
        [.registerSignalHandler 5 0x200000, .sendSignal 100 5, .takeSignal 0 5,
          .sendSignal 100 5]) (t.sched.signals 0) :=
  ⟨_, rfl, (signalAccounts_run _ rfl (by decide)).1⟩

end Sched
end WhitexKernel
