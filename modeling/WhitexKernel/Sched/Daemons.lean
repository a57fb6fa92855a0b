import WhitexKernel.Sched.Startup

/-!
# Daemons — the list of the lifecycle manager

`system_lifecycle_bootstrap` stores what `scheduler_register_process` returns, an error code, where
it keeps the PIDs of its daemons, and counts a registration that fails like one that succeeds; the
workers of an earlier call stay in the table, and `cmd_kill` does not know the list.

* `Bookkept` — the list is that of the live workers;
* `Registered` — what a number of registrations adds to the live workers;
* `bookkept_run` — the runs in which the codes happen to be the PIDs, and what all runs need in which
  the list is right.
-/

namespace WhitexKernel
namespace Sched

open Lib Machine Oom SchedulerState

/-! ## The manager -/

/-- The value of a code in `errnu.h`. -/
def ErrCode.value : ErrCode → Nat
  | .ok => 0x00
  | .busy => 0x04
  | .overflow => 0x11
  | .invalidOp => 0x13
  | .memFault => 0x20
  | .memOutOfMem => 0x21
  | .ioNotFound => 0x32
  | .ioPermission => 0x34

/-- `system_lifecycle_ctx_t` -/
structure SystemLifecycleCtx where
  activeDaemonCount : Nat
  totalSystemEntropy : Nat
  kernelLoadIndex : Nat
  daemonPids : Nat → Nat

/-- The globals that `tasks.h` works on. -/
structure LifecycleState where
  kernel : Kernel
  lifecycleMgr : SystemLifecycleCtx

/-- The calls of the manager, and the command that takes processes from it. -/
inductive LifecycleCall
  | bootstrap
  | reset (args : List Char)
  | kill (arg : List Char)
  deriving DecidableEq

namespace LifecycleState

variable (image : KernelImage)

/-- What the manager stores of a registration. -/
def storeDaemon (mgr : SystemLifecycleCtx) (i pid : Nat) : SystemLifecycleCtx :=
  { mgr with
    daemonPids := Function.update mgr.daemonPids i pid
    activeDaemonCount := wrap32 (mgr.activeDaemonCount + 1) }

/-- A round of the loop. -/
def registerDaemon (s : LifecycleState) (i : Nat) : Except Halt LifecycleState := do
  let (kernel, code) ←
    schedulerRegisterProcess s.kernel image.kernelDaemonWorker schedDefaultPriority 512 0
  return { kernel := kernel, lifecycleMgr := storeDaemon s.lifecycleMgr i code.value }

/-- The three counters at the beginning. -/
def resetCounters (mgr : SystemLifecycleCtx) : SystemLifecycleCtx :=
  { mgr with
    activeDaemonCount := 0
    kernelLoadIndex := 0
    totalSystemEntropy := 0 }

def systemLifecycleBootstrap (s : LifecycleState) : Except Halt LifecycleState := do
  let (kernel, _) ←
    schedulerRegisterProcess s.kernel image.kernelLifecycleAuditor schedMaxPriority 2048 1
  (List.range 16).foldlM (registerDaemon image)
    { kernel := kernel, lifecycleMgr := resetCounters s.lifecycleMgr }

/-- The command prints, whatever its argument is, and calls the bootstrap. -/
def cmdLifecycleReset (s : LifecycleState) (_args : List Char) : Except Halt LifecycleState :=
  systemLifecycleBootstrap image s

/-- `none` when the call does not return. -/
def step (s : LifecycleState) : LifecycleCall → Option LifecycleState
  | .bootstrap => (systemLifecycleBootstrap image s).toOption
  | .reset args => (cmdLifecycleReset image s args).toOption
  | .kill arg => some { s with
      kernel := { s.kernel with sched := (cmdKill s.kernel.sched arg).1 } }

end LifecycleState

/-! ## The live workers -/

namespace SchedulerState

/-- Entry `i` holds a live process whose entry point is `worker`. -/
def LiveWorker (worker : Nat) (s : SchedulerState) (i : Nat) : Prop :=
  (s.processTable i).executionState ≠ .dead ∧ (s.processTable i).entryPoint = worker

instance (worker : Nat) (s : SchedulerState) (i : Nat) : Decidable (s.LiveWorker worker i) := by
  unfold LiveWorker
  infer_instance

/-- The PIDs of the live workers, in the order of the table. -/
def workerPids (worker : Nat) (s : SchedulerState) : List Nat :=
  ((List.range s.activeProcessCount).filter fun i => decide (s.LiveWorker worker i)).map fun i =>
    (s.processTable i).taskId

variable {worker : Nat} {s t : SchedulerState}

theorem workerPids_congr (hcount : t.activeProcessCount = s.activeProcessCount)
    (hlive : ∀ i < s.activeProcessCount, t.LiveWorker worker i ↔ s.LiveWorker worker i)
    (hpid : ∀ i, (t.processTable i).taskId = (s.processTable i).taskId) :
    t.workerPids worker = s.workerPids worker := by
  unfold workerPids
  rw [hcount, List.filter_congr fun i hi => decide_eq_decide.2 (hlive i (List.mem_range.1 hi))]
  exact List.map_congr_left fun i _ => hpid i

/-- A new process is live, and comes last. -/
theorem workerPids_addProcess (s : SchedulerState)
    (entryPoint pid priority rss flags stackRaw : Nat) :
    (s.addProcess entryPoint pid priority rss flags stackRaw).workerPids worker =
      s.workerPids worker ++ if entryPoint = worker then [pid] else [] := by
  have hold : ∀ i, i < s.activeProcessCount →
      (s.addProcess entryPoint pid priority rss flags stackRaw).processTable i =
        s.processTable i := by
    intro i hi
    unfold addProcess
    simp only [modifyPcb_of_ne _ (Nat.ne_of_lt hi)]
  have hnew : (s.addProcess entryPoint pid priority rss flags stackRaw).processTable
      s.activeProcessCount = newPcb entryPoint pid
        (s.modifyPcb s.activeProcessCount fun pcb => { pcb with taskId := pid }).current.taskId
        priority rss flags stackRaw s.kernelElapsedTicks := by
    unfold addProcess
    simp only [modifyPcb_self]
  have hcount : (s.addProcess entryPoint pid priority rss flags stackRaw).activeProcessCount =
      s.activeProcessCount + 1 := rfl
  have hlive : ∀ i, i < s.activeProcessCount →
      ((s.addProcess entryPoint pid priority rss flags stackRaw).LiveWorker worker i ↔
        s.LiveWorker worker i) := by
    intro i hi
    unfold LiveWorker
    rw [hold i hi]
  -- the new entry is live, so it counts exactly when it runs the worker
  have hlast : (s.addProcess entryPoint pid priority rss flags stackRaw).LiveWorker worker
      s.activeProcessCount ↔ entryPoint = worker := by
    unfold LiveWorker
    rw [hnew]
    exact ⟨fun h => h.2, fun h => ⟨(by decide : TaskState.running ≠ .dead), h⟩⟩
  unfold workerPids
  rw [hcount, List.range_succ, List.filter_append, List.map_append]
  congr 1
  · rw [List.filter_congr fun i hi => decide_eq_decide.2 (hlive i (List.mem_range.1 hi))]
    refine List.map_congr_left fun i hi => ?_
    rw [hold i (List.mem_range.1 (List.mem_filter.1 hi).1)]
  · have hpid : ((s.addProcess entryPoint pid priority rss flags stackRaw).processTable
        s.activeProcessCount).taskId = pid := by
      rw [hnew]
      rfl
    by_cases hworker : entryPoint = worker
    · rw [if_pos hworker]
      simp [hlast.2 hworker, hpid]
    · simp [hlast, hworker]

end SchedulerState

/-! ## Registrations -/

/-- The seed after `n` PIDs have been drawn. -/
def drawn (seed : Nat) : Nat → Nat
  | 0 => seed
  | n + 1 => wrap32 (drawn seed n + 1)

theorem drawn_succ (seed n : Nat) : drawn seed (n + 1) = wrap32 (seed + (n + 1)) := by
  induction n with
  | zero => rfl
  | succ n ih =>
      change wrap32 (drawn seed (n + 1) + 1) = _
      rw [ih]
      unfold wrap32
      omega

/-- Few draws draw different PIDs. -/
theorem drawn_injective {seed i j : Nat} (hi : i < 32) (hj : j < 32)
    (h : drawn seed i = drawn seed j) : i = j := by
  cases i with
  | zero =>
      cases j with
      | zero => rfl
      | succ j =>
          rw [drawn_succ] at h
          change seed = _ at h
          unfold wrap32 at h
          omega
  | succ i =>
      rw [drawn_succ] at h
      cases j with
      | zero =>
          change _ = seed at h
          unfold wrap32 at h
          omega
      | succ j =>
          rw [drawn_succ] at h
          unfold wrap32 at h
          omega

/-- The codes that a registration returns. -/
def registrationCodes : List Nat :=
  [ErrCode.ok.value, ErrCode.memFault.value, ErrCode.memOutOfMem.value]

/-- `k'` is `k` after at most `n` PIDs have been drawn, some of which went to new workers. -/
structure Registered (worker : Nat) (k : Kernel) (n : Nat) (k' : Kernel) : Prop where
  fresh : ∃ (m : Nat) (fresh : List Nat), m ≤ n ∧ fresh.Nodup ∧
    k'.sched.globalProcessIdentifierSeed = drawn k.sched.globalProcessIdentifierSeed m ∧
    (∀ pid ∈ fresh, ∃ i < m, pid = drawn k.sched.globalProcessIdentifierSeed i) ∧
    k'.sched.workerPids worker = k.sched.workerPids worker ++ fresh

theorem Registered.refl (worker : Nat) (k : Kernel) : Registered worker k 0 k :=
  ⟨0, [], Nat.le_refl 0, List.nodup_nil, rfl, by simp, by simp⟩

theorem workerPids_drawPid (worker : Nat) (k : Kernel) :
    k.drawPid.1.sched.workerPids worker = k.sched.workerPids worker := rfl

/-- One registration more. -/
theorem Registered.succ {worker n : Nat} {k k' l : Kernel} {code : ErrCode}
    {entryPoint priority rss flags : Nat} (hk : Registered worker k n k') (hn : n < 31)
    (h : schedulerRegisterProcess k' entryPoint priority rss flags = .ok (l, code)) :
    Registered worker k (n + 1) l ∧ code.value ∈ registrationCodes := by
  rcases hk.fresh with ⟨m, fresh, hm, hnodup, hseed, hdrawn, hpids⟩
  rcases schedulerRegisterProcess_cases h with ⟨rfl, rfl⟩ | ⟨rfl, hl⟩ | ⟨rfl, _, stackRaw, _, hl⟩
  -- the table is full, and no PID is drawn
  · exact ⟨⟨m, fresh, by omega, hnodup, hseed, hdrawn, hpids⟩, by decide⟩
  -- a PID is drawn for nothing
  · refine ⟨⟨m + 1, fresh, by omega, hnodup, ?_, fun pid hpid => ?_, ?_⟩, by decide⟩
    · rw [hl]
      exact congrArg (fun seed => wrap32 (seed + 1)) hseed
    · rcases hdrawn pid hpid with ⟨i, hi, heq⟩
      exact ⟨i, by omega, heq⟩
    · rw [hl, workerPids_drawPid, hpids]
  · have hpids' : l.sched.workerPids worker = k.sched.workerPids worker ++
        (fresh ++ if entryPoint = worker then
          [drawn k.sched.globalProcessIdentifierSeed m] else []) := by
      rw [hl, workerPids_addProcess, workerPids_drawPid, hpids, hseed, List.append_assoc]
    refine ⟨⟨m + 1, _, by omega, ?_, ?_, ?_, hpids'⟩, by decide⟩
    · split
      · refine List.nodup_append.2 ⟨hnodup, List.nodup_singleton _, ?_⟩
        rintro pid hpid _ hlast rfl
        rcases hdrawn pid hpid with ⟨i, hi, heq⟩
        rw [List.mem_singleton, heq] at hlast
        have hsame := drawn_injective (by omega) (by omega) hlast
        omega
      · rw [List.append_nil]
        exact hnodup
    · rw [hl]
      exact congrArg (fun seed => wrap32 (seed + 1)) hseed
    · intro pid hpid
      rcases List.mem_append.1 hpid with hpid | hpid
      · rcases hdrawn pid hpid with ⟨i, hi, heq⟩
        exact ⟨i, by omega, heq⟩
      · split at hpid
        · exact ⟨m, Nat.lt_succ_self m, List.mem_singleton.1 hpid⟩
        · cases hpid

theorem registered_memOutOfMem {k l : Kernel} {code : ErrCode}
    {entryPoint priority rss flags : Nat} (hfull : sysMaxTasks ≤ k.sched.activeProcessCount)
    (h : schedulerRegisterProcess k entryPoint priority rss flags = .ok (l, code)) :
    l = k ∧ code = .memOutOfMem := by
  unfold schedulerRegisterProcess at h
  rw [if_pos hfull] at h
  cases h
  exact ⟨rfl, rfl⟩

/-! ## A bootstrap -/

namespace LifecycleState

variable {image : KernelImage} {s t : LifecycleState}

theorem registerDaemons_kernel (s : LifecycleState) (n : Nat) :
    ((List.range n).foldlM (registerDaemon image) s).map LifecycleState.kernel =
      (List.replicate n (image.kernelDaemonWorker, schedDefaultPriority, 512, 0)).foldlM
        (fun k process =>
          (schedulerRegisterProcess k process.1 process.2.1 process.2.2.1 process.2.2.2).map
            Prod.fst) s.kernel := by
  induction n with
  | zero => rfl
  | succ n ih =>
      rw [List.range_succ, List.foldlM_append, List.replicate_succ', List.foldlM_append, ← ih]
      cases hfold : (List.range n).foldlM (registerDaemon image) s with
      | error e => rfl
      | ok u =>
          simp only [Except.map, bind, Except.bind, List.foldlM_cons, List.foldlM_nil,
            registerDaemon]
          cases schedulerRegisterProcess u.kernel image.kernelDaemonWorker schedDefaultPriority 512 0
          · rfl
          · rfl

/-- The kernel part of the call is the one of the shell's machine. -/
theorem systemLifecycleBootstrap_kernel (s : LifecycleState) :
    (systemLifecycleBootstrap image s).map LifecycleState.kernel =
      CommandState.systemLifecycleBootstrap image s.kernel := by
  unfold systemLifecycleBootstrap CommandState.systemLifecycleBootstrap
    CommandState.lifecycleProcesses
  simp only [List.foldlM_cons, bind, Except.bind, Except.map]
  cases schedulerRegisterProcess s.kernel image.kernelLifecycleAuditor schedMaxPriority 2048 1 with
  | error e => rfl
  | ok r =>
      exact registerDaemons_kernel
        { kernel := r.1, lifecycleMgr := resetCounters s.lifecycleMgr } 16

/-- What every registration keeps holds after the loop, and what it returns is in the list. -/
theorem registerDaemons_invariant {J : Nat → Kernel → Prop} {C : Nat → Prop} {n : Nat}
    (hstep : ∀ i k l code, i < n → J i k →
      schedulerRegisterProcess k image.kernelDaemonWorker schedDefaultPriority 512 0 =
        .ok (l, code) → J (i + 1) l ∧ C code.value)
    (hn : n ≤ 16) (hcount : s.lifecycleMgr.activeDaemonCount = 0) (hs : J 0 s.kernel)
    (h : (List.range n).foldlM (registerDaemon image) s = .ok t) :
    J n t.kernel ∧ t.lifecycleMgr.activeDaemonCount = n ∧
      ∀ i < n, C (t.lifecycleMgr.daemonPids i) := by
  induction n generalizing t with
  | zero =>
      cases h
      exact ⟨hs, hcount, fun i hi => absurd hi (Nat.not_lt_zero i)⟩
  | succ n ih =>
      rw [List.range_succ, List.foldlM_append] at h
      cases hfold : (List.range n).foldlM (registerDaemon image) s with
      | error e =>
          rw [hfold] at h
          cases h
      | ok u =>
          rw [hfold] at h
          have hu := ih (fun i k l code hi => hstep i k l code (Nat.lt_succ_of_lt hi)) (by omega) hfold
          cases hreg : schedulerRegisterProcess u.kernel image.kernelDaemonWorker
              schedDefaultPriority 512 0 with
          | error e =>
              simp [registerDaemon, hreg, bind, Except.bind] at h
          | ok r =>
              rcases r with ⟨l, code⟩
              have hl := hstep n u.kernel l code (Nat.lt_succ_self n) hu.1 hreg
              simp only [List.foldlM_cons, List.foldlM_nil, registerDaemon, hreg, bind, Except.bind,
                pure, Except.pure, Except.ok.injEq] at h
              subst h
              refine ⟨hl.1, ?_, fun i hi => ?_⟩
              · unfold storeDaemon
                -- the counter is below sixteen, so the slot is the one with its number
                rw [hu.2.1]
                exact wrap32_of_lt (by omega)
              · dsimp only [storeDaemon]
                rcases Nat.lt_succ_iff_lt_or_eq.1 hi with hi | rfl
                · rw [Function.update_of_ne (Nat.ne_of_lt hi)]
                  exact hu.2.2 i hi
                · rw [Function.update_self]
                  exact hl.2

/-- A bootstrap with room in the table adds some workers, and lists sixteen codes. -/
theorem systemLifecycleBootstrap_registered (h : systemLifecycleBootstrap image s = .ok t) :
    Registered image.kernelDaemonWorker s.kernel 17 t.kernel ∧
      t.lifecycleMgr.activeDaemonCount = 16 ∧
      ∀ i < 16, t.lifecycleMgr.daemonPids i ∈ registrationCodes := by
  unfold systemLifecycleBootstrap at h
  cases hreg : schedulerRegisterProcess s.kernel image.kernelLifecycleAuditor schedMaxPriority
      2048 1 with
  | error e =>
      rw [hreg] at h
      cases h
  | ok r =>
      rcases r with ⟨k, code⟩
      rw [hreg] at h
      have hauditor := ((Registered.refl image.kernelDaemonWorker s.kernel).succ (by omega) hreg).1
      refine registerDaemons_invariant (n := 16)
        (J := fun i k => Registered image.kernelDaemonWorker s.kernel (i + 1) k) ?_ (Nat.le_refl _)
        rfl hauditor h
      exact fun i k l code hi hk hregister => hk.succ (by omega) hregister

/-- With a full table nothing is registered, and the list holds one code sixteen times. -/
theorem systemLifecycleBootstrap_full (hfull : sysMaxTasks ≤ s.kernel.sched.activeProcessCount)
    (h : systemLifecycleBootstrap image s = .ok t) :
    t.kernel = s.kernel ∧ t.lifecycleMgr.activeDaemonCount = 16 ∧
      ∀ i < 16, t.lifecycleMgr.daemonPids i = ErrCode.memOutOfMem.value := by
  unfold systemLifecycleBootstrap at h
  cases hreg : schedulerRegisterProcess s.kernel image.kernelLifecycleAuditor schedMaxPriority
      2048 1 with
  | error e =>
      rw [hreg] at h
      cases h
  | ok r =>
      rcases r with ⟨k, code⟩
      rw [hreg] at h
      have hauditor := registered_memOutOfMem hfull hreg
      refine registerDaemons_invariant (n := 16) (J := fun _ k => k = s.kernel)
        (C := fun value => value = ErrCode.memOutOfMem.value) ?_ (Nat.le_refl _) rfl hauditor.1 h
      rintro i k l code _ rfl hregister
      have hlast := registered_memOutOfMem hfull hregister
      exact ⟨hlast.1, congrArg ErrCode.value hlast.2⟩

end LifecycleState

/-! ## A kill -/

/-- `cmd_kill` does not terminate a live worker. -/
def Spares (worker : Nat) (s : SchedulerState) (arg : List Char) : Prop :=
  arg = [] ∨
    match s.findIndex fun pcb => pcb.taskId == parseInteger arg with
    | none => True
    | some i => parseInteger arg = 100 ∨
        (s.processTable i).allocationFlags.testBit oomFlagCritical ∨ ¬ s.LiveWorker worker i

instance (worker : Nat) (s : SchedulerState) (arg : List Char) :
    Decidable (Spares worker s arg) := by
  unfold Spares
  have : Decidable (match s.findIndex fun pcb => pcb.taskId == parseInteger arg with
      | none => True
      | some i => parseInteger arg = 100 ∨
          (s.processTable i).allocationFlags.testBit oomFlagCritical ∨
          ¬ s.LiveWorker worker i) := by
    split <;> infer_instance
  infer_instance

/-- A termination is the end of one process, live or not. -/
theorem liveWorker_terminated (worker : Nat) (s : SchedulerState) (i j pid : Nat) :
    (releaseWaiters (s.modifyPcb i (setState .dead)) pid).LiveWorker worker j ↔
      j ≠ i ∧ s.LiveWorker worker j := by
  -- releasing a waiter wakes it, which is no change from live to dead
  have hreleased : ∀ pcb : ProcessControlBlock,
      (releasePcb pid pcb).entryPoint = pcb.entryPoint ∧
        ((releasePcb pid pcb).executionState = .dead ↔ pcb.executionState = .dead) := by
    intro pcb
    unfold releasePcb
    split
    case isTrue hblocked => simp [hblocked.1]
    case isFalse => exact ⟨rfl, Iff.rfl⟩
  have htable : ∀ t : SchedulerState, (releaseWaiters t pid).LiveWorker worker j ↔
      t.LiveWorker worker j := by
    intro t
    unfold LiveWorker releaseWaiters
    dsimp only
    split
    · rw [(hreleased _).1, Ne, (hreleased _).2]
    · rfl
  rw [htable]
  unfold LiveWorker
  rw [modifyPcb_processTable]
  split
  case isTrue hj => simp [hj, setState]
  case isFalse hj => simp [hj]

theorem taskId_terminated (s : SchedulerState) (i j pid : Nat) :
    ((releaseWaiters (s.modifyPcb i (setState .dead)) pid).processTable j).taskId =
      (s.processTable j).taskId := by
  have hsame : ((s.modifyPcb i (setState .dead)).processTable j).taskId =
      (s.processTable j).taskId := by
    rw [modifyPcb_processTable]
    split
    case isTrue hj => rw [hj]; rfl
    case isFalse => rfl
  rw [← hsame]
  unfold releaseWaiters releasePcb
  dsimp only
  split
  · split <;> rfl
  · rfl

/-- The live workers are the same after a kill that spares them, and fewer after any other. -/
theorem workerPids_cmdKill (worker : Nat) (s : SchedulerState) (arg : List Char) :
    (Spares worker s arg ∧ (cmdKill s arg).1.workerPids worker = s.workerPids worker) ∨
      (¬ Spares worker s arg ∧
        ((cmdKill s arg).1.workerPids worker).length < (s.workerPids worker).length) := by
  by_cases harg : arg = []
  · refine .inl ⟨.inl harg, ?_⟩
    unfold cmdKill
    rw [if_pos harg]
  rw [cmdKill_sched s harg]
  unfold schedulerTerminateProcess Spares
  cases hfind : s.findIndex fun pcb => pcb.taskId == parseInteger arg with
  | none => exact .inl ⟨.inr trivial, rfl⟩
  | some i =>
      have hi : i < s.activeProcessCount := (findIndex_eq_some hfind).1
      dsimp only
      split
      case isTrue hprotected =>
        exact .inl ⟨.inr (hprotected.imp_right .inl), rfl⟩
      case isFalse hprotected =>
        by_cases hworker : s.LiveWorker worker i
        · refine .inr ⟨?_, ?_⟩
          · rintro (hempty | hpid | hcritical | hother)
            · exact harg hempty
            · exact hprotected (.inl hpid)
            · exact hprotected (.inr hcritical)
            · exact hother hworker
          · unfold workerPids
            rw [List.length_map, List.length_map]
            -- the live workers after the kill are those before it without entry `i`
            have hfewer : (List.range s.activeProcessCount).filter (fun j => decide
                ((releaseWaiters (s.modifyPcb i (setState .dead)) (parseInteger arg)).LiveWorker
                  worker j)) =
                ((List.range s.activeProcessCount).filter fun j =>
                  decide (s.LiveWorker worker j)).filter fun j => decide (j ≠ i) := by
              rw [List.filter_filter]
              refine List.filter_congr fun j _ => ?_
              rw [← Bool.decide_and]
              exact decide_eq_decide.2 (liveWorker_terminated worker s i j _)
            refine (congrArg List.length hfewer).trans_lt ?_
            refine List.length_filter_lt_length_iff_exists.2 ⟨i, ?_, by simp⟩
            exact List.mem_filter.2 ⟨List.mem_range.2 hi, decide_eq_true hworker⟩
        · refine .inl ⟨.inr (.inr (.inr hworker)), ?_⟩
          refine workerPids_congr rfl (fun j _ => ?_) fun j => taskId_terminated s i j _
          rw [liveWorker_terminated]
          refine ⟨fun h => h.2, fun h => ⟨fun hji => ?_, h⟩⟩
          exact hworker (hji ▸ h)

/-! ## Runs -/

namespace LifecycleState

/-- The PIDs in use in `daemon_pids`. -/
def listedPids (s : LifecycleState) : List Nat :=
  (List.range s.lifecycleMgr.activeDaemonCount).map s.lifecycleMgr.daemonPids

variable (image : KernelImage)

/-- The list is that of the live workers. -/
def Bookkept (s : LifecycleState) : Prop :=
  s.lifecycleMgr.activeDaemonCount =
      (s.kernel.sched.workerPids image.kernelDaemonWorker).length ∧
    s.listedPids.Perm (s.kernel.sched.workerPids image.kernelDaemonWorker)

instance : DecidablePred (Bookkept image) := fun s => by
  unfold Bookkept
  infer_instance

/-- The code of a full table is the PID of each of sixteen workers; and no worker is killed. -/
def Coincides (s : LifecycleState) : LifecycleCall → Prop
  | .kill arg => Spares image.kernelDaemonWorker s.kernel.sched arg
  | _ => sysMaxTasks ≤ s.kernel.sched.activeProcessCount ∧
      (s.kernel.sched.workerPids image.kernelDaemonWorker).Perm
        (List.replicate 16 ErrCode.memOutOfMem.value)

instance (s : LifecycleState) (c : LifecycleCall) : Decidable (Coincides image s c) := by
  unfold Coincides
  split <;> infer_instance

/-- There are thirteen live workers at least, and no PIDs among them but codes; and no worker is
killed. -/
def MayCoincide (s : LifecycleState) : LifecycleCall → Prop
  | .kill arg => Spares image.kernelDaemonWorker s.kernel.sched arg
  | _ => 13 ≤ (s.kernel.sched.workerPids image.kernelDaemonWorker).length ∧
      ∀ pid ∈ s.kernel.sched.workerPids image.kernelDaemonWorker, pid ∈ registrationCodes

variable {image} {s t : LifecycleState}

theorem bookkept_bootstrap (hs : Coincides image s .bootstrap)
    (h : systemLifecycleBootstrap image s = .ok t) : Bookkept image t := by
  rcases systemLifecycleBootstrap_full hs.1 h with ⟨hkernel, hcount, hcodes⟩
  have hlisted : t.listedPids = List.replicate 16 ErrCode.memOutOfMem.value := by
    unfold listedPids
    rw [hcount]
    refine List.eq_replicate_iff.2 ⟨by simp, fun pid hpid => ?_⟩
    rcases List.mem_map.1 hpid with ⟨i, hi, rfl⟩
    exact hcodes i (List.mem_range.1 hi)
  unfold Bookkept
  rw [hkernel, hlisted, hcount, hs.2.length_eq]
  exact ⟨rfl, hs.2.symm⟩

/-- Of the sixteen PIDs that are codes, a bootstrap has drawn three at most. -/
theorem mayCoincide_of_bookkept (h : systemLifecycleBootstrap image s = .ok t)
    (ht : Bookkept image t) : MayCoincide image s .bootstrap := by
  rcases systemLifecycleBootstrap_registered h with ⟨hregistered, hcount, hcodes⟩
  rcases hregistered.fresh with ⟨m, fresh, _, hnodup, _, _, hpids⟩
  have hlisted : ∀ pid ∈ t.kernel.sched.workerPids image.kernelDaemonWorker,
      pid ∈ registrationCodes := by
    intro pid hpid
    rcases List.mem_map.1 (ht.2.symm.subset hpid) with ⟨i, hi, rfl⟩
    rw [hcount] at hi
    exact hcodes i (List.mem_range.1 hi)
  rw [hpids] at hlisted
  have hfew : fresh.length ≤ registrationCodes.length :=
    (hnodup.subperm fun pid hpid => hlisted pid (List.mem_append_right _ hpid)).length_le
  have hsixteen : 16 = (s.kernel.sched.workerPids image.kernelDaemonWorker).length + fresh.length := by
    rw [← List.length_append, ← hpids, ← ht.1, hcount]
  refine ⟨?_, fun pid hpid => hlisted pid (List.mem_append_left _ hpid)⟩
  change fresh.length ≤ 3 at hfew
  omega

theorem systemLifecycleBootstrap_of_step (h : step image s .bootstrap = some t) :
    systemLifecycleBootstrap image s = .ok t := by
  unfold step at h
  cases hboot : systemLifecycleBootstrap image s with
  | error e =>
      simp only [hboot] at h
      cases h
  | ok u =>
      simp only [hboot] at h
      cases h
      rfl

theorem bookkept_step {c : LifecycleCall} (hs : Bookkept image s) (hc : Coincides image s c)
    (h : step image s c = some t) : Bookkept image t := by
  cases c with
  | bootstrap => exact bookkept_bootstrap hc (systemLifecycleBootstrap_of_step h)
  | reset args => exact bookkept_bootstrap hc (systemLifecycleBootstrap_of_step h)
  | kill arg =>
      cases h
      rcases workerPids_cmdKill image.kernelDaemonWorker s.kernel.sched arg with
        ⟨_, hsame⟩ | ⟨hharmed, _⟩
      · unfold Bookkept
        rw [hsame]
        exact hs
      · exact absurd hc hharmed

theorem mayCoincide_step {c : LifecycleCall} (hs : Bookkept image s)
    (h : step image s c = some t) (ht : Bookkept image t) : MayCoincide image s c := by
  cases c with
  | bootstrap => exact mayCoincide_of_bookkept (systemLifecycleBootstrap_of_step h) ht
  | reset args => exact mayCoincide_of_bookkept (systemLifecycleBootstrap_of_step h) ht
  | kill arg =>
      cases h
      rcases workerPids_cmdKill image.kernelDaemonWorker s.kernel.sched arg with
        ⟨hspared, _⟩ | ⟨_, hfewer⟩
      · exact hspared
      -- the count is still that of the workers before
      · have hbefore := hs.1
        have hafter := ht.1
        dsimp only at hafter
        omega

/-- From any state, and after a bootstrap that returns: the list is right throughout a run all of
whose calls meet a coincidence of codes and PIDs and spare the live workers; and only if they spare
the live workers, and no bootstrap meets less than thirteen workers or another PID among them. -/
theorem bookkept_run (image : KernelImage) (s t : LifecycleState) (calls : List LifecycleCall)
    (h : step image s .bootstrap = some t) :
    (AllSteps (step image) (Coincides image) s (.bootstrap :: calls) →
        AllStates (step image) (Bookkept image) t calls) ∧
      (AllStates (step image) (Bookkept image) t calls →
        AllSteps (step image) (MayCoincide image) s (.bootstrap :: calls)) := by
  have hbootstrap := systemLifecycleBootstrap_of_step h
  constructor
  · intro hcoincides
    have hfirst := hcoincides t h
    exact allStates_of_allSteps (fun s c t hs hc hstep => bookkept_step hs hc hstep)
      (bookkept_bootstrap hfirst.1 hbootstrap) hfirst.2
  · intro hbookkept u hu
    rw [h, Option.some.injEq] at hu
    subst hu
    exact ⟨mayCoincide_of_bookkept hbootstrap hbookkept.head,
      AllStates.allSteps_of_step (Q := Bookkept image) (P := MayCoincide image)
        (fun s c t hs hstep ht => mayCoincide_step hs hstep ht) hbookkept⟩

/-- Entry 0 is the master, and the table is full; the first sixteen of its processes are workers. -/
def crowdedState (image : KernelImage) (pid : Nat) : LifecycleState :=
  { kernel := { coldKernel 0 with
      sched := { (coldKernel 0).sched with
        processTable := fun i =>
          if i = 0 then masterPcb .zero
          else if i ≤ 16 then
            newPcb image.kernelDaemonWorker pid 100 schedDefaultPriority 512 0 0x200000 0
          else newPcb 0x100000 (200 + i) 100 schedDefaultPriority 128 0 0x300000 0
        activeProcessCount := sysMaxTasks } }
    lifecycleMgr :=
      { activeDaemonCount := 0
        totalSystemEntropy := 0
        kernelLoadIndex := 0
        daemonPids := fun _ => 0 } }

def someImage : KernelImage :=
  { memoryHeap := 0x400000
    kernelLifecycleAuditor := 0x110000
    kernelDaemonWorker := 0x120000 }

/-- Sixteen workers with PID 33 in a full table: a kill of another process and a reset do no harm. -/
theorem bookkept_run_crowded :
    ∃ t, step someImage (crowdedState someImage 33) .bootstrap = some t ∧
      (AllSteps (step someImage) (Coincides someImage) (crowdedState someImage 33)
          [.bootstrap, .kill ['2', '4', '0'], .reset []] →
        AllStates (step someImage) (Bookkept someImage) t [.kill ['2', '4', '0'], .reset []]) ∧
      (AllStates (step someImage) (Bookkept someImage) t [.kill ['2', '4', '0'], .reset []] →
        AllSteps (step someImage) (MayCoincide someImage) (crowdedState someImage 33)
          [.bootstrap, .kill ['2', '4', '0'], .reset []]) ∧
      AllSteps (step someImage) (Coincides someImage) (crowdedState someImage 33)
        [.bootstrap, .kill ['2', '4', '0'], .reset []] := by
  have hreturns : (step someImage (crowdedState someImage 33) .bootstrap).isSome = true := by
    decide +kernel
  rcases Option.isSome_iff_exists.1 hreturns with ⟨t, ht⟩
  have hrun := bookkept_run someImage _ _ [.kill ['2', '4', '0'], .reset []] ht
  exact ⟨t, ht, hrun.1, hrun.2, by decide +kernel⟩

/-- After the first bootstrap of a machine there are sixteen workers with sixteen PIDs, and sixteen
zeros in the list. -/
theorem bookkept_run_false :
    ¬ ∀ (image : KernelImage) (s t : LifecycleState) (calls : List LifecycleCall),
      step image s .bootstrap = some t → AllStates (step image) (Bookkept image) t calls := by
  intro h
  have hrun : ((step someImage
      { kernel := (System.boot (coldKernel 4096)).kernel
        lifecycleMgr := (crowdedState someImage 0).lifecycleMgr } .bootstrap).any fun t =>
          decide (¬ Bookkept someImage t)) = true := by
    decide +kernel
  rcases (Option.any_eq_true _ _).1 hrun with ⟨t, ht, hwrong⟩
  exact of_decide_eq_true hwrong (h _ _ t [] ht)

end LifecycleState

end Sched
end WhitexKernel
