import Mathlib.Logic.Function.Iterate
import WhitexKernel.Heap.Runs
import WhitexKernel.Lib.Transition
import WhitexKernel.Oom.Watermarks
import WhitexKernel.Sched.Commands
import WhitexKernel.Sched.Events

/-!
# Startup — the commands on the zones as startup leaves them

`sys_execute_startup_routines` initialises the scheduler and registers a task with the OOM
controller, but nothing calls `sys_oom_init`: the zones keep the zeros of static storage.  The only
command that asks for pages is `lcreset`; its first request finds none, reclaims none, and the
killer divides the pages of the registered task by the pages of all zones.

The commands that are not named here touch neither the scheduler nor the OOM controller nor the
heap.
-/

namespace WhitexKernel
namespace Sched

open Lib Machine Oom

/-! ## The machine -/

/-- Where the linker has put `memory_heap`, `kernel_lifecycle_auditor` and
`kernel_daemon_worker`. -/
structure KernelImage where
  memoryHeap : Nat
  kernelLifecycleAuditor : Nat
  kernelDaemonWorker : Nat

structure CommandState where
  kernel : Kernel
  heap : Heap.Memory

/-- How a command can fail to return: it stops the machine, or it loops for ever. -/
inductive Stop
  | halt (h : Halt)
  | loop
  deriving DecidableEq, Repr

/-- A command of the shell, with the argument string where it takes one; or `monitorCheck`, which
the loop around the shell calls between two commands. -/
inductive ShellCommand
  | ntask
  | lcreset
  | kill (arg : List Char)
  | msgsend (args : List Char)
  | msgrecv
  /-- `yields` counts the calls of `scheduler_yield` until the key that ends it. -/
  | top (yields : Nat)
  | other
  | monitorCheck
  deriving DecidableEq

/-- The fields that `new_task` sets in the record it has allocated. -/
def fillNewTask (pid : Nat) (task : SysTask) : SysTask :=
  { task with
    pid := pid
    ppid := 1
    state := .running
    rssPages := 100
    flags := 0
    oomScoreAdj := 0
    niceValue := 0 }

namespace CommandState

variable (image : KernelImage)

/-- `new_task` once it has the record at `node`. -/
def newTaskAt (m : CommandState) (heap : Heap.Memory) (node : Nat) : Except Stop CommandState :=
  let oom := { m.kernel.oom with
    tasks := Function.update m.kernel.oom.tasks node
      (fillNewTask m.kernel.autoPid (m.kernel.oom.tasks node)) }
  match sysRegisterTask oom node with
  | .error h => .error (.halt h)
  | .ok oom =>
      .ok
        { kernel := { m.kernel with oom := oom, autoPid := wrap32 (m.kernel.autoPid + 1) }
          heap := heap }

def newTask (m : CommandState) : Except Stop CommandState :=
  match Heap.whitexMalloc m.heap sizeofSysTask with
  | none => .error .loop
  | some (heap, none) => .ok { m with heap := heap }
  | some (heap, some ptr) => m.newTaskAt heap (image.memoryHeap + ptr)

/-- The registrations of `system_lifecycle_bootstrap`: entry point, priority, `initial_rss` and
flags. -/
def lifecycleProcesses : List (Nat × Nat × Nat × Nat) :=
  (image.kernelLifecycleAuditor, schedMaxPriority, 2048, 1) ::
    List.replicate 16 (image.kernelDaemonWorker, schedDefaultPriority, 512, 0)

/-- The return codes are stored in `lifecycle_mgr` as if they were PIDs, and looked at by nobody. -/
def systemLifecycleBootstrap (k : Kernel) : Except Halt Kernel :=
  (lifecycleProcesses image).foldlM
    (fun k process =>
      (schedulerRegisterProcess k process.1 process.2.1 process.2.2.1 process.2.2.2).map Prod.fst) k

/-- `scheduler_ipc_receive` of `cmd_msgrecv`: with an empty channel, the only process there is waits
for itself. -/
def cmdMsgrecv (s : SchedulerState) : Option SchedulerState :=
  match schedulerIpcReceive s 127 with
  | (_, none) => none
  | (s, some _) => some s

def withSched (m : CommandState) (sched : SchedulerState) : CommandState :=
  { m with kernel := { m.kernel with sched := sched } }

/-- The machine after a command that returns. -/
def run (m : CommandState) : ShellCommand → Except Stop CommandState
  | .ntask => m.newTask image
  | .lcreset =>
      match systemLifecycleBootstrap image m.kernel with
      | .error h => .error (.halt h)
      | .ok k => .ok { m with kernel := k }
  | .kill arg => .ok (m.withSched (cmdKill m.kernel.sched arg).1)
  | .msgsend args => .ok (m.withSched (cmdMsgsend m.kernel.sched args).1)
  | .msgrecv =>
      match cmdMsgrecv m.kernel.sched with
      | none => .error .loop
      | some sched => .ok (m.withSched sched)
  | .top yields => .ok (m.withSched (schedulerYield^[yields] m.kernel.sched))
  | .other => .ok m
  | .monitorCheck =>
      match sysOomMonitorCheck m.kernel.oom with
      | .error h => .error (.halt h)
      | .ok oom => .ok { m with kernel := { m.kernel with oom := oom } }

def step (m : CommandState) (c : ShellCommand) : Option CommandState := (m.run image c).toOption

/-- What `sys_execute_startup_routines` has done to these globals before it calls `new_task`: `ram`
has zeroed the heap, and `scheduler_initialize` has set up the scheduler. -/
def beforeNewTask (sched : SchedulerState) (outside : Heap.Memory) : CommandState :=
  { kernel :=
      { sched := schedulerInitialize sched
        oom := SysOomCtrl.zero
        autoPid := 100 }
    heap := (Heap.HeapState.zeroed outside).memory }

/-- The machine when `sys_execute_startup_routines` returns. -/
def startup (sched : SchedulerState) (outside : Heap.Memory) : Except Stop CommandState :=
  (beforeNewTask sched outside).newTask image

/-- The command evaluates the division of `sys_calculate_badness` with no zero divisor only. -/
def DividesByNonzero (m : CommandState) (c : ShellCommand) : Prop :=
  m.run image c ≠ .error (.halt .divideError)

end CommandState

/-! ## The zones of static storage -/

/-- The zones still hold the zeros of static storage. -/
def Unset (c : SysOomCtrl) : Prop := c.zones = SysOomCtrl.zero.zones

/-- The badness of the task takes a division. -/
structure Scored (task : SysTask) : Prop where
  killable : task.flags.testBit oomFlagUnkillable = false
  notDead : task.state ≠ .dead
  notZombie : task.state ≠ .zombie
  adjusted : task.oomScoreAdj ≠ oomScoreAdjMin

theorem fillNewTask_scored (pid : Nat) (task : SysTask) : Scored (fillNewTask pid task) :=
  { killable := by simp [fillNewTask]
    notDead := by simp [fillNewTask]
    notZombie := by simp [fillNewTask]
    adjusted := by simp [fillNewTask, oomScoreAdjMin] }

theorem Scored.divides {task : SysTask} (h : Scored task) :
    sysCalculateBadness task 0 = .error .divideError := by
  simp [sysCalculateBadness, h.killable, h.notDead, h.notZombie, h.adjusted]

namespace Unset

variable {c : SysOomCtrl}

theorem totalSysPages (h : Unset c) : c.totalSysPages = 0 := by
  unfold SysOomCtrl.totalSysPages
  rw [h]
  rfl

theorem shrinkSlabCaches (h : Unset c) : Unset (sysShrinkSlabCaches c).1 := by
  have hzones : (sysShrinkSlabCaches c).1.zones =
      fun i => (c.zones i).addFree (slabReclaim (c.zones i)) := rfl
  unfold Unset
  rw [hzones, h]
  rfl

theorem shrinkPageCache (h : Unset c) : Unset (sysShrinkPageCache c).1 := by
  have hfull : ¬ (c.zones zoneNormal).freePages < (c.zones zoneNormal).wmHigh := by
    rw [h]
    exact Nat.lt_irrefl 0
  unfold sysShrinkPageCache
  simp only [hfull, if_false]
  exact h

theorem reclaimed (h : Unset c) : Unset (reclaimCaches c) := h.shrinkSlabCaches.shrinkPageCache

/-- No request for pages is admitted. -/
theorem not_admits (h : Unset c) (zone : ZoneIdx) {count : Nat} (hpos : 0 < count)
    (hword : count < 2 ^ 32) : (c.zones zone).admits count = false := by
  have hsum : wrap32 (count + 0) = count := Nat.mod_eq_of_lt hword
  rw [h]
  simp only [SysMemZone.admits, SysOomCtrl.zero, hsum, decide_eq_false_iff_not, Nat.not_le]
  exact hpos

/-- The killer divides by zero at the first task that scores. -/
theorem selectBadProcess (h : Unset c) (hcount : 0 < c.activeTaskCount) (htask : c.taskArray 0 ≠ 0)
    (hscored : Scored (c.tasks (c.taskArray 0))) :
    sysSelectBadProcess c = .error .divideError := by
  obtain ⟨n, hn⟩ := Nat.exists_eq_succ_of_ne_zero (Nat.ne_of_gt hcount)
  unfold sysSelectBadProcess
  rw [hn, List.range_succ_eq_map, selectBadLoop]
  simp only [htask, if_false, h.totalSysPages, hscored.divides]
  rfl

/-- A request finds no pages, takes none back, and invokes the killer. -/
theorem allocPages (h : Unset c) (hcount : 0 < c.activeTaskCount) (htask : c.taskArray 0 ≠ 0)
    (hscored : Scored (c.tasks (c.taskArray 0))) {count : Nat} (hpos : 0 < count)
    (hword : count < 2 ^ 32) : sysAllocPages c 1 count = .error .divideError := by
  have hcaches := reclaimCaches_sameTasks c
  have hkiller : sysTriggerOomKiller (reclaimCaches c) = .error .divideError := by
    unfold sysTriggerOomKiller
    rw [h.reclaimed.selectBadProcess (by rwa [hcaches.activeTaskCount])
      (by rwa [hcaches.taskArray]) (by rwa [hcaches.taskArray, hcaches.tasks])]
  have hretry : retryAllocation zoneNormal count retryStages c = .error .divideError := by
    have hfirst := h.not_admits zoneNormal hpos hword
    have hsecond := h.shrinkSlabCaches.not_admits zoneNormal hpos hword
    have hthird := h.reclaimed.not_admits zoneNormal hpos hword
    unfold reclaimCaches at hthird hkiller
    simp only [retryStages, retryAllocation, ReclaimStage.run, hfirst, hsecond, hthird, hkiller,
      Bool.false_eq_true, if_false]
  unfold sysAllocPages
  simp only [zoneOfInt_one, hretry]

/-- No zone is below a minimum of zero. -/
theorem aboveMin (h : Unset c) : c.AboveMin := by
  intro i
  rw [h]
  exact Nat.le_refl 0

end Unset

/-! ## The process table of the commands -/

/-- A call that changes the lifecycles by an event that creates nobody. -/
theorem count_of_view {s t : SchedulerState} {e : LifecycleEvent}
    (h : view t = (view s).apply e) (hmortal : e.Mortal) :
    t.activeProcessCount = s.activeProcessCount := by
  have hcount : (view t).count = ((view s).apply e).count := by rw [h]
  rw [Lifecycle.apply_count hmortal] at hcount
  exact hcount

theorem cmdKill_count (s : SchedulerState) (arg : List Char) :
    (cmdKill s arg).1.activeProcessCount = s.activeProcessCount := by
  by_cases harg : arg = []
  · simp [cmdKill, harg]
  · rw [cmdKill_sched s harg]
    exact count_of_view (view_schedulerTerminateProcess s _) (terminateEvent_mortal s _)

theorem cmdMsgsend_count (s : SchedulerState) (args : List Char) :
    (cmdMsgsend s args).1.activeProcessCount = s.activeProcessCount := by
  by_cases hargs : args = []
  · simp [cmdMsgsend, hargs]
  · rw [cmdMsgsend_sched s hargs]
    exact count_of_view (view_schedulerIpcSend s _ _ _ _) (sendEvent_mortal s _ _)

theorem cmdMsgrecv_count {s t : SchedulerState} (h : CommandState.cmdMsgrecv s = some t) :
    t.activeProcessCount = s.activeProcessCount := by
  unfold CommandState.cmdMsgrecv schedulerIpcReceive at h
  dsimp only at h
  split at h
  · cases h
  case h_2 u r hreceive =>
    cases h
    split at hreceive
    · cases hreceive
    · cases hreceive
      rfl

theorem schedulerYield_count (s : SchedulerState) :
    (schedulerYield s).activeProcessCount = s.activeProcessCount :=
  count_of_view (view_schedulerYield s) (e := .skip) trivial

theorem iterate_schedulerYield_count (s : SchedulerState) (yields : Nat) :
    (schedulerYield^[yields] s).activeProcessCount = s.activeProcessCount := by
  induction yields generalizing s with
  | zero => rfl
  | succ yields ih =>
      rw [Function.iterate_succ_apply, ih]
      exact schedulerYield_count s

/-! ## The invariant -/

namespace CommandState

variable {image : KernelImage}

/-- The zones are unset, the task registered at startup scores, and the master process is the only
one. -/
structure Started (m : CommandState) : Prop where
  unset : Unset m.kernel.oom
  registered : 0 < m.kernel.oom.activeTaskCount
  notNull : m.kernel.oom.taskArray 0 ≠ 0
  scored : Scored (m.kernel.oom.tasks (m.kernel.oom.taskArray 0))
  alone : m.kernel.sched.activeProcessCount = 1

/-- The first request of a zeroed heap is served at its start. -/
theorem whitexMalloc_zeroed (outside : Heap.Memory) (size : Nat) :
    ∃ heap, Heap.whitexMalloc (Heap.HeapState.zeroed outside).memory size =
      some (heap, some Heap.sizeofBlockHeader) := by
  have hserves :
      (Heap.readHeader (Heap.HeapState.zeroed outside).memory 0).serves size = true := by
    have hzero : ∀ i, i < 65536 → (Heap.HeapState.zeroed outside).memory i = 0 :=
      fun i hi => if_pos hi
    simp [Heap.readHeader, Heap.BlockHeader.serves, hzero]
  have hloop : Heap.mallocLoop (Heap.HeapState.zeroed outside).memory size Heap.walkFuel 0 =
      some (some 0) := by
    unfold Heap.walkFuel Heap.mallocLoop
    rw [if_pos (by decide), if_pos hserves]
  unfold Heap.whitexMalloc
  rw [hloop]
  exact ⟨_, rfl⟩

/-- Startup returns. -/
theorem startup_started (image : KernelImage) (sched : SchedulerState) (outside : Heap.Memory) :
    ∃ m, startup image sched outside = .ok m ∧ m.Started := by
  obtain ⟨heap, hmalloc⟩ := whitexMalloc_zeroed outside sizeofSysTask
  have hnode : image.memoryHeap + Heap.sizeofBlockHeader ≠ 0 := Nat.succ_ne_zero _
  unfold startup newTask
  have hheap : (beforeNewTask sched outside).heap = (Heap.HeapState.zeroed outside).memory := rfl
  rw [hheap, hmalloc]
  refine ⟨_, rfl, ?_⟩
  exact
    { unset := rfl
      registered := Nat.one_pos
      notNull := hnode
      scored := by
        simp [beforeNewTask, SysOomCtrl.zero, fillNewTask_scored]
      alone := rfl }

/-- A new task is registered behind those there are. -/
theorem Started.newTaskAt {m t : CommandState} (hm : m.Started) {heap : Heap.Memory} {node : Nat}
    (h : m.newTaskAt heap node = .ok t) : t.Started := by
  have hslot : 0 ≠ m.kernel.oom.activeTaskCount := Nat.ne_of_lt hm.registered
  unfold CommandState.newTaskAt sysRegisterTask at h
  dsimp only at h
  split at h
  · cases h
  case h_2 oom hregister =>
    split at hregister
    · cases hregister
      cases h
      -- the slot that is filled is not the first one
      have hfirst : Function.update m.kernel.oom.taskArray m.kernel.oom.activeTaskCount node 0 =
          m.kernel.oom.taskArray 0 := Function.update_of_ne hslot _ _
      refine
        { unset := hm.unset
          registered := Nat.succ_pos _
          notNull := by
            dsimp only
            rw [hfirst]
            exact hm.notNull
          scored := ?_
          alone := hm.alone }
      dsimp only
      rw [hfirst, Function.update_apply]
      -- should the new record lie where the first one lies, it scores as well
      split
      · exact fillNewTask_scored _ _
      · exact hm.scored
    · cases hregister

theorem Started.withSched {m : CommandState} (hm : m.Started) {sched : SchedulerState}
    (hcount : sched.activeProcessCount = m.kernel.sched.activeProcessCount) :
    (m.withSched sched).Started :=
  { unset := hm.unset
    registered := hm.registered
    notNull := hm.notNull
    scored := hm.scored
    alone := hcount.trans hm.alone }

/-- The bootstrap of the daemons divides by zero at its first registration. -/
theorem Started.lifecycleBootstrap {m : CommandState} (hm : m.Started) :
    systemLifecycleBootstrap image m.kernel = .error .divideError := by
  -- the table has room, so the registration gets as far as its first request
  have hroom : ¬ m.kernel.sched.activeProcessCount ≥ sysMaxTasks := by
    rw [hm.alone]
    decide
  have hmemory : schedulerAllocateMemory m.kernel.oom sizeofSysTask = .error .divideError :=
    hm.unset.allocPages hm.registered hm.notNull hm.scored (by decide) (by decide)
  have hfirst : schedulerRegisterProcess m.kernel image.kernelLifecycleAuditor schedMaxPriority
      2048 1 = .error .divideError := by
    unfold schedulerRegisterProcess
    rw [if_neg hroom]
    simp only [Kernel.drawPid, hmemory]
    rfl
  unfold systemLifecycleBootstrap lifecycleProcesses
  rw [List.foldlM_cons, hfirst]
  rfl

/-- What each command leaves of a machine that has started. -/
theorem Started.step {m t : CommandState} {c : ShellCommand} (hm : m.Started)
    (h : m.run image c = .ok t) : t.Started := by
  cases c with
  | ntask =>
      unfold CommandState.run newTask at h
      dsimp only at h
      split at h
      · cases h
      case h_2 heap _ =>
        cases h
        exact ⟨hm.unset, hm.registered, hm.notNull, hm.scored, hm.alone⟩
      case h_3 heap ptr _ => exact hm.newTaskAt h
  | lcreset =>
      unfold CommandState.run at h
      -- a second bootstrap does not return
      rw [hm.lifecycleBootstrap] at h
      cases h
  | kill arg =>
      cases h
      exact hm.withSched (cmdKill_count _ arg)
  | msgsend args =>
      cases h
      exact hm.withSched (cmdMsgsend_count _ args)
  | msgrecv =>
      unfold CommandState.run at h
      dsimp only at h
      split at h
      · cases h
      case h_2 sched hreceive =>
        cases h
        exact hm.withSched (cmdMsgrecv_count hreceive)
  | top yields =>
      cases h
      exact hm.withSched (iterate_schedulerYield_count _ yields)
  | other =>
      cases h
      exact hm
  | monitorCheck =>
      unfold CommandState.run at h
      rw [hm.unset.aboveMin.monitorCheck] at h
      cases h
      exact hm

/-- A request of the heap, or the array being full, can stop `new_task`; a division cannot. -/
theorem newTask_ne_divideError (m : CommandState) :
    m.newTask image ≠ .error (.halt .divideError) := by
  unfold newTask
  split
  · simp
  · simp
  · unfold CommandState.newTaskAt sysRegisterTask
    dsimp only
    split
    case h_1 stopped hregister =>
      split at hregister
      · cases hregister
      · cases hregister
        simp
    case h_2 => simp

/-- The one command that divides by zero. -/
theorem Started.dividesByNonzero_iff {m : CommandState} (hm : m.Started) (c : ShellCommand) :
    m.DividesByNonzero image c ↔ c ≠ .lcreset := by
  unfold DividesByNonzero
  cases c with
  | ntask => simpa [CommandState.run] using newTask_ne_divideError m
  | lcreset => simp [CommandState.run, hm.lifecycleBootstrap]
  | kill arg => simp [CommandState.run]
  | msgsend args => simp [CommandState.run]
  | msgrecv =>
      simp only [CommandState.run]
      split <;> simp
  | top yields => simp [CommandState.run]
  | other => simp [CommandState.run]
  | monitorCheck => simp [CommandState.run, hm.unset.aboveMin.monitorCheck]

/-- From startup on, a run of commands meets no zero divisor in the division of the badness exactly
when it never tries `lcreset`. -/
theorem dividesByNonzero_run_iff (image : KernelImage) (sched : SchedulerState)
    (outside : Heap.Memory) :
    ∃ m, startup image sched outside = .ok m ∧ ∀ cs : List ShellCommand,
      AllTried (step image) (DividesByNonzero image) m cs ↔
        AllTried (step image) (fun _ c => c ≠ .lcreset) m cs := by
  obtain ⟨m, hstartup, hm⟩ := startup_started image sched outside
  refine ⟨m, hstartup, fun cs => ?_⟩
  -- a step of the run is a command that returns
  have hstep : ∀ (m : CommandState) c t, m.Started → step image m c = some t → t.Started := by
    intro m c t hm h
    unfold CommandState.step at h
    cases hrun : m.run image c with
    | error e => simp [hrun, Except.toOption] at h
    | ok u =>
        simp only [hrun, Except.toOption, Option.some.injEq] at h
        exact h ▸ hm.step hrun
  exact allTried_congr hstep (fun m c hm => hm.dividesByNonzero_iff c) hm cs

/-- The first `lcreset` after startup. -/
theorem dividesByNonzero_run_false :
    ¬ ∀ (image : KernelImage) (sched : SchedulerState) (outside : Heap.Memory) (m : CommandState),
      startup image sched outside = .ok m → ∀ cs : List ShellCommand,
        AllTried (step image) (DividesByNonzero image) m cs := by
  intro h
  let image : KernelImage :=
    { memoryHeap := 0x200000
      kernelLifecycleAuditor := 0x100000
      kernelDaemonWorker := 0x100100 }
  obtain ⟨m, hstartup, hm⟩ := startup_started image (coldKernel 0).sched fun _ => 0
  have htried := h image _ _ m hstartup [.lcreset]
  exact (hm.dividesByNonzero_iff .lcreset).1 htried.1 rfl

end CommandState

end Sched
end WhitexKernel
