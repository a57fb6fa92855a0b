import WhitexKernel.Oom.Model

/-!
# Sched — the cooperative scheduler (`multitasking.h`)

The process table is a function of the index, with `activeProcessCount` entries in use; entries are
never taken out of use again.  A context switch is the change of `runningProcessIndex`: what the
process that is switched to does next is its own suspended code, which `WhitexKernel.Sched.System`
keeps track of.

A buffer that a caller passes by address is the function from offsets to bytes found there.
-/

namespace WhitexKernel
namespace Sched

open Machine Oom

/-! ## Constants -/

/-- `SCHED_MAX_PRIORITY` -/
def schedMaxPriority : Nat := 100

/-- `SCHED_DEFAULT_PRIORITY` -/
def schedDefaultPriority : Nat := 20

/-- `SCHED_PRIORITY_AGING_LIMIT` -/
def schedPriorityAgingLimit : Nat := 500

/-- `SCHED_STACK_SIZE` -/
def schedStackSize : Nat := 4096

/-- `SCHED_IPC_MAX_MESSAGES` -/
abbrev schedIpcMaxMessages : Nat := 32

/-- `SCHED_IPC_MSG_SIZE` -/
abbrev schedIpcMsgSize : Nat := 128

/-- `SIGNAL_SIGKILL` -/
def signalSigkill : Nat := 9

/-- `SIGNAL_SIGSTOP` -/
def signalSigstop : Nat := 19

/-- `SIGNAL_SIGCONT` -/
def signalSigcont : Nat := 18

/-- `sizeof(sys_task_t)` on the i386 target. -/
def sizeofSysTask : Nat := 48

/-- The codes of `errnu.h` that the scheduler returns. -/
inductive ErrCode
  | ok
  | busy
  | overflow
  | invalidOp
  | memFault
  | memOutOfMem
  | ioNotFound
  | ioPermission
  deriving DecidableEq, Repr

/-! ## Data -/

structure IpcMessage where
  data : Nat → UInt8
  senderId : Nat
  length : Nat
  type : Nat

structure IpcChannel where
  queue : Nat → IpcMessage
  head : Nat
  tail : Nat
  count : Nat

structure SignalContext where
  pendingSignals : Nat
  blockedSignals : Nat
  handlers : Nat → Nat

structure PerformanceMetrics where
  executionStartTick : Nat
  totalExecutionTicks : Nat
  contextSwitches : Nat
  lastScheduledTick : Nat
  deriving DecidableEq, Repr

/-- `process_control_block_t`; of the saved context only the address the initial frame of a new
process resumes at is kept. -/
structure ProcessControlBlock where
  entryPoint : Nat
  taskId : Nat
  parentId : Nat
  executionState : TaskState
  memoryFootprintPages : Nat
  basePriority : Nat
  dynamicPriority : Nat
  accumulationCycles : Nat
  allocationFlags : Nat
  stackMemoryBlock : Nat
  signalSubsystem : SignalContext
  metrics : PerformanceMetrics
  communicationChannel : IpcChannel
  waitingOnPid : Nat
  sleepUntilTick : Nat

structure SchedulerState where
  processTable : Nat → ProcessControlBlock
  activeProcessCount : Nat
  runningProcessIndex : Nat
  schedulerCycles : Nat
  globalProcessIdentifierSeed : Nat
  kernelElapsedTicks : Nat

/-- The globals the scheduler functions work on. -/
structure Kernel where
  sched : SchedulerState
  oom : SysOomCtrl
  autoPid : Nat

/-! ## Cleared structures -/

def IpcMessage.zero : IpcMessage :=
  { data := fun _ => 0
    senderId := 0
    length := 0
    type := 0 }

def IpcChannel.zero : IpcChannel :=
  { queue := fun _ => IpcMessage.zero
    head := 0
    tail := 0
    count := 0 }

def SignalContext.zero : SignalContext :=
  { pendingSignals := 0
    blockedSignals := 0
    handlers := fun _ => 0 }

def PerformanceMetrics.zero : PerformanceMetrics :=
  { executionStartTick := 0
    totalExecutionTicks := 0
    contextSwitches := 0
    lastScheduledTick := 0 }

/-! ## Table access -/

namespace SchedulerState

/-- Rewrite entry `i` of the process table. -/
def modifyPcb (s : SchedulerState) (i : Nat)
    (f : ProcessControlBlock → ProcessControlBlock) : SchedulerState :=
  { s with processTable := Function.update s.processTable i (f (s.processTable i)) }

theorem modifyPcb_processTable (s : SchedulerState) (i j : Nat)
    (f : ProcessControlBlock → ProcessControlBlock) :
    (s.modifyPcb i f).processTable j =
      if j = i then f (s.processTable i) else s.processTable j := by
  simp [modifyPcb, Function.update_apply]

@[simp] theorem modifyPcb_self (s : SchedulerState) (i : Nat)
    (f : ProcessControlBlock → ProcessControlBlock) :
    (s.modifyPcb i f).processTable i = f (s.processTable i) := by
  simp [modifyPcb]

@[simp] theorem modifyPcb_of_ne (s : SchedulerState) {i j : Nat} (h : j ≠ i)
    (f : ProcessControlBlock → ProcessControlBlock) :
    (s.modifyPcb i f).processTable j = s.processTable j := by
  simp [modifyPcb, h]

/-- What `f` leaves of an entry, rewriting one with `f` leaves of them all. -/
theorem modifyPcb_field {β : Type} {π : ProcessControlBlock → β} (s : SchedulerState) (i j : Nat)
    {f : ProcessControlBlock → ProcessControlBlock} (hf : ∀ pcb, π (f pcb) = π pcb) :
    π ((s.modifyPcb i f).processTable j) = π (s.processTable j) := by
  rw [modifyPcb_processTable]
  split
  case isTrue hji => rw [hji, hf]
  case isFalse => rfl

@[simp] theorem modifyPcb_activeProcessCount (s : SchedulerState) (i : Nat)
    (f : ProcessControlBlock → ProcessControlBlock) :
    (s.modifyPcb i f).activeProcessCount = s.activeProcessCount := rfl

@[simp] theorem modifyPcb_runningProcessIndex (s : SchedulerState) (i : Nat)
    (f : ProcessControlBlock → ProcessControlBlock) :
    (s.modifyPcb i f).runningProcessIndex = s.runningProcessIndex := rfl

@[simp] theorem modifyPcb_seed (s : SchedulerState) (i : Nat)
    (f : ProcessControlBlock → ProcessControlBlock) :
    (s.modifyPcb i f).globalProcessIdentifierSeed = s.globalProcessIdentifierSeed := rfl

@[simp] theorem modifyPcb_kernelElapsedTicks (s : SchedulerState) (i : Nat)
    (f : ProcessControlBlock → ProcessControlBlock) :
    (s.modifyPcb i f).kernelElapsedTicks = s.kernelElapsedTicks := rfl

/-- The entry of the current process. -/
def current (s : SchedulerState) : ProcessControlBlock :=
  s.processTable s.runningProcessIndex

/-- The first entry in use that meets `p`: the linear scan all PID-addressed calls make. -/
def findIndex (s : SchedulerState) (p : ProcessControlBlock → Bool) : Option Nat :=
  (List.range s.activeProcessCount).find? fun i => p (s.processTable i)

/-- The scan for a live process with PID `pid`. -/
def findLive (s : SchedulerState) (pid : Nat) : Option Nat :=
  s.findIndex fun pcb => pcb.taskId == pid && pcb.executionState != .dead

end SchedulerState

/-! ## Initialisation -/

/-- What `scheduler_initialize` leaves of an unused entry. -/
def clearPcb (pcb : ProcessControlBlock) : ProcessControlBlock :=
  { pcb with
    taskId := 0
    executionState := .dead
    stackMemoryBlock := 0
    signalSubsystem := SignalContext.zero
    metrics := PerformanceMetrics.zero
    communicationChannel := IpcChannel.zero
    waitingOnPid := 0
    sleepUntilTick := 0 }

/-- The fields `scheduler_initialize` gives the master process. -/
def masterPcb (pcb : ProcessControlBlock) : ProcessControlBlock :=
  { pcb with
    taskId := 100
    parentId := 0
    executionState := .running
    memoryFootprintPages := 512
    basePriority := schedDefaultPriority
    dynamicPriority := schedDefaultPriority
    accumulationCycles := 0
    allocationFlags := 1
    stackMemoryBlock := 0
    metrics := { pcb.metrics with executionStartTick := 0 } }

def schedulerInitialize (s : SchedulerState) : SchedulerState :=
  let cleared : SchedulerState :=
    { processTable := fun i =>
        if i < sysMaxTasks then clearPcb (s.processTable i) else s.processTable i
      activeProcessCount := 0
      runningProcessIndex := 0
      schedulerCycles := 0
      globalProcessIdentifierSeed := 100
      kernelElapsedTicks := 0 }
  { cleared.modifyPcb 0 masterPcb with activeProcessCount := 1 }

/-! ## Selection and switching -/

/-- One aging step of a process that is ready and not current. -/
def agePcb (pcb : ProcessControlBlock) : ProcessControlBlock :=
  let accumulationCycles := wrap32 (pcb.accumulationCycles + 1)
  if accumulationCycles ≥ schedPriorityAgingLimit then
    { pcb with
      dynamicPriority :=
        if pcb.dynamicPriority < schedMaxPriority then pcb.dynamicPriority + 1
        else pcb.dynamicPriority
      accumulationCycles := 0 }
  else { pcb with accumulationCycles := accumulationCycles }

def schedulerApplyAging (s : SchedulerState) : SchedulerState :=
  { s with
    processTable := fun i =>
      if i < s.activeProcessCount ∧ (s.processTable i).executionState = .running ∧
          i ≠ s.runningProcessIndex then
        agePcb (s.processTable i)
      else s.processTable i }

/-- `best_index`, `highest_priority` and `found`. -/
structure Candidate where
  bestIndex : Nat
  highestPriority : Nat
  found : Bool
  deriving DecidableEq, Repr

/-- `pcb` is put off by an unexpired `sleep_until_tick`. -/
def ProcessControlBlock.asleep (pcb : ProcessControlBlock) (now : Nat) : Bool :=
  decide (pcb.sleepUntilTick > 0) && decide (now < pcb.sleepUntilTick)

/-- An entry whose `sleep_until_tick` is zero already, or has expired. -/
def wakePcb (pcb : ProcessControlBlock) : ProcessControlBlock :=
  { pcb with sleepUntilTick := 0 }

/-- The entry of the chosen candidate. -/
def resetPriority (pcb : ProcessControlBlock) : ProcessControlBlock :=
  { pcb with
    dynamicPriority := pcb.basePriority
    accumulationCycles := 0 }

/-- The loop body of `scheduler_select_next_candidate`. -/
def selectStep (acc : SchedulerState × Candidate) (i : Nat) : SchedulerState × Candidate :=
  let s := acc.1
  let pcb := s.processTable i
  if pcb.executionState = .running then
    if pcb.asleep s.kernelElapsedTicks then acc
    else
      let woken := s.modifyPcb i wakePcb
      if !acc.2.found || decide (pcb.dynamicPriority > acc.2.highestPriority) then
        (woken, { bestIndex := i, highestPriority := pcb.dynamicPriority, found := true })
      else (woken, acc.2)
  else acc

def selectLoop (s : SchedulerState) : SchedulerState × Candidate :=
  (List.range s.activeProcessCount).foldl selectStep
    (s, { bestIndex := 0, highestPriority := 0, found := false })

def schedulerSelectNextCandidate (s : SchedulerState) : SchedulerState × Nat :=
  if s.activeProcessCount = 0 then (s, 0)
  else
    let r := selectLoop (schedulerApplyAging s)
    if r.2.found then
      (r.1.modifyPcb r.2.bestIndex resetPriority, r.2.bestIndex)
    else (r.1, 0)

/-- The ticks since it was scheduled, charged to the process that is switched away from. -/
def chargeTicks (now : Nat) (pcb : ProcessControlBlock) : ProcessControlBlock :=
  { pcb with
    metrics := { pcb.metrics with
      totalExecutionTicks := wrap32 (pcb.metrics.totalExecutionTicks +
        sub32 now pcb.metrics.lastScheduledTick) } }

/-- The entry of the process that is switched to. -/
def markScheduled (now : Nat) (pcb : ProcessControlBlock) : ProcessControlBlock :=
  { pcb with
    metrics := { pcb.metrics with
      lastScheduledTick := now
      contextSwitches := wrap32 (pcb.metrics.contextSwitches + 1) } }

/-- The bookkeeping of a switch from `currentIndex` to `nextIndex`. -/
def switchTo (s : SchedulerState) (currentIndex nextIndex : Nat) : SchedulerState :=
  SchedulerState.modifyPcb
    (SchedulerState.modifyPcb
      { s with
        runningProcessIndex := nextIndex
        schedulerCycles := wrap32 (s.schedulerCycles + 1) }
      currentIndex (chargeTicks s.kernelElapsedTicks))
    nextIndex (markScheduled s.kernelElapsedTicks)

/-- The tick `scheduler_yield` begins with. -/
def SchedulerState.tick (s : SchedulerState) : SchedulerState :=
  { s with kernelElapsedTicks := wrap32 (s.kernelElapsedTicks + 1) }

def schedulerYield (s : SchedulerState) : SchedulerState :=
  let s := s.tick
  if s.activeProcessCount ≤ 1 then s
  else
    let r := schedulerSelectNextCandidate s
    if s.runningProcessIndex = r.2 then r.1 else switchTo r.1 s.runningProcessIndex r.2

/-! ## Registration -/

/-- `scheduler_allocate_memory` -/
def schedulerAllocateMemory (c : SysOomCtrl) (size : Nat) : Except Halt (SysOomCtrl × Nat) :=
  sysAllocPages c 1 ((size + pageSize - 1) / pageSize)

/-- The `sys_task_t` of a new process. -/
def newSysTask (pid ppid initialRss allocationFlags : Nat) : SysTask :=
  { pid := pid
    ppid := ppid
    state := .running
    flags := allocationFlags
    oomScoreAdj := 0
    rssPages := initialRss
    virtualPages := wrap32 (initialRss * 2)
    niceValue := 0 }

/-- The table entry of a new process. -/
def newPcb (entryPoint pid parentId priority initialRss allocationFlags stackRaw now : Nat) :
    ProcessControlBlock :=
  { entryPoint := entryPoint
    taskId := pid
    parentId := parentId
    executionState := .running
    memoryFootprintPages := initialRss
    basePriority := priority
    dynamicPriority := priority
    accumulationCycles := 0
    allocationFlags := allocationFlags
    stackMemoryBlock := stackRaw
    signalSubsystem := SignalContext.zero
    metrics := { PerformanceMetrics.zero with
      executionStartTick := now
      lastScheduledTick := now }
    communicationChannel := IpcChannel.zero
    waitingOnPid := 0
    sleepUntilTick := 0 }

/-- The PID drawn by a registration, and the globals after it is drawn. -/
def Kernel.drawPid (k : Kernel) : Kernel × Nat :=
  let seed := wrap32 (k.sched.globalProcessIdentifierSeed + 1)
  ({ k with sched := { k.sched with globalProcessIdentifierSeed := seed }, autoPid := seed },
    k.sched.globalProcessIdentifierSeed)

/-- The part of `scheduler_register_process` that fills the entry at `active_process_count`. -/
def SchedulerState.addProcess (s : SchedulerState)
    (entryPoint pid priority initialRss allocationFlags stackRaw : Nat) : SchedulerState :=
  let target := s.activeProcessCount
  let named := s.modifyPcb target fun pcb => { pcb with taskId := pid }
  { named.modifyPcb target fun _ =>
      newPcb entryPoint pid named.current.taskId priority initialRss allocationFlags stackRaw
        s.kernelElapsedTicks with
    activeProcessCount := s.activeProcessCount + 1 }

def schedulerRegisterProcess (k : Kernel) (entryPoint priority initialRss allocationFlags : Nat) :
    Except Halt (Kernel × ErrCode) :=
  if k.sched.activeProcessCount ≥ sysMaxTasks then .ok (k, .memOutOfMem)
  else do
    let (k, generatedPid) := k.drawPid
    let (oom, node) ← schedulerAllocateMemory k.oom sizeofSysTask
    if node = 0 then return ({ k with oom := oom }, .memFault)
    let oom := { oom with
      tasks := Function.update oom.tasks node
        (newSysTask generatedPid k.sched.current.taskId initialRss allocationFlags) }
    let oom ← sysRegisterTask oom node
    let (oom, stackRaw) ← schedulerAllocateMemory oom schedStackSize
    if stackRaw = 0 then return ({ k with oom := oom }, .memFault)
    return ({ k with
      oom := oom
      sched := k.sched.addProcess entryPoint generatedPid priority initialRss allocationFlags
        stackRaw }, .ok)

/-! ## Sleeping, signals and termination -/

def setDeadline (tick : Nat) (pcb : ProcessControlBlock) : ProcessControlBlock :=
  { pcb with sleepUntilTick := tick }

def setState (st : TaskState) (pcb : ProcessControlBlock) : ProcessControlBlock :=
  { pcb with executionState := st }

/-- `pending_signals |= (1 << signal)` -/
def addPending (signal : Nat) (pcb : ProcessControlBlock) : ProcessControlBlock :=
  { pcb with
    signalSubsystem := { pcb.signalSubsystem with
      pendingSignals := pcb.signalSubsystem.pendingSignals ||| 1 <<< signal } }

def schedulerSleep (s : SchedulerState) (ticks : Nat) : SchedulerState :=
  schedulerYield (s.modifyPcb s.runningProcessIndex
    (setDeadline (wrap32 (s.kernelElapsedTicks + ticks))))

/-- Yield if the signalled entry is the current process. -/
def yieldIfCurrent (s : SchedulerState) (i : Nat) : SchedulerState :=
  if s.runningProcessIndex = i then schedulerYield s else s

/-- Delivery of `signal` to entry `i`. -/
def deliverSignal (s : SchedulerState) (i signal : Nat) : SchedulerState :=
  let s := s.modifyPcb i (addPending signal)
  if signal = signalSigkill then yieldIfCurrent (s.modifyPcb i (setState .dead)) i
  else if signal = signalSigstop then yieldIfCurrent (s.modifyPcb i (setState .stopped)) i
  else if signal = signalSigcont then s.modifyPcb i (setState .running)
  else s

def schedulerSendSignal (s : SchedulerState) (targetPid signal : Nat) : SchedulerState × ErrCode :=
  if signal > 31 then (s, .invalidOp)
  else
    match s.findLive targetPid with
    | some i => (deliverSignal s i signal, .ok)
    | none => (s, .ioNotFound)

/-- The waiter part of `scheduler_terminate_process`. -/
def releasePcb (targetPid : Nat) (pcb : ProcessControlBlock) : ProcessControlBlock :=
  if pcb.executionState = .blocked ∧ pcb.waitingOnPid = targetPid then
    { pcb with executionState := .running, waitingOnPid := 0 }
  else pcb

def releaseWaiters (s : SchedulerState) (targetPid : Nat) : SchedulerState :=
  { s with
    processTable := fun j =>
      if j < s.activeProcessCount then releasePcb targetPid (s.processTable j)
      else s.processTable j }

theorem releaseWaiters_field {β : Type} {π : ProcessControlBlock → β} (s : SchedulerState)
    (targetPid j : Nat) (hπ : ∀ pcb, π (releasePcb targetPid pcb) = π pcb) :
    π ((releaseWaiters s targetPid).processTable j) = π (s.processTable j) := by
  simp only [releaseWaiters]
  split
  · exact hπ _
  · rfl

def schedulerTerminateProcess (s : SchedulerState) (targetPid : Nat) : SchedulerState × ErrCode :=
  match s.findIndex fun pcb => pcb.taskId == targetPid with
  | none => (s, .ioNotFound)
  | some i =>
      if targetPid = 100 ∨ (s.processTable i).allocationFlags.testBit oomFlagCritical then
        (s, .ioPermission)
      else
        (releaseWaiters (s.modifyPcb i (setState .dead)) targetPid, .ok)

/-- What the two rewritings of a termination leave of an entry, it leaves of them all. -/
theorem schedulerTerminateProcess_field {β : Type} {π : ProcessControlBlock → β}
    (s : SchedulerState) (targetPid j : Nat) (hdead : ∀ pcb, π (setState .dead pcb) = π pcb)
    (hreleased : ∀ pcb, π (releasePcb targetPid pcb) = π pcb) :
    π ((schedulerTerminateProcess s targetPid).1.processTable j) = π (s.processTable j) := by
  unfold schedulerTerminateProcess
  split
  · rfl
  · split
    · rfl
    · exact (releaseWaiters_field _ targetPid j hreleased).trans
        (SchedulerState.modifyPcb_field s _ j hdead)

def schedulerTerminateCurrent (s : SchedulerState) : SchedulerState :=
  schedulerYield (schedulerTerminateProcess s s.current.taskId).1

/-! ## Waiting -/

def blockPcb (pid : Nat) (pcb : ProcessControlBlock) : ProcessControlBlock :=
  { pcb with
    executionState := .blocked
    waitingOnPid := pid }

/-- Block the current process with `waiting_on_pid = pid`, and yield. -/
def blockCurrent (s : SchedulerState) (pid : Nat) : SchedulerState :=
  schedulerYield (s.modifyPcb s.runningProcessIndex (blockPcb pid))

/-- `scheduler_wait_pid` up to its return from `scheduler_yield`: `none` is the immediate
`ERR_IO_NOT_FOUND`; otherwise the call returns `ERR_OK` when its process is resumed.  The index is
that of the live process found. -/
def schedulerWaitPid (s : SchedulerState) (targetPid : Nat) : Option (SchedulerState × Nat) :=
  (s.findLive targetPid).map fun i => (blockCurrent s targetPid, i)

/-! ## Messages -/

/-- `scheduler_memory_copy(dest, src, n)` -/
def schedulerMemoryCopy (dest src : Nat → UInt8) (n : Nat) : Nat → UInt8 :=
  fun i => if i < n then src i else dest i

/-- What `scheduler_ipc_send` leaves in the slot at `tail`. -/
def fillMessage (message : Nat → UInt8) (senderId length type : Nat) (slot : IpcMessage) :
    IpcMessage :=
  { data := schedulerMemoryCopy slot.data message length
    senderId := senderId
    length := length
    type := type }

def IpcChannel.push (channel : IpcChannel) (fill : IpcMessage → IpcMessage) : IpcChannel :=
  { queue := Function.update channel.queue channel.tail (fill (channel.queue channel.tail))
    head := channel.head
    tail := (channel.tail + 1) % schedIpcMaxMessages
    count := channel.count + 1 }

def IpcChannel.pop (channel : IpcChannel) : IpcChannel :=
  { channel with
    head := (channel.head + 1) % schedIpcMaxMessages
    count := channel.count - 1 }

/-- The entry of the receiver after a message was queued. -/
def deliverMessage (fill : IpcMessage → IpcMessage) (pcb : ProcessControlBlock) :
    ProcessControlBlock :=
  { pcb with
    communicationChannel := pcb.communicationChannel.push fill
    executionState :=
      if pcb.executionState = .blocked ∧ pcb.waitingOnPid = 0 then .running
      else pcb.executionState }

def schedulerIpcSend (s : SchedulerState) (destinationPid : Nat) (message : Nat → UInt8)
    (length type : Nat) : SchedulerState × ErrCode :=
  if length > schedIpcMsgSize then (s, .overflow)
  else
    match s.findLive destinationPid with
    | none => (s, .ioNotFound)
    | some i =>
        if (s.processTable i).communicationChannel.count ≥ schedIpcMaxMessages then (s, .busy)
        else
          (s.modifyPcb i (deliverMessage (fillMessage message s.current.taskId length type)), .ok)

/-- The entry of the receiver after a message was taken. -/
def popMessage (pcb : ProcessControlBlock) : ProcessControlBlock :=
  { pcb with communicationChannel := pcb.communicationChannel.pop }

/-- What a receive call hands its caller. -/
structure Receipt where
  senderId : Nat
  type : Nat
  bytes : List UInt8
  deriving DecidableEq, Repr

/-- The copy of the message at `head` into a buffer of `maxLength` bytes; the number of bytes is
the value the call returns. -/
def takeMessage (msg : IpcMessage) (maxLength : Nat) : Receipt :=
  let copyLength := if msg.length > maxLength then maxLength else msg.length
  { senderId := msg.senderId
    type := msg.type
    bytes := (List.range copyLength).map msg.data }

/-- One round of `scheduler_ipc_receive`: with no message queued the process blocks and yields (it
will test again when it is resumed); otherwise the message at `head` is taken. -/
def schedulerIpcReceive (s : SchedulerState) (maxLength : Nat) : SchedulerState × Option Receipt :=
  let channel := s.current.communicationChannel
  if channel.count = 0 then (blockCurrent s 0, none)
  else
    (s.modifyPcb s.runningProcessIndex popMessage,
      some (takeMessage (channel.queue channel.head) maxLength))

end Sched
end WhitexKernel
