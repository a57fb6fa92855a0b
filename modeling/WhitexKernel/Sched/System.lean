import WhitexKernel.Lib.Transition
import WhitexKernel.Sched.Model

/-!
# System — the processes of the scheduler, taking turns

The kernel is cooperative: only the process at `runningProcessIndex` executes, and control moves
only inside `scheduler_yield`.  `System` adds to the kernel globals what each process is suspended
in, so that the code after a yield point runs when, and only when, its process is current again:

* a process suspended in `scheduler_ipc_receive` tests its channel again;
* a process suspended in `scheduler_wait_pid` returns `ERR_OK`;
* every other scheduler call has nothing left to do after its yield.

The logs of accepted and received messages are history: no step reads them.
-/

namespace WhitexKernel
namespace Sched

open Lib Machine Oom

/-- An entry in zeroed static storage. -/
def ProcessControlBlock.zero : ProcessControlBlock :=
  { entryPoint := 0
    taskId := 0
    parentId := 0
    executionState := .dead
    memoryFootprintPages := 0
    basePriority := 0
    dynamicPriority := 0
    accumulationCycles := 0
    allocationFlags := 0
    stackMemoryBlock := 0
    signalSubsystem := SignalContext.zero
    metrics := PerformanceMetrics.zero
    communicationChannel := IpcChannel.zero
    waitingOnPid := 0
    sleepUntilTick := 0 }

/-- A machine before `scheduler_initialize`, with `pages` pages in each memory zone. -/
def coldKernel (pages : Nat) : Kernel :=
  { sched :=
      { processTable := fun _ => ProcessControlBlock.zero
        activeProcessCount := 0
        runningProcessIndex := 0
        schedulerCycles := 0
        globalProcessIdentifierSeed := 0
        kernelElapsedTicks := 0 }
    oom := sysOomInit pages pages pages SysOomCtrl.zero
    autoPid := 100 }

/-- What a process does when it is resumed. -/
inductive Suspended
  /-- It runs its own code. -/
  | idle
  /-- It is in the loop of `scheduler_ipc_receive`. -/
  | inReceive (maxLength : Nat)
  /-- It is in `scheduler_wait_pid`, called for `pid` when entry `target` was the live process. -/
  | inWait (pid target : Nat)
  deriving DecidableEq, Repr

/-- A message whose send returned `ERR_OK`: its destination, the entry it went to and its contents. -/
structure SendRecord where
  destinationPid : Nat
  entry : Nat
  senderId : Nat
  type : Nat
  payload : List UInt8
  deriving DecidableEq, Repr

/-- A completed receive call of entry `entry` with a buffer of `maxLength` bytes. -/
structure ReceiveRecord where
  entry : Nat
  maxLength : Nat
  receipt : Receipt
  deriving DecidableEq, Repr

structure System where
  kernel : Kernel
  suspended : Nat → Suspended
  sends : List SendRecord
  receives : List ReceiveRecord

/-- The scheduler calls a process makes, with their arguments. -/
inductive SchedCall
  | registerProcess (entryPoint priority initialRss allocationFlags : Nat)
  | terminateProcess (targetPid : Nat)
  | terminateCurrent
  | sendSignal (targetPid signal : Nat)
  | waitPid (targetPid : Nat)
  | ipcSend (destinationPid : Nat) (message : Nat → UInt8) (length type : Nat)
  | ipcReceive (maxLength : Nat)
  | sleep (ticks : Nat)
  | yield

/-- A turn of the current process: a scheduler call, or the rest of the call it is suspended in. -/
inductive Action
  | call (c : SchedCall)
  | resume

namespace System

/-- The scheduler globals. -/
abbrev sched (s : System) : SchedulerState := s.kernel.sched

/-- The index of the current process. -/
abbrev running (s : System) : Nat := s.kernel.sched.runningProcessIndex

def withSched (s : System) (sched : SchedulerState) : System :=
  { s with kernel := { s.kernel with sched := sched } }

/-- Record what process `i` is suspended in. -/
def suspend (s : System) (i : Nat) (c : Suspended) : System :=
  { s with suspended := Function.update s.suspended i c }

@[simp] theorem withSched_sched (s : System) (sched : SchedulerState) :
    (s.withSched sched).kernel.sched = sched := rfl

@[simp] theorem withSched_suspended (s : System) (sched : SchedulerState) :
    (s.withSched sched).suspended = s.suspended := rfl

@[simp] theorem withSched_sends (s : System) (sched : SchedulerState) :
    (s.withSched sched).sends = s.sends := rfl

@[simp] theorem withSched_receives (s : System) (sched : SchedulerState) :
    (s.withSched sched).receives = s.receives := rfl

@[simp] theorem suspend_kernel (s : System) (i : Nat) (c : Suspended) :
    (s.suspend i c).kernel = s.kernel := rfl

@[simp] theorem suspend_sends (s : System) (i : Nat) (c : Suspended) :
    (s.suspend i c).sends = s.sends := rfl

@[simp] theorem suspend_receives (s : System) (i : Nat) (c : Suspended) :
    (s.suspend i c).receives = s.receives := rfl

theorem suspend_suspended (s : System) (i j : Nat) (c : Suspended) :
    (s.suspend i c).suspended j = if j = i then c else s.suspended j := by
  simp [suspend, Function.update_apply]

/-- The state after `scheduler_initialize`: the master process runs its own code. -/
def boot (k : Kernel) : System :=
  { kernel := { k with sched := schedulerInitialize k.sched }
    suspended := fun _ => .idle
    sends := []
    receives := [] }

/-- One round of the receive loop of the current process. -/
def receiveRound (s : System) (maxLength : Nat) : System :=
  let i := s.running
  match schedulerIpcReceive s.sched maxLength with
  | (sched, none) => (s.withSched sched).suspend i (.inReceive maxLength)
  | (sched, some receipt) =>
      { (s.withSched sched).suspend i .idle with
        receives := s.receives ++ [{ entry := i, maxLength := maxLength, receipt := receipt }] }

/-- The record of a send that returned `ERR_OK`. -/
def sendRecord (s : System) (destinationPid entry : Nat) (message : Nat → UInt8)
    (length type : Nat) : SendRecord :=
  { destinationPid := destinationPid
    entry := entry
    senderId := s.sched.current.taskId
    type := type
    payload := (List.range length).map message }

def send (s : System) (destinationPid : Nat) (message : Nat → UInt8) (length type : Nat) :
    System :=
  match schedulerIpcSend s.sched destinationPid message length type,
      s.sched.findLive destinationPid with
  | (sched, .ok), some i =>
      { s.withSched sched with
        sends := s.sends ++ [s.sendRecord destinationPid i message length type] }
  | (sched, _), _ => s.withSched sched

theorem receiveRound_sched (s : System) (maxLength : Nat) :
    (s.receiveRound maxLength).sched = (schedulerIpcReceive s.sched maxLength).1 := by
  unfold receiveRound
  split
  case h_1 sched heq => rw [heq]; rfl
  case h_2 sched receipt heq => rw [heq]; rfl

theorem send_sched (s : System) (destinationPid : Nat) (message : Nat → UInt8)
    (length type : Nat) :
    (s.send destinationPid message length type).sched =
      (schedulerIpcSend s.sched destinationPid message length type).1 := by
  unfold send
  split
  case h_1 sched i heq _ => rw [heq]; rfl
  case h_2 sched e _ heq _ => rw [heq]; rfl

def wait (s : System) (targetPid : Nat) : System :=
  match schedulerWaitPid s.sched targetPid with
  | none => s
  | some (sched, target) => (s.withSched sched).suspend s.running (.inWait targetPid target)

/-- The entry a successful registration fills starts with its own code. -/
def register (s : System) (entryPoint priority initialRss allocationFlags : Nat) : Option System :=
  match schedulerRegisterProcess s.kernel entryPoint priority initialRss allocationFlags with
  | .error _ => none
  | .ok (k, .ok) => some { s.suspend s.sched.activeProcessCount .idle with kernel := k }
  | .ok (k, _) => some { s with kernel := k }

def runCall (s : System) : SchedCall → Option System
  | .registerProcess entryPoint priority initialRss allocationFlags =>
      s.register entryPoint priority initialRss allocationFlags
  | .terminateProcess targetPid => some (s.withSched (schedulerTerminateProcess s.sched targetPid).1)
  | .terminateCurrent => some (s.withSched (schedulerTerminateCurrent s.sched))
  | .sendSignal targetPid signal => some (s.withSched (schedulerSendSignal s.sched targetPid signal).1)
  | .waitPid targetPid => some (s.wait targetPid)
  | .ipcSend destinationPid message length type => some (s.send destinationPid message length type)
  | .ipcReceive maxLength => some (s.receiveRound maxLength)
  | .sleep ticks => some (s.withSched (schedulerSleep s.sched ticks))
  | .yield => some (s.withSched (schedulerYield s.sched))

/-- A turn of the current process; `none` when it cannot take this turn, or the call halts the
machine. -/
def step (s : System) : Action → Option System
  | .call c =>
      match s.suspended s.running with
      | .idle => s.runCall c
      | _ => none
  | .resume =>
      match s.suspended s.running with
      | .idle => none
      | .inReceive maxLength => some (s.receiveRound maxLength)
      | .inWait _ _ => some (s.suspend s.running .idle)

/-- The turns there are: a process that runs its own code makes a call, one in the receive loop
tests its channel again, and one in `scheduler_wait_pid` returns. -/
inductive Turn (s : System) : Action → System → Prop
  | call (c : SchedCall) {t : System} (hidle : s.suspended s.running = .idle)
      (hcall : s.runCall c = some t) : Turn s (.call c) t
  | receiveAgain (maxLength : Nat) (hsus : s.suspended s.running = .inReceive maxLength) :
      Turn s .resume (s.receiveRound maxLength)
  | waitReturns (pid target : Nat) (hsus : s.suspended s.running = .inWait pid target) :
      Turn s .resume (s.suspend s.running .idle)

theorem step_turn {s t : System} {a : Action} (h : s.step a = some t) : Turn s a t := by
  cases a with
  | call c =>
      simp only [step] at h
      split at h
      case h_1 hidle => exact .call c hidle h
      case h_2 => cases h
  | resume =>
      simp only [step] at h
      split at h
      case h_1 => cases h
      case h_2 maxLength hsus =>
        cases h
        exact .receiveAgain maxLength hsus
      case h_3 pid target hsus =>
        cases h
        exact .waitReturns pid target hsus

end System

end Sched
end WhitexKernel
