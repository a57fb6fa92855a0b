import Mathlib.Logic.Function.Basic
import WhitexKernel.Machine.Word

/-!
# Oom — the page allocator and the out-of-memory controller (`oomk.h`)

The controller owns three memory zones, counters and the array of registered tasks.  A task is
reached through its address, as in the source: `tasks` is the memory the `sys_task_t` records live
in, and `taskArray` holds their addresses (`0` is `NULL`).

`sys_oom_panic` never returns, and a division by zero stops the processor; both are the `Halt`
outcomes of the functions below.  The zone spin locks and the write-only device registers
`OOM_HW_REGS` decide nothing here and are left out.
-/

namespace WhitexKernel
namespace Oom

open Machine

/-- `SYS_MAX_TASKS` -/
def sysMaxTasks : Nat := 1024

/-- `PAGE_SIZE` -/
def pageSize : Nat := 4096

/-- `OOM_SCORE_ADJ_MIN` -/
def oomScoreAdjMin : Int := -1000

/-- `OOM_SCORE_MAX` -/
def oomScoreMax : Nat := 10000

/-- `MAX_NR_ZONES` -/
abbrev maxNrZones : Nat := 3

/-- An index into `zones`: `ZONE_DMA`, `ZONE_NORMAL` and `ZONE_HIGHMEM`. -/
abbrev ZoneIdx := Fin maxNrZones

def zoneDma : ZoneIdx := 0

def zoneNormal : ZoneIdx := 1

def zoneHighmem : ZoneIdx := 2

/-- `OOM_FLAG_CRITICAL` as a bit number. -/
def oomFlagCritical : Nat := 0

/-- `OOM_FLAG_UNKILLABLE` as a bit number. -/
def oomFlagUnkillable : Nat := 1

/-- The `TASK_STATE_*` constants of `oomk.h` and `multitasking.h`. -/
inductive TaskState
  | running
  | sleeping
  | zombie
  | dead
  | blocked
  | stopped
  deriving DecidableEq, Repr

/-- `sys_task_t`, without the fields nothing reads. -/
structure SysTask where
  pid : Nat
  ppid : Nat
  state : TaskState
  flags : Nat
  oomScoreAdj : Int
  rssPages : Nat
  virtualPages : Nat
  niceValue : Int
  deriving DecidableEq, Repr

/-- `sys_mem_zone_t`; the three watermarks are `watermark[WM_MIN]`, `[WM_LOW]` and `[WM_HIGH]`. -/
structure SysMemZone where
  managedPages : Nat
  freePages : Nat
  wmMin : Nat
  wmLow : Nat
  wmHigh : Nat
  deriving DecidableEq, Repr

/-- `sys_oom_ctrl_t`, with the memory the registered tasks live in. -/
structure SysOomCtrl where
  zones : ZoneIdx → SysMemZone
  totalReclaimed : Nat
  totalOomKills : Nat
  taskArray : Nat → Nat
  activeTaskCount : Nat
  tasks : Nat → SysTask

/-- How a call can fail to return. -/
inductive Halt
  | panic (code : Nat)
  | divideError
  deriving DecidableEq, Repr

/-! ## Initialisation -/

/-- The controller in zeroed static storage. -/
def SysOomCtrl.zero : SysOomCtrl :=
  { zones := fun _ =>
      { managedPages := 0
        freePages := 0
        wmMin := 0
        wmLow := 0
        wmHigh := 0 }
    totalReclaimed := 0
    totalOomKills := 0
    taskArray := fun _ => 0
    activeTaskCount := 0
    tasks := fun _ =>
      { pid := 0
        ppid := 0
        state := .running
        flags := 0
        oomScoreAdj := 0
        rssPages := 0
        virtualPages := 0
        niceValue := 0 } }

/-- One zone of `sys_oom_init`: `low` is the divisor of `watermark[WM_LOW]`. -/
def initZone (pages divMin divLow divHigh : Nat) : SysMemZone :=
  { managedPages := pages
    freePages := pages
    wmMin := pages / divMin
    wmLow := pages / divLow
    wmHigh := pages / divHigh }

def sysOomInit (dmaPages normalPages highmemPages : Nat) (c : SysOomCtrl) : SysOomCtrl :=
  { c with
    zones := fun i =>
      if i = zoneDma then initZone dmaPages 64 32 16
      else if i = zoneNormal then initZone normalPages 128 64 32
      else initZone highmemPages 256 128 64
    totalReclaimed := 0
    totalOomKills := 0
    activeTaskCount := 0 }

/-! ## Reclaim -/

/-- `atomic_fetch_add` on a zone's `free_pages`. -/
def SysMemZone.addFree (z : SysMemZone) (n : Nat) : SysMemZone :=
  { z with freePages := wrap32 (z.freePages + n) }

/-- The pages `sys_shrink_slab_caches` takes back from one zone. -/
def slabReclaim (z : SysMemZone) : Nat :=
  if z.freePages < z.wmLow then
    let targetReclaim := sub32 z.wmHigh z.freePages
    if targetReclaim > 100 then 100 else targetReclaim
  else 0

/-- `atomic_fetch_add(&g_sys_ctrl.total_reclaimed, reclaimed)` -/
def SysOomCtrl.addReclaimed (c : SysOomCtrl) (reclaimed : Nat) : SysOomCtrl :=
  { c with totalReclaimed := wrap32 (c.totalReclaimed + reclaimed) }

def sysShrinkSlabCaches (c : SysOomCtrl) : SysOomCtrl × Nat :=
  let reclaimed := wrap32 (slabReclaim (c.zones zoneDma) + slabReclaim (c.zones zoneNormal) +
    slabReclaim (c.zones zoneHighmem))
  (SysOomCtrl.addReclaimed
    { c with zones := fun i => (c.zones i).addFree (slabReclaim (c.zones i)) } reclaimed, reclaimed)

def sysShrinkPageCache (c : SysOomCtrl) : SysOomCtrl × Nat :=
  let zone := c.zones zoneNormal
  if zone.freePages < zone.wmHigh then
    let reclaimed := (zone.wmHigh - zone.freePages) / 2
    (SysOomCtrl.addReclaimed
      { c with zones := Function.update c.zones zoneNormal (zone.addFree reclaimed) } reclaimed,
      reclaimed)
  else (c.addReclaimed 0, 0)

/-! ## The killer -/

/-- `score` after the `nice_value` step, in `uint32_t` arithmetic. -/
def niceScore (score : Nat) (niceValue : Int) : Nat :=
  if niceValue > 0 then
    wrap32 (score + wrap32 (score * niceValue.toNat) / 20)
  else if niceValue < 0 then
    sub32 score (wrap32 (score * (-niceValue).toNat) / 20)
  else score

def sysCalculateBadness (task : SysTask) (totalPages : Nat) : Except Halt Nat :=
  if task.flags.testBit oomFlagUnkillable then .ok 0
  else if task.state = .dead ∨ task.state = .zombie then .ok 0
  else if task.oomScoreAdj = oomScoreAdjMin then .ok 0
  else if totalPages = 0 then .error .divideError
  else
    let score := niceScore (wrap32 (task.rssPages * oomScoreMax) / totalPages) task.niceValue
    let score := if task.flags.testBit oomFlagCritical then score / 4 else score
    let adjustedScore := toInt32 (toInt32 score + task.oomScoreAdj * 10)
    if adjustedScore ≤ 0 then .ok 1
    else if adjustedScore > oomScoreMax then .ok oomScoreMax
    else .ok adjustedScore.toNat

/-- `total_sys_pages` -/
def SysOomCtrl.totalSysPages (c : SysOomCtrl) : Nat :=
  wrap32 ((c.zones zoneDma).managedPages + (c.zones zoneNormal).managedPages +
    (c.zones zoneHighmem).managedPages)

/-- The loop of `sys_select_bad_process` over the array entries `is`; the accumulator is
`(chosen_victim, highest_score)`. -/
def selectBadLoop (c : SysOomCtrl) : List Nat → Nat × Nat → Except Halt (Nat × Nat)
  | [], acc => .ok acc
  | i :: is, acc =>
      let task := c.taskArray i
      if task = 0 then selectBadLoop c is acc
      else
        match sysCalculateBadness (c.tasks task) c.totalSysPages with
        | .error h => .error h
        | .ok currentScore =>
            if currentScore > acc.2 then selectBadLoop c is (task, currentScore)
            else selectBadLoop c is acc

/-- The address of the chosen task, or `0`. -/
def sysSelectBadProcess (c : SysOomCtrl) : Except Halt Nat :=
  (selectBadLoop c (List.range c.activeTaskCount) (0, 0)).map Prod.fst

def sysSendSigkill (c : SysOomCtrl) (victim : Nat) : SysOomCtrl :=
  let task := c.tasks victim
  { c with
    zones := Function.update c.zones zoneNormal ((c.zones zoneNormal).addFree task.rssPages)
    tasks := Function.update c.tasks victim
      { task with state := .dead, rssPages := 0, virtualPages := 0 }
    totalOomKills := wrap32 (c.totalOomKills + 1) }

/-- It returns only after a kill: without a victim, or on a victim it must not kill, it panics. -/
def sysTriggerOomKiller (c : SysOomCtrl) : Except Halt SysOomCtrl :=
  match sysSelectBadProcess c with
  | .error h => .error h
  | .ok victim =>
      if victim = 0 then .error (.panic 0xDEAD0001)
      else if (c.tasks victim).pid = 1 ∨ (c.tasks victim).flags.testBit oomFlagCritical then
        .error (.panic (c.tasks victim).pid)
      else .ok (sysSendSigkill c victim)

/-! ## Allocation -/

/-- The address `sys_alloc_pages` hands out. -/
def pageAddress (totalReclaimed : Nat) : Nat :=
  wrap32 (0x10000000 + wrap32 (totalReclaimed * pageSize))

/-- The admission test of `sys_alloc_pages`. -/
def SysMemZone.admits (z : SysMemZone) (count : Nat) : Bool :=
  decide (wrap32 (count + z.wmMin) ≤ z.freePages)

/-- `atomic_fetch_sub` on `free_pages`. -/
def SysMemZone.subFree (z : SysMemZone) (n : Nat) : SysMemZone :=
  { z with freePages := sub32 z.freePages n }

/-- The body of an admitted request. -/
def serve (c : SysOomCtrl) (zone : ZoneIdx) (count : Nat) : SysOomCtrl × Nat :=
  ({ c with zones := Function.update c.zones zone ((c.zones zone).subFree count) },
    pageAddress c.totalReclaimed)

/-- What is tried before the next attempt, by `retry_count`. -/
inductive ReclaimStage
  | slab
  | pageCache
  | killer
  deriving DecidableEq, Repr

def ReclaimStage.run : ReclaimStage → SysOomCtrl → Except Halt SysOomCtrl
  | .slab, c => .ok (sysShrinkSlabCaches c).1
  | .pageCache, c => .ok (sysShrinkPageCache c).1
  | .killer, c => sysTriggerOomKiller c

/-- The stages `retry_count` walks through. -/
def retryStages : List ReclaimStage := [.slab, .pageCache, .killer]

/-- `retry_allocation`: the controller state in which the request passes the admission test. -/
def retryAllocation (zone : ZoneIdx) (count : Nat) :
    List ReclaimStage → SysOomCtrl → Except Halt SysOomCtrl
  | [], c => if (c.zones zone).admits count then .ok c else .error (.panic 0xDEAD0002)
  | stage :: stages, c =>
      if (c.zones zone).admits count then .ok c
      else
        match stage.run c with
        | .error h => .error h
        | .ok c' => retryAllocation zone count stages c'

/-- The zone a C index denotes, if it denotes one. -/
def zoneOfInt (zoneIdx : Int) : Option ZoneIdx :=
  if h : 0 ≤ zoneIdx ∧ zoneIdx < maxNrZones then some ⟨zoneIdx.toNat, by omega⟩ else none

/-- The returned address is `0` (`NULL`) for an index that denotes no zone. -/
def sysAllocPages (c : SysOomCtrl) (zoneIdx : Int) (count : Nat) : Except Halt (SysOomCtrl × Nat) :=
  match zoneOfInt zoneIdx with
  | none => .ok (c, 0)
  | some zone =>
      match retryAllocation zone count retryStages c with
      | .error h => .error h
      | .ok c' => .ok (serve c' zone count)

def sysRegisterTask (c : SysOomCtrl) (newTask : Nat) : Except Halt SysOomCtrl :=
  if c.activeTaskCount < sysMaxTasks then
    .ok { c with
      taskArray := Function.update c.taskArray c.activeTaskCount newTask
      activeTaskCount := c.activeTaskCount + 1 }
  else .error (.panic 0xDEAD0003)

/-- The loop of `sys_oom_monitor_check`. -/
def monitorLoop : List ZoneIdx → SysOomCtrl → Except Halt SysOomCtrl
  | [], c => .ok c
  | i :: is, c =>
      if (c.zones i).freePages < (c.zones i).wmMin then
        match sysTriggerOomKiller c with
        | .error h => .error h
        | .ok c' => monitorLoop is c'
      else monitorLoop is c

def sysOomMonitorCheck (c : SysOomCtrl) : Except Halt SysOomCtrl :=
  monitorLoop [zoneDma, zoneNormal, zoneHighmem] c

end Oom
end WhitexKernel
