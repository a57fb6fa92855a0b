import WhitexKernel.Sched.System

/-!
# Registration — what a failed registration leaves behind

`scheduler_register_process` draws a PID before its first request for memory and registers the task
node before its second, and takes neither back.  So the only failure that leaves the kernel as it was
is the one it notices before it begins, that of a full process table.

The requests go through `scheduler_allocate_memory`; here it is any function that yields an address or
`NULL`, so that every pattern of their results is covered.
-/

namespace WhitexKernel
namespace Sched

open Machine Oom

/-- An allocator: the state after a request for so many bytes, and the address, `0` for `NULL`. -/
abbrev Allocator : Type := SysOomCtrl → Nat → Except Halt (SysOomCtrl × Nat)

/-- `scheduler_register_process` on an allocator. -/
def registerWith (alloc : Allocator) (k : Kernel)
    (entryPoint priority initialRss allocationFlags : Nat) : Except Halt (Kernel × ErrCode) :=
  if k.sched.activeProcessCount ≥ sysMaxTasks then .ok (k, .memOutOfMem)
  else do
    let (k, generatedPid) := k.drawPid
    let (oom, node) ← alloc k.oom sizeofSysTask
    if node = 0 then return ({ k with oom := oom }, .memFault)
    let oom := { oom with
      tasks := Function.update oom.tasks node
        (newSysTask generatedPid k.sched.current.taskId initialRss allocationFlags) }
    let oom ← sysRegisterTask oom node
    let (oom, stackRaw) ← alloc oom schedStackSize
    if stackRaw = 0 then return ({ k with oom := oom }, .memFault)
    return ({ k with
      oom := oom
      sched := k.sched.addProcess entryPoint generatedPid priority initialRss allocationFlags
        stackRaw }, .ok)

theorem registerWith_schedulerAllocateMemory (k : Kernel) (entryPoint priority rss flags : Nat) :
    registerWith schedulerAllocateMemory k entryPoint priority rss flags =
      schedulerRegisterProcess k entryPoint priority rss flags := rfl

/-! ## The two requests -/

/-- The controller with the record of the new task, which is not registered yet. -/
def withNode (k : Kernel) (oom : SysOomCtrl) (node rss flags : Nat) : SysOomCtrl :=
  { oom with
    tasks := Function.update oom.tasks node
      (newSysTask k.sched.globalProcessIdentifierSeed k.sched.current.taskId rss flags) }

/-- The request for the task node yields `NULL`. -/
def NullNode (alloc : Allocator) (k : Kernel) : Prop :=
  ∃ oom, alloc k.oom sizeofSysTask = .ok (oom, 0)

/-- The request for the stack, made with the node registered, yields `NULL`. -/
def NullStack (alloc : Allocator) (k : Kernel) (rss flags : Nat) : Prop :=
  ∃ oom node oom' oom'', alloc k.oom sizeofSysTask = .ok (oom, node) ∧ node ≠ 0 ∧
    sysRegisterTask (withNode k oom node rss flags) node = .ok oom' ∧
    alloc oom' schedStackSize = .ok (oom'', 0)

/-- The code of a registration says which of its tests failed first. -/
theorem registerWith_cases {alloc : Allocator} {k k' : Kernel} {code : ErrCode}
    {entryPoint priority rss flags : Nat}
    (h : registerWith alloc k entryPoint priority rss flags = .ok (k', code)) :
    (sysMaxTasks ≤ k.sched.activeProcessCount ∧ k' = k) ∨
    (k.sched.activeProcessCount < sysMaxTasks ∧
      (NullNode alloc k ∨ NullStack alloc k rss flags)) ∨
    code = .ok := by
  unfold registerWith at h
  -- the tests of the source in their order
  split at h
  case isTrue hfull =>
    cases h
    exact .inl ⟨hfull, rfl⟩
  case isFalse hroom =>
    have hroom : k.sched.activeProcessCount < sysMaxTasks := Nat.lt_of_not_le hroom
    simp only [bind, Except.bind, pure, Except.pure] at h
    split at h
    · cases h
    case h_2 r hnode =>
      split at h
      case isTrue hnull =>
        refine .inr (.inl ⟨hroom, .inl ⟨r.1, ?_⟩⟩)
        rw [← hnull]
        exact hnode
      case isFalse hnull =>
        split at h
        · cases h
        case h_2 oom' hregister =>
          split at h
          · cases h
          case h_2 r' hstack =>
            split at h
            case isTrue hnull' =>
              refine .inr (.inl ⟨hroom, .inr ⟨r.1, r.2, oom', r'.1, hnode, hnull, hregister, ?_⟩⟩)
              rw [← hnull']
              exact hstack
            case isFalse =>
              cases h
              exact .inr (.inr rfl)

/-- With room in the table, a `NULL` makes the registration fail, and its PID is gone. -/
theorem registerWith_null {alloc : Allocator} {k : Kernel} {entryPoint priority rss flags : Nat}
    (hroom : k.sched.activeProcessCount < sysMaxTasks)
    (hnull : NullNode alloc k ∨ NullStack alloc k rss flags) :
    ∃ k', registerWith alloc k entryPoint priority rss flags = .ok (k', .memFault) ∧
      k'.sched.globalProcessIdentifierSeed = wrap32 (k.sched.globalProcessIdentifierSeed + 1) := by
  have hfull : ¬ k.sched.activeProcessCount ≥ sysMaxTasks := Nat.not_le_of_lt hroom
  rcases hnull with ⟨oom, hnode⟩ | ⟨oom, node, oom', oom'', hnode, hne, hregister, hstack⟩
  · have hdrawn : alloc k.drawPid.1.oom sizeofSysTask = .ok (oom, 0) := hnode
    refine ⟨{ k.drawPid.1 with oom := oom }, ?_, rfl⟩
    simp [registerWith, hfull, bind, Except.bind, hdrawn, pure, Except.pure]
  · have hdrawn : alloc k.drawPid.1.oom sizeofSysTask = .ok (oom, node) := hnode
    have hregistered : sysRegisterTask
        { oom with
          tasks := Function.update oom.tasks node
            (newSysTask k.drawPid.2 k.drawPid.1.sched.current.taskId rss flags) } node =
        .ok oom' := hregister
    refine ⟨{ k.drawPid.1 with oom := oom'' }, ?_, rfl⟩
    simp [registerWith, hfull, bind, Except.bind, hdrawn, hne, hregistered, hstack, pure,
      Except.pure]

/-! ## Atomicity -/

/-- The tables and counters are as before, and no zone has fewer free pages. -/
structure Untouched (k k' : Kernel) : Prop where
  processTable : k'.sched.processTable = k.sched.processTable
  activeProcessCount : k'.sched.activeProcessCount = k.sched.activeProcessCount
  seed : k'.sched.globalProcessIdentifierSeed = k.sched.globalProcessIdentifierSeed
  autoPid : k'.autoPid = k.autoPid
  taskArray : k'.oom.taskArray = k.oom.taskArray
  activeTaskCount : k'.oom.activeTaskCount = k.oom.activeTaskCount
  pages : ∀ zone, (k.oom.zones zone).freePages ≤ (k'.oom.zones zone).freePages

theorem Untouched.refl (k : Kernel) : Untouched k k :=
  { processTable := rfl
    activeProcessCount := rfl
    seed := rfl
    autoPid := rfl
    taskArray := rfl
    activeTaskCount := rfl
    pages := fun _ => Nat.le_refl _ }

/-- Drawing a PID shows. -/
theorem wrap32_succ_ne (n : Nat) : wrap32 (n + 1) ≠ n := by
  unfold wrap32
  omega

/-- A registration that fails leaves the kernel untouched exactly when the process table is full, or
none of its requests yields `NULL`, so that it does not fail. -/
theorem registerAtomic_iff (alloc : Allocator) (k : Kernel)
    (entryPoint priority rss flags : Nat) :
    (∀ k' code, registerWith alloc k entryPoint priority rss flags = .ok (k', code) →
        code ≠ .ok → Untouched k k') ↔
      sysMaxTasks ≤ k.sched.activeProcessCount ∨
        (¬ NullNode alloc k ∧ ¬ NullStack alloc k rss flags) := by
  constructor
  · intro hatomic
    rcases Nat.lt_or_ge k.sched.activeProcessCount sysMaxTasks with hroom | hfull
    · -- a failure after the draw would have changed the seed
      have hserved : ¬ (NullNode alloc k ∨ NullStack alloc k rss flags) := by
        intro hnull
        rcases @registerWith_null _ _ entryPoint priority _ _ hroom hnull with
          ⟨k', hfailed, hseed⟩
        have hsame := (hatomic k' .memFault hfailed (by simp)).seed
        exact wrap32_succ_ne _ (hseed.symm.trans hsame)
      exact .inr (not_or.1 hserved)
    · exact .inl hfull
  · intro hcond k' code h hcode
    rcases registerWith_cases h with ⟨_, rfl⟩ | ⟨hroom, hnull⟩ | hok
    · exact .refl _
    · rcases hcond with hfull | ⟨hnode, hstack⟩
      · exact absurd hfull (Nat.not_le_of_lt hroom)
      · exact absurd hnull (not_or.2 ⟨hnode, hstack⟩)
    · exact absurd hok hcode

/-- A machine on which `0xF0000` pages have been reclaimed: the address of the next page wraps around
to `NULL`. -/
def wornKernel : Kernel :=
  { (System.boot (coldKernel 4096)).kernel with
    oom := { (coldKernel 4096).oom with totalReclaimed := 0xF0000 } }

/-- There a registration fails, and keeps the PID 100. -/
theorem registerAtomic_false :
    ¬ ∀ (k : Kernel) (entryPoint priority rss flags : Nat) (k' : Kernel) (code : ErrCode),
      schedulerRegisterProcess k entryPoint priority rss flags = .ok (k', code) →
        code ≠ .ok → Untouched k k' := by
  intro h
  have hnode : NullNode schedulerAllocateMemory wornKernel := ⟨_, rfl⟩
  have hroom : wornKernel.sched.activeProcessCount < sysMaxTasks := by decide
  have hnull : NullNode schedulerAllocateMemory wornKernel ∨
      NullStack schedulerAllocateMemory wornKernel 128 0 := .inl hnode
  rcases @registerWith_null _ _ 0 20 128 0 hroom hnull with ⟨k', hfailed, hseed⟩
  have hsame := (h wornKernel 0 20 128 0 k' .memFault hfailed (by simp)).seed
  exact wrap32_succ_ne _ (hseed.symm.trans hsame)

end Sched
end WhitexKernel
