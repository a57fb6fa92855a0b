import WhitexKernel.Oom.Pages
import WhitexKernel.Sched.Model

/-!
# Memory — the pages a registration takes

`scheduler_register_process` asks for a page for the `sys_task_t` node and a page for the stack.  In
the runs of the page allocator it is two requests with the registration of the node in between; when
neither of them has to reclaim, both get the same page.
-/

namespace WhitexKernel
namespace Sched

open Lib Machine Oom

theorem schedulerAllocateMemory_sizeofSysTask (c : SysOomCtrl) :
    schedulerAllocateMemory c sizeofSysTask = sysAllocPages c 1 1 := rfl

theorem schedulerAllocateMemory_stack (c : SysOomCtrl) :
    schedulerAllocateMemory c schedStackSize = sysAllocPages c 1 1 := rfl

/-- The memory side of a registration that returns `ERR_OK`. -/
theorem schedulerRegisterProcess_memory {k k' : Kernel} {entryPoint priority rss flags : Nat}
    (h : schedulerRegisterProcess k entryPoint priority rss flags = .ok (k', .ok)) :
    ∃ c₁ node task c₂ stackRaw, sysAllocPages k.oom 1 1 = .ok (c₁, node) ∧ node ≠ 0 ∧
      sysRegisterTask { c₁ with tasks := Function.update c₁.tasks node task } node = .ok c₂ ∧
      sysAllocPages c₂ 1 1 = .ok (k'.oom, stackRaw) ∧ stackRaw ≠ 0 ∧
      (k'.sched.processTable k.sched.activeProcessCount).stackMemoryBlock = stackRaw := by
  unfold schedulerRegisterProcess at h
  by_cases hfull : k.sched.activeProcessCount ≥ sysMaxTasks
  · simp only [hfull, if_true, Except.ok.injEq, Prod.mk.injEq] at h
    cases h.2
  · simp only [hfull, if_false, bind, Except.bind, pure, Except.pure,
      schedulerAllocateMemory_sizeofSysTask, schedulerAllocateMemory_stack] at h
    -- every branch but the last returns another code
    split at h
    · cases h
    case h_2 r hnode =>
      split at h
      · cases h
      case isFalse hnull =>
        split at h
        · cases h
        case h_2 c₂ hregister =>
          split at h
          · cases h
          case h_2 r' hstack =>
            split at h
            · cases h
            case isFalse hnull' =>
              cases h
              refine ⟨r.1, r.2, _, c₂, r'.2, hnode, hnull, hregister, hstack, hnull', ?_⟩
              simp [SchedulerState.addProcess, newPcb, Kernel.drawPid]

/-- A registration is a run of the page allocator that grants the node and the stack. -/
theorem register_pages {k k' : Kernel} {entryPoint priority rss flags : Nat}
    (h : schedulerRegisterProcess k entryPoint priority rss flags = .ok (k', .ok))
    (grants : List PageGrant) :
    ∃ node task node' stack', exec PageState.step { ctrl := k.oom, grants := grants }
        [.alloc 1 1, .registerTask node task, .alloc 1 1] =
          some { ctrl := k'.oom, grants := stack' :: node' :: grants } ∧
      node'.address = node ∧
      stack'.address =
        (k'.sched.processTable k.sched.activeProcessCount).stackMemoryBlock := by
  rcases schedulerRegisterProcess_memory h with
    ⟨c₁, node, task, c₂, stackRaw, hnode, hnull, hregister, hstack, hnull', htable⟩
  -- an address that is not `NULL` is computed from the reclaim counter
  have haddress : ∀ {c c' : SysOomCtrl} {p : Nat}, sysAllocPages c 1 1 = .ok (c', p) → p ≠ 0 →
      pageAddress c'.totalReclaimed = p := by
    intro c c' p halloc hp
    rcases sysAllocPages_cases halloc with ⟨_, _, hzero⟩ | ⟨_, _, _, _, hr, hpage⟩
    · exact absurd hzero hp
    · rw [hr, hpage]
  refine ⟨node, task, { reclaimed := c₁.totalReclaimed, count := 1 },
    { reclaimed := k'.oom.totalReclaimed, count := 1 }, ?_, haddress hnode hnull, ?_⟩
  · simp [PageState.step, PageState.alloc, PageState.withCtrl, hnode, hnull, hregister, hstack,
      hnull']
  · rw [htable]
    exact haddress hstack hnull'

/-- A request that is admitted at once. -/
theorem sysAllocPages_of_admits {c : SysOomCtrl} {count : Nat}
    (h : (c.zones zoneNormal).admits count = true) :
    sysAllocPages c 1 count = .ok (serve c zoneNormal count) := by
  have hzone : zoneOfInt 1 = some zoneNormal := by decide
  simp [sysAllocPages, hzone, retryStages, retryAllocation, h]

/-- A registration that finds memory for the node of its task, and then at once for its stack. -/
theorem register_served {k : Kernel} {c : SysOomCtrl} {node : Nat}
    (hroom : k.sched.activeProcessCount < sysMaxTasks)
    (hnode : sysAllocPages k.oom 1 1 = .ok (c, node)) (hne : node ≠ 0)
    (htasks : c.activeTaskCount < sysMaxTasks) (hadmits : (c.zones zoneNormal).admits 1 = true)
    (hstack : pageAddress c.totalReclaimed ≠ 0) (entryPoint priority rss flags : Nat) :
    ∃ k', schedulerRegisterProcess k entryPoint priority rss flags = .ok (k', .ok) ∧
      k'.sched = k.drawPid.1.sched.addProcess entryPoint k.sched.globalProcessIdentifierSeed priority
        rss flags (pageAddress c.totalReclaimed) := by
  have halloc : schedulerAllocateMemory k.drawPid.1.oom sizeofSysTask = .ok (c, node) := hnode
  -- a registered node changes neither the zones nor the number of pages reclaimed
  have hsecond : ∀ taskArray count tasks,
      let c' := { c with taskArray := taskArray, activeTaskCount := count, tasks := tasks }
      schedulerAllocateMemory c' schedStackSize =
        .ok ((serve c' zoneNormal 1).1, pageAddress c.totalReclaimed) := by
    intro taskArray count tasks
    exact (schedulerAllocateMemory_stack _).trans (sysAllocPages_of_admits hadmits)
  unfold schedulerRegisterProcess
  rw [if_neg (Nat.not_le.2 hroom)]
  simp only [bind, Except.bind, halloc]
  rw [if_neg hne]
  simp only [sysRegisterTask, htasks, if_true]
  rw [hsecond]
  simp only
  rw [if_neg hstack]
  exact ⟨_, rfl, rfl⟩

/-- When neither request of a registration has to reclaim, the node of the new task and the stack
of the new process are the same page. -/
theorem register_overlap {k k' : Kernel} {entryPoint priority rss flags : Nat}
    (h : schedulerRegisterProcess k entryPoint priority rss flags = .ok (k', .ok))
    (hfirst : (k.oom.zones zoneNormal).admits 1 = true)
    (hsecond : ((k.oom.zones zoneNormal).subFree 1).admits 1 = true) :
    (k'.sched.processTable k.sched.activeProcessCount).stackMemoryBlock =
      k'.oom.taskArray k.oom.activeTaskCount := by
  rcases schedulerRegisterProcess_memory h with
    ⟨c₁, node, task, c₂, stackRaw, hnode, _, hregister, hstack, _, htable⟩
  rw [sysAllocPages_of_admits hfirst] at hnode
  cases hnode
  unfold sysRegisterTask at hregister
  split at hregister
  case isFalse => cases hregister
  case isTrue =>
    cases hregister
    rw [sysAllocPages_of_admits (by simpa [serve, zoneNormal] using hsecond)] at hstack
    rw [htable]
    cases hk : k' with
    | mk sched oom autoPid =>
        rw [hk] at hstack
        cases hstack
        simp

end Sched
end WhitexKernel
