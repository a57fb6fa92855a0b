import Mathlib.Algebra.BigOperators.Group.Finset.Piecewise
import Mathlib.Algebra.Order.BigOperators.Group.Finset
import WhitexKernel.Oom.Zones

/-!
# Watermarks — no zone falls below its minimum

With zones, requests and tasks of the sizes the callers use, no sum of the allocator wraps around.
The pages that the killer can credit to `ZONE_NORMAL` are those of the registered tasks, and a task
that has been credited holds none any more; so free pages and held pages together stay bounded, and
every admitted request leaves the minimum watermark.
-/

namespace WhitexKernel
namespace Oom

open Lib Machine

/-! ## Sums over the registered tasks -/

namespace SysOomCtrl

/-- The addresses of the registered tasks. -/
def registered (c : SysOomCtrl) : Finset Nat :=
  (Finset.range c.activeTaskCount).image c.taskArray

/-- The pages of the registered tasks. -/
def heldPages (c : SysOomCtrl) : Nat := ∑ a ∈ c.registered, (c.tasks a).rssPages

theorem update_rssPages (tasks : Nat → SysTask) (a : Nat) (task : SysTask) :
    (fun b => (Function.update tasks a task b).rssPages) =
      Function.update (fun b => (tasks b).rssPages) a task.rssPages := by
  funext b
  exact Function.apply_update (fun _ (t : SysTask) => t.rssPages) tasks a task b

/-- What the killer credits is what its victim held. -/
theorem heldPages_sysSendSigkill {c : SysOomCtrl} {victim : Nat} (h : victim ∈ c.registered) :
    (sysSendSigkill c victim).heldPages + (c.tasks victim).rssPages = c.heldPages := by
  have hsum : (sysSendSigkill c victim).heldPages =
      ∑ a ∈ c.registered, Function.update (fun b => (c.tasks b).rssPages) victim 0 a := by
    unfold SysOomCtrl.heldPages sysSendSigkill
    rw [← update_rssPages c.tasks victim
      { c.tasks victim with state := .dead, rssPages := 0, virtualPages := 0 }]
    rfl
  rw [hsum, Finset.sum_update_of_mem h, Finset.sdiff_singleton_eq_erase, Nat.zero_add]
  exact Finset.sum_erase_add _ _ h

/-- The controller with the record `task` at `node`, registered. -/
def withTask (c : SysOomCtrl) (node : Nat) (task : SysTask) : SysOomCtrl :=
  { c with
    tasks := Function.update c.tasks node task
    taskArray := Function.update c.taskArray c.activeTaskCount node
    activeTaskCount := c.activeTaskCount + 1 }

theorem registered_withTask (c : SysOomCtrl) (node : Nat) (task : SysTask) :
    (c.withTask node task).registered = insert node c.registered := by
  have hold : (Finset.range c.activeTaskCount).image
      (Function.update c.taskArray c.activeTaskCount node) = c.registered := by
    refine Finset.image_congr fun i hi => ?_
    have hne : i ≠ c.activeTaskCount := Nat.ne_of_lt (Finset.mem_range.1 hi)
    exact Function.update_of_ne hne _ _
  have hnew : (c.withTask node task).registered = (Finset.range (c.activeTaskCount + 1)).image
      (Function.update c.taskArray c.activeTaskCount node) := rfl
  rw [hnew, Finset.range_add_one, Finset.image_insert, Function.update_self, hold]

/-- A registration adds at most the pages of the new task. -/
theorem heldPages_withTask_le (c : SysOomCtrl) (node : Nat) (task : SysTask) :
    (c.withTask node task).heldPages ≤ c.heldPages + task.rssPages := by
  have hsum : (c.withTask node task).heldPages = ∑ a ∈ insert node c.registered,
      Function.update (fun b => (c.tasks b).rssPages) node task.rssPages a := by
    unfold heldPages
    rw [registered_withTask, ← update_rssPages]
    rfl
  rw [hsum]
  by_cases hmem : node ∈ c.registered
  · -- the record is filled again: what it held before is gone
    rw [Finset.insert_eq_of_mem hmem, Finset.sum_update_of_mem hmem, Nat.add_comm]
    have hless : ∑ a ∈ c.registered \ {node}, (c.tasks a).rssPages ≤ c.heldPages :=
      Finset.sum_le_sum_of_subset Finset.sdiff_subset
    exact Nat.add_le_add_right hless _
  · rw [Finset.sum_insert hmem, Function.update_self, Nat.add_comm]
    refine Nat.add_le_add_right (Nat.le_of_eq (Finset.sum_congr rfl fun a ha => ?_)) _
    have hne : a ≠ node := fun h => hmem (h ▸ ha)
    exact Function.update_of_ne hne _ _

/-- Every zone has its minimum. -/
def AboveMin (c : SysOomCtrl) : Prop := ∀ i, (c.zones i).wmMin ≤ (c.zones i).freePages

/-- With every zone above its minimum the monitor does nothing. -/
theorem AboveMin.monitorCheck {c : SysOomCtrl} (hc : c.AboveMin) :
    sysOomMonitorCheck c = .ok c := by
  have hskip : ∀ is, monitorLoop is c = .ok c := by
    intro is
    induction is with
    | nil => rfl
    | cons i is ih =>
        unfold monitorLoop
        rw [if_neg (Nat.not_lt.2 (hc i))]
        exact ih
  exact hskip _

end SysOomCtrl

theorem SameTasks.heldPages {c c' : SysOomCtrl} (h : SameTasks c c') :
    c'.heldPages = c.heldPages := by
  unfold SysOomCtrl.heldPages SysOomCtrl.registered
  rw [h.taskArray, h.activeTaskCount, h.tasks]

open SysOomCtrl

/-- A request for at most `2 ^ 20` pages, a task with at most 2048 pages, or no size at all. -/
def ZoneAction.Modest : ZoneAction → Prop
  | .alloc _ count => count.toNat ≤ 2 ^ 20
  | .registerTask _ task => task.rssPages ≤ 2048
  | _ => True

/-! ## The invariant -/

/-- The zones are of at most `2 ^ 20` pages and above their minimum, and the free pages of
`ZONE_NORMAL` together with the held pages exceed its size by at most what the registered tasks came
with. -/
structure Steady (c : SysOomCtrl) : Prop where
  sound : ∀ i, (c.zones i).Sound
  size : ∀ i, (c.zones i).managedPages ≤ 2 ^ 20
  minSize : ∀ i, (c.zones i).wmMin ≤ 2 ^ 20
  aboveMin : c.AboveMin
  tasks : c.activeTaskCount ≤ sysMaxTasks
  held : c.heldPages ≤ 2048 * c.activeTaskCount
  bound : (c.zones zoneNormal).freePages + c.heldPages ≤ 2 ^ 20 + 2048 * c.activeTaskCount

namespace Steady

/-- Reclaiming stops at the high watermark. -/
theorem replenished {c c' : SysOomCtrl} (hc : Steady c) (hsame : SameTasks c c')
    (h : ∀ i, Replenished (c.zones i) (c'.zones i)) : Steady c' :=
  { sound := fun i => (h i).sound (hc.sound i)
    size := fun i => (h i).managedPages ▸ hc.size i
    minSize := fun i => (h i).wmMin ▸ hc.minSize i
    aboveMin := fun i => (h i).wmMin ▸ Nat.le_trans (hc.aboveMin i) (h i).more
    tasks := hsame.activeTaskCount ▸ hc.tasks
    held := by
      rw [hsame.heldPages, hsame.activeTaskCount]
      exact hc.held
    bound := by
      have hbound := (h zoneNormal).bound
      have hhigh := (hc.sound zoneNormal).high
      have hsize := hc.size zoneNormal
      have hheld := hc.held
      have hsum := hc.bound
      rw [hsame.heldPages, hsame.activeTaskCount]
      omega }

/-- The pages of a victim fit, and they are held no longer. -/
theorem kill {c : SysOomCtrl} {victim : Nat} (hc : Steady c)
    (hselect : sysSelectBadProcess c = .ok victim) (hnull : victim ≠ 0) :
    Steady (sysSendSigkill c victim) := by
  -- the victim is registered, so its pages are among those that are held
  have hmem : victim ∈ c.registered := by
    rcases sysSelectBadProcess_registered hselect hnull with ⟨i, hi, hvictim⟩
    exact Finset.mem_image.2 ⟨i, Finset.mem_range.2 hi, hvictim⟩
  have hheld := heldPages_sysSendSigkill hmem
  have hcount : (sysSendSigkill c victim).activeTaskCount = c.activeTaskCount := rfl
  have htasks : c.activeTaskCount ≤ 1024 := hc.tasks
  have hbound := hc.bound
  -- they come back to `ZONE_NORMAL`, without wrapping around
  have hfree : ((c.zones zoneNormal).addFree (c.tasks victim).rssPages).freePages =
      (c.zones zoneNormal).freePages + (c.tasks victim).rssPages := by
    refine wrap32_of_lt ?_
    omega
  have hnormal : (sysSendSigkill c victim).zones zoneNormal =
      (c.zones zoneNormal).addFree (c.tasks victim).rssPages := by
    rw [sysSendSigkill_zones, if_pos rfl]
  refine
    { sound := sysSendSigkill_sound hc.sound victim
      size := fun i => ?_
      minSize := fun i => ?_
      aboveMin := fun i => ?_
      tasks := hc.tasks
      held := ?_
      bound := ?_ }
  · rw [sysSendSigkill_zones]
    split
    · exact hc.size zoneNormal
    · exact hc.size i
  · rw [sysSendSigkill_zones]
    split
    · exact hc.minSize zoneNormal
    · exact hc.minSize i
  · rw [sysSendSigkill_zones]
    split
    · rw [hfree, SysMemZone.addFree_wmMin]
      exact Nat.le_trans (hc.aboveMin zoneNormal) (Nat.le_add_right _ _)
    · exact hc.aboveMin i
  · have hold := hc.held
    rw [hcount]
    omega
  · rw [hnormal, hfree, hcount]
    omega

/-- An admitted request leaves the minimum. -/
theorem serve {c : SysOomCtrl} {zone : ZoneIdx} {count : Nat} (hc : Steady c)
    (hadmits : (c.zones zone).admits count = true) (hcount : count ≤ 2 ^ 20) :
    Steady (Oom.serve c zone count).1 := by
  have hmin := hc.minSize zone
  -- the request is modest, so the sum in the admission test does not wrap
  have hserved := (served_iff (hc.sound zone) hadmits).2 (by omega)
  have hheld : (Oom.serve c zone count).1.heldPages = c.heldPages := rfl
  have htasks : (Oom.serve c zone count).1.activeTaskCount = c.activeTaskCount := rfl
  refine
    { sound := fun i => ?_
      size := fun i => ?_
      minSize := fun i => ?_
      aboveMin := fun i => ?_
      tasks := hc.tasks
      held := hc.held
      bound := ?_ }
  · rw [serve_zones]
    split
    · exact (hc.sound zone).subFree _
    · exact hc.sound i
  · rw [serve_zones]
    split
    · exact hc.size zone
    · exact hc.size i
  · rw [serve_zones]
    split
    · exact hc.minSize zone
    · exact hc.minSize i
  · rw [serve_zones]
    split
    · have hsame : ((c.zones zone).subFree count).wmMin = (c.zones zone).wmMin := rfl
      omega
    · exact hc.aboveMin i
  · have hbound := hc.bound
    rw [serve_zones, hheld, htasks]
    split
    case isTrue hzone =>
      subst hzone
      omega
    case isFalse => exact hbound

theorem retryAllocation {c admitted : SysOomCtrl} {zone : ZoneIdx} {count : Nat} (hc : Steady c)
    (h : Oom.retryAllocation zone count retryStages c = .ok admitted) : Steady admitted := by
  have hcaches : Steady (reclaimCaches c) :=
    hc.replenished (reclaimCaches_sameTasks c) (reclaimCaches_replenished hc.sound)
  rcases retryAllocation_cases h with
    ⟨_, ⟨_, rfl | rfl | rfl⟩ | ⟨victim, _, hselect, hnull, rfl⟩⟩
  · exact hc
  · exact hc.replenished (sysShrinkSlabCaches_sameTasks c)
      (sysShrinkSlabCaches_replenished hc.sound)
  · exact hcaches
  · exact hcaches.kill hselect hnull

theorem step {c t : SysOomCtrl} {a : ZoneAction} (hc : Steady c) (ha : a.Modest)
    (h : c.step a = some t) : Steady t := by
  cases a with
  | alloc zoneIdx count =>
      rcases alloc_cases h with ⟨_, rfl⟩ | ⟨zone, admitted, _, hretry, rfl⟩
      · exact hc
      · exact (hc.retryAllocation hretry).serve (retryAllocation_cases hretry).1 ha
  | registerTask node task =>
      have hrun := run_of_step h
      simp only [run, sysRegisterTask] at hrun
      split at hrun
      case isFalse => cases hrun
      case isTrue hroom =>
        cases hrun
        -- a task brings at most its own pages, and the sum is bounded by the number of tasks
        have hadded := heldPages_withTask_le c node task
        have htask : task.rssPages ≤ 2048 := ha
        have hheld := hc.held
        have hbound := hc.bound
        exact
          { sound := hc.sound
            size := hc.size
            minSize := hc.minSize
            aboveMin := hc.aboveMin
            tasks := hroom
            held := by
              change (c.withTask node task).heldPages ≤ 2048 * (c.activeTaskCount + 1)
              omega
            bound := by
              change (c.zones zoneNormal).freePages + (c.withTask node task).heldPages ≤
                2 ^ 20 + 2048 * (c.activeTaskCount + 1)
              omega }
  | triggerOomKiller =>
      rcases sysTriggerOomKiller_cases (run_of_step h) with ⟨victim, hselect, hnull, rfl⟩
      exact hc.kill hselect hnull
  | monitorCheck =>
      have hrun := run_of_step h
      simp only [run, hc.aboveMin.monitorCheck] at hrun
      cases hrun
      exact hc

end Steady

/-! ## Runs -/

theorem initZone_min_le {pages divMin divLow divHigh : Nat} :
    (initZone pages divMin divLow divHigh).wmMin ≤ pages := Nat.div_le_self _ _

theorem steady_boot (c : SysOomCtrl) {dmaPages normalPages highmemPages : UInt32}
    (hdma : dmaPages.toNat ≤ 2 ^ 20) (hnormal : normalPages.toNat ≤ 2 ^ 20)
    (hhighmem : highmemPages.toNat ≤ 2 ^ 20) :
    Steady (c.boot dmaPages normalPages highmemPages) := by
  have hzones := boot_zones c dmaPages normalPages highmemPages
  have hsize : ∀ i, ((c.boot dmaPages normalPages highmemPages).zones i).managedPages ≤ 2 ^ 20 ∧
      ((c.boot dmaPages normalPages highmemPages).zones i).wmMin ≤
        ((c.boot dmaPages normalPages highmemPages).zones i).managedPages := by
    intro i
    simp only [boot, sysOomInit]
    split
    · exact ⟨hdma, initZone_min_le⟩
    · split
      · exact ⟨hnormal, initZone_min_le⟩
      · exact ⟨hhighmem, initZone_min_le⟩
  -- no task is registered yet
  have hcount : (c.boot dmaPages normalPages highmemPages).activeTaskCount = 0 := rfl
  have hheld : (c.boot dmaPages normalPages highmemPages).heldPages = 0 := by
    unfold heldPages SysOomCtrl.registered
    rw [hcount, Finset.range_zero, Finset.image_empty, Finset.sum_empty]
  refine
    { sound := fun i => (hzones i).1
      size := fun i => (hsize i).1
      minSize := fun i => Nat.le_trans (hsize i).2 (hsize i).1
      aboveMin := fun i => ?_
      tasks := Nat.zero_le _
      held := ?_
      bound := ?_ }
  · rw [(hzones i).2]
    exact (hsize i).2
  · rw [hheld]
    exact Nat.zero_le _
  · rw [(hzones zoneNormal).2, hheld, hcount, Nat.add_zero, Nat.mul_zero, Nat.add_zero]
    exact (hsize zoneNormal).1

/-- Over every run from `sys_oom_init` with zones of at most `2 ^ 20` pages, requests for at most
`2 ^ 20` pages and tasks with at most 2048 pages, every zone keeps its minimum, so that the monitor
never invokes the killer. -/
theorem aboveMin_run (c : SysOomCtrl) {dmaPages normalPages highmemPages : UInt32}
    (hdma : dmaPages.toNat ≤ 2 ^ 20) (hnormal : normalPages.toNat ≤ 2 ^ 20)
    (hhighmem : highmemPages.toNat ≤ 2 ^ 20) {as : List ZoneAction} (has : ∀ a ∈ as, a.Modest) :
    AllStates SysOomCtrl.step (fun t => t.AboveMin ∧ sysOomMonitorCheck t = .ok t)
      (c.boot dmaPages normalPages highmemPages) as := by
  have hmodest : AllSteps SysOomCtrl.step (fun _ a => a.Modest)
      (c.boot dmaPages normalPages highmemPages) as := allSteps_of_forall_mem has _
  refine (allStates_of_allSteps ?_ (steady_boot c hdma hnormal hhighmem) hmodest).mono ?_
  · intro c a t hc ha h
    exact hc.step ha h
  · intro t ht
    exact ⟨ht.aboveMin, ht.aboveMin.monitorCheck⟩

/-- A request that has to reclaim and to kill the only task. -/
theorem aboveMin_run_killing :
    AllStates SysOomCtrl.step (fun t => t.AboveMin ∧ sysOomMonitorCheck t = .ok t)
      (SysOomCtrl.zero.boot 4096 4096 4096)
      [.registerTask 0x1000 (SysTask.mk 101 100 .running 0 0 128 256 0), .alloc 1 4000,
        .alloc 1 100, .monitorCheck] := by
  refine aboveMin_run SysOomCtrl.zero (by decide) (by decide) (by decide) fun a ha => ?_
  simp only [List.mem_cons, List.not_mem_nil, or_false] at ha
  rcases ha with rfl | rfl | rfl | rfl
  · exact Nat.le_of_ble_eq_true rfl
  · exact Nat.le_of_ble_eq_true rfl
  · exact Nat.le_of_ble_eq_true rfl
  · trivial

end Oom
end WhitexKernel
