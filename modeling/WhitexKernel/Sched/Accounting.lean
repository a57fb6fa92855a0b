import Mathlib.Algebra.BigOperators.Group.Finset.Piecewise
import Mathlib.Data.Nat.ModEq
import WhitexKernel.Sched.Turns

/-!
# Accounting — every tick is charged once

A switch charges the ticks since the current process was scheduled to it, and counts itself at the
process it switches to.  So the ticks charged so far reach exactly up to the tick at which the
current process was scheduled (`Charged`), whatever else is done in between; all the counters are
32 bits wide and wrap around, so this holds modulo `2 ^ 32`.
-/

namespace WhitexKernel
namespace Sched

open Lib Machine Oom SchedulerState

namespace SchedulerState

/-- The sum of a counter over all processes. -/
def total (s : SchedulerState) (counter : PerformanceMetrics → Nat) : Nat :=
  ∑ i ∈ Finset.range s.activeProcessCount, counter (s.processTable i).metrics

/-- The ticks that are not charged yet. -/
def currentSlice (s : SchedulerState) : Nat :=
  sub32 s.kernelElapsedTicks s.current.metrics.lastScheduledTick

/-- All ticks that have elapsed are charged or belong to the current process, and every switch is
counted at one process. -/
structure TimeConserved (s : SchedulerState) : Prop where
  ticks : s.total PerformanceMetrics.totalExecutionTicks + s.currentSlice ≡
    s.kernelElapsedTicks [MOD 2 ^ 32]
  switches : s.total PerformanceMetrics.contextSwitches ≡ s.schedulerCycles [MOD 2 ^ 32]

/-- The ticks up to the one at which the current process was scheduled are charged. -/
structure Charged (s : SchedulerState) : Prop where
  running : RunningInTable s
  ticks : s.total PerformanceMetrics.totalExecutionTicks ≡
    s.current.metrics.lastScheduledTick [MOD 2 ^ 32]
  switches : s.total PerformanceMetrics.contextSwitches ≡ s.schedulerCycles [MOD 2 ^ 32]

end SchedulerState

/-! ## Counters modulo `2 ^ 32` -/

theorem wrap32_modEq (n : Nat) : wrap32 n ≡ n [MOD 2 ^ 32] := Nat.mod_modEq n _

theorem add_sub32_modEq (a b : Nat) : b + sub32 a b ≡ a [MOD 2 ^ 32] := by
  unfold sub32 Nat.ModEq
  omega

theorem SchedulerState.Charged.timeConserved {s : SchedulerState} (hs : s.Charged) :
    s.TimeConserved := by
  refine ⟨?_, hs.switches⟩
  have hslice : s.current.metrics.lastScheduledTick + s.currentSlice ≡
      s.kernelElapsedTicks [MOD 2 ^ 32] := add_sub32_modEq _ _
  exact (hs.ticks.add_right _).trans hslice

/-- Rewriting an entry so that its counter grows by `d`. -/
theorem total_modifyPcb {s : SchedulerState} {i d : Nat} {counter : PerformanceMetrics → Nat}
    {f : ProcessControlBlock → ProcessControlBlock} (hi : i < s.activeProcessCount)
    (h : counter (f (s.processTable i)).metrics ≡
      counter (s.processTable i).metrics + d [MOD 2 ^ 32]) :
    (s.modifyPcb i f).total counter ≡ s.total counter + d [MOD 2 ^ 32] := by
  have hmem : i ∈ Finset.range s.activeProcessCount := Finset.mem_range.2 hi
  have hothers : ∑ j ∈ (Finset.range s.activeProcessCount).erase i,
      counter ((s.modifyPcb i f).processTable j).metrics =
      ∑ j ∈ (Finset.range s.activeProcessCount).erase i, counter (s.processTable j).metrics := by
    refine Finset.sum_congr rfl fun j hj => ?_
    rw [modifyPcb_of_ne s (Finset.ne_of_mem_erase hj) f]
  unfold total
  rw [modifyPcb_activeProcessCount, ← Finset.add_sum_erase _ _ hmem,
    ← Finset.add_sum_erase _ (fun j => counter (s.processTable j).metrics) hmem, hothers,
    modifyPcb_self, Nat.add_right_comm]
  exact h.add_right _

/-! ## What keeps the counters -/

namespace SchedulerState

/-- `t` has the counters of `s`. -/
structure SameMetrics (s t : SchedulerState) : Prop where
  metrics : ∀ i, (t.processTable i).metrics = (s.processTable i).metrics
  count : t.activeProcessCount = s.activeProcessCount
  running : t.runningProcessIndex = s.runningProcessIndex
  cycles : t.schedulerCycles = s.schedulerCycles

theorem Quiet.sameMetrics {s t : SchedulerState} (h : Quiet s t) : SameMetrics s t :=
  ⟨h.metrics, h.count, h.running, h.cycles⟩

namespace SameMetrics

variable {s t u : SchedulerState}

theorem trans (hst : SameMetrics s t) (htu : SameMetrics t u) : SameMetrics s u :=
  ⟨fun i => (htu.metrics i).trans (hst.metrics i), htu.count.trans hst.count,
    htu.running.trans hst.running, htu.cycles.trans hst.cycles⟩

/-- Rewriting an entry, its counters apart. -/
theorem modifyPcb (s : SchedulerState) (i : Nat) {f : ProcessControlBlock → ProcessControlBlock}
    (hf : ∀ pcb, (f pcb).metrics = pcb.metrics) : SameMetrics s (s.modifyPcb i f) :=
  ⟨fun j => modifyPcb_field s i j hf, rfl, rfl, rfl⟩

theorem total (h : SameMetrics s t) (counter : PerformanceMetrics → Nat) :
    t.total counter = s.total counter := by
  unfold SchedulerState.total
  rw [h.count]
  exact Finset.sum_congr rfl fun i _ => by rw [h.metrics]

theorem charged (h : SameMetrics s t) (hs : s.Charged) : t.Charged := by
  have hcurrent : t.current.metrics = s.current.metrics := by
    unfold current
    rw [h.running, h.metrics]
  refine ⟨?_, ?_, ?_⟩
  · unfold RunningInTable
    rw [h.running, h.count]
    exact hs.running
  · rw [h.total, hcurrent]
    exact hs.ticks
  · rw [h.total, h.cycles]
    exact hs.switches

end SameMetrics

end SchedulerState

theorem tick_sameMetrics (s : SchedulerState) : SameMetrics s s.tick :=
  ⟨fun _ => rfl, rfl, rfl, rfl⟩

theorem schedulerApplyAging_sameMetrics (s : SchedulerState) :
    SameMetrics s (schedulerApplyAging s) := by
  refine ⟨fun i => ?_, rfl, rfl, rfl⟩
  unfold schedulerApplyAging agePcb
  simp only
  split
  · split <;> rfl
  · rfl

theorem Woken.sameMetrics {s t : SchedulerState} (h : Woken s t) : SameMetrics s t := by
  refine ⟨fun i => ?_, ?_, ?_, ?_⟩
  · rcases h.entry i with hi | ⟨_, hi⟩
    · rw [hi]
    · rw [hi]
      rfl
  all_goals rw [h.rest]

theorem schedulerSelectNextCandidate_sameMetrics (s : SchedulerState) :
    SameMetrics s (schedulerSelectNextCandidate s).1 := by
  have hage := schedulerApplyAging_sameMetrics s
  have hwoken : SameMetrics s (selectLoop (schedulerApplyAging s)).1 :=
    hage.trans (selectLoop_spec _ _ _ _ (Woken.refl _)).woken.sameMetrics
  unfold schedulerSelectNextCandidate
  simp only
  split
  · exact ⟨fun _ => rfl, rfl, rfl, rfl⟩
  · split
    · exact hwoken.trans (SameMetrics.modifyPcb (f := resetPriority) _ _ fun _ => rfl)
    · exact hwoken

/-! ## Switching -/

namespace SchedulerState

theorem Charged.switchTo {s : SchedulerState} {next : Nat} (hs : s.Charged)
    (hnext : next < s.activeProcessCount) :
    (switchTo s s.runningProcessIndex next).Charged := by
  unfold Sched.switchTo
  generalize hu : SchedulerState.mk _ _ _ _ _ _ = u
  have hcount : u.activeProcessCount = s.activeProcessCount := by rw [← hu]
  have htable : u.processTable = s.processTable := by rw [← hu]
  have htotal : ∀ counter, u.total counter = s.total counter := by
    intro counter
    unfold total
    rw [hcount, htable]
  -- the process that is switched away from is charged its slice
  have hcharged : (u.modifyPcb s.runningProcessIndex (chargeTicks s.kernelElapsedTicks)).total
      PerformanceMetrics.totalExecutionTicks ≡ s.kernelElapsedTicks [MOD 2 ^ 32] := by
    refine (total_modifyPcb (d := s.currentSlice) (hcount ▸ hs.running) ?_).trans ?_
    · rw [htable]
      exact wrap32_modEq _
    · rw [htotal]
      exact (hs.ticks.add_right _).trans (add_sub32_modEq _ _)
  have hcounted : (u.modifyPcb s.runningProcessIndex (chargeTicks s.kernelElapsedTicks)).total
      PerformanceMetrics.contextSwitches ≡ s.schedulerCycles [MOD 2 ^ 32] := by
    refine (total_modifyPcb (d := 0) (hcount ▸ hs.running) (Nat.ModEq.refl _)).trans ?_
    rw [htotal]
    exact hs.switches
  have hrunning : (u.modifyPcb s.runningProcessIndex
      (chargeTicks s.kernelElapsedTicks)).runningProcessIndex = next := by rw [← hu]; rfl
  have hcycles : (u.modifyPcb s.runningProcessIndex
      (chargeTicks s.kernelElapsedTicks)).schedulerCycles = wrap32 (s.schedulerCycles + 1) := by
    rw [← hu]
    rfl
  have hin : next < (u.modifyPcb s.runningProcessIndex
      (chargeTicks s.kernelElapsedTicks)).activeProcessCount := hcount ▸ hnext
  generalize u.modifyPcb s.runningProcessIndex (chargeTicks s.kernelElapsedTicks) = v at *
  -- the process that is switched to counts the switch, and starts a slice
  have hcurrent : (v.modifyPcb next (markScheduled s.kernelElapsedTicks)).current =
      markScheduled s.kernelElapsedTicks (v.processTable next) := by
    have hindex : (v.modifyPcb next (markScheduled s.kernelElapsedTicks)).runningProcessIndex =
        next := hrunning
    unfold current
    rw [hindex, modifyPcb_self]
  refine ⟨?_, ?_, ?_⟩
  · exact hrunning.symm ▸ hin
  · rw [hcurrent]
    exact (total_modifyPcb (d := 0) hin (Nat.ModEq.refl _)).trans hcharged
  · refine (total_modifyPcb (d := 1) hin (wrap32_modEq _)).trans ((hcounted.add_right 1).trans ?_)
    have hcycles' : (v.modifyPcb next (markScheduled s.kernelElapsedTicks)).schedulerCycles =
        wrap32 (s.schedulerCycles + 1) := hcycles
    rw [hcycles']
    exact (wrap32_modEq _).symm

theorem Charged.schedulerYield {s : SchedulerState} (hs : s.Charged) : (schedulerYield s).Charged := by
  have htick := (tick_sameMetrics s).charged hs
  unfold Sched.schedulerYield
  simp only
  split
  · exact htick
  case isFalse hcount =>
    have hselect := schedulerSelectNextCandidate_sameMetrics s.tick
    have hselected := hselect.charged htick
    have hspec := schedulerSelectNextCandidate_spec s.tick (by omega)
    split
    · exact hselected
    case isFalse hother =>
      rw [← hselect.running]
      refine hselected.switchTo ?_
      rw [hselect.count]
      -- the candidate is an entry in use, or entry 0
      by_cases hsome : ∃ i, i < s.tick.activeProcessCount ∧ s.tick.Eligible i
      · exact (hspec.chosen hsome).1
      · rw [hspec.fallback hsome]
        omega

/-- A new process has used no time yet. -/
theorem Charged.addProcess {s : SchedulerState} (hs : s.Charged)
    (entryPoint pid priority rss flags stackRaw : Nat) :
    (s.addProcess entryPoint pid priority rss flags stackRaw).Charged := by
  have hold : ∀ i, i ≠ s.activeProcessCount →
      (s.addProcess entryPoint pid priority rss flags stackRaw).processTable i =
        s.processTable i := by
    intro i hi
    unfold Sched.SchedulerState.addProcess
    simp only [modifyPcb_of_ne _ hi]
  have hnew : ((s.addProcess entryPoint pid priority rss flags stackRaw).processTable
      s.activeProcessCount).metrics =
        { PerformanceMetrics.zero with
          executionStartTick := s.kernelElapsedTicks
          lastScheduledTick := s.kernelElapsedTicks } := by
    unfold Sched.SchedulerState.addProcess
    simp only [modifyPcb_self]
    rfl
  have hcount : (s.addProcess entryPoint pid priority rss flags stackRaw).activeProcessCount =
      s.activeProcessCount + 1 := rfl
  -- the new entry counts from zero, so it adds nothing to any total
  have htotal : ∀ counter : PerformanceMetrics → Nat,
      counter { PerformanceMetrics.zero with
        executionStartTick := s.kernelElapsedTicks
        lastScheduledTick := s.kernelElapsedTicks } = 0 →
      (s.addProcess entryPoint pid priority rss flags stackRaw).total counter =
        s.total counter := by
    intro counter hzero
    unfold total
    rw [hcount, Finset.sum_range_succ, hnew, hzero, Nat.add_zero]
    refine Finset.sum_congr rfl fun i hi => ?_
    rw [hold i (Nat.ne_of_lt (Finset.mem_range.1 hi))]
  have hcurrent : (s.addProcess entryPoint pid priority rss flags stackRaw).current = s.current :=
    hold _ (Nat.ne_of_lt hs.running)
  refine ⟨Nat.lt_succ_of_lt hs.running, ?_, ?_⟩
  · rw [htotal _ rfl, hcurrent]
    exact hs.ticks
  · rw [htotal _ rfl]
    exact hs.switches

end SchedulerState

/-! ## Whole runs -/

theorem charged_boot (k : Kernel) : (System.boot k).sched.Charged := by
  have hmetrics : ((System.boot k).sched.processTable 0).metrics = PerformanceMetrics.zero := by
    unfold System.boot schedulerInitialize
    simp [masterPcb, clearPcb, PerformanceMetrics.zero, sysMaxTasks]
  have htotal : ∀ counter, (System.boot k).sched.total counter =
      counter PerformanceMetrics.zero := by
    intro counter
    have hcount : (System.boot k).sched.activeProcessCount = 1 := rfl
    unfold total
    rw [hcount, Finset.sum_range_one, hmetrics]
  have hcurrent : (System.boot k).sched.current.metrics = PerformanceMetrics.zero := hmetrics
  refine ⟨runningInTable_boot k, ?_, ?_⟩
  · rw [htotal, hcurrent]
    rfl
  · rw [htotal]
    rfl

theorem Turned.charged {s t : SchedulerState} {a : Action} {yieldedIn : Option SchedulerState}
    (h : Turned s a yieldedIn t) (hs : s.Charged) : t.Charged := by
  cases h with
  | quiet hquiet => exact hquiet.sameMetrics.charged hs
  | yielded hquiet => exact (hquiet.sameMetrics.charged hs).schedulerYield
  | added pid stackRaw _ hquiet _ => exact (hquiet.sameMetrics.charged hs).addProcess _ _ _ _ _ _

/-- Over every run from `scheduler_initialize`, whatever the machine held before, no tick is lost and
none is charged twice, and every switch is counted once. -/
theorem timeConserved_run (k : Kernel) (as : List Action) :
    AllStates System.step (fun t => t.sched.TimeConserved) (System.boot k) as := by
  have hrun : AllStates System.step (fun t => t.sched.Charged) (System.boot k) as :=
    allStates_of_invariant (fun s _ t hs h => (System.step_turned h).charged hs) (charged_boot k) as
  exact hrun.mono fun _ ht => ht.timeConserved

end Sched
end WhitexKernel
