import WhitexKernel.Sched.Events

/-!
# Pids — when a PID denotes at most one live process

`scheduler_initialize` gives the master process the PID 100 and starts the seed of new PIDs at 100
as well, so the first process registered gets the master's PID.  A run keeps the PIDs of live
processes distinct exactly as long as every registration draws a PID no live process carries, and
no dead process comes back to life under a PID that is taken.
-/

namespace WhitexKernel
namespace Sched

open Lib Machine Oom

/-- No two live entries of the process table carry the same PID. -/
def DistinctLivePids (s : System) : Prop :=
  ∀ i j, i < s.sched.activeProcessCount → j < s.sched.activeProcessCount →
    (s.sched.processTable i).executionState ≠ .dead →
    (s.sched.processTable j).executionState ≠ .dead →
    (s.sched.processTable i).taskId = (s.sched.processTable j).taskId → i = j

theorem distinctLivePids_iff (s : System) : DistinctLivePids s ↔ (view s.sched).PidsUnique := by
  constructor
  · intro h i j hi hj hij
    exact h i j hi.1 hj.1 hi.2 hj.2 hij
  · intro h i j hi hj hli hlj hij
    exact h i j ⟨hi, hli⟩ ⟨hj, hlj⟩ hij

/-- The turn neither completes a registration under a PID that a live process carries, nor brings
a dead process back, by blocking it, under such a PID. -/
def DrawsFreshPid (s : System) (a : Action) : Prop :=
  (view s.sched).KeepsPidsUnique (lifecycleEvent s a)

theorem distinctLivePids_boot (k : Kernel) : DistinctLivePids (System.boot k) := by
  intro i j hi hj _ _ _
  simp [System.boot, schedulerInitialize] at hi hj
  omega

/-- One turn keeps the PIDs distinct exactly when it draws a fresh one. -/
theorem distinctLivePids_step_iff {s t : System} {a : Action} (hrun : RunningInTable s.sched)
    (hs : DistinctLivePids s) (h : s.step a = some t) :
    DistinctLivePids t ↔ DrawsFreshPid s a := by
  rw [distinctLivePids_iff, step_view h]
  exact Lifecycle.pidsUnique_apply_iff ((distinctLivePids_iff s).1 hs) (step_enabled hrun a)

/-- Over every run from `scheduler_initialize`, the PIDs of live processes stay distinct exactly
when every turn draws a fresh PID. -/
theorem distinctLivePids_run_iff (k : Kernel) (as : List Action) :
    AllStates System.step DistinctLivePids (System.boot k) as ↔
      AllSteps System.step DrawsFreshPid (System.boot k) as := by
  refine allStates_iff_allSteps (J := fun s => RunningInTable s.sched) ?_ ?_
    (runningInTable_boot k) (distinctLivePids_boot k)
  · intro s a t hs h
    exact hs.step h
  · intro s a t hrun hs h
    exact distinctLivePids_step_iff hrun hs h

/-- The run that only registers one process leaves two live processes with the PID 100. -/
theorem distinctLivePids_run_false :
    ¬ ∀ (k : Kernel) (as : List Action),
      AllStates System.step DistinctLivePids (System.boot k) as := by
  intro h
  have hrun : (exec System.step (System.boot (coldKernel 4096))
      [.call (.registerProcess 0x100000 schedDefaultPriority 128 0)]).any
        (fun t => decide (t.sched.activeProcessCount = 2) &&
          decide ((t.sched.processTable 0).executionState = .running) &&
          decide ((t.sched.processTable 1).executionState = .running) &&
          decide ((t.sched.processTable 0).taskId = (t.sched.processTable 1).taskId)) = true := by
    decide
  rcases exists_of_exec_any hrun with ⟨t, hexec, ht⟩
  simp only [Bool.and_eq_true, decide_eq_true_eq] at ht
  rcases ht with ⟨⟨⟨hcount, h0⟩, h1⟩, hpid⟩
  have heq := (h _ _).last hexec 0 1 (by omega) (by omega) (by simp [h0]) (by simp [h1]) hpid
  cases heq

end Sched
end WhitexKernel
