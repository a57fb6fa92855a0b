import WhitexKernel.Sched.Aging

/-!
# Choice — the selection as a whole

`Selects` states everything `scheduler_select_next_candidate` does: whom it returns, which entries it
changes, and in what way.  The selection compares the priorities as the aging step has left them, and
the first of the best wins.
-/

namespace WhitexKernel
namespace Sched

open Lib Machine Oom SchedulerState

namespace SchedulerState

/-- Process `i` is ready and had gone to sleep until a tick that has come. -/
def SleepExpired (s : SchedulerState) (i : Nat) : Prop :=
  (s.processTable i).executionState = .running ∧ 0 < (s.processTable i).sleepUntilTick ∧
    (s.processTable i).sleepUntilTick ≤ s.kernelElapsedTicks

instance (s : SchedulerState) (i : Nat) : Decidable (s.SleepExpired i) := by
  unfold SleepExpired
  infer_instance

/-- Entry `i` after the aging step and the end of its sleep. -/
def agedAndWoken (s : SchedulerState) (i : Nat) : ProcessControlBlock :=
  let aged := if s.Aged i then agePcb (s.processTable i) else s.processTable i
  if i < s.activeProcessCount ∧ s.SleepExpired i then wakePcb aged else aged

end SchedulerState

/-- The result of a selection when somebody is eligible: the first of the eligible processes with the
highest priority, and a table in which nothing else has changed. -/
structure Selects (s : SchedulerState) (r : SchedulerState × Nat) : Prop where
  in_use : r.2 < s.activeProcessCount
  eligible : s.Eligible r.2
  maximal : ∀ j, j < s.activeProcessCount → s.Eligible j →
    (s.agedAndWoken j).dynamicPriority ≤ (s.agedAndWoken r.2).dynamicPriority
  lowest : ∀ j, j < s.activeProcessCount → s.Eligible j →
    (s.agedAndWoken j).dynamicPriority = (s.agedAndWoken r.2).dynamicPriority → r.2 ≤ j
  table : ∀ i, r.1.processTable i =
    if i = r.2 then resetPriority (s.agedAndWoken i) else s.agedAndWoken i
  rest : r.1 = { s with processTable := r.1.processTable }

/-! ## The table after the loop -/

/-- An eligible process whose sleep has not expired has not gone to sleep. -/
theorem sleepUntilTick_of_not_expired {s : SchedulerState} {i : Nat} (hel : s.Eligible i)
    (h : ¬ s.SleepExpired i) : (s.processTable i).sleepUntilTick = 0 := by
  have hawake := hel.2
  unfold ProcessControlBlock.asleep at hawake
  unfold SleepExpired at h
  simp only [Bool.and_eq_false_iff, decide_eq_false_iff_not] at hawake
  rcases hawake with hzero | hcome
  · omega
  · by_contra hpos
    exact h ⟨hel.1, Nat.pos_of_ne_zero hpos, Nat.le_of_not_lt hcome⟩

/-- Only processes that are eligible have slept long enough. -/
theorem SchedulerState.SleepExpired.eligible {s : SchedulerState} {i : Nat}
    (h : s.SleepExpired i) : s.Eligible i := by
  refine ⟨h.1, ?_⟩
  unfold ProcessControlBlock.asleep
  have hcome : ¬ s.kernelElapsedTicks < (s.processTable i).sleepUntilTick := Nat.not_lt.2 h.2.2
  simp [hcome]

theorem wakePcb_of_zero {pcb : ProcessControlBlock} (h : pcb.sleepUntilTick = 0) :
    wakePcb pcb = pcb := by
  unfold wakePcb
  rw [← h]

/-- The loop wakes the eligible entries, one after another. -/
theorem selectLoop_table (s : SchedulerState) (n i : Nat) (start : Candidate) :
    ((List.range n).foldl selectStep (s, start)).1.processTable i =
      if i < n ∧ s.Eligible i then wakePcb (s.processTable i) else s.processTable i := by
  induction n with
  | zero => simp
  | succ n ih =>
      rw [List.range_succ, List.foldl_append, List.foldl_cons, List.foldl_nil]
      have hwoken : Woken s ((List.range n).foldl selectStep (s, start)).1 :=
        (selectLoop_spec s _ _ start (Woken.refl s)).woken
      generalize (List.range n).foldl selectStep (s, start) = t at ih hwoken ⊢
      have hlast : (selectStep t n).1.processTable i =
          if i = n ∧ s.Eligible n then wakePcb (t.1.processTable n) else t.1.processTable i := by
        -- eligible and better, eligible and no better, or not eligible: the first two wake it
        rcases selectStep_cases t.1 t.2 n with
          ⟨hel, _, _, _, hstep⟩ | ⟨hel, _, hstep⟩ | ⟨hel, hstep⟩
        · have hsel := (hwoken.eligible_iff n).1 hel
          rw [show t = (t.1, t.2) from rfl, hstep, modifyPcb_processTable]
          simp [hsel]
        · have hsel := (hwoken.eligible_iff n).1 hel
          rw [show t = (t.1, t.2) from rfl, hstep, modifyPcb_processTable]
          simp [hsel]
        · have hsel : ¬ s.Eligible n := fun h => hel ((hwoken.eligible_iff n).2 h)
          rw [show t = (t.1, t.2) from rfl, hstep]
          simp [hsel]
      rw [hlast]
      by_cases hin : i = n
      · subst hin
        have hsame : t.1.processTable i = s.processTable i := by
          rw [ih]
          simp
        simp only [true_and, hsame, Nat.lt_succ_self]
      · have hlt : i < n + 1 ↔ i < n := by omega
        simp only [hin, false_and, if_false, hlt]
        exact ih

theorem schedulerApplyAging_table (s : SchedulerState) (i : Nat) :
    (schedulerApplyAging s).processTable i =
      if s.Aged i then agePcb (s.processTable i) else s.processTable i := by
  unfold schedulerApplyAging Aged
  rfl

/-- After the loop the table is aged, and the processes whose sleep has expired are awake. -/
theorem selectLoop_agedAndWoken (s : SchedulerState) (i : Nat) :
    (selectLoop (schedulerApplyAging s)).1.processTable i = s.agedAndWoken i := by
  have htable := selectLoop_table (schedulerApplyAging s) s.activeProcessCount i
    { bestIndex := 0, highestPriority := 0, found := false }
  simp only [schedulerApplyAging_eligible_iff, schedulerApplyAging_table] at htable
  unfold selectLoop agedAndWoken
  rw [show (schedulerApplyAging s).activeProcessCount = s.activeProcessCount from rfl, htable]
  -- an eligible process whose sleep has not expired is not asleep at all
  have hsleep : (if s.Aged i then agePcb (s.processTable i) else s.processTable i).sleepUntilTick =
      (s.processTable i).sleepUntilTick := by
    split
    · exact agePcb_sleepUntilTick _
    · rfl
  by_cases hexpired : s.SleepExpired i
  · simp only [hexpired, hexpired.eligible]
  · by_cases hel : s.Eligible i
    · have hzero := hsleep.trans (sleepUntilTick_of_not_expired hel hexpired)
      simp only [hexpired, and_false, wakePcb_of_zero hzero, ite_self]
    · simp only [hexpired, hel, and_false, if_false]

/-! ## The selection -/

/-- Waking leaves the priorities. -/
theorem agedAndWoken_dynamicPriority (s : SchedulerState) (i : Nat) :
    (s.agedAndWoken i).dynamicPriority =
      ((schedulerApplyAging s).processTable i).dynamicPriority := by
  unfold agedAndWoken
  rw [schedulerApplyAging_table]
  simp only
  split
  · rfl
  · rfl

/-- For every state with an eligible process, the selection returns the first eligible process of
the highest priority after one aging step, resets its priority, ends the sleeps that have expired,
and changes nothing else. -/
theorem schedulerSelectNextCandidate_selects (s : SchedulerState)
    (hsome : ∃ i, i < s.activeProcessCount ∧ s.Eligible i) :
    Selects s (schedulerSelectNextCandidate s) := by
  rcases hsome with ⟨i, hi, hel⟩
  have hbest := selectLoop_best (schedulerApplyAging s)
  have hwoken : Woken (schedulerApplyAging s) (selectLoop (schedulerApplyAging s)).1 :=
    (selectLoop_spec _ _ _ _ (Woken.refl _)).woken
  have hseen : ∀ j, j < s.activeProcessCount →
      j ∈ List.range (schedulerApplyAging s).activeProcessCount := fun j hj => List.mem_range.2 hj
  -- somebody is found, since somebody is eligible
  have hfound : (selectLoop (schedulerApplyAging s)).2.found = true := by
    by_contra hnone
    exact hbest.none (Bool.eq_false_iff.2 hnone) i (hseen i hi)
      ((schedulerApplyAging_eligible_iff s i).2 hel)
  have hselect : schedulerSelectNextCandidate s =
      ((selectLoop (schedulerApplyAging s)).1.modifyPcb
        (selectLoop (schedulerApplyAging s)).2.bestIndex resetPriority,
        (selectLoop (schedulerApplyAging s)).2.bestIndex) := by
    have hcount : ¬ s.activeProcessCount = 0 := by omega
    unfold schedulerSelectNextCandidate
    rw [if_neg hcount, if_pos hfound]
  have hprefer : ∀ j, j < s.activeProcessCount → s.Eligible j →
      (s.agedAndWoken j).dynamicPriority <
          (s.agedAndWoken (schedulerSelectNextCandidate s).2).dynamicPriority ∨
        (s.agedAndWoken j).dynamicPriority =
          (s.agedAndWoken (schedulerSelectNextCandidate s).2).dynamicPriority ∧
          (schedulerSelectNextCandidate s).2 ≤ j := by
    intro j hj hje
    have hj' := hbest.best hfound j (hseen j hj) ((schedulerApplyAging_eligible_iff s j).2 hje)
    rw [hbest.priority hfound] at hj'
    rw [agedAndWoken_dynamicPriority, agedAndWoken_dynamicPriority, hselect]
    exact hj'
  have hmem := hbest.mem hfound
  refine
    { in_use := ?_
      eligible := ?_
      maximal := fun j hj hje => ?_
      lowest := fun j hj hje heq => ?_
      table := fun j => ?_
      rest := ?_ }
  · rw [hselect]
    exact List.mem_range.1 hmem.1
  · rw [hselect]
    exact (schedulerApplyAging_eligible_iff s _).1 hmem.2
  · rcases hprefer j hj hje with hless | ⟨heq, _⟩
    · exact Nat.le_of_lt hless
    · exact Nat.le_of_eq heq
  · rcases hprefer j hj hje with hless | ⟨_, hle⟩
    · omega
    · exact hle
  · rw [hselect, modifyPcb_processTable]
    dsimp only
    split
    case isTrue h => rw [h, selectLoop_agedAndWoken]
    case isFalse => exact selectLoop_agedAndWoken s j
  · rw [hselect]
    unfold modifyPcb
    rw [hwoken.rest]
    rfl

/-- Entry `pid - 100`: a process of this base priority, with what aging and sleeping have left. -/
def queuedPcb (pid : Nat) (st : TaskState) (base dynamic accumulation wakeTick : Nat) :
    ProcessControlBlock :=
  { ProcessControlBlock.zero with
    taskId := pid
    executionState := st
    basePriority := base
    dynamicPriority := dynamic
    accumulationCycles := accumulation
    sleepUntilTick := wakeTick }

/-- Tick 900 of five processes.  Entry 1 is one selection away from priority 31, which entry 2 has
already; entry 2 has slept until tick 880; entry 3 sleeps until tick 950, and entry 4 waits for a
message. -/
def crowdedTable : SchedulerState :=
  { processTable := fun i =>
      [queuedPcb 100 .running 20 20 0 0, queuedPcb 101 .running 20 30 499 0,
        queuedPcb 102 .running 25 31 17 880, queuedPcb 103 .running 90 90 3 950,
        queuedPcb 104 .blocked 95 95 0 0].getD i ProcessControlBlock.zero
    activeProcessCount := 5
    runningProcessIndex := 0
    schedulerCycles := 40
    globalProcessIdentifierSeed := 105
    kernelElapsedTicks := 900 }

/-- In the crowded table aging makes entries 1 and 2 equal, the lower one is chosen, and the expired
sleep is ended although its process is not chosen. -/
theorem schedulerSelectNextCandidate_selects_crowdedTable :
    Selects crowdedTable (schedulerSelectNextCandidate crowdedTable) ∧
      (schedulerSelectNextCandidate crowdedTable).2 = 1 ∧
      crowdedTable.Eligible 2 ∧ crowdedTable.SleepExpired 2 ∧ ¬ crowdedTable.Eligible 3 ∧
      (crowdedTable.agedAndWoken 1).dynamicPriority =
        (crowdedTable.agedAndWoken 2).dynamicPriority :=
  ⟨schedulerSelectNextCandidate_selects crowdedTable ⟨1, by decide, by decide⟩, by decide, by decide,
    by decide, by decide, by decide⟩

end Sched
end WhitexKernel
