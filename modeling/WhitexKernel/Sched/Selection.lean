import WhitexKernel.Sched.System

/-!
# Selection — what `scheduler_yield` changes, and whom it makes current

* the *core* of a table entry is everything but its scheduling bookkeeping (priorities, sleep
  deadline and metrics); no yield changes it;
* `Eligible` is the condition under which the selection loop considers an entry;
* the process that is current after a yield is eligible whenever the loop found anybody.
-/

namespace WhitexKernel
namespace Sched

open Lib Machine Oom

/-! ## The part of an entry that no yield changes -/

/-- An entry with its scheduling bookkeeping cleared. -/
def ProcessControlBlock.core (pcb : ProcessControlBlock) : ProcessControlBlock :=
  { pcb with
    dynamicPriority := 0
    accumulationCycles := 0
    metrics := PerformanceMetrics.zero
    sleepUntilTick := 0 }

namespace SchedulerState

/-- `t` has the same processes as `s`, up to scheduling bookkeeping. -/
structure SameCore (s t : SchedulerState) : Prop where
  core : ∀ i, (t.processTable i).core = (s.processTable i).core
  count : t.activeProcessCount = s.activeProcessCount
  seed : t.globalProcessIdentifierSeed = s.globalProcessIdentifierSeed

namespace SameCore

variable {s t u : SchedulerState}

theorem refl (s : SchedulerState) : SameCore s s := ⟨fun _ => rfl, rfl, rfl⟩

theorem trans (hst : SameCore s t) (htu : SameCore t u) : SameCore s u :=
  ⟨fun i => (htu.core i).trans (hst.core i), htu.count.trans hst.count, htu.seed.trans hst.seed⟩

theorem taskId (h : SameCore s t) (i : Nat) :
    (t.processTable i).taskId = (s.processTable i).taskId := by
  have hi := congrArg ProcessControlBlock.taskId (h.core i)
  exact hi

theorem executionState (h : SameCore s t) (i : Nat) :
    (t.processTable i).executionState = (s.processTable i).executionState := by
  have hi := congrArg ProcessControlBlock.executionState (h.core i)
  exact hi

theorem waitingOnPid (h : SameCore s t) (i : Nat) :
    (t.processTable i).waitingOnPid = (s.processTable i).waitingOnPid := by
  have hi := congrArg ProcessControlBlock.waitingOnPid (h.core i)
  exact hi

theorem communicationChannel (h : SameCore s t) (i : Nat) :
    (t.processTable i).communicationChannel = (s.processTable i).communicationChannel := by
  have hi := congrArg ProcessControlBlock.communicationChannel (h.core i)
  exact hi

/-- Rewriting an entry without touching its core keeps the core of the table. -/
theorem modifyPcb (s : SchedulerState) (i : Nat) {f : ProcessControlBlock → ProcessControlBlock}
    (hf : ∀ pcb, (f pcb).core = pcb.core) : SameCore s (s.modifyPcb i f) :=
  ⟨fun j => modifyPcb_field s i j hf, rfl, rfl⟩

end SameCore

end SchedulerState

open SchedulerState

/-! ## Eligibility -/

/-- The entries the selection loop considers: ready, and not put off by a sleep deadline. -/
def SchedulerState.Eligible (s : SchedulerState) (i : Nat) : Prop :=
  (s.processTable i).executionState = .running ∧
    (s.processTable i).asleep s.kernelElapsedTicks = false

instance (s : SchedulerState) (i : Nat) : Decidable (s.Eligible i) := by
  unfold SchedulerState.Eligible
  infer_instance

/-- `t` is `s` after some eligible entries have been woken. -/
structure Woken (s t : SchedulerState) : Prop where
  entry : ∀ i, t.processTable i = s.processTable i ∨
    s.Eligible i ∧ t.processTable i = wakePcb (s.processTable i)
  rest : t = { s with processTable := t.processTable }

namespace Woken

variable {s t : SchedulerState}

theorem refl (s : SchedulerState) : Woken s s := ⟨fun _ => .inl rfl, rfl⟩

theorem now (h : Woken s t) : t.kernelElapsedTicks = s.kernelElapsedTicks := by
  rw [h.rest]

theorem runningProcessIndex (h : Woken s t) : t.runningProcessIndex = s.runningProcessIndex := by
  rw [h.rest]

theorem sameCore (h : Woken s t) : SameCore s t := by
  refine ⟨fun i => ?_, by rw [h.rest], by rw [h.rest]⟩
  rcases h.entry i with hi | ⟨_, hi⟩
  · rw [hi]
  · rw [hi]
    rfl

/-- Waking changes nobody's eligibility. -/
theorem eligible_iff (h : Woken s t) (i : Nat) : t.Eligible i ↔ s.Eligible i := by
  rcases h.entry i with hi | ⟨hel, hi⟩
  · simp [Eligible, hi, h.now]
  · refine ⟨fun _ => hel, fun _ => ?_⟩
    simpa [Eligible, hi, wakePcb, ProcessControlBlock.asleep] using hel.1

/-- Waking one more eligible entry. -/
theorem wake (h : Woken s t) {i : Nat} (hi : t.Eligible i) :
    Woken s (t.modifyPcb i wakePcb) := by
  constructor
  · intro j
    rw [modifyPcb_processTable]
    split
    case isTrue hj =>
      subst hj
      refine .inr ⟨(h.eligible_iff j).1 hi, ?_⟩
      rcases h.entry j with hj | ⟨_, hj⟩
      · rw [hj]
      · rw [hj]
        rfl
    case isFalse => exact h.entry j
  · rw [h.rest]
    rfl

end Woken

/-! ## The selection loop -/

/-- What the selection loop has established after some entries: `cand` is an eligible entry with
the given candidate as the only alternative, and somebody is found once an eligible entry was
seen. -/
structure SelectionSpec (s : SchedulerState) (start : Candidate) (is : List Nat)
    (r : SchedulerState × Candidate) : Prop where
  woken : Woken s r.1
  eligible : r.2 = start ∨ r.2.found = true ∧ r.2.bestIndex ∈ is ∧ s.Eligible r.2.bestIndex
  found_of_start : start.found = true → r.2.found = true
  found_of_eligible : ∀ i ∈ is, s.Eligible i → r.2.found = true

/-- One round: entry `i` is woken and becomes the candidate, or is woken and does not replace the
candidate there is, or is not eligible and is passed over. -/
theorem selectStep_cases (t : SchedulerState) (start : Candidate) (i : Nat) :
    (t.Eligible i ∧ ∃ best : Candidate, best.found = true ∧ best.bestIndex = i ∧
      selectStep (t, start) i = (t.modifyPcb i wakePcb, best)) ∨
    (t.Eligible i ∧ start.found = true ∧
      selectStep (t, start) i = (t.modifyPcb i wakePcb, start)) ∨
    (¬ t.Eligible i ∧ selectStep (t, start) i = (t, start)) := by
  -- the comparison with the candidate is made for eligible entries only
  by_cases hel : t.Eligible i
  · by_cases hbetter : (!start.found ||
        decide ((t.processTable i).dynamicPriority > start.highestPriority)) = true
    · let best : Candidate :=
        { bestIndex := i
          highestPriority := (t.processTable i).dynamicPriority
          found := true }
      refine .inl ⟨hel, best, rfl, rfl, ?_⟩
      simp only [selectStep, hel.1, hel.2, hbetter]
      rfl
    · have hfound : start.found = true := by
        cases hs : start.found with
        | true => rfl
        | false => simp [hs] at hbetter
      refine .inr (.inl ⟨hel, hfound, ?_⟩)
      simp only [selectStep, hel.1, hel.2, hbetter]
      simp
  · refine .inr (.inr ⟨hel, ?_⟩)
    unfold selectStep
    by_cases hrun : (t.processTable i).executionState = .running
    · have hasleep : (t.processTable i).asleep t.kernelElapsedTicks = true := by
        cases h : (t.processTable i).asleep t.kernelElapsedTicks with
        | true => rfl
        | false => exact absurd ⟨hrun, h⟩ hel
      simp [hrun, hasleep]
    · simp [hrun]

theorem SelectionSpec.eligible_cons {s : SchedulerState} {start : Candidate} {is : List Nat}
    {r : SchedulerState × Candidate} (h : SelectionSpec s start is r) (i : Nat) :
    r.2 = start ∨ r.2.found = true ∧ r.2.bestIndex ∈ i :: is ∧ s.Eligible r.2.bestIndex := by
  rcases h.eligible with heq | ⟨hf, hmem, he⟩
  · exact .inl heq
  · exact .inr ⟨hf, List.mem_cons_of_mem _ hmem, he⟩

theorem selectLoop_spec (s : SchedulerState) (is : List Nat) :
    ∀ (t : SchedulerState) (start : Candidate), Woken s t →
      SelectionSpec s start is (is.foldl selectStep (t, start)) := by
  induction is with
  | nil =>
      intro t start ht
      exact ⟨ht, .inl rfl, fun h => h, by simp⟩
  | cons i is ih =>
      intro t start ht
      simp only [List.foldl_cons]
      rcases selectStep_cases t start i with
        ⟨hel, best, hbest, hindex, hstep⟩ | ⟨hel, hfound, hstep⟩ | ⟨hel, hstep⟩
      · -- entry `i` becomes the candidate
        have hsel : s.Eligible i := (ht.eligible_iff i).1 hel
        rw [hstep]
        have hrest := ih _ best (ht.wake hel)
        refine ⟨hrest.woken, ?_, fun _ => hrest.found_of_start hbest,
          fun j _ _ => hrest.found_of_start hbest⟩
        rcases hrest.eligible_cons i with heq | hlater
        · rw [heq, hindex]
          exact .inr ⟨hbest, List.mem_cons_self, hsel⟩
        · exact .inr hlater
      · -- the candidate stays
        rw [hstep]
        have hrest := ih _ start (ht.wake hel)
        exact ⟨hrest.woken, hrest.eligible_cons i, hrest.found_of_start,
          fun j _ _ => hrest.found_of_start hfound⟩
      · -- an entry that is not eligible is passed over
        rw [hstep]
        have hrest := ih t start ht
        refine ⟨hrest.woken, hrest.eligible_cons i, hrest.found_of_start, fun j hj hje => ?_⟩
        rcases List.mem_cons.1 hj with rfl | hj
        · exact absurd ((ht.eligible_iff j).2 hje) hel
        · exact hrest.found_of_eligible j hj hje

/-! ## Aging, selection and switching keep the core -/

theorem agePcb_core (pcb : ProcessControlBlock) : (agePcb pcb).core = pcb.core := by
  simp only [agePcb]
  split <;> rfl

@[simp] theorem agePcb_executionState (pcb : ProcessControlBlock) :
    (agePcb pcb).executionState = pcb.executionState := by
  simp only [agePcb]
  split <;> rfl

@[simp] theorem agePcb_sleepUntilTick (pcb : ProcessControlBlock) :
    (agePcb pcb).sleepUntilTick = pcb.sleepUntilTick := by
  simp only [agePcb]
  split <;> rfl

theorem schedulerApplyAging_sameCore (s : SchedulerState) : SameCore s (schedulerApplyAging s) := by
  refine ⟨fun i => ?_, rfl, rfl⟩
  simp only [schedulerApplyAging]
  split
  · exact agePcb_core _
  · rfl

theorem schedulerApplyAging_eligible_iff (s : SchedulerState) (i : Nat) :
    (schedulerApplyAging s).Eligible i ↔ s.Eligible i := by
  simp only [Eligible, schedulerApplyAging, ProcessControlBlock.asleep]
  split <;> simp

/-- The result of a selection over a table with entries in use. -/
structure CandidateSpec (s : SchedulerState) (r : SchedulerState × Nat) : Prop where
  sameCore : SameCore s r.1
  now : r.1.kernelElapsedTicks = s.kernelElapsedTicks
  runningProcessIndex : r.1.runningProcessIndex = s.runningProcessIndex
  eligible_iff : ∀ i, r.1.Eligible i ↔ s.Eligible i
  chosen : (∃ i, i < s.activeProcessCount ∧ s.Eligible i) →
    r.2 < s.activeProcessCount ∧ s.Eligible r.2
  fallback : (¬ ∃ i, i < s.activeProcessCount ∧ s.Eligible i) → r.2 = 0

/-- Resetting the priorities of an entry changes nobody's eligibility. -/
theorem eligible_modifyPcb_iff (s : SchedulerState) (i j : Nat)
    {f : ProcessControlBlock → ProcessControlBlock}
    (hstate : ∀ pcb, (f pcb).executionState = pcb.executionState)
    (hsleep : ∀ pcb, (f pcb).sleepUntilTick = pcb.sleepUntilTick) :
    (s.modifyPcb i f).Eligible j ↔ s.Eligible j := by
  simp only [Eligible, ProcessControlBlock.asleep, modifyPcb_processTable,
    modifyPcb_kernelElapsedTicks]
  split
  case isTrue h =>
    subst h
    rw [hstate, hsleep]
  case isFalse => rfl

theorem schedulerSelectNextCandidate_spec (s : SchedulerState) (hcount : s.activeProcessCount ≠ 0) :
    CandidateSpec s (schedulerSelectNextCandidate s) := by
  have hage := schedulerApplyAging_sameCore s
  have hspec : SelectionSpec (schedulerApplyAging s)
      { bestIndex := 0, highestPriority := 0, found := false }
      (List.range s.activeProcessCount) (selectLoop (schedulerApplyAging s)) := by
    unfold selectLoop
    rw [hage.count]
    exact selectLoop_spec _ _ _ _ (Woken.refl _)
  have hel : ∀ i, (selectLoop (schedulerApplyAging s)).1.Eligible i ↔ s.Eligible i := fun i =>
    (hspec.woken.eligible_iff i).trans (schedulerApplyAging_eligible_iff s i)
  have hcore : SameCore s (selectLoop (schedulerApplyAging s)).1 := hage.trans hspec.woken.sameCore
  -- the loop finds a candidate exactly when there is an eligible entry
  have hfound : (∃ i, i < s.activeProcessCount ∧ s.Eligible i) ↔
      (selectLoop (schedulerApplyAging s)).2.found = true := by
    constructor
    · rintro ⟨i, hi, hie⟩
      exact hspec.found_of_eligible i (List.mem_range.2 hi)
        ((schedulerApplyAging_eligible_iff s i).2 hie)
    · intro hf
      rcases hspec.eligible with heq | ⟨_, hmem, he⟩
      · rw [heq] at hf
        cases hf
      · exact ⟨_, List.mem_range.1 hmem, (schedulerApplyAging_eligible_iff s _).1 he⟩
  unfold schedulerSelectNextCandidate
  simp only [hcount, if_false]
  split
  case isTrue hf =>
    refine ⟨hcore.trans (SameCore.modifyPcb (f := resetPriority) _ _ fun _ => rfl), ?_, ?_,
      ?_, ?_, ?_⟩
    · exact hspec.woken.now
    · exact hspec.woken.runningProcessIndex
    · intro i
      rw [eligible_modifyPcb_iff (f := resetPriority) _ _ _ (fun _ => rfl) (fun _ => rfl)]
      exact hel i
    · intro _
      rcases hspec.eligible with heq | ⟨_, hmem, he⟩
      · rw [heq] at hf
        cases hf
      · exact ⟨List.mem_range.1 hmem, (schedulerApplyAging_eligible_iff s _).1 he⟩
    · intro hnone
      exact absurd (hfound.2 hf) hnone
  case isFalse hf =>
    refine ⟨hcore, hspec.woken.now, hspec.woken.runningProcessIndex, hel, ?_, fun _ => rfl⟩
    intro hsome
    exact absurd (hfound.1 hsome) hf

theorem schedulerSelectNextCandidate_sameCore (s : SchedulerState) :
    SameCore s (schedulerSelectNextCandidate s).1 := by
  by_cases hcount : s.activeProcessCount = 0
  · unfold schedulerSelectNextCandidate
    rw [if_pos hcount]
    exact SameCore.refl s
  · exact (schedulerSelectNextCandidate_spec s hcount).sameCore

theorem switchTo_sameCore (s : SchedulerState) (i j : Nat) : SameCore s (switchTo s i j) := by
  unfold switchTo
  refine SameCore.trans ?_ (SameCore.modifyPcb (f := markScheduled _) _ _ fun _ => rfl)
  refine SameCore.trans ?_ (SameCore.modifyPcb (f := chargeTicks _) _ _ fun _ => rfl)
  exact ⟨fun _ => rfl, rfl, rfl⟩

theorem switchTo_eligible_iff (s : SchedulerState) (i j k : Nat) :
    (switchTo s i j).Eligible k ↔ s.Eligible k := by
  unfold switchTo
  rw [eligible_modifyPcb_iff (f := markScheduled _) _ _ _ (fun _ => rfl) (fun _ => rfl),
    eligible_modifyPcb_iff (f := chargeTicks _) _ _ _ (fun _ => rfl) (fun _ => rfl)]
  rfl

@[simp] theorem switchTo_runningProcessIndex (s : SchedulerState) (i j : Nat) :
    (switchTo s i j).runningProcessIndex = j := rfl

/-! ## Yielding -/

theorem tick_sameCore (s : SchedulerState) : SameCore s s.tick := ⟨fun _ => rfl, rfl, rfl⟩

@[simp] theorem tick_activeProcessCount (s : SchedulerState) :
    s.tick.activeProcessCount = s.activeProcessCount := rfl

@[simp] theorem tick_runningProcessIndex (s : SchedulerState) :
    s.tick.runningProcessIndex = s.runningProcessIndex := rfl

theorem schedulerYield_sameCore (s : SchedulerState) : SameCore s (schedulerYield s) := by
  unfold schedulerYield
  simp only
  split
  · exact tick_sameCore s
  · have hcore := (tick_sameCore s).trans (schedulerSelectNextCandidate_sameCore s.tick)
    split
    · exact hcore
    · exact hcore.trans (switchTo_sameCore _ _ _)

/-- With one process, or none, a yield changes nothing but the tick. -/
theorem schedulerYield_of_count_le_one {s : SchedulerState} (h : s.activeProcessCount ≤ 1) :
    schedulerYield s = s.tick := by
  simp [schedulerYield, h]

/-- With several processes, the selected candidate is current afterwards, and nobody's eligibility
has changed since the tick. -/
theorem schedulerYield_of_one_lt_count {s : SchedulerState} (h : 1 < s.activeProcessCount) :
    (schedulerYield s).runningProcessIndex = (schedulerSelectNextCandidate s.tick).2 ∧
      ∀ i, (schedulerYield s).Eligible i ↔ s.tick.Eligible i := by
  have hspec := schedulerSelectNextCandidate_spec s.tick (by
    rw [tick_activeProcessCount]
    omega)
  have hcount : ¬ s.tick.activeProcessCount ≤ 1 := by
    simpa using h
  unfold schedulerYield
  simp only [hcount, if_false]
  split
  case isTrue heq =>
    refine ⟨?_, hspec.eligible_iff⟩
    rw [hspec.runningProcessIndex]
    exact heq
  case isFalse =>
    refine ⟨rfl, fun i => ?_⟩
    rw [switchTo_eligible_iff]
    exact hspec.eligible_iff i

/-- Some entry in use is eligible at the tick a yield made now begins with. -/
def SchedulerState.SomeoneReady (s : SchedulerState) : Prop :=
  ∃ i, i < s.activeProcessCount ∧ s.tick.Eligible i

/-- The three ways a yield can end. -/
theorem schedulerYield_cases (s : SchedulerState) :
    (s.activeProcessCount ≤ 1 ∧
      (schedulerYield s).runningProcessIndex = s.runningProcessIndex) ∨
    (1 < s.activeProcessCount ∧ s.SomeoneReady ∧
      (schedulerYield s).runningProcessIndex < s.activeProcessCount ∧
      (schedulerYield s).Eligible (schedulerYield s).runningProcessIndex) ∨
    (1 < s.activeProcessCount ∧ ¬ s.SomeoneReady ∧ (schedulerYield s).runningProcessIndex = 0) := by
  -- with one process nothing is selected at all
  rcases Nat.lt_or_ge 1 s.activeProcessCount with hcount | hcount
  · have hspec := schedulerSelectNextCandidate_spec s.tick (by
      rw [tick_activeProcessCount]
      omega)
    rcases schedulerYield_of_one_lt_count hcount with ⟨hrun, hel⟩
    by_cases hready : s.SomeoneReady
    · have hchosen := hspec.chosen hready
      refine .inr (.inl ⟨hcount, hready, ?_, ?_⟩)
      · rw [hrun]
        exact hchosen.1
      · rw [hel, hrun]
        exact hchosen.2
    · refine .inr (.inr ⟨hcount, hready, ?_⟩)
      rw [hrun]
      exact hspec.fallback hready
  · exact .inl ⟨hcount, by rw [schedulerYield_of_count_le_one hcount]; rfl⟩

/-! ## Whom a yield resumes -/

/-- Among several processes, the one that is current after a yield is eligible exactly when
somebody is; if nobody is, the yield falls back on entry 0.  A single process stays current, eligible
or not. -/
theorem schedulerYield_resumes (s : SchedulerState) :
    (1 < s.activeProcessCount →
      ((schedulerYield s).Eligible (schedulerYield s).runningProcessIndex ↔ s.SomeoneReady) ∧
        (¬ s.SomeoneReady → (schedulerYield s).runningProcessIndex = 0)) ∧
    (s.activeProcessCount ≤ 1 →
      (schedulerYield s).runningProcessIndex = s.runningProcessIndex ∧
        ((schedulerYield s).Eligible s.runningProcessIndex ↔
          s.tick.Eligible s.runningProcessIndex)) := by
  constructor
  · intro hcount
    have hel := (schedulerYield_of_one_lt_count hcount).2
    rcases schedulerYield_cases s with ⟨hle, _⟩ | ⟨_, hready, _, hrun⟩ | ⟨_, hnone, hrun⟩
    · omega
    · exact ⟨⟨fun _ => hready, fun _ => hrun⟩, fun hnone => absurd hready hnone⟩
    · refine ⟨⟨fun h => ?_, fun hready => absurd hready hnone⟩, fun _ => hrun⟩
      rw [hrun, hel] at h
      exact ⟨0, by omega, h⟩
  · intro hcount
    rw [schedulerYield_of_count_le_one hcount]
    exact ⟨rfl, Iff.rfl⟩

/-- The master process, alone and blocked for a message, is current again after its yield. -/
theorem schedulerYield_resumes_blocked :
    ¬ ∀ (k : Kernel) (as : List Action) (t : System),
      exec System.step (System.boot k) as = some t →
        (schedulerYield t.sched).Eligible (schedulerYield t.sched).runningProcessIndex := by
  intro h
  have hrun : (exec System.step (System.boot (coldKernel 4096)) [.call (.ipcReceive 128)]).any
      (fun t => decide ((schedulerYield t.sched).runningProcessIndex = 0) &&
        decide (((schedulerYield t.sched).processTable 0).executionState = .blocked)) = true := by
    decide
  rcases exists_of_exec_any hrun with ⟨t, hexec, ht⟩
  simp only [Bool.and_eq_true, decide_eq_true_eq] at ht
  rcases ht with ⟨hindex, hblocked⟩
  have hel := (h _ _ t hexec).1
  rw [hindex, hblocked] at hel
  cases hel

end Sched
end WhitexKernel
