import Mathlib.Algebra.Order.BigOperators.Ring.Finset
import WhitexKernel.Lib.Recovery
import WhitexKernel.Sched.Turns

/-!
# Aging — how long a ready process can be passed over

Every selection ages the ready processes, so each of them reaches `SCHED_MAX_PRIORITY` in time.  But
there a tie is decided for the lowest index, every time: a process at the cap still loses to any
process of a lower index that is at the cap as well.  A process that has been chosen falls back to its
base priority and needs `turnaround` selections to come back, so ties are lost for ever where the
base priority is the cap itself, or where enough processes come back in turn.

* `Recovering` — the processes on their way back to the cap;
* `passedOver_run` — elsewhere nobody is passed over more than `starvationBound` times in a row;
* `passedOver_run_false` — with two processes registered at priorities 100 and 20, the second one is
  never chosen.
-/

namespace WhitexKernel
namespace Sched

open Lib Machine Oom SchedulerState

/-! ## Priorities -/

/-- What aging reads and writes of an entry. -/
structure Priorities where
  base : Nat
  dynamic : Nat
  accumulation : Nat
  deriving DecidableEq, Repr

def ProcessControlBlock.priorities (pcb : ProcessControlBlock) : Priorities :=
  { base := pcb.basePriority
    dynamic := pcb.dynamicPriority
    accumulation := pcb.accumulationCycles }

namespace Priorities

/-- One aging step. -/
def age (p : Priorities) : Priorities :=
  if wrap32 (p.accumulation + 1) ≥ schedPriorityAgingLimit then
    { p with
      dynamic := if p.dynamic < schedMaxPriority then p.dynamic + 1 else p.dynamic
      accumulation := 0 }
  else { p with accumulation := wrap32 (p.accumulation + 1) }

/-- What being chosen leaves. -/
def reset (p : Priorities) : Priorities :=
  { p with
    dynamic := p.base
    accumulation := 0 }

/-- The aging steps that are left to the cap. -/
def toCap (p : Priorities) : Nat :=
  if p.dynamic < schedMaxPriority then
    (schedMaxPriority - p.dynamic) * schedPriorityAgingLimit - p.accumulation
  else 0

/-- The priorities of a process that was registered within the limits. -/
structure InRange (p : Priorities) : Prop where
  base_le : p.base ≤ p.dynamic
  dynamic_le : p.dynamic ≤ schedMaxPriority
  accumulation_lt : p.accumulation < schedPriorityAgingLimit

end Priorities

/-- The selections it takes a process with this base priority to win twice: it is not aged in the one
after it was chosen. -/
def turnaround (base : Nat) : Nat := (schedMaxPriority - base) * schedPriorityAgingLimit + 1

namespace Priorities

variable {p : Priorities}

theorem limit_pos : 0 < schedPriorityAgingLimit := by decide

theorem InRange.reset (hp : p.InRange) : p.reset.InRange :=
  ⟨Nat.le_refl _, hp.base_le.trans hp.dynamic_le, limit_pos⟩

/-- A counter within its limit does not wrap around. -/
theorem InRange.wrap32_accumulation (hp : p.InRange) :
    wrap32 (p.accumulation + 1) = p.accumulation + 1 := by
  have hlimit := hp.accumulation_lt
  unfold schedPriorityAgingLimit at hlimit
  exact wrap32_of_lt (by omega)

theorem InRange.age (hp : p.InRange) : p.age.InRange := by
  have hcap := hp.dynamic_le
  have hbase := hp.base_le
  unfold Priorities.age
  rw [hp.wrap32_accumulation]
  split
  · refine ⟨?_, ?_, limit_pos⟩ <;> dsimp only <;> split <;> omega
  case isFalse hmore => exact ⟨hbase, hcap, Nat.lt_of_not_le hmore⟩

/-- Below the cap an aging step is a step towards it. -/
theorem toCap_age (hp : p.InRange) (hbelow : p.dynamic < schedMaxPriority) :
    p.age.toCap + 1 = p.toCap := by
  have hlimit := hp.accumulation_lt
  unfold toCap Priorities.age
  rw [hp.wrap32_accumulation, if_pos hbelow]
  unfold schedMaxPriority schedPriorityAgingLimit at *
  by_cases hfull : p.accumulation + 1 ≥ 500
  -- the counter is full, and the priority rises, perhaps to the cap
  · simp only [hfull, hbelow, if_true]
    split <;> omega
  · simp only [hfull, hbelow, if_true, if_false]
    omega

/-- At the cap there is nothing left to do. -/
theorem toCap_of_cap (hcap : ¬ p.dynamic < schedMaxPriority) : p.toCap = 0 := if_neg hcap

theorem dynamic_age_of_cap (hcap : ¬ p.dynamic < schedMaxPriority) : p.age.dynamic = p.dynamic := by
  unfold Priorities.age
  simp only [hcap, if_false]
  split <;> rfl

theorem toCap_lt_turnaround (hp : p.InRange) : p.toCap < turnaround p.base := by
  have hbase := hp.base_le
  unfold toCap turnaround
  unfold schedMaxPriority schedPriorityAgingLimit at *
  split <;> omega

theorem toCap_reset (hbelow : p.base < schedMaxPriority) :
    p.reset.toCap + 1 = turnaround p.base := by
  unfold toCap Priorities.reset turnaround
  rw [if_pos hbelow, Nat.sub_zero]

theorem base_age (p : Priorities) : p.age.base = p.base := by
  unfold Priorities.age
  split <;> rfl

end Priorities

/-! ## Who is chosen -/

/-- The candidate is the first of the best ones among the entries that have been seen. -/
structure Best (s : SchedulerState) (seen : List Nat) (cand : Candidate) : Prop where
  none : cand.found = false → ∀ i ∈ seen, ¬ s.Eligible i
  mem : cand.found = true → cand.bestIndex ∈ seen ∧ s.Eligible cand.bestIndex
  priority : cand.found = true →
    cand.highestPriority = (s.processTable cand.bestIndex).dynamicPriority
  best : cand.found = true → ∀ j ∈ seen, s.Eligible j →
    (s.processTable j).dynamicPriority < cand.highestPriority ∨
      (s.processTable j).dynamicPriority = cand.highestPriority ∧ cand.bestIndex ≤ j

theorem selectStep_best {s t : SchedulerState} {seen : List Nat} {cand : Candidate} {i : Nat}
    (hcand : Best s seen cand) (ht : Woken s t) (hlast : ∀ j ∈ seen, j < i) :
    Best s (seen ++ [i]) (selectStep (t, cand) i).2 ∧ Woken s (selectStep (t, cand) i).1 := by
  have hpriority : (t.processTable i).dynamicPriority = (s.processTable i).dynamicPriority := by
    rcases ht.entry i with hi | ⟨_, hi⟩
    · rw [hi]
    · rw [hi]
      rfl
  by_cases hel : t.Eligible i
  · have hsel := (ht.eligible_iff i).1 hel
    have hwoken := ht.wake hel
    by_cases hbetter : (!cand.found ||
        decide ((t.processTable i).dynamicPriority > cand.highestPriority)) = true
    -- entry `i` beats all that have been seen
    · have hstep : selectStep (t, cand) i = (t.modifyPcb i wakePcb,
          { bestIndex := i
            highestPriority := (t.processTable i).dynamicPriority
            found := true }) := by
        simp only [selectStep, hel.1, hel.2, hbetter]
        rfl
      rw [hstep]
      refine ⟨⟨fun h => (by cases h), fun _ => ⟨by simp, hsel⟩, fun _ => hpriority, ?_⟩, hwoken⟩
      intro _ j hj hje
      rcases List.mem_append.1 hj with hj | hj
      · rw [Bool.or_eq_true, Bool.not_eq_true', decide_eq_true_eq] at hbetter
        dsimp only
        rcases hbetter with hnone | hmore
        · exact absurd hje (hcand.none hnone j hj)
        · cases hfound : cand.found with
          | false => exact absurd hje (hcand.none hfound j hj)
          | true =>
              have hj' := hcand.best hfound j hj hje
              exact .inl (by omega)
      · rw [List.mem_singleton] at hj
        subst hj
        exact .inr ⟨hpriority.symm, Nat.le_refl _⟩
    -- the candidate stays, which comes first
    · have hstep : selectStep (t, cand) i = (t.modifyPcb i wakePcb, cand) := by
        simp only [selectStep, hel.1, hel.2, hbetter]
        simp
      rw [Bool.or_eq_true, Bool.not_eq_true', decide_eq_true_eq, not_or, Bool.not_eq_false] at hbetter
      rcases hbetter with ⟨hfound, hless⟩
      rw [hstep]
      refine ⟨⟨fun h => ?_, fun h => ?_, hcand.priority, fun h j hj hje => ?_⟩, hwoken⟩
      · rw [hfound] at h
        cases h
      · exact ⟨List.mem_append_left _ (hcand.mem h).1, (hcand.mem h).2⟩
      · rcases List.mem_append.1 hj with hj | hj
        · exact hcand.best h j hj hje
        · rw [List.mem_singleton] at hj
          subst hj
          have hbefore := hlast _ (hcand.mem h).1
          dsimp only
          omega
  -- an entry that is not eligible is passed over
  · have hstep : selectStep (t, cand) i = (t, cand) := by
      rcases selectStep_cases t cand i with ⟨hel', _⟩ | ⟨hel', _⟩ | ⟨_, hstep⟩
      · exact absurd hel' hel
      · exact absurd hel' hel
      · exact hstep
    rw [hstep]
    have hsel : ¬ s.Eligible i := fun h => hel ((ht.eligible_iff i).2 h)
    refine ⟨⟨fun h j hj => ?_, fun h => ?_, hcand.priority, fun h j hj hje => ?_⟩, ht⟩
    · rcases List.mem_append.1 hj with hj | hj
      · exact hcand.none h j hj
      · rw [List.mem_singleton] at hj
        exact hj ▸ hsel
    · exact ⟨List.mem_append_left _ (hcand.mem h).1, (hcand.mem h).2⟩
    · rcases List.mem_append.1 hj with hj | hj
      · exact hcand.best h j hj hje
      · rw [List.mem_singleton] at hj
        exact absurd (hj ▸ hje) hsel

theorem selectLoop_best (s : SchedulerState) :
    Best s (List.range s.activeProcessCount) (selectLoop s).2 := by
  have hloop : ∀ n, Best s (List.range n) ((List.range n).foldl selectStep
        (s, { bestIndex := 0, highestPriority := 0, found := false })).2 ∧
      Woken s ((List.range n).foldl selectStep
        (s, { bestIndex := 0, highestPriority := 0, found := false })).1 := by
    intro n
    induction n with
    | zero =>
        refine ⟨⟨fun _ i hi => ?_, fun h => ?_, fun h => ?_, fun h => ?_⟩, Woken.refl s⟩
        · cases hi
        all_goals cases h
    | succ n ih =>
        rw [List.range_succ, List.foldl_append]
        exact selectStep_best ih.1 ih.2 fun j hj => List.mem_range.1 hj
  exact (hloop _).1

/-! ## What a yield does to the priorities -/

namespace SchedulerState

/-- The priorities of entry `i`. -/
def priorities (s : SchedulerState) (i : Nat) : Priorities := (s.processTable i).priorities

/-- Entry `i` is aged by the selection of a yield made now. -/
def Aged (s : SchedulerState) (i : Nat) : Prop :=
  i < s.activeProcessCount ∧ (s.processTable i).executionState = .running ∧
    i ≠ s.runningProcessIndex

instance (s : SchedulerState) (i : Nat) : Decidable (s.Aged i) := by
  unfold Aged
  infer_instance

/-- The priorities the candidates are compared by. -/
def agedPriorities (s : SchedulerState) (i : Nat) : Priorities :=
  if s.Aged i then (s.priorities i).age else s.priorities i

end SchedulerState

theorem priorities_agePcb (pcb : ProcessControlBlock) :
    (agePcb pcb).priorities = pcb.priorities.age := by
  unfold agePcb Priorities.age ProcessControlBlock.priorities
  simp only
  split <;> rfl

theorem priorities_schedulerApplyAging (s : SchedulerState) (i : Nat) :
    (schedulerApplyAging s).priorities i = s.agedPriorities i := by
  unfold agedPriorities SchedulerState.priorities schedulerApplyAging
  by_cases h : s.Aged i
  · rw [if_pos h]
    simp only [if_pos (show i < s.activeProcessCount ∧ (s.processTable i).executionState = .running ∧
      i ≠ s.runningProcessIndex from h)]
    exact priorities_agePcb _
  · rw [if_neg h]
    simp only [if_neg (show ¬ (i < s.activeProcessCount ∧
      (s.processTable i).executionState = .running ∧ i ≠ s.runningProcessIndex) from h)]

theorem Woken.priorities {s t : SchedulerState} (h : Woken s t) (i : Nat) :
    t.priorities i = s.priorities i := by
  unfold SchedulerState.priorities
  rcases h.entry i with hi | ⟨_, hi⟩
  · rw [hi]
  · rw [hi]
    rfl

/-- The outcome of a yield among several processes of which one is ready. -/
structure Chosen (s : SchedulerState) (c : Nat) : Prop where
  in_use : c < s.activeProcessCount
  eligible : s.tick.Eligible c
  best : ∀ j, j < s.activeProcessCount → s.tick.Eligible j →
    (s.agedPriorities j).dynamic < (s.agedPriorities c).dynamic ∨
      (s.agedPriorities j).dynamic = (s.agedPriorities c).dynamic ∧ c ≤ j
  running : (schedulerYield s).runningProcessIndex = c
  priorities : ∀ i, (schedulerYield s).priorities i =
    if i = c then (s.agedPriorities i).reset else s.agedPriorities i

/-- Rewriting an entry, its priorities apart. -/
theorem priorities_modifyPcb (s : SchedulerState) (i k : Nat)
    {f : ProcessControlBlock → ProcessControlBlock}
    (hf : ∀ pcb, (f pcb).priorities = pcb.priorities) :
    (s.modifyPcb i f).priorities k = s.priorities k := modifyPcb_field s i k hf

theorem priorities_switchTo (s : SchedulerState) (i j k : Nat) :
    (switchTo s i j).priorities k = s.priorities k := by
  unfold switchTo
  rw [priorities_modifyPcb (f := markScheduled _) _ _ _ fun _ => rfl,
    priorities_modifyPcb (f := chargeTicks _) _ _ _ fun _ => rfl]
  rfl

/-- Switching, or staying, changes nothing but who is current. -/
theorem priorities_schedulerYield {s : SchedulerState} (hcount : 1 < s.activeProcessCount)
    (i : Nat) : (schedulerYield s).priorities i =
      (schedulerSelectNextCandidate s.tick).1.priorities i := by
  have hmany : ¬ s.tick.activeProcessCount ≤ 1 := by
    rw [tick_activeProcessCount]
    omega
  unfold schedulerYield
  simp only [hmany, if_false]
  split
  · rfl
  · exact priorities_switchTo _ _ _ _

theorem schedulerYield_chosen {s : SchedulerState} (hcount : 1 < s.activeProcessCount)
    (hready : s.SomeoneReady) : Chosen s (schedulerSelectNextCandidate s.tick).2 := by
  have hspec := schedulerSelectNextCandidate_spec s.tick (by
    rw [tick_activeProcessCount]
    omega)
  have hbest := selectLoop_best (schedulerApplyAging s.tick)
  have hwoken : Woken (schedulerApplyAging s.tick) (selectLoop (schedulerApplyAging s.tick)).1 :=
    (selectLoop_spec _ _ _ _ (Woken.refl _)).woken
  -- somebody is found, since somebody is ready
  have hfound : (selectLoop (schedulerApplyAging s.tick)).2.found = true := by
    rcases hready with ⟨i, hi, hel⟩
    by_contra hnone
    exact hbest.none (Bool.eq_false_iff.2 hnone) i (List.mem_range.2 hi)
      ((schedulerApplyAging_eligible_iff _ _).2 hel)
  have hselect : schedulerSelectNextCandidate s.tick =
      ((selectLoop (schedulerApplyAging s.tick)).1.modifyPcb
        (selectLoop (schedulerApplyAging s.tick)).2.bestIndex resetPriority,
        (selectLoop (schedulerApplyAging s.tick)).2.bestIndex) := by
    unfold schedulerSelectNextCandidate
    rw [if_neg (by rw [tick_activeProcessCount]; omega), if_pos hfound]
  have hdynamic : ∀ j, ((schedulerApplyAging s.tick).processTable j).dynamicPriority =
      (s.agedPriorities j).dynamic := fun j =>
    congrArg Priorities.dynamic (priorities_schedulerApplyAging s.tick j)
  rcases hspec.chosen hready with ⟨hin, hel⟩
  refine ⟨hin, hel, fun j hj hje => ?_, (schedulerYield_of_one_lt_count hcount).1, fun i => ?_⟩
  · have hj' := hbest.best hfound j (List.mem_range.2 hj)
      ((schedulerApplyAging_eligible_iff _ _).2 hje)
    rw [hbest.priority hfound, hdynamic, hdynamic] at hj'
    rw [hselect]
    exact hj'
  · rw [priorities_schedulerYield hcount, hselect]
    have haged : (selectLoop (schedulerApplyAging s.tick)).1.priorities i = s.agedPriorities i :=
      (Woken.priorities hwoken i).trans (priorities_schedulerApplyAging s.tick i)
    rw [← haged]
    unfold SchedulerState.priorities
    rw [modifyPcb_processTable]
    split
    case isTrue h =>
      rw [h]
      rfl
    case isFalse => rfl

/-! ## Ties at the cap -/

namespace SchedulerState

/-- The selections until entry `q` can be at the cap; the current process is not aged in the next
one. -/
def rest (s : SchedulerState) (q : Nat) : Nat :=
  (s.priorities q).toCap +
    if q = s.runningProcessIndex ∧ (s.priorities q).dynamic < schedMaxPriority then 1 else 0

/-- The selections between two of which entry `q` can win. -/
def full (s : SchedulerState) (q : Nat) : Nat := turnaround (s.priorities q).base

/-- Entry `q` is below the cap, and ready or current. -/
def Recovering (s : SchedulerState) (q : Nat) : Prop :=
  (s.priorities q).dynamic < schedMaxPriority ∧
    ((s.processTable q).executionState = .running ∨ q = s.runningProcessIndex)

instance (s : SchedulerState) (q : Nat) : Decidable (s.Recovering q) := by
  unfold Recovering
  infer_instance

/-- Entry `i` is ready, and at the cap in the selection of a yield made now. -/
def AtCap (s : SchedulerState) (i : Nat) : Prop :=
  s.tick.Eligible i ∧ (s.agedPriorities i).dynamic = schedMaxPriority

instance (s : SchedulerState) (i : Nat) : Decidable (s.AtCap i) := by
  unfold AtCap
  infer_instance

/-- Whoever loses a tie at the cap loses it to a process that has to recover, and those below it that
recover already do not make up a whole one. -/
def LeavesRoom (s : SchedulerState) : Prop :=
  ∀ p < s.activeProcessCount, ∀ q < p, s.AtCap p → s.AtCap q →
    (s.priorities q).base < schedMaxPriority ∧
      ∑ i ∈ (Finset.range p).filter s.Recovering, (1 : ℚ) / s.full i < 1

instance (s : SchedulerState) : Decidable s.LeavesRoom := by
  unfold LeavesRoom
  infer_instance

/-- All priorities are within the limits. -/
def InRange (s : SchedulerState) : Prop :=
  ∀ i, i < s.activeProcessCount → (s.priorities i).InRange

end SchedulerState

theorem inRange_agedPriorities {s : SchedulerState} {i : Nat} (h : (s.priorities i).InRange) :
    (s.agedPriorities i).InRange := by
  unfold agedPriorities
  split
  · exact h.age
  · exact h

theorem base_agedPriorities (s : SchedulerState) (i : Nat) :
    (s.agedPriorities i).base = (s.priorities i).base := by
  unfold agedPriorities
  split
  · exact Priorities.base_age _
  · rfl

theorem turnaround_le (base : Nat) : turnaround base ≤ turnaround 0 := by
  unfold turnaround schedMaxPriority schedPriorityAgingLimit
  omega

theorem rest_le {s : SchedulerState} {q : Nat} (hq : (s.priorities q).InRange) :
    s.rest q ≤ s.full q := by
  have hlt := Priorities.toCap_lt_turnaround hq
  unfold rest full
  split <;> omega

/-- The aging step of a selection brings those on their way one step closer to the cap. -/
theorem rest_eq {s : SchedulerState} {q : Nat} (hs : s.InRange) (hq : q < s.activeProcessCount) :
    s.rest q = (s.agedPriorities q).toCap + if s.Recovering q then 1 else 0 := by
  unfold rest agedPriorities Recovering
  by_cases hbelow : (s.priorities q).dynamic < schedMaxPriority
  · have hstep := Priorities.toCap_age (hs q hq) hbelow
    by_cases hcurrent : q = s.runningProcessIndex
    · subst hcurrent
      have haged : ¬ s.Aged s.runningProcessIndex := fun h => h.2.2 rfl
      simp [hbelow, haged]
    · by_cases hready : (s.processTable q).executionState = .running
      · have haged : s.Aged q := ⟨hq, hready, hcurrent⟩
        simp only [haged, hcurrent, hready, hbelow, if_true, false_and, if_false, true_and, true_or]
        omega
      · have haged : ¬ s.Aged q := fun h => hready h.2.1
        simp [hcurrent, hready, haged]
  · have hcap : (if s.Aged q then (s.priorities q).age else s.priorities q).toCap = 0 := by
      split
      · refine Priorities.toCap_of_cap ?_
        rwa [Priorities.dynamic_age_of_cap hbelow]
      · exact Priorities.toCap_of_cap hbelow
    simp [hbelow, hcap, Priorities.toCap_of_cap hbelow]

/-- After a selection the chosen entry has its whole way before it, and the others have what aging
left them. -/
theorem rest_schedulerYield {s : SchedulerState} {c : Nat} (hchosen : Chosen s c) (q : Nat) :
    (schedulerYield s).rest q =
      if q = c then
        (if (s.priorities c).base < schedMaxPriority then s.full c else 0)
      else (s.agedPriorities q).toCap := by
  unfold rest
  rw [hchosen.priorities, hchosen.running]
  by_cases hq : q = c
  · subst hq
    simp only [if_true, true_and]
    -- aging raises the dynamic priority, and leaves the base it is reset to
    have hbase : (s.agedPriorities q).reset.dynamic = (s.priorities q).base :=
      base_agedPriorities s q
    rw [hbase]
    split
    case isTrue hbelow =>
      have hreset := Priorities.toCap_reset (p := s.agedPriorities q)
        (by rwa [base_agedPriorities])
      rw [hreset, base_agedPriorities]
      rfl
    case isFalse hcap =>
      refine Priorities.toCap_of_cap ?_
      rwa [hbase]
  · simp [hq]

/-- What all entries below `p` have to recover. -/
def SchedulerState.load (s : SchedulerState) (unit p : Nat) : Nat :=
  Recovery.potential (Finset.range p) unit s.full s.rest

/-- The common multiple of all turnarounds. -/
def turnaroundUnit : Nat := ∏ base ∈ Finset.range (schedMaxPriority + 1), turnaround base

theorem turnaround_dvd {base : Nat} (h : base ≤ schedMaxPriority) :
    turnaround base ∣ turnaroundUnit :=
  Finset.dvd_prod_of_mem turnaround (Finset.mem_range.2 (Nat.lt_succ_of_le h))

theorem turnaroundUnit_pos : 0 < turnaroundUnit :=
  Finset.prod_pos fun _ _ => Nat.succ_pos _

theorem full_schedulerYield {s : SchedulerState} {c : Nat} (hchosen : Chosen s c) (q : Nat) :
    (schedulerYield s).full q = s.full q := by
  unfold full
  rw [hchosen.priorities, ← base_agedPriorities s q]
  split <;> rfl

/-- Losing a tie at the cap, where room is left, raises the load below. -/
theorem load_lt {s : SchedulerState} {p c : Nat} (hs : s.InRange) (hchosen : Chosen s c)
    (hroom : s.LeavesRoom) (hp : p < s.activeProcessCount) (hready : s.tick.Eligible p)
    (hother : p ≠ c) (hcap : (s.agedPriorities p).dynamic = schedMaxPriority) :
    s.load turnaroundUnit p < (schedulerYield s).load turnaroundUnit p := by
  have hmost := (inRange_agedPriorities (hs c hchosen.in_use)).dynamic_le
  have hbest := hchosen.best p hp hready
  rw [hcap] at hbest
  -- the winner is at the cap as well, and comes first
  have hwinner : (s.agedPriorities c).dynamic = schedMaxPriority ∧ c < p := by omega
  rcases hroom p hp c hwinner.2 ⟨hready, hcap⟩ ⟨hchosen.eligible, hwinner.1⟩ with ⟨hbase, hload⟩
  have hbelow : ∀ q ∈ Finset.range p, q < s.activeProcessCount := fun q hq =>
    (Finset.mem_range.1 hq).trans hp
  have hlt : s.load turnaroundUnit p <
      Recovery.potential (Finset.range p) turnaroundUnit s.full (schedulerYield s).rest := by
    refine Recovery.potential_lt turnaroundUnit_pos (Finset.filter_subset _ _)
      (Finset.mem_range.2 hwinner.2) (fun q hq => ?_) (fun q hq => ?_) hload
    · have hrange := hs q (hbelow q hq)
      exact turnaround_dvd (hrange.base_le.trans hrange.dynamic_le)
    · rw [rest_schedulerYield hchosen, rest_eq hs (hbelow q hq)]
      simp only [Finset.mem_filter, hq, true_and]
      by_cases hq' : q = c
      · subst hq'
        have hzero : (s.agedPriorities q).toCap = 0 :=
          Priorities.toCap_of_cap (by rw [hwinner.1]; exact Nat.lt_irrefl _)
        simp only [if_true, hbase, hzero]
        omega
      · simp only [hq', if_false]
        omega
  refine hlt.trans_le (Nat.le_of_eq ?_)
  exact (Recovery.potential_congr (fun q _ => full_schedulerYield hchosen q) fun _ _ => rfl).symm

/-! ## Passing over -/

/-- The most often that a process is passed over. -/
def starvationBound : Nat := turnaround 0 + sysMaxTasks * turnaroundUnit

/-- How often the process at `p` has been passed over is paid for by its way to the cap, and then by
the load below it. -/
def Paid (s : SchedulerState) (p passedOver : Nat) : Prop :=
  passedOver + s.rest p ≤ turnaround 0 +
    if (s.priorities p).dynamic < schedMaxPriority then 0 else s.load turnaroundUnit p

theorem Paid.zero {s : SchedulerState} {p : Nat} (hp : (s.priorities p).InRange) : Paid s p 0 := by
  have hrest := rest_le hp
  have hfull := turnaround_le (s.priorities p).base
  unfold Paid
  unfold full at hrest
  omega

theorem Paid.le {s : SchedulerState} {p passedOver : Nat} (hs : s.InRange)
    (hp : p < s.activeProcessCount) (hcount : s.activeProcessCount ≤ sysMaxTasks)
    (h : Paid s p passedOver) : passedOver ≤ starvationBound := by
  have hload : s.load turnaroundUnit p ≤ sysMaxTasks * turnaroundUnit := by
    have hle : s.load turnaroundUnit p ≤ (Finset.range p).card * turnaroundUnit :=
      Recovery.potential_le fun q hq => rest_le (hs q ((Finset.mem_range.1 hq).trans hp))
    rw [Finset.card_range] at hle
    exact hle.trans (Nat.mul_le_mul_right _ (by omega))
  unfold Paid at h
  unfold starvationBound
  split at h <;> omega

/-- Being passed over once more is paid for, too. -/
theorem Paid.passed {s : SchedulerState} {p c passedOver : Nat} (hs : s.InRange)
    (hchosen : Chosen s c) (hroom : s.LeavesRoom) (hp : p < s.activeProcessCount)
    (hready : s.tick.Eligible p) (hother : p ≠ c) (h : Paid s p passedOver) :
    Paid (schedulerYield s) p (passedOver + 1) := by
  have hrest := rest_eq hs hp
  have hrest' := rest_schedulerYield hchosen p
  rw [if_neg hother] at hrest'
  unfold Paid at h ⊢
  rw [hrest', hchosen.priorities, if_neg hother]
  by_cases hreached : (s.agedPriorities p).dynamic < schedMaxPriority
  -- on its way to the cap, it has come one step closer
  · have hbelow : (s.priorities p).dynamic < schedMaxPriority := by
      by_contra hcap
      unfold agedPriorities at hreached
      split at hreached
      · rw [Priorities.dynamic_age_of_cap hcap] at hreached
        exact hcap hreached
      · exact hcap hreached
    rw [if_pos (show s.Recovering p from ⟨hbelow, .inl hready.1⟩)] at hrest
    rw [if_pos hbelow] at h
    rw [if_pos hreached]
    omega
  · have hcap : (s.agedPriorities p).dynamic = schedMaxPriority :=
      Nat.le_antisymm (inRange_agedPriorities (hs p hp)).dynamic_le (Nat.le_of_not_lt hreached)
    rw [Priorities.toCap_of_cap hreached] at hrest ⊢
    rw [if_neg hreached]
    by_cases hbelow : (s.priorities p).dynamic < schedMaxPriority
    -- it has reached the cap in this selection
    · rw [if_pos (show s.Recovering p from ⟨hbelow, .inl hready.1⟩)] at hrest
      rw [if_pos hbelow] at h
      omega
    -- it was there, and has lost a tie
    · have hload := load_lt hs hchosen hroom hp hready hother hcap
      rw [if_neg hbelow] at h
      omega

/-- Where the priorities and the current process are the same, so is what is paid for. -/
theorem Paid.congr {s t : SchedulerState} {p passedOver : Nat}
    (hpriorities : ∀ q, q ≤ p → t.priorities q = s.priorities q)
    (hrunning : t.runningProcessIndex = s.runningProcessIndex) (h : Paid s p passedOver) :
    Paid t p passedOver := by
  have hrest : ∀ q, q ≤ p → t.rest q = s.rest q := by
    intro q hq
    unfold rest
    rw [hpriorities q hq, hrunning]
  have hload : t.load turnaroundUnit p = s.load turnaroundUnit p := by
    refine Recovery.potential_congr (fun q hq => ?_) fun q hq => ?_
    · unfold full
      rw [hpriorities q (Nat.le_of_lt (Finset.mem_range.1 hq))]
    · exact hrest q (Nat.le_of_lt (Finset.mem_range.1 hq))
  unfold Paid at h ⊢
  rwa [hrest p (Nat.le_refl p), hpriorities p (Nat.le_refl p), hload]

/-! ## Runs -/

/-- A system, and how many selections in a row each process has been passed over in. -/
structure Contest where
  system : System
  passedOver : Nat → Nat

/-- The process that `scheduler_select_next_candidate` chooses in a turn, if the turn calls it. -/
def selection (s : System) (a : Action) : Option Nat :=
  match yieldState s a with
  | none => none
  | some u =>
      if u.activeProcessCount ≤ 1 then none else some (schedulerSelectNextCandidate u.tick).2

namespace Contest

def boot (k : Kernel) : Contest :=
  { system := System.boot k
    passedOver := fun _ => 0 }

/-- A process that is not ready any more, or is chosen, starts again. -/
def step (w : Contest) (a : Action) : Option Contest :=
  (w.system.step a).map fun t =>
    { system := t
      passedOver := fun i =>
        if i < w.system.sched.activeProcessCount ∧ t.sched.Eligible i then
          match selection w.system a with
          | none => w.passedOver i
          | some c => if i = c then 0 else w.passedOver i + 1
        else 0 }

/-- No process has been passed over in more than `bound` selections in a row. -/
def PassedAtMost (bound : Nat) (w : Contest) : Prop :=
  ∀ i, i < w.system.sched.activeProcessCount → w.passedOver i ≤ bound

/-- The selection of a turn, if there is one, leaves room at the cap. -/
def LeavesRoom (w : Contest) (a : Action) : Prop :=
  match yieldState w.system a with
  | none => True
  | some u => 1 < u.activeProcessCount → u.LeavesRoom

instance (w : Contest) (a : Action) : Decidable (w.LeavesRoom a) := by
  unfold LeavesRoom
  split <;> infer_instance

end Contest

/-- `SCHED_MIN_PRIORITY` -/
def schedMinPriority : Nat := 1

/-- Processes are registered with priorities within the limits. -/
def PriorityInRange : Action → Prop
  | .call (.registerProcess _ priority _ _) =>
      schedMinPriority ≤ priority ∧ priority ≤ schedMaxPriority
  | _ => True

theorem SchedulerState.Quiet.priorities {s t : SchedulerState} (h : Quiet s t) (i : Nat) :
    t.priorities i = s.priorities i := by
  have hbook := h.bookkeeping i
  unfold SchedulerState.priorities ProcessControlBlock.priorities
  rw [show (t.processTable i).basePriority = (s.processTable i).basePriority from
      congrArg Bookkeeping.basePriority hbook,
    show (t.processTable i).dynamicPriority = (s.processTable i).dynamicPriority from
      congrArg Bookkeeping.dynamicPriority hbook,
    show (t.processTable i).accumulationCycles = (s.processTable i).accumulationCycles from
      congrArg Bookkeeping.accumulationCycles hbook]

/-- A selection ages, and resets whom it chooses. -/
theorem priorities_schedulerSelectNextCandidate (s : SchedulerState) (i : Nat) :
    (schedulerSelectNextCandidate s).1.priorities i = s.priorities i ∨
      (schedulerSelectNextCandidate s).1.priorities i = s.agedPriorities i ∨
      (schedulerSelectNextCandidate s).1.priorities i = (s.agedPriorities i).reset := by
  -- waking changes the state of an entry, not its priority
  have hwoken : Woken (schedulerApplyAging s) (selectLoop (schedulerApplyAging s)).1 :=
    (selectLoop_spec _ _ _ _ (Woken.refl _)).woken
  have haged : (selectLoop (schedulerApplyAging s)).1.priorities i = s.agedPriorities i :=
    (hwoken.priorities i).trans (priorities_schedulerApplyAging s i)
  unfold schedulerSelectNextCandidate
  simp only
  split
  · exact .inl rfl
  · split
    · by_cases hi : i = (selectLoop (schedulerApplyAging s)).2.bestIndex
      · refine .inr (.inr ?_)
        rw [← haged, hi]
        unfold SchedulerState.priorities
        rw [modifyPcb_processTable, if_pos rfl]
        rfl
      · refine .inr (.inl ?_)
        rw [← haged]
        unfold SchedulerState.priorities
        rw [modifyPcb_processTable, if_neg hi]
    · exact .inr (.inl haged)

theorem priorities_addProcess_of_lt {s : SchedulerState} {i : Nat} (hi : i < s.activeProcessCount)
    (entryPoint pid priority rss flags stackRaw : Nat) :
    (s.addProcess entryPoint pid priority rss flags stackRaw).priorities i = s.priorities i := by
  unfold SchedulerState.priorities SchedulerState.addProcess
  simp only [modifyPcb_of_ne _ (Nat.ne_of_lt hi)]

namespace SchedulerState.InRange

variable {s t : SchedulerState}

theorem congr (hs : s.InRange) (hpriorities : ∀ i, t.priorities i = s.priorities i)
    (hcount : t.activeProcessCount = s.activeProcessCount) : t.InRange := by
  intro i hi
  rw [hpriorities]
  exact hs i (hcount ▸ hi)

theorem quiet (hs : s.InRange) (h : Quiet s t) : t.InRange := hs.congr h.priorities h.count

theorem schedulerApplyAging (hs : s.InRange) : (Sched.schedulerApplyAging s).InRange := by
  intro i hi
  rw [priorities_schedulerApplyAging]
  exact inRange_agedPriorities (hs i hi)

theorem schedulerSelectNextCandidate (hs : s.InRange) :
    (Sched.schedulerSelectNextCandidate s).1.InRange := by
  intro i hi
  rw [(schedulerSelectNextCandidate_sameCore s).count] at hi
  have haged : (s.agedPriorities i).InRange := inRange_agedPriorities (hs i hi)
  rcases priorities_schedulerSelectNextCandidate s i with h | h | h
  · rw [h]
    exact hs i hi
  · rw [h]
    exact haged
  · rw [h]
    exact haged.reset

/-- Whatever a yield makes of the priorities, they stay within the limits. -/
theorem schedulerYield (hs : s.InRange) : (Sched.schedulerYield s).InRange := by
  by_cases hcount : s.activeProcessCount ≤ 1
  · rw [schedulerYield_of_count_le_one hcount]
    exact hs
  · have htick : s.tick.InRange := hs
    refine htick.schedulerSelectNextCandidate.congr
      (priorities_schedulerYield (Nat.lt_of_not_le hcount)) ?_
    rw [(schedulerYield_sameCore s).count, (schedulerSelectNextCandidate_sameCore s.tick).count]
    rfl

/-- A new process starts at its base priority. -/
theorem addProcess (hs : s.InRange) {priority : Nat} (hpriority : priority ≤ schedMaxPriority)
    (entryPoint pid rss flags stackRaw : Nat) :
    (s.addProcess entryPoint pid priority rss flags stackRaw).InRange := by
  intro i hi
  have hcount : (s.addProcess entryPoint pid priority rss flags stackRaw).activeProcessCount =
      s.activeProcessCount + 1 := rfl
  rw [hcount] at hi
  rcases Nat.lt_succ_iff_lt_or_eq.1 hi with hi | rfl
  · rw [priorities_addProcess_of_lt hi]
    exact hs i hi
  · unfold SchedulerState.priorities SchedulerState.addProcess
    simp only [modifyPcb_self]
    exact ⟨Nat.le_refl _, hpriority, Priorities.limit_pos⟩

end SchedulerState.InRange

/-- The master process is within the limits. -/
theorem inRange_schedulerInitialize (s : SchedulerState) : (schedulerInitialize s).InRange := by
  intro i hi
  have hzero : i = 0 := Nat.lt_one_iff.1 hi
  subst hzero
  have hpriorities : (schedulerInitialize s).priorities 0 =
      { base := schedDefaultPriority
        dynamic := schedDefaultPriority
        accumulation := 0 } := by
    unfold SchedulerState.priorities schedulerInitialize
    simp [masterPcb, clearPcb, ProcessControlBlock.priorities, sysMaxTasks]
  rw [hpriorities]
  exact ⟨Nat.le_refl _, by decide, by decide⟩

/-- What all turns keep: every process is within the limits, and being passed over is paid for. -/
structure PaidFor (s : SchedulerState) (passedOver : Nat → Nat) : Prop where
  count : s.activeProcessCount ≤ sysMaxTasks
  inRange : s.InRange
  paid : ∀ i, i < s.activeProcessCount → Paid s i (passedOver i)

namespace PaidFor

variable {s t : SchedulerState} {passedOver passedOver' : Nat → Nat}

/-- Where no process is chosen, nobody is passed over. -/
theorem congr (hs : PaidFor s passedOver) (hpriorities : ∀ i, t.priorities i = s.priorities i)
    (hcount : t.activeProcessCount = s.activeProcessCount)
    (hrunning : t.runningProcessIndex = s.runningProcessIndex)
    (h : ∀ i, passedOver' i = passedOver i ∨ passedOver' i = 0) : PaidFor t passedOver' := by
  have hrange : t.InRange := hs.inRange.congr hpriorities hcount
  refine ⟨hcount ▸ hs.count, hrange, fun i hi => ?_⟩
  rcases h i with hi' | hi'
  · rw [hi']
    exact (hs.paid i (hcount ▸ hi)).congr (fun q _ => hpriorities q) hrunning
  · rw [hi']
    exact Paid.zero (hrange i hi)

/-- A selection passes over everybody who is ready and is not chosen. -/
theorem schedulerYield (hs : PaidFor s passedOver) (hmany : 1 < s.activeProcessCount)
    (hroom : s.LeavesRoom)
    (h : ∀ i, passedOver' i = 0 ∨ s.tick.Eligible i ∧
      i ≠ (schedulerSelectNextCandidate s.tick).2 ∧ passedOver' i = passedOver i + 1) :
    PaidFor (schedulerYield s) passedOver' := by
  have hcount := (schedulerYield_sameCore s).count
  have hrange := hs.inRange.schedulerYield
  refine ⟨hcount ▸ hs.count, hrange, fun i hi => ?_⟩
  rcases h i with hzero | ⟨hready, hother, hmore⟩
  · rw [hzero]
    exact Paid.zero (hrange i hi)
  · rw [hcount] at hi
    rw [hmore]
    have hchosen := schedulerYield_chosen hmany ⟨i, hi, hready⟩
    exact (hs.paid i hi).passed hs.inRange hchosen hroom hi hready hother

/-- A new process has its whole way before it. -/
theorem addProcess (hs : PaidFor s passedOver) {entryPoint priority rss flags : Nat}
    (pid stackRaw : Nat) (hroom : s.activeProcessCount < sysMaxTasks)
    (hpriority : priority ≤ schedMaxPriority)
    (h : ∀ i, passedOver' i = 0 ∨ i < s.activeProcessCount ∧ passedOver' i = passedOver i) :
    PaidFor (s.addProcess entryPoint pid priority rss flags stackRaw) passedOver' := by
  have hrange := hs.inRange.addProcess hpriority entryPoint pid rss flags stackRaw
  refine ⟨hroom, hrange, fun i hi => ?_⟩
  -- a new entry was never passed over, and an old one has its way before it still
  rcases h i with hzero | ⟨hi', hsame⟩
  · rw [hzero]
    exact Paid.zero (hrange i hi)
  · rw [hsame]
    have hold : ∀ q ≤ i, (s.addProcess entryPoint pid priority rss flags stackRaw).priorities q =
        s.priorities q := fun q hq =>
      priorities_addProcess_of_lt (Nat.lt_of_le_of_lt hq hi') _ _ _ _ _ _
    exact (hs.paid i hi').congr hold rfl

end PaidFor

/-- The invariant of a contest. -/
def Contest.Paid (w : Contest) : Prop := PaidFor w.system.sched w.passedOver

theorem Contest.paid_boot (k : Kernel) : (Contest.boot k).Paid := by
  have hrange : (System.boot k).sched.InRange := inRange_schedulerInitialize k.sched
  exact ⟨show 1 ≤ sysMaxTasks by decide, hrange, fun i hi => Paid.zero (hrange i hi)⟩

/-- A turn that leaves room keeps everything paid for. -/
theorem Contest.Paid.step {w x : Contest} {a : Action} (hw : w.Paid) (hpriority : PriorityInRange a)
    (hroom : w.LeavesRoom a) (h : w.step a = some x) : x.Paid := by
  unfold Contest.step at h
  rcases Option.map_eq_some_iff.1 h with ⟨t, hstep, rfl⟩
  have hturn := System.step_turned hstep
  unfold Contest.LeavesRoom at hroom
  unfold Contest.Paid at hw ⊢
  unfold selection
  dsimp only
  -- the turn decides by itself whether it yields: the state it yields in is opaque here
  generalize yieldState w.system a = yieldedIn at hturn hroom ⊢
  generalize ht : t.sched = t' at hturn ⊢
  cases hturn with
  | quiet hquiet =>
      refine hw.congr hquiet.priorities hquiet.count hquiet.running fun i => ?_
      split
      · exact .inl rfl
      · exact .inr rfl
  | @yielded u hquiet =>
      have hu : PaidFor u w.passedOver :=
        hw.congr hquiet.priorities hquiet.count hquiet.running fun i => .inl rfl
      by_cases hmany : 1 < u.activeProcessCount
      · refine hu.schedulerYield hmany (hroom hmany) fun i => ?_
        have hmany' : ¬ u.activeProcessCount ≤ 1 := Nat.not_le_of_lt hmany
        simp only [hmany', if_false]
        split
        case isTrue hready =>
          split
          · exact .inl rfl
          case isFalse hother =>
            -- a ready entry is eligible, so the selection really passed it over
            have hel := ((schedulerYield_of_one_lt_count hmany).2 i).1 hready.2
            exact .inr ⟨hel, hother, rfl⟩
        case isFalse => exact .inl rfl
      · have hone : u.activeProcessCount ≤ 1 := Nat.le_of_not_lt hmany
        rw [schedulerYield_of_count_le_one hone]
        refine hu.congr (fun i => rfl) rfl rfl fun i => ?_
        simp only [hone, if_true]
        split
        · exact .inl rfl
        · exact .inr rfl
  | @added u entryPoint priority rss flags pid stackRaw ha hquiet hspace =>
      subst ha
      have hu : PaidFor u w.passedOver :=
        hw.congr hquiet.priorities hquiet.count hquiet.running fun i => .inl rfl
      refine hu.addProcess pid stackRaw (hquiet.count ▸ hspace) hpriority.2 fun i => ?_
      split
      case isTrue hready => exact .inr ⟨hquiet.count ▸ hready.1, rfl⟩
      case isFalse => exact .inl rfl

theorem Contest.Paid.passedAtMost {w : Contest} (hw : w.Paid) :
    w.PassedAtMost starvationBound := fun i hi =>
  (hw.paid i hi).le hw.inRange hi hw.count

/-- Over every run from `scheduler_initialize` in which processes are registered within the priority
limits and every selection leaves room at the cap, no process that stays ready is passed over more
than `starvationBound` times in a row. -/
theorem passedOver_run (k : Kernel) (as : List Action) (hpriority : ∀ a ∈ as, PriorityInRange a)
    (hroom : AllSteps Contest.step Contest.LeavesRoom (Contest.boot k) as) :
    AllStates Contest.step (Contest.PassedAtMost starvationBound) (Contest.boot k) as := by
  have hboth : AllSteps Contest.step (fun w a => PriorityInRange a ∧ w.LeavesRoom a)
      (Contest.boot k) as :=
    (allSteps_of_forall_mem hpriority _).and hroom
  refine AllStates.mono (fun w hw => Contest.Paid.passedAtMost hw)
    (allStates_of_allSteps (I := Contest.Paid) ?_ (Contest.paid_boot k) hboth)
  exact fun w a x hw hstep h => hw.step hstep.1 hstep.2 h

/-- Two processes are registered at priorities 99 and 30, and the master yields. -/
theorem passedOver_run_two :
    AllStates Contest.step (Contest.PassedAtMost starvationBound) (Contest.boot (coldKernel 4096))
      [.call (.registerProcess 0x100000 99 128 0), .call (.registerProcess 0x100000 30 128 0),
        .call .yield, .call .yield, .call .yield] :=
  passedOver_run _ _ (by simp [PriorityInRange, schedMinPriority, schedMaxPriority])
    (by decide +kernel)

/-! ## A process that is never chosen -/

instance (p : Priorities) : Decidable p.InRange :=
  decidable_of_iff (p.base ≤ p.dynamic ∧ p.dynamic ≤ schedMaxPriority ∧
      p.accumulation < schedPriorityAgingLimit)
    ⟨fun h => ⟨h.1, h.2.1, h.2.2⟩, fun h => ⟨h.1, h.2, h.3⟩⟩

/-- Entry `i` is ready, and no sleep deadline puts it off. -/
def SchedulerState.Awake (s : SchedulerState) (i : Nat) : Prop :=
  (s.processTable i).executionState = .running ∧ (s.processTable i).sleepUntilTick = 0

instance (s : SchedulerState) (i : Nat) : Decidable (s.Awake i) := by
  unfold SchedulerState.Awake
  infer_instance

theorem SchedulerState.Awake.eligible {s : SchedulerState} {i : Nat} (h : s.Awake i) :
    s.Eligible i := by
  refine ⟨h.1, ?_⟩
  unfold ProcessControlBlock.asleep
  rw [h.2]
  rfl

/-- No yield sets a deadline. -/
theorem SchedulerState.Awake.schedulerYield {s : SchedulerState} {i : Nat} (h : s.Awake i) :
    (schedulerYield s).Awake i := by
  have hmodify : ∀ (t : SchedulerState) (j : Nat) (f : ProcessControlBlock → ProcessControlBlock),
      (∀ pcb, (f pcb).sleepUntilTick = pcb.sleepUntilTick) →
        ((t.modifyPcb j f).processTable i).sleepUntilTick = (t.processTable i).sleepUntilTick := by
    intro t j f hf
    rw [modifyPcb_processTable]
    split
    case isTrue hi => rw [hf, hi]
    case isFalse => rfl
  have haged : ((schedulerApplyAging s.tick).processTable i).sleepUntilTick = 0 := by
    rw [← h.2]
    unfold schedulerApplyAging
    simp only
    split
    · exact agePcb_sleepUntilTick _
    · rfl
  have hwoken : ((selectLoop (schedulerApplyAging s.tick)).1.processTable i).sleepUntilTick = 0 := by
    have hspec := selectLoop_spec (schedulerApplyAging s.tick)
      (List.range (schedulerApplyAging s.tick).activeProcessCount) _
      { bestIndex := 0, highestPriority := 0, found := false } (Woken.refl _)
    -- waking takes a deadline away, and never sets one
    rcases hspec.woken.entry i with hi | ⟨_, hi⟩
    · exact (congrArg ProcessControlBlock.sleepUntilTick hi).trans haged
    · exact congrArg ProcessControlBlock.sleepUntilTick hi
  have hselect : ((schedulerSelectNextCandidate s.tick).1.processTable i).sleepUntilTick = 0 := by
    unfold schedulerSelectNextCandidate
    simp only
    split
    · exact h.2
    · split
      · exact (hmodify _ _ resetPriority fun _ => rfl).trans hwoken
      · exact hwoken
  refine ⟨((schedulerYield_sameCore s).executionState i).trans h.1, ?_⟩
  unfold Sched.schedulerYield
  simp only
  split
  · exact h.2
  · split
    · exact hselect
    · unfold switchTo
      rw [hmodify _ _ (markScheduled _) fun _ => rfl, hmodify _ _ (chargeTicks _) fun _ => rfl]
      exact hselect

/-- Of three processes, entry 1 always is at the cap, and so entry 2 is never chosen. -/
structure Contest.Overlooked (w : Contest) : Prop where
  count : w.system.sched.activeProcessCount = 3
  running : RunningInTable w.system.sched
  idle : ∀ i < 3, w.system.suspended i = .idle
  inRange : w.system.sched.InRange
  base : (w.system.sched.priorities 1).base = schedMaxPriority
  rival : w.system.sched.Awake 1
  ready : w.system.sched.Awake 2

theorem Contest.Overlooked.step_yield {w : Contest} (hw : w.Overlooked) :
    ∃ x, Contest.step w (.call .yield) = some x ∧ x.Overlooked ∧
      x.passedOver 2 = w.passedOver 2 + 1 := by
  have hcount : ∀ i, i < 3 → i < w.system.sched.activeProcessCount := fun i hi => hw.count ▸ hi
  have hrival : w.system.sched.tick.Awake 1 := hw.rival
  have hready : w.system.sched.tick.Awake 2 := hw.ready
  have hchosen := schedulerYield_chosen (hcount 1 (by omega)) ⟨2, hcount 2 (by omega), hready.eligible⟩
  -- the winner comes before entry 2, since nobody exceeds the priority of entry 1
  have hfirst : (schedulerSelectNextCandidate w.system.sched.tick).2 ≠ 2 := by
    intro hc
    rw [hc] at hchosen
    have hbest := hchosen.best 1 (hcount 1 (by omega)) hrival.eligible
    have hone := inRange_agedPriorities (hw.inRange 1 (hcount 1 (by omega)))
    have htwo := inRange_agedPriorities (hw.inRange 2 (hcount 2 (by omega)))
    have hbase := hone.base_le
    have hmost := htwo.dynamic_le
    rw [base_agedPriorities, hw.base] at hbase
    omega
  have hidle : w.system.suspended w.system.running = .idle := by
    refine hw.idle _ ?_
    have hrunning := hw.running
    unfold RunningInTable at hrunning
    rwa [hw.count] at hrunning
  have hselection : selection w.system (.call .yield) =
      some (schedulerSelectNextCandidate w.system.sched.tick).2 :=
    if_neg (Nat.not_le_of_lt (hcount 1 (by omega)))
  have hstep : Contest.step w (.call .yield) = some
      { system := w.system.withSched (schedulerYield w.system.sched)
        passedOver := fun i =>
          if i < w.system.sched.activeProcessCount ∧ (schedulerYield w.system.sched).Eligible i then
            if i = (schedulerSelectNextCandidate w.system.sched.tick).2 then 0
            else w.passedOver i + 1
          else 0 } := by
    unfold Contest.step System.step
    simp only [hidle, hselection]
    rfl
  refine ⟨_, hstep, ⟨?_, hw.running.schedulerYield, hw.idle, InRange.schedulerYield hw.inRange, ?_,
    hw.rival.schedulerYield, hw.ready.schedulerYield⟩, ?_⟩
  · exact (schedulerYield_sameCore _).count.trans hw.count
  · have hbase : ((schedulerYield w.system.sched).priorities 1).base =
        (w.system.sched.agedPriorities 1).base := by
      rw [hchosen.priorities 1]
      split <;> rfl
    exact hbase.trans ((base_agedPriorities _ _).trans hw.base)
  · exact (if_pos ⟨hcount 2 (by omega), hw.ready.schedulerYield.eligible⟩).trans
      (if_neg hfirst.symm)

theorem Contest.Overlooked.exec_yields {w : Contest} (hw : w.Overlooked) (n : Nat) :
    ∃ x, exec Contest.step w (List.replicate n (.call .yield)) = some x ∧ x.Overlooked ∧
      x.passedOver 2 = w.passedOver 2 + n := by
  induction n generalizing w with
  | zero => exact ⟨w, rfl, hw, rfl⟩
  | succ n ih =>
      rcases hw.step_yield with ⟨x, hstep, hx, hpassed⟩
      rcases ih hx with ⟨y, hexec, hy, hpassed'⟩
      refine ⟨y, ?_, hy, by omega⟩
      rw [List.replicate_succ, exec_cons, hstep]
      exact hexec

/-- A process is registered at priority 100 and one at priority 20; from then on the second one is
passed over in every selection. -/
theorem passedOver_run_false :
    ¬ ∃ bound, ∀ (k : Kernel) (as : List Action), (∀ a ∈ as, PriorityInRange a) →
      AllStates Contest.step (Contest.PassedAtMost bound) (Contest.boot k) as := by
  rintro ⟨bound, h⟩
  have hrun : (exec Contest.step (Contest.boot (coldKernel 4096))
      [.call (.registerProcess 0x100000 schedMaxPriority 128 0),
        .call (.registerProcess 0x100000 schedDefaultPriority 128 0)]).any
      (fun w => decide (w.system.sched.activeProcessCount = 3) &&
        decide (w.system.running < w.system.sched.activeProcessCount) &&
        decide (∀ i : Fin 3, w.system.suspended i = .idle) &&
        decide (∀ i : Fin 3, (w.system.sched.priorities i).InRange) &&
        decide ((w.system.sched.priorities 1).base = schedMaxPriority) &&
        decide (w.system.sched.Awake 1) && decide (w.system.sched.Awake 2)) = true := by
    decide +kernel
  rcases exists_of_exec_any hrun with ⟨w, hexec, ht⟩
  simp only [Bool.and_eq_true, decide_eq_true_eq] at ht
  rcases ht with ⟨⟨⟨⟨⟨⟨hcount, hrunning⟩, hidle⟩, hrange⟩, hbase⟩, hrival⟩, hready⟩
  have hw : w.Overlooked :=
    ⟨hcount, hrunning, fun i hi => hidle ⟨i, hi⟩, fun i hi => hrange ⟨i, hcount ▸ hi⟩, hbase, hrival,
      hready⟩
  -- one yield more than the bound allows, each of which passes entry 2 over
  rcases hw.exec_yields (bound + 1) with ⟨x, hyields, hx, hpassed⟩
  have hlegal : ∀ a ∈ [.call (.registerProcess 0x100000 schedMaxPriority 128 0),
      .call (.registerProcess 0x100000 schedDefaultPriority 128 0)] ++
        List.replicate (bound + 1) (.call .yield), PriorityInRange a := by
    intro a ha
    rcases List.mem_append.1 ha with ha | ha
    · simp only [List.mem_cons, List.not_mem_nil, or_false] at ha
      rcases ha with rfl | rfl <;> exact ⟨by decide, by decide⟩
    · rw [List.eq_of_mem_replicate ha]
      trivial
  have hall := h (coldKernel 4096) _ hlegal
  have hlast : x.PassedAtMost bound := by
    refine hall.last ?_
    rw [exec_append, hexec]
    exact hyields
  have hmost := hlast 2 (by rw [hx.count]; decide)
  omega

end Sched
end WhitexKernel
