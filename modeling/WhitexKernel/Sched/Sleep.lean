import WhitexKernel.Sched.Choice
import WhitexKernel.Sched.Fields

/-!
# Sleep — how long `scheduler_sleep` puts a process off

The deadline of a sleep is the 32-bit sum of the clock and the duration, and it is compared with the
clock as a number.  `Nap` counts the ticks since the call as a natural number, so that what the
sleeper is promised can be stated without the clock.

* `Dozing` — the sleeper is not current, and clock and deadline are still those of its call;
* `before_deadline` — before its time the clock is below the deadline, unless the sum wraps around;
* `sleepKept_iff` — over all runs, the sleeper is put off long enough exactly then.
-/

namespace WhitexKernel
namespace Sched

open Lib Machine Oom SchedulerState

/-! ## Counting ticks -/

/-- A system, and how far `kernel_elapsed_ticks` has advanced since the run began. -/
structure Nap where
  system : System
  advanced : Nat

namespace Nap

def step (w : Nap) (a : Action) : Option Nap :=
  (w.system.step a).map fun t =>
    { system := t
      advanced := if (yieldState w.system a).isSome then w.advanced + 1 else w.advanced }

theorem step_system {w x : Nap} {a : Action} (h : w.step a = some x) :
    w.system.step a = some x.system ∧
      x.advanced = if (yieldState w.system a).isSome then w.advanced + 1 else w.advanced := by
  rcases Option.map_eq_some_iff.1 h with ⟨t, ht, rfl⟩
  exact ⟨ht, rfl⟩

end Nap

/-- A turn selects process `i` only when the clock, with the tick of its yield, has advanced by
`ticks`. -/
def SleepsOut (ticks i : Nat) (w : Nap) (a : Action) : Prop :=
  selection w.system a = some i → ticks ≤ w.advanced + 1

/-- The deadline of the sleep is above the clock until the sleep is over. -/
def DeadlineHolds (now ticks : Nat) : Prop :=
  now + ticks < 2 ^ 32 ∨ now = 2 ^ 32 - 1 ∨ ticks ≤ 1

instance (now ticks : Nat) : Decidable (DeadlineHolds now ticks) := by
  unfold DeadlineHolds
  infer_instance

theorem before_deadline {now ticks advanced : Nat} (h : DeadlineHolds now ticks)
    (hticks : ticks < 2 ^ 32) (hstarted : 1 ≤ advanced) (hearly : advanced < ticks) :
    wrap32 (now + advanced) < wrap32 (now + ticks) := by
  unfold wrap32
  rcases h with hsum | hlast | hshort
  · omega
  -- the clock has wrapped around with its first tick, and so has the sum
  · omega
  · omega

theorem deadline_passed {now ticks : Nat} (h : ¬ DeadlineHolds now ticks) (hnow : now < 2 ^ 32)
    (hticks : ticks < 2 ^ 32) : wrap32 (now + ticks) ≤ wrap32 (now + 1) := by
  unfold DeadlineHolds at h
  unfold wrap32
  omega

/-! ## A yield before the deadline -/

theorem asleep_of_lt {pcb : ProcessControlBlock} {now : Nat} (h : now < pcb.sleepUntilTick) :
    pcb.asleep now = true := by
  have hpos : pcb.sleepUntilTick > 0 := Nat.lt_of_le_of_lt (Nat.zero_le now) h
  simp [ProcessControlBlock.asleep, hpos, h]

/-- A selection leaves the deadline of a process whose sleep has not expired. -/
theorem schedulerSelectNextCandidate_sleepUntilTick {s : SchedulerState} {i : Nat}
    (h : ¬ s.SleepExpired i) :
    ((schedulerSelectNextCandidate s).1.processTable i).sleepUntilTick =
      (s.processTable i).sleepUntilTick := by
  have hloop : ((selectLoop (schedulerApplyAging s)).1.processTable i).sleepUntilTick =
      (s.processTable i).sleepUntilTick := by
    rw [selectLoop_agedAndWoken]
    unfold agedAndWoken
    simp only [h, and_false, if_false]
    split
    · exact agePcb_sleepUntilTick _
    · rfl
  unfold schedulerSelectNextCandidate
  simp only
  split
  · rfl
  · split
    · exact (modifyPcb_field (π := fun pcb => pcb.sleepUntilTick) (f := resetPriority) _ _ i
        fun _ => rfl).trans hloop
    · exact hloop

/-- The sleeper is not current after the yield, and keeps its deadline. -/
theorem schedulerYield_asleep {s : SchedulerState} {i : Nat} (hi : 1 ≤ i)
    (hused : i < s.activeProcessCount)
    (hearly : s.tick.kernelElapsedTicks < (s.processTable i).sleepUntilTick) :
    (schedulerYield s).runningProcessIndex ≠ i ∧
      ((schedulerYield s).processTable i).sleepUntilTick = (s.processTable i).sleepUntilTick := by
  have hmany : 1 < s.activeProcessCount := Nat.lt_of_le_of_lt hi hused
  -- before its deadline the sleeper is not eligible
  have hasleep : ¬ s.tick.Eligible i := by
    intro hel
    have hawake : (s.processTable i).asleep s.tick.kernelElapsedTicks = false := hel.2
    rw [asleep_of_lt hearly] at hawake
    cases hawake
  constructor
  · intro hrun
    rcases schedulerYield_cases s with ⟨hfew, _⟩ | ⟨_, _, _, hel⟩ | ⟨_, _, hzero⟩
    · omega
    · rw [hrun] at hel
      exact hasleep (((schedulerYield_of_one_lt_count hmany).2 i).1 hel)
    · omega
  · have hexpired : ¬ s.tick.SleepExpired i := fun h => hasleep h.eligible
    have hselect := schedulerSelectNextCandidate_sleepUntilTick hexpired
    have hcount : ¬ s.tick.activeProcessCount ≤ 1 := Nat.not_le_of_lt hmany
    unfold schedulerYield
    simp only [hcount, if_false]
    split
    · exact hselect
    · unfold switchTo
      exact (modifyPcb_field (π := fun pcb => pcb.sleepUntilTick) (f := markScheduled _) _ _ i
        fun _ => rfl).trans ((modifyPcb_field (π := fun pcb => pcb.sleepUntilTick)
          (f := chargeTicks _) _ _ i fun _ => rfl).trans hselect)

theorem schedulerYield_now (s : SchedulerState) :
    (schedulerYield s).kernelElapsedTicks = wrap32 (s.kernelElapsedTicks + 1) := by
  have htick : s.tick.kernelElapsedTicks = wrap32 (s.kernelElapsedTicks + 1) := rfl
  unfold schedulerYield
  simp only
  split
  · exact htick
  case isFalse hcount =>
    have hspec := schedulerSelectNextCandidate_spec s.tick (by omega)
    split
    · exact hspec.now.trans htick
    · exact hspec.now.trans htick

/-- Whoever a turn selects is current after it. -/
theorem selection_eq_some {s : System} {a : Action} {u : SchedulerState} {i : Nat}
    (hyield : yieldState s a = some u) (h : selection s a = some i) :
    (schedulerYield u).runningProcessIndex = i := by
  unfold selection at h
  simp only [hyield] at h
  split at h
  · cases h
  case isFalse hcount =>
    cases h
    exact (schedulerYield_of_one_lt_count (Nat.lt_of_not_le hcount)).1

/-! ## Dozing -/

/-- Process `i`, which called `scheduler_sleep(ticks)` at the clock `now`, sleeps on. -/
structure Dozing (now ticks i : Nat) (w : Nap) : Prop where
  used : i < w.system.sched.activeProcessCount
  other : w.system.running ≠ i
  deadline : (w.system.sched.processTable i).sleepUntilTick = wrap32 (now + ticks)
  clock : w.system.sched.kernelElapsedTicks = wrap32 (now + w.advanced)

/-- The sleep is over, or goes on. -/
def Napping (now ticks i : Nat) (w : Nap) : Prop := ticks ≤ w.advanced ∨ Dozing now ticks i w

theorem lasting_deadline : Lasting fun pcb => pcb.sleepUntilTick := by
  refine ⟨fun _ _ => rfl, fun _ _ => rfl, fun _ _ => rfl, fun pid pcb => ?_, fun _ _ => rfl,
    fun _ => rfl⟩
  unfold releasePcb
  split
  · rfl
  · rfl

theorem quiet_of_yield {s t : System} {a : Action} {u : SchedulerState} (h : s.step a = some t)
    (hyield : yieldState s a = some u) : Quiet s.sched u ∧ t.sched = schedulerYield u := by
  have hturned := System.step_turned h
  rw [hyield] at hturned
  generalize t.sched = v at hturned ⊢
  cases hturned with
  | yielded hquiet => exact ⟨hquiet, rfl⟩

/-- A turn that does not yield leaves the clock, and takes no process off the table. -/
theorem keeps_of_no_yield {s t : System} {a : Action} (h : s.step a = some t)
    (hyield : yieldState s a = none) :
    t.sched.kernelElapsedTicks = s.sched.kernelElapsedTicks ∧ t.running = s.running ∧
      s.sched.activeProcessCount ≤ t.sched.activeProcessCount := by
  have hturned := System.step_turned h
  rw [hyield] at hturned
  have hrunning : t.running = t.sched.runningProcessIndex := rfl
  rw [hrunning]
  generalize t.sched = v at hturned ⊢
  cases hturned with
  | quiet hquiet => exact ⟨hquiet.now, hquiet.running, Nat.le_of_eq hquiet.count.symm⟩
  | added pid stackRaw ha hquiet hroom =>
      exact ⟨hquiet.now, hquiet.running, hquiet.count ▸ Nat.le_succ _⟩

variable {now ticks i : Nat} {w x : Nap} {a : Action}

/-- One yield of the sleep, be it that of `scheduler_sleep` itself or a later one. -/
theorem napping_of_yield {u : SchedulerState} (hi : 1 ≤ i) (hholds : DeadlineHolds now ticks)
    (hticks : ticks < 2 ^ 32) (h : w.step a = some x) (hyield : yieldState w.system a = some u)
    (hused : i < u.activeProcessCount)
    (hdeadline : (u.processTable i).sleepUntilTick = wrap32 (now + ticks))
    (hclock : u.kernelElapsedTicks = wrap32 (now + w.advanced)) :
    SleepsOut ticks i w a ∧ Napping now ticks i x := by
  rcases Nap.step_system h with ⟨hstep, hadvanced⟩
  rw [hyield, Option.isSome_some, if_pos rfl] at hadvanced
  rcases quiet_of_yield hstep hyield with ⟨_, hx⟩
  -- the ticks are over with this yield, or the deadline is still ahead of the clock
  by_cases hover : ticks ≤ w.advanced + 1
  · refine ⟨fun _ => hover, .inl ?_⟩
    rw [hadvanced]
    exact hover
  · have hnow : wrap32 (u.kernelElapsedTicks + 1) = wrap32 (now + (w.advanced + 1)) := by
      rw [hclock]
      unfold wrap32
      omega
    have hearly : u.tick.kernelElapsedTicks < (u.processTable i).sleepUntilTick := by
      rw [hdeadline, show u.tick.kernelElapsedTicks = _ from hnow]
      exact before_deadline hholds hticks (Nat.le_add_left 1 _) (Nat.lt_of_not_le hover)
    rcases schedulerYield_asleep hi hused hearly with ⟨hother, hkept⟩
    refine ⟨fun hselected => absurd (selection_eq_some hyield hselected) hother, .inr ?_⟩
    have hcount := (schedulerYield_sameCore u).count
    refine
      { used := ?_
        other := ?_
        deadline := ?_
        clock := ?_ }
    · rw [hx, hcount]
      exact hused
    · rw [show x.system.running = x.system.sched.runningProcessIndex from rfl, hx]
      exact hother
    · rw [hx, hkept]
      exact hdeadline
    · rw [hx, schedulerYield_now, hadvanced]
      exact hnow

theorem Dozing.step (hw : Dozing now ticks i w) (hi : 1 ≤ i) (hholds : DeadlineHolds now ticks)
    (hticks : ticks < 2 ^ 32) (h : w.step a = some x) :
    SleepsOut ticks i w a ∧ Napping now ticks i x := by
  rcases Nap.step_system h with ⟨hstep, hadvanced⟩
  have hkept := lasting_deadline.step hstep hw.used (.inl hw.other.symm)
  -- without a yield neither the clock moves nor anybody is selected
  cases hyield : yieldState w.system a with
  | none =>
      rw [hyield] at hkept hadvanced
      rcases keeps_of_no_yield hstep hyield with ⟨hnow, hrunning, hcount⟩
      have hnone : selection w.system a = none := by
        unfold selection
        rw [hyield]
      refine ⟨fun hselected => absurd (hnone.symm.trans hselected) nofun, .inr ?_⟩
      refine
        { used := Nat.lt_of_lt_of_le hw.used hcount
          other := hrunning ▸ hw.other
          deadline := hkept.trans hw.deadline
          clock := ?_ }
      rw [hnow, hadvanced]
      exact hw.clock
  | some u =>
      rw [hyield] at hkept
      have hquiet := (quiet_of_yield hstep hyield).1
      exact napping_of_yield hi hholds hticks h hyield (hquiet.count ▸ hw.used)
        (hkept.trans hw.deadline) (hquiet.now.trans hw.clock)

theorem Napping.step (hw : Napping now ticks i w) (hi : 1 ≤ i) (hholds : DeadlineHolds now ticks)
    (hticks : ticks < 2 ^ 32) (h : w.step a = some x) :
    SleepsOut ticks i w a ∧ Napping now ticks i x := by
  rcases hw with hover | hdozing
  · have hadvanced := (Nap.step_system h).2
    have hle : w.advanced ≤ x.advanced := by
      rw [hadvanced]
      split
      · omega
      · omega
    exact ⟨fun _ => by omega, .inl (Nat.le_trans hover hle)⟩
  · exact hdozing.step hi hholds hticks h

/-! ## Runs -/

/-- Process `i` is current and about to sleep at the clock `now`. -/
structure AboutToSleep (now i : Nat) (s : System) : Prop where
  running : s.running = i
  used : i < s.sched.activeProcessCount
  clock : s.sched.kernelElapsedTicks = now

/-- What process `i` is promised by `scheduler_sleep(ticks)` at the clock `now`, whatever is done
afterwards. -/
def SleepKept (now ticks i : Nat) : Prop :=
  ∀ (s : System) (as : List Action), AboutToSleep now i s →
    AllSteps Nap.step (SleepsOut ticks i) { system := s, advanced := 0 }
      (.call (.sleep ticks) :: as)

theorem sleepKept_of_deadlineHolds (hi : 1 ≤ i) (hholds : DeadlineHolds now ticks)
    (hticks : ticks < 2 ^ 32) (hnow : now < 2 ^ 32) : SleepKept now ticks i := by
  intro s as hs x hx
  have hfirst := napping_of_yield (w := { system := s, advanced := 0 }) hi hholds hticks hx
    (u := s.sched.modifyPcb s.running (setDeadline (wrap32 (s.sched.kernelElapsedTicks + ticks))))
    rfl hs.used (by simp [hs.running, hs.clock, setDeadline])
    (hs.clock.trans (wrap32_of_lt hnow).symm)
  refine ⟨hfirst.1, ?_⟩
  have hnaps : AllStates Nap.step (Napping now ticks i) x as :=
    allStates_of_invariant (fun _ _ _ hu hv => (hu.step hi hholds hticks hv).2) hfirst.2 as
  exact hnaps.allSteps_of_step fun _ _ _ hu hv _ => (hu.step hi hholds hticks hv).1

/-- Process `i` is current at the clock `now`, and nobody else is ready. -/
def onlyReady (now i : Nat) : System :=
  { kernel :=
      { sched :=
          { processTable := fun j =>
              if j = i then { ProcessControlBlock.zero with executionState := .running }
              else ProcessControlBlock.zero
            activeProcessCount := i + 1
            runningProcessIndex := i
            schedulerCycles := 0
            globalProcessIdentifierSeed := 100
            kernelElapsedTicks := now }
        oom := sysOomInit 4096 4096 4096 SysOomCtrl.zero
        autoPid := 100 }
    suspended := fun _ => .idle
    sends := []
    receives := [] }

theorem onlyReady_aboutToSleep (now i : Nat) : AboutToSleep now i (onlyReady now i) :=
  ⟨rfl, Nat.lt_succ_self i, rfl⟩

/-- Only those are selected who are ready. -/
theorem onlyReady_selection (now ticks i : Nat) (hi : 1 ≤ i)
    (hpassed : wrap32 (now + ticks) ≤ wrap32 (now + 1)) :
    selection (onlyReady now i) (.call (.sleep ticks)) = some i := by
  have hyield : yieldState (onlyReady now i) (.call (.sleep ticks)) =
      some ((onlyReady now i).sched.modifyPcb i (setDeadline (wrap32 (now + ticks)))) := rfl
  unfold selection
  rw [hyield]
  simp only
  generalize hu : (onlyReady now i).sched.modifyPcb i (setDeadline (wrap32 (now + ticks))) = u
  have hcount : u.activeProcessCount = i + 1 := by
    rw [← hu]
    rfl
  have hready : ∀ j, u.tick.Eligible j → j = i := by
    intro j hel
    by_contra hne
    have hstate : (u.processTable j).executionState = .running := hel.1
    rw [← hu, modifyPcb_processTable, if_neg hne] at hstate
    simp [onlyReady, hne, ProcessControlBlock.zero] at hstate
  -- the deadline has wrapped behind the clock, so the sleeper counts as awake
  have hself : u.tick.Eligible i := by
    have hentry : u.processTable i =
        setDeadline (wrap32 (now + ticks))
          { ProcessControlBlock.zero with executionState := .running } := by
      rw [← hu, modifyPcb_processTable, if_pos rfl]
      simp [onlyReady]
    have hnow : u.tick.kernelElapsedTicks = wrap32 (now + 1) := by
      rw [← hu]
      rfl
    have hdeadline : ¬ wrap32 (now + 1) < wrap32 (now + ticks) := Nat.not_lt.2 hpassed
    refine ⟨?_, ?_⟩
    · rw [show u.tick.processTable = u.processTable from rfl, hentry]
      rfl
    · rw [show u.tick.processTable = u.processTable from rfl, hentry, hnow]
      simp [ProcessControlBlock.asleep, setDeadline, hdeadline]
  have hspec := schedulerSelectNextCandidate_spec u.tick (by
    rw [tick_activeProcessCount, hcount]
    omega)
  have hchosen := hspec.chosen ⟨i, by rw [tick_activeProcessCount, hcount]; omega, hself⟩
  rw [if_neg (by omega), hready _ hchosen.2]

theorem not_sleepKept (hi : 1 ≤ i) (hholds : ¬ DeadlineHolds now ticks) (hticks : ticks < 2 ^ 32)
    (hnow : now < 2 ^ 32) : ¬ SleepKept now ticks i := by
  intro hkept
  have hselected := onlyReady_selection now ticks i hi (deadline_passed hholds hnow hticks)
  have hfirst := (hkept (onlyReady now i) [] (onlyReady_aboutToSleep now i) _ rfl).1 hselected
  unfold DeadlineHolds at hholds
  have hone : ticks ≤ 0 + 1 := hfirst
  omega

/-- For every clock, every duration and every process other than the master, a process that calls
`scheduler_sleep` is put off until the clock has advanced by the duration, whatever is done
meanwhile, exactly when the sum of clock and duration does not wrap around, or the very next tick
wraps the clock around too, or the duration is one tick at most. -/
theorem sleepKept_iff (now ticks : BitVec 32) (i : Nat) (hi : 1 ≤ i) :
    SleepKept now.toNat ticks.toNat i ↔
      now.toNat + ticks.toNat < 2 ^ 32 ∨ now.toNat = 2 ^ 32 - 1 ∨ ticks.toNat ≤ 1 := by
  constructor
  · intro hkept
    by_contra hholds
    exact not_sleepKept hi hholds ticks.isLt now.isLt hkept
  · intro hholds
    exact sleepKept_of_deadlineHolds hi hholds ticks.isLt now.isLt

/-- A sleep of three ticks at tick 5. -/
theorem sleepKept_iff_short : SleepKept 5 3 1 :=
  (sleepKept_iff 5 3 1 (by decide)).2 (by decide)

/-- A sleep of 32 ticks that begins 16 ticks before the clock wraps around is over at once. -/
theorem sleepKept_false :
    ¬ ∀ (now ticks : BitVec 32) (i : Nat), 1 ≤ i → SleepKept now.toNat ticks.toNat i := by
  intro h
  have hkept := h 0xFFFFFFF0 0x20 1 (by decide)
  exact not_sleepKept (by decide) (by decide) (by decide) (by decide) hkept

end Sched
end WhitexKernel
