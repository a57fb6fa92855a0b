import WhitexKernel.Sched.Events
import WhitexKernel.Sched.Memory

/-!
# Resources — what a process costs and what its death gives back

A registration takes an entry of the process table, an entry of the task array and pages of
`ZONE_NORMAL`.  No death gives any of the three back: entries in use stay in use, and neither
`scheduler_terminate_process` nor a signal calls into the OOM controller.  `Accounts` keeps the
books: how far the three counters moved when an entry was filled, and when its process died.
-/

namespace WhitexKernel
namespace Sched

open Lib Machine Oom

/-! ## The counters -/

/-- The usable entries of `process_table`, the free entries of `task_array`, and the free pages of
`ZONE_NORMAL`. -/
@[ext] structure Resources where
  slots : Int
  taskSlots : Int
  pages : Int
  deriving DecidableEq, Repr

namespace Resources

instance : Zero Resources := ⟨{ slots := 0, taskSlots := 0, pages := 0 }⟩

instance : Sub Resources :=
  ⟨fun r q =>
    { slots := r.slots - q.slots
      taskSlots := r.taskSlots - q.taskSlots
      pages := r.pages - q.pages }⟩

@[simp] theorem sub_slots (r q : Resources) : (r - q).slots = r.slots - q.slots := rfl

@[simp] theorem sub_taskSlots (r q : Resources) :
    (r - q).taskSlots = r.taskSlots - q.taskSlots := rfl

@[simp] theorem sub_pages (r q : Resources) : (r - q).pages = r.pages - q.pages := rfl

@[simp] theorem zero_slots : (0 : Resources).slots = 0 := rfl

theorem sub_self (r : Resources) : r - r = 0 := by
  ext
  · exact Int.sub_self r.slots
  · exact Int.sub_self r.taskSlots
  · exact Int.sub_self r.pages

end Resources

def Kernel.resources (k : Kernel) : Resources :=
  { slots := sysMaxTasks - k.sched.activeProcessCount
    taskSlots := sysMaxTasks - k.oom.activeTaskCount
    pages := (k.oom.zones zoneNormal).freePages }

/-- How many entries in use are not dead. -/
def liveProcesses (s : SchedulerState) : Nat :=
  (List.range s.activeProcessCount).countP fun i => (s.processTable i).executionState ≠ .dead

/-! ## The books -/

/-- The system, how much of each counter went when entry `i` was filled, and how much of it came
back when the process in it died. -/
structure Accounts where
  system : System
  took : Nat → Resources
  gaveBack : Nat → Resources

namespace Accounts

/-- The scheduler globals. -/
abbrev sched (s : Accounts) : SchedulerState := s.system.kernel.sched

/-- The entry is in use, and its process is dead. -/
def Died (s : SchedulerState) (i : Nat) : Prop :=
  i < s.activeProcessCount ∧ (s.processTable i).executionState = .dead

instance (s : SchedulerState) (i : Nat) : Decidable (Died s i) :=
  inferInstanceAs (Decidable (_ ∧ _))

/-- Enter a turn of the system. -/
def after (s : Accounts) (t : System) : Accounts :=
  { system := t
    took := fun i =>
      if s.sched.activeProcessCount ≤ i ∧ i < t.sched.activeProcessCount then
        s.system.kernel.resources - t.kernel.resources
      else s.took i
    gaveBack := fun i =>
      if Died t.sched i ∧ ¬ Died s.sched i then
        t.kernel.resources - s.system.kernel.resources
      else s.gaveBack i }

def step (s : Accounts) (a : Action) : Option Accounts := (s.system.step a).map s.after

/-- After `scheduler_initialize`, which puts the master process into one entry. -/
def boot (k : Kernel) : Accounts :=
  { system := System.boot k
    took := fun _ => { slots := 1, taskSlots := 0, pages := 0 }
    gaveBack := fun _ => 0 }

/-- Whatever a dead process took has come back with its death. -/
def Neutral (s : Accounts) : Prop := ∀ i, Died s.sched i → s.gaveBack i = s.took i

/-- `ERR_MEM_OUT_OF_MEM` is returned only with `SYS_MAX_TASKS` live processes. -/
def OutOfMemOnlyWhenFull (s : Accounts) : Action → Prop
  | .call (.registerProcess entryPoint priority initialRss allocationFlags) =>
      ∀ k, schedulerRegisterProcess s.system.kernel entryPoint priority initialRss allocationFlags =
          .ok (k, .memOutOfMem) →
        liveProcesses s.sched = sysMaxTasks
  | _ => True

/-- The turn terminates or kills nobody who is alive. -/
def SparesLiving (s : Accounts) (a : Action) : Prop :=
  ∀ i, (lifecycleEvent s.system a).victim = some i →
    (s.sched.processTable i).executionState = .dead

end Accounts

/-! ## What the calls do to the counters -/

/-- `ERR_MEM_OUT_OF_MEM` means that the process table is full. -/
theorem full_of_memOutOfMem {k k' : Kernel} {entryPoint priority rss flags : Nat}
    (h : schedulerRegisterProcess k entryPoint priority rss flags = .ok (k', .memOutOfMem)) :
    sysMaxTasks ≤ k.sched.activeProcessCount := by
  by_contra hroom
  unfold schedulerRegisterProcess at h
  rw [if_neg hroom] at h
  simp only [bind, Except.bind, pure, Except.pure] at h
  repeat' split at h
  all_goals cases h

theorem receiveRound_oom (s : System) (maxLength : Nat) :
    (s.receiveRound maxLength).kernel.oom = s.kernel.oom := by
  unfold System.receiveRound
  split <;> rfl

/-- No other turn touches the OOM controller. -/
theorem step_oom {s t : System} {a : Action} (h : s.step a = some t) :
    (∃ entryPoint priority rss flags, a = .call (.registerProcess entryPoint priority rss flags)) ∨
      t.kernel.oom = s.kernel.oom := by
  cases System.step_turn h with
  | receiveAgain maxLength hsus => exact .inr (receiveRound_oom s maxLength)
  | waitReturns pid target hsus => exact .inr rfl
  | call c hidle hcall =>
      cases c with
      | registerProcess entryPoint priority rss flags =>
          exact .inl ⟨entryPoint, priority, rss, flags, rfl⟩
      | waitPid pid =>
          cases hcall
          unfold System.wait
          split <;> exact .inr rfl
      | ipcSend dest message length type =>
          cases hcall
          unfold System.send
          split <;> exact .inr rfl
      | ipcReceive maxLength =>
          cases hcall
          exact .inr (receiveRound_oom s maxLength)
      -- the other calls change the scheduler globals alone
      | _ =>
          cases hcall
          exact .inr rfl

theorem LifecycleEvent.mortal_of_victim {e : LifecycleEvent} {i : Nat} (h : e.victim = some i) :
    e.Mortal := by
  cases e with
  | spawn pid => cases h
  | block j pid => cases h
  | _ => trivial

theorem registerEvent_victim (k : Kernel) (entryPoint priority rss flags : Nat) :
    (registerEvent k entryPoint priority rss flags).victim = none := by
  unfold registerEvent
  split <;> rfl

/-- A turn that somebody dies of changes none of the three counters. -/
theorem death_resources {s t : System} {a : Action} {i : Nat} (h : s.step a = some t)
    (hvictim : (lifecycleEvent s a).victim = some i) : t.kernel.resources = s.kernel.resources := by
  have hmortal := LifecycleEvent.mortal_of_victim hvictim
  have hcount : t.sched.activeProcessCount = s.sched.activeProcessCount := by
    have hview := congrArg Lifecycle.count (step_view h)
    exact hview.trans (Lifecycle.apply_count hmortal)
  have hoom : t.kernel.oom = s.kernel.oom := by
    rcases step_oom h with ⟨entryPoint, priority, rss, flags, rfl⟩ | hoom
    · rw [lifecycleEvent, registerEvent_victim] at hvictim
      cases hvictim
    · exact hoom
  unfold Kernel.resources
  rw [hoom, hcount]

/-- The next entry comes into use, or none does. -/
theorem step_count {s t : System} {a : Action} (h : s.step a = some t) :
    t.sched.activeProcessCount = s.sched.activeProcessCount ∨
      (s.sched.activeProcessCount < sysMaxTasks ∧
        t.sched.activeProcessCount = s.sched.activeProcessCount + 1) := by
  have hview : t.sched.activeProcessCount =
      ((view s.sched).apply (lifecycleEvent s a)).count := congrArg Lifecycle.count (step_view h)
  rw [hview]
  rcases lifecycleEvent_cases s a with hmortal | ⟨pid, hblock⟩ | ⟨_, _, _, _, _, hroom, hspawn⟩
  · exact .inl (Lifecycle.apply_count hmortal)
  · rw [hblock]
    exact .inl rfl
  · rw [hspawn]
    exact .inr ⟨hroom, rfl⟩

/-! ## Who dies -/

theorem Lifecycle.victim_of_dies {l : Lifecycle} {e : LifecycleEvent} (he : l.Enabled e) {i : Nat}
    (hi : i < l.count) (halive : l.state i ≠ .dead) (hdead : (l.apply e).state i = .dead) :
    e.victim = some i := by
  cases e with
  | spawn pid =>
      have hne : i ≠ l.count := Nat.ne_of_lt hi
      simp [Lifecycle.apply, hne, halive] at hdead
  | block j pid =>
      by_cases hij : i = j
      · simp [Lifecycle.apply, Lifecycle.setState, hij] at hdead
      · simp [Lifecycle.apply, Lifecycle.setState, hij, halive] at hdead
  | _ => exact ((Lifecycle.apply_dead_iff he trivial i).1 hdead).resolve_right halive

theorem Lifecycle.victim_used {l : Lifecycle} {e : LifecycleEvent} (he : l.Enabled e) {i : Nat}
    (h : e.victim = some i) : i < l.count := by
  cases e with
  | terminate j pid =>
      cases h
      exact he.1
  | kill j =>
      cases h
      exact he.1
  | _ => cases h

/-- Whoever dies in a turn is the victim of its event. -/
theorem step_victim {s t : System} {a : Action} (hrun : RunningInTable s.sched)
    (h : s.step a = some t) {i : Nat} (hi : i < s.sched.activeProcessCount)
    (halive : (s.sched.processTable i).executionState ≠ .dead)
    (hdead : (t.sched.processTable i).executionState = .dead) :
    (lifecycleEvent s a).victim = some i := by
  have hstate : ((view s.sched).apply (lifecycleEvent s a)).state i = .dead := by
    rw [← step_view h]
    exact hdead
  exact Lifecycle.victim_of_dies (step_enabled hrun a) hi halive hstate

namespace Accounts

/-- Only entries that were in use hold somebody dead after a turn. -/
theorem used_of_died {s t : System} {a : Action} (h : s.step a = some t) {i : Nat}
    (hi : Died t.sched i) : i < s.sched.activeProcessCount := by
  by_contra hnew
  have hcount : i < ((view s.sched).apply (lifecycleEvent s a)).count := by
    rw [← step_view h]
    exact hi.1
  have hrunning := Lifecycle.state_of_new (Nat.not_lt.1 hnew) hcount
  rw [← step_view h] at hrunning
  have hdead : (view t.sched).state i = .dead := hi.2
  rw [hrunning] at hdead
  cases hdead

/-! ## The books are right -/

/-- Every entry in use has cost an entry, and no death has brought anything back. -/
structure Booked (s : Accounts) : Prop where
  running : RunningInTable s.sched
  count : s.sched.activeProcessCount ≤ sysMaxTasks
  took : ∀ i, i < s.sched.activeProcessCount → (s.took i).slots = 1
  gaveBack : ∀ i, Died s.sched i → s.gaveBack i = 0

theorem booked_boot (k : Kernel) : (boot k).Booked where
  running := runningInTable_boot k
  count := Nat.one_le_iff_ne_zero.2 (by decide)
  took := fun _ _ => rfl
  gaveBack := fun _ _ => rfl

theorem nobodyDied_boot (k : Kernel) (i : Nat) : ¬ Died (boot k).sched i := by
  rintro ⟨hused, hdead⟩
  have hi : i = 0 := Nat.lt_one_iff.1 hused
  subst hi
  simp [boot, sched, System.boot, schedulerInitialize, masterPcb] at hdead

theorem Booked.step {s t : Accounts} {a : Action} (hs : s.Booked) (h : s.step a = some t) :
    t.Booked := by
  rcases Option.map_eq_some_iff.1 h with ⟨u, hu, rfl⟩
  refine
    { running := hs.running.step hu
      count := ?_
      took := fun i hi => ?_
      gaveBack := fun i hi => ?_ }
  · rcases step_count hu with hcount | ⟨hroom, hcount⟩
    · exact hcount ▸ hs.count
    · exact hcount ▸ hroom
  · have hi' : i < u.sched.activeProcessCount := hi
    -- an entry that has just come into use, or an older one
    by_cases hnew : s.sched.activeProcessCount ≤ i
    · have htook : (s.after u).took i = s.system.kernel.resources - u.kernel.resources :=
        if_pos ⟨hnew, hi'⟩
      rw [htook]
      have hgrown : u.kernel.sched.activeProcessCount =
          s.system.kernel.sched.activeProcessCount + 1 := by
        rcases step_count hu with hcount | ⟨_, hcount⟩
        · exact absurd (Nat.lt_of_lt_of_le hi' (Nat.le_of_eq hcount)) (Nat.not_lt.2 hnew)
        · exact hcount
      simp only [Resources.sub_slots, Kernel.resources, hgrown]
      omega
    · have htook : (s.after u).took i = s.took i := if_neg fun h => hnew h.1
      rw [htook]
      exact hs.took i (Nat.lt_of_not_le hnew)
  -- an entry that was dead already, or has died in this turn
  · by_cases hbefore : Died s.sched i
    · have hback : (s.after u).gaveBack i = s.gaveBack i := if_neg fun h => h.2 hbefore
      rw [hback]
      exact hs.gaveBack i hbefore
    · have hback : (s.after u).gaveBack i = u.kernel.resources - s.system.kernel.resources :=
        if_pos ⟨hi, hbefore⟩
      have hused := used_of_died hu hi
      have halive : (s.sched.processTable i).executionState ≠ .dead :=
        fun hdead => hbefore ⟨hused, hdead⟩
      have hvictim := step_victim hs.running hu hused halive hi.2
      rw [hback, death_resources hu hvictim]
      exact Resources.sub_self _

/-- With the books right, the law says that nobody has died. -/
theorem Booked.neutral_iff {s : Accounts} (hs : s.Booked) :
    s.Neutral ↔ ∀ i, ¬ Died s.sched i := by
  constructor
  · intro hneutral i hi
    have hslots := congrArg Resources.slots (hneutral i hi)
    rw [hs.gaveBack i hi, hs.took i hi.1] at hslots
    cases hslots
  · intro hnone i hi
    exact absurd hi (hnone i)

theorem liveProcesses_of_nobodyDied {s : SchedulerState} (h : ∀ i, ¬ Died s i) :
    liveProcesses s = s.activeProcessCount := by
  unfold liveProcesses
  rw [List.countP_eq_length.2, List.length_range]
  intro i hi
  have hi' : i < s.activeProcessCount := List.mem_range.1 hi
  simpa using fun hdead => h i ⟨hi', hdead⟩

/-- While nobody has died, the table is full only with live processes. -/
theorem Booked.outOfMem {s : Accounts} (hs : s.Booked) (hneutral : s.Neutral) (a : Action) :
    s.OutOfMemOnlyWhenFull a := by
  have hlive := liveProcesses_of_nobodyDied (hs.neutral_iff.1 hneutral)
  match a with
  | .call (.registerProcess entryPoint priority rss flags) =>
      intro k h
      rw [hlive]
      exact Nat.le_antisymm hs.count (full_of_memOutOfMem h)
  | .call (.terminateProcess pid) => trivial
  | .call .terminateCurrent => trivial
  | .call (.sendSignal pid signal) => trivial
  | .call (.waitPid pid) => trivial
  | .call (.ipcSend dest message length type) => trivial
  | .call (.ipcReceive maxLength) => trivial
  | .call (.sleep ticks) => trivial
  | .call .yield => trivial
  | .resume => trivial

/-- A turn leaves nobody dead exactly when it kills nobody. -/
theorem nobodyDied_step_iff {s : Accounts} {t : System} {a : Action} (hs : s.Booked)
    (hnone : ∀ i, ¬ Died s.sched i) (h : s.system.step a = some t) :
    (∀ i, ¬ Died t.sched i) ↔ s.SparesLiving a := by
  constructor
  · intro hafter i hvictim
    have henabled := step_enabled hs.running a
    have hdead : (view t.sched).state i = .dead := by
      rw [step_view h]
      exact (Lifecycle.apply_dead_iff henabled (LifecycleEvent.mortal_of_victim hvictim) i).2
        (.inl hvictim)
    have hused : i < t.sched.activeProcessCount := by
      have hcount := Lifecycle.count_le_apply (view s.sched) (lifecycleEvent s.system a)
      rw [← step_view h] at hcount
      exact Nat.lt_of_lt_of_le (Lifecycle.victim_used henabled hvictim) hcount
    exact absurd ⟨hused, hdead⟩ (hafter i)
  · intro hspare i hi
    have hused := used_of_died h hi
    have halive : (s.sched.processTable i).executionState ≠ .dead :=
      fun hdead => hnone i ⟨hused, hdead⟩
    exact halive (hspare i (step_victim hs.running h hused halive hi.2))

theorem step_neutral_iff {s t : Accounts} {a : Action} (hs : s.Booked) (hneutral : s.Neutral)
    (h : s.step a = some t) : s.OutOfMemOnlyWhenFull a ∧ t.Neutral ↔ s.SparesLiving a := by
  have ht := hs.step h
  rcases Option.map_eq_some_iff.1 h with ⟨u, hu, rfl⟩
  rw [ht.neutral_iff, ← nobodyDied_step_iff hs (hs.neutral_iff.1 hneutral) hu]
  exact ⟨fun h => h.2, fun h => ⟨hs.outOfMem hneutral a, h⟩⟩

/-- Over every run from `scheduler_initialize`, deaths give back what registrations took, and a
registration is refused for lack of room only with `SYS_MAX_TASKS` live processes, exactly when
nobody dies in it. -/
theorem neutral_run_iff (k : Kernel) (as : List Action) :
    AllSteps step OutOfMemOnlyWhenFull (boot k) as ∧ AllStates step Neutral (boot k) as ↔
      AllSteps step SparesLiving (boot k) as :=
  allSteps_and_allStates_iff (J := Booked) (fun _ _ _ hs h => hs.step h)
    (fun _ _ _ hs hneutral h => step_neutral_iff hs hneutral h) (booked_boot k)
    ((booked_boot k).neutral_iff.2 (nobodyDied_boot k))

/-- Of two children the second terminates: its entry, its task slot and its pages stay taken. -/
theorem neutral_run_false :
    ¬ ∀ (k : Kernel) (as : List Action), AllSteps step OutOfMemOnlyWhenFull (boot k) as ∧
      AllStates step Neutral (boot k) as := by
  intro h
  have hrun : (exec step (boot (coldKernel 4096))
      [.call (.registerProcess 0x100000 20 128 0), .call (.registerProcess 0x200000 20 128 0),
        .call (.terminateProcess 101)]).any
        (fun s => decide (Died s.sched 2) &&
          decide (s.took 2 = { slots := 1, taskSlots := 1, pages := 2 }) &&
          decide (s.gaveBack 2 = { slots := 0, taskSlots := 0, pages := 0 })) = true := by
    decide
  rcases exists_of_exec_any hrun with ⟨s, hexec, hs⟩
  simp only [Bool.and_eq_true, decide_eq_true_eq] at hs
  have hback := ((h _ _).2).last hexec 2 hs.1.1
  rw [hs.1.2, hs.2] at hback
  cases hback

end Accounts

end Sched
end WhitexKernel
