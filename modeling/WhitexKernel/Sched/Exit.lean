import WhitexKernel.Sched.Death
import WhitexKernel.Sched.Fields
import WhitexKernel.Sched.Protection

/-!
# Exit — what becomes of a process whose entry function returns

`scheduler_exit_stub` calls `scheduler_terminate_current`, which looks the current process up by its
PID and asks the permission check of `scheduler_terminate_process`.  The process goes for good exactly
when it is the first one of its PID and may be killed; otherwise the call kills somebody else or
nobody, and the process stays ready.

* `Terminable` — the lookup finds the process itself, and the check lets it go;
* `dead_run` — a dead process other than the master is never current again;
* `exited_iff` — over all runs, an exit succeeds exactly for terminable processes.
-/

namespace WhitexKernel
namespace Sched

open Lib Machine Oom SchedulerState

/-! ## The lookup and the check -/

/-- A termination by the PID of process `i` kills process `i`. -/
structure Terminable (s : SchedulerState) (i : Nat) : Prop where
  first : ∀ j, j < i → (s.processTable j).taskId ≠ (s.processTable i).taskId
  notMaster : (s.processTable i).taskId ≠ 100
  notCritical : ¬ (s.processTable i).allocationFlags.testBit oomFlagCritical = true

/-- The victim of a termination is the first process of the PID, unless the check refuses. -/
theorem terminateEvent_victim {s : SchedulerState} {pid i : Nat}
    (h : (terminateEvent s pid).victim = some i) :
    Terminable s i ∧ (s.processTable i).taskId = pid := by
  unfold terminateEvent at h
  cases hfind : s.findIndex fun pcb => pcb.taskId == pid with
  | none => simp [hfind, LifecycleEvent.victim] at h
  | some j =>
      simp only [hfind] at h
      split at h
      case isTrue => cases h
      case isFalse hallowed =>
        cases h
        rcases findIndex_eq_some hfind with ⟨_, hpid, hbefore⟩
        have hpid : (s.processTable i).taskId = pid := beq_iff_eq.1 hpid
        rw [not_or] at hallowed
        refine ⟨⟨fun j hj => ?_, ?_, hallowed.2⟩, hpid⟩
        · rw [hpid]
          exact beq_eq_false_iff_ne.1 (hbefore j hj)
        · rw [hpid]
          exact hallowed.1

theorem terminateEvent_of_terminable {s : SchedulerState} {i : Nat} (hi : i < s.activeProcessCount)
    (h : Terminable s i) :
    terminateEvent s (s.processTable i).taskId = .terminate i (s.processTable i).taskId := by
  have hfind : (s.findIndex fun pcb => pcb.taskId == (s.processTable i).taskId) = some i := by
    unfold SchedulerState.findIndex
    rw [List.find?_range_eq_some]
    refine ⟨by simp, List.mem_range.2 hi, fun j hj => ?_⟩
    simpa using h.first j hj
  have hallowed : ¬ ((s.processTable i).taskId = 100 ∨
      (s.processTable i).allocationFlags.testBit oomFlagCritical = true) :=
    not_or.2 ⟨h.notMaster, h.notCritical⟩
  unfold terminateEvent
  simp only [hfind, hallowed, if_false]

/-! ## Flags over a turn -/

theorem lasting_flags : Lasting ProcessControlBlock.allocationFlags := by
  refine ⟨fun _ _ => rfl, fun _ _ => rfl, fun _ _ => rfl, fun pid pcb => ?_, fun _ _ => rfl,
    fun _ => rfl⟩
  unfold releasePcb
  split
  · rfl
  · rfl

/-- No turn changes the flags of a process. -/
theorem step_sameFlags {s t : System} {a : Action} (h : s.step a = some t) :
    SameFlags s.sched t.sched := by
  intro i hi
  have hkept := lasting_flags.step h hi (.inr fun _ _ => rfl)
  have hcontrols := step_controls h
  cases hyield : yieldState s a with
  | none =>
      rw [hyield] at hkept
      exact hkept
  | some u =>
      rw [hyield] at hkept hcontrols
      rw [show t.sched = schedulerYield u from hcontrols]
      have hcore := congrArg ProcessControlBlock.allocationFlags ((schedulerYield_sameCore u).core i)
      exact Eq.trans hcore hkept

/-- Nor does it change who is found under a PID, or may be killed. -/
theorem Terminable.step {s t : System} {a : Action} {i : Nat} (hs : Terminable s.sched i)
    (h : s.step a = some t) (hi : i < s.sched.activeProcessCount) : Terminable t.sched i := by
  have hpid : ∀ j, j ≤ i → (t.sched.processTable j).taskId = (s.sched.processTable j).taskId :=
    fun j hj => step_taskId h (Nat.lt_of_le_of_lt hj hi)
  refine ⟨fun j hj => ?_, ?_, ?_⟩
  · rw [hpid j (Nat.le_of_lt hj), hpid i (Nat.le_refl i)]
    exact hs.first j hj
  · rw [hpid i (Nat.le_refl i)]
    exact hs.notMaster
  · rw [step_sameFlags h i hi]
    exact hs.notCritical

/-! ## The dead do not come back -/

/-- An event that does not block a dead entry leaves it dead. -/
theorem Lifecycle.Dead.apply {l : Lifecycle} {e : LifecycleEvent} {i : Nat} (hi : l.Dead i)
    (he : l.Enabled e) (hspare : ∀ pid, e ≠ .block i pid) : (l.apply e).Dead i := by
  refine ⟨Nat.lt_of_lt_of_le hi.1 (count_le_apply l e), ?_⟩
  by_cases hmortal : e.Mortal
  · exact (apply_dead_iff he hmortal i).2 (.inr hi.2)
  · cases e with
    | spawn pid =>
        have hne : i ≠ l.count := Nat.ne_of_lt hi.1
        simpa [Lifecycle.apply, hne] using hi.2
    | block j pid =>
        have hne : i ≠ j := by
          rintro rfl
          exact hspare pid rfl
        simpa [Lifecycle.apply, setState, hne] using hi.2
    | _ => exact absurd trivial hmortal

/-- Process `i` is dead, and somebody else is current. -/
structure Gone (s : System) (i : Nat) : Prop where
  dead : (view s.sched).Dead i
  other : s.running ≠ i

/-- A yield does not make a dead process current, unless it is the one at index 0. -/
theorem schedulerYield_running_ne {s : SchedulerState} {i : Nat} (hi : 1 ≤ i)
    (hdead : (view s).Dead i) : (schedulerYield s).runningProcessIndex ≠ i := by
  have hused : i < s.activeProcessCount := hdead.1
  intro hrun
  rcases schedulerYield_cases s with ⟨hcount, _⟩ | ⟨_, _, _, hel⟩ | ⟨_, _, hzero⟩
  · omega
  · rw [hrun] at hel
    have hstate := (schedulerYield_sameCore s).executionState i
    rw [hel.1] at hstate
    have hdead : (s.processTable i).executionState = .dead := hdead.2
    rw [hdead] at hstate
    cases hstate
  · omega

/-- The view in which a turn yields is the one after the turn. -/
theorem view_yieldState {s t : System} {a : Action} {u : SchedulerState} (h : s.step a = some t)
    (hu : yieldState s a = some u) : t.sched = schedulerYield u ∧ view u = view t.sched := by
  have hcontrols := step_controls h
  rw [hu] at hcontrols
  have ht : t.sched = schedulerYield u := hcontrols
  exact ⟨ht, by rw [ht, view_schedulerYield]⟩

theorem Gone.step {s t : System} {a : Action} {i : Nat} (hi : 1 ≤ i) (hs : Gone s i)
    (hrun : RunningInTable s.sched) (h : s.step a = some t) : Gone t i := by
  have hdead : (view t.sched).Dead i := by
    rw [step_view h]
    refine hs.dead.apply (step_enabled hrun a) fun pid hblock => ?_
    exact hs.other (eq_running_of_block hblock).symm
  refine ⟨hdead, ?_⟩
  cases hyield : yieldState s a with
  | none =>
      have hcontrols := step_controls h
      rw [hyield] at hcontrols
      exact fun hsame => hs.other (hcontrols.symm.trans hsame)
  | some u =>
      rcases view_yieldState h hyield with ⟨ht, hview⟩
      have hnot := schedulerYield_running_ne hi (s := u) (hview ▸ hdead)
      rw [← ht] at hnot
      exact hnot

/-- Whatever is done afterwards, a dead process other than the master is never current again. -/
theorem dead_run {s t : System} {i : Nat} (hi : 1 ≤ i) (hs : Gone s i)
    (hrun : RunningInTable s.sched) {as : List Action} (h : exec System.step s as = some t) :
    t.running ≠ i := by
  have hkeep : ∀ (u : System) (a : Action) (v : System),
      (RunningInTable u.sched ∧ Gone u i) → u.step a = some v →
        (RunningInTable v.sched ∧ Gone v i) :=
    fun u a v hu hv => ⟨hu.1.step hv, hu.2.step hi hu.1 hv⟩
  exact (Reachable.invariant hkeep ⟨hrun, hs⟩ ⟨as, h⟩).2.other

/-! ## Dead and still current -/

/-- A registered process can be current and dead only when it has terminated itself. -/
structure Settled (s : System) : Prop where
  running : RunningInTable s.sched
  dead : 1 ≤ s.running → (s.sched.processTable s.running).executionState = .dead →
    Terminable s.sched s.running

theorem settled_boot (k : Kernel) : Settled (System.boot k) := by
  refine ⟨runningInTable_boot k, fun hindex => ?_⟩
  have hmaster : (System.boot k).running = 0 := rfl
  omega

/-- Whoever dies in a turn that does not yield, and is current, has terminated itself. -/
theorem terminable_of_victim {s : System} {a : Action} (hyield : yieldState s a = none)
    (h : (lifecycleEvent s a).victim = some s.running) : Terminable s.sched s.running := by
  have hreceive : (receiveEvent s.sched).victim ≠ some s.running := by
    unfold receiveEvent
    split
    · simp [LifecycleEvent.victim]
    · simp [LifecycleEvent.victim]
  cases a with
  | resume =>
      simp only [lifecycleEvent] at h
      split at h
      · exact absurd h hreceive
      · cases h
  | call c =>
      cases c with
      | terminateProcess pid => exact (terminateEvent_victim h).1
      | terminateCurrent => cases hyield
      | sleep ticks => cases h
      | yield => cases h
      | ipcReceive maxLength => exact absurd h hreceive
      | registerProcess entryPoint priority rss flags =>
          simp only [lifecycleEvent, registerEvent] at h
          split at h
          · cases h
          · cases h
      | waitPid pid =>
          simp only [lifecycleEvent, waitEvent] at h
          split at h
          · cases h
          · cases h
      | ipcSend dest message length type =>
          simp only [lifecycleEvent, sendEvent] at h
          repeat' split at h
          all_goals cases h
      | sendSignal pid signal =>
          -- who kills itself by a signal yields
          simp only [lifecycleEvent, signalEvent] at h
          simp only [yieldState, signalYieldState] at hyield
          split at h
          · cases h
          · cases hfind : s.sched.findLive pid with
            | none => simp [hfind, LifecycleEvent.victim] at h
            | some i =>
                simp only [hfind] at h hyield
                split at h
                case isTrue hkill =>
                  have hcurrent : s.running = i := (Option.some.inj h).symm
                  simp only [hcurrent, hkill, if_true] at hyield
                  cases hyield
                case isFalse =>
                  repeat' split at h
                  all_goals cases h

theorem Settled.step {s t : System} {a : Action} (hs : Settled s) (h : s.step a = some t) :
    Settled t := by
  refine ⟨hs.running.step h, fun hindex hdead => ?_⟩
  cases hyield : yieldState s a with
  | some u =>
      -- a yield makes nobody current who is dead
      rcases view_yieldState h hyield with ⟨ht, hview⟩
      have hgone : (view u).Dead t.running := by
        rw [hview]
        exact ⟨hs.running.step h, hdead⟩
      have hnot := schedulerYield_running_ne hindex hgone
      rw [← ht] at hnot
      exact absurd rfl hnot
  | none =>
      have hcontrols := step_controls h
      rw [hyield] at hcontrols
      have hsame : t.running = s.running := hcontrols
      rw [hsame] at hindex hdead ⊢
      refine Terminable.step ?_ h hs.running
      have hview : ((view s.sched).apply (lifecycleEvent s a)).state s.running = .dead := by
        rw [← step_view h]
        exact hdead
      by_cases hmortal : (lifecycleEvent s a).Mortal
      · rcases (Lifecycle.apply_dead_iff (step_enabled hs.running a) hmortal _).1 hview with
          hvictim | hold
        · exact terminable_of_victim hyield hvictim
        · exact hs.dead hindex hold
      · refine hs.dead hindex ?_
        cases hevent : lifecycleEvent s a with
        | spawn pid =>
            rw [hevent] at hview
            have hne : s.running ≠ (view s.sched).count := Nat.ne_of_lt hs.running
            have hstate : (view s.sched).state s.running = .dead := by
              simpa [Lifecycle.apply, hne] using hview
            exact hstate
        | block j pid =>
            rw [hevent] at hview
            have hj : j = s.running := eq_running_of_block hevent
            subst hj
            simp [Lifecycle.apply, Lifecycle.setState] at hview
        | _ =>
            rw [hevent] at hmortal
            exact absurd trivial hmortal

/-! ## Exits -/

/-- What is to hold after the current process of `s` has left by `scheduler_terminate_current`. -/
structure Exited (s t : System) : Prop where
  dead : (t.sched.processTable s.running).executionState = .dead
  released : ∀ j, j < t.sched.activeProcessCount →
    (t.sched.processTable j).executionState = .blocked →
    (t.sched.processTable j).waitingOnPid ≠ s.sched.current.taskId
  never : ∀ (as : List Action) (u : System), exec System.step t as = some u → u.running ≠ s.running

/-- For every registered process that is current in any run from `scheduler_initialize`, whatever its
flags, the exit does what it should exactly when no earlier entry has the PID of the process, this is
not 100, and the process is not critical. -/
theorem exited_iff (k : Kernel) (as : List Action) (s t : System)
    (hs : exec System.step (System.boot k) as = some s) (hregistered : 1 ≤ s.running)
    (ht : s.step (.call .terminateCurrent) = some t) :
    Exited s t ↔ Terminable s.sched s.running := by
  have hsettled : Settled s :=
    Reachable.invariant (I := Settled) (fun _ _ _ hu hv => hu.step hv) (settled_boot k) ⟨as, hs⟩
  have hview : view t.sched =
      (view s.sched).apply (terminateEvent s.sched s.sched.current.taskId) := step_view ht
  constructor
  · intro hexited
    -- an entry that is dead afterwards was the one terminated, or was dead before
    have hdead : ((view s.sched).apply
        (terminateEvent s.sched s.sched.current.taskId)).state s.running = .dead := by
      rw [← hview]
      exact hexited.dead
    have henabled : (view s.sched).Enabled (terminateEvent s.sched s.sched.current.taskId) :=
      terminateEvent_enabled _ _
    rcases (Lifecycle.apply_dead_iff henabled (terminateEvent_mortal _ _) _).1 hdead with
      hvictim | hold
    · exact (terminateEvent_victim hvictim).1
    · exact hsettled.dead hregistered hold
  · intro hterminable
    have hevent : terminateEvent s.sched s.sched.current.taskId =
        .terminate s.running s.sched.current.taskId :=
      terminateEvent_of_terminable hsettled.running hterminable
    rw [hevent] at hview
    have hdead : (view t.sched).Dead s.running := by
      rw [hview]
      refine ⟨hsettled.running, ?_⟩
      have henabled : (view s.sched).Enabled (.terminate s.running s.sched.current.taskId) :=
        ⟨hsettled.running, rfl⟩
      exact (Lifecycle.apply_dead_iff henabled trivial _).2 (.inl rfl)
    -- the yield in the same turn does not select it, and no later turn brings it back
    have hgone : Gone t s.running := by
      have hyield : yieldState s (.call .terminateCurrent) =
          some (schedulerTerminateProcess s.sched s.sched.current.taskId).1 := rfl
      rcases view_yieldState ht hyield with ⟨heq, hsame⟩
      have hnot := schedulerYield_running_ne hregistered (hsame ▸ hdead)
      rw [← heq] at hnot
      exact ⟨hdead, hnot⟩
    refine ⟨hdead.2, fun j hj hblocked hwaiting => ?_, fun bs u hu => ?_⟩
    · have hon : (view t.sched).BlockedOn j s.sched.current.taskId := ⟨hj, hblocked, hwaiting⟩
      rw [hview] at hon
      exact Lifecycle.not_blockedOn_release _ _ _ hon
    · exact dead_run hregistered hgone (hsettled.running.step ht) hu

/-- The second process registered, PID 101, is made current by its priority and leaves. -/
theorem exited_iff_second :
    ∃ s t, exec System.step (System.boot (coldKernel 4096))
        [.call (.registerProcess 0x100000 schedDefaultPriority 128 0),
          .call (.registerProcess 0x200000 schedMaxPriority 128 0), .call .yield] = some s ∧
      s.running = 2 ∧ s.step (.call .terminateCurrent) = some t ∧ Exited s t := by
  have hrun : (exec System.step (System.boot (coldKernel 4096))
      [.call (.registerProcess 0x100000 schedDefaultPriority 128 0),
        .call (.registerProcess 0x200000 schedMaxPriority 128 0), .call .yield]).any
        (fun s => decide (s.running = 2) &&
          decide ((s.sched.processTable 0).taskId = 100) &&
          decide ((s.sched.processTable 1).taskId = 100) &&
          decide ((s.sched.processTable 2).taskId = 101) &&
          decide ((s.sched.processTable 2).allocationFlags = 0) &&
          (s.step (.call .terminateCurrent)).isSome) = true := by
    decide
  rcases exists_of_exec_any hrun with ⟨s, hs, hstate⟩
  simp only [Bool.and_eq_true, decide_eq_true_eq] at hstate
  rcases hstate with ⟨⟨⟨⟨⟨hindex, hmaster⟩, hfirst⟩, hpid⟩, hflags⟩, hstep⟩
  rcases Option.isSome_iff_exists.1 hstep with ⟨t, ht⟩
  refine ⟨s, t, hs, hindex, ht, ?_⟩
  refine (exited_iff (coldKernel 4096) _ s t hs (by omega) ht).2 ⟨fun j hj => ?_, ?_, ?_⟩
  · rw [hindex] at hj ⊢
    rw [hpid]
    rcases (by omega : j = 0 ∨ j = 1) with rfl | rfl
    · omega
    · omega
  · rw [hindex, hpid]
    decide
  · rw [hindex, hflags]
    decide

/-- The first process registered has drawn the PID of the master: its exit is refused. -/
theorem exited_false :
    ¬ ∀ (k : Kernel) (as : List Action) (s t : System),
      exec System.step (System.boot k) as = some s → 1 ≤ s.running →
        s.step (.call .terminateCurrent) = some t → Exited s t := by
  intro h
  have hrun : (exec System.step (System.boot (coldKernel 4096))
      [.call (.registerProcess 0x100000 schedMaxPriority 128 0), .call .yield]).any
        (fun s => decide (s.running = 1) &&
          (s.step (.call .terminateCurrent)).any fun t =>
            decide ((t.sched.processTable 1).executionState = .running)) = true := by
    decide
  rcases exists_of_exec_any hrun with ⟨s, hs, hstate⟩
  rw [Bool.and_eq_true, decide_eq_true_eq, Option.any_eq_true] at hstate
  rcases hstate with ⟨hindex, t, ht, hrunning⟩
  rw [decide_eq_true_eq] at hrunning
  have hdead := (h (coldKernel 4096) _ s t hs (by omega) ht).dead
  rw [hindex, hrunning] at hdead
  cases hdead

end Sched
end WhitexKernel
