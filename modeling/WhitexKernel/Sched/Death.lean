import WhitexKernel.Sched.Events

/-!
# Death — whether the dead stay dead

`scheduler_ipc_receive` and `scheduler_wait_pid` write `TASK_STATE_BLOCKED` into the entry of the
current process, whatever its state is.  A process that has just died can still be current, when the
yield finds nobody else to run or when the termination does not yield; if it then blocks, it is
alive again.  No other call brings a dead entry back.
-/

namespace WhitexKernel
namespace Sched

open Lib Machine Oom

namespace Lifecycle

/-- Entry `i` is in use and dead. -/
def Dead (l : Lifecycle) (i : Nat) : Prop := i < l.count ∧ l.state i = .dead

/-- The event blocks no dead entry. -/
def SparesDead (l : Lifecycle) : LifecycleEvent → Prop
  | .block i _ => l.state i ≠ .dead
  | _ => True

theorem dead_iff_not_live (l : Lifecycle) {i : Nat} (hi : i < l.count) :
    l.Dead i ↔ ¬ l.Live i := by
  simp [Dead, Live, hi]

/-- If no old entry comes to life, the dead stay dead. -/
theorem dead_apply_of_live {l : Lifecycle} {e : LifecycleEvent}
    (hlive : ∀ i, i < l.count → (l.apply e).Live i → l.Live i) {i : Nat} (hi : l.Dead i) :
    (l.apply e).Dead i := by
  have hused : i < (l.apply e).count := Nat.lt_of_lt_of_le hi.1 (count_le_apply l e)
  rw [dead_iff_not_live _ hused]
  intro h
  exact (hlive i hi.1 h).2 hi.2

/-- An enabled event keeps the dead dead exactly when it blocks none of them. -/
theorem deathKept_apply_iff {l : Lifecycle} {e : LifecycleEvent} (he : l.Enabled e) :
    (∀ i, l.Dead i → (l.apply e).Dead i) ↔ l.SparesDead e := by
  cases e with
  | skip => exact ⟨fun _ => trivial, fun _ _ hi => hi⟩
  | spawn pid =>
      refine ⟨fun _ => trivial, fun _ _ => dead_apply_of_live fun i hi h => ?_⟩
      exact ((spawn_live_iff l pid i).1 h).resolve_left (Nat.ne_of_lt hi)
  | terminate i pid =>
      refine ⟨fun _ => trivial, fun _ _ => dead_apply_of_live fun j _ h => ?_⟩
      exact live_of_setState (.inl rfl) ((release_live_iff _ _ j).1 h)
  | kill i =>
      refine ⟨fun _ => trivial, fun _ _ => dead_apply_of_live fun j _ h => ?_⟩
      exact live_of_setState (.inl rfl) h
  | stop i =>
      refine ⟨fun _ => trivial, fun _ _ => dead_apply_of_live fun j _ h => ?_⟩
      exact live_of_setState (.inr he) h
  | cont i =>
      refine ⟨fun _ => trivial, fun _ _ => dead_apply_of_live fun j _ h => ?_⟩
      exact live_of_setState (.inr he) h
  | wake i =>
      have hlive : l.Live i := ⟨he.1, by simp [he.2.1]⟩
      refine ⟨fun _ => trivial, fun _ _ => dead_apply_of_live fun j _ h => ?_⟩
      exact live_of_setState (.inr hlive) h
  | block i pid =>
      constructor
      · intro hkept hdead
        -- a dead entry that blocks is blocked afterwards, so no longer dead
        have hblocked := (hkept i ⟨he.1, hdead⟩).2
        simp [apply, setState] at hblocked
      · intro hspare _
        refine dead_apply_of_live fun j _ h => ?_
        rcases (block_live_iff l he.1 pid j).1 h with rfl | hj
        · exact ⟨he.1, hspare⟩
        · exact hj

end Lifecycle

/-- Every entry that is in use and dead in `s` is so in `t`. -/
def DeathFinal (s t : System) : Prop :=
  ∀ i, i < s.sched.activeProcessCount → (s.sched.processTable i).executionState = .dead →
    i < t.sched.activeProcessCount ∧ (t.sched.processTable i).executionState = .dead

/-- The turn blocks the current process: it waits for a live process, or finds its channel
empty. -/
def Blocks (s : System) : Action → Prop
  | .call (.waitPid targetPid) => s.sched.findLive targetPid ≠ none
  | .call (.ipcReceive _) => s.sched.current.communicationChannel.count = 0
  | .resume =>
      (∃ maxLength, s.suspended s.running = .inReceive maxLength) ∧
        s.sched.current.communicationChannel.count = 0
  | _ => False

/-- A dead process does not block itself. -/
def SparesDead (s : System) (a : Action) : Prop :=
  s.sched.current.executionState = .dead → ¬ Blocks s a

theorem receiveEvent_eq_block_iff (s : SchedulerState) :
    (∃ pid, receiveEvent s = .block s.runningProcessIndex pid) ↔
      s.current.communicationChannel.count = 0 := by
  unfold receiveEvent
  by_cases hempty : s.current.communicationChannel.count = 0
  · simp [hempty]
  · simp [hempty]

/-- A turn that blocks the current process is one whose event is to block it. -/
theorem blocks_iff (s : System) (a : Action) :
    Blocks s a ↔ ∃ pid, lifecycleEvent s a = .block s.running pid := by
  -- a call that can only end lives, or change them otherwise, blocks nobody
  have hmortal : ∀ {e : LifecycleEvent}, e.Mortal →
      (False ↔ ∃ pid, e = .block s.running pid) := by
    intro e he
    rw [false_iff]
    rintro ⟨pid, rfl⟩
    cases he
  cases a with
  | resume =>
      cases hsus : s.suspended s.running with
      | inReceive maxLength =>
          simp only [Blocks, lifecycleEvent, hsus, receiveEvent_eq_block_iff]
          simp
      | idle => simp [Blocks, lifecycleEvent, hsus]
      | inWait pid target => simp [Blocks, lifecycleEvent, hsus]
  | call c =>
      cases c with
      | waitPid pid =>
          cases hfind : s.sched.findLive pid with
          | none => simp [Blocks, lifecycleEvent, waitEvent, hfind]
          | some i => simp [Blocks, lifecycleEvent, waitEvent, hfind]
      | ipcReceive maxLength =>
          simp only [Blocks, lifecycleEvent, receiveEvent_eq_block_iff]
      | registerProcess entryPoint priority rss flags =>
          rcases registerEvent_cases s.kernel entryPoint priority rss flags with h | ⟨_, h⟩
          · exact hmortal h
          · simp [Blocks, lifecycleEvent, h]
      | terminateProcess pid => exact hmortal (terminateEvent_mortal _ pid)
      | terminateCurrent => exact hmortal (terminateEvent_mortal _ _)
      | sendSignal pid signal => exact hmortal (signalEvent_mortal _ pid signal)
      | ipcSend dest message length type => exact hmortal (sendEvent_mortal _ dest length)
      | sleep ticks => exact hmortal trivial
      | yield => exact hmortal trivial

theorem sparesDead_iff (s : System) (a : Action) :
    SparesDead s a ↔ (view s.sched).SparesDead (lifecycleEvent s a) := by
  unfold SparesDead
  rw [blocks_iff]
  constructor
  · intro hspare
    cases he : lifecycleEvent s a with
    | block i pid =>
        have hi : i = s.running := eq_running_of_block he
        subst hi
        exact fun hdead => hspare hdead ⟨pid, he⟩
    | _ => trivial
  · rintro hspare hdead ⟨pid, he⟩
    rw [he] at hspare
    exact hspare hdead

/-- One turn keeps the dead dead exactly when no dead process blocks itself. -/
theorem deathFinal_step_iff {s t : System} {a : Action} (hrun : RunningInTable s.sched)
    (h : s.step a = some t) : DeathFinal s t ↔ SparesDead s a := by
  rw [sparesDead_iff, ← Lifecycle.deathKept_apply_iff (step_enabled hrun a), ← step_view h]
  constructor
  · intro hfinal i hi
    exact hfinal i hi.1 hi.2
  · intro hfinal i hi hdead
    exact hfinal i ⟨hi, hdead⟩

/-- Over every run from `scheduler_initialize`, whoever is dead stays dead exactly when no dead
process that is still current blocks itself. -/
theorem deathFinal_run_iff (k : Kernel) (as : List Action) :
    AllLater System.step DeathFinal (System.boot k) as ↔
      AllSteps System.step SparesDead (System.boot k) as := by
  have hkeep : ∀ (s : System) (a : Action) (t : System), RunningInTable s.sched →
      s.step a = some t → RunningInTable t.sched := by
    intro s a t hs h
    exact hs.step h
  rw [allLater_iff_allSteps]
  · constructor
    · refine AllSteps.mono_of_invariant hkeep ?_ (runningInTable_boot k)
      intro s a t hrun h hfinal
      exact (deathFinal_step_iff hrun h).1 (hfinal t h)
    · refine AllSteps.mono_of_invariant hkeep ?_ (runningInTable_boot k)
      intro s a t hrun h hspare u hu
      exact (deathFinal_step_iff hrun hu).2 hspare
  · intro s i hi hdead
    exact ⟨hi, hdead⟩
  · intro s t u hst htu i hi hdead
    rcases hst i hi hdead with ⟨hi', hdead'⟩
    exact htu i hi' hdead'

/-- A process that kills itself when nobody else can run, and then waits for a message. -/
theorem deathFinal_run_false :
    ¬ ∀ (k : Kernel) (as : List Action), AllLater System.step DeathFinal (System.boot k) as := by
  intro h
  have hkilled : (exec System.step (System.boot (coldKernel 0))
      [.call (.sendSignal 100 signalSigkill)]).any
        (fun t => decide ((t.sched.processTable 0).executionState = .dead) &&
          decide (t.sched.activeProcessCount = 1) &&
          ((exec System.step t [.call (.ipcReceive 128)]).any
            fun u => decide ((u.sched.processTable 0).executionState = .blocked))) = true := by
    decide
  rcases exists_of_exec_any hkilled with ⟨t, ht, hdead⟩
  simp only [Bool.and_eq_true, decide_eq_true_eq] at hdead
  rcases exists_of_exec_any hdead.2 with ⟨u, hu, hblocked⟩
  rw [decide_eq_true_eq] at hblocked
  have hfinal := (h (coldKernel 0) _).of_exec ht hu 0 (by omega) hdead.1.1
  rw [hblocked] at hfinal
  cases hfinal.2

end Sched
end WhitexKernel
