import WhitexKernel.Sched.Events

/-!
# Wait — waiting for a process to die

`scheduler_terminate_process` makes its waiters ready; a `SIGKILL` does not.  So a run loses no
wake-up, and every death releases its waiters, exactly when every `SIGKILL` hits a process nobody
else waits for.
-/

namespace WhitexKernel
namespace Sched

open Lib Machine Oom SchedulerState

/-! ## Lost wake-ups -/

/-- Whoever is blocked on a PID has a live process with that PID to wait for. -/
def NoLostWakeup (s : System) : Prop :=
  ∀ j pid, j < s.sched.activeProcessCount → pid ≠ 0 →
    (s.sched.processTable j).executionState = .blocked →
    (s.sched.processTable j).waitingOnPid = pid →
    ∃ k, k < s.sched.activeProcessCount ∧ (s.sched.processTable k).executionState ≠ .dead ∧
      (s.sched.processTable k).taskId = pid

/-- After the turn nobody is blocked on the PID of a process that died of it. -/
def ReleasesWaiters (s : System) (a : Action) : Prop :=
  ∀ t, s.step a = some t →
    ∀ i, i < s.sched.activeProcessCount →
      (s.sched.processTable i).executionState ≠ .dead →
      (t.sched.processTable i).executionState = .dead →
      (s.sched.processTable i).taskId ≠ 0 →
      ∀ j, j < t.sched.activeProcessCount →
        (t.sched.processTable j).executionState = .blocked →
        (t.sched.processTable j).waitingOnPid ≠ (s.sched.processTable i).taskId

/-- A `SIGKILL` goes to a process that no other process is blocked on. -/
def KillSparesWaiters (s : System) : Action → Prop
  | .call (.sendSignal targetPid signal) =>
      signal = signalSigkill → targetPid ≠ 0 → ∀ i, s.sched.findLive targetPid = some i →
        ∀ j, j < s.sched.activeProcessCount → j ≠ i →
          (s.sched.processTable j).executionState = .blocked →
          (s.sched.processTable j).waitingOnPid ≠ targetPid
  | _ => True

theorem noLostWakeup_iff (s : System) : NoLostWakeup s ↔ (view s.sched).NoLostWait := by
  constructor
  · rintro h j pid hpid ⟨hj, hblocked, hwait⟩
    rcases h j pid hj hpid hblocked hwait with ⟨k, hk, hlive, htask⟩
    exact ⟨k, ⟨hk, hlive⟩, htask⟩
  · intro h j pid hj hpid hblocked hwait
    rcases h j pid hpid ⟨hj, hblocked, hwait⟩ with ⟨k, hk, htask⟩
    exact ⟨k, hk.1, hk.2, htask⟩

theorem releasesWaiters_iff {s t : System} {a : Action} (h : s.step a = some t) :
    ReleasesWaiters s a ↔ (view s.sched).DeathsRelease (lifecycleEvent s a) := by
  have hview := step_view h
  constructor
  · rintro hrel i hi hdead hpid j ⟨hj, hblocked, hwait⟩
    rw [← hview] at hdead hj hblocked hwait
    refine hrel t h i hi.1 hi.2 ?_ hpid j hj hblocked hwait
    by_contra hlive
    exact hdead ⟨Nat.lt_of_lt_of_le hi.1 (step_count_le h), hlive⟩
  · rintro hrel u hu i hi hlive hdead hpid j hj hblocked hwait
    rw [h, Option.some.injEq] at hu
    subst hu
    refine hrel i ⟨hi, hlive⟩ ?_ hpid j ?_
    · rw [← hview]
      exact fun hl => hl.2 hdead
    · rw [← hview]
      exact ⟨hj, hblocked, hwait⟩

/-- Only a `SIGKILL` kills without releasing waiters. -/
theorem lifecycleEvent_eq_kill {s : System} {a : Action} {i : Nat}
    (h : lifecycleEvent s a = .kill i) :
    ∃ pid, a = .call (.sendSignal pid signalSigkill) ∧ s.sched.findLive pid = some i := by
  cases a with
  | resume =>
      simp only [lifecycleEvent, receiveEvent] at h
      split at h
      · split at h <;> cases h
      · cases h
  | call c =>
      cases c with
      | sendSignal pid signal =>
          simp only [lifecycleEvent, signalEvent] at h
          cases hfind : s.sched.findLive pid with
          | none => simp [hfind] at h
          | some j =>
              -- a signal that kills is a `SIGKILL`
              by_cases hkill : signal = signalSigkill
              · subst hkill
                simp only [hfind, signalSigkill] at h
                simp at h
                exact ⟨pid, rfl, by rw [hfind, h]⟩
              · simp only [hfind, hkill, if_false] at h
                repeat' split at h
                all_goals cases h
      | registerProcess entryPoint priority rss flags =>
          simp only [lifecycleEvent, registerEvent] at h
          split at h <;> cases h
      | terminateProcess targetPid =>
          simp only [lifecycleEvent, terminateEvent] at h
          repeat' split at h
          all_goals cases h
      | terminateCurrent =>
          simp only [lifecycleEvent, terminateEvent] at h
          repeat' split at h
          all_goals cases h
      | waitPid targetPid =>
          simp only [lifecycleEvent, waitEvent] at h
          split at h <;> cases h
      | ipcSend dest message length type =>
          simp only [lifecycleEvent, sendEvent] at h
          repeat' split at h
          all_goals cases h
      | ipcReceive maxLength =>
          simp only [lifecycleEvent, receiveEvent] at h
          split at h <;> cases h
      | sleep ticks => cases h
      | yield => cases h

theorem killSparesWaiters_iff (s : System) (a : Action) :
    KillSparesWaiters s a ↔ (view s.sched).SparesWaiters (lifecycleEvent s a) := by
  constructor
  · intro hspare
    cases he : lifecycleEvent s a with
    | kill i =>
        rcases lifecycleEvent_eq_kill he with ⟨pid, rfl, hfind⟩
        have htask : (view s.sched).pid i = pid := (findLive_eq_some hfind).2
        intro hpid j hji hj
        rw [htask] at hpid hj
        exact hspare rfl hpid i hfind j hj.1 hji hj.2.1 hj.2.2
    | _ => trivial
  · intro hspare
    cases a with
    | resume => trivial
    | call c =>
        cases c with
        | sendSignal pid signal =>
            rintro rfl hpid i hfind j hj hji hblocked hwait
            -- the event of this call is the death of the entry that is found
            have he : lifecycleEvent s (.call (.sendSignal pid signalSigkill)) = .kill i := by
              simp [lifecycleEvent, signalEvent, hfind, signalSigkill]
            have htask : (view s.sched).pid i = pid := (findLive_eq_some hfind).2
            rw [he] at hspare
            refine hspare ?_ j hji ?_
            · rwa [htask]
            · rw [htask]
              exact ⟨hj, hblocked, hwait⟩
        | _ => trivial

theorem noLostWakeup_boot (k : Kernel) : NoLostWakeup (System.boot k) := by
  intro j pid hj _ hblocked _
  have hj0 : j = 0 := by
    simpa [System.boot, schedulerInitialize] using hj
  subst hj0
  simp [System.boot, schedulerInitialize, masterPcb] at hblocked

/-- A turn whose kill spares waiters loses no wake-up. -/
theorem NoLostWakeup.step {s t : System} {a : Action} (hrun : RunningInTable s.sched)
    (hs : NoLostWakeup s) (hspare : KillSparesWaiters s a) (h : s.step a = some t) :
    NoLostWakeup t := by
  rw [noLostWakeup_iff] at hs ⊢
  rw [step_view h]
  exact hs.apply (step_enabled hrun a) ((killSparesWaiters_iff s a).1 hspare)

theorem releasesWaiters_iff_killSparesWaiters {s t : System} {a : Action}
    (hrun : RunningInTable s.sched) (h : s.step a = some t) :
    ReleasesWaiters s a ↔ KillSparesWaiters s a :=
  calc ReleasesWaiters s a
      ↔ (view s.sched).DeathsRelease (lifecycleEvent s a) := releasesWaiters_iff h
    _ ↔ (view s.sched).SparesWaiters (lifecycleEvent s a) :=
        Lifecycle.deathsRelease_iff (step_enabled hrun a)
    _ ↔ KillSparesWaiters s a := (killSparesWaiters_iff s a).symm

/-- A run loses no wake-up, and every death releases its waiters, exactly when every `SIGKILL` goes
to a process that no other process is blocked on. -/
theorem noLostWakeup_run_iff (k : Kernel) (as : List Action) :
    AllStates System.step NoLostWakeup (System.boot k) as ∧
        AllSteps System.step ReleasesWaiters (System.boot k) as ↔
      AllSteps System.step KillSparesWaiters (System.boot k) as := by
  have hkeep : ∀ s a t, RunningInTable (System.sched s) → s.step a = some t →
      RunningInTable t.sched := fun s a t hs h => hs.step h
  constructor
  · rintro ⟨_, hrel⟩
    refine hrel.mono_of_invariant hkeep ?_ (runningInTable_boot k)
    intro s a t hrun h
    exact (releasesWaiters_iff_killSparesWaiters hrun h).1
  · intro hspare
    constructor
    · refine (allStates_of_allSteps (I := fun s => RunningInTable s.sched ∧ NoLostWakeup s) ?_
        ⟨runningInTable_boot k, noLostWakeup_boot k⟩ hspare).mono fun s hs => hs.2
      rintro s a t ⟨hrun, hs⟩ ha h
      exact ⟨hrun.step h, hs.step hrun ha h⟩
    · refine hspare.mono_of_invariant hkeep ?_ (runningInTable_boot k)
      intro s a t hrun h
      exact (releasesWaiters_iff_killSparesWaiters hrun h).2

/-- The master waits for the second process registered, and the first one kills that process. -/
theorem noLostWakeup_run_false :
    ¬ ∀ (k : Kernel) (as : List Action),
      AllStates System.step NoLostWakeup (System.boot k) as ∧
        AllSteps System.step ReleasesWaiters (System.boot k) as := by
  intro h
  have hrun : (exec System.step (System.boot (coldKernel 4096))
      [.call (.registerProcess 0x100000 schedDefaultPriority 128 0),
        .call (.registerProcess 0x100000 schedDefaultPriority 128 0),
        .call (.waitPid 101),
        .call (.sendSignal 101 signalSigkill)]).any
        (fun t => decide (t.sched.activeProcessCount = 3) &&
          decide ((t.sched.processTable 0).executionState = .blocked) &&
          decide ((t.sched.processTable 0).waitingOnPid = 101) &&
          decide ((t.sched.processTable 0).taskId = 100) &&
          decide ((t.sched.processTable 1).taskId = 100) &&
          decide ((t.sched.processTable 2).executionState = .dead)) = true := by
    decide
  rcases exists_of_exec_any hrun with ⟨t, hexec, ht⟩
  simp only [Bool.and_eq_true, decide_eq_true_eq] at ht
  rcases ht with ⟨⟨⟨⟨⟨hcount, hblocked⟩, hwait⟩, h0⟩, h1⟩, hdead⟩
  rcases (h _ _).1.last hexec 0 101 (by omega) (by decide) hblocked hwait with ⟨k, hk, hlive, htask⟩
  rw [hcount] at hk
  -- no live entry has the PID: two have 100, and the one with 101 is dead
  match k, hk with
  | 0, _ => omega
  | 1, _ => omega
  | 2, _ => exact hlive hdead

end Sched
end WhitexKernel
