import WhitexKernel.Lib.OwnedLock
import WhitexKernel.Sched.Events

/-!
# Mutex — the yielding lock of `sys_tools.h`

`mutex_lock` reads the PID of its caller, yields until the lock is open and then takes it under
that PID; `mutex_unlock` opens the lock for every caller whose PID is the recorded one.  The master
process and the first process registered both carry the PID 100, so the recorded PID does not tell
the two apart.

`MutexSystem` adds one mutex to the processes of `WhitexKernel.Sched.System`, with the
`mutex_lock` calls that processes are suspended in.  Who holds the mutex is history: no step reads
it.
-/

namespace WhitexKernel
namespace Sched

open Lib Machine

/-! ## The calls -/

/-- `mutex_t` -/
structure Mutex where
  state : Nat
  ownerPid : Nat
  deriving DecidableEq, Repr

def mutexInit : Mutex :=
  { state := 0
    ownerPid := 0 }

/-- One test of the loop of `mutex_lock`, whose caller has read `current_pid`: with the mutex taken
the process yields (it will test again when it is resumed), otherwise the call returns with the
mutex taken. -/
def mutexLock (s : SchedulerState) (mutex : Mutex) (currentPid : Nat) :
    SchedulerState × Option Mutex :=
  if mutex.state = 1 then (schedulerYield s, none)
  else (s, some { state := 1, ownerPid := currentPid })

def mutexUnlock (s : SchedulerState) (mutex : Mutex) : Mutex :=
  let currentPid := s.current.taskId
  if mutex.ownerPid = currentPid then { state := 0, ownerPid := 0 } else mutex

/-! ## The processes and one mutex -/

/-- `locking i` is the `current_pid` of the `mutex_lock` call that process `i` is suspended in;
`holding i` says that such a call of process `i` has returned and that the process has not called
`mutex_unlock` since. -/
structure MutexSystem where
  sys : System
  mutex : Mutex
  locking : Nat → Option Nat
  holding : Nat → Bool

/-- A turn of the current process. -/
inductive MutexAction
  /-- A scheduler call, or the rest of one. -/
  | sched (a : Action)
  /-- `mutex_lock` is called. -/
  | lock
  /-- The loop of `mutex_lock` goes on. -/
  | retry
  /-- `mutex_unlock` is called. -/
  | unlock

namespace MutexSystem

/-- The index of the current process. -/
abbrev running (s : MutexSystem) : Nat := s.sys.running

/-- The PID of entry `i`. -/
abbrev pid (s : MutexSystem) (i : Nat) : Nat := (s.sys.sched.processTable i).taskId

/-- After `scheduler_initialize` and `mutex_init`. -/
def boot (k : Kernel) : MutexSystem :=
  { sys := System.boot k
    mutex := mutexInit
    locking := fun _ => none
    holding := fun _ => false }

/-- The current process runs its own code. -/
def Ready (s : MutexSystem) : Prop :=
  s.sys.suspended s.running = .idle ∧ s.locking s.running = none

instance (s : MutexSystem) : Decidable s.Ready := inferInstanceAs (Decidable (_ ∧ _))

/-- One test of `mutex_lock` in the current process. -/
def lockRound (s : MutexSystem) (currentPid : Nat) : MutexSystem :=
  match mutexLock s.sys.sched s.mutex currentPid with
  | (sched, none) =>
      { s with
        sys := s.sys.withSched sched
        locking := Function.update s.locking s.running (some currentPid) }
  | (sched, some mutex) =>
      { sys := s.sys.withSched sched
        mutex := mutex
        locking := Function.update s.locking s.running none
        holding := Function.update s.holding s.running true }

def unlock (s : MutexSystem) : MutexSystem :=
  { s with
    mutex := mutexUnlock s.sys.sched s.mutex
    holding := Function.update s.holding s.running false }

/-- A turn of the current process; `none` when it cannot take this turn, or the call halts the
machine. -/
def step (s : MutexSystem) : MutexAction → Option MutexSystem
  | .sched a =>
      match s.locking s.running with
      | none => (s.sys.step a).map fun sys => { s with sys := sys }
      | some _ => none
  | .lock => if s.Ready then some (s.lockRound s.sys.sched.current.taskId) else none
  | .retry => (s.locking s.running).map s.lockRound
  | .unlock => if s.Ready then some s.unlock else none

/-! ## What a turn does to the lock -/

/-- The mutex as a lock whose processes are the entries of the table and whose tags are PIDs. -/
def lock (s : MutexSystem) : OwnedLock Nat Nat :=
  { closed := s.mutex.state = 1
    owner := s.mutex.ownerPid
    holders := {i | s.holding i = true} }

/-- Entries in use stay in use, and keep their PIDs. -/
structure PidsKept (s t : SchedulerState) : Prop where
  count : s.activeProcessCount ≤ t.activeProcessCount
  taskId : ∀ i < s.activeProcessCount, (t.processTable i).taskId = (s.processTable i).taskId

theorem PidsKept.refl (s : SchedulerState) : PidsKept s s := ⟨le_rfl, fun _ _ => rfl⟩

theorem pidsKept_step {s t : System} {a : Action} (h : s.step a = some t) :
    PidsKept s.sched t.sched :=
  ⟨step_count_le h, fun _ hi => step_taskId h hi⟩

theorem pidsKept_schedulerYield (s : SchedulerState) : PidsKept s (schedulerYield s) := by
  have hcore : SchedulerState.SameCore s (schedulerYield s) := schedulerYield_sameCore s
  exact ⟨hcore.count.ge, fun i _ => (hcore.taskId i)⟩

/-- What a turn does to the lock, by the kind of turn. -/
inductive Turn (s t : MutexSystem) : MutexAction → Prop
  /-- A turn that the mutex has no part in. -/
  | sched (a : Action) (hsys : s.sys.step a = some t.sys) (hlock : t.lock = s.lock)
      (hlocking : t.locking = s.locking) : Turn s t (.sched a)
  /-- A test of `mutex_lock` that finds the mutex taken. -/
  | wait (a : MutexAction) (ha : a = .lock ∨ a = .retry) (hclosed : s.lock.closed)
      (hsched : t.sys.sched = schedulerYield s.sys.sched) (hlock : t.lock = s.lock)
      (hlocking : t.locking = Function.update s.locking s.running (some (s.pid s.running))) :
      Turn s t a
  /-- A test of `mutex_lock` that finds the mutex free. -/
  | take (a : MutexAction) (ha : a = .lock ∨ a = .retry) (hopen : ¬ s.lock.closed)
      (hsched : t.sys.sched = s.sys.sched)
      (hlock : t.lock = s.lock.acquire (s.pid s.running) s.running)
      (hlocking : t.locking = Function.update s.locking s.running none) : Turn s t a
  /-- A call of `mutex_unlock`. -/
  | unlock (hsched : t.sys.sched = s.sys.sched)
      (hlock : t.lock = s.lock.release 0 (s.pid s.running) s.running)
      (hlocking : t.locking = s.locking) : Turn s t .unlock

/-- A test of `mutex_lock` whose caller carries the PID it has read. -/
theorem turn_lockRound (s : MutexSystem) {a : MutexAction} (ha : a = .lock ∨ a = .retry) :
    Turn s (s.lockRound (s.pid s.running)) a := by
  by_cases hstate : s.mutex.state = 1
  · refine .wait a ha hstate ?_ ?_ ?_ <;> simp [lockRound, mutexLock, hstate, lock]
  · refine .take a ha hstate ?_ ?_ ?_
    · simp [lockRound, mutexLock, hstate]
    · have hholders : {i | Function.update s.holding s.running true i = true} =
          insert s.running {i | s.holding i = true} := by
        ext i
        by_cases hi : i = s.running <;> simp [Function.update_apply, hi]
      simp [lockRound, mutexLock, hstate, lock, OwnedLock.acquire, hholders]
    · simp [lockRound, mutexLock, hstate]

theorem turn_unlock (s : MutexSystem) : Turn s s.unlock .unlock := by
  refine .unlock rfl ?_ rfl
  have hholders : {i | Function.update s.holding s.running false i = true} =
      {i | s.holding i = true} \ {s.running} := by
    ext i
    by_cases hi : i = s.running <;> simp [Function.update_apply, hi]
  by_cases hown : s.mutex.ownerPid = s.pid s.running
  · have hcurrent : s.mutex.ownerPid = s.sys.sched.current.taskId := hown
    simp [unlock, mutexUnlock, lock, OwnedLock.release, hholders, hown, ← hcurrent]
  · have hcurrent : ¬ s.mutex.ownerPid = s.sys.sched.current.taskId := hown
    simp [unlock, mutexUnlock, lock, OwnedLock.release, hholders, hown, hcurrent]

/-! ## What holds in every run -/

/-- The process that runs, the holders and the processes inside `mutex_lock` are in the table, and
the latter have read their own PIDs. -/
structure Tabled (s : MutexSystem) : Prop where
  running : RunningInTable s.sys.sched
  holders : ∀ i ∈ s.lock.holders, i < s.sys.sched.activeProcessCount
  locking : ∀ i currentPid, s.locking i = some currentPid →
    i < s.sys.sched.activeProcessCount ∧ currentPid = s.pid i

theorem tabled_boot (k : Kernel) : Tabled (boot k) where
  running := runningInTable_boot k
  holders := by simp [boot, lock]
  locking := by simp [boot]

theorem turn_of_step {s t : MutexSystem} {a : MutexAction} (hs : Tabled s)
    (h : s.step a = some t) : Turn s t a := by
  cases a with
  | sched a =>
      cases hlocking : s.locking s.running with
      | some currentPid => simp [step, hlocking] at h
      | none =>
          simp only [step, hlocking, Option.map_eq_some_iff] at h
          rcases h with ⟨sys, hsys, rfl⟩
          exact .sched a hsys rfl rfl
  | lock =>
      simp only [step] at h
      split at h
      · cases h
        exact turn_lockRound s (.inl rfl)
      · cases h
  | retry =>
      simp only [step, Option.map_eq_some_iff] at h
      -- the PID that the call has read is still that of the process
      rcases h with ⟨currentPid, hlocking, rfl⟩
      rw [(hs.locking _ _ hlocking).2]
      exact turn_lockRound s (.inr rfl)
  | unlock =>
      simp only [step] at h
      split at h
      · cases h
        exact turn_unlock s
      · cases h

theorem Turn.pidsKept {s t : MutexSystem} {a : MutexAction} (h : Turn s t a) :
    PidsKept s.sys.sched t.sys.sched := by
  cases h with
  | sched a hsys _ _ => exact pidsKept_step hsys
  | wait _ _ _ hsched _ _ => simpa [hsched] using pidsKept_schedulerYield s.sys.sched
  | take _ _ _ hsched _ _ => simpa [hsched] using PidsKept.refl s.sys.sched
  | unlock hsched _ _ => simpa [hsched] using PidsKept.refl s.sys.sched

theorem PidsKept.running {s t : SchedulerState} (h : PidsKept s t) {i : Nat}
    (hi : i < s.activeProcessCount) : i < t.activeProcessCount :=
  Nat.lt_of_lt_of_le hi h.count

/-- Every turn keeps the processes the mutex knows in the table. -/
theorem Tabled.step {s t : MutexSystem} {a : MutexAction} (hs : Tabled s)
    (h : s.step a = some t) : Tabled t := by
  have hturn : Turn s t a := turn_of_step hs h
  have hkept : PidsKept s.sys.sched t.sys.sched := hturn.pidsKept
  -- a `mutex_lock` call that was under way before the turn
  have hlocker : ∀ i currentPid, s.locking i = some currentPid →
      i < t.sys.sched.activeProcessCount ∧ currentPid = t.pid i := by
    intro i currentPid hi
    rcases hs.locking i currentPid hi with ⟨hlt, hpid⟩
    exact ⟨hkept.running hlt, hpid.trans (hkept.taskId i hlt).symm⟩
  cases hturn with
  | sched a hsys hlock hlocking =>
      refine ⟨hs.running.step hsys, ?_, by simpa [hlocking] using hlocker⟩
      intro i hi
      rw [hlock] at hi
      exact hkept.running (hs.holders i hi)
  | wait _ _ hclosed hsched hlock hlocking =>
      refine ⟨by simpa [hsched] using hs.running.schedulerYield, ?_, ?_⟩
      · intro i hi
        rw [hlock] at hi
        exact hkept.running (hs.holders i hi)
      · intro i currentPid hi
        by_cases hrun : i = s.running
        · subst hrun
          have hpid : s.pid s.running = currentPid := by simpa [hlocking] using hi
          exact ⟨hkept.running hs.running, hpid.symm.trans (hkept.taskId _ hs.running).symm⟩
        · exact hlocker i currentPid (by simpa [hlocking, hrun] using hi)
  | take _ _ hopen hsched hlock hlocking =>
      refine ⟨by simpa [hsched] using hs.running, ?_, ?_⟩
      · intro i hi
        rw [hlock] at hi
        rcases hi with rfl | hi
        · exact hkept.running hs.running
        · exact hkept.running (hs.holders i hi)
      · intro i currentPid hi
        by_cases hrun : i = s.running
        · simp [hlocking, hrun] at hi
        · exact hlocker i currentPid (by simpa [hlocking, hrun] using hi)
  | unlock hsched hlock hlocking =>
      refine ⟨by simpa [hsched] using hs.running, ?_, by simpa [hlocking] using hlocker⟩
      intro i hi
      rw [hlock] at hi
      exact hkept.running (hs.holders i hi.1)

/-- Every turn leaves a taken mutex under the PID of one of its holders. -/
theorem named_step {s t : MutexSystem} {a : MutexAction} (hs : Tabled s)
    (hnamed : s.lock.Named s.pid) (h : s.step a = some t) : t.lock.Named t.pid := by
  have hturn : Turn s t a := turn_of_step hs h
  have hkept : PidsKept s.sys.sched t.sys.sched := hturn.pidsKept
  -- the holders after the turn were in the table before it
  have hbefore : t.lock.Named s.pid → t.lock.Named t.pid := by
    refine fun hlock => hlock.congr fun i hi => hkept.taskId i ?_
    cases hturn with
    | sched _ _ hlock _ => exact hs.holders i (by simpa [hlock] using hi)
    | wait _ _ _ _ hlock _ => exact hs.holders i (by simpa [hlock] using hi)
    | take _ _ _ _ hlock _ =>
        rw [hlock] at hi
        rcases hi with rfl | hi
        · exact hs.running
        · exact hs.holders i hi
    | unlock _ hlock _ =>
        rw [hlock] at hi
        exact hs.holders i hi.1
  cases hturn with
  | sched _ _ hlock _ => exact hbefore (by rwa [hlock])
  | wait _ _ _ _ hlock _ => exact hbefore (by rwa [hlock])
  | take _ _ _ _ hlock _ => exact hbefore (by simpa [hlock] using OwnedLock.named_acquire _ _)
  | unlock _ hlock _ => exact hbefore (by simpa [hlock] using hnamed.release 0 s.running)

/-! ## Mutual exclusion -/

/-- At most one process holds the mutex, and `state` is 1 exactly when one does. -/
def MutualExclusion (s : MutexSystem) : Prop :=
  (∀ i j, s.holding i = true → s.holding j = true → i = j) ∧
    (s.mutex.state = 1 ↔ ∃ i, s.holding i = true)

/-- If the turn releases the mutex, it is a call of `mutex_unlock` by a holder. -/
def ReleasedByHolder (s : MutexSystem) (a : MutexAction) : Prop :=
  ∀ t, s.step a = some t → s.mutex.state = 1 → t.mutex.state ≠ 1 →
    a = .unlock ∧ s.holding s.running = true

/-- `mutex_unlock` is called by a process that does not hold the mutex while a process with the same
PID does. -/
def UnlocksNamesake (s : MutexSystem) (a : MutexAction) : Prop :=
  a = .unlock ∧ s.holding s.running = false ∧
    ∃ i, s.holding i = true ∧ s.pid i = s.pid s.running

theorem mutualExclusion_iff (s : MutexSystem) : s.MutualExclusion ↔ s.lock.Exclusive :=
  ⟨fun h => ⟨h.1, h.2⟩, fun h => ⟨h.one, h.closed_iff⟩⟩

theorem mutualExclusion_boot (k : Kernel) : (boot k).MutualExclusion := by
  simp [MutualExclusion, boot, mutexInit]

theorem unlocksNamesake_unlock_iff (s : MutexSystem) :
    s.UnlocksNamesake .unlock ↔ s.lock.Shares s.pid s.running := by
  simp [UnlocksNamesake, OwnedLock.Shares, lock]

/-- A turn keeps the exclusion, and releases the mutex for its holder only, exactly when it is not
the unlock of a namesake. -/
theorem mutualExclusion_step_iff {s t : MutexSystem} {a : MutexAction} (hs : Tabled s)
    (hnamed : s.lock.Named s.pid) (hexcl : s.MutualExclusion) (h : s.step a = some t) :
    s.ReleasedByHolder a ∧ t.MutualExclusion ↔ ¬ s.UnlocksNamesake a := by
  -- there is one state that the turn leads to
  have hlaw : s.ReleasedByHolder a ↔
      (s.lock.closed → ¬ t.lock.closed → a = .unlock ∧ s.running ∈ s.lock.holders) := by
    constructor
    · exact fun hrel => hrel t h
    · intro hrel u hu
      rw [h, Option.some.injEq] at hu
      exact hu ▸ hrel
  rw [hlaw, mutualExclusion_iff]
  rw [mutualExclusion_iff] at hexcl
  cases turn_of_step hs h with
  | sched _ _ hlock _ =>
      rw [hlock]
      exact iff_of_true ⟨fun hc hopen => absurd hc hopen, hexcl⟩ (fun hun => by cases hun.1)
  | wait _ ha hclosed _ hlock _ =>
      rw [hlock]
      refine iff_of_true ⟨fun hc hopen => absurd hc hopen, hexcl⟩ ?_
      rcases ha with rfl | rfl <;> exact fun hun => by cases hun.1
  | take _ ha hopen _ hlock _ =>
      rw [hlock]
      refine iff_of_true ⟨fun hc => absurd hc hopen, hexcl.acquire hopen _ _⟩ ?_
      rcases ha with rfl | rfl <;> exact fun hun => by cases hun.1
  | unlock _ hlock _ =>
      have hrelease : (s.lock.closed →
            ¬ (s.lock.release 0 (s.pid s.running) s.running).closed →
            s.running ∈ s.lock.holders) ∧
          (s.lock.release 0 (s.pid s.running) s.running).Exclusive ↔
          ¬ s.lock.Shares s.pid s.running := hexcl.release_iff hnamed
      rw [hlock, unlocksNamesake_unlock_iff, ← hrelease]
      simp only [true_and]

/-- What holds before any run whose processes start outside the mutex. -/
structure Started (s : MutexSystem) : Prop where
  tabled : Tabled s
  named : s.lock.Named s.pid
  excludes : s.MutualExclusion

theorem started_boot (k : Kernel) : Started (boot k) where
  tabled := tabled_boot k
  named := by simp [OwnedLock.Named, boot, lock, mutexInit]
  excludes := mutualExclusion_boot k

theorem Started.run_iff {s : MutexSystem} (hs : Started s) (as : List MutexAction) :
    AllSteps step ReleasedByHolder s as ∧ AllStates step MutualExclusion s as ↔
      AllSteps step (fun s a => ¬ UnlocksNamesake s a) s as := by
  refine allSteps_and_allStates_iff (J := fun s => Tabled s ∧ s.lock.Named s.pid)
    ?_ ?_ ⟨hs.tabled, hs.named⟩ hs.excludes
  · rintro s a t ⟨htabled, hnamed⟩ h
    exact ⟨htabled.step h, named_step htabled hnamed h⟩
  · rintro s a t ⟨htabled, hnamed⟩ hexcl h
    exact mutualExclusion_step_iff htabled hnamed hexcl h

/-- No two entries of the process table carry the same PID. -/
def PidsDistinct (s : MutexSystem) : Prop :=
  ∀ i j, i < s.sys.sched.activeProcessCount → j < s.sys.sched.activeProcessCount →
    s.pid i = s.pid j → i = j

/-- With distinct PIDs nobody has a namesake. -/
theorem not_unlocksNamesake {s : MutexSystem} (hs : Tabled s) (hpids : PidsDistinct s)
    (a : MutexAction) : ¬ s.UnlocksNamesake a := by
  rintro ⟨rfl, hrun, i, hi, hpid⟩
  have hself : i = s.running := hpids i s.running (hs.holders i hi) hs.running hpid
  simp [← hself, hi] at hrun

/-- As long as PIDs are distinct, the mutex excludes and only its holder releases it. -/
theorem mutualExclusion_of_pidsDistinct {k : Kernel} {as : List MutexAction}
    (h : AllStates step PidsDistinct (boot k) as) :
    AllSteps step ReleasedByHolder (boot k) as ∧ AllStates step MutualExclusion (boot k) as := by
  refine ((started_boot k).run_iff as).2 ?_
  refine h.allSteps.mono_of_invariant (J := Tabled) ?_ ?_ (tabled_boot k)
  · intro s a t htabled hstep
    exact htabled.step hstep
  · intro s a t htabled _ hpids
    exact not_unlocksNamesake htabled hpids a

/-- In every run from the start the mutex excludes, and only its holder's own `mutex_unlock`
releases it, exactly when no process unlocks the mutex of another process with its PID. -/
theorem mutualExclusion_run_iff (k : Kernel) (as : List MutexAction) :
    AllSteps step ReleasedByHolder (boot k) as ∧ AllStates step MutualExclusion (boot k) as ↔
      AllSteps step (fun s a => ¬ UnlocksNamesake s a) (boot k) as :=
  (started_boot k).run_iff as

/-- The first process registered takes the mutex, the master process unlocks it under the PID they
share, and the second process registered takes it, too. -/
theorem mutualExclusion_run_false :
    ¬ ∀ (k : Kernel) (as : List MutexAction),
      AllSteps step ReleasedByHolder (boot k) as ∧
        AllStates step MutualExclusion (boot k) as := by
  intro h
  have hrun : (exec step (boot (coldKernel 4096))
      [.sched (.call (.registerProcess 0x100000 30 128 0)),
        .sched (.call (.registerProcess 0x200000 25 128 0)),
        .sched (.call .yield), .lock, .sched (.call (.sleep 100)),
        .sched (.call (.sleep 2)), .unlock, .sched (.call .yield), .lock]).any
        (fun t => t.holding 1 && t.holding 2) = true := by
    decide
  rcases exists_of_exec_any hrun with ⟨t, hexec, ht⟩
  simp only [Bool.and_eq_true] at ht
  have heq : 1 = 2 := ((h _ _).2.last hexec).1 1 2 ht.1 ht.2
  cases heq

end MutexSystem
end Sched
end WhitexKernel
