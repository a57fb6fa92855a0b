import Mathlib.Logic.Function.Basic
import WhitexKernel.Oom.Model

/-!
# Lifecycle — who is alive, who waits for whom

The abstract view of the process table: a growing list of processes, each with its PID, its state
and the PID it waits for.  An event is what one scheduler call does to this view; nothing here
depends on how the calls find the entries they change.

* `PidsUnique` — a PID denotes at most one live process;
* `NoLostWait` — whoever is blocked on a PID has a live process of that PID to wait for.

For the first there is a condition on events that decides exactly whether it survives; the second
survives every event that spares waiters, and only such an event releases the waiters of whoever
dies of it.
-/

namespace WhitexKernel
namespace Sched

open Oom

structure Lifecycle where
  count : Nat
  pid : Nat → Nat
  state : Nat → TaskState
  waitingOn : Nat → Nat

inductive LifecycleEvent
  | skip
  /-- A new process with the given PID. -/
  | spawn (pid : Nat)
  /-- Entry `i` dies, and whoever is blocked on `pid` becomes ready. -/
  | terminate (i pid : Nat)
  /-- Entry `i` dies. -/
  | kill (i : Nat)
  | stop (i : Nat)
  | cont (i : Nat)
  /-- Entry `i` blocks on `pid`; `0` stands for a message. -/
  | block (i pid : Nat)
  /-- Entry `i`, blocked for a message, becomes ready. -/
  | wake (i : Nat)
  deriving DecidableEq, Repr

namespace Lifecycle

/-- Change the state of entry `i`. -/
def setState (l : Lifecycle) (i : Nat) (st : TaskState) : Lifecycle :=
  { l with state := Function.update l.state i st }

/-- Entry `j` is blocked on `pid`. -/
def BlockedOn (l : Lifecycle) (j pid : Nat) : Prop :=
  j < l.count ∧ l.state j = .blocked ∧ l.waitingOn j = pid

instance (l : Lifecycle) (j pid : Nat) : Decidable (l.BlockedOn j pid) := by
  unfold BlockedOn
  infer_instance

/-- Make ready everybody who is blocked on `pid`. -/
def release (l : Lifecycle) (pid : Nat) : Lifecycle :=
  { l with
    state := fun j => if l.BlockedOn j pid then .running else l.state j
    waitingOn := fun j => if l.BlockedOn j pid then 0 else l.waitingOn j }

def apply (l : Lifecycle) : LifecycleEvent → Lifecycle
  | .skip => l
  | .spawn pid =>
      { count := l.count + 1
        pid := Function.update l.pid l.count pid
        state := Function.update l.state l.count .running
        waitingOn := Function.update l.waitingOn l.count 0 }
  | .terminate i pid => (l.setState i .dead).release pid
  | .kill i => l.setState i .dead
  | .stop i => l.setState i .stopped
  | .cont i => l.setState i .running
  | .block i pid =>
      { l.setState i .blocked with waitingOn := Function.update l.waitingOn i pid }
  | .wake i => l.setState i .running

/-- Entry `i` is in use and not dead. -/
def Live (l : Lifecycle) (i : Nat) : Prop :=
  i < l.count ∧ l.state i ≠ .dead

/-- Some live process carries `pid`. -/
def Alive (l : Lifecycle) (pid : Nat) : Prop :=
  ∃ k, l.Live k ∧ l.pid k = pid

/-- What the scheduler has checked before it causes an event. -/
def Enabled (l : Lifecycle) : LifecycleEvent → Prop
  | .skip => True
  | .spawn _ => True
  | .terminate i pid => i < l.count ∧ l.pid i = pid
  | .kill i => l.Live i
  | .stop i => l.Live i
  | .cont i => l.Live i
  | .block i pid => i < l.count ∧ (pid ≠ 0 → l.Alive pid)
  | .wake i => i < l.count ∧ l.state i = .blocked ∧ l.waitingOn i = 0

/-- The process list only grows. -/
theorem count_le_apply (l : Lifecycle) (e : LifecycleEvent) : l.count ≤ (l.apply e).count := by
  cases e with
  | spawn pid => exact Nat.le_succ l.count
  | _ => exact Nat.le_refl l.count

/-- Whoever comes into use is running. -/
theorem state_of_new {l : Lifecycle} {e : LifecycleEvent} {i : Nat} (hold : l.count ≤ i)
    (hnew : i < (l.apply e).count) : (l.apply e).state i = .running := by
  cases e with
  | spawn pid =>
      have hi : i = l.count := Nat.le_antisymm (Nat.lt_succ_iff.1 hnew) hold
      simp [Lifecycle.apply, hi]
  | _ => exact absurd hnew (Nat.not_lt.2 hold)

/-- A PID never changes once its entry is in use. -/
theorem pid_apply_of_lt (l : Lifecycle) (e : LifecycleEvent) {i : Nat} (hi : i < l.count) :
    (l.apply e).pid i = l.pid i := by
  cases e with
  | spawn pid => exact Function.update_of_ne (Nat.ne_of_lt hi) _ _
  | _ => rfl

/-! ## Live entries after an event -/

@[simp] theorem setState_live_iff (l : Lifecycle) (i j : Nat) (st : TaskState) :
    (l.setState i st).Live j ↔ j < l.count ∧ (if j = i then st else l.state j) ≠ .dead := by
  simp [Live, setState, Function.update_apply]

/-- A change of state brings nobody back who was not live. -/
theorem live_of_setState {l : Lifecycle} {i j : Nat} {st : TaskState}
    (hst : st = .dead ∨ l.Live i) (h : (l.setState i st).Live j) : l.Live j := by
  rw [setState_live_iff] at h
  by_cases hji : j = i
  · subst hji
    rcases hst with rfl | hlive
    · simp at h
    · exact hlive
  · exact ⟨h.1, by simpa [hji] using h.2⟩

/-- Nor does it end a life, unless it is a death. -/
theorem live_setState {l : Lifecycle} {i k : Nat} {st : TaskState} (hst : st ≠ .dead)
    (hk : l.Live k) : (l.setState i st).Live k := by
  rw [setState_live_iff]
  refine ⟨hk.1, ?_⟩
  split
  · exact hst
  · exact hk.2

@[simp] theorem release_live_iff (l : Lifecycle) (pid j : Nat) :
    (l.release pid).Live j ↔ l.Live j := by
  unfold Live release
  simp only
  constructor
  · rintro ⟨hj, hst⟩
    refine ⟨hj, fun hdead => hst ?_⟩
    simp [BlockedOn, hdead]
  · rintro ⟨hj, hst⟩
    refine ⟨hj, ?_⟩
    split
    · simp
    · exact hst

theorem spawn_live_iff (l : Lifecycle) (pid j : Nat) :
    (l.apply (.spawn pid)).Live j ↔ j = l.count ∨ l.Live j := by
  unfold Live apply
  simp only [Function.update_apply]
  by_cases hj : j = l.count
  · simp [hj]
  · have hlt : j < l.count + 1 ↔ j < l.count := by omega
    simp only [hj, if_false, false_or, hlt]

/-! ## PIDs of live processes -/

/-- No two live processes carry the same PID. -/
def PidsUnique (l : Lifecycle) : Prop :=
  ∀ i j, l.Live i → l.Live j → l.pid i = l.pid j → i = j

/-- No live process carries `pid`. -/
def Fresh (l : Lifecycle) (pid : Nat) : Prop :=
  ∀ j, l.Live j → l.pid j ≠ pid

/-- A new process needs a PID no live process carries, and so does a dead entry that comes back
by blocking. -/
def KeepsPidsUnique (l : Lifecycle) : LifecycleEvent → Prop
  | .spawn pid => l.Fresh pid
  | .block i _ => l.state i = .dead → l.Fresh (l.pid i)
  | _ => True

/-- Fewer live processes with unchanged PIDs. -/
theorem PidsUnique.mono {l l' : Lifecycle} (hpid : l'.pid = l.pid)
    (hlive : ∀ i, l'.Live i → l.Live i) (h : l.PidsUnique) : l'.PidsUnique := by
  intro i j hi hj hij
  exact h i j (hlive i hi) (hlive j hj) (by simpa [hpid] using hij)

theorem pidsUnique_spawn_iff {l : Lifecycle} (h : l.PidsUnique) (pid : Nat) :
    (l.apply (.spawn pid)).PidsUnique ↔ l.Fresh pid := by
  constructor
  · intro hnew j hj hpid
    have hlt : j < l.count := hj.1
    -- a namesake that lives already would have to be the new process itself
    have heq : j = l.count := by
      refine hnew j l.count ((spawn_live_iff l pid j).2 (.inr hj))
        ((spawn_live_iff l pid _).2 (.inl rfl)) ?_
      simp [apply, Nat.ne_of_lt hlt, hpid]
    omega
  · intro hfresh i j hi hj hij
    rw [spawn_live_iff] at hi hj
    simp only [apply, Function.update_apply] at hij
    -- whether each of the two is the new process
    rcases hi with rfl | hi <;> rcases hj with rfl | hj
    · rfl
    · have hne : j ≠ l.count := Nat.ne_of_lt hj.1
      simp only [if_true, hne, if_false] at hij
      exact absurd hij.symm (hfresh j hj)
    · have hne : i ≠ l.count := Nat.ne_of_lt hi.1
      simp only [if_true, hne, if_false] at hij
      exact absurd hij (hfresh i hi)
    · have hi' : i ≠ l.count := Nat.ne_of_lt hi.1
      have hj' : j ≠ l.count := Nat.ne_of_lt hj.1
      simp only [hi', hj', if_false] at hij
      exact h i j hi hj hij

theorem block_live_iff (l : Lifecycle) {i : Nat} (hi : i < l.count) (pid j : Nat) :
    (l.apply (.block i pid)).Live j ↔ j = i ∨ l.Live j := by
  unfold Live apply setState
  simp only [Function.update_apply]
  by_cases hj : j = i
  · simp [hj, hi]
  · simp [hj]

theorem pidsUnique_block_iff {l : Lifecycle} (h : l.PidsUnique) {i : Nat} (hi : i < l.count)
    (pid : Nat) :
    (l.apply (.block i pid)).PidsUnique ↔ (l.state i = .dead → l.Fresh (l.pid i)) := by
  have hlive := block_live_iff l hi pid
  constructor
  · intro hnew hdead j hj hpid
    -- a live namesake would be the entry itself, which is dead
    have heq : j = i := hnew j i ((hlive j).2 (.inr hj)) ((hlive i).2 (.inl rfl)) hpid
    subst heq
    exact hj.2 hdead
  · intro hfresh
    by_cases hdead : l.state i = .dead
    -- a dead entry comes back to life: it must find its PID unused
    · intro j k hj hk hjk
      rw [hlive] at hj hk
      have hjk' : l.pid j = l.pid k := hjk
      rcases hj with rfl | hj <;> rcases hk with rfl | hk
      · rfl
      · exact absurd hjk'.symm (hfresh hdead k hk)
      · exact absurd hjk' (hfresh hdead j hj)
      · exact h j k hj hk hjk'
    · refine PidsUnique.mono (l := l) rfl (fun j hj => ?_) h
      rcases (hlive j).1 hj with rfl | hj
      · exact ⟨hi, hdead⟩
      · exact hj

/-- Inside `PidsUnique`, an enabled event keeps it exactly when `KeepsPidsUnique` says so. -/
theorem pidsUnique_apply_iff {l : Lifecycle} {e : LifecycleEvent} (h : l.PidsUnique)
    (he : l.Enabled e) : (l.apply e).PidsUnique ↔ l.KeepsPidsUnique e := by
  cases e with
  | skip => exact ⟨fun _ => trivial, fun _ => h⟩
  | spawn pid => exact pidsUnique_spawn_iff h pid
  | terminate i pid =>
      refine ⟨fun _ => trivial, fun _ => PidsUnique.mono (l := l) rfl (fun j hj => ?_) h⟩
      exact live_of_setState (.inl rfl) ((release_live_iff _ _ j).1 hj)
  | kill i =>
      exact ⟨fun _ => trivial,
        fun _ => PidsUnique.mono (l := l) rfl (fun _ => live_of_setState (.inl rfl)) h⟩
  | stop i =>
      exact ⟨fun _ => trivial,
        fun _ => PidsUnique.mono (l := l) rfl (fun _ => live_of_setState (.inr he)) h⟩
  | cont i =>
      exact ⟨fun _ => trivial,
        fun _ => PidsUnique.mono (l := l) rfl (fun _ => live_of_setState (.inr he)) h⟩
  | block i pid => exact pidsUnique_block_iff h he.1 pid
  | wake i =>
      have hlive : l.Live i := ⟨he.1, by simp [he.2.1]⟩
      exact ⟨fun _ => trivial,
        fun _ => PidsUnique.mono (l := l) rfl (fun _ => live_of_setState (.inr hlive)) h⟩

/-! ## Waiting for a process -/

/-- Whoever is blocked on a PID has a live process of that PID to wait for. -/
def NoLostWait (l : Lifecycle) : Prop :=
  ∀ j pid, pid ≠ 0 → l.BlockedOn j pid → l.Alive pid

/-- Nobody new is blocked, and every PID alive stays alive. -/
theorem NoLostWait.mono {l l' : Lifecycle}
    (hblocked : ∀ j pid, pid ≠ 0 → l'.BlockedOn j pid → l.BlockedOn j pid)
    (halive : ∀ pid, l.Alive pid → l'.Alive pid) (h : l.NoLostWait) : l'.NoLostWait :=
  fun j pid hpid hj => halive pid (h j pid hpid (hblocked j pid hpid hj))

/-- A kill, which releases nobody, hits no process whose PID somebody else is blocked on. -/
def SparesWaiters (l : Lifecycle) : LifecycleEvent → Prop
  | .kill i => l.pid i ≠ 0 → ∀ j, j ≠ i → ¬ l.BlockedOn j (l.pid i)
  | _ => True

/-- Nobody is left blocked on the PID of a process that the event makes dead. -/
def DeathsRelease (l : Lifecycle) (e : LifecycleEvent) : Prop :=
  ∀ i, l.Live i → ¬ (l.apply e).Live i → l.pid i ≠ 0 → ∀ j, ¬ (l.apply e).BlockedOn j (l.pid i)

theorem alive_of_setState {l : Lifecycle} {i : Nat} {st : TaskState} (hst : st ≠ .dead)
    {pid : Nat} (h : l.Alive pid) : (l.setState i st).Alive pid := by
  rcases h with ⟨k, hk, hpid⟩
  exact ⟨k, live_setState hst hk, hpid⟩

theorem blockedOn_of_setState {l : Lifecycle} {i j pid : Nat} {st : TaskState}
    (hst : st ≠ .blocked) (h : (l.setState i st).BlockedOn j pid) : j ≠ i ∧ l.BlockedOn j pid := by
  rcases h with ⟨hj, hblocked, hpid⟩
  by_cases hji : j = i
  · subst hji
    simp [setState] at hblocked
    exact absurd hblocked hst
  · refine ⟨hji, hj, ?_, hpid⟩
    simpa [setState, hji] using hblocked

/-- A ready or stopped entry waits for nobody, so changing an entry to one is harmless. -/
theorem NoLostWait.setState {l : Lifecycle} {i : Nat} {st : TaskState} (h : l.NoLostWait)
    (hdead : st ≠ .dead) (hblocked : st ≠ .blocked) : (l.setState i st).NoLostWait :=
  h.mono (fun _ _ _ hj => (blockedOn_of_setState hblocked hj).2)
    (fun _ => alive_of_setState hdead)

theorem live_kill_iff (l : Lifecycle) (i k : Nat) :
    (l.apply (.kill i)).Live k ↔ k ≠ i ∧ l.Live k := by
  simp only [apply, setState_live_iff]
  by_cases hki : k = i
  · simp [hki]
  · simp [hki, Live]

theorem noLostWait_kill {l : Lifecycle} (h : l.NoLostWait) {i : Nat}
    (hspare : l.SparesWaiters (.kill i)) : (l.apply (.kill i)).NoLostWait := by
  intro j pid hpid hj
  rcases blockedOn_of_setState (l := l) (by simp) hj with ⟨hji, hj'⟩
  rcases h j pid hpid hj' with ⟨k, hk, hkpid⟩
  have hki : k ≠ i := by
    rintro rfl
    subst hkpid
    exact hspare hpid j hji hj'
  exact ⟨k, (live_kill_iff l i k).2 ⟨hki, hk⟩, hkpid⟩

/-- Nobody is blocked on a PID that was just released. -/
theorem not_blockedOn_release (l : Lifecycle) (j pid : Nat) : ¬ (l.release pid).BlockedOn j pid := by
  rintro ⟨hj, hblocked, hwait⟩
  simp only [release] at hblocked hwait
  by_cases hrel : l.BlockedOn j pid
  · simp [hrel] at hblocked
  · simp only [hrel, if_false] at hblocked hwait
    exact hrel ⟨hj, hblocked, hwait⟩

/-- Only the named entry dies of a state change. -/
theorem eq_of_setState_dies {l : Lifecycle} {i k : Nat} {st : TaskState} (hk : l.Live k)
    (hdead : ¬ (l.setState i st).Live k) : k = i := by
  by_contra hki
  refine hdead ?_
  rw [setState_live_iff]
  simpa [hki, Live] using hk

theorem noLostWait_terminate {l : Lifecycle} (h : l.NoLostWait) {i pid : Nat}
    (hi : i < l.count ∧ l.pid i = pid) : (l.apply (.terminate i pid)).NoLostWait := by
  intro j q hq hj
  have hblocked : (l.setState i .dead).BlockedOn j q ∧ q ≠ pid := by
    rcases hj with ⟨hjc, hjb, hjw⟩
    simp only [apply, release] at hjb hjw
    by_cases hrel : (l.setState i .dead).BlockedOn j pid
    · simp [hrel] at hjb
    · simp only [hrel, if_false] at hjb hjw
      refine ⟨⟨hjc, hjb, hjw⟩, ?_⟩
      rintro rfl
      exact hrel ⟨hjc, hjb, hjw⟩
  rcases blockedOn_of_setState (by simp) hblocked.1 with ⟨_, hj'⟩
  rcases h j q hq hj' with ⟨k, hk, hkpid⟩
  refine ⟨k, ?_, hkpid⟩
  rw [apply, release_live_iff, setState_live_iff]
  have hki : k ≠ i := by
    rintro rfl
    exact hblocked.2 (hkpid.symm.trans hi.2)
  simpa [hki, Live] using hk

theorem noLostWait_spawn {l : Lifecycle} (h : l.NoLostWait) (pid : Nat) :
    (l.apply (.spawn pid)).NoLostWait := by
  refine h.mono ?_ ?_
  · rintro j q _ ⟨hj, hblocked, hwait⟩
    simp only [apply, Function.update_apply] at hj hblocked hwait
    by_cases hjc : j = l.count
    · simp [hjc] at hblocked
    · simp only [hjc, if_false] at hblocked hwait
      exact ⟨by omega, hblocked, hwait⟩
  · rintro q ⟨k, hk, hkpid⟩
    refine ⟨k, (spawn_live_iff l pid k).2 (.inr hk), ?_⟩
    simp [apply, Nat.ne_of_lt hk.1, hkpid]

theorem noLostWait_block {l : Lifecycle} (h : l.NoLostWait) {i pid : Nat} (hi : i < l.count)
    (hpid : pid ≠ 0 → l.Alive pid) : (l.apply (.block i pid)).NoLostWait := by
  have halive : ∀ q, l.Alive q → (l.apply (.block i pid)).Alive q := by
    rintro q ⟨k, hk, hkpid⟩
    exact ⟨k, (block_live_iff l hi pid k).2 (.inr hk), hkpid⟩
  rintro j q hq ⟨hjc, hjb, hjw⟩
  simp only [apply, Lifecycle.setState, Function.update_apply] at hjb hjw
  by_cases hji : j = i
  · simp only [hji, if_true] at hjw
    subst hjw
    exact halive _ (hpid hq)
  · simp only [hji, if_false] at hjb hjw
    exact halive q (h j q hq ⟨hjc, hjb, hjw⟩)

/-- An enabled event that spares waiters loses no wait. -/
theorem NoLostWait.apply {l : Lifecycle} {e : LifecycleEvent} (h : l.NoLostWait)
    (he : l.Enabled e) (hspare : l.SparesWaiters e) : (l.apply e).NoLostWait := by
  cases e with
  | skip => exact h
  | spawn pid => exact noLostWait_spawn h pid
  | terminate i pid => exact noLostWait_terminate h he
  | kill i => exact noLostWait_kill h hspare
  | stop i => exact h.setState (by simp) (by simp)
  | cont i => exact h.setState (by simp) (by simp)
  | block i pid => exact noLostWait_block h he.1 he.2
  | wake i => exact h.setState (by simp) (by simp)

/-- An event that nobody dies of. -/
theorem deathsRelease_of_live {l : Lifecycle} {e : LifecycleEvent}
    (h : ∀ i, l.Live i → (l.apply e).Live i) : l.DeathsRelease e :=
  fun i hi hdead => absurd (h i hi) hdead

/-- The deaths an event causes release their waiters exactly when it spares waiters: a
termination always releases them, a kill never does. -/
theorem deathsRelease_iff {l : Lifecycle} {e : LifecycleEvent} (he : l.Enabled e) :
    l.DeathsRelease e ↔ l.SparesWaiters e := by
  cases e with
  | skip => exact iff_of_true (deathsRelease_of_live fun _ hi => hi) trivial
  | spawn pid =>
      refine iff_of_true (deathsRelease_of_live fun i hi => ?_) trivial
      exact (spawn_live_iff l pid i).2 (.inr hi)
  | terminate i pid =>
      refine ⟨fun _ => trivial, fun _ k hk hdead _ j => ?_⟩
      -- whoever dies of a termination is its target, and its waiters are released
      have hki : k = i := eq_of_setState_dies hk (fun hlive =>
        hdead ((release_live_iff _ pid k).2 hlive))
      rw [hki, he.2]
      exact not_blockedOn_release _ j pid
  | kill i =>
      constructor
      · intro hrel hpid j hji hj
        refine hrel i he (fun hlive => ((live_kill_iff l i i).1 hlive).1 rfl) hpid j ?_
        exact ⟨hj.1, by simpa [apply, Lifecycle.setState, hji] using hj.2.1, hj.2.2⟩
      · intro hspare k hk hdead hpid j hj
        have hki : k = i := eq_of_setState_dies hk hdead
        subst hki
        rcases blockedOn_of_setState (l := l) (by simp) hj with ⟨hjk, hj'⟩
        exact hspare hpid j hjk hj'
  | stop i =>
      exact iff_of_true (deathsRelease_of_live fun k hk => live_setState (by simp) hk) trivial
  | cont i =>
      exact iff_of_true (deathsRelease_of_live fun k hk => live_setState (by simp) hk) trivial
  | block i pid =>
      refine iff_of_true (deathsRelease_of_live fun k hk => ?_) trivial
      exact (block_live_iff l he.1 pid k).2 (.inr hk)
  | wake i =>
      exact iff_of_true (deathsRelease_of_live fun k hk => live_setState (by simp) hk) trivial

/-! ## Waiting to the end -/

/-- Entry `c` waits for entry `target` of PID `pid`: as long as the target lives, `c` is not ready,
and if it is blocked, it is blocked on that PID. -/
structure Waits (l : Lifecycle) (c pid target : Nat) : Prop where
  used : target < l.count
  pid_target : l.pid target = pid
  held : l.state target ≠ .dead →
    l.state c ≠ .running ∧ (l.state c = .blocked → l.waitingOn c = pid)

/-- The event does not make `c` ready while its target lives, nor bring the dead target back. -/
def SparesWait (l : Lifecycle) (c pid target : Nat) : LifecycleEvent → Prop
  | .terminate i q => q = pid → target ≠ i → l.state c = .blocked → l.state target = .dead
  | .cont i => i = c → l.state target = .dead
  | .wake i => i = c → l.state target = .dead
  | .block i _ => target = i → l.state target ≠ .dead
  | _ => True

/-- A change of one state keeps a wait, unless it makes the waiter ready or blocked or revives the
target. -/
theorem Waits.setState {l : Lifecycle} {c pid target i : Nat} {st : TaskState}
    (h : l.Waits c pid target) (htarget : target = i → st ≠ .dead → l.state target ≠ .dead)
    (hc : c = i → l.state target ≠ .dead → st ≠ .running ∧ st ≠ .blocked) :
    (l.setState i st).Waits c pid target := by
  refine ⟨h.used, h.pid_target, fun hlive => ?_⟩
  simp only [Lifecycle.setState, Function.update_apply] at hlive ⊢
  have hbefore : l.state target ≠ .dead := by
    by_cases hti : target = i
    · exact htarget hti (by simpa [hti] using hlive)
    · simpa [hti] using hlive
  by_cases hci : c = i
  · rcases hc hci hbefore with ⟨hrun, hblocked⟩
    simp [hci, hrun, hblocked]
  · simpa [hci] using h.held hbefore

theorem Waits.release {l : Lifecycle} {c pid target q : Nat} (h : l.Waits c pid target)
    (hspare : q = pid → l.state c = .blocked → l.state target = .dead) :
    (l.release q).Waits c pid target := by
  refine ⟨h.used, h.pid_target, fun hlive => ?_⟩
  simp only [Lifecycle.release] at hlive ⊢
  have hbefore : l.state target ≠ .dead := by
    intro hdead
    have hnot : ¬ l.BlockedOn target q := by
      rintro ⟨_, hblocked, _⟩
      simp [hdead] at hblocked
    simp [hnot, hdead] at hlive
  have hnot : ¬ l.BlockedOn c q := by
    rintro ⟨_, hblocked, hwait⟩
    have hpid : q = pid := hwait.symm.trans ((h.held hbefore).2 hblocked)
    exact hbefore (hspare hpid hblocked)
  simpa [hnot] using h.held hbefore

/-- An enabled event that spares the wait keeps it, if the waiter neither blocks anew nor is the
entry that comes into use. -/
theorem Waits.apply {l : Lifecycle} {c pid target : Nat} {e : LifecycleEvent}
    (h : l.Waits c pid target) (he : l.Enabled e) (hspare : l.SparesWait c pid target e)
    (hblock : ∀ q, e ≠ .block c q) (hspawn : ∀ q, e = .spawn q → c ≠ l.count) :
    (l.apply e).Waits c pid target := by
  cases e with
  | skip => exact h
  | spawn q =>
      -- neither the waiter nor its target is the entry that comes into use
      have hc : c ≠ l.count := hspawn q rfl
      have ht : target ≠ l.count := Nat.ne_of_lt h.used
      refine ⟨Nat.lt_succ_of_lt h.used, ?_, ?_⟩
      · simpa [Lifecycle.apply, ht] using h.pid_target
      · simpa [Lifecycle.apply, ht, hc] using h.held
  | terminate i q =>
      -- the target of the termination dies first, then its waiters are released
      refine Waits.release (h.setState (fun _ hne => absurd rfl hne) fun _ _ => by simp) ?_
      intro hq hblocked
      simp only [Lifecycle.setState, Function.update_apply] at hblocked ⊢
      by_cases hti : target = i
      · simp [hti]
      · by_cases hci : c = i
        · simp [hci] at hblocked
        · simp only [hci, hti, if_false] at hblocked ⊢
          exact hspare hq hti hblocked
  | kill i => exact h.setState (fun _ hne => absurd rfl hne) fun _ _ => by simp
  | stop i =>
      refine h.setState ?_ fun _ _ => by simp
      rintro rfl _
      exact he.2
  | cont i =>
      refine h.setState ?_ fun hci hlive => absurd (hspare hci.symm) hlive
      rintro rfl _
      exact he.2
  | wake i =>
      refine h.setState ?_ fun hci hlive => absurd (hspare hci.symm) hlive
      rintro rfl _
      simp [he.2.1]
  | block i q =>
      -- another process blocks
      have hci : c ≠ i := by
        rintro rfl
        exact hblock q rfl
      have hkeep := @Waits.setState _ _ _ _ i .blocked h (fun hti _ => hspare hti)
        fun hci' _ => absurd hci' hci
      refine ⟨hkeep.used, hkeep.pid_target, fun hlive => ?_⟩
      simpa [Lifecycle.apply, Lifecycle.setState, hci] using hkeep.held hlive

end Lifecycle

/-! ## Deaths -/

/-- Who dies of the event, if anybody. -/
def LifecycleEvent.victim : LifecycleEvent → Option Nat
  | .terminate i _ => some i
  | .kill i => some i
  | _ => none

/-- The event brings nobody to life: a new process comes alive, and so does whoever blocks. -/
def LifecycleEvent.Mortal : LifecycleEvent → Prop
  | .spawn _ => False
  | .block _ _ => False
  | _ => True

namespace Lifecycle

theorem setState_dead_iff (l : Lifecycle) (i j : Nat) (st : TaskState) :
    (l.setState i st).state j = .dead ↔ (if j = i then st else l.state j) = .dead := by
  simp [setState, Function.update_apply]

theorem release_dead_iff (l : Lifecycle) (pid j : Nat) :
    (l.release pid).state j = .dead ↔ l.state j = .dead := by
  simp only [release]
  split
  case isTrue hblocked => simp [hblocked.2.1]
  case isFalse => exact Iff.rfl

/-- A change of state of somebody alive, to anything but death. -/
theorem setState_living {l : Lifecycle} {i : Nat} {st : TaskState} (hi : l.state i ≠ .dead)
    (hst : st ≠ .dead) (j : Nat) : (l.setState i st).state j = .dead ↔ l.state j = .dead := by
  rw [setState_dead_iff]
  split
  case isTrue hji =>
    subst hji
    exact iff_of_false hst hi
  case isFalse => exact Iff.rfl

/-- Whoever is dead after the event has died of it, or was dead before. -/
theorem apply_dead_iff {l : Lifecycle} {e : LifecycleEvent} (he : l.Enabled e) (hmortal : e.Mortal)
    (j : Nat) : (l.apply e).state j = .dead ↔ e.victim = some j ∨ l.state j = .dead := by
  have hdeath : ∀ i, (l.setState i .dead).state j = .dead ↔ some i = some j ∨ l.state j = .dead := by
    intro i
    rw [setState_dead_iff]
    by_cases hji : j = i
    · simp [hji]
    · simp [hji, Ne.symm hji]
  cases e with
  | skip => simp [apply, LifecycleEvent.victim]
  | spawn pid => cases hmortal
  | block i pid => cases hmortal
  | terminate i pid => exact (release_dead_iff _ pid j).trans (hdeath i)
  | kill i => exact hdeath i
  | stop i => simpa [apply, LifecycleEvent.victim] using setState_living he.2 (by simp) j
  | cont i => simpa [apply, LifecycleEvent.victim] using setState_living he.2 (by simp) j
  | wake i =>
      have halive : l.state i ≠ .dead := by simp [he.2.1]
      simpa [apply, LifecycleEvent.victim] using setState_living halive (by simp) j

/-- It changes neither who there is nor their PIDs. -/
theorem apply_count {l : Lifecycle} {e : LifecycleEvent} (hmortal : e.Mortal) :
    (l.apply e).count = l.count := by
  cases e with
  | spawn pid => cases hmortal
  | _ => rfl

end Lifecycle

end Sched
end WhitexKernel
