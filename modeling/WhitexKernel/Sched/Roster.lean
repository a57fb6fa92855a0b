import WhitexKernel.Oom.Victims
import WhitexKernel.Sched.Events

/-!
# Roster — the two records of who is alive

A process that is registered has an entry in the process table and a `sys_task_t` in the array of the
OOM controller.  The scheduler's calls kill in the one, the OOM killer in the other:
`Roster.agree_run_iff` says that the two agree exactly as long as nobody is killed.

Every `sys_task_t` is an object of its own here.  As the page allocator can return an address twice, a
record is moved to a place that no allocation returns once its registration is over.
-/

namespace WhitexKernel
namespace Sched

open Lib Machine Oom

/-! ## Places -/

/-- The place of the record at index `j` of `task_array`, past all 32-bit addresses. -/
def home (j : Nat) : Nat := 2 ^ 32 + j

/-- The record at index `j` moves to its place. -/
def settle (c : SysOomCtrl) (j : Nat) : SysOomCtrl :=
  { c with
    taskArray := Function.update c.taskArray j (home j)
    tasks := Function.update c.tasks (home j) (c.tasks (c.taskArray j)) }

/-- The controller when a registration asks for its stack, after the `sys_task_t` is registered. -/
def stackRequest (k : Kernel) (initialRss allocationFlags : Nat) : Option SysOomCtrl :=
  match schedulerAllocateMemory k.oom sizeofSysTask with
  | .error _ => none
  | .ok (oom, node) =>
      if node = 0 then none
      else
        (sysRegisterTask
          { oom with
            tasks := Function.update oom.tasks node
              (newSysTask k.sched.globalProcessIdentifierSeed k.sched.current.taskId initialRss
                allocationFlags) } node).toOption

/-! ## The system -/

/-- The kernel, and the index in `task_array` of the record of each entry. -/
structure Roster where
  kernel : Kernel
  taskOf : Nat → Nat

inductive RosterAction
  | registerProcess (entryPoint priority initialRss allocationFlags : Nat)
  | terminateProcess (targetPid : Nat)
  | sendSignal (targetPid signal : Nat)
  | triggerOomKiller

namespace Roster

/-- The scheduler globals. -/
abbrev sched (s : Roster) : SchedulerState := s.kernel.sched

/-- The OOM controller. -/
abbrev oom (s : Roster) : SysOomCtrl := s.kernel.oom

def withSched (s : Roster) (sched : SchedulerState) : Roster :=
  { s with kernel := { s.kernel with sched := sched } }

def withOom (s : Roster) (oom : SysOomCtrl) : Roster :=
  { s with kernel := { s.kernel with oom := oom } }

/-- After `sys_oom_init` and `scheduler_initialize`. -/
def boot (k : Kernel) (dmaPages normalPages highmemPages : Nat) : Roster :=
  { kernel :=
      { k with
        sched := schedulerInitialize k.sched
        oom := sysOomInit dmaPages normalPages highmemPages k.oom }
    taskOf := fun _ => 0 }

/-- What a registration leaves: `k`, with the new record in its place. -/
def registered (s : Roster) (k : Kernel) (code : ErrCode) : Roster :=
  { kernel := { k with oom := settle k.oom s.oom.activeTaskCount }
    taskOf :=
      if code = .ok then
        Function.update s.taskOf s.sched.activeProcessCount s.oom.activeTaskCount
      else s.taskOf }

/-- A call that returns. -/
def step (s : Roster) : RosterAction → Option Roster
  | .registerProcess entryPoint priority initialRss allocationFlags =>
      match schedulerRegisterProcess s.kernel entryPoint priority initialRss allocationFlags with
      | .error _ => none
      | .ok (k, code) => some (s.registered k code)
  | .terminateProcess targetPid => some (s.withSched (schedulerTerminateProcess s.sched targetPid).1)
  | .sendSignal targetPid signal => some (s.withSched (schedulerSendSignal s.sched targetPid signal).1)
  | .triggerOomKiller =>
      match sysTriggerOomKiller s.oom with
      | .error _ => none
      | .ok oom => some (s.withOom oom)

/-- Entry `i` was registered; entry 0 is the master process. -/
def Registered (s : Roster) (i : Nat) : Prop := 1 ≤ i ∧ i < s.sched.activeProcessCount

/-- Entry `i` is dead in the process table. -/
def DeadEntry (s : Roster) (i : Nat) : Prop := (s.sched.processTable i).executionState = .dead

/-- The address of the record of entry `i`. -/
def recordOf (s : Roster) (i : Nat) : Nat := s.oom.taskArray (s.taskOf i)

/-- The record at this address is dead. -/
def DeadRecord (s : Roster) (a : Nat) : Prop := (s.oom.tasks a).state = .dead

/-- `a` is the record of a registered process. -/
def IsRecord (s : Roster) (a : Nat) : Prop := ∃ i, s.Registered i ∧ s.recordOf i = a

/-- The scheduler and the controller agree on who is dead. -/
def Agree (s : Roster) : Prop :=
  ∀ i, s.Registered i → (s.DeadEntry i ↔ s.DeadRecord (s.recordOf i))

/-- The call kills no registered process: not in the process table, where a second death changes
nothing, and not by the killer; and what a registration adds outlives it. -/
def SparesRegistered (s : Roster) : RosterAction → Prop
  | .registerProcess _ _ initialRss allocationFlags =>
      s.sched.activeProcessCount < sysMaxTasks →
        (∀ a, requestVictim s.oom zoneNormal 1 = some a → ¬ s.IsRecord a) ∧
        ∀ c, stackRequest s.kernel initialRss allocationFlags = some c →
          ∀ a, requestVictim c zoneNormal 1 = some a →
            ¬ s.IsRecord a ∧
            (a = c.taskArray s.oom.activeTaskCount →
              ∀ c' page, sysAllocPages c 1 1 = .ok (c', page) → page = 0)
  | .terminateProcess targetPid =>
      ∀ i, (terminateEvent s.sched targetPid).victim = some i → s.Registered i → s.DeadEntry i
  | .sendSignal targetPid signal =>
      ∀ i, (signalEvent s.sched targetPid signal).victim = some i → s.Registered i → s.DeadEntry i
  | .triggerOomKiller => ∀ a, sysSelectBadProcess s.oom = .ok a → ¬ s.IsRecord a

/-- Every record is in its place, and every registered process has one. -/
structure Settled (s : Roster) : Prop where
  home : ∀ j, j < s.oom.activeTaskCount → s.oom.taskArray j = home j
  taskOf : ∀ i, s.Registered i → s.taskOf i < s.oom.activeTaskCount

theorem Settled.recordOf {s : Roster} (hs : s.Settled) {i : Nat} (hi : s.Registered i) :
    s.recordOf i = Sched.home (s.taskOf i) := hs.home _ (hs.taskOf i hi)

/-! ## Deaths in the process table -/

/-- A death that only the process table records. -/
theorem agree_withSched_iff {s : Roster} {sched : SchedulerState} {e : LifecycleEvent}
    (hs : s.Agree) (henabled : (view s.sched).Enabled e) (hmortal : e.Mortal)
    (hview : view sched = (view s.sched).apply e) :
    (s.withSched sched).Agree ↔ ∀ i, e.victim = some i → s.Registered i → s.DeadEntry i := by
  have hcount : sched.activeProcessCount = s.sched.activeProcessCount :=
    (congrArg Lifecycle.count hview).trans (Lifecycle.apply_count hmortal)
  have hregistered : ∀ j, (s.withSched sched).Registered j ↔ s.Registered j := by
    intro j
    simp only [Registered, withSched, Roster.sched, hcount]
  -- the event kills its victim and nobody else
  have hdead : ∀ j, (s.withSched sched).DeadEntry j ↔ e.victim = some j ∨ s.DeadEntry j := by
    intro j
    rw [← show (view s.sched).state j = .dead ↔ s.DeadEntry j from Iff.rfl,
      ← Lifecycle.apply_dead_iff henabled hmortal, ← hview]
    exact Iff.rfl
  constructor
  · intro ht i hvictim hi
    exact (hs i hi).2 ((ht i ((hregistered i).2 hi)).1 ((hdead i).2 (.inl hvictim)))
  · intro h j hj
    have hj' := (hregistered j).1 hj
    refine (hdead j).trans (Iff.trans ?_ (hs j hj'))
    constructor
    · rintro (hvictim | hdeath)
      · exact h j hvictim hj'
      · exact hdeath
    · exact .inr

/-! ## Deaths in the controller -/

/-- Among the processes that are there already, records that die alone are what agreement must be
spared. -/
theorem agree_iff_of_killed {s t : Roster} {killed : Nat → Prop} (hs : s.Agree)
    (hentry : ∀ i, s.Registered i → (t.DeadEntry i ↔ s.DeadEntry i))
    (hrecord : ∀ i, s.Registered i →
      (t.DeadRecord (t.recordOf i) ↔ killed (s.recordOf i) ∨ s.DeadRecord (s.recordOf i)))
    (halive : ∀ i, s.Registered i → killed (s.recordOf i) → ¬ s.DeadRecord (s.recordOf i)) :
    (∀ i, s.Registered i → (t.DeadEntry i ↔ t.DeadRecord (t.recordOf i))) ↔
      ∀ a, killed a → ¬ s.IsRecord a := by
  constructor
  · rintro ht a ha ⟨i, hi, rfl⟩
    have hdeath := (ht i hi).2 ((hrecord i hi).2 (.inl ha))
    exact halive i hi ha ((hs i hi).1 ((hentry i hi).1 hdeath))
  · intro h i hi
    rw [hentry i hi, hs i hi, hrecord i hi]
    refine ⟨.inr, ?_⟩
    rintro (hkilled | hdeath)
    · exact absurd ⟨i, hi, rfl⟩ (h _ hkilled)
    · exact hdeath

theorem oomKiller_agree_iff {s : Roster} {oom : SysOomCtrl} (hs : s.Agree)
    (h : sysTriggerOomKiller s.oom = .ok oom) :
    (s.withOom oom).Agree ↔ s.SparesRegistered .triggerOomKiller := by
  rcases sysTriggerOomKiller_cases h with ⟨victim, hselect, hnull, rfl⟩
  have halive := sysSelectBadProcess_alive hselect hnull
  have hkilled := @agree_iff_of_killed s (s.withOom (sysSendSigkill s.oom victim))
    (fun a => a = victim) hs (fun _ _ => Iff.rfl)
    (fun i _ => sysSendSigkill_dead_iff s.oom victim (s.recordOf i))
    (fun i _ hkilled => hkilled ▸ halive)
  refine hkilled.trans ⟨fun hspare a ha => ?_, fun hspare a ha => ?_⟩
  · rw [hselect] at ha
    cases ha
    exact hspare victim rfl
  · rw [ha]
    exact hspare victim hselect

/-! ## Registration -/

theorem home_injective {i j : Nat} (h : home i = home j) : i = j := by
  unfold home at h
  omega

/-- No allocation returns the place of a record. -/
theorem home_ne_pageAddress (j totalReclaimed : Nat) : home j ≠ pageAddress totalReclaimed := by
  have hlt := pageAddress_lt totalReclaimed
  unfold home
  omega

/-- A registration that came to its second request: the first one left `c₁` and found `node` for the
record, which is registered in `c`, where the second one is made. -/
structure SecondRequest (k k' : Kernel) (code : ErrCode) (rss flags : Nat) (c₁ : SysOomCtrl)
    (node : Nat) (c : SysOomCtrl) (stack : Nat) : Prop where
  request : stackRequest k rss flags = some c
  taskArray : c.taskArray = Function.update c₁.taskArray c₁.activeTaskCount node
  activeTaskCount : c.activeTaskCount = c₁.activeTaskCount + 1
  others : ∀ a, a ≠ node → c.tasks a = c₁.tasks a
  running : (c.tasks node).state = .running
  second : sysAllocPages c 1 1 = .ok (k'.oom, stack)
  code_iff : code = .ok ↔ stack ≠ 0

/-- The requests of a registration: one for the `sys_task_t`, and, once that is registered, one for
the stack. -/
theorem schedulerRegisterProcess_requests {k k' : Kernel} {code : ErrCode}
    {entryPoint priority rss flags : Nat} (hroom : k.sched.activeProcessCount < sysMaxTasks)
    (h : schedulerRegisterProcess k entryPoint priority rss flags = .ok (k', code)) :
    ∃ c₁ node, sysAllocPages k.oom 1 1 = .ok (c₁, node) ∧
      ((code ≠ .ok ∧ k'.oom = c₁ ∧ stackRequest k rss flags = none) ∨
      ∃ c stack, SecondRequest k k' code rss flags c₁ node c stack) := by
  unfold schedulerRegisterProcess at h
  have hfull : ¬ k.sched.activeProcessCount ≥ sysMaxTasks := by omega
  simp only [hfull, if_false, bind, Except.bind, pure, Except.pure] at h
  split at h
  · cases h
  case h_2 r hnode =>
    have hnode' : schedulerAllocateMemory k.oom sizeofSysTask = .ok r := hnode
    refine ⟨r.1, r.2, hnode, ?_⟩
    split at h
    case isTrue hnull =>
      cases h
      refine .inl ⟨by simp, rfl, ?_⟩
      unfold stackRequest
      rw [hnode']
      exact if_pos hnull
    case isFalse hnull =>
      split at h
      · cases h
      case h_2 c hregister =>
        -- the record is registered, so the request for the stack comes next
        have hrequest : stackRequest k rss flags = some c := by
          unfold stackRequest
          rw [hnode']
          dsimp only
          rw [if_neg hnull]
          exact congrArg Except.toOption hregister
        unfold sysRegisterTask at hregister
        split at hregister
        case isFalse => cases hregister
        case isTrue =>
          cases hregister
          split at h
          · cases h
          case h_2 r' hstack =>
            refine .inr ⟨_, r'.2, ⟨hrequest, rfl, rfl, ?_, ?_, ?_, ?_⟩⟩
            · intro a ha
              exact Function.update_of_ne ha _ _
            · simp [newSysTask]
            · split at h
              · cases h
                exact hstack
              · cases h
                exact hstack
            · split at h
              case isTrue hzero =>
                cases h
                simp [hzero]
              case isFalse hzero =>
                cases h
                simp [hzero]

/-- Registration appends to `task_array`, at the latest when it brings a process into being. -/
theorem schedulerRegisterProcess_taskArray {k k' : Kernel} {code : ErrCode}
    {entryPoint priority rss flags : Nat}
    (h : schedulerRegisterProcess k entryPoint priority rss flags = .ok (k', code)) :
    (∀ j, j < k.oom.activeTaskCount → k'.oom.taskArray j = k.oom.taskArray j) ∧
      (k'.oom.activeTaskCount = k.oom.activeTaskCount + 1 ∨
        code ≠ .ok ∧ k'.oom.activeTaskCount = k.oom.activeTaskCount) := by
  by_cases hroom : k.sched.activeProcessCount < sysMaxTasks
  case neg =>
    unfold schedulerRegisterProcess at h
    rw [if_pos (Nat.le_of_not_lt hroom)] at h
    cases h
    exact ⟨fun _ _ => rfl, .inr ⟨by simp, rfl⟩⟩
  case pos =>
    rcases schedulerRegisterProcess_requests hroom h with ⟨c₁, node, hfirst, hrest⟩
    have hserved₁ := (sysAllocPages_served zoneOfInt_one hfirst).1
    rcases hrest with ⟨hcode, hoom, _⟩ | ⟨c, stack, hreq⟩
    · rw [hoom, hserved₁.taskArray, hserved₁.activeTaskCount]
      exact ⟨fun _ _ => rfl, .inr ⟨hcode, rfl⟩⟩
    · have hserved₂ := (sysAllocPages_served zoneOfInt_one hreq.second).1
      rw [hserved₂.taskArray, hserved₂.activeTaskCount, hreq.taskArray, hreq.activeTaskCount,
        hserved₁.taskArray, hserved₁.activeTaskCount]
      exact ⟨fun j hj => Function.update_of_ne (Nat.ne_of_lt hj) _ _, .inl rfl⟩

/-- Without a new process, agreement is about those that were there. -/
theorem agree_of_count_eq {s t : Roster}
    (hcount : t.sched.activeProcessCount = s.sched.activeProcessCount) :
    t.Agree ↔ ∀ i, s.Registered i → (t.DeadEntry i ↔ t.DeadRecord (t.recordOf i)) := by
  unfold Agree Registered
  rw [hcount]

/-- With one, it is about that one, too. -/
theorem agree_of_count_succ {s t : Roster} (hpos : 1 ≤ s.sched.activeProcessCount)
    (hcount : t.sched.activeProcessCount = s.sched.activeProcessCount + 1) :
    t.Agree ↔ (∀ i, s.Registered i → (t.DeadEntry i ↔ t.DeadRecord (t.recordOf i))) ∧
      (t.DeadEntry s.sched.activeProcessCount ↔
        t.DeadRecord (t.recordOf s.sched.activeProcessCount)) := by
  unfold Agree Registered
  rw [hcount]
  constructor
  · intro h
    exact ⟨fun i hi => h i ⟨hi.1, Nat.lt_succ_of_lt hi.2⟩, h _ ⟨hpos, Nat.lt_succ_self _⟩⟩
  · rintro ⟨hold, hnew⟩ i ⟨hone, hlt⟩
    rcases Nat.lt_succ_iff_lt_or_eq.1 hlt with hi | rfl
    · exact hold i ⟨hone, hi⟩
    · exact hnew

/-- The records that are in their places already stay there. -/
theorem settle_tasks_home (c : SysOomCtrl) {i j : Nat} (h : i ≠ j) :
    (settle c j).tasks (home i) = c.tasks (home i) :=
  Function.update_of_ne (fun heq => h (home_injective heq)) _ _

/-- The record of a process that was there, after a registration. -/
theorem registered_recordOf {s : Roster} {k : Kernel} (hs : s.Settled) (code : ErrCode)
    (harray : ∀ j, j < s.oom.activeTaskCount → k.oom.taskArray j = s.oom.taskArray j) {i : Nat}
    (hi : s.Registered i) : (s.registered k code).recordOf i = s.recordOf i := by
  have hlt := hs.taskOf i hi
  have htaskOf : (s.registered k code).taskOf i = s.taskOf i := by
    unfold registered
    dsimp only
    split
    · exact Function.update_of_ne (Nat.ne_of_lt hi.2) _ _
    · rfl
  have hsame : (settle k.oom s.oom.activeTaskCount).taskArray (s.taskOf i) =
      k.oom.taskArray (s.taskOf i) := Function.update_of_ne (Nat.ne_of_lt hlt) _ _
  calc (s.registered k code).recordOf i
      = (settle k.oom s.oom.activeTaskCount).taskArray (s.taskOf i) := by rw [← htaskOf]; rfl
    _ = s.oom.taskArray (s.taskOf i) := hsame.trans (harray _ hlt)

/-- Whether it is dead then. -/
theorem registered_deadRecord {s : Roster} {k : Kernel} (hs : s.Settled) (code : ErrCode) {i : Nat}
    (hi : s.Registered i) :
    (s.registered k code).DeadRecord (s.recordOf i) ↔
      (k.oom.tasks (s.recordOf i)).state = .dead := by
  have htasks : (settle k.oom s.oom.activeTaskCount).tasks (s.recordOf i) =
      k.oom.tasks (s.recordOf i) := by
    rw [hs.recordOf hi]
    exact settle_tasks_home _ (Nat.ne_of_lt (hs.taskOf i hi))
  unfold DeadRecord
  exact iff_of_eq (congrArg (fun task : SysTask => task.state = .dead) htasks)

/-- The scheduler's entries of those who were there are not touched. -/
theorem registered_deadEntry {s : Roster} {k : Kernel} {code : ErrCode}
    {entryPoint priority rss flags : Nat}
    (h : schedulerRegisterProcess s.kernel entryPoint priority rss flags = .ok (k, code)) {i : Nat}
    (hi : s.Registered i) : (s.registered k code).DeadEntry i ↔ s.DeadEntry i := by
  have hstate : (view k.sched).state i = (view s.sched).state i := by
    rcases schedulerRegisterProcess_cases h with ⟨_, rfl⟩ | ⟨_, hk⟩ | ⟨_, _, stackRaw, _, hk⟩
    · rfl
    · rw [hk, view_drawPid]
    · rw [hk, view_addProcess, view_drawPid]
      exact Function.update_of_ne (Nat.ne_of_lt hi.2) _ _
  exact iff_of_eq (congrArg (fun st : TaskState => st = .dead) hstate)

/-- What a registration does to those who were there: the victims of its requests die. -/
theorem registered_old_iff {s : Roster} {k : Kernel} {code : ErrCode}
    {entryPoint priority rss flags : Nat} {killed : Nat → Prop} (hsettled : s.Settled)
    (hs : s.Agree)
    (h : schedulerRegisterProcess s.kernel entryPoint priority rss flags = .ok (k, code))
    (harray : ∀ j, j < s.oom.activeTaskCount → k.oom.taskArray j = s.oom.taskArray j)
    (hdead : ∀ i, s.Registered i → ((k.oom.tasks (s.recordOf i)).state = .dead ↔
      killed (s.recordOf i) ∨ s.DeadRecord (s.recordOf i)))
    (halive : ∀ i, s.Registered i → killed (s.recordOf i) → ¬ s.DeadRecord (s.recordOf i)) :
    (∀ i, s.Registered i → ((s.registered k code).DeadEntry i ↔
      (s.registered k code).DeadRecord ((s.registered k code).recordOf i))) ↔
      ∀ a, killed a → ¬ s.IsRecord a := by
  refine agree_iff_of_killed hs (fun i hi => registered_deadEntry h hi) (fun i hi => ?_) halive
  rw [registered_recordOf hsettled code harray hi, registered_deadRecord hsettled code hi]
  exact hdead i hi

/-- The new process is alive, and its record what the second request has left of it. -/
theorem registered_new_iff {s : Roster} {k : Kernel} {entryPoint priority rss flags : Nat}
    (h : schedulerRegisterProcess s.kernel entryPoint priority rss flags = .ok (k, .ok)) :
    (s.registered k .ok).sched.activeProcessCount = s.sched.activeProcessCount + 1 ∧
      (((s.registered k .ok).DeadEntry s.sched.activeProcessCount ↔
        (s.registered k .ok).DeadRecord ((s.registered k .ok).recordOf s.sched.activeProcessCount)) ↔
        (k.oom.tasks (k.oom.taskArray s.oom.activeTaskCount)).state ≠ .dead) := by
  rcases schedulerRegisterProcess_cases h with ⟨hcode, _⟩ | ⟨hcode, _⟩ | ⟨_, _, stackRaw, _, hk⟩
  · cases hcode
  · cases hcode
  · have hview : view k.sched =
        (view s.sched).apply (.spawn s.sched.globalProcessIdentifierSeed) := by
      rw [hk, view_addProcess, view_drawPid]
    refine ⟨congrArg Lifecycle.count hview, ?_⟩
    -- a process that has just been registered runs
    have hentry : ¬ (s.registered k .ok).DeadEntry s.sched.activeProcessCount := by
      have hstate := congrFun (congrArg Lifecycle.state hview) s.sched.activeProcessCount
      intro hdead
      change (view k.sched).state s.sched.activeProcessCount = .dead at hdead
      rw [hstate] at hdead
      simp [Lifecycle.apply, view] at hdead
    have htaskOf : (s.registered k .ok).taskOf s.sched.activeProcessCount =
        s.oom.activeTaskCount := by
      simp [registered]
    -- its record was moved to its home, with what the second request made of it
    have hrecord : (s.registered k .ok).recordOf s.sched.activeProcessCount =
        home s.oom.activeTaskCount := by
      unfold recordOf
      rw [htaskOf]
      exact Function.update_self _ _ _
    rw [hrecord]
    have htask : (s.registered k .ok).oom.tasks (home s.oom.activeTaskCount) =
        k.oom.tasks (k.oom.taskArray s.oom.activeTaskCount) := Function.update_self _ _ _
    unfold DeadRecord
    rw [htask]
    exact ⟨fun hiff hdead => hentry (hiff.2 hdead), fun hne => iff_of_false hentry hne⟩

/-- A registration that fails adds no process. -/
theorem registered_count_of_failed {s : Roster} {k : Kernel} {code : ErrCode}
    {entryPoint priority rss flags : Nat}
    (h : schedulerRegisterProcess s.kernel entryPoint priority rss flags = .ok (k, code))
    (hcode : code ≠ .ok) :
    (s.registered k code).sched.activeProcessCount = s.sched.activeProcessCount := by
  rcases schedulerRegisterProcess_cases h with ⟨_, rfl⟩ | ⟨_, hk⟩ | ⟨hok, _⟩
  · rfl
  · change k.sched.activeProcessCount = s.sched.activeProcessCount
    rw [hk]
    rfl
  · exact absurd hok hcode

/-- With a full table nothing is requested. -/
theorem registered_full_agree {s : Roster} {k : Kernel} {code : ErrCode}
    {entryPoint priority rss flags : Nat} (hsettled : s.Settled) (hs : s.Agree)
    (hfull : ¬ s.sched.activeProcessCount < sysMaxTasks)
    (h : schedulerRegisterProcess s.kernel entryPoint priority rss flags = .ok (k, code)) :
    (s.registered k code).Agree := by
  unfold schedulerRegisterProcess at h
  rw [if_pos (Nat.le_of_not_lt hfull)] at h
  cases h
  refine (agree_of_count_eq rfl).2 fun i hi => ?_
  rw [registered_recordOf hsettled _ (fun _ _ => rfl) hi, registered_deadRecord hsettled _ hi]
  exact hs i hi

/-- Without an address for the record, the first request is all there is. -/
theorem registered_first_agree_iff {s : Roster} {k : Kernel} {code : ErrCode}
    {entryPoint priority rss flags node : Nat} {c₁ : SysOomCtrl} (hsettled : s.Settled)
    (hs : s.Agree) (hroom : s.sched.activeProcessCount < sysMaxTasks)
    (hfirst : sysAllocPages s.oom 1 1 = .ok (c₁, node)) (hcode : code ≠ .ok) (hoom : k.oom = c₁)
    (hnone : stackRequest s.kernel rss flags = none)
    (h : schedulerRegisterProcess s.kernel entryPoint priority rss flags = .ok (k, code)) :
    (s.registered k code).Agree ↔
      s.SparesRegistered (.registerProcess entryPoint priority rss flags) := by
  have hserved := (sysAllocPages_served zoneOfInt_one hfirst).1
  -- no process is added, so only a victim of the one request can disagree
  have hold : (∀ i, s.Registered i → ((s.registered k code).DeadEntry i ↔
      (s.registered k code).DeadRecord ((s.registered k code).recordOf i))) ↔
      ∀ a, requestVictim s.oom zoneNormal 1 = some a → ¬ s.IsRecord a := by
    refine registered_old_iff hsettled hs h (schedulerRegisterProcess_taskArray h).1 ?_ ?_
    · intro i _
      rw [hoom]
      exact hserved.dead_iff _
    · exact fun i _ hkilled => hserved.alive _ hkilled
  rw [agree_of_count_eq (registered_count_of_failed h hcode), hold]
  constructor
  · intro hspare _
    refine ⟨hspare, fun c hc => ?_⟩
    rw [hnone] at hc
    cases hc
  · exact fun hspare => (hspare hroom).1

namespace SecondRequest

variable {s : Roster} {k : Kernel} {code : ErrCode} {entryPoint priority rss flags : Nat}
variable {c₁ c : SysOomCtrl} {node stack : Nat}

/-- The new record is the one behind those there were. -/
theorem taskArray_new (hreq : SecondRequest s.kernel k code rss flags c₁ node c stack)
    (hfirst : sysAllocPages s.oom 1 1 = .ok (c₁, node)) :
    c.taskArray s.oom.activeTaskCount = node := by
  have hserved := (sysAllocPages_served zoneOfInt_one hfirst).1
  rw [hreq.taskArray, hserved.activeTaskCount, Function.update_self]

/-- Who is dead when the second request is made: the victim of the first one, too. -/
theorem dead_iff (hreq : SecondRequest s.kernel k code rss flags c₁ node c stack)
    (hsettled : s.Settled) (hfirst : sysAllocPages s.oom 1 1 = .ok (c₁, node)) {i : Nat}
    (hi : s.Registered i) : (c.tasks (s.recordOf i)).state = .dead ↔
      requestVictim s.oom zoneNormal 1 = some (s.recordOf i) ∨ s.DeadRecord (s.recordOf i) := by
  rcases sysAllocPages_served zoneOfInt_one hfirst with ⟨hserved, hnode⟩
  have hfar : s.recordOf i ≠ node := by
    rw [hsettled.recordOf hi, hnode]
    exact home_ne_pageAddress _ _
  rw [hreq.others _ hfar]
  exact hserved.dead_iff _

/-- Those who were there lose the victims of both requests. -/
theorem old_iff (hreq : SecondRequest s.kernel k code rss flags c₁ node c stack)
    (hsettled : s.Settled) (hs : s.Agree)
    (hfirst : sysAllocPages s.oom 1 1 = .ok (c₁, node))
    (h : schedulerRegisterProcess s.kernel entryPoint priority rss flags = .ok (k, code)) :
    (∀ i, s.Registered i → ((s.registered k code).DeadEntry i ↔
      (s.registered k code).DeadRecord ((s.registered k code).recordOf i))) ↔
      ∀ a, requestVictim c zoneNormal 1 = some a ∨ requestVictim s.oom zoneNormal 1 = some a →
        ¬ s.IsRecord a := by
  have hserved₁ := (sysAllocPages_served zoneOfInt_one hfirst).1
  have hserved₂ := (sysAllocPages_served zoneOfInt_one hreq.second).1
  refine registered_old_iff hsettled hs h (schedulerRegisterProcess_taskArray h).1 ?_ ?_
  · intro i hi
    rw [hserved₂.dead_iff, hreq.dead_iff hsettled hfirst hi, or_assoc]
  · rintro i hi (hkilled | hkilled) hdead
    · exact hserved₂.alive _ hkilled ((hreq.dead_iff hsettled hfirst hi).2 (.inr hdead))
    · exact hserved₁.alive _ hkilled hdead

/-- A new process: neither request kills one that was there, nor the second one the new one. -/
theorem agree_iff_of_ok (hreq : SecondRequest s.kernel k .ok rss flags c₁ node c stack)
    (hsettled : s.Settled) (hs : s.Agree) (hpos : 1 ≤ s.sched.activeProcessCount)
    (hroom : s.sched.activeProcessCount < sysMaxTasks)
    (hfirst : sysAllocPages s.oom 1 1 = .ok (c₁, node))
    (h : schedulerRegisterProcess s.kernel entryPoint priority rss flags = .ok (k, .ok)) :
    (s.registered k .ok).Agree ↔
      s.SparesRegistered (.registerProcess entryPoint priority rss flags) := by
  have hserved := (sysAllocPages_served zoneOfInt_one hreq.second).1
  have hnode := hreq.taskArray_new hfirst
  have hvictim : (k.oom.tasks (k.oom.taskArray s.oom.activeTaskCount)).state = .dead ↔
      requestVictim c zoneNormal 1 = some node := by
    rw [hserved.taskArray, hnode, hserved.dead_iff, hreq.running]
    simp
  rcases registered_new_iff h with ⟨hsucc, hnew⟩
  rw [agree_of_count_succ hpos hsucc, hreq.old_iff hsettled hs hfirst h, hnew, Ne, hvictim]
  constructor
  · rintro ⟨hspare, hkeep⟩ _
    refine ⟨fun a ha => hspare a (.inr ha), fun c' hc' a ha => ?_⟩
    rw [hreq.request, Option.some.injEq] at hc'
    subst hc'
    refine ⟨hspare a (.inl ha), fun heq => absurd ?_ hkeep⟩
    rw [ha, heq, hnode]
  · intro hspare
    rcases hspare hroom with ⟨hspare₁, hspare₂⟩
    refine ⟨fun a ha => ?_, fun hkilled => ?_⟩
    · rcases ha with ha | ha
      · exact (hspare₂ c hreq.request a ha).1
      · exact hspare₁ a ha
    · -- a killed new record would mean that there is no stack, and so no new process
      have hzero := (hspare₂ c hreq.request node hkilled).2 hnode.symm _ _ hreq.second
      exact hreq.code_iff.1 rfl hzero

/-- Without a stack there is no new process to be killed. -/
theorem agree_iff_of_failed (hreq : SecondRequest s.kernel k code rss flags c₁ node c stack)
    (hsettled : s.Settled) (hs : s.Agree) (hroom : s.sched.activeProcessCount < sysMaxTasks)
    (hfirst : sysAllocPages s.oom 1 1 = .ok (c₁, node)) (hcode : code ≠ .ok)
    (h : schedulerRegisterProcess s.kernel entryPoint priority rss flags = .ok (k, code)) :
    (s.registered k code).Agree ↔
      s.SparesRegistered (.registerProcess entryPoint priority rss flags) := by
  have hzero : stack = 0 := by
    by_contra hne
    exact hcode (hreq.code_iff.2 hne)
  rw [agree_of_count_eq (registered_count_of_failed h hcode), hreq.old_iff hsettled hs hfirst h]
  constructor
  · intro hspare _
    refine ⟨fun a ha => hspare a (.inr ha), fun c' hc' a ha => ?_⟩
    rw [hreq.request, Option.some.injEq] at hc'
    subst hc'
    refine ⟨hspare a (.inl ha), fun _ c'' page hpage => ?_⟩
    rw [hreq.second] at hpage
    cases hpage
    exact hzero
  · rintro hspare a (ha | ha)
    · exact ((hspare hroom).2 c hreq.request a ha).1
    · exact (hspare hroom).1 a ha

end SecondRequest

theorem register_agree_iff {s : Roster} {k : Kernel} {code : ErrCode}
    {entryPoint priority rss flags : Nat} (hsettled : s.Settled) (hs : s.Agree)
    (hpos : 1 ≤ s.sched.activeProcessCount)
    (h : schedulerRegisterProcess s.kernel entryPoint priority rss flags = .ok (k, code)) :
    (s.registered k code).Agree ↔
      s.SparesRegistered (.registerProcess entryPoint priority rss flags) := by
  by_cases hroom : s.sched.activeProcessCount < sysMaxTasks
  case neg =>
    exact iff_of_true (registered_full_agree hsettled hs hroom h) fun hlt => absurd hlt hroom
  case pos =>
    rcases schedulerRegisterProcess_requests hroom h with ⟨c₁, node, hfirst, hrest⟩
    rcases hrest with ⟨hcode, hoom, hnone⟩ | ⟨c, stack, hreq⟩
    · exact registered_first_agree_iff hsettled hs hroom hfirst hcode hoom hnone h
    · by_cases hcode : code = .ok
      · subst hcode
        exact hreq.agree_iff_of_ok hsettled hs hpos hroom hfirst h
      · exact hreq.agree_iff_of_failed hsettled hs hroom hfirst hcode h

/-! ## Whole runs -/

theorem registered_settled {s : Roster} {k : Kernel} {code : ErrCode}
    {entryPoint priority rss flags : Nat} (hs : s.Settled)
    (h : schedulerRegisterProcess s.kernel entryPoint priority rss flags = .ok (k, code)) :
    (s.registered k code).Settled := by
  have hbelow : ∀ j, j < s.oom.activeTaskCount → k.oom.taskArray j = s.oom.taskArray j :=
    (schedulerRegisterProcess_taskArray h).1
  have hcount : k.oom.activeTaskCount = s.oom.activeTaskCount + 1 ∨
      code ≠ .ok ∧ k.oom.activeTaskCount = s.oom.activeTaskCount :=
    (schedulerRegisterProcess_taskArray h).2
  have hle : s.oom.activeTaskCount ≤ k.oom.activeTaskCount := by omega
  refine ⟨fun j hj => ?_, fun i hi => ?_⟩
  · change Function.update k.oom.taskArray s.oom.activeTaskCount (home s.oom.activeTaskCount) j =
      home j
    -- the newest record is moved to its home, the others are there already
    by_cases hlast : j = s.oom.activeTaskCount
    · subst hlast
      exact Function.update_self _ _ _
    · have hj' : j < k.oom.activeTaskCount := hj
      have hold : j < s.oom.activeTaskCount := by
        rcases hcount with hsucc | ⟨_, hsame⟩ <;> omega
      rw [Function.update_of_ne hlast, hbelow j hold]
      exact hs.home j hold
  · change (s.registered k code).taskOf i < k.oom.activeTaskCount
    unfold registered
    dsimp only
    split
    case isTrue hok =>
      subst hok
      have hsucc : k.oom.activeTaskCount = s.oom.activeTaskCount + 1 := by simpa using hcount
      by_cases hnew : i = s.sched.activeProcessCount
      · subst hnew
        rw [Function.update_self]
        omega
      · rw [Function.update_of_ne hnew]
        have hlt : i < s.sched.activeProcessCount + 1 := by
          have hcounts := (registered_new_iff h).1
          exact lt_of_lt_of_eq hi.2 hcounts
        exact Nat.lt_of_lt_of_le (hs.taskOf i ⟨hi.1, by omega⟩) hle
    case isFalse hfail =>
      have hsame := registered_count_of_failed h hfail
      exact Nat.lt_of_lt_of_le (hs.taskOf i ⟨hi.1, lt_of_lt_of_eq hi.2 hsame⟩) hle

/-- The invariant: every record is in its place, and the master process is there. -/
structure Held (s : Roster) : Prop where
  settled : s.Settled
  master : 1 ≤ s.sched.activeProcessCount

theorem held_boot (k : Kernel) (dmaPages normalPages highmemPages : Nat) :
    (boot k dmaPages normalPages highmemPages).Held := by
  refine ⟨⟨fun j hj => absurd hj (Nat.not_lt_zero j), ?_⟩, Nat.le_refl 1⟩
  rintro i ⟨hone, hlt⟩
  exact absurd hlt (Nat.not_lt.2 hone)

theorem agree_boot (k : Kernel) (dmaPages normalPages highmemPages : Nat) :
    (boot k dmaPages normalPages highmemPages).Agree := by
  rintro i ⟨hone, hlt⟩
  exact absurd hlt (Nat.not_lt.2 hone)

/-- A change of the process table alone. -/
theorem Held.withSched {s : Roster} {sched : SchedulerState} (hs : s.Held)
    (hcount : sched.activeProcessCount = s.sched.activeProcessCount) :
    (s.withSched sched).Held := by
  refine ⟨⟨hs.settled.home, fun i hi => hs.settled.taskOf i ⟨hi.1, ?_⟩⟩, ?_⟩
  · exact lt_of_lt_of_eq hi.2 hcount
  · exact le_of_le_of_eq hs.master hcount.symm

theorem registered_count_le {s : Roster} {k : Kernel} {code : ErrCode}
    {entryPoint priority rss flags : Nat}
    (h : schedulerRegisterProcess s.kernel entryPoint priority rss flags = .ok (k, code)) :
    s.sched.activeProcessCount ≤ k.sched.activeProcessCount := by
  rcases schedulerRegisterProcess_cases h with ⟨_, rfl⟩ | ⟨_, hk⟩ | ⟨_, _, stackRaw, _, hk⟩
  · exact Nat.le_refl _
  · rw [hk]
    exact Nat.le_refl _
  · rw [hk]
    exact Nat.le_succ _

theorem Held.step {s t : Roster} {a : RosterAction} (hs : s.Held) (h : s.step a = some t) :
    t.Held := by
  cases a with
  | registerProcess entryPoint priority initialRss allocationFlags =>
      simp only [Roster.step] at h
      split at h
      · cases h
      case h_2 k code hregister =>
        cases h
        -- the number of processes never decreases
        have hle := registered_count_le hregister
        exact ⟨registered_settled hs.settled hregister, Nat.le_trans hs.master hle⟩
  | terminateProcess targetPid =>
      cases h
      have hview := view_schedulerTerminateProcess s.sched targetPid
      exact hs.withSched ((congrArg Lifecycle.count hview).trans
        (Lifecycle.apply_count (terminateEvent_mortal _ _)))
  | sendSignal targetPid signal =>
      cases h
      have hview := view_schedulerSendSignal s.sched targetPid signal
      exact hs.withSched ((congrArg Lifecycle.count hview).trans
        (Lifecycle.apply_count (signalEvent_mortal _ _ _)))
  | triggerOomKiller =>
      simp only [Roster.step] at h
      split at h
      · cases h
      case h_2 oom hkiller =>
        cases h
        rcases sysTriggerOomKiller_cases hkiller with ⟨victim, _, _, rfl⟩
        exact ⟨⟨hs.settled.home, hs.settled.taskOf⟩, hs.master⟩

/-- One call keeps the agreement exactly when it kills no registered process. -/
theorem step_agree_iff {s t : Roster} {a : RosterAction} (hheld : s.Held) (hs : s.Agree)
    (h : s.step a = some t) : t.Agree ↔ s.SparesRegistered a := by
  cases a with
  | registerProcess entryPoint priority initialRss allocationFlags =>
      simp only [Roster.step] at h
      split at h
      · cases h
      case h_2 k code hregister =>
        cases h
        -- the controller kills in two of the calls, the scheduler in the other two
        exact register_agree_iff hheld.settled hs hheld.master hregister
  | terminateProcess targetPid =>
      cases h
      exact agree_withSched_iff hs (terminateEvent_enabled _ _) (terminateEvent_mortal _ _)
        (view_schedulerTerminateProcess _ _)
  | sendSignal targetPid signal =>
      cases h
      exact agree_withSched_iff hs (signalEvent_enabled _ _ _) (signalEvent_mortal _ _ _)
        (view_schedulerSendSignal _ _ _)
  | triggerOomKiller =>
      simp only [Roster.step] at h
      split at h
      · cases h
      case h_2 oom hkiller =>
        cases h
        exact oomKiller_agree_iff hs hkiller

/-- The scheduler and the controller agree throughout a run exactly when no call of it kills a
registered process. -/
theorem agree_run_iff (k : Kernel) (dmaPages normalPages highmemPages : Nat)
    (as : List RosterAction) :
    AllStates step Agree (boot k dmaPages normalPages highmemPages) as ↔
      AllSteps step SparesRegistered (boot k dmaPages normalPages highmemPages) as :=
  allStates_iff_allSteps (fun _ _ _ hs h => Held.step hs h)
    (fun _ _ _ hheld hs h => step_agree_iff hheld hs h) (held_boot k _ _ _) (agree_boot k _ _ _)

/-- A process that is terminated stays alive for the controller. -/
theorem agree_run_false :
    ¬ ∀ (k : Kernel) (dmaPages normalPages highmemPages : Nat) (as : List RosterAction),
      AllStates step Agree (boot k dmaPages normalPages highmemPages) as := by
  intro h
  have hrun : (exec step (boot (coldKernel 0) 4096 4096 4096)
      [.registerProcess 0x100000 schedDefaultPriority 128 0,
        .registerProcess 0x100000 schedDefaultPriority 128 0, .terminateProcess 101]).any
        (fun t => decide (t.sched.activeProcessCount = 3) &&
          decide ((t.sched.processTable 2).executionState = .dead) &&
          decide ((t.oom.tasks (t.recordOf 2)).state = .running)) = true := by
    decide
  rcases exists_of_exec_any hrun with ⟨t, hexec, ht⟩
  simp only [Bool.and_eq_true, decide_eq_true_eq] at ht
  rcases ht with ⟨⟨hcount, hentry⟩, hrecord⟩
  have hagree := (h _ _ _ _ _).last hexec 2 ⟨by decide, lt_of_lt_of_eq (by decide) hcount.symm⟩
  have hdead : (t.oom.tasks (t.recordOf 2)).state = .dead := hagree.1 hentry
  rw [hrecord] at hdead
  cases hdead

end Roster

end Sched
end WhitexKernel
