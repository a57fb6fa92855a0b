import WhitexKernel.Sched.Registration
import WhitexKernel.Sched.Resources

/-!
# Supply — the pages and the PIDs of the registrations

`sys_alloc_pages` does not return `NULL` for want of memory, it panics.  It returns `NULL` only when
so many pages have been reclaimed that the address wraps around to 0, and with the zones as
`sys_oom_init` leaves them the process table is full before that: either `ZONE_NORMAL` has pages for
all registrations, or its watermarks are so low that no request reclaims much.  So a registration that
returns with room in the table has succeeded, and the seed never runs ahead of the table.

* `Stocked` — the zone after a number of requests;
* `Paced` — entry `i` of the table has the PID `100 + (i - 1)`;
* `paced_run` — it has in every state of every run.
-/

namespace WhitexKernel
namespace Sched

open Lib Machine Oom SchedulerState

/-! ## What a request reclaims -/

/-- The watermarks of `ZONE_NORMAL` and the number of registered tasks are the same, and at most `n`
more pages have been reclaimed. -/
structure Reclaims (n : Nat) (c c' : SysOomCtrl) : Prop where
  tasks : c'.activeTaskCount = c.activeTaskCount
  wmMin : (c'.zones zoneNormal).wmMin = (c.zones zoneNormal).wmMin
  wmHigh : (c'.zones zoneNormal).wmHigh = (c.zones zoneNormal).wmHigh
  counter : c'.totalReclaimed ≤ c.totalReclaimed + n

namespace Reclaims

variable {m n : Nat} {c c' c'' : SysOomCtrl}

theorem trans (h : Reclaims m c c') (h' : Reclaims n c' c'') : Reclaims (m + n) c c'' := by
  refine ⟨h'.tasks.trans h.tasks, h'.wmMin.trans h.wmMin, h'.wmHigh.trans h.wmHigh, ?_⟩
  have hfirst := h.counter
  have hsecond := h'.counter
  omega

theorem mono (h : Reclaims m c c') (hle : m ≤ n) : Reclaims n c c' :=
  ⟨h.tasks, h.wmMin, h.wmHigh, Nat.le_trans h.counter (Nat.add_le_add_left hle _)⟩

end Reclaims

theorem wrap32_le (n : Nat) : wrap32 n ≤ n := Nat.mod_le _ _

theorem slabReclaim_le_hundred (z : SysMemZone) : slabReclaim z ≤ 100 := by
  unfold slabReclaim
  simp only
  split
  · split <;> omega
  · omega

theorem sysShrinkSlabCaches_reclaims (c : SysOomCtrl) :
    Reclaims 300 c (sysShrinkSlabCaches c).1 := by
  refine ⟨rfl, rfl, rfl, ?_⟩
  have hdma := slabReclaim_le_hundred (c.zones zoneDma)
  have hnormal := slabReclaim_le_hundred (c.zones zoneNormal)
  have hhighmem := slabReclaim_le_hundred (c.zones zoneHighmem)
  unfold sysShrinkSlabCaches SysOomCtrl.addReclaimed
  refine Nat.le_trans (wrap32_le _) (Nat.add_le_add_left (Nat.le_trans (wrap32_le _) ?_) _)
  omega

/-- The page cache gives back at most half of the high watermark. -/
theorem sysShrinkPageCache_reclaims {c : SysOomCtrl} {high : Nat}
    (hhigh : (c.zones zoneNormal).wmHigh ≤ high) :
    Reclaims (high / 2) c (sysShrinkPageCache c).1 := by
  unfold sysShrinkPageCache
  simp only
  split
  · refine ⟨rfl, ?_, ?_, ?_⟩
    · simp [SysOomCtrl.addReclaimed, SysMemZone.addFree]
    · simp [SysOomCtrl.addReclaimed, SysMemZone.addFree]
    · refine Nat.le_trans (wrap32_le _) (Nat.add_le_add_left ?_ _)
      omega
  · exact ⟨rfl, rfl, rfl, Nat.le_trans (wrap32_le _) (Nat.add_le_add_left (Nat.zero_le _) _)⟩

theorem sysTriggerOomKiller_reclaims {c c' : SysOomCtrl} (h : sysTriggerOomKiller c = .ok c') :
    Reclaims 0 c c' := by
  unfold sysTriggerOomKiller at h
  split at h
  · cases h
  · split at h
    · cases h
    · split at h
      · cases h
      · cases h
        refine ⟨rfl, ?_, ?_, Nat.le_refl _⟩
        · simp [sysSendSigkill, SysMemZone.addFree]
        · simp [sysSendSigkill, SysMemZone.addFree]

/-- A request reclaims no more than its three stages together. -/
theorem retryAllocation_reclaims {c c' : SysOomCtrl} {zone : ZoneIdx} {count high : Nat}
    (hhigh : (c.zones zoneNormal).wmHigh ≤ high)
    (h : retryAllocation zone count retryStages c = .ok c') : Reclaims (300 + high / 2) c c' := by
  have hslab := sysShrinkSlabCaches_reclaims c
  have hcache : Reclaims (high / 2) (sysShrinkSlabCaches c).1
      (sysShrinkPageCache (sysShrinkSlabCaches c).1).1 :=
    sysShrinkPageCache_reclaims (hslab.wmHigh ▸ hhigh)
  simp only [retryStages, retryAllocation, ReclaimStage.run] at h
  split at h
  · cases h
    exact ⟨rfl, rfl, rfl, Nat.le_add_right _ _⟩
  · split at h
    · cases h
      exact hslab.mono (Nat.le_add_right _ _)
    · split at h
      · cases h
        exact hslab.trans hcache
      · split at h
        · cases h
        case h_2 killed hkill =>
          split at h
          · cases h
            exact (hslab.trans hcache).trans (sysTriggerOomKiller_reclaims hkill)
          · cases h

/-! ## The zone -/

/-- The controller after `taken` requests for a page of `ZONE_NORMAL`, which has `pages` pages. -/
structure Stocked (pages taken : Nat) (c : SysOomCtrl) : Prop where
  wmMin : (c.zones zoneNormal).wmMin = pages / 128
  wmHigh : (c.zones zoneNormal).wmHigh = pages / 32
  ample : 4096 ≤ pages →
    (c.zones zoneNormal).freePages = pages - taken ∧ c.totalReclaimed = 0
  reclaimed : c.totalReclaimed ≤ 364 * taken

namespace Stocked

variable {pages taken : Nat} {c c' : SysOomCtrl}

theorem sysOomInit (dma pages highmem : Nat) (c : SysOomCtrl) :
    Stocked pages 0 (sysOomInit dma pages highmem c) :=
  { wmMin := rfl
    wmHigh := rfl
    ample := fun _ => ⟨rfl, rfl⟩
    reclaimed := Nat.le_refl 0 }

theorem admits (hc : Stocked pages taken c) (hpages : pages < 2 ^ 32) (htaken : taken < 2046)
    (hample : 4096 ≤ pages) : (c.zones zoneNormal).admits 1 = true := by
  have hfree := (hc.ample hample).1
  have hsum : 1 + pages / 128 < 2 ^ 32 := by omega
  unfold SysMemZone.admits
  rw [hc.wmMin, hfree, wrap32_of_lt hsum, decide_eq_true_eq]
  omega

/-- The next request is served, with a page that is not at address 0. -/
theorem alloc (hc : Stocked pages taken c) (hpages : pages < 2 ^ 32) (htaken : taken < 2046)
    {p : Nat} (h : sysAllocPages c 1 1 = .ok (c', p)) :
    Stocked pages (taken + 1) c' ∧ c'.activeTaskCount = c.activeTaskCount ∧ p ≠ 0 := by
  -- the counter stays far below the address limit, so the address does not wrap around
  have hsome : ∀ {r : Nat}, r ≤ 364 * (taken + 1) → pageAddress r ≠ 0 := by
    intro r hr
    have hlimit : r < addressLimit := by
      unfold addressLimit
      omega
    rw [pageAddress_of_lt hlimit]
    omega
  have hcounter := hc.reclaimed
  rcases Nat.lt_or_ge pages 4096 with hscarce | hample
  -- a small zone reclaims little at a time
  · have hhigh : (c.zones zoneNormal).wmHigh ≤ 127 := by
      rw [hc.wmHigh]
      omega
    unfold sysAllocPages at h
    have hzone : zoneOfInt 1 = some zoneNormal := by decide
    rw [hzone] at h
    simp only at h
    split at h
    · cases h
    case h_2 admitted hadmitted =>
      cases h
      have hreclaims := retryAllocation_reclaims hhigh hadmitted
      have htotal := hreclaims.counter
      have hbound : admitted.totalReclaimed ≤ 364 * (taken + 1) := by omega
      refine ⟨⟨?_, ?_, fun hample => absurd hample (Nat.not_le.2 hscarce), hbound⟩,
        hreclaims.tasks, hsome hbound⟩
      · simp only [SysMemZone.subFree, Function.update_self]
        exact hreclaims.wmMin.trans hc.wmMin
      · simp only [SysMemZone.subFree, Function.update_self]
        exact hreclaims.wmHigh.trans hc.wmHigh
  -- a large one admits all of them at once
  · rw [sysAllocPages_of_admits (hc.admits hpages htaken hample)] at h
    cases h
    have hbound : c.totalReclaimed ≤ 364 * (taken + 1) := by omega
    refine ⟨⟨?_, ?_, fun _ => ⟨?_, (hc.ample hample).2⟩, hbound⟩, rfl, hsome hbound⟩
    · simp only [SysMemZone.subFree, Function.update_self]
      exact hc.wmMin
    · simp only [SysMemZone.subFree, Function.update_self]
      exact hc.wmHigh
    · simp only [SysMemZone.subFree, Function.update_self]
      rw [(hc.ample hample).1]
      unfold sub32
      omega

/-- Filling in a record and registering it leaves the zones alone. -/
theorem sysRegisterTask (hc : Stocked pages taken c) {tasks : Nat → SysTask} {node : Nat}
    (h : sysRegisterTask { c with tasks := tasks } node = .ok c') :
    Stocked pages taken c' ∧ c'.activeTaskCount = c.activeTaskCount + 1 := by
  unfold Oom.sysRegisterTask at h
  split at h
  · cases h
    exact ⟨⟨hc.wmMin, hc.wmHigh, hc.ample, hc.reclaimed⟩, rfl⟩
  · cases h

end Stocked

/-! ## The table and the seed -/

/-- The PIDs follow the entries: the master and the first process registered have 100, the next one
101, and so on; and every process but the master has a registered task, and has taken two pages. -/
structure Paced (pages : Nat) (k : Kernel) : Prop where
  used : 1 ≤ k.sched.activeProcessCount
  room : k.sched.activeProcessCount ≤ sysMaxTasks
  seed : k.sched.globalProcessIdentifierSeed = 99 + k.sched.activeProcessCount
  pid : ∀ i, i < k.sched.activeProcessCount → (k.sched.processTable i).taskId = 100 + (i - 1)
  tasks : k.oom.activeTaskCount + 1 = k.sched.activeProcessCount
  stock : Stocked pages (2 * (k.sched.activeProcessCount - 1)) k.oom

namespace Paced

variable {pages : Nat} {k k' : Kernel}

/-- With room in the table, neither request of a registration yields `NULL`. -/
theorem not_null (hk : Paced pages k) (hpages : pages < 2 ^ 32)
    (hroom : k.sched.activeProcessCount < sysMaxTasks) (rss flags : Nat) :
    ¬ (NullNode schedulerAllocateMemory k ∨ NullStack schedulerAllocateMemory k rss flags) := by
  have htaken : 2 * (k.sched.activeProcessCount - 1) < 2045 := by
    have hmax : sysMaxTasks = 1024 := rfl
    omega
  rintro (⟨oom, hnode⟩ | ⟨oom, node, oom', oom'', hnode, _, hregister, hstack⟩)
  · exact (hk.stock.alloc hpages (by omega) hnode).2.2 rfl
  · have hone := (hk.stock.alloc hpages (by omega) hnode).1
    exact ((hone.sysRegisterTask hregister).1.alloc hpages (by omega) hstack).2.2 rfl

theorem register (hk : Paced pages k) (hpages : pages < 2 ^ 32)
    {entryPoint priority rss flags : Nat} {code : ErrCode}
    (h : schedulerRegisterProcess k entryPoint priority rss flags = .ok (k', code)) :
    Paced pages k' := by
  rw [← registerWith_schedulerAllocateMemory] at h
  rcases registerWith_cases h with ⟨_, rfl⟩ | ⟨hroom, hnull⟩ | rfl
  · exact hk
  · exact absurd hnull (hk.not_null hpages hroom rss flags)
  · rw [registerWith_schedulerAllocateMemory] at h
    rcases schedulerRegisterProcess_memory h with
      ⟨c₁, node, task, c₂, stackRaw, hnode, _, hregister, hstack, _, _⟩
    rcases schedulerRegisterProcess_cases h with ⟨hcode, _⟩ | ⟨hcode, _⟩ | ⟨_, hroom, raw, _, hsched⟩
    · cases hcode
    · cases hcode
    · have hmax : sysMaxTasks = 1024 := rfl
      have hused := hk.used
      have hold := hk.tasks
      rcases hk.stock.alloc hpages (by omega) hnode with ⟨hone, htasks, _⟩
      rcases hone.sysRegisterTask hregister with ⟨hnoted, hnext⟩
      rcases hnoted.alloc hpages (by omega) hstack with ⟨htwo, hkept, _⟩
      have hcount : k'.sched.activeProcessCount = k.sched.activeProcessCount + 1 := by
        rw [hsched]
        rfl
      refine ⟨by omega, by omega, ?_, fun i hi => ?_, by omega, ?_⟩
      · have hseed : k'.sched.globalProcessIdentifierSeed =
            wrap32 (k.sched.globalProcessIdentifierSeed + 1) := by
          rw [hsched]
          rfl
        rw [hseed, hk.seed, hcount, wrap32_of_lt (by omega)]
        omega
      · rw [hsched]
        simp only [SchedulerState.addProcess, modifyPcb_processTable]
        split
        case isTrue heq =>
          have hnew : k.drawPid.1.sched.activeProcessCount = k.sched.activeProcessCount := rfl
          rw [heq, hnew]
          simp only [newPcb, hk.seed]
          omega
        case isFalse hne =>
          have hlt : i < k.sched.activeProcessCount := by
            have hne : i ≠ k.sched.activeProcessCount := hne
            omega
          exact hk.pid i hlt
      · rw [hcount]
        have hpair : 2 * (k.sched.activeProcessCount - 1) + 1 + 1 =
            2 * (k.sched.activeProcessCount + 1 - 1) := by omega
        rw [← hpair]
        exact htwo

end Paced

/-! ## Runs -/

/-- The same number of processes, and the same PID is next. -/
structure SameSeed (s t : SchedulerState) : Prop where
  count : t.activeProcessCount = s.activeProcessCount
  seed : t.globalProcessIdentifierSeed = s.globalProcessIdentifierSeed

namespace SameSeed

variable {s t u : SchedulerState}

theorem refl (s : SchedulerState) : SameSeed s s := ⟨rfl, rfl⟩

theorem trans (hst : SameSeed s t) (htu : SameSeed t u) : SameSeed s u :=
  ⟨htu.count.trans hst.count, htu.seed.trans hst.seed⟩

theorem yield (s : SchedulerState) : SameSeed s (schedulerYield s) :=
  ⟨(schedulerYield_sameCore s).count, (schedulerYield_sameCore s).seed⟩

theorem modifyPcb (s : SchedulerState) (i : Nat) (f : ProcessControlBlock → ProcessControlBlock) :
    SameSeed s (s.modifyPcb i f) := ⟨rfl, rfl⟩

theorem yieldIfCurrent (s : SchedulerState) (i : Nat) : SameSeed s (yieldIfCurrent s i) := by
  unfold Sched.yieldIfCurrent
  split
  · exact yield s
  · exact refl s

theorem blockCurrent (s : SchedulerState) (pid : Nat) : SameSeed s (blockCurrent s pid) :=
  (modifyPcb s _ _).trans (yield _)

theorem sendSignal (s : SchedulerState) (pid signal : Nat) :
    SameSeed s (schedulerSendSignal s pid signal).1 := by
  unfold schedulerSendSignal deliverSignal
  split
  · exact refl s
  · split
    · simp only
      split
      · exact (modifyPcb s _ _).trans ((modifyPcb _ _ _).trans (yieldIfCurrent _ _))
      · split
        · exact (modifyPcb s _ _).trans ((modifyPcb _ _ _).trans (yieldIfCurrent _ _))
        · split
          · exact (modifyPcb s _ _).trans (modifyPcb _ _ _)
          · exact modifyPcb s _ _
    · exact refl s

theorem terminateProcess (s : SchedulerState) (pid : Nat) :
    SameSeed s (schedulerTerminateProcess s pid).1 := by
  unfold schedulerTerminateProcess
  split
  · exact refl s
  · split
    · exact refl s
    · exact ⟨rfl, rfl⟩

theorem ipcSend (s : SchedulerState) (dest : Nat) (message : Nat → UInt8) (length type : Nat) :
    SameSeed s (schedulerIpcSend s dest message length type).1 := by
  unfold schedulerIpcSend
  split
  · exact refl s
  · split
    · exact refl s
    · split
      · exact refl s
      · exact modifyPcb s _ _

theorem ipcReceive (s : SchedulerState) (maxLength : Nat) :
    SameSeed s (schedulerIpcReceive s maxLength).1 := by
  unfold schedulerIpcReceive
  simp only
  split
  · exact blockCurrent s 0
  · exact modifyPcb s _ _

end SameSeed

/-- A turn that is no registration draws no PID. -/
theorem step_sameSeed {s t : System} {a : Action} (h : s.step a = some t) :
    (∃ entryPoint priority rss flags, a = .call (.registerProcess entryPoint priority rss flags)) ∨
      SameSeed s.sched t.sched := by
  cases System.step_turn h with
  | receiveAgain maxLength =>
      rw [System.receiveRound_sched]
      exact .inr (.ipcReceive s.sched maxLength)
  | waitReturns pid target => exact .inr (.refl _)
  | call c _ hcall =>
      cases c with
      | registerProcess entryPoint priority rss flags =>
          exact .inl ⟨entryPoint, priority, rss, flags, rfl⟩
      | terminateProcess pid =>
          cases hcall
          exact .inr (.terminateProcess s.sched pid)
      | terminateCurrent =>
          cases hcall
          exact .inr ((SameSeed.terminateProcess s.sched _).trans (.yield _))
      | sendSignal pid signal =>
          cases hcall
          exact .inr (.sendSignal s.sched pid signal)
      | waitPid pid =>
          cases hcall
          unfold System.wait schedulerWaitPid
          cases s.sched.findLive pid with
          | none => exact .inr (.refl _)
          | some i => exact .inr (.blockCurrent s.sched pid)
      | ipcSend dest message length type =>
          cases hcall
          rw [System.send_sched]
          exact .inr (.ipcSend s.sched dest message length type)
      | ipcReceive maxLength =>
          cases hcall
          rw [System.receiveRound_sched]
          exact .inr (.ipcReceive s.sched maxLength)
      | sleep ticks =>
          cases hcall
          exact .inr ((SameSeed.modifyPcb s.sched _ _).trans (.yield _))
      | yield =>
          cases hcall
          exact .inr (.yield s.sched)

namespace Paced

variable {pages : Nat} {s t : System} {a : Action}

theorem registerTurn (hs : Paced pages s.kernel) (hpages : pages < 2 ^ 32)
    {entryPoint priority rss flags : Nat}
    (h : s.step (.call (.registerProcess entryPoint priority rss flags)) = some t) :
    Paced pages t.kernel := by
  cases System.step_turn h with
  | call c _ hcall =>
      simp only [System.runCall, System.register] at hcall
      split at hcall
      · cases hcall
      case h_2 k hreg =>
        cases hcall
        exact hs.register hpages hreg
      case h_3 k code _ hreg =>
        cases hcall
        exact hs.register hpages hreg

theorem step (hs : Paced pages s.kernel) (hpages : pages < 2 ^ 32) (h : s.step a = some t) :
    Paced pages t.kernel := by
  rcases step_oom h with ⟨_, _, _, _, rfl⟩ | hoom
  · exact hs.registerTurn hpages h
  · rcases step_sameSeed h with ⟨_, _, _, _, rfl⟩ | hseed
    · exact hs.registerTurn hpages h
    · refine ⟨?_, ?_, ?_, fun i hi => ?_, ?_, ?_⟩
      · rw [hseed.count]
        exact hs.used
      · rw [hseed.count]
        exact hs.room
      · rw [hseed.seed, hseed.count]
        exact hs.seed
      · rw [hseed.count] at hi
        exact (step_taskId h hi).trans (hs.pid i hi)
      · rw [hseed.count, hoom]
        exact hs.tasks
      · rw [hseed.count, hoom]
        exact hs.stock

end Paced

/-- The OOM controller as `sys_oom_init` leaves it, for any number of pages in each zone.  Without a
call of `sys_oom_init` it is the one of three empty zones. -/
def Kernel.OomInitialised (k : Kernel) (pages : Nat) : Prop :=
  pages < 2 ^ 32 ∧ ∃ dmaPages highmemPages c, k.oom = sysOomInit dmaPages pages highmemPages c

theorem paced_boot {k : Kernel} {pages : Nat} (hk : k.OomInitialised pages) :
    Paced pages (System.boot k).kernel := by
  rcases hk with ⟨_, dma, highmem, c, hoom⟩
  have hmax : 1 ≤ sysMaxTasks := by decide
  refine ⟨Nat.le_refl 1, hmax, rfl, fun i hi => ?_, ?_, ?_⟩
  · have hzero : i = 0 := Nat.lt_one_iff.1 hi
    rw [hzero]
    rfl
  · have hstart : (System.boot k).kernel.oom = k.oom := rfl
    rw [hstart, hoom]
    rfl
  · have hstart : (System.boot k).kernel.oom = k.oom := rfl
    rw [hstart, hoom]
    exact .sysOomInit dma pages highmem c

/-- In every run on an initialised machine the PIDs follow the entries. -/
theorem paced_run {k : Kernel} {pages : Nat} (hk : k.OomInitialised pages) (as : List Action) :
    AllStates System.step (fun t => Paced pages t.kernel) (System.boot k) as :=
  allStates_of_invariant (fun s _ _ (hs : Paced pages s.kernel) h => hs.step hk.1 h)
    (paced_boot hk) as

/-! ## Registrations in a row -/

/-- A registration of a process with the default priority. -/
def registration : Action := .call (.registerProcess 0x100000 schedDefaultPriority 128 0)

theorem coldKernel_oomInitialised {pages : Nat} (hpages : pages < 2 ^ 32) :
    (coldKernel pages).OomInitialised pages :=
  ⟨hpages, pages, pages, SysOomCtrl.zero, rfl⟩

/-- With pages for all registrations, and room in the table, the next one succeeds. -/
theorem Paced.registers {pages : Nat} (hpages : pages < 2 ^ 32) (hample : 4096 ≤ pages) {s : System}
    (hs : Paced pages s.kernel) (hroom : s.sched.activeProcessCount < sysMaxTasks)
    (hidle : s.suspended s.running = .idle) :
    ∃ t stackRaw, s.step registration = some t ∧
      t.sched = s.kernel.drawPid.1.sched.addProcess 0x100000
        s.sched.globalProcessIdentifierSeed schedDefaultPriority 128 0 stackRaw ∧
      t.suspended = (s.suspend s.sched.activeProcessCount .idle).suspended := by
  have hmax : sysMaxTasks = 1024 := rfl
  have hold : s.kernel.oom.activeTaskCount + 1 = s.sched.activeProcessCount := hs.tasks
  have htaken : 2 * (s.kernel.sched.activeProcessCount - 1) < 2045 := by
    have hbelow : s.kernel.sched.activeProcessCount < sysMaxTasks := hroom
    omega
  -- the page of the node, and then that of the stack
  have hnode := sysAllocPages_of_admits (hs.stock.admits hpages (by omega) hample)
  rcases hs.stock.alloc hpages (by omega) hnode with ⟨hone, htasks, hnull⟩
  have hsecond := hone.admits hpages (by omega) hample
  have hstack : pageAddress (serve s.kernel.oom zoneNormal 1).1.totalReclaimed ≠ 0 := by
    have hzero : (serve s.kernel.oom zoneNormal 1).1.totalReclaimed = 0 := (hone.ample hample).2
    rw [hzero]
    decide
  rcases register_served hroom hnode hnull (by omega) hsecond hstack 0x100000
    schedDefaultPriority 128 0 with ⟨k, hregister, hsched⟩
  refine ⟨{ s.suspend s.sched.activeProcessCount .idle with kernel := k }, _, ?_, hsched, rfl⟩
  simp only [System.step, registration, hidle, System.runCall, System.register, hregister]

/-- A machine with pages enough takes any number of registrations that the table has room for. -/
theorem exists_registered {n : Nat} (hn : n < sysMaxTasks) :
    ∃ s, exec System.step (System.boot (coldKernel 4096)) (List.replicate n registration) = some s ∧
      Paced 4096 s.kernel ∧ s.sched.activeProcessCount = n + 1 ∧
        s.suspended s.running = .idle := by
  induction n with
  | zero =>
      exact ⟨_, rfl, paced_boot (coldKernel_oomInitialised (by decide)), rfl, rfl⟩
  | succ n ih =>
      rcases ih (Nat.lt_of_succ_lt hn) with ⟨s, hexec, hs, hcount, hidle⟩
      have hroom : s.sched.activeProcessCount < sysMaxTasks := by omega
      rcases hs.registers (by decide) (by decide) hroom hidle with
        ⟨t, stackRaw, hstep, hsched, hsuspended⟩
      refine ⟨t, ?_, hs.step (by decide) hstep, ?_, ?_⟩
      · rw [List.replicate_succ', exec_append, hexec, Option.bind_some, exec_cons, hstep]
        rfl
      · rw [hsched]
        exact congrArg (· + 1) hcount
      · have hrunning : t.running = s.running := congrArg (·.runningProcessIndex) hsched
        rw [hrunning, hsuspended]
        simp only [System.suspend, Function.update_apply]
        split
        · rfl
        · exact hidle

end Sched
end WhitexKernel
