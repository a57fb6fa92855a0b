import WhitexKernel.Oom.Model

/-!
# Victims — whom a page request kills

A request that reclaim does not satisfy invokes the OOM killer.  `requestVictim` is the task the
killer picks then; what a request does to the records of the tasks is told by it alone.
-/

namespace WhitexKernel
namespace Oom

open Machine

/-- Whoever is dead does not score. -/
theorem sysCalculateBadness_dead {task : SysTask} (h : task.state = .dead) (totalPages : Nat) :
    sysCalculateBadness task totalPages = .ok 0 := by
  unfold sysCalculateBadness
  split
  · rfl
  · simp [h]

/-- A chosen victim scores, and so is not dead. -/
theorem selectBadLoop_alive {c : SysOomCtrl} {is : List Nat} {acc r : Nat × Nat}
    (h : selectBadLoop c is acc = .ok r) : r = acc ∨ (c.tasks r.1).state ≠ .dead := by
  induction is generalizing acc with
  | nil =>
      cases h
      exact .inl rfl
  | cons i is ih =>
      unfold selectBadLoop at h
      dsimp only at h
      split at h
      · exact ih h
      · split at h
        · cases h
        case h_2 score hscore =>
          split at h
          case isTrue hmore =>
            rcases ih h with rfl | hdead
            -- a dead task scores zero, and zero is never the larger score
            · refine .inr fun hdead => ?_
              rw [sysCalculateBadness_dead hdead] at hscore
              cases hscore
              exact Nat.not_lt_zero _ hmore
            · exact .inr hdead
          case isFalse => exact ih h

theorem sysSelectBadProcess_alive {c : SysOomCtrl} {victim : Nat}
    (h : sysSelectBadProcess c = .ok victim) (hnull : victim ≠ 0) :
    (c.tasks victim).state ≠ .dead := by
  unfold sysSelectBadProcess at h
  cases hloop : selectBadLoop c (List.range c.activeTaskCount) (0, 0) with
  | error e =>
      rw [hloop] at h
      cases h
  | ok r =>
      rw [hloop] at h
      cases h
      rcases selectBadLoop_alive hloop with rfl | halive
      · exact absurd rfl hnull
      · exact halive

/-- A chosen victim is registered. -/
theorem selectBadLoop_registered {c : SysOomCtrl} {is : List Nat} {acc r : Nat × Nat}
    (h : selectBadLoop c is acc = .ok r) : r.1 = acc.1 ∨ ∃ i ∈ is, c.taskArray i = r.1 := by
  induction is generalizing acc with
  | nil =>
      cases h
      exact .inl rfl
  | cons i is ih =>
      -- either branch goes on with the old choice or with the task just looked at
      have hrest : ∀ {acc' : Nat × Nat}, selectBadLoop c is acc' = .ok r →
          acc'.1 = acc.1 ∨ acc'.1 = c.taskArray i →
          r.1 = acc.1 ∨ ∃ j ∈ i :: is, c.taskArray j = r.1 := by
        intro acc' hloop hacc
        rcases ih hloop with hr | ⟨j, hj, hr⟩
        · rcases hacc with hacc | hacc
          · exact .inl (hr.trans hacc)
          · exact .inr ⟨i, List.mem_cons_self, (hr.trans hacc).symm⟩
        · exact .inr ⟨j, List.mem_cons_of_mem i hj, hr⟩
      unfold selectBadLoop at h
      dsimp only at h
      split at h
      · exact hrest h (.inl rfl)
      · split at h
        · cases h
        · split at h
          · exact hrest h (.inr rfl)
          · exact hrest h (.inl rfl)

theorem sysSelectBadProcess_registered {c : SysOomCtrl} {victim : Nat}
    (h : sysSelectBadProcess c = .ok victim) (hnull : victim ≠ 0) :
    ∃ i, i < c.activeTaskCount ∧ c.taskArray i = victim := by
  unfold sysSelectBadProcess at h
  cases hloop : selectBadLoop c (List.range c.activeTaskCount) (0, 0) with
  | error e =>
      rw [hloop] at h
      cases h
  | ok r =>
      rw [hloop] at h
      cases h
      rcases selectBadLoop_registered hloop with hzero | ⟨i, hi, hvictim⟩
      · exact absurd hzero hnull
      · exact ⟨i, List.mem_range.1 hi, hvictim⟩

/-- The killer returns only when it has killed the task it picked. -/
theorem sysTriggerOomKiller_cases {c c' : SysOomCtrl} (h : sysTriggerOomKiller c = .ok c') :
    ∃ victim, sysSelectBadProcess c = .ok victim ∧ victim ≠ 0 ∧ c' = sysSendSigkill c victim := by
  unfold sysTriggerOomKiller at h
  split at h
  · cases h
  case h_2 victim hselect =>
    split at h
    · cases h
    case isFalse hnull =>
      split at h
      · cases h
      · cases h
        exact ⟨victim, hselect, hnull, rfl⟩

/-- Nobody is killed but the victim. -/
theorem sysSendSigkill_dead_iff (c : SysOomCtrl) (victim a : Nat) :
    ((sysSendSigkill c victim).tasks a).state = .dead ↔ a = victim ∨ (c.tasks a).state = .dead := by
  unfold sysSendSigkill
  by_cases ha : a = victim
  · subst ha
    simp
  · simp [ha]

/-- The controller when a request has taken back what the caches hold. -/
def reclaimCaches (c : SysOomCtrl) : SysOomCtrl :=
  (sysShrinkPageCache (sysShrinkSlabCaches c).1).1

/-- The task that is killed for a request of `count` pages of `zone`, if it comes to that. -/
def requestVictim (c : SysOomCtrl) (zone : ZoneIdx) (count : Nat) : Option Nat :=
  if (c.zones zone).admits count ∨ ((sysShrinkSlabCaches c).1.zones zone).admits count ∨
      ((reclaimCaches c).zones zone).admits count then none
  else (sysSelectBadProcess (reclaimCaches c)).toOption

/-- Where the tasks are registered, and what is recorded of them. -/
structure SameTasks (c c' : SysOomCtrl) : Prop where
  taskArray : c'.taskArray = c.taskArray
  activeTaskCount : c'.activeTaskCount = c.activeTaskCount
  tasks : c'.tasks = c.tasks

theorem sysShrinkSlabCaches_sameTasks (c : SysOomCtrl) : SameTasks c (sysShrinkSlabCaches c).1 :=
  ⟨rfl, rfl, rfl⟩

theorem reclaimCaches_sameTasks (c : SysOomCtrl) : SameTasks c (reclaimCaches c) := by
  unfold reclaimCaches sysShrinkPageCache
  dsimp only
  split
  · exact ⟨rfl, rfl, rfl⟩
  · exact ⟨rfl, rfl, rfl⟩

/-- What a request does to the tasks: it kills its victim, who was alive. -/
structure Served (c c' : SysOomCtrl) (victim : Option Nat) : Prop where
  taskArray : c'.taskArray = c.taskArray
  activeTaskCount : c'.activeTaskCount = c.activeTaskCount
  dead_iff : ∀ a, (c'.tasks a).state = .dead ↔ victim = some a ∨ (c.tasks a).state = .dead
  alive : ∀ a, victim = some a → (c.tasks a).state ≠ .dead

theorem SameTasks.served {c c' : SysOomCtrl} (h : SameTasks c c') : Served c c' none :=
  { taskArray := h.taskArray
    activeTaskCount := h.activeTaskCount
    dead_iff := by simp [h.tasks]
    alive := by simp }

/-- The state in which a request is admitted: it may have reclaimed, and then it may have killed. -/
theorem retryAllocation_cases {c c' : SysOomCtrl} {zone : ZoneIdx} {count : Nat}
    (h : retryAllocation zone count retryStages c = .ok c') :
    (c'.zones zone).admits count = true ∧
    ((requestVictim c zone count = none ∧
        (c' = c ∨ c' = (sysShrinkSlabCaches c).1 ∨ c' = reclaimCaches c)) ∨
      ∃ victim, requestVictim c zone count = some victim ∧
        sysSelectBadProcess (reclaimCaches c) = .ok victim ∧ victim ≠ 0 ∧
        c' = sysSendSigkill (reclaimCaches c) victim) := by
  unfold retryStages retryAllocation at h
  unfold requestVictim
  split at h
  -- the zone has enough pages at once
  case isTrue hadmits =>
    cases h
    exact ⟨hadmits, .inl ⟨if_pos (.inl hadmits), .inl rfl⟩⟩
  case isFalse hfirst =>
    simp only [ReclaimStage.run, retryAllocation] at h
    split at h
    case isTrue hadmits =>
      cases h
      exact ⟨hadmits, .inl ⟨if_pos (.inr (.inl hadmits)), .inr (.inl rfl)⟩⟩
    case isFalse hsecond =>
      split at h
      case isTrue hadmits =>
        cases h
        exact ⟨hadmits, .inl ⟨if_pos (.inr (.inr hadmits)), .inr (.inr rfl)⟩⟩
      case isFalse hthird =>
        -- neither cache was enough, and the killer runs
        have hnone : ¬ ((c.zones zone).admits count = true ∨
            ((sysShrinkSlabCaches c).1.zones zone).admits count = true ∨
            ((reclaimCaches c).zones zone).admits count = true) := by
          rintro (hadmits | hadmits | hadmits)
          · exact hfirst hadmits
          · exact hsecond hadmits
          · exact hthird hadmits
        split at h
        · cases h
        case h_2 killed hkiller =>
          split at h
          case isFalse => cases h
          case isTrue hadmits =>
            cases h
            rcases sysTriggerOomKiller_cases hkiller with ⟨victim, hselect, hnull, rfl⟩
            have hvictim : sysSelectBadProcess (reclaimCaches c) = .ok victim := hselect
            refine ⟨hadmits, .inr ⟨victim, ?_, hvictim, hnull, rfl⟩⟩
            rw [if_neg hnone, hvictim]
            rfl

theorem retryAllocation_served {c c' : SysOomCtrl} {zone : ZoneIdx} {count : Nat}
    (h : retryAllocation zone count retryStages c = .ok c') :
    Served c c' (requestVictim c zone count) := by
  have hcaches := reclaimCaches_sameTasks c
  rcases retryAllocation_cases h with ⟨_, ⟨hnone, hc⟩ | ⟨victim, hsome, hselect, hnull, rfl⟩⟩
  · rw [hnone]
    rcases hc with rfl | rfl | rfl
    · exact SameTasks.served ⟨rfl, rfl, rfl⟩
    · exact (sysShrinkSlabCaches_sameTasks c).served
    · exact hcaches.served
  · -- reclaiming has changed no task, so the victim is the one selected before
    rw [hsome]
    have halive := sysSelectBadProcess_alive hselect hnull
    rw [hcaches.tasks] at halive
    refine
      { taskArray := hcaches.taskArray
        activeTaskCount := hcaches.activeTaskCount
        dead_iff := fun a => ?_
        alive := fun a ha => ?_ }
    · rw [sysSendSigkill_dead_iff, hcaches.tasks]
      simp [eq_comm]
    · cases ha
      exact halive

theorem zoneOfInt_one : zoneOfInt 1 = some zoneNormal := rfl

/-- A request for pages of a zone. -/
theorem sysAllocPages_served {c c' : SysOomCtrl} {zoneIdx : Int} {zone : ZoneIdx} {count page : Nat}
    (hzone : zoneOfInt zoneIdx = some zone) (h : sysAllocPages c zoneIdx count = .ok (c', page)) :
    Served c c' (requestVictim c zone count) ∧ page = pageAddress c'.totalReclaimed := by
  unfold sysAllocPages at h
  rw [hzone] at h
  dsimp only at h
  split at h
  · cases h
  case h_2 admitted hretry =>
    cases h
    have hserved := retryAllocation_served hretry
    exact ⟨⟨hserved.taskArray, hserved.activeTaskCount, hserved.dead_iff, hserved.alive⟩, rfl⟩

theorem pageAddress_lt (totalReclaimed : Nat) : pageAddress totalReclaimed < 2 ^ 32 := wrap32_lt _

end Oom
end WhitexKernel
