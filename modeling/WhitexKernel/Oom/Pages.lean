import Mathlib.Order.CompletePartialOrder
import Mathlib.Order.Interval.Set.Disjoint
import WhitexKernel.Lib.Transition
import WhitexKernel.Oom.Model

/-!
# Pages — which address ranges `sys_alloc_pages` hands out

The address of an allocation is computed from `total_reclaimed`, not from the pages of the zone.
Two requests with no reclaim in between get the same address; the ranges stay disjoint as long as,
after each successful request, at least as many pages as it got are reclaimed before the next one
is admitted, and the addresses do not wrap around.
-/

namespace WhitexKernel
namespace Oom

open Lib Machine

/-! ## Runs of the allocator -/

/-- A successful request for `count` pages, admitted when `total_reclaimed` was `reclaimed`. -/
structure PageGrant where
  reclaimed : Nat
  count : Nat
  deriving DecidableEq, Repr

def PageGrant.address (g : PageGrant) : Nat := pageAddress g.reclaimed

/-- The addresses `[p, p + count * PAGE_SIZE)`. -/
def PageGrant.range (g : PageGrant) : Set Nat :=
  Set.Ico g.address (g.address + g.count * pageSize)

/-- The controller and the requests granted so far, latest first. -/
structure PageState where
  ctrl : SysOomCtrl
  grants : List PageGrant

inductive PageAction
  | alloc (zoneIdx : Int) (count : Nat)
  | shrinkSlabCaches
  | shrinkPageCache
  | triggerOomKiller
  | monitorCheck
  /-- The caller fills in the record at `node` and registers it. -/
  | registerTask (node : Nat) (task : SysTask)

namespace PageState

/-- A request, granted unless the address is `NULL`. -/
def alloc (s : PageState) (zoneIdx : Int) (count : Nat) : Option PageState :=
  match sysAllocPages s.ctrl zoneIdx count with
  | .error _ => none
  | .ok (ctrl, address) =>
      if address = 0 then some { s with ctrl := ctrl }
      else
        some
          { ctrl := ctrl
            grants := { reclaimed := ctrl.totalReclaimed, count := count } :: s.grants }

/-- The controller a call returns with, if it returns. -/
def withCtrl (s : PageState) : Except Halt SysOomCtrl → Option PageState
  | .error _ => none
  | .ok ctrl => some { s with ctrl := ctrl }

def step (s : PageState) : PageAction → Option PageState
  | .alloc zoneIdx count => if 1 ≤ count ∧ count < 2 ^ 32 then s.alloc zoneIdx count else none
  | .shrinkSlabCaches => some { s with ctrl := (sysShrinkSlabCaches s.ctrl).1 }
  | .shrinkPageCache => some { s with ctrl := (sysShrinkPageCache s.ctrl).1 }
  | .triggerOomKiller => s.withCtrl (sysTriggerOomKiller s.ctrl)
  | .monitorCheck => s.withCtrl (sysOomMonitorCheck s.ctrl)
  | .registerTask node task =>
      s.withCtrl (sysRegisterTask
        { s.ctrl with tasks := Function.update s.ctrl.tasks node task } node)

/-- A machine that has granted nothing yet. -/
def start (c : SysOomCtrl) : PageState :=
  { ctrl := c
    grants := [] }

/-- The ranges granted so far are pairwise disjoint. -/
def GrantsDisjoint (s : PageState) : Prop :=
  s.grants.Pairwise fun g h => Disjoint g.range h.range

end PageState

open PageState

/-! ## Addresses -/

/-- The value of `total_reclaimed` from which on the addresses wrap around. -/
def addressLimit : Nat := 0xF0000

theorem pageAddress_of_lt {r : Nat} (h : r < addressLimit) :
    pageAddress r = 0x10000000 + r * pageSize := by
  unfold addressLimit at h
  unfold pageAddress wrap32 pageSize
  omega

/-- Below the limit, a grant is disjoint from an earlier one exactly when the counter has moved past
the earlier one's pages. -/
theorem disjoint_range_iff {g h : PageGrant} (hle : g.reclaimed ≤ h.reclaimed)
    (hlimit : h.reclaimed < addressLimit) (hcount : 1 ≤ h.count) (hcount' : 1 ≤ g.count) :
    Disjoint h.range g.range ↔ g.reclaimed + g.count ≤ h.reclaimed := by
  unfold PageGrant.range PageGrant.address
  rw [pageAddress_of_lt hlimit, pageAddress_of_lt (Nat.lt_of_le_of_lt hle hlimit),
    Set.Ico_disjoint_Ico]
  unfold pageSize
  omega

/-! ## What a request does -/

/-- A request that returns was for an existing zone and served in the state that admitted it, or was
for no zone and returned `NULL`. -/
theorem sysAllocPages_cases {c c' : SysOomCtrl} {zoneIdx : Int} {count p : Nat}
    (h : sysAllocPages c zoneIdx count = .ok (c', p)) :
    (zoneOfInt zoneIdx = none ∧ c' = c ∧ p = 0) ∨
    ∃ zone admitted, zoneOfInt zoneIdx = some zone ∧
      retryAllocation zone count retryStages c = .ok admitted ∧
      c'.totalReclaimed = admitted.totalReclaimed ∧ p = pageAddress admitted.totalReclaimed := by
  unfold sysAllocPages at h
  split at h
  case h_1 hzone =>
    cases h
    exact .inl ⟨hzone, rfl, rfl⟩
  case h_2 zone hzone =>
    split at h
    · cases h
    case h_2 admitted hadmitted =>
      cases h
      exact .inr ⟨zone, admitted, hzone, hadmitted, rfl, rfl⟩

/-- A step keeps the grants, or adds the one its request was admitted for. -/
theorem step_grants {s t : PageState} {a : PageAction} (h : s.step a = some t) :
    t.grants = s.grants ∨
    ∃ zoneIdx count zone admitted, a = .alloc zoneIdx count ∧ 1 ≤ count ∧
      zoneOfInt zoneIdx = some zone ∧
      retryAllocation zone count retryStages s.ctrl = .ok admitted ∧
      t.ctrl.totalReclaimed = admitted.totalReclaimed ∧
      t.grants = { reclaimed := admitted.totalReclaimed, count := count } :: s.grants := by
  -- an action that only works on the controller grants nothing
  have hkeep : ∀ r : Except Halt SysOomCtrl, s.withCtrl r = some t → t.grants = s.grants := by
    intro r hr
    cases r with
    | error e => cases hr
    | ok ctrl =>
        cases hr
        rfl
  cases a with
  | shrinkSlabCaches =>
      cases h
      exact .inl rfl
  | shrinkPageCache =>
      cases h
      exact .inl rfl
  | triggerOomKiller => exact .inl (hkeep _ h)
  | monitorCheck => exact .inl (hkeep _ h)
  | registerTask node task => exact .inl (hkeep _ h)
  | alloc zoneIdx count =>
      simp only [PageState.step] at h
      split at h
      case isFalse => cases h
      case isTrue hcount =>
        unfold PageState.alloc at h
        split at h
        · cases h
        case h_2 ctrl address halloc =>
          split at h
          case isTrue =>
            cases h
            exact .inl rfl
          case isFalse hnull =>
            cases h
            rcases sysAllocPages_cases halloc with ⟨_, _, hp⟩ | ⟨zone, admitted, hz, hadmitted, hr, _⟩
            · exact absurd hp hnull
            · refine .inr ⟨zoneIdx, count, zone, admitted, rfl, hcount.1, hz, hadmitted, hr, ?_⟩
              rw [hr]

/-! ## When the ranges are disjoint -/

/-- A request is admitted below the address limit, after as many pages as every earlier grant got
have been reclaimed since that grant, counting what the request itself reclaims. -/
def ReclaimedEnough (s : PageState) : PageAction → Prop
  | .alloc zoneIdx count =>
      ∀ zone admitted, zoneOfInt zoneIdx = some zone →
        retryAllocation zone count retryStages s.ctrl = .ok admitted →
          admitted.totalReclaimed < addressLimit ∧
            ∀ g ∈ s.grants, g.reclaimed + g.count ≤ admitted.totalReclaimed
  | _ => True

/-- The step leaves `total_reclaimed` below the address limit, and does not wrap it. -/
def CounterStays (s : PageState) (a : PageAction) : Prop :=
  ∀ t, s.step a = some t →
    s.ctrl.totalReclaimed ≤ t.ctrl.totalReclaimed ∧ t.ctrl.totalReclaimed < addressLimit

/-- Every grant was admitted below the address limit and is disjoint from the others. -/
structure GrantsHeld (s : PageState) : Prop where
  grant : ∀ g ∈ s.grants, g.reclaimed < addressLimit ∧ 1 ≤ g.count
  disjoint : s.GrantsDisjoint

theorem GrantsHeld.step {s t : PageState} {a : PageAction} (hs : GrantsHeld s)
    (ha : ReclaimedEnough s a) (h : s.step a = some t) : GrantsHeld t := by
  -- a step that grants nothing, and one that grants a range
  rcases step_grants h with
    hsame | ⟨zoneIdx, count, zone, admitted, rfl, hcount, hz, hadmitted, _, hnew⟩
  · refine ⟨?_, ?_⟩
    · rw [hsame]
      exact hs.grant
    · unfold GrantsDisjoint
      rw [hsame]
      exact hs.disjoint
  · rcases ha zone admitted hz hadmitted with ⟨hlimit, hpast⟩
    refine ⟨?_, ?_⟩
    · rw [hnew]
      intro g hg
      rcases List.mem_cons.1 hg with rfl | hg
      · exact ⟨hlimit, hcount⟩
      · exact hs.grant g hg
    · unfold GrantsDisjoint
      rw [hnew, List.pairwise_cons]
      refine ⟨fun g hg => ?_, hs.disjoint⟩
      -- the new range begins behind the end of every older one
      have hend := hpast g hg
      rw [disjoint_range_iff (by simp only; omega) hlimit hcount (hs.grant g hg).2]
      exact hend

/-- Every grant was admitted no later than now. -/
def GrantsBehind (s : PageState) : Prop :=
  ∀ g ∈ s.grants, g.reclaimed ≤ s.ctrl.totalReclaimed ∧ 1 ≤ g.count

theorem GrantsBehind.step {s t : PageState} {a : PageAction} (hs : GrantsBehind s)
    (ha : CounterStays s a) (h : s.step a = some t) : GrantsBehind t := by
  have hle := (ha t h).1
  have hold : ∀ g ∈ s.grants, g.reclaimed ≤ t.ctrl.totalReclaimed ∧ 1 ≤ g.count := by
    intro g hg
    rcases hs g hg with ⟨hbefore, hcount⟩
    exact ⟨Nat.le_trans hbefore hle, hcount⟩
  rcases step_grants h with hsame | ⟨zoneIdx, count, zone, admitted, rfl, hcount, _, _, hr, hnew⟩
  · unfold GrantsBehind
    rw [hsame]
    exact hold
  · unfold GrantsBehind
    rw [hnew]
    intro g hg
    rcases List.mem_cons.1 hg with rfl | hg
    · exact ⟨Nat.le_of_eq hr.symm, hcount⟩
    · exact hold g hg

/-- A request admitted below the address limit is granted. -/
theorem alloc_of_admitted {s : PageState} {zoneIdx : Int} {count : Nat} {zone : ZoneIdx}
    {admitted : SysOomCtrl} (hz : zoneOfInt zoneIdx = some zone)
    (hadmitted : retryAllocation zone count retryStages s.ctrl = .ok admitted)
    (hlimit : admitted.totalReclaimed < addressLimit) :
    s.alloc zoneIdx count = some
      { ctrl := (serve admitted zone count).1
        grants := { reclaimed := admitted.totalReclaimed, count := count } :: s.grants } := by
  have hnull : (serve admitted zone count).2 ≠ 0 := by
    unfold serve
    rw [pageAddress_of_lt hlimit]
    omega
  unfold PageState.alloc sysAllocPages
  simp only [hz, hadmitted]
  rw [if_neg hnull]
  rfl

/-- While the counter stays below the limit, only a request that waited for enough reclaim leaves
the ranges disjoint. -/
theorem reclaimedEnough_of_disjoint {s t : PageState} {a : PageAction} (hs : GrantsBehind s)
    (ha : CounterStays s a) (h : s.step a = some t) (ht : t.GrantsDisjoint) :
    ReclaimedEnough s a := by
  cases a with
  | alloc zoneIdx count =>
      intro zone admitted hz hadmitted
      simp only [PageState.step] at h
      split at h
      case isFalse => cases h
      case isTrue hcount =>
        have hstep : s.step (.alloc zoneIdx count) = some t := by
          simp only [PageState.step]
          rw [if_pos hcount]
          exact h
        -- the counter has not wrapped, so the new range lies at its end
        have hcounter := ha t hstep
        have hreclaimed : t.ctrl.totalReclaimed = admitted.totalReclaimed := by
          unfold PageState.alloc sysAllocPages at h
          simp only [hz, hadmitted] at h
          split at h <;> cases h <;> rfl
        rw [hreclaimed] at hcounter
        rw [alloc_of_admitted hz hadmitted hcounter.2, Option.some.injEq] at h
        subst h
        refine ⟨hcounter.2, fun g hg => ?_⟩
        have hdisjoint := (List.pairwise_cons.1 ht).1 g hg
        exact (disjoint_range_iff (Nat.le_trans (hs g hg).1 hcounter.1) hcounter.2 hcount.1
          (hs g hg).2).1 hdisjoint
  | _ => trivial

/-- If every request waits for enough reclaim, all ranges ever granted are disjoint; and while the
counter of reclaimed pages stays below the address limit, they are disjoint only then. -/
theorem grantsDisjoint_run (c : SysOomCtrl) (as : List PageAction) :
    (AllSteps PageState.step ReclaimedEnough (PageState.start c) as →
      AllStates PageState.step GrantsDisjoint (PageState.start c) as) ∧
    (AllSteps PageState.step CounterStays (PageState.start c) as →
      AllStates PageState.step GrantsDisjoint (PageState.start c) as →
        AllSteps PageState.step ReclaimedEnough (PageState.start c) as) := by
  constructor
  · intro henough
    -- nothing is granted yet, so both invariants hold at the start
    have hstart : GrantsHeld (PageState.start c) := by
      refine ⟨?_, List.Pairwise.nil⟩
      intro g hg
      cases hg
    refine (allStates_of_allSteps ?_ hstart henough).mono fun s hs => hs.disjoint
    intro s a t hs ha h
    exact hs.step ha h
  · intro hstays hdisjoint
    have hstart : GrantsBehind (PageState.start c) := by
      intro g hg
      cases hg
    refine allSteps_of_allStates ?_ ?_ hstart hstays hdisjoint
    · intro s a t hs ha h
      exact hs.step ha h
    · intro s a t hs ha h ht
      exact reclaimedEnough_of_disjoint hs ha h ht

/-- Two requests for one page each get the same address. -/
theorem grantsDisjoint_run_false :
    ¬ ∀ (c : SysOomCtrl) (as : List PageAction),
      AllStates PageState.step GrantsDisjoint (PageState.start c) as := by
  intro h
  have hrun : (exec PageState.step (PageState.start (sysOomInit 4096 4096 4096 SysOomCtrl.zero))
      [.alloc 1 1, .alloc 1 1]).any
        (fun t => decide (t.grants =
          [{ reclaimed := 0, count := 1 }, { reclaimed := 0, count := 1 }])) = true := by
    decide
  rcases exists_of_exec_any hrun with ⟨t, hexec, ht⟩
  rw [decide_eq_true_eq] at ht
  have hdisjoint := (h _ _).last hexec
  unfold GrantsDisjoint at hdisjoint
  rw [ht, List.pairwise_cons] at hdisjoint
  have hself := hdisjoint.1 { reclaimed := 0, count := 1 } (by simp)
  rw [disjoint_range_iff (Nat.le_refl _) (by decide) (by decide) (by decide)] at hself
  exact absurd hself (by decide)

end Oom
end WhitexKernel
