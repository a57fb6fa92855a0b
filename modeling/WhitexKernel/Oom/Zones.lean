import WhitexKernel.Lib.Transition
import WhitexKernel.Oom.Victims

/-!
# Zones — how many pages a zone can come to hold

Pages enter a zone from the two reclaimers and the OOM killer, and leave it through
`sys_alloc_pages`.  The reclaimers stop at the high watermark.  Two things break the bound by
`managed_pages`: the sum in the admission test can wrap around, so that a huge request is admitted
and the subtraction wraps too; and the killer adds the `rss_pages` of its victim, which nobody has
taken from `ZONE_NORMAL`.
-/

namespace WhitexKernel
namespace Oom

open Lib Machine

/-! ## The machine -/

/-- The calls into the controller; whoever registers a task has filled in the record at `node`. -/
inductive ZoneAction
  | alloc (zoneIdx : Int) (count : UInt32)
  | registerTask (node : Nat) (task : SysTask)
  | triggerOomKiller
  | monitorCheck

namespace SysOomCtrl

def run (c : SysOomCtrl) : ZoneAction → Except Halt SysOomCtrl
  | .alloc zoneIdx count => (sysAllocPages c zoneIdx count.toNat).map Prod.fst
  | .registerTask node task =>
      sysRegisterTask { c with tasks := Function.update c.tasks node task } node
  | .triggerOomKiller => sysTriggerOomKiller c
  | .monitorCheck => sysOomMonitorCheck c

/-- The controller after a call that returns. -/
def step (c : SysOomCtrl) (a : ZoneAction) : Option SysOomCtrl := (c.run a).toOption

/-- After `sys_oom_init`. -/
def boot (c : SysOomCtrl) (dmaPages normalPages highmemPages : UInt32) : SysOomCtrl :=
  sysOomInit dmaPages.toNat normalPages.toNat highmemPages.toNat c

/-- No zone has more free pages than it manages. -/
def WithinManaged (c : SysOomCtrl) : Prop :=
  ∀ i, (c.zones i).freePages ≤ (c.zones i).managedPages

/-- A request that is served leaves `count` pages less than in the state that admitted it, where
there were that many and the minimum watermark. -/
def ServedExactly (c : SysOomCtrl) : ZoneAction → Prop
  | .alloc zoneIdx count =>
      ∀ zone admitted, zoneOfInt zoneIdx = some zone →
        retryAllocation zone count.toNat retryStages c = .ok admitted →
          count.toNat + (admitted.zones zone).wmMin ≤ (admitted.zones zone).freePages ∧
            ((serve admitted zone count.toNat).1.zones zone).freePages + count.toNat =
              (admitted.zones zone).freePages
  | _ => True

/-- The pages of the tasks that the monitor kills. -/
def monitorCredit : List ZoneIdx → SysOomCtrl → Nat
  | [], _ => 0
  | i :: is, c =>
      if (c.zones i).freePages < (c.zones i).wmMin then
        match sysSelectBadProcess c with
        | .error _ => 0
        | .ok victim => (c.tasks victim).rssPages + monitorCredit is (sysSendSigkill c victim)
      else monitorCredit is c

/-- The pages of victims still fit into `ZONE_NORMAL`, besides `room` pages that leave it. -/
def CreditFits (c : SysOomCtrl) (credit room : Nat) : Prop :=
  wrap32 ((c.zones zoneNormal).freePages + credit) ≤ (c.zones zoneNormal).managedPages + room

/-- The sum in the admission test does not wrap around, and the pages of those who are killed fit
into `ZONE_NORMAL`. -/
def Fits (c : SysOomCtrl) : ZoneAction → Prop
  | .alloc zoneIdx count =>
      ∀ zone, zoneOfInt zoneIdx = some zone →
        count.toNat + (c.zones zone).wmMin < 2 ^ 32 ∧
        ∀ victim, requestVictim c zone count.toNat = some victim →
          (reclaimCaches c).CreditFits (c.tasks victim).rssPages
            (if zone = zoneNormal then count.toNat else 0)
  | .registerTask _ _ => True
  | .triggerOomKiller =>
      ∀ victim, sysSelectBadProcess c = .ok victim → c.CreditFits (c.tasks victim).rssPages 0
  | .monitorCheck => c.CreditFits (monitorCredit [zoneDma, zoneNormal, zoneHighmem] c) 0

end SysOomCtrl

/-! ## The reclaimers -/

/-- The sizes of a zone as `sys_oom_init` sets them up. -/
structure SysMemZone.Sound (z : SysMemZone) : Prop where
  low : z.wmLow ≤ z.wmHigh
  high : z.wmHigh ≤ z.managedPages
  managed : z.managedPages < 2 ^ 32
  free : z.freePages < 2 ^ 32

/-- The zone with more pages, but no more than there were or than the high watermark. -/
structure Replenished (z z' : SysMemZone) : Prop where
  managedPages : z'.managedPages = z.managedPages
  wmMin : z'.wmMin = z.wmMin
  wmLow : z'.wmLow = z.wmLow
  wmHigh : z'.wmHigh = z.wmHigh
  more : z.freePages ≤ z'.freePages
  bound : z'.freePages ≤ max z.freePages z.wmHigh

namespace Replenished

theorem refl (z : SysMemZone) : Replenished z z :=
  { managedPages := rfl
    wmMin := rfl
    wmLow := rfl
    wmHigh := rfl
    more := Nat.le_refl _
    bound := Nat.le_max_left _ _ }

theorem trans {z z' z'' : SysMemZone} (h : Replenished z z') (h' : Replenished z' z'') :
    Replenished z z'' :=
  { managedPages := h'.managedPages.trans h.managedPages
    wmMin := h'.wmMin.trans h.wmMin
    wmLow := h'.wmLow.trans h.wmLow
    wmHigh := h'.wmHigh.trans h.wmHigh
    more := Nat.le_trans h.more h'.more
    bound := by
      have hfirst := h.bound
      have hsecond := h'.bound
      rw [h.wmHigh] at hsecond
      omega }

theorem sound {z z' : SysMemZone} (h : Replenished z z') (hz : z.Sound) : z'.Sound :=
  { low := by rw [h.wmLow, h.wmHigh]; exact hz.low
    high := by rw [h.wmHigh, h.managedPages]; exact hz.high
    managed := by rw [h.managedPages]; exact hz.managed
    free := by
      have hbound := h.bound
      have hfree := hz.free
      have hhigh := hz.high
      have hmanaged := hz.managed
      omega }

/-- Adding at most what is missing to the high watermark. -/
theorem addFree {z : SysMemZone} (hz : z.Sound) {n : Nat}
    (hn : n = 0 ∨ z.freePages + n ≤ z.wmHigh) : Replenished z (z.addFree n) := by
  have hfree := hz.free
  have hhigh := hz.high
  have hmanaged := hz.managed
  have hsum : (z.addFree n).freePages = z.freePages + n := by
    simp only [SysMemZone.addFree, wrap32]
    omega
  refine
    { managedPages := rfl
      wmMin := rfl
      wmLow := rfl
      wmHigh := rfl
      more := ?_
      bound := ?_ }
  · omega
  · omega

end Replenished

theorem slabReclaim_le {z : SysMemZone} (hz : z.Sound) :
    slabReclaim z = 0 ∨ z.freePages + slabReclaim z ≤ z.wmHigh := by
  have hlow := hz.low
  have hhigh := hz.high
  have hmanaged := hz.managed
  unfold slabReclaim
  split
  case isTrue hless =>
    have htarget : sub32 z.wmHigh z.freePages = z.wmHigh - z.freePages :=
      sub32_of_le (by omega) (by omega)
    right
    rw [htarget]
    dsimp only
    split <;> omega
  case isFalse => exact .inl rfl

theorem sysShrinkSlabCaches_replenished {c : SysOomCtrl} (hc : ∀ i, (c.zones i).Sound)
    (i : ZoneIdx) : Replenished (c.zones i) ((sysShrinkSlabCaches c).1.zones i) :=
  Replenished.addFree (hc i) (slabReclaim_le (hc i))

theorem sysShrinkPageCache_replenished {c : SysOomCtrl} (hc : ∀ i, (c.zones i).Sound)
    (i : ZoneIdx) : Replenished (c.zones i) ((sysShrinkPageCache c).1.zones i) := by
  unfold sysShrinkPageCache
  dsimp only
  split
  case isTrue hless =>
    by_cases hi : i = zoneNormal
    · subst hi
      simp only [SysOomCtrl.addReclaimed, Function.update_self]
      exact Replenished.addFree (hc zoneNormal) (.inr (by omega))
    · simp only [SysOomCtrl.addReclaimed, Function.update_of_ne hi]
      exact Replenished.refl _
  case isFalse => exact Replenished.refl _

theorem reclaimCaches_replenished {c : SysOomCtrl} (hc : ∀ i, (c.zones i).Sound) (i : ZoneIdx) :
    Replenished (c.zones i) ((reclaimCaches c).zones i) := by
  have hslab := sysShrinkSlabCaches_replenished hc
  have hsound : ∀ j, ((sysShrinkSlabCaches c).1.zones j).Sound := fun j => (hslab j).sound (hc j)
  exact (hslab i).trans (sysShrinkPageCache_replenished hsound i)

/-! ## The killer and the request -/

theorem SysMemZone.Sound.addFree {z : SysMemZone} (hz : z.Sound) (n : Nat) : (z.addFree n).Sound :=
  { low := hz.low
    high := hz.high
    managed := hz.managed
    free := wrap32_lt _ }

theorem SysMemZone.Sound.subFree {z : SysMemZone} (hz : z.Sound) (n : Nat) : (z.subFree n).Sound :=
  { low := hz.low
    high := hz.high
    managed := hz.managed
    free := Nat.mod_lt _ (by decide) }

@[simp] theorem SysMemZone.addFree_managedPages (z : SysMemZone) (n : Nat) :
    (z.addFree n).managedPages = z.managedPages := rfl

@[simp] theorem SysMemZone.addFree_wmMin (z : SysMemZone) (n : Nat) :
    (z.addFree n).wmMin = z.wmMin := rfl

@[simp] theorem SysMemZone.subFree_managedPages (z : SysMemZone) (n : Nat) :
    (z.subFree n).managedPages = z.managedPages := rfl

theorem sysSendSigkill_zones (c : SysOomCtrl) (victim : Nat) (i : ZoneIdx) :
    (sysSendSigkill c victim).zones i =
      if i = zoneNormal then (c.zones zoneNormal).addFree (c.tasks victim).rssPages
      else c.zones i := by
  simp [sysSendSigkill, Function.update_apply]

theorem serve_zones (c : SysOomCtrl) (zone : ZoneIdx) (count : Nat) (i : ZoneIdx) :
    (serve c zone count).1.zones i =
      if i = zone then (c.zones zone).subFree count else c.zones i := by
  simp [serve, Function.update_apply]

theorem sysSendSigkill_sound {c : SysOomCtrl} (hc : ∀ i, (c.zones i).Sound) (victim : Nat)
    (i : ZoneIdx) : ((sysSendSigkill c victim).zones i).Sound := by
  rw [sysSendSigkill_zones]
  split
  · exact (hc zoneNormal).addFree _
  · exact hc i

/-- What does not change in a zone that a request has made admit it. -/
theorem retryAllocation_sound {c admitted : SysOomCtrl} {zone : ZoneIdx} {count : Nat}
    (hc : ∀ i, (c.zones i).Sound)
    (h : retryAllocation zone count retryStages c = .ok admitted) (i : ZoneIdx) :
    (admitted.zones i).Sound ∧ (admitted.zones i).managedPages = (c.zones i).managedPages ∧
      (admitted.zones i).wmMin = (c.zones i).wmMin := by
  have hcaches := reclaimCaches_replenished hc
  have hmore : ∀ {c' : SysOomCtrl}, Replenished (c.zones i) (c'.zones i) →
      (c'.zones i).Sound ∧ (c'.zones i).managedPages = (c.zones i).managedPages ∧
        (c'.zones i).wmMin = (c.zones i).wmMin :=
    fun hr => ⟨hr.sound (hc i), hr.managedPages, hr.wmMin⟩
  rcases retryAllocation_cases h with ⟨_, ⟨_, rfl | rfl | rfl⟩ | ⟨victim, _, _, _, rfl⟩⟩
  · exact hmore (Replenished.refl _)
  · exact hmore (sysShrinkSlabCaches_replenished hc i)
  · exact hmore (hcaches i)
  · refine ⟨sysSendSigkill_sound (fun j => (hcaches j).sound (hc j)) victim i, ?_⟩
    rw [sysSendSigkill_zones]
    split
    case isTrue hi =>
      subst hi
      exact ⟨(hcaches zoneNormal).managedPages, (hcaches zoneNormal).wmMin⟩
    case isFalse => exact ⟨(hcaches i).managedPages, (hcaches i).wmMin⟩

/-- An admitted request is served exactly unless the sum in the admission test wraps around. -/
theorem served_iff {z : SysMemZone} (hz : z.Sound) {count : Nat} (hadmits : z.admits count = true) :
    (count + z.wmMin ≤ z.freePages ∧ (z.subFree count).freePages + count = z.freePages) ↔
      count + z.wmMin < 2 ^ 32 := by
  have hfree := hz.free
  constructor
  · intro h
    exact Nat.lt_of_le_of_lt h.1 hfree
  · intro hsum
    unfold SysMemZone.admits at hadmits
    rw [decide_eq_true_eq, wrap32_of_lt hsum] at hadmits
    refine ⟨hadmits, ?_⟩
    have hle : count ≤ z.freePages := by omega
    simp only [SysMemZone.subFree]
    rw [sub32_of_le hle hfree]
    omega

namespace SysOomCtrl

theorem run_of_step {c t : SysOomCtrl} {a : ZoneAction} (h : c.step a = some t) :
    c.run a = .ok t := by
  unfold step at h
  cases hrun : c.run a with
  | error e =>
      rw [hrun] at h
      cases h
  | ok t' =>
      rw [hrun] at h
      cases h
      rfl

/-- What a request that returns has done. -/
theorem alloc_cases {c t : SysOomCtrl} {zoneIdx : Int} {count : UInt32}
    (h : c.step (.alloc zoneIdx count) = some t) :
    (zoneOfInt zoneIdx = none ∧ t = c) ∨
    ∃ zone admitted, zoneOfInt zoneIdx = some zone ∧
      retryAllocation zone count.toNat retryStages c = .ok admitted ∧
      t = (serve admitted zone count.toNat).1 := by
  have halloc := run_of_step h
  simp only [run, sysAllocPages] at halloc
  split at halloc
  case h_1 hzone =>
    cases halloc
    exact .inl ⟨hzone, rfl⟩
  case h_2 zone hzone =>
    split at halloc
    · cases halloc
    case h_2 admitted hretry =>
      cases halloc
      exact .inr ⟨zone, admitted, hzone, hretry, rfl⟩

/-- The zones after the monitor has looked at some of them. -/
theorem monitorLoop_zones {is : List ZoneIdx} {c t : SysOomCtrl}
    (hfree : (c.zones zoneNormal).freePages < 2 ^ 32) (h : monitorLoop is c = .ok t) :
    t.zones = Function.update c.zones zoneNormal
      ((c.zones zoneNormal).addFree (monitorCredit is c)) := by
  induction is generalizing c with
  | nil =>
      cases h
      have hsame : (t.zones zoneNormal).addFree (monitorCredit [] t) = t.zones zoneNormal := by
        simp only [monitorCredit, SysMemZone.addFree, Nat.add_zero, wrap32_of_lt hfree]
      rw [hsame, Function.update_eq_self]
  | cons i is ih =>
      unfold monitorLoop at h
      unfold monitorCredit
      split at h
      case isTrue hless =>
        rw [if_pos hless]
        split at h
        · cases h
        case h_2 killed hkiller =>
          rcases sysTriggerOomKiller_cases hkiller with ⟨victim, hselect, _, rfl⟩
          -- the kill credits the pages of the victim, and the loop goes on from there
          have hkilled : ((sysSendSigkill c victim).zones zoneNormal).freePages < 2 ^ 32 := by
            rw [sysSendSigkill_zones, if_pos rfl]
            exact wrap32_lt _
          rw [ih hkilled h, hselect]
          simp only [sysSendSigkill, Function.update_self, Function.update_idem]
          congr 1
          simp only [SysMemZone.addFree, wrap32, SysMemZone.mk.injEq, and_true, true_and]
          omega
      case isFalse hless =>
        rw [if_neg hless]
        exact ih hfree h

/-! ## One call -/

theorem step_sound {c t : SysOomCtrl} {a : ZoneAction} (hc : ∀ i, (c.zones i).Sound)
    (h : c.step a = some t) (i : ZoneIdx) : (t.zones i).Sound := by
  cases a with
  | alloc zoneIdx count =>
      rcases alloc_cases h with ⟨_, rfl⟩ | ⟨zone, admitted, _, hretry, rfl⟩
      · exact hc i
      · rw [serve_zones]
        -- only the zone that serves gives pages away
        split
        · exact (retryAllocation_sound hc hretry zone).1.subFree _
        · exact (retryAllocation_sound hc hretry i).1
  | registerTask node task =>
      have hrun := run_of_step h
      simp only [run, sysRegisterTask] at hrun
      split at hrun <;> cases hrun
      exact hc i
  | triggerOomKiller =>
      rcases sysTriggerOomKiller_cases (run_of_step h) with ⟨victim, _, _, rfl⟩
      exact sysSendSigkill_sound hc victim i
  | monitorCheck =>
      rw [monitorLoop_zones (hc zoneNormal).free (run_of_step h), Function.update_apply]
      split
      · exact (hc zoneNormal).addFree _
      · exact hc i

/-- After pages have been credited to `ZONE_NORMAL` and `count` pages have been taken from `zone`,
the zones are within their bounds exactly when the credit fits. -/
theorem withinManaged_credit_iff {c t : SysOomCtrl} {zone : ZoneIdx} {credit count : Nat}
    (hc : c.WithinManaged)
    (hcount : count ≤ (if zone = zoneNormal then wrap32 ((c.zones zoneNormal).freePages + credit)
      else (c.zones zone).freePages))
    (ht : ∀ i, (t.zones i).managedPages = (c.zones i).managedPages ∧
      (t.zones i).freePages =
        (if i = zoneNormal then wrap32 ((c.zones zoneNormal).freePages + credit)
          else (c.zones i).freePages) - (if i = zone then count else 0)) :
    t.WithinManaged ↔ c.CreditFits credit (if zone = zoneNormal then count else 0) := by
  unfold CreditFits
  constructor
  · intro hwithin
    -- only `ZONE_NORMAL` is credited, so it decides
    have hnormal := hwithin zoneNormal
    rw [(ht zoneNormal).1, (ht zoneNormal).2, if_pos rfl] at hnormal
    by_cases hzone : zone = zoneNormal
    · rw [if_pos hzone] at hcount ⊢
      rw [if_pos hzone.symm] at hnormal
      omega
    · rw [if_neg hzone]
      rw [if_neg (Ne.symm hzone)] at hnormal
      omega
  · intro hfits i
    rw [(ht i).1, (ht i).2]
    by_cases hi : i = zoneNormal
    · subst hi
      rw [if_pos rfl]
      by_cases hzone : zone = zoneNormal
      · rw [if_pos hzone] at hcount hfits
        rw [if_pos hzone.symm]
        omega
      · rw [if_neg hzone] at hfits
        rw [if_neg (Ne.symm hzone)]
        omega
    · rw [if_neg hi]
      exact Nat.le_trans (Nat.sub_le _ _) (hc i)

/-- The same when no page is taken. -/
theorem withinManaged_update_iff {c t : SysOomCtrl} {credit : Nat} (hc : c.WithinManaged)
    (ht : t.zones = Function.update c.zones zoneNormal ((c.zones zoneNormal).addFree credit)) :
    t.WithinManaged ↔ c.CreditFits credit 0 := by
  have hcredit : t.WithinManaged ↔
      c.CreditFits credit (if zoneNormal = zoneNormal then 0 else 0) := by
    refine withinManaged_credit_iff hc (Nat.zero_le _) fun i => ?_
    rw [ht, Function.update_apply]
    by_cases hi : i = zoneNormal
    · subst hi
      simp [SysMemZone.addFree]
    · simp [hi]
  exact hcredit

theorem Replenished.withinManaged {c c' : SysOomCtrl} (hsound : ∀ i, (c.zones i).Sound)
    (hc : c.WithinManaged) (h : ∀ i, Replenished (c.zones i) (c'.zones i)) : c'.WithinManaged := by
  intro i
  have hbound := (h i).bound
  have hhigh := (hsound i).high
  have hfree := hc i
  rw [(h i).managedPages]
  omega

/-- A served request leaves the zones within their bounds exactly when what it killed fits. -/
theorem serve_withinManaged_iff {c admitted : SysOomCtrl} {zone : ZoneIdx} {count : Nat}
    (hsound : ∀ i, (c.zones i).Sound) (hc : c.WithinManaged)
    (hretry : retryAllocation zone count retryStages c = .ok admitted)
    (hle : count ≤ (admitted.zones zone).freePages) :
    (serve admitted zone count).1.WithinManaged ↔
      ∀ victim, requestVictim c zone count = some victim →
        (reclaimCaches c).CreditFits (c.tasks victim).rssPages
          (if zone = zoneNormal then count else 0) := by
  have hadmitted := retryAllocation_sound hsound hretry
  have hserved : ∀ i, ((serve admitted zone count).1.zones i).managedPages =
        (admitted.zones i).managedPages ∧
      ((serve admitted zone count).1.zones i).freePages =
        (admitted.zones i).freePages - (if i = zone then count else 0) := by
    intro i
    rw [serve_zones]
    by_cases hi : i = zone
    · subst hi
      rw [if_pos rfl, if_pos rfl]
      exact ⟨rfl, sub32_of_le hle (hadmitted i).1.free⟩
    · rw [if_neg hi, if_neg hi]
      exact ⟨rfl, (Nat.sub_zero _).symm⟩
  have hcaches := reclaimCaches_replenished hsound
  rcases retryAllocation_cases hretry with ⟨_, ⟨hnone, hsame⟩ | ⟨victim, hvictim, _, _, rfl⟩⟩
  · -- nobody is killed: the reclaimers stop at the high watermark
    have hmore : ∀ i, Replenished (c.zones i) (admitted.zones i) := by
      intro i
      rcases hsame with rfl | rfl | rfl
      · exact Replenished.refl _
      · exact sysShrinkSlabCaches_replenished hsound i
      · exact hcaches i
    have hwithin := Replenished.withinManaged hsound hc hmore
    rw [hnone]
    refine iff_of_true (fun i => ?_) (fun victim hvictim => by cases hvictim)
    rw [(hserved i).1, (hserved i).2]
    exact Nat.le_trans (Nat.sub_le _ _) (hwithin i)
  · rw [hvictim]
    have hcredit : (sysSendSigkill (reclaimCaches c) victim).zones zone =
        if zone = zoneNormal then
          ((reclaimCaches c).zones zoneNormal).addFree (c.tasks victim).rssPages
        else (reclaimCaches c).zones zone := by
      rw [sysSendSigkill_zones, (reclaimCaches_sameTasks c).tasks]
    have hfits : (serve (sysSendSigkill (reclaimCaches c) victim) zone count).1.WithinManaged ↔
        (reclaimCaches c).CreditFits (c.tasks victim).rssPages
          (if zone = zoneNormal then count else 0) := by
      refine withinManaged_credit_iff (Replenished.withinManaged hsound hc hcaches) ?_ fun i => ?_
      · rw [hcredit] at hle
        split <;> simp_all [SysMemZone.addFree]
      · rw [(hserved i).1, (hserved i).2, sysSendSigkill_zones, (reclaimCaches_sameTasks c).tasks]
        by_cases hi : i = zoneNormal
        · subst hi
          simp [SysMemZone.addFree]
        · simp [hi]
    rw [hfits]
    simp

/-- One call keeps the accounts of the zones exactly when its sums and its victims fit. -/
theorem step_fits_iff {c t : SysOomCtrl} {a : ZoneAction} (hsound : ∀ i, (c.zones i).Sound)
    (hc : c.WithinManaged) (h : c.step a = some t) :
    c.ServedExactly a ∧ t.WithinManaged ↔ c.Fits a := by
  cases a with
  | alloc zoneIdx count =>
      rcases alloc_cases h with ⟨hzone, rfl⟩ | ⟨zone, admitted, hzone, hretry, rfl⟩
      · simp [ServedExactly, Fits, hzone, hc]
      · have hadmitted := retryAllocation_sound hsound hretry zone
        -- the request is served as it should be exactly when its sum does not wrap around
        have hexact : c.ServedExactly (.alloc zoneIdx count) ↔
            count.toNat + (c.zones zone).wmMin < 2 ^ 32 := by
          rw [← hadmitted.2.2, ← served_iff hadmitted.1 (retryAllocation_cases hretry).1]
          have hserve : (serve admitted zone count.toNat).1.zones zone =
              (admitted.zones zone).subFree count.toNat := by rw [serve_zones, if_pos rfl]
          rw [← hserve]
          constructor
          · intro hserved
            exact hserved zone admitted hzone hretry
          · intro hserved zone' admitted' hzone' hretry'
            cases hzone.symm.trans hzone'
            cases hretry.symm.trans hretry'
            exact hserved
        simp only [Fits, hzone, Option.some.injEq, forall_eq']
        rw [hexact]
        refine and_congr_right fun hsum => ?_
        have hle : count.toNat ≤ (admitted.zones zone).freePages := by
          have hserved := (hexact.2 hsum) zone admitted hzone hretry
          omega
        exact serve_withinManaged_iff hsound hc hretry hle
  | registerTask node task =>
      have hrun := run_of_step h
      simp only [run, sysRegisterTask] at hrun
      split at hrun <;> cases hrun
      exact ⟨fun _ => trivial, fun _ => ⟨trivial, hc⟩⟩
  | triggerOomKiller =>
      rcases sysTriggerOomKiller_cases (run_of_step h) with ⟨victim, hselect, _, rfl⟩
      simp only [ServedExactly, true_and, Fits, hselect, Except.ok.injEq, forall_eq']
      exact withinManaged_update_iff hc rfl
  | monitorCheck =>
      simp only [ServedExactly, true_and, Fits]
      exact withinManaged_update_iff hc
        (monitorLoop_zones (hsound zoneNormal).free (run_of_step h))

/-! ## Runs -/

theorem initZone_sound {pages divMin divLow divHigh : Nat} (hpages : pages < 2 ^ 32)
    (hdiv : divHigh ≤ divLow) (hpos : 0 < divHigh) :
    (initZone pages divMin divLow divHigh).Sound :=
  { low := Nat.div_le_div_left hdiv hpos
    high := Nat.div_le_self _ _
    managed := hpages
    free := hpages }

theorem boot_zones (c : SysOomCtrl) (dmaPages normalPages highmemPages : UInt32) (i : ZoneIdx) :
    ((c.boot dmaPages normalPages highmemPages).zones i).Sound ∧
      ((c.boot dmaPages normalPages highmemPages).zones i).freePages =
        ((c.boot dmaPages normalPages highmemPages).zones i).managedPages := by
  simp only [boot, sysOomInit]
  split
  · exact ⟨initZone_sound dmaPages.toNat_lt (by decide) (by decide), rfl⟩
  · split
    · exact ⟨initZone_sound normalPages.toNat_lt (by decide) (by decide), rfl⟩
    · exact ⟨initZone_sound highmemPages.toNat_lt (by decide) (by decide), rfl⟩

/-- Over every run from `sys_oom_init`, requests are served exactly and no zone exceeds what it
manages, exactly when the sums and the victims of all calls fit. -/
theorem withinManaged_run_iff (c : SysOomCtrl) (dmaPages normalPages highmemPages : UInt32)
    (as : List ZoneAction) :
    AllSteps step ServedExactly (c.boot dmaPages normalPages highmemPages) as ∧
        AllStates step WithinManaged (c.boot dmaPages normalPages highmemPages) as ↔
      AllSteps step Fits (c.boot dmaPages normalPages highmemPages) as := by
  refine allSteps_and_allStates_iff (J := fun c => ∀ i, (c.zones i).Sound) ?_ ?_
    (fun i => (boot_zones c _ _ _ i).1) (fun i => Nat.le_of_eq (boot_zones c _ _ _ i).2)
  · intro c a t hsound h
    exact step_sound hsound h
  · intro c a t hsound hc h
    exact step_fits_iff hsound hc h

/-- A request for `2 ^ 32 - 1` pages is served, and leaves one page more than before. -/
theorem withinManaged_run_false :
    ¬ ∀ (c : SysOomCtrl) (dmaPages normalPages highmemPages : UInt32) (as : List ZoneAction),
      AllSteps step ServedExactly (c.boot dmaPages normalPages highmemPages) as ∧
        AllStates step WithinManaged (c.boot dmaPages normalPages highmemPages) as := by
  intro h
  have hrun : (exec step (SysOomCtrl.zero.boot 4096 4096 4096) [.alloc 1 4294967295]).any
      (fun t => decide ((t.zones zoneNormal).freePages = 4097) &&
        decide ((t.zones zoneNormal).managedPages = 4096)) = true := by
    decide
  rcases exists_of_exec_any hrun with ⟨t, hexec, ht⟩
  simp only [Bool.and_eq_true, decide_eq_true_eq] at ht
  have hwithin := (h _ _ _ _ _).2.last hexec zoneNormal
  rw [ht.1, ht.2] at hwithin
  exact absurd hwithin (by decide)

end SysOomCtrl

end Oom
end WhitexKernel
