import Mathlib.Tactic.IntervalCases
import Mathlib.Tactic.Linarith
import WhitexKernel.Oom.Model

/-!
# Badness — the score of a task

`sys_calculate_badness` scales the resident share of a task to `OOM_SCORE_MAX`, shifts it by the
niceness and by `oom_score_adj`, and clamps what comes out.  `exactBadness` is that formula over
the integers.  The two differ in one place: `rss_pages * OOM_SCORE_MAX` is a 32-bit product, and
from 429497 resident pages on it wraps.
-/

namespace WhitexKernel
namespace Oom

open Machine

/-! ## The formula over the integers -/

/-- The `nice_value` step. -/
def exactNice (score niceValue : Int) : Int :=
  if niceValue > 0 then score + (score * niceValue).tdiv 20
  else if niceValue < 0 then score - (score * -niceValue).tdiv 20
  else score

/-- `adjusted_score` of a task whose resident share is `score`. -/
def exactAdjusted (task : SysTask) (score : Int) : Int :=
  let score := exactNice score task.niceValue
  let score := if task.flags.testBit oomFlagCritical then score.tdiv 4 else score
  score + task.oomScoreAdj * 10

/-- To `1..OOM_SCORE_MAX`. -/
def clampScore (score : Int) : Int := max 1 (min oomScoreMax score)

def exactBadness (task : SysTask) (totalPages : Nat) : Int :=
  clampScore (exactAdjusted task (((task.rssPages : Int) * oomScoreMax).tdiv totalPages))

/-- None of the three exits that score `0` is taken. -/
structure Killable (task : SysTask) : Prop where
  flags : task.flags.testBit oomFlagUnkillable = false
  live : task.state ≠ .dead ∧ task.state ≠ .zombie
  oomScoreAdj : task.oomScoreAdj ≠ oomScoreAdjMin

/-- The sizes and settings a task can have on a machine of at most 4 GiB. -/
structure InRange (task : SysTask) (totalPages : Nat) : Prop where
  totalPages_pos : 0 < totalPages
  totalPages_le : totalPages ≤ 2 ^ 20
  rssPages : task.rssPages ≤ totalPages
  niceValue : -20 ≤ task.niceValue ∧ task.niceValue ≤ 19
  oomScoreAdj : -999 ≤ task.oomScoreAdj ∧ task.oomScoreAdj ≤ 1000

/-! ## Who scores -/

/-- The resident share as the code has it, from a product of 32 bits. -/
def residentShare (task : SysTask) (totalPages : Nat) : Nat :=
  wrap32 (task.rssPages * oomScoreMax) / totalPages

/-- `score` before it is adjusted. -/
def unadjustedScore (task : SysTask) (totalPages : Nat) : Nat :=
  let score := niceScore (residentShare task totalPages) task.niceValue
  if task.flags.testBit oomFlagCritical then score / 4 else score

/-- The three last exits clamp. -/
theorem clampScore_exits (adjusted : Int) :
    (if adjusted ≤ 0 then .ok 1
      else if adjusted > oomScoreMax then .ok oomScoreMax
      else .ok adjusted.toNat : Except Halt Nat) = .ok (clampScore adjusted).toNat := by
  unfold clampScore oomScoreMax
  split
  case isTrue hlow =>
    simp only [Except.ok.injEq]
    omega
  case isFalse hlow =>
    split
    · simp only [Except.ok.injEq]
      omega
    · simp only [Except.ok.injEq]
      omega

/-- Past the three first exits, the adjusted score is clamped. -/
theorem sysCalculateBadness_of_killable {task : SysTask} (h : Killable task) {totalPages : Nat}
    (htotal : totalPages ≠ 0) :
    sysCalculateBadness task totalPages = .ok (clampScore
      (toInt32 (toInt32 (unadjustedScore task totalPages) + task.oomScoreAdj * 10))).toNat := by
  have hlive : ¬ (task.state = .dead ∨ task.state = .zombie) := not_or.2 h.live
  have hflags : ¬ task.flags.testBit oomFlagUnkillable = true := by
    rw [h.flags]
    exact Bool.false_ne_true
  unfold sysCalculateBadness
  rw [if_neg hflags, if_neg hlive, if_neg h.oomScoreAdj, if_neg htotal]
  exact clampScore_exits _

theorem clampScore_pos (score : Int) : 0 < (clampScore score).toNat := by
  unfold clampScore
  omega

theorem sysCalculateBadness_of_not_killable {task : SysTask} (h : ¬ Killable task)
    (totalPages : Nat) : sysCalculateBadness task totalPages = .ok 0 := by
  unfold sysCalculateBadness
  split
  · rfl
  case isFalse hflags =>
    split
    · rfl
    case isFalse hlive =>
      split
      · rfl
      case isFalse hadj =>
        exact absurd ⟨Bool.eq_false_iff.2 hflags, not_or.1 hlive, hadj⟩ h

/-! ## What the code computes -/

/-- A resident share is at most `OOM_SCORE_MAX`, wrapped or not. -/
theorem residentShare_le {task : SysTask} {totalPages : Nat} (h : InRange task totalPages) :
    residentShare task totalPages ≤ oomScoreMax := by
  have hmul : wrap32 (task.rssPages * oomScoreMax) ≤ oomScoreMax * totalPages := by
    calc wrap32 (task.rssPages * oomScoreMax)
        ≤ task.rssPages * oomScoreMax := Nat.mod_le _ _
      _ ≤ totalPages * oomScoreMax := Nat.mul_le_mul_right _ h.rssPages
      _ = oomScoreMax * totalPages := Nat.mul_comm _ _
  exact Nat.div_le_of_le_mul (by rwa [Nat.mul_comm totalPages])

/-- No step after the share wraps: the niceness step agrees with the exact one. -/
theorem niceScore_eq {score : Nat} {niceValue : Int} (hscore : score ≤ oomScoreMax)
    (hlow : -20 ≤ niceValue) (hhigh : niceValue ≤ 19) :
    (niceScore score niceValue : Int) = exactNice score niceValue ∧
      niceScore score niceValue ≤ 2 * oomScoreMax := by
  unfold oomScoreMax at hscore ⊢
  unfold niceScore exactNice
  split
  case isTrue hpos =>
    -- the product stays below 2^18, and the quotient is not negative
    obtain ⟨n, rfl⟩ := Int.eq_ofNat_of_zero_le (Int.le_of_lt hpos)
    have hn : n ≤ 19 := by omega
    have hmul : score * n ≤ 10000 * 19 := Nat.mul_le_mul hscore hn
    have htdiv : ((score : Int) * (n : Int)).tdiv 20 = (score * n / 20 : Nat) := by
      rw [← Nat.cast_mul]
      rfl
    rw [Int.toNat_natCast, wrap32_of_lt (n := score * n) (by omega), wrap32_of_lt (by omega),
      htdiv]
    omega
  case isFalse hpos =>
    split
    case isTrue hneg =>
      -- a negative niceness takes away at most the score itself
      obtain ⟨n, hn⟩ := Int.eq_ofNat_of_zero_le (a := -niceValue) (by omega)
      have hn20 : n ≤ 20 := by omega
      have hmul : score * n ≤ score * 20 := Nat.mul_le_mul_left _ hn20
      have htdiv : ((score : Int) * (n : Int)).tdiv 20 = (score * n / 20 : Nat) := by
        rw [← Nat.cast_mul]
        rfl
      rw [hn, Int.toNat_natCast, wrap32_of_lt (n := score * n) (by omega),
        sub32_of_le (by omega) (by omega), htdiv]
      omega
    case isFalse hneg => omega

/-- A small signed number is read back as itself. -/
theorem toInt32_of_small {i : Int} (hlow : -2 ^ 31 ≤ i) (hhigh : i < 2 ^ 31) : toInt32 i = i := by
  unfold toInt32
  rw [Int.bmod_eq_of_le] <;> omega

/-- In range, the score is the exact formula of the share the code has. -/
theorem sysCalculateBadness_of_inRange {task : SysTask} {totalPages : Nat}
    (h : InRange task totalPages) (hkill : Killable task) :
    sysCalculateBadness task totalPages =
      .ok (clampScore (exactAdjusted task (residentShare task totalPages))).toNat := by
  obtain ⟨hnice, hnice_le⟩ :=
    niceScore_eq (residentShare_le h) h.niceValue.1 h.niceValue.2
  have hscore : (unadjustedScore task totalPages : Int) =
        (if task.flags.testBit oomFlagCritical then
          (exactNice (residentShare task totalPages) task.niceValue).tdiv 4
        else exactNice (residentShare task totalPages) task.niceValue) ∧
      unadjustedScore task totalPages ≤ 2 * oomScoreMax := by
    unfold unadjustedScore
    rw [← hnice]
    split
    · exact ⟨rfl, (Nat.div_le_self _ 4).trans hnice_le⟩
    · exact ⟨rfl, hnice_le⟩
  have hadj := h.oomScoreAdj
  unfold oomScoreMax at hscore
  rw [sysCalculateBadness_of_killable hkill (Nat.pos_iff_ne_zero.1 h.totalPages_pos),
    toInt32_of_small (i := unadjustedScore task totalPages) (by omega) (by omega),
    toInt32_of_small (by omega) (by omega), hscore.1]
  rfl

/-! ## Where the product wraps -/

/-- The resident share over the integers. -/
def exactShare (task : SysTask) (totalPages : Nat) : Nat :=
  task.rssPages * oomScoreMax / totalPages

theorem exactBadness_eq (task : SysTask) (totalPages : Nat) :
    exactBadness task totalPages = clampScore (exactAdjusted task (exactShare task totalPages)) :=
  rfl

theorem residentShare_of_lt {task : SysTask} (h : task.rssPages * oomScoreMax < 2 ^ 32)
    (totalPages : Nat) : residentShare task totalPages = exactShare task totalPages := by
  unfold residentShare exactShare
  rw [wrap32_of_lt h]

/-- A wrap costs the share at least `4096`, as there are at most `2 ^ 20` pages. -/
theorem residentShare_add_le {task : SysTask} {totalPages : Nat} (h : InRange task totalPages)
    (hwrap : 2 ^ 32 ≤ task.rssPages * oomScoreMax) :
    residentShare task totalPages + 4096 ≤ exactShare task totalPages := by
  have hlost : wrap32 (task.rssPages * oomScoreMax) + 2 ^ 32 ≤ task.rssPages * oomScoreMax := by
    unfold wrap32
    omega
  have hpages : 4096 * totalPages ≤ 2 ^ 32 := Nat.mul_le_mul_left 4096 h.totalPages_le
  calc residentShare task totalPages + 4096
      = (wrap32 (task.rssPages * oomScoreMax) + 4096 * totalPages) / totalPages :=
        (Nat.add_mul_div_right _ _ h.totalPages_pos).symm
    _ ≤ exactShare task totalPages := Nat.div_le_div_right (by omega)

/-- The niceness step never turns a larger share into a smaller score, and only a niceness of `-20`
hides a gap. -/
theorem exactNice_mono {score score' niceValue : Int} (hscore : 0 ≤ score) (hle : score ≤ score')
    (hnice : -20 ≤ niceValue) :
    exactNice score niceValue ≤ exactNice score' niceValue ∧
      (niceValue ≠ -20 → score + 4096 ≤ score' →
        exactNice score niceValue + 4 ≤ exactNice score' niceValue) := by
  have hscore' : 0 ≤ score' := hscore.trans hle
  unfold exactNice
  split
  case isTrue hpos =>
    have hmul : score * niceValue ≤ score' * niceValue :=
      Int.mul_le_mul_of_nonneg_right hle (Int.le_of_lt hpos)
    have hnonneg : 0 ≤ score * niceValue := Int.mul_nonneg hscore (Int.le_of_lt hpos)
    rw [Int.tdiv_eq_ediv_of_nonneg hnonneg, Int.tdiv_eq_ediv_of_nonneg (hnonneg.trans hmul)]
    omega
  case isFalse hpos =>
    split
    case isTrue hneg =>
      -- the gap between the products is at most `20` times the gap between the shares
      have hgap : score' * -niceValue = score * -niceValue + (score' - score) * -niceValue := by
        rw [← Int.add_mul]
        congr 1
        omega
      have hgap_le : (score' - score) * -niceValue ≤ (score' - score) * 20 :=
        Int.mul_le_mul_of_nonneg_left (by omega) (by omega)
      have hnonneg : 0 ≤ score * -niceValue := Int.mul_nonneg hscore (by omega)
      have hgap_nonneg : 0 ≤ (score' - score) * -niceValue :=
        Int.mul_nonneg (by omega) (by omega)
      rw [hgap, Int.tdiv_eq_ediv_of_nonneg hnonneg,
        Int.tdiv_eq_ediv_of_nonneg (Int.add_nonneg hnonneg hgap_nonneg)]
      refine ⟨by omega, fun hne hfar => ?_⟩
      have hgap_le' : (score' - score) * -niceValue ≤ (score' - score) * 19 :=
        Int.mul_le_mul_of_nonneg_left (by omega) (by omega)
      omega
    case isFalse hneg =>
      exact ⟨hle, fun _ hfar => by omega⟩

/-- Nothing is left of the share at a niceness of `-20`. -/
theorem exactNice_lowest {score : Int} : exactNice score (-20) = 0 := by
  unfold exactNice
  rw [if_neg (by decide), if_pos (by decide), Int.neg_neg, Int.mul_tdiv_cancel _ (by decide),
    Int.sub_self]

theorem exactNice_nonneg {score niceValue : Int} (hscore : 0 ≤ score) (hnice : -20 ≤ niceValue) :
    0 ≤ exactNice score niceValue := by
  have hzero : exactNice 0 niceValue = 0 := by
    unfold exactNice
    simp
  rw [← hzero]
  exact (exactNice_mono Int.le_rfl hscore hnice).1

theorem exactAdjusted_mono (task : SysTask) {score score' : Int} (hscore : 0 ≤ score)
    (hle : score ≤ score') (hnice : -20 ≤ task.niceValue) :
    exactAdjusted task score ≤ exactAdjusted task score' ∧
      (task.niceValue ≠ -20 → score + 4096 ≤ score' →
        exactAdjusted task score < exactAdjusted task score') := by
  obtain ⟨hmono, hfar⟩ := exactNice_mono hscore hle hnice
  have hnonneg := exactNice_nonneg hscore hnice
  unfold exactAdjusted
  dsimp only
  split
  · rw [Int.tdiv_eq_ediv_of_nonneg hnonneg, Int.tdiv_eq_ediv_of_nonneg (hnonneg.trans hmono)]
    refine ⟨by omega, fun hne hgap => ?_⟩
    have := hfar hne hgap
    omega
  · refine ⟨by omega, fun hne hgap => ?_⟩
    have := hfar hne hgap
    omega

theorem clampScore_mono {score score' : Int} (h : score ≤ score') :
    clampScore score ≤ clampScore score' := by
  unfold clampScore
  omega

/-- Two scores are clamped to one only beyond the same end. -/
theorem clampScore_eq_iff {score score' : Int} (h : score < score') :
    clampScore score = clampScore score' ↔ score' ≤ 1 ∨ oomScoreMax ≤ score := by
  unfold clampScore oomScoreMax
  omega

/-! ## When the code computes the formula -/

/-- The score is that of the formula. -/
def MatchesExact (task : SysTask) (totalPages : Nat) : Prop :=
  ∃ score : Nat, sysCalculateBadness task totalPages = .ok score ∧
    (score : Int) = exactBadness task totalPages

/-- The product does not wrap, or what it loses is lost to the clamp or to the niceness anyway. -/
def WrapHarmless (task : SysTask) (totalPages : Nat) : Prop :=
  task.rssPages * oomScoreMax < 2 ^ 32 ∨ task.niceValue = -20 ∨
    exactAdjusted task (task.rssPages * oomScoreMax / totalPages : Nat) ≤ 1 ∨
    oomScoreMax ≤ exactAdjusted task (task.rssPages * oomScoreMax % 2 ^ 32 / totalPages : Nat)

theorem matchesExact_iff {task : SysTask} {totalPages : Nat} (h : InRange task totalPages)
    (hkill : Killable task) : MatchesExact task totalPages ↔ WrapHarmless task totalPages := by
  have hclamp : MatchesExact task totalPages ↔
      clampScore (exactAdjusted task (residentShare task totalPages)) =
        clampScore (exactAdjusted task (exactShare task totalPages)) := by
    have hpos := clampScore_pos (exactAdjusted task (residentShare task totalPages))
    unfold MatchesExact
    rw [sysCalculateBadness_of_inRange h hkill, exactBadness_eq]
    constructor
    · rintro ⟨score, hscore, hexact⟩
      cases hscore
      omega
    · intro heq
      exact ⟨_, rfl, by omega⟩
  rw [hclamp]
  unfold WrapHarmless
  by_cases hfits : task.rssPages * oomScoreMax < 2 ^ 32
  · rw [residentShare_of_lt hfits]
    exact ⟨fun _ => .inl hfits, fun _ => rfl⟩
  · have hgap := residentShare_add_le h (Nat.le_of_not_lt hfits)
    have hnonneg : (0 : Int) ≤ residentShare task totalPages := by omega
    have hle : (residentShare task totalPages : Int) ≤ exactShare task totalPages := by omega
    obtain ⟨_, hlt⟩ := exactAdjusted_mono task hnonneg hle h.niceValue.1
    by_cases hnice : task.niceValue = -20
    · -- neither share is left
      have hsame : exactAdjusted task (residentShare task totalPages) =
          exactAdjusted task (exactShare task totalPages) := by
        unfold exactAdjusted
        rw [hnice, exactNice_lowest, exactNice_lowest]
      exact ⟨fun _ => .inr (.inl hnice), fun _ => congrArg clampScore hsame⟩
    · rw [clampScore_eq_iff (hlt hnice (by omega))]
      simp only [hfits, hnice, false_or]
      rfl

/-- The task, all else equal, at another usage and adjustment. -/
def SysTask.withUsage (task : SysTask) (rssPages : Nat) (oomScoreAdj : Int) : SysTask :=
  { task with
    rssPages := rssPages
    oomScoreAdj := oomScoreAdj }

/-- All else equal, the formula grows with the resident pages and with the adjustment. -/
theorem exactBadness_mono {task : SysTask} {rssPages : Nat} {oomScoreAdj : Int}
    (hnice : -20 ≤ task.niceValue) (hrss : task.rssPages ≤ rssPages)
    (hadj : task.oomScoreAdj ≤ oomScoreAdj) (totalPages : Nat) :
    exactBadness task totalPages ≤
      exactBadness (task.withUsage rssPages oomScoreAdj) totalPages := by
  have hshare : exactShare task totalPages ≤ rssPages * oomScoreMax / totalPages :=
    Nat.div_le_div_right (Nat.mul_le_mul_right _ hrss)
  have hnonneg : (0 : Int) ≤ exactShare task totalPages := by omega
  have hle : (exactShare task totalPages : Int) ≤ (rssPages * oomScoreMax / totalPages : Nat) := by
    omega
  have hmono := (exactAdjusted_mono task hnonneg hle hnice).1
  rw [exactBadness_eq, exactBadness_eq]
  refine clampScore_mono (hmono.trans ?_)
  unfold exactAdjusted exactShare SysTask.withUsage
  dsimp only
  omega

/-- The score of a killable task is exact if and only if a wrap is harmless to it, and between two
such scores of a task it never decreases as the task takes more pages or is adjusted upwards. -/
theorem badness_exact_iff {task : SysTask} {totalPages : Nat} (h : InRange task totalPages)
    (hkill : Killable task) :
    (MatchesExact task totalPages ↔ WrapHarmless task totalPages) ∧
    (WrapHarmless task totalPages → ∀ (rssPages : Nat) (oomScoreAdj : Int),
      InRange (task.withUsage rssPages oomScoreAdj) totalPages →
      WrapHarmless (task.withUsage rssPages oomScoreAdj) totalPages →
      task.rssPages ≤ rssPages → task.oomScoreAdj ≤ oomScoreAdj →
      ∃ score score', sysCalculateBadness task totalPages = .ok score ∧
        sysCalculateBadness (task.withUsage rssPages oomScoreAdj) totalPages = .ok score' ∧
        score ≤ score') := by
  refine ⟨matchesExact_iff h hkill, ?_⟩
  intro hharmless rssPages oomScoreAdj hgrown hharmless' hrss hadj
  -- more pages or another adjustment do not make it unkillable: `-1000` is out of range
  have hkill' : Killable (task.withUsage rssPages oomScoreAdj) :=
    { flags := hkill.flags
      live := hkill.live
      oomScoreAdj := by
        have hlow := hgrown.oomScoreAdj.1
        unfold oomScoreAdjMin
        omega }
  obtain ⟨score, hscore, hexact⟩ := (matchesExact_iff h hkill).2 hharmless
  obtain ⟨score', hscore', hexact'⟩ := (matchesExact_iff hgrown hkill').2 hharmless'
  have hmono := exactBadness_mono h.niceValue.1 hrss hadj totalPages
  exact ⟨score, score', hscore, hscore', by omega⟩

/-- A task of ordinary niceness with `rssPages` resident pages. -/
def residentTask (rssPages : Nat) : SysTask :=
  { pid := 2
    ppid := 1
    state := .running
    flags := 0
    oomScoreAdj := 0
    rssPages := rssPages
    virtualPages := rssPages
    niceValue := 0 }

theorem residentTask_killable (rssPages : Nat) : Killable (residentTask rssPages) :=
  { flags := (by decide : Nat.testBit 0 1 = false)
    live := (by decide : TaskState.running ≠ .dead ∧ TaskState.running ≠ .zombie)
    oomScoreAdj := (by decide : (0 : Int) ≠ -1000) }

theorem residentTask_inRange {rssPages totalPages : Nat} (hpos : 0 < totalPages)
    (hle : totalPages ≤ 2 ^ 20) (hrss : rssPages ≤ totalPages) :
    InRange (residentTask rssPages) totalPages :=
  { totalPages_pos := hpos
    totalPages_le := hle
    rssPages := hrss
    niceValue := (by decide : (-20 : Int) ≤ 0 ∧ (0 : Int) ≤ 19)
    oomScoreAdj := (by decide : (-999 : Int) ≤ 0 ∧ (0 : Int) ≤ 1000) }

/-- A quarter of the memory scores a quarter of the maximum, and a half no less. -/
theorem badness_exact_iff_quarter :
    MatchesExact (residentTask 1024) 4096 ∧
      ∃ score score', sysCalculateBadness (residentTask 1024) 4096 = .ok score ∧
        sysCalculateBadness ((residentTask 1024).withUsage 2048 0) 4096 = .ok score' ∧
        score ≤ score' := by
  have hrange : InRange (residentTask 1024) 4096 :=
    residentTask_inRange (by decide) (by decide) (by decide)
  have hiff := badness_exact_iff hrange (residentTask_killable 1024)
  have hsmall : WrapHarmless (residentTask 1024) 4096 := .inl (by decide)
  exact ⟨hiff.1.2 hsmall, hiff.2 hsmall 2048 0
    ⟨by decide, by decide, by decide, by decide, by decide⟩ (.inl (by decide)) (by decide)
    (by decide)⟩

/-- Whoever holds every page of a machine of 1.6 GiB scores `1`, and `9999` with a page less. -/
theorem badness_exact_false :
    Killable (residentTask 429497) ∧ InRange (residentTask 429497) 429497 ∧
      ¬ MatchesExact (residentTask 429497) 429497 ∧
      exactBadness (residentTask 429497) 429497 = 10000 ∧
      sysCalculateBadness (residentTask 429497) 429497 = .ok 1 ∧
      sysCalculateBadness (residentTask 429496) 429497 = .ok 9999 := by
  have hexact : exactBadness (residentTask 429497) 429497 = 10000 := by decide +kernel
  have hall : sysCalculateBadness (residentTask 429497) 429497 = .ok 1 := by decide +kernel
  refine ⟨residentTask_killable _, residentTask_inRange (by decide) (by decide) (by decide), ?_,
    hexact, hall, by decide +kernel⟩
  rintro ⟨score, hscore, heq⟩
  rw [hall] at hscore
  cases hscore
  rw [hexact] at heq
  exact absurd heq (by decide)

end Oom
end WhitexKernel
