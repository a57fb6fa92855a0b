import Mathlib.Data.List.MinMax
import WhitexKernel.Oom.Badness
import WhitexKernel.Oom.Victims

/-!
# Selection — the task the killer picks

`sys_select_bad_process` keeps the best score seen so far and replaces its candidate only by a task
that scores strictly more.  That is the first registered task of the highest badness: `argmax` of
the badness over the registered addresses, as long as anybody scores at all.
-/

namespace WhitexKernel
namespace Oom

open Machine

/-! ## The scan -/

/-- The badness of the record at `task`, in the machine's page total. -/
def badness (c : SysOomCtrl) (task : Nat) : Nat :=
  (sysCalculateBadness (c.tasks task) c.totalSysPages).toOption.getD 0

/-- The addresses in `task_array` that are not `NULL`, in the order of registration. -/
def registered (c : SysOomCtrl) : List Nat :=
  ((List.range c.activeTaskCount).map c.taskArray).filter (· ≠ 0)

theorem mem_registered {c : SysOomCtrl} {task : Nat} :
    task ∈ registered c ↔ (∃ i, i < c.activeTaskCount ∧ c.taskArray i = task) ∧ task ≠ 0 := by
  simp [registered]

/-- With pages to divide by, every task has a badness. -/
theorem sysCalculateBadness_eq_badness {c : SysOomCtrl} (htotal : c.totalSysPages ≠ 0)
    (task : Nat) : sysCalculateBadness (c.tasks task) c.totalSysPages = .ok (badness c task) := by
  have hok : ∃ score, sysCalculateBadness (c.tasks task) c.totalSysPages = .ok score := by
    by_cases hkill : Killable (c.tasks task)
    · exact ⟨_, sysCalculateBadness_of_killable hkill htotal⟩
    · exact ⟨0, sysCalculateBadness_of_not_killable hkill _⟩
  obtain ⟨score, hscore⟩ := hok
  unfold badness
  rw [hscore]
  rfl

theorem badness_pos_iff {c : SysOomCtrl} (htotal : c.totalSysPages ≠ 0) {task : Nat} :
    0 < badness c task ↔ Killable (c.tasks task) := by
  have hscore := sysCalculateBadness_eq_badness htotal task
  by_cases hkill : Killable (c.tasks task)
  · rw [sysCalculateBadness_of_killable hkill htotal, Except.ok.injEq] at hscore
    rw [← hscore]
    exact iff_of_true (clampScore_pos _) hkill
  · rw [sysCalculateBadness_of_not_killable hkill, Except.ok.injEq] at hscore
    rw [← hscore]
    exact iff_of_false (Nat.lt_irrefl 0) hkill

/-- `(chosen_victim, highest_score)` when `best` is the first highest of the tasks seen. -/
def scanned (c : SysOomCtrl) : Option Nat → Nat × Nat
  | none => (0, 0)
  | some best => if badness c best = 0 then (0, 0) else (best, badness c best)

theorem scanned_some (c : SysOomCtrl) (best : Nat) :
    scanned c (some best) = if badness c best = 0 then (0, 0) else (best, badness c best) := rfl

/-- The score to beat is the badness of the best, even where nobody has scored yet. -/
theorem scanned_snd (c : SysOomCtrl) (best : Nat) : (scanned c (some best)).2 = badness c best := by
  rw [scanned_some]
  split
  case isTrue hzero => exact hzero.symm
  case isFalse => rfl

/-- One round of the loop is one round of `argmax`. -/
theorem scanned_argAux (c : SysOomCtrl) (best : Option Nat) (task : Nat) :
    scanned c (List.argAux (fun b a => badness c a < badness c b) best task) =
      if badness c task > (scanned c best).2 then (task, badness c task) else scanned c best := by
  have hfirst : scanned c (some task) =
      if badness c task > 0 then (task, badness c task) else (0, 0) := by
    rw [scanned_some]
    by_cases hzero : badness c task = 0
    · rw [if_pos hzero, if_neg (by omega)]
    · rw [if_neg hzero, if_pos (by omega)]
  cases best with
  | none => exact hfirst
  | some best =>
      rw [scanned_snd]
      unfold List.argAux
      dsimp only
      by_cases hmore : badness c best < badness c task
      · rw [if_pos hmore, if_pos hmore, hfirst, if_pos (by omega)]
      · rw [if_neg hmore, if_neg hmore]

/-- The loop over some entries, when `best` is the first highest of those before. -/
theorem selectBadLoop_eq {c : SysOomCtrl} (htotal : c.totalSysPages ≠ 0) (is : List Nat)
    (best : Option Nat) :
    selectBadLoop c is (scanned c best) =
      .ok (scanned c (((is.map c.taskArray).filter (· ≠ 0)).foldl
        (List.argAux fun b a => badness c a < badness c b) best)) := by
  induction is generalizing best with
  | nil => rfl
  | cons i is ih =>
      unfold selectBadLoop
      dsimp only
      split
      case isTrue hnull =>
        rw [ih, List.map_cons, List.filter_cons_of_neg (by simpa using hnull)]
      case isFalse hnull =>
        rw [sysCalculateBadness_eq_badness htotal, List.map_cons,
          List.filter_cons_of_pos (by simpa using hnull), List.foldl_cons, ← ih, scanned_argAux]
        dsimp only
        split <;> rfl

theorem sysSelectBadProcess_eq {c : SysOomCtrl} (htotal : c.totalSysPages ≠ 0) :
    sysSelectBadProcess c = .ok (scanned c ((registered c).argmax (badness c))).1 := by
  unfold sysSelectBadProcess
  have hloop := selectBadLoop_eq htotal (List.range c.activeTaskCount) none
  rw [show scanned c none = (0, 0) from rfl] at hloop
  rw [hloop]
  rfl

/-! ## The kill -/

/-- A task the killer may kill. -/
structure Expendable (c : SysOomCtrl) (task : Nat) : Prop where
  registered : task ∈ registered c
  killable : Killable (c.tasks task)
  notCritical : (c.tasks task).flags.testBit oomFlagCritical = false
  notInit : (c.tasks task).pid ≠ 1

/-- When somebody can be killed, the killer picks the first of the highest badness.  It kills that
task if it may, and panics if it is `init` or critical. -/
theorem sysTriggerOomKiller_of_expendable {c : SysOomCtrl} (htotal : c.totalSysPages ≠ 0)
    (h : ∃ task, Expendable c task) :
    ∃ victim, (registered c).argmax (badness c) = some victim ∧
      ((Expendable c victim ∧ sysTriggerOomKiller c = .ok (sysSendSigkill c victim)) ∨
        (((c.tasks victim).pid = 1 ∨ (c.tasks victim).flags.testBit oomFlagCritical) ∧
          sysTriggerOomKiller c = .error (.panic (c.tasks victim).pid))) := by
  obtain ⟨task, htask⟩ := h
  cases hbest : (registered c).argmax (badness c) with
  | none =>
      rw [List.argmax_eq_none] at hbest
      exact absurd htask.registered (by simp [hbest])
  | some victim =>
      have hmem : victim ∈ registered c := List.argmax_mem hbest
      have hnull : victim ≠ 0 := (mem_registered.1 hmem).2
      -- the victim scores at least what the expendable task does
      have hpos : 0 < badness c victim :=
        Nat.lt_of_lt_of_le ((badness_pos_iff htotal).2 htask.killable)
          (List.le_of_mem_argmax htask.registered hbest)
      have hselect : sysSelectBadProcess c = .ok victim := by
        rw [sysSelectBadProcess_eq htotal, hbest, scanned_some,
          if_neg (Nat.pos_iff_ne_zero.1 hpos)]
      refine ⟨victim, rfl, ?_⟩
      unfold sysTriggerOomKiller
      rw [hselect]
      dsimp only
      rw [if_neg hnull]
      by_cases hguard : (c.tasks victim).pid = 1 ∨
          (c.tasks victim).flags.testBit oomFlagCritical = true
      · rw [if_pos hguard]
        exact .inr ⟨hguard, rfl⟩
      · rw [if_neg hguard]
        have hspared := not_or.1 hguard
        exact .inl ⟨⟨hmem, (badness_pos_iff htotal).1 hpos, Bool.eq_false_iff.2 hspared.2,
          hspared.1⟩, rfl⟩

/-- A machine of 4096 pages with two registered tasks, at the addresses `4` and `8`. -/
def pairCtrl (first second : SysTask) : SysOomCtrl :=
  { sysOomInit 0 4096 0 SysOomCtrl.zero with
    taskArray := fun i => if i = 0 then 4 else if i = 1 then 8 else 0
    activeTaskCount := 2
    tasks := fun a => if a = 4 then first else second }

/-- The second of them can be killed whatever the first one is. -/
theorem pairCtrl_expendable (first : SysTask) (rssPages : Nat) :
    Expendable (pairCtrl first (residentTask rssPages)) 8 :=
  { registered := mem_registered.2 ⟨⟨1, (by decide : 1 < 2), rfl⟩, by decide⟩
    killable := residentTask_killable rssPages
    notCritical := (by decide : Nat.testBit 0 0 = false)
    notInit := (by decide : 2 ≠ 1) }

/-- Two ordinary tasks. -/
theorem sysTriggerOomKiller_of_expendable_pair :
    let c := pairCtrl (residentTask 1024) (residentTask 2048)
    ∃ victim, (registered c).argmax (badness c) = some victim ∧
      ((Expendable c victim ∧ sysTriggerOomKiller c = .ok (sysSendSigkill c victim)) ∨
        (((c.tasks victim).pid = 1 ∨ (c.tasks victim).flags.testBit oomFlagCritical) ∧
          sysTriggerOomKiller c = .error (.panic (c.tasks victim).pid))) :=
  sysTriggerOomKiller_of_expendable (c := pairCtrl (residentTask 1024) (residentTask 2048))
    (by decide) ⟨8, pairCtrl_expendable _ 2048⟩

/-- A critical task that holds most of the memory makes the killer panic next to a task it may
kill. -/
theorem sysTriggerOomKiller_lastResort_false :
    ¬ ∀ c : SysOomCtrl, c.totalSysPages ≠ 0 → (∃ task, Expendable c task) →
      ∃ victim, Expendable c victim ∧ sysTriggerOomKiller c = .ok (sysSendSigkill c victim) := by
  intro hclaim
  let critical : SysTask := { residentTask 2048 with flags := 1 }
  obtain ⟨victim, _, hkill⟩ := hclaim (pairCtrl critical (residentTask 16)) (by decide)
    ⟨8, pairCtrl_expendable _ 16⟩
  have hselect : sysSelectBadProcess (pairCtrl critical (residentTask 16)) = .ok 4 := by
    decide +kernel
  obtain ⟨picked, hpicked, _, _⟩ := sysTriggerOomKiller_cases hkill
  rw [hselect] at hpicked
  cases hpicked
  unfold sysTriggerOomKiller at hkill
  rw [hselect] at hkill
  dsimp only at hkill
  rw [if_neg (by decide), if_pos (.inr (by decide))] at hkill
  cases hkill

end Oom
end WhitexKernel
