import Mathlib.Data.List.Nodup
import WhitexKernel.Shell.Privilege

/-!
# Dispatch — which routine a command calls

`DispatchLaw` is what a table of commands is for: a command that is in it calls its routine once,
and any other command only gets a message.  The loop of `sys_execute_vector` runs over 40 entries,
two more than there are, so a command that is not in the table is looked up behind its end; and two
entries have their routine behind the pointer that is not called.
-/

namespace WhitexKernel
namespace Shell

open Lib Machine

/-! ## The law -/

/-- The routine of an entry, whichever of the two pointers has it. -/
def DispatchEntry.handler (entry : DispatchEntry) (args : List Char) : Option Invocation :=
  (entry.execPtr.map Invocation.plain).or (entry.execArgPtr.map (Invocation.withArgs · args))

/-- The privilege check of `sys_execute_vector` lets `entry` pass. -/
def Permitted (entry : DispatchEntry) (s : ShellState) : Prop :=
  ¬(entry.minPrivilege > 0 ∧ s.env.isRoot = 0 ∧ s.env.isolationActive ≠ 0)

/-- `cmdName` is the signature of an entry. -/
def Known (cmdName : List Char) : Prop :=
  ∃ entry ∈ dispatchTable, cmdName = entry.signature.toList

structure DispatchLaw (cmdName args : List Char) (s : ShellState) : Prop where
  inTable : ∀ i, sysExecuteVector cmdName args s ≠ .error (.outOfBounds i)
  unknown : ¬ Known cmdName →
    sysExecuteVector cmdName args s = .ok (s.print (unknownCommand cmdName))
  known : ∀ entry ∈ dispatchTable, cmdName = entry.signature.toList → Permitted entry s →
    ∃ call t, entry.handler args = some call ∧ sysExecuteVector cmdName args s = .ok t ∧
      t.invoked = s.invoked ++ [call]

/-- `sys_verify_integrity` lets the call go on. -/
def Intact (s : ShellState) : Prop := sysVerifyIntegrity s = .ok s

/-! ## The table -/

theorem signatures_nodup : (dispatchTable.map DispatchEntry.signature).Nodup := by
  decide +kernel

theorem minPrivilege_eq_zero : ∀ entry ∈ dispatchTable, entry.minPrivilege = 0 := by
  decide

theorem signature_ne_empty : ∀ entry ∈ dispatchTable, entry.signature.toList ≠ [] := by
  decide

theorem signature_length : ∀ entry ∈ dispatchTable, entry.signature.toList.length < sysCmdMax := by
  decide

/-- The two entries without a pointer where `requires_args` says it is. -/
def Miswired (entry : DispatchEntry) : Prop := entry.signature = "panic" ∨ entry.signature = "nano"

instance (entry : DispatchEntry) : Decidable (Miswired entry) :=
  inferInstanceAs (Decidable (_ ∨ _))

/-- An entry has one routine; `requires_args` says which pointer it is behind, except in two. -/
theorem pointers : ∀ entry ∈ dispatchTable,
    (entry.requiresArgs = 0 ∧ entry.execPtr.isSome ∧ entry.execArgPtr = none ∧ ¬ Miswired entry) ∨
    (entry.requiresArgs ≠ 0 ∧ entry.execPtr = none ∧ entry.execArgPtr.isSome ∧ ¬ Miswired entry) ∨
    (entry.requiresArgs = 0 ∧ entry.execPtr = none ∧ entry.execArgPtr.isSome ∧ Miswired entry) := by
  decide +kernel

/-- What is called is the entry's routine, or nothing. -/
theorem call_eq {entry : DispatchEntry} (hentry : entry ∈ dispatchTable) (args : List Char) :
    ∃ call, entry.handler args = some call ∧
      entry.call args = if Miswired entry then none else some call := by
  unfold DispatchEntry.handler DispatchEntry.call
  rcases pointers entry hentry with ⟨hargs, hptr, harg, hwired⟩ | ⟨hargs, hptr, harg, hwired⟩ |
    ⟨hargs, hptr, harg, hwired⟩
  · rcases Option.isSome_iff_exists.1 hptr with ⟨routine, hroutine⟩
    exact ⟨.plain routine, by simp [hroutine], by simp [hargs, hroutine, hwired]⟩
  · rcases Option.isSome_iff_exists.1 harg with ⟨routine, hroutine⟩
    exact ⟨.withArgs routine args, by simp [hptr, hroutine], by simp [hargs, hroutine, hwired]⟩
  · rcases Option.isSome_iff_exists.1 harg with ⟨routine, hroutine⟩
    exact ⟨.withArgs routine args, by simp [hptr, hroutine], by simp [hargs, hptr, hwired]⟩

/-- No two entries have the same signature. -/
theorem entry_unique {entry other : DispatchEntry} (hentry : entry ∈ dispatchTable)
    (hother : other ∈ dispatchTable) (h : entry.signature.toList = other.signature.toList) :
    entry = other :=
  List.inj_on_of_nodup_map signatures_nodup hentry hother (String.toList_inj.1 h)

/-! ## The loop -/

/-- The entry that the loop stops at. -/
def selects (cmdName : List Char) (entry : DispatchEntry) : Bool :=
  sysConstantTimeCompare cmdName entry.signature.toList sysCmdMax

theorem selects_iff {entry : DispatchEntry} (hentry : entry ∈ dispatchTable) (cmdName : List Char) :
    selects cmdName entry = true ↔ cmdName = entry.signature.toList :=
  sysConstantTimeCompare_eq_true (signature_length entry hentry)

/-- The loop looks for its entry in order, and then leaves the table. -/
theorem executeLoop_eq (cmdName args : List Char) (s : ShellState) {k m : Nat}
    (hk : k ≤ dispatchTable.length) (hm : dispatchTable.length < k + m) :
    executeLoop cmdName args s (List.range' k m) =
      match (dispatchTable.drop k).find? (selects cmdName) with
      | some entry => executeEntry entry cmdName args s
      | none => .error (.outOfBounds dispatchTable.length) := by
  induction m generalizing k with
  | zero => omega
  | succ m ih =>
      rw [List.range'_succ, executeLoop]
      rcases Nat.lt_or_eq_of_le hk with hlt | rfl
      · -- one more entry
        rw [List.getElem?_eq_getElem hlt, List.drop_eq_getElem_cons hlt, List.find?_cons]
        dsimp only
        by_cases hsel : selects cmdName dispatchTable[k] = true
        · rw [hsel]
          exact if_pos hsel
        · rw [Bool.not_eq_true] at hsel
          rw [hsel, ← ih hlt (by omega)]
          exact if_neg (by simpa [selects] using hsel)
      · -- the first index behind the table
        rw [List.getElem?_eq_none (Nat.le_refl _), List.drop_length, List.find?_nil]

theorem executeLoop_table (cmdName args : List Char) (s : ShellState) :
    executeLoop cmdName args s (List.range dispatchTableSize) =
      match dispatchTable.find? (selects cmdName) with
      | some entry => executeEntry entry cmdName args s
      | none => .error (.outOfBounds dispatchTable.length) := by
  rw [List.range_eq_range']
  exact executeLoop_eq cmdName args s (Nat.zero_le _) (by decide)

theorem find_known {entry : DispatchEntry} (hentry : entry ∈ dispatchTable) :
    dispatchTable.find? (selects entry.signature.toList) = some entry := by
  cases hfind : dispatchTable.find? (selects entry.signature.toList) with
  | none =>
      have hnot := List.find?_eq_none.1 hfind entry hentry
      exact absurd ((selects_iff hentry _).2 rfl) hnot
  | some other =>
      have hother : other ∈ dispatchTable := List.mem_of_find?_eq_some hfind
      have hsel : selects entry.signature.toList other = true := List.find?_some hfind
      rw [entry_unique hentry hother ((selects_iff hother _).1 hsel)]

theorem find_unknown {cmdName : List Char} (h : ¬ Known cmdName) :
    dispatchTable.find? (selects cmdName) = none := by
  refine List.find?_eq_none.2 fun entry hentry hsel => ?_
  exact h ⟨entry, hentry, (selects_iff hentry _).1 hsel⟩

/-! ## One call -/

/-- A panic does not return. -/
theorem sysPanic_halts (errorCode : List Char) (s : ShellState) :
    ∃ t, sysPanic errorCode s = .error (.halted t) := by
  unfold sysPanic sysLogWrite
  dsimp only
  split
  · exact ⟨_, rfl⟩
  · exact ⟨_, rfl⟩

theorem verify_cases (s : ShellState) :
    (Intact s ∧ s.sysLog.structuresCanary = s.globalCanary) ∨
      ¬ Intact s ∧ ∃ t, sysVerifyIntegrity s = .error (.halted t) := by
  -- every check that fails ends in `sys_panic`, which never returns
  have hpanic : ∀ {code : List Char}, sysVerifyIntegrity s = sysPanic code s →
      ¬ Intact s ∧ ∃ t, sysVerifyIntegrity s = .error (.halted t) := by
    intro code hcode
    rcases sysPanic_halts code s with ⟨t, ht⟩
    have hstopped := hcode.trans ht
    refine ⟨fun hintact => ?_, t, hstopped⟩
    rw [Intact, hstopped] at hintact
    cases hintact
  by_cases hcanary : s.env.structuralCanary ≠ s.globalCanary ∨
      s.sysLog.structuresCanary ≠ s.globalCanary
  · exact .inr (hpanic (if_pos hcanary))
  by_cases hguard : s.env.memoryGuard ≠ sysStackGuard ∧ s.env.isolationActive ≠ 0
  · exact .inr (hpanic ((if_neg hcanary).trans (if_pos hguard)))
  by_cases hzone : s.env.kernelZone.baseAddress ≠ 0x00000000 ∨
      s.env.kernelZone.limit ≠ 0x000FFFFF
  · exact .inr (hpanic ((if_neg hcanary).trans ((if_neg hguard).trans (if_pos hzone))))
  · refine .inl ⟨(if_neg hcanary).trans ((if_neg hguard).trans (if_neg hzone)), ?_⟩
    by_contra hne
    exact hcanary (.inr hne)

/-- The state when the routine of an entry is to be called. -/
def counted (cmdName : List Char) (s : ShellState) : ShellState :=
  { s with env := { s.env with executionCycles := wrap32 (s.env.executionCycles + 1) } }.logged 0
    cmdName

@[simp] theorem invoked_counted (cmdName : List Char) (s : ShellState) :
    (counted cmdName s).invoked = s.invoked := rfl

/-- An entry that is found makes its call, if it has one to make. -/
theorem executeEntry_eq {entry : DispatchEntry} (hentry : entry ∈ dispatchTable) {s : ShellState}
    (hcanary : s.sysLog.structuresCanary = s.globalCanary) (cmdName args : List Char) :
    executeEntry entry cmdName args s = .ok (match entry.call args with
      | some call => (counted cmdName s).invoke call
      | none => counted cmdName s) := by
  have hprivilege : ¬(entry.minPrivilege > 0 ∧ s.env.isRoot = 0 ∧ s.env.isolationActive ≠ 0) := by
    simp [minPrivilege_eq_zero entry hentry]
  unfold executeEntry
  rw [if_neg hprivilege]
  dsimp only
  rw [sysLogWrite_ok (by simpa using hcanary), Outcome.ok_bind]
  cases entry.call args with
  | none => rfl
  | some call => rfl

section Calls

variable {cmdName args : List Char} {s : ShellState}

theorem sysExecuteVector_intact (h : Intact s) (hname : cmdName ≠ []) :
    sysExecuteVector cmdName args s =
      match dispatchTable.find? (selects cmdName) with
      | some entry => executeEntry entry cmdName args s
      | none => .error (.outOfBounds dispatchTable.length) := by
  unfold sysExecuteVector
  rw [show sysVerifyIntegrity s = .ok s from h, Outcome.ok_bind, if_neg hname]
  exact executeLoop_table cmdName args s

theorem sysExecuteVector_unknown (h : Intact s) (hname : cmdName ≠ []) (hunknown : ¬ Known cmdName) :
    sysExecuteVector cmdName args s = .error (.outOfBounds dispatchTable.length) := by
  rw [sysExecuteVector_intact h hname, find_unknown hunknown]

theorem sysExecuteVector_known (h : Intact s) {entry : DispatchEntry}
    (hentry : entry ∈ dispatchTable) (hname : cmdName = entry.signature.toList) :
    sysExecuteVector cmdName args s = .ok (match entry.call args with
      | some call => (counted cmdName s).invoke call
      | none => counted cmdName s) := by
  have hcanary : s.sysLog.structuresCanary = s.globalCanary := by
    rcases verify_cases s with ⟨_, hcanary⟩ | ⟨hnot, _⟩
    · exact hcanary
    · exact absurd h hnot
  have hne : cmdName ≠ [] := hname ▸ signature_ne_empty entry hentry
  rw [sysExecuteVector_intact h hne, hname, find_known hentry]
  exact executeEntry_eq hentry hcanary _ _

theorem sysExecuteVector_empty (h : Intact s) : sysExecuteVector [] args s = .ok s := by
  unfold sysExecuteVector
  rw [show sysVerifyIntegrity s = .ok s from h]
  rfl

theorem sysExecuteVector_halted {t : ShellState} (h : sysVerifyIntegrity s = .error (.halted t)) :
    sysExecuteVector cmdName args s = .error (.halted t) := by
  unfold sysExecuteVector
  rw [h]
  rfl

theorem permitted {entry : DispatchEntry} (hentry : entry ∈ dispatchTable) (s : ShellState) :
    Permitted entry s := by
  simp [Permitted, minPrivilege_eq_zero entry hentry]

/-- The law needs a state that passes the integrity check. -/
theorem DispatchLaw.intact (h : DispatchLaw cmdName args s) : Intact s := by
  rcases verify_cases s with ⟨hintact, _⟩ | ⟨_, t, ht⟩
  · exact hintact
  · exfalso
    have hhalted := @sysExecuteVector_halted cmdName args s t ht
    by_cases hknown : Known cmdName
    · rcases hknown with ⟨entry, hentry, hname⟩
      rcases h.known entry hentry hname (permitted hentry s) with ⟨_, u, _, hreturn, _⟩
      rw [hhalted] at hreturn
      cases hreturn
    · have hreturn := h.unknown hknown
      rw [hhalted] at hreturn
      cases hreturn

end Calls

theorem miswired_iff {entry : DispatchEntry} :
    Miswired entry ↔
      entry.signature.toList = "panic".toList ∨ entry.signature.toList = "nano".toList := by
  simp only [Miswired, String.toList_inj]

/-- The law asks for a command of the table. -/
theorem DispatchLaw.known_name {cmdName args : List Char} {s : ShellState}
    (h : DispatchLaw cmdName args s) : Known cmdName := by
  refine Classical.byContradiction fun hunknown => ?_
  by_cases hempty : cmdName = []
  · -- the empty command gets no message
    subst hempty
    have hreturn := h.unknown hunknown
    rw [sysExecuteVector_empty h.intact] at hreturn
    have hprinted := congrArg ShellState.printed (Except.ok.inj hreturn)
    have hnil : unknownCommand [] = [] := List.append_right_eq_self.1 hprinted.symm
    exact absurd hnil (by decide)
  · exact h.inTable _ (sysExecuteVector_unknown h.intact hempty hunknown)

/-- A call does what a dispatcher should exactly when the integrity check passes and the command is
in the table and not one of the two whose routine is behind the other pointer. -/
theorem dispatchLaw_iff (cmdName args : List Char) (s : ShellState) :
    DispatchLaw cmdName args s ↔
      Intact s ∧ Known cmdName ∧ cmdName ≠ "panic".toList ∧ cmdName ≠ "nano".toList := by
  constructor
  · intro h
    rcases h.known_name with ⟨entry, hentry, hname⟩
    rcases h.known entry hentry hname (permitted hentry s) with ⟨call, t, _, hreturn, hinvoked⟩
    have hwired : ¬ Miswired entry := by
      intro hmiswired
      rcases call_eq hentry args with ⟨_, _, hcall⟩
      rw [sysExecuteVector_known h.intact hentry hname, hcall, if_pos hmiswired] at hreturn
      -- nothing was called
      rw [← Except.ok.inj hreturn] at hinvoked
      simp at hinvoked
    rw [miswired_iff, ← hname, not_or] at hwired
    exact ⟨h.intact, ⟨entry, hentry, hname⟩, hwired⟩
  · rintro ⟨hintact, hknown, hpanic, hnano⟩
    refine ⟨fun i hi => ?_, fun hunknown => absurd hknown hunknown, ?_⟩
    · rcases hknown with ⟨entry, hentry, hname⟩
      rw [sysExecuteVector_known hintact hentry hname] at hi
      cases hi
    · intro entry hentry hname _
      have hwired : ¬ Miswired entry := by
        rw [miswired_iff, ← hname, not_or]
        exact ⟨hpanic, hnano⟩
      rcases call_eq hentry args with ⟨call, hhandler, hcall⟩
      refine ⟨call, (counted cmdName s).invoke call, hhandler, ?_, rfl⟩
      rw [sysExecuteVector_known hintact hentry hname, hcall, if_neg hwired]

/-- After the bootstrap, a mistyped command is looked up behind the end of the table. -/
theorem dispatchLaw_false :
    ¬ ∀ cmdName args : List Char, DispatchLaw cmdName args (bootstrapped ShellState.initial) := by
  intro h
  have hlaw := h ['f', 'o', 'o'] []
  have hunknown : ¬ Known ['f', 'o', 'o'] := by
    unfold Known
    decide +kernel
  exact hlaw.inTable _ (sysExecuteVector_unknown hlaw.intact (by decide) hunknown)

end Shell
end WhitexKernel
