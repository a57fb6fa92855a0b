import WhitexKernel.Lib.Orbit
import WhitexKernel.Vm.Reproducible

/-!
# Halting — when a virtual machine stops, and what it does when it runs again

No instruction tests anything: where a machine goes is decided by its code alone, not by what its
registers hold or what its system calls do.

* `running_forever` — a machine that has not stopped in as many rounds as its code has places for an
  instruction never stops;
* `restart_repeats` — after `vm_reset` it goes the same way once more.
-/

namespace WhitexKernel
namespace Vm

open Lib Machine Shell

/-- Where the instruction at `pc` leads to, and none where it stops. -/
def nextPc (code : List UInt8) (pc : Nat) : Option Nat :=
  let instruction := instructionWord ((List.range 8).map fun i => code.getD (pc + i) 0)
  if opcode instruction = 0xCC ∨ opcode instruction = 0x01 then some ((pc + 8) % 2 ^ 64)
  else if opcode instruction = 0x0C then some (arg2 instruction)
  else none

/-- `vm_reset` -/
def vmReset (vm : VMState) : VMState :=
  { vm with
    pc := 0
    running := false
    registers := fun _ => 0 }

namespace Guest

variable {ε : Type} {executeSyscall : ε → (Nat → Nat) → Nat → Option (ε × (Nat → Nat))}
  {code : List UInt8} {s t : Guest ε}

/-! ## Rounds -/

theorem Holds.step (h : Holds code s) (hstep : s.step executeSyscall () = some t) :
    Holds code t := by
  have hrun : exec (Guest.step executeSyscall) s [()] = some t := by
    rw [exec_cons, hstep]
    rfl
  obtain ⟨hmemory, hblock, hram⟩ := exec_frame hrun
  refine ⟨fun i hi => ?_, fun i hi => ?_⟩
  · rw [hblock, hram]
    exact h.apart i hi
  · rw [hmemory, hram]
    exact h.stored i hi

/-- A round inside the code goes where the code leads. -/
theorem step_nextPc (h : Holds code s) (hfetch : FetchWithin code.length s)
    (hstep : s.step executeSyscall () = some t) :
    (t.vm.running = true ∧ nextPc code s.vm.pc = some t.vm.pc) ∨
      (t.vm.running = false ∧ nextPc code s.vm.pc = none) := by
  obtain ⟨hrunning, _, hround⟩ := step_round hstep
  have hinstruction : s.instruction =
      instructionWord ((List.range 8).map fun i => code.getD (s.vm.pc + i) 0) := by
    unfold instruction
    rw [h.fetch (hfetch hrunning)]
  unfold nextPc
  simp only [← hinstruction]
  cases hround with
  | next hop hpc hgoes => exact .inl ⟨hgoes, by rw [if_pos hop, hpc]⟩
  | jump hop hpc hgoes =>
      refine .inl ⟨hgoes, ?_⟩
      rw [if_neg (by omega), if_pos hop, hpc]
  | stop hop hstops =>
      refine .inr ⟨hstops, ?_⟩
      rw [if_neg (by omega), if_neg hop.2.2]

/-- A machine that runs on has been running before. -/
theorem running_of_exec {as : List Unit} (h : exec (step executeSyscall) s as = some t)
    (ht : t.vm.running = true) : s.vm.running = true := by
  cases as with
  | nil =>
      cases h
      exact ht
  | cons a as =>
      rw [exec_cons] at h
      obtain ⟨u, hstep, _⟩ := Option.bind_eq_some_iff.1 h
      exact (step_round hstep).1

/-! ## Machines that do not stop -/

/-- The rounds of a machine that runs on follow the code. -/
theorem orbit_of_exec {n : Nat} (h : Holds code s)
    (hwithin : AllStates (step executeSyscall) (FetchWithin code.length) s (List.replicate n ()))
    (hexec : exec (step executeSyscall) s (List.replicate n ()) = some t)
    (hrunning : t.vm.running = true) :
    ∀ i ≤ n, ∃ pc, pc + 8 ≤ code.length ∧ orbit (nextPc code) i s.vm.pc = some pc := by
  induction n generalizing s with
  | zero =>
      intro i hi
      cases hexec
      rw [Nat.le_zero.1 hi]
      exact ⟨_, hwithin.head hrunning, rfl⟩
  | succ n ih =>
      have hstart := running_of_exec hexec hrunning
      rw [List.replicate_succ, exec_cons] at hexec
      obtain ⟨u, hstep, hrest⟩ := Option.bind_eq_some_iff.1 hexec
      have hgoes := running_of_exec hrest hrunning
      intro i hi
      cases i with
      | zero => exact ⟨_, hwithin.head hstart, rfl⟩
      | succ i =>
          rcases step_nextPc h hwithin.head hstep with ⟨_, hnext⟩ | ⟨hstops, _⟩
          · obtain ⟨pc, hpc, horbit⟩ :=
              ih (h.step hstep) (hwithin.2 u hstep) hrest i (Nat.le_of_succ_le_succ hi)
            refine ⟨pc, hpc, ?_⟩
            rw [orbit, hnext]
            exact horbit
          · rw [hstops] at hgoes
            cases hgoes

/-- A machine whose code leads on without end, and never out of it, runs on. -/
theorem allStates_of_orbit (h : Holds code s) (hrunning : s.vm.running = true)
    (horbit : ∀ i, ∃ pc, pc + 8 ≤ code.length ∧ orbit (nextPc code) i s.vm.pc = some pc) (n : Nat) :
    AllStates (step executeSyscall) (fun u => u.vm.running = true ∧ u.vm.pc + 8 ≤ code.length) s
      (List.replicate n ()) := by
  have hinside : s.vm.pc + 8 ≤ code.length := by
    obtain ⟨pc, hpc, hzero⟩ := horbit 0
    rw [orbit, Option.some.injEq] at hzero
    rw [hzero]
    exact hpc
  induction n generalizing s with
  | zero => exact ⟨hrunning, hinside⟩
  | succ n ih =>
      refine ⟨⟨hrunning, hinside⟩, fun u hstep => ?_⟩
      have hshift : ∀ i, orbit (nextPc code) (i + 1) s.vm.pc =
          (nextPc code s.vm.pc).bind (orbit (nextPc code) i) := fun i => rfl
      rcases step_nextPc h (fun _ => hinside) hstep with ⟨hgoes, hnext⟩ | ⟨_, hnone⟩
      · have hrest : ∀ i, ∃ pc, pc + 8 ≤ code.length ∧ orbit (nextPc code) i u.vm.pc = some pc := by
          intro i
          obtain ⟨pc, hpc, hmore⟩ := horbit (i + 1)
          rw [hshift, hnext, Option.bind_some] at hmore
          exact ⟨pc, hpc, hmore⟩
        obtain ⟨pc, hpc, hzero⟩ := hrest 0
        rw [orbit, Option.some.injEq] at hzero
        exact ih (h.step hstep) hgoes hrest (by rw [hzero]; exact hpc)
      · obtain ⟨pc, _, hone⟩ := horbit 1
        rw [hshift, hnone, Option.bind_none] at hone
        cases hone

/-- A machine from `vm_create` that executes its program and is still running after as many rounds as
there are places for an instruction never stops and never leaves the program, however long its
system calls let it go on. -/
theorem running_forever {m m' : Heap.Memory} {memSize : UInt32} {program : List UInt8} {block : Nat}
    {vm : VMState} (h : Created m memSize program m' block vm) (registers : Nat → Nat) (env : ε)
    (hwithin : AllStates (step executeSyscall) (FetchWithin (loaded memSize.toNat program).length)
      (start m' block vm program registers env)
      (List.replicate ((loaded memSize.toNat program).length - 7) ()))
    (hexec : exec (step executeSyscall) (start m' block vm program registers env)
      (List.replicate ((loaded memSize.toNat program).length - 7) ()) = some t)
    (hrunning : t.vm.running = true) (n : Nat) :
    AllStates (step executeSyscall)
      (fun u => u.vm.running = true ∧ u.vm.pc + 8 ≤ (loaded memSize.toNat program).length)
      (start m' block vm program registers env) (List.replicate n ()) := by
  have hholds := holds_start h registers env
  have hearly := orbit_of_exec hholds hwithin hexec hrunning
  refine allStates_of_orbit hholds rfl (fun i => ?_) n
  -- the places are those where an instruction fits
  have hplaces : ∀ i ≤ (Finset.range ((loaded memSize.toNat program).length - 7)).card,
      ∃ pc ∈ Finset.range ((loaded memSize.toNat program).length - 7),
        orbit (nextPc (loaded memSize.toNat program)) i
          (start m' block vm program registers env).vm.pc = some pc := by
    intro i hi
    rw [Finset.card_range] at hi
    obtain ⟨pc, hpc, horbit⟩ := hearly i hi
    exact ⟨pc, Finset.mem_range.2 (by omega), horbit⟩
  obtain ⟨pc, hpc, horbit⟩ := orbit_inside hplaces i
  rw [Finset.mem_range] at hpc
  exact ⟨pc, by omega, horbit⟩

/-- A jump to itself. -/
def circle : List UInt8 := assemble 0x0C 0 0

theorem running_forever_circle : ∃ m' block vm, Created emptyHeap 8 circle m' block vm ∧ ∀ n,
    AllStates (step kernelSyscall)
      (fun u => u.vm.running = true ∧ u.vm.pc + 8 ≤ (loaded (8 : UInt32).toNat circle).length)
      (start m' block vm circle (fun _ => 0) ShellState.initial) (List.replicate n ()) := by
  have hcreated : Created emptyHeap 8 circle _ _ _ := ⟨rfl, by unfold InsideState; decide⟩
  refine ⟨_, _, _, hcreated, running_forever hcreated (fun _ => 0) ShellState.initial ?_ rfl rfl⟩
  refine ⟨fun _ => by decide, fun u hu => ?_⟩
  cases hu
  exact fun _ => by decide

/-! ## Machines that run again -/

/-- `vm_reset`, and `vm_run` once more. -/
def restart (s : Guest ε) : Guest ε :=
  { s with execution := { s.execution with vm := { vmReset s.vm with running := true } } }

/-- Two machines are at the same place of the same code, and have made the same system calls since
they had made `before` and `before'`. -/
structure InStep (code : List UInt8) (before before' : List Nat) (s : Guest ε) {ε' : Type}
    (t : Guest ε') : Prop where
  left : Holds code s
  right : Holds code t
  pc : s.vm.pc = t.vm.pc
  running : s.vm.running = t.vm.running
  syscalls : ∃ made, s.execution.syscalls = before ++ made ∧ t.execution.syscalls = before' ++ made

/-- What a round does, apart from the registers and the environment, depends on its instruction. -/
theorem step_control (hstep : s.step executeSyscall () = some t) :
    t.vm.pc = (if opcode s.instruction = 0x0C then arg2 s.instruction else (s.vm.pc + 8) % 2 ^ 64) ∧
      t.vm.running = decide (opcode s.instruction = 0xCC ∨ opcode s.instruction = 0x01 ∨
        opcode s.instruction = 0x0C) ∧
      t.execution.syscalls = s.execution.syscalls ++
        if opcode s.instruction = 0xCC then [arg1 s.instruction] else [] := by
  unfold Guest.step Execution.round at hstep
  rcases Option.map_eq_some_iff.1 hstep with ⟨e, he, rfl⟩
  split at he
  case isFalse => cases he
  case isTrue hrunning =>
    unfold Execution.execute at he
    unfold instruction
    simp only at he
    split_ifs at he with hsyscall hload hreg hjump
    · rcases Option.map_eq_some_iff.1 he with ⟨r, _, rfl⟩
      simp [hsyscall, hrunning]
    · cases he
      simp [hload, hrunning]
    · cases he
      simp [hload, hrunning]
    · cases he
      simp [hjump, hrunning]
    · cases he
      simp [hsyscall, hload, hjump]

/-- Whatever is in the registers and done by the system calls. -/
theorem InStep.step {ε' : Type}
    {executeSyscall' : ε' → (Nat → Nat) → Nat → Option (ε' × (Nat → Nat))} {before before' : List Nat}
    {s' t' : Guest ε'} (h : InStep code before before' s s') (hfetch : FetchWithin code.length s)
    (hstep : s.step executeSyscall () = some t) (hstep' : s'.step executeSyscall' () = some t') :
    InStep code before before' t t' := by
  have hrunning := (step_round hstep).1
  have hinside := hfetch hrunning
  have hfetch' : FetchWithin code.length s' := fun _ => by rw [← h.pc]; exact hinside
  have hinstruction : s.instruction = s'.instruction := by
    unfold instruction
    rw [h.left.fetch hinside, h.right.fetch (by rw [← h.pc]; exact hinside), h.pc]
  obtain ⟨hpc, hgoes, hcalls⟩ := step_control hstep
  obtain ⟨hpc', hgoes', hcalls'⟩ := step_control hstep'
  obtain ⟨made, hmade, hmade'⟩ := h.syscalls
  rw [hmade, List.append_assoc] at hcalls
  rw [hmade', ← hinstruction, List.append_assoc] at hcalls'
  exact
    { left := h.left.step hstep
      right := h.right.step hstep'
      pc := by rw [hpc, hpc', hinstruction, h.pc]
      running := by rw [hgoes, hgoes', hinstruction]
      syscalls := ⟨_, hcalls, hcalls'⟩ }

theorem inStep_exec {ε' : Type}
    {executeSyscall' : ε' → (Nat → Nat) → Nat → Option (ε' × (Nat → Nat))} {before before' : List Nat}
    {s' t' : Guest ε'} (h : InStep code before before' s s') {as : List Unit}
    (hwithin : AllStates (step executeSyscall) (FetchWithin code.length) s as)
    (hexec : exec (step executeSyscall) s as = some t)
    (hexec' : exec (step executeSyscall') s' as = some t') :
    InStep code before before' t t' := by
  induction as generalizing s s' with
  | nil =>
      cases hexec
      cases hexec'
      exact h
  | cons a as ih =>
      rw [exec_cons] at hexec hexec'
      obtain ⟨u, hstep, hrest⟩ := Option.bind_eq_some_iff.1 hexec
      obtain ⟨u', hstep', hrest'⟩ := Option.bind_eq_some_iff.1 hexec'
      exact ih (h.step hwithin.1 hstep hstep') (hwithin.2 u hstep) hrest hrest'

/-- A machine that is reset goes the same way again, from whatever registers and environment its
first run has left, and makes the same system calls in the same order. -/
theorem restart_repeats {m m' : Heap.Memory} {memSize : UInt32} {program : List UInt8} {block : Nat}
    {vm : VMState} (h : Created m memSize program m' block vm) (registers : Nat → Nat) (env : ε)
    {n : Nat} {u : Guest ε}
    (hwithin : AllStates (step executeSyscall) (FetchWithin (loaded memSize.toNat program).length)
      (start m' block vm program registers env) (List.replicate n ()))
    (hfirst : exec (step executeSyscall) (start m' block vm program registers env)
      (List.replicate n ()) = some t)
    (hsecond : exec (step executeSyscall) t.restart (List.replicate n ()) = some u) :
    u.vm.pc = t.vm.pc ∧ u.vm.running = t.vm.running ∧
      u.execution.syscalls = t.execution.syscalls ++ t.execution.syscalls := by
  have hholds := holds_start h registers env
  have hfields := vmCreate_fields h.created
  obtain ⟨hmemory, hblock, hram⟩ := exec_frame hfirst
  have hagain : Holds (loaded memSize.toNat program) t.restart := by
    refine ⟨fun i hi => ?_, fun i hi => ?_⟩
    · change ¬ InsideState t.block (t.vm.ram + i)
      rw [hblock, hram]
      exact hholds.apart i hi
    · change t.memory (wrap32 (t.vm.ram + i)) = _
      rw [hmemory, hram]
      exact hholds.stored i hi
  have hstart : InStep (loaded memSize.toNat program) [] t.execution.syscalls
      (start m' block vm program registers env) t.restart :=
    { left := hholds
      right := hagain
      pc := by
        change vm.pc = 0
        rw [hfields]
      running := rfl
      syscalls := ⟨[], rfl, (List.append_nil _).symm⟩ }
  have hend := inStep_exec hstart hwithin hfirst hsecond
  obtain ⟨made, hmade, hmade'⟩ := hend.syscalls
  rw [List.nil_append] at hmade
  exact ⟨hend.pc.symm, hend.running.symm, by rw [hmade', ← hmade]⟩

theorem restart_repeats_wellBehaved : ∃ m' block vm, Created emptyHeap 32 wellBehaved m' block vm ∧
    ∃ t u : Guest ShellState,
      exec (step kernelSyscall) (start m' block vm wellBehaved (fun _ => 0) ShellState.initial)
        (List.replicate 1 ()) = some t ∧
      exec (step kernelSyscall) t.restart (List.replicate 1 ()) = some u ∧
      u.vm.pc = t.vm.pc ∧ u.vm.running = t.vm.running ∧
      u.execution.syscalls = t.execution.syscalls ++ t.execution.syscalls := by
  have hcreated : Created emptyHeap 32 wellBehaved _ _ _ := ⟨rfl, by unfold InsideState; decide⟩
  refine ⟨_, _, _, hcreated, _, _, rfl, rfl, ?_⟩
  refine @restart_repeats ShellState kernelSyscall _ _ _ _ _ _ _ hcreated (fun _ => 0)
    ShellState.initial 1 _ ?_ rfl rfl
  refine ⟨fun _ => by decide, fun u hu => ?_⟩
  cases hu
  exact fun _ => by decide

end Guest

end Vm
end WhitexKernel
