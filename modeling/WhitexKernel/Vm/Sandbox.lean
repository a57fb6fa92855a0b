import Mathlib.Tactic.SplitIfs
import WhitexKernel.Lib.Transition
import WhitexKernel.Vm.Model

/-!
# Sandbox — where the virtual machine fetches its instructions

Nothing compares `pc` with `mem_size`.  A machine fetches inside its RAM as long as every instruction
leads it to a place where the next one fits (`fetchesInside_iff`).
-/

namespace WhitexKernel
namespace Vm

open Lib Machine Shell

/-! ## What a creation and a round do -/

theorem vmCreate_fields {m m' : Heap.Memory} {memSize block : Nat} {vm : VMState}
    (h : vmCreate m memSize = some (m', some (block, vm))) :
    vm = { registers := fun _ => 0, pc := 0, running := false, memSize := memSize, ram := vm.ram } := by
  unfold vmCreate at h
  split at h
  · cases h
  · cases h
  · split at h
    · cases h
    · cases h
    · cases h
      rfl

/-- The bytes that `vm_load_program` stores. -/
def loaded (memSize : Nat) (program : List UInt8) : List UInt8 :=
  if program.length > memSize then [] else program

/-- An address inside the `VMState` at `block`. -/
def InsideState (block address : Nat) : Prop :=
  block ≤ wrap32 address ∧ wrap32 address < block + sizeofVMState

/-- `vm_create` succeeds over the heap `m`, with a RAM that keeps the program apart from the
`VMState`. -/
structure Created (m : Heap.Memory) (memSize : UInt32) (program : List UInt8) (m' : Heap.Memory)
    (block : Nat) (vm : VMState) : Prop where
  created : vmCreate m memSize.toNat = some (m', some (block, vm))
  apart : ∀ i < (loaded memSize.toNat program).length, ¬ InsideState block (vm.ram + i)

namespace Guest

variable {ε : Type} {executeSyscall : ε → (Nat → Nat) → Nat → Option (ε × (Nat → Nat))}

/-- The fields of the machine. -/
abbrev vm (s : Guest ε) : VMState := s.execution.vm

/-- The instruction that the next round fetches. -/
def instruction (s : Guest ε) : Nat := instructionWord (s.fetch s.vm.pc)

/-- A machine that `vm_run` has been called for, after a program was loaded and the registers set. -/
def start (m : Heap.Memory) (block : Nat) (vm : VMState) (program : List UInt8)
    (registers : Nat → Nat) (env : ε) : Guest ε :=
  { execution :=
      { vm := { vm with registers := registers, running := true }
        env := env
        syscalls := [] }
    memory := vmLoadProgram m vm program
    block := block }

/-- The rounds there are, by the instruction: it goes on behind it, jumps, or stops. -/
inductive Round (s t : Guest ε) : Prop
  | next (hop : opcode s.instruction = 0xCC ∨ opcode s.instruction = 0x01)
      (hpc : t.vm.pc = (s.vm.pc + 8) % 2 ^ 64) (hrunning : t.vm.running = true)
  | jump (hop : opcode s.instruction = 0x0C) (hpc : t.vm.pc = arg2 s.instruction)
      (hrunning : t.vm.running = true)
  | stop (hop : opcode s.instruction ≠ 0xCC ∧ opcode s.instruction ≠ 0x01 ∧
        opcode s.instruction ≠ 0x0C)
      (hrunning : t.vm.running = false)

theorem step_round {s t : Guest ε} (h : s.step executeSyscall () = some t) :
    s.vm.running = true ∧ t.vm.memSize = s.vm.memSize ∧ Round s t := by
  unfold step Execution.round at h
  rcases Option.map_eq_some_iff.1 h with ⟨e, he, rfl⟩
  split at he
  case isFalse => cases he
  case isTrue hrunning =>
    refine ⟨hrunning, ?_⟩
    unfold Execution.execute at he
    simp only at he
    split_ifs at he with hsyscall hload hreg hjump
    · rcases Option.map_eq_some_iff.1 he with ⟨r, _, rfl⟩
      exact ⟨rfl, .next (.inl hsyscall) rfl hrunning⟩
    · cases he
      exact ⟨rfl, .next (.inr hload) rfl hrunning⟩
    · cases he
      exact ⟨rfl, .next (.inr hload) rfl hrunning⟩
    · cases he
      exact ⟨rfl, .jump hjump rfl hrunning⟩
    · cases he
      exact ⟨rfl, .stop ⟨hsyscall, hload, hjump⟩ rfl⟩

/-! ## Fetches -/

/-- The next fetch, if there is one, lies inside the RAM. -/
def FetchInside (s : Guest ε) : Prop := s.vm.running = true → s.vm.pc + 8 ≤ s.vm.memSize

instance : DecidablePred (FetchInside (ε := ε)) := fun s => by
  unfold FetchInside
  infer_instance

/-- The instruction does not lead the machine to a place in its RAM, or outside, where the next one
does not fit. -/
def StaysInside (s : Guest ε) (_ : Unit) : Prop :=
  if opcode s.instruction = 0xCC ∨ opcode s.instruction = 0x01 then s.vm.pc + 16 ≤ s.vm.memSize
  else if opcode s.instruction = 0x0C then arg2 s.instruction + 8 ≤ s.vm.memSize
  else True

theorem fetchInside_step_iff {s t : Guest ε} (hsize : s.vm.memSize < 2 ^ 32) (hs : s.FetchInside)
    (h : s.step executeSyscall () = some t) : t.FetchInside ↔ s.StaysInside () := by
  rcases step_round h with ⟨hrunning, hmem, hround⟩
  have hpc := hs hrunning
  unfold FetchInside StaysInside
  rw [hmem]
  cases hround with
  | next hop hnext hgoes =>
      rw [if_pos hop, hnext, Nat.mod_eq_of_lt (by omega)]
      exact ⟨fun hfetch => hfetch hgoes, fun hfits _ => hfits⟩
  | jump hop hnext hgoes =>
      have hother : ¬ (opcode s.instruction = 0xCC ∨ opcode s.instruction = 0x01) := by omega
      rw [if_neg hother, if_pos hop, hnext]
      exact ⟨fun hfetch => hfetch hgoes, fun hfits _ => hfits⟩
  | stop hop hstops =>
      rw [if_neg (by omega), if_neg hop.2.2, hstops]
      exact ⟨fun _ => trivial, fun _ hgoes => by cases hgoes⟩

/-- A machine from `vm_create` with any program and registers fetches inside its RAM exactly when an
instruction fits there, and every instruction that is executed leads to a place where the next one
fits. -/
theorem fetchesInside_iff
    (executeSyscall : ε → (Nat → Nat) → Nat → Option (ε × (Nat → Nat))) (m m' : Heap.Memory)
    (memSize : UInt32) (block : Nat) (vm : VMState) (program : List UInt8)
    (h : Created m memSize program m' block vm) (registers : Nat → Nat) (env : ε) :
    (∀ n, AllStates (step executeSyscall) FetchInside (start m' block vm program registers env)
        (List.replicate n ())) ↔
      8 ≤ memSize.toNat ∧
        ∀ n, AllSteps (step executeSyscall) StaysInside (start m' block vm program registers env)
          (List.replicate n ()) := by
  have hfields := vmCreate_fields h.created
  have hvm : vm.memSize = memSize.toNat ∧ vm.pc = 0 := by
    rw [hfields]
    exact ⟨rfl, rfl⟩
  -- the first instruction fits exactly when the memory has eight bytes
  have hhead : (start m' block vm program registers env).FetchInside ↔ 8 ≤ memSize.toNat := by
    change (true = true → vm.pc + 8 ≤ vm.memSize) ↔ _
    rw [hvm.1, hvm.2]
    exact ⟨fun hfetch => hfetch rfl, fun hsize _ => hsize⟩
  have hrun : ∀ n, (start m' block vm program registers env).FetchInside →
      (AllStates (step executeSyscall) FetchInside (start m' block vm program registers env)
          (List.replicate n ()) ↔
        AllSteps (step executeSyscall) StaysInside (start m' block vm program registers env)
          (List.replicate n ())) := by
    intro n hs
    -- `mem_size` never changes, and carries the induction over the rounds
    refine allStates_iff_allSteps (J := fun s : Guest ε => s.vm.memSize < 2 ^ 32) ?_ ?_ ?_ hs
    · intro s _ t hsize hstep
      rw [(step_round hstep).2.1]
      exact hsize
    · intro s _ t hsize hfetch hstep
      exact fetchInside_step_iff hsize hfetch hstep
    · change vm.memSize < 2 ^ 32
      rw [hvm.1]
      exact memSize.toNat_lt
  constructor
  · intro hall
    exact ⟨hhead.1 (hall 0).head, fun n => (hrun n (hall 0).head).1 (hall n)⟩
  · rintro ⟨hsize, hall⟩ n
    exact (hrun n (hhead.2 hsize)).2 (hall n)

/-- An instruction in memory. -/
def assemble (op reg value : Nat) : List UInt8 :=
  [byteOf value 0, byteOf value 1, byteOf value 2, byteOf value 3, 0, 0, UInt8.ofNat reg,
    UInt8.ofNat op]

/-- The heap of a machine that has printed its free RAM, and allocated nothing. -/
def emptyHeap : Heap.Memory := fun _ => 0

/-- It loads a register, jumps over an instruction and stops. -/
def wellBehaved : List UInt8 :=
  assemble 0x01 3 7 ++ assemble 0x0C 0 24 ++ assemble 0x0C 0 0xFFFFFFF8 ++ assemble 0x1F 0 0

theorem fetchesInside_iff_wellBehaved : ∃ m' block vm,
    Created emptyHeap 32 wellBehaved m' block vm ∧
      ((∀ n, AllStates (step kernelSyscall) FetchInside
          (start m' block vm wellBehaved (fun _ => 0) ShellState.initial) (List.replicate n ())) ↔
        8 ≤ (32 : UInt32).toNat ∧
          ∀ n, AllSteps (step kernelSyscall) StaysInside
            (start m' block vm wellBehaved (fun _ => 0) ShellState.initial)
            (List.replicate n ())) := by
  have hcreated : Created emptyHeap 32 wellBehaved _ _ _ := ⟨rfl, by unfold InsideState; decide⟩
  exact ⟨_, _, _, hcreated, fetchesInside_iff kernelSyscall emptyHeap _ 32 _ _ _ hcreated _ _⟩

/-- A program of one instruction, a jump to the end of the address space. -/
theorem fetchesInside_false :
    ¬ ∀ (m m' : Heap.Memory) (memSize : UInt32) (block : Nat) (vm : VMState) (program : List UInt8),
      Created m memSize program m' block vm → program.length ≤ memSize.toNat →
        ∀ (registers : Nat → Nat) (env : ShellState) (n : Nat),
          AllStates (step kernelSyscall) FetchInside (start m' block vm program registers env)
            (List.replicate n ()) := by
  intro h
  have hcreated : Created emptyHeap 64 (assemble 0x0C 0 0xFFFFFFF8) _ _ _ :=
    ⟨rfl, by unfold InsideState; decide⟩
  have hinside := h _ _ _ _ _ _ hcreated (by decide) (fun _ => 0) ShellState.initial 1
  have hnext := (hinside.2 _ rfl).head rfl
  revert hnext
  decide

end Guest

end Vm
end WhitexKernel
