import WhitexKernel.Heap.Model
import WhitexKernel.Shell.Model

/-!
# Vm — the virtual machine (`vm.h`)

Addresses are counted from `memory_heap[0]`, as in `WhitexKernel.Heap.Model`, and taken modulo the
32 bits of a pointer.  The `VMState` is kept apart from the bytes of the memory; a fetch that comes
by its block finds it there (`Guest.byteAt`).

`execute_syscall` is a parameter: a function of its own environment and the registers, which does not
return when it is `none`.  It neither sees nor changes `pc` and the RAM.
-/

namespace WhitexKernel
namespace Vm

open Machine

/-! ## Data -/

structure VMState where
  registers : Nat → Nat
  pc : Nat
  running : Bool
  memSize : Nat
  ram : Nat

/-- `sizeof(VMState)` on the i386 target. -/
abbrev sizeofVMState : Nat := 148

/-- Byte `i` of a number, the least significant one first. -/
def byteOf (value i : Nat) : UInt8 := UInt8.ofNat (value / 256 ^ i)

/-- The bytes of the structure, in the order of its fields. -/
def VMState.byte (vm : VMState) (i : Nat) : UInt8 :=
  if i < 128 then byteOf (vm.registers (i / 8)) (i % 8)
  else if i < 136 then byteOf vm.pc (i - 128)
  else if i < 140 then byteOf (if vm.running then 1 else 0) (i - 136)
  else if i < 144 then byteOf vm.memSize (i - 140)
  else byteOf vm.ram (i - 144)

/-! ## Instructions -/

/-- The `uint64_t` at an address, from its bytes. -/
def instructionWord (bytes : List UInt8) : Nat :=
  bytes.foldr (fun b word => b.toNat + 256 * word) 0

/-- `(instruction >> 56) & 0xFF` -/
def opcode (instruction : Nat) : Nat := instruction / 2 ^ 56 % 256

/-- `(instruction >> 48) & 0xFF` -/
def arg1 (instruction : Nat) : Nat := instruction / 2 ^ 48 % 256

/-- `(uint32_t)(instruction & 0xFFFFFFFF)` -/
def arg2 (instruction : Nat) : Nat := instruction % 2 ^ 32

/-- A machine, the environment of its system calls, and the numbers of those it has made. -/
structure Execution (ε : Type) where
  vm : VMState
  env : ε
  syscalls : List Nat

namespace Execution

variable {ε : Type} (executeSyscall : ε → (Nat → Nat) → Nat → Option (ε × (Nat → Nat)))

/-- The `switch` of `vm_run`, after the fetch of `bytes` and the increment of `pc`. -/
def execute (e : Execution ε) (bytes : List UInt8) : Option (Execution ε) :=
  let instruction := instructionWord bytes
  let e := { e with vm := { e.vm with pc := (e.vm.pc + 8) % 2 ^ 64 } }
  if opcode instruction = 0xCC then
    (executeSyscall e.env e.vm.registers (arg1 instruction)).map fun r =>
      { e with
        vm := { e.vm with registers := r.2 }
        env := r.1
        syscalls := e.syscalls ++ [arg1 instruction] }
  else if opcode instruction = 0x01 then
    if arg1 instruction < 16 then
      some { e with vm := { e.vm with
        registers := Function.update e.vm.registers (arg1 instruction) (arg2 instruction) } }
    else some e
  else if opcode instruction = 0x0C then
    some { e with vm := { e.vm with pc := arg2 instruction } }
  else some { e with vm := { e.vm with running := false } }

/-- A round of the loop of `vm_run`, with `fetch` for the eight bytes at `pc`; none once it has
ended. -/
def round (fetch : Nat → List UInt8) (e : Execution ε) : Option (Execution ε) :=
  if e.vm.running then e.execute executeSyscall (fetch e.vm.pc) else none

end Execution

/-! ## The machine as a guest in memory -/

/-- The `VMState` at address `block`, and all other memory. -/
structure Guest (ε : Type) where
  execution : Execution ε
  memory : Heap.Memory
  block : Nat

namespace Guest

variable {ε : Type}

/-- The byte at an address. -/
def byteAt (s : Guest ε) (address : Nat) : UInt8 :=
  if s.block ≤ wrap32 address ∧ wrap32 address < s.block + sizeofVMState then
    s.execution.vm.byte (wrap32 address - s.block)
  else s.memory (wrap32 address)

/-- The eight bytes at `vm->ram + pc`. -/
def fetch (s : Guest ε) (pc : Nat) : List UInt8 :=
  (List.range 8).map fun i => s.byteAt (s.execution.vm.ram + (pc + i))

/-- A round of `vm_run`. -/
def step (executeSyscall : ε → (Nat → Nat) → Nat → Option (ε × (Nat → Nat))) (s : Guest ε) :
    Unit → Option (Guest ε)
  | () => (s.execution.round executeSyscall s.fetch).map fun e => { s with execution := e }

end Guest

/-- The memory and the machine after `vm_create`: its address and its fields; no result when a loop
of `whitex_malloc` never ends. -/
def vmCreate (m : Heap.Memory) (memSize : Nat) : Option (Heap.Memory × Option (Nat × VMState)) :=
  match Heap.whitexMalloc m sizeofVMState with
  | none => none
  | some (m, none) => some (m, none)
  | some (m, some block) =>
      match Heap.whitexMalloc m memSize with
      | none => none
      | some (m, none) => some (Heap.whitexFree m (some block), none)
      | some (m, some ram) =>
          some (m, some (block,
            { registers := fun _ => 0
              pc := 0
              running := false
              memSize := memSize
              ram := ram }))

/-- `vm_load_program` on a machine whose RAM is not part of its `VMState`. -/
def vmLoadProgram (m : Heap.Memory) (vm : VMState) (program : List UInt8) : Heap.Memory :=
  if program.length > vm.memSize then m
  else
    (List.range program.length).foldl
      (fun m i => Function.update m (wrap32 (vm.ram + i)) (program.getD i 0)) m

/-! ## System calls -/

open Shell

/-- `SYS_HELP` -/
def sysHelp : Nat := 1

/-- `SYS_RAM` -/
def sysRam : Nat := 18

/-- The call of a routine, which is counted. -/
def countedCall (routine : Routine) (s : ShellState) : ShellState :=
  { s.invoke (.plain routine) with
    env := { s.env with executionCycles := wrap32 (s.env.executionCycles + 1) } }

/-- `execute_syscall` of `Kernel.c`, called by a machine that there is. -/
def executeSyscall (s : ShellState) (syscallId : Nat) : Except Stop ShellState := do
  let s ← sysVerifyIntegrity s
  if s.env.memoryGuard = 0 ∨ s.env.isolationActive = 0 then
    if syscallId = sysHelp then return countedCall .help s
    else if syscallId = sysRam then return countedCall .ram s
    else return s
  else if s.env.faultDetected ≠ 0 then
    sysPanic "ERR_SYSCALL_VIOLATION_INVALID_CONTEXT".toList s
  else if syscallId = sysHelp then return countedCall .help s
  else if syscallId = sysRam then return countedCall .ram s
  else
    let s ← sysLogWrite 2 "INVALID_SYSCALL_EXECUTION_ATTEMPT".toList s
    return s.print "Invalid system call.\n".toList

/-- The system calls of this kernel leave the registers alone. -/
def kernelSyscall (s : ShellState) (registers : Nat → Nat) (syscallId : Nat) :
    Option (ShellState × (Nat → Nat)) :=
  (executeSyscall s syscallId).toOption.map fun s => (s, registers)

end Vm
end WhitexKernel
