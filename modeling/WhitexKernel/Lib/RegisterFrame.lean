import WhitexKernel.Lib.I386

/-!
# RegisterFrame — registers saved on a stack

`pushal` puts the eight general registers below the stack pointer, and `popal` takes them back.  Both
are written down push by push and pop by pop; what comes back with the flags above them is `restored`.
-/

namespace WhitexKernel
namespace Lib
namespace I386

open FlatMemory

/-- The general registers and the flags. -/
@[ext] structure Registers where
  reg : Reg → BitVec 32
  eflags : BitVec 32

namespace Registers

def set (r : Registers) (name : Reg) (v : BitVec 32) : Registers :=
  { r with reg := Function.update r.reg name v }

@[simp] theorem set_reg (r : Registers) (name name' : Reg) (v : BitVec 32) :
    (r.set name v).reg name' = if name' = name then v else r.reg name' :=
  Function.update_apply r.reg name v name'

@[simp] theorem set_eflags (r : Registers) (name : Reg) (v : BitVec 32) :
    (r.set name v).eflags = r.eflags := rfl

end Registers

/-! ## Instructions -/

/-- `push` of a word. -/
def pushWord (r : Registers) (m : Memory) (w : BitVec 32) : Registers × Memory :=
  (r.set .esp (r.reg .esp - 4), storeWord m (r.reg .esp - 4) w)

/-- The word at the top of the stack, and the stack without it. -/
def popWord (r : Registers) (m : Memory) : BitVec 32 × Registers :=
  (word m (r.reg .esp), r.set .esp (r.reg .esp + 4))

/-- The registers in the order of `pushal`; the stack pointer is that before the instruction. -/
def pushalOrder : List Reg := [.eax, .ecx, .edx, .ebx, .esp, .ebp, .esi, .edi]

def pushal (r : Registers) (m : Memory) : Registers × Memory :=
  pushalOrder.foldl (fun s name => pushWord s.1 s.2 (r.reg name)) (r, m)

/-- The word for the stack pointer is dropped. -/
def popal (r : Registers) (m : Memory) : Registers :=
  pushalOrder.reverse.foldl (fun r name =>
    if name = .esp then (popWord r m).2 else (popWord r m).2.set name (popWord r m).1) r

/-- The registers that come back from a frame at `esp`. -/
def restored (m : Memory) (esp : Address) : Registers where
  reg
    | .eax => word m (esp + 28#32)
    | .ecx => word m (esp + 24#32)
    | .edx => word m (esp + 20#32)
    | .ebx => word m (esp + 16#32)
    | .esp => esp + 36#32
    | .ebp => word m (esp + 8#32)
    | .esi => word m (esp + 4#32)
    | .edi => word m esp
  eflags := word m (esp + 32#32)

end I386
end Lib
end WhitexKernel
