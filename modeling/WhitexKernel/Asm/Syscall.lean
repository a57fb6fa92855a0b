import WhitexKernel.Asm.Model

/-!
# Syscall — `asm_syscall_entry` and the arguments of `execute_syscall`

The entry saves twelve words, gives the stack pointer below them as a third argument word, and takes
all of them back after the call.  By the calling convention the third word is the upper half of
`syscall_id`, and so the number that `execute_syscall` receives is `edx` only when the saved words
end at address 0 (`asmSyscallEntry_iff`).  The registers come back whatever the number is.
-/

namespace WhitexKernel
namespace Asm

open Lib FlatMemory I386

variable (callee : Cpu → Cpu) (next : Address)

/-! ## The saved words -/

/-- What is on the stack at the entry of `execute_syscall`, in the order of the pushes. -/
def syscallPushed (c : Cpu) (next : Address) : List (BitVec 32) :=
  [c.reg .eax, c.reg .ecx, c.reg .edx, c.reg .ebx, c.reg .esp - 16#32, c.reg .ebp, c.reg .esi,
    c.reg .edi, (c.seg .ds).setWidth 32, (c.seg .es).setWidth 32, (c.seg .fs).setWidth 32,
    (c.seg .gs).setWidth 32, c.reg .esp - 48#32, c.reg .edx, c.reg .ecx, next]

/-- The machine at the entry of `execute_syscall`. -/
def atExecuteSyscall (c : Cpu) : Cpu := (run callee syscallSave c).pushWord next

theorem atExecuteSyscall_stack (c : Cpu) :
    (atExecuteSyscall callee next c).reg .esp = c.reg .esp - 64#32 ∧
      (atExecuteSyscall callee next c).mem =
        pushAll c.mem (c.reg .esp) (syscallPushed c next) := by
  constructor
  · simp -implicitDefEqProofs [atExecuteSyscall, syscallSave, run_cons, exec, BitVec.sub_sub]
  · simp -implicitDefEqProofs [atExecuteSyscall, syscallSave, run_cons, exec, syscallPushed, pushAll,
      BitVec.sub_sub]

/-- A word at the entry of `execute_syscall`. -/
theorem word_atExecuteSyscall (c : Cpu) {k : Nat} {w : BitVec 32}
    (hw : (syscallPushed c next)[k]? = some w) :
    word (atExecuteSyscall callee next c).mem (c.reg .esp - BitVec.ofNat 32 (4 * (k + 1))) = w := by
  have hfits : 4 * (syscallPushed c next).length ≤ 2 ^ 32 := by
    rw [show (syscallPushed c next).length = 16 from rfl]
    decide
  obtain ⟨hk, rfl⟩ := List.getElem?_eq_some_iff.1 hw
  rw [(atExecuteSyscall_stack callee next c).2]
  exact word_pushAll hfits _ _ hk

theorem arg_atExecuteSyscall (c : Cpu) :
    arg (atExecuteSyscall callee next c) 0 = c.reg .ecx ∧
      arg (atExecuteSyscall callee next c) 1 = c.reg .edx ∧
      arg (atExecuteSyscall callee next c) 2 = c.reg .esp - 48#32 := by
  have harg : ∀ k < 3, ∀ w, (syscallPushed c next)[14 - k]? = some w →
      arg (atExecuteSyscall callee next c) k = w := by
    intro k hk w hw
    have haddress : (atExecuteSyscall callee next c).reg .esp + BitVec.ofNat 32 (4 + 4 * k) =
        c.reg .esp - BitVec.ofNat 32 (4 * (14 - k + 1)) := by
      rw [(atExecuteSyscall_stack callee next c).1]
      bv_omega
    unfold arg
    rw [haddress]
    exact word_atExecuteSyscall callee next c hw
  exact ⟨harg 0 (by decide) _ rfl, harg 1 (by decide) _ rfl, harg 2 (by decide) _ rfl⟩

variable {callee}

/-- A saved word after the call. -/
theorem word_returned (hcallee : Cdecl callee 3 48) (c : Cpu) {k : Nat} (hk : k < 12)
    {w : BitVec 32} (hw : (syscallPushed c next)[k]? = some w) :
    word (callee (atExecuteSyscall callee next c)).mem
      (c.reg .esp - BitVec.ofNat 32 (4 * (k + 1))) = w := by
  rw [← word_atExecuteSyscall callee next c hw]
  refine word_congr fun i hi => ?_
  have haddress : offset (c.reg .esp - BitVec.ofNat 32 (4 * (k + 1))) i =
      offset ((atExecuteSyscall callee next c).reg .esp) (4 + 4 * 3 + (44 - 4 * k + i)) := by
    rw [(atExecuteSyscall_stack callee next c).1]
    unfold offset
    bv_omega
  rw [haddress]
  exact hcallee.frame _ _ (by omega)

/-! ## The restored registers -/

theorem sub_add_four (x a : BitVec 32) : x - a + 4#32 = x - (a - 4#32) := by bv_omega

/-- `syscallRestore` takes all registers back from the words that `c` has saved. -/
theorem syscallRestore_reg {c d : Cpu} (hesp : d.reg .esp = c.reg .esp - 60#32)
    (hw : ∀ k < 12, ∀ w, (syscallPushed c next)[k]? = some w →
      word d.mem (c.reg .esp - BitVec.ofNat 32 (4 * (k + 1))) = w) :
    (run callee syscallRestore d).reg = c.reg ∧ (run callee syscallRestore d).seg = c.seg := by
  have hsaved : c.reg .esp - 60#32 + 12#32 = c.reg .esp - 48#32 := by bv_omega
  have heax := hw 0 (by decide) _ rfl
  have hecx := hw 1 (by decide) _ rfl
  have hedx := hw 2 (by decide) _ rfl
  have hebx := hw 3 (by decide) _ rfl
  have hstack := hw 4 (by decide) _ rfl
  have hebp := hw 5 (by decide) _ rfl
  have hesi := hw 6 (by decide) _ rfl
  have hedi := hw 7 (by decide) _ rfl
  have hds := hw 8 (by decide) _ rfl
  have hes := hw 9 (by decide) _ rfl
  have hfs := hw 10 (by decide) _ rfl
  have hgs := hw 11 (by decide) _ rfl
  constructor
  · funext r
    cases r <;>
      simp -implicitDefEqProofs [syscallRestore, run_cons, exec, Cpu.top, hesp, hsaved,
        sub_add_four, heax, hecx, hedx, hebx, hstack, hebp, hesi, hedi]
  · funext s
    cases s <;>
      simp -implicitDefEqProofs [syscallRestore, run_cons, exec, Cpu.top, hesp, hsaved,
        sub_add_four, hds, hes, hfs, hgs]

/-! ## The call -/

/-- The arguments at the entry of `execute_syscall`, and the registers at `sysexit`. -/
structure HandsOver (callee : Cpu → Cpu) (next : Address) (c : Cpu) : Prop where
  vm : arg (atExecuteSyscall callee next c) 0 = c.reg .ecx
  /-- Two words, the lower one first. -/
  syscallId : arg (atExecuteSyscall callee next c) 2 ++ arg (atExecuteSyscall callee next c) 1 =
    (c.reg .edx).setWidth 64
  reg : (run callee (asmSyscallEntry next) c).reg = c.reg
  seg : (run callee (asmSyscallEntry next) c).seg = c.seg

theorem asmSyscallEntry_restored (hcallee : Cdecl callee 3 48) (c : Cpu) :
    (run callee (asmSyscallEntry next) c).reg = c.reg ∧
      (run callee (asmSyscallEntry next) c).seg = c.seg := by
  have hrun : run callee (asmSyscallEntry next) c =
      run callee syscallRestore (callee (atExecuteSyscall callee next c)) := by
    rw [asmSyscallEntry, run_append, run_cons, exec, atExecuteSyscall]
  have hesp : (callee (atExecuteSyscall callee next c)).reg .esp = c.reg .esp - 60#32 := by
    rw [hcallee.esp, (atExecuteSyscall_stack callee next c).1]
    bv_omega
  rw [hrun]
  exact syscallRestore_reg next hesp fun k hk w hw => word_returned next hcallee c hk hw

/-- Two words have the value of the lower one only if the upper one is zero. -/
theorem append_eq_setWidth (high low : BitVec 32) : high ++ low = low.setWidth 64 ↔ high = 0 := by
  constructor
  · intro h
    refine BitVec.eq_of_getLsbD_eq fun i hi => ?_
    have hbit := congrArg (fun w => w.getLsbD (32 + i)) h
    have hupper : ¬ 32 + i < 32 := Nat.not_lt.2 (Nat.le_add_right 32 i)
    simp only [BitVec.getLsbD_append, if_neg hupper, Nat.add_sub_cancel_left,
      BitVec.getLsbD_setWidth] at hbit
    rw [hbit, BitVec.getLsbD_of_ge low _ (Nat.le_add_right 32 i), Bool.and_false,
      BitVec.ofNat_eq_ofNat, BitVec.getLsbD_zero]
  · rintro rfl
    exact (BitVec.setWidth_eq_append (by decide)).symm

/-- The arguments arrive only from the stack whose saved words end at address 0. -/
theorem asmSyscallEntry_iff (hcallee : Cdecl callee 3 48) (c : Cpu) :
    HandsOver callee next c ↔ c.reg .esp = 48 := by
  obtain ⟨hvm, hlow, hhigh⟩ := arg_atExecuteSyscall callee next c
  obtain ⟨hreg, hseg⟩ := asmSyscallEntry_restored next hcallee c
  have hzero : c.reg .esp - 48#32 = 0 ↔ c.reg .esp = 48 := sub_eq_zero
  rw [← hzero, ← append_eq_setWidth _ (c.reg .edx), ← hhigh]
  constructor
  · intro h
    rw [← h.syscallId, hlow]
  · intro h
    exact { vm := hvm, syscallId := by rw [hlow, h], reg := hreg, seg := hseg }

/-- A function that returns at once. -/
def returnsAtOnce (c : Cpu) : Cpu := exec id c .ret

theorem cdecl_returnsAtOnce : Cdecl returnsAtOnce 3 48 :=
  { esp := fun _ => rfl
    frame := fun _ _ _ => rfl }

/-- A machine whose stack pointer is `esp`. -/
def syscallWith (esp : BitVec 32) : Cpu where
  reg := Function.update (fun _ => 1) .esp esp
  seg := fun _ => 0x10
  eip := 0
  direction := false
  interrupts := true
  mem := fun _ => 0

theorem asmSyscallEntry_atReturnsAtOnce :
    HandsOver returnsAtOnce 0 (syscallWith 48) ↔ (syscallWith 48).reg .esp = 48 :=
  asmSyscallEntry_iff 0 cdecl_returnsAtOnce (syscallWith 48)

/-- System call 1 arrives as `0x1fd000000001`. -/
theorem asmSyscallEntry_drops : ¬ HandsOver returnsAtOnce 0 (syscallWith 0x2000) := by
  intro h
  have hid := h.syscallId
  revert hid
  decide

end Asm
end WhitexKernel
