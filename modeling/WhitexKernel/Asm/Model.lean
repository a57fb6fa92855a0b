import WhitexKernel.Lib.I386

/-!
# Asm — the assembly core (`multi.asm`)

The routines are written down instruction by instruction.  Next to them stand the C loops that copy
and fill memory byte by byte.
-/

namespace WhitexKernel
namespace Asm

open Lib FlatMemory I386

/-! ## Routines -/

def asmFastMemcpy : List Instr :=
  [.push .ebp, .mov .ebp .esp, .push .edi, .push .esi, .load .edi .ebp 8, .load .esi .ebp 12,
    .load .ecx .ebp 16, .mov .edx .ecx, .shr .ecx 2, .cld, .repMovs .dword, .mov .ecx .edx,
    .and .ecx 3, .repMovs .byte, .pop .esi, .pop .edi, .pop .ebp, .ret]

def asmFastMemset : List Instr :=
  [.push .ebp, .mov .ebp .esp, .push .edi, .load .edi .ebp 8, .load .eax .ebp 12,
    .load .ecx .ebp 16, .mov .edx .ecx, .shr .ecx 2, .cld, .repStos .dword, .mov .ecx .edx,
    .and .ecx 3, .repStos .byte, .pop .edi, .pop .ebp, .ret]

/-- `asm_syscall_entry` up to its call. -/
def syscallSave : List Instr :=
  [.cli, .push .eax, .push .ecx, .push .edx, .push .ebx, .push .esp, .push .ebp, .push .esi,
    .push .edi, .pushSeg .ds, .pushSeg .es, .pushSeg .fs, .pushSeg .gs, .movAx 0x10, .movSeg .ds,
    .movSeg .es, .movSeg .fs, .movSeg .gs, .mov .eax .esp, .push .eax, .push .edx, .push .ecx]

/-- The rest of it, up to `sysexit`. -/
def syscallRestore : List Instr :=
  [.add .esp 12, .popSeg .gs, .popSeg .fs, .popSeg .es, .popSeg .ds, .pop .edi, .pop .esi,
    .pop .ebp, .pop .esp, .pop .ebx, .pop .edx, .pop .ecx, .pop .eax, .sti]

/-- The call of `execute_syscall` returns to `next`. -/
def asmSyscallEntry (next : Address) : List Instr := syscallSave ++ .call next :: syscallRestore

/-! ## Calls from C -/

/-- Argument word `k` of a function, at its entry: above the return address. -/
def arg (c : Cpu) (k : Nat) : BitVec 32 := word c.mem (c.reg .esp + BitVec.ofNat 32 (4 + 4 * k))

/-- The `n` bytes below the stack pointer, which hold nothing at the entry of a function. -/
def BelowStack (c : Cpu) (n : Nat) (a : Address) : Prop :=
  Within (c.reg .esp - BitVec.ofNat 32 n) n a

instance (c : Cpu) (n : Nat) (a : Address) : Decidable (BelowStack c n a) := by
  unfold BelowStack
  infer_instance

/-! ## Byte loops -/

/-- `while (len--) *dst++ = val` -/
def wxMemset : Memory → Address → BitVec 8 → Nat → Memory
  | m, _, _, 0 => m
  | m, dst, val, len + 1 => wxMemset (Function.update m dst val) (dst + 1) val len

/-- `while (len--) *dst++ = *s++` -/
def wxMemcpy : Memory → Address → Address → Nat → Memory
  | m, _, _, 0 => m
  | m, dst, s, len + 1 => wxMemcpy (Function.update m dst (m s)) (dst + 1) (s + 1) len

def schedulerMemorySet (m : Memory) (dest : Address) (val : BitVec 32) (n : Nat) : Memory :=
  (List.range n).foldl (fun m i => Function.update m (offset dest i) (val.setWidth 8)) m

def schedulerMemoryCopy (m : Memory) (dest src : Address) (n : Nat) : Memory :=
  (List.range n).foldl (fun m i => Function.update m (offset dest i) (m (offset src i))) m

/-! ## What the loops write -/

theorem update_eq_write (m : Memory) (a : Address) (v : BitVec 8) :
    Function.update m a v = write m a 1 fun _ => v := by
  funext x
  have hzero : Within a 1 x ↔ x = a := by
    unfold Within
    rw [Nat.lt_one_iff, ← BitVec.toNat_zero (w := 32), BitVec.toNat_inj]
    exact sub_eq_zero
  rw [Function.update_apply]
  unfold write
  by_cases hx : x = a
  · rw [if_pos hx, if_pos (hzero.2 hx)]
  · rw [if_neg hx, if_neg fun h => hx (hzero.1 h)]

/-- The region that is left behind its first byte. -/
theorem offset_one (a : Address) : a + 1 = offset a 1 := rfl

theorem wxMemset_eq {len : Nat} (hlen : len ≤ 2 ^ 32) (m : Memory) (dst : Address)
    (val : BitVec 8) : wxMemset m dst val len = write m dst len fun _ => val := by
  induction len generalizing m dst with
  | zero => exact (write_zero m dst _).symm
  | succ len ih =>
      have hsum : 1 + len = len + 1 := Nat.add_comm 1 len
      rw [wxMemset, ih (by omega), update_eq_write, offset_one, write_write (by omega), hsum]
      exact write_congr fun i _ => ite_self val

theorem wxMemcpy_eq {len : Nat} (hlen : len ≤ 2 ^ 32) (m : Memory) {dst s : Address}
    (hapart : Apart s len dst len) :
    wxMemcpy m dst s len = write m dst len fun i => m (offset s i) := by
  induction len generalizing m dst s with
  | zero => exact (write_zero m dst _).symm
  | succ len ih =>
      have hsum : 1 + len = len + 1 := Nat.add_comm 1 len
      have htail : Apart (offset s 1) len (offset dst 1) len := by
        refine (hapart.offset_left (by decide) (by omega)).symm.offset_left ?_ ?_ |>.symm
        · decide
        · omega
      rw [wxMemcpy, offset_one, offset_one, ih (by omega) _ htail, update_eq_write,
        write_write (by omega), hsum]
      refine write_congr fun i hi => ?_
      split
      case isTrue hfirst =>
        rw [Nat.lt_one_iff.1 hfirst, offset_zero]
      case isFalse hmore =>
        have hindex : 1 + (i - 1) = i := by omega
        rw [offset_offset, hindex]
        refine write_of_not_within fun hx => ?_
        refine hapart _ ((within_offset (by omega)).2 hi) ?_
        exact Nat.lt_of_lt_of_le hx (Nat.le_add_left 1 len)

/-- An index loop that stores one byte in each round. -/
theorem foldl_update_eq_write {n : Nat} (hn : n ≤ 2 ^ 32) {m : Memory} {dest : Address}
    {g : Memory → Nat → BitVec 8} {f : Nat → BitVec 8}
    (h : ∀ i < n, g (write m dest i f) i = f i) :
    (List.range n).foldl (fun m i => Function.update m (offset dest i) (g m i)) m =
      write m dest n f := by
  induction n with
  | zero => exact (write_zero m dest f).symm
  | succ n ih =>
      rw [List.range_succ, List.foldl_append, ih (by omega) fun i hi => h i (by omega),
        List.foldl_cons, List.foldl_nil, h n (Nat.lt_succ_self n), update_eq_write,
        write_write hn]
      refine write_congr fun i hi => ?_
      split
      case isTrue => rfl
      case isFalse hlast => rw [show i = n by omega]

theorem schedulerMemorySet_eq {n : Nat} (hn : n ≤ 2 ^ 32) (m : Memory) (dest : Address)
    (val : BitVec 32) :
    schedulerMemorySet m dest val n = write m dest n fun _ => val.setWidth 8 :=
  foldl_update_eq_write hn fun _ _ => rfl

theorem schedulerMemoryCopy_eq {n : Nat} (hn : n ≤ 2 ^ 32) (m : Memory) {dest src : Address}
    (hapart : Apart src n dest n) :
    schedulerMemoryCopy m dest src n = write m dest n fun i => m (offset src i) := by
  refine foldl_update_eq_write hn fun i hi => write_of_not_within fun hx => ?_
  refine hapart _ ((within_offset (by omega)).2 hi) ?_
  exact Nat.lt_trans hx hi

end Asm
end WhitexKernel
