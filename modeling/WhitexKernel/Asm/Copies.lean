import WhitexKernel.Asm.Model

/-!
# Copies — `asm_fast_memset` and `asm_fast_memcpy`

Both routines work on 32-bit words as far as these go, and on the bytes that are left.  A word loop
and a byte loop copy the same bytes (`asmFastMemcpy_isMemcpy`).  But `rep stosd` stores the value it
was given, not its low byte four times: three bytes of every word are the upper bytes of the value
(`asmFastMemset_iff`), which are zero in the call that `bot` makes.
-/

namespace WhitexKernel
namespace Asm

open Lib FlatMemory I386

variable {c : Cpu}

/-! ## Words on the stack -/

/-- An argument is above what the routine pushes. -/
theorem arg_pushed {m : Memory} {n k : Nat} (hn : n ≤ 16) (hk : k < 4)
    (h : ∀ a, ¬ BelowStack c n a → m a = c.mem a) :
    word m (c.reg .esp + BitVec.ofNat 32 (4 + 4 * k)) = arg c k := by
  refine word_congr fun i hi => h _ fun hbelow => ?_
  have hlt := (c.reg .esp).isLt
  unfold BelowStack Within offset at hbelow
  simp only [BitVec.toNat_sub, BitVec.toNat_add, BitVec.toNat_ofNat] at hbelow
  omega

/-- A word that is pushed is below the stack pointer of the entry. -/
theorem belowStack_of_pushed {n k : Nat} {a : Address} (hk : 4 ≤ k) (hn : k ≤ n)
    (ha : Within (c.reg .esp - BitVec.ofNat 32 k) 4 a) : BelowStack c n a := by
  have hesp := (c.reg .esp).isLt
  have hlt := a.isLt
  unfold BelowStack Within at *
  simp only [BitVec.toNat_sub, BitVec.toNat_ofNat] at *
  omega

/-- The arguments from `ebp`, which points to the first word pushed. -/
theorem frame_args {m : Memory} {n : Nat} (hn : n ≤ 16)
    (h : ∀ a, ¬ BelowStack c n a → m a = c.mem a) :
    word m (c.reg .esp - 4#32 + 8#32) = arg c 0 ∧ word m (c.reg .esp - 4#32 + 12#32) = arg c 1 ∧
      word m (c.reg .esp - 4#32 + 16#32) = arg c 2 := by
  have hframe : ∀ k, c.reg .esp - 4#32 + BitVec.ofNat 32 (8 + 4 * k) =
      c.reg .esp + BitVec.ofNat 32 (4 + 4 * k) := by
    intro k
    have hsum : 8 + 4 * k = 4 + (4 + 4 * k) := by omega
    rw [hsum, BitVec.ofNat_add, ← BitVec.add_assoc, BitVec.sub_add_cancel]
  have hargs : ∀ k < 4, word m (c.reg .esp - 4#32 + BitVec.ofNat 32 (8 + 4 * k)) = arg c k := by
    intro k hk
    rw [hframe]
    exact arg_pushed hn hk h
  exact ⟨hargs 0 (by decide), hargs 1 (by decide), hargs 2 (by decide)⟩

/-- What both routines have set up in front of their loops, with `n` bytes pushed. -/
structure Entered (c d : Cpu) (n : Nat) : Prop where
  edi : d.reg .edi = arg c 0
  ecx : d.reg .ecx = arg c 2 >>> 2
  edx : d.reg .edx = arg c 2
  direction : d.direction = false
  kept : ∀ a, ¬ BelowStack c n a → d.mem a = c.mem a

theorem Entered.words {d : Cpu} {n : Nat} (h : Entered c d n) :
    (d.reg .ecx).toNat = (arg c 2).toNat / 4 := by
  rw [h.ecx, BitVec.toNat_ushiftRight, Nat.shiftRight_eq_div_pow]

theorem toNat_and_three (w : BitVec 32) : (w &&& 3).toNat = w.toNat % 4 := by
  rw [BitVec.toNat_and]
  exact Nat.and_two_pow_sub_one_eq_mod w.toNat 2

/-! ## `asm_fast_memset` -/

/-- `asm_fast_memset(dest, val, count)`, called in `c`, has filled memory as the byte loops do. -/
structure IsMemset (c d : Cpu) : Prop where
  filled : ∀ i < (arg c 2).toNat, d.mem (offset (arg c 0) i) = byte (arg c 1) 0
  kept : ∀ a, ¬ Within (arg c 0) (arg c 2).toNat a → ¬ BelowStack c 8 a → d.mem a = c.mem a
  wxMemset : ∀ a, Within (arg c 0) (arg c 2).toNat a ∨ ¬ BelowStack c 8 a →
    d.mem a = wxMemset c.mem (arg c 0) (byte (arg c 1) 0) (arg c 2).toNat a
  schedulerMemorySet : ∀ a, Within (arg c 0) (arg c 2).toNat a ∨ ¬ BelowStack c 8 a →
    d.mem a = schedulerMemorySet c.mem (arg c 0) (arg c 1) (arg c 2).toNat a

variable (callee : Cpu → Cpu)

/-- `asm_fast_memset` in front of its loops. -/
theorem memset_entered (c : Cpu) :
    Entered c (run callee (asmFastMemset.take 9) c) 8 ∧
      (run callee (asmFastMemset.take 9) c).reg .eax = arg c 1 := by
  have hkept : ∀ a, ¬ BelowStack c 8 a →
      pushAll c.mem (c.reg .esp) [c.reg .ebp, c.reg .edi] a = c.mem a :=
    fun a ha => pushAll_below (by simp) ha
  obtain ⟨hdest, hval, hcount⟩ := frame_args (by decide) hkept
  simp only [pushAll] at hkept hdest hval hcount
  refine
    ⟨{ edi := ?_
       ecx := ?_
       edx := ?_
       direction := ?_
       kept := fun a ha => ?_ }, ?_⟩
  · simp -implicitDefEqProofs [asmFastMemset, run_cons, exec, hdest]
  · simp -implicitDefEqProofs [asmFastMemset, run_cons, exec, hcount]
  · simp -implicitDefEqProofs [asmFastMemset, run_cons, exec, hcount]
  · simp -implicitDefEqProofs [asmFastMemset, run_cons, exec]
  · simp -implicitDefEqProofs [asmFastMemset, run_cons, exec, hkept a ha]
  · simp -implicitDefEqProofs [asmFastMemset, run_cons, exec, hval]

/-- Byte `i` of `count` bytes, as the loops of `asm_fast_memset` fill them. -/
def filled (val : BitVec 32) (count i : Nat) : BitVec 8 :=
  if i < count / 4 * 4 then byte val (i % 4) else byte val 0

theorem memset_loops {d : Cpu} {n : Nat} (h : Entered c d n) :
    Cpu.Stored d (run callee [.repStos .dword, .mov .ecx .edx, .and .ecx 3, .repStos .byte] d)
      (arg c 2).toNat (filled (d.reg .eax) (arg c 2).toNat) 0 (d.reg .esi) := by
  have hcount := (arg c 2).isLt
  have hwhole : (arg c 2).toNat / 4 * 4 + (arg c 2).toNat % 4 = (arg c 2).toNat :=
    Nat.div_add_mod' _ 4
  have hwords : Cpu.Stored d (d.rep (Cpu.stos .dword)) ((arg c 2).toNat / 4 * 4)
      (fun i => byte (d.reg .eax) (i % 4)) 0 (d.reg .esi) :=
    Cpu.rep_stos h.direction h.words (by simp only [Width.bytes]; omega)
  have hval := hwords.kept .eax (by decide) (by decide) (by decide)
  have hedx := (hwords.kept .edx (by decide) (by decide) (by decide)).trans h.edx
  have hrun : run callee [.repStos .dword, .mov .ecx .edx, .and .ecx 3, .repStos .byte] d =
      ((d.rep (Cpu.stos .dword)).set .ecx (arg c 2 &&& 3)).rep (Cpu.stos .byte) := by
    simp -implicitDefEqProofs [run_cons, exec, hedx]
  have hbytes := Cpu.rep_stos (w := .byte) (c := (d.rep (Cpu.stos .dword)).set .ecx (arg c 2 &&& 3))
    hwords.direction (toNat_and_three (arg c 2)) (by simp only [Width.bytes]; omega)
  have hall := hwords.append hbytes (by simp only [Width.bytes]; omega)
  have hfilled : filled (d.reg .eax) (arg c 2).toNat = fun i =>
      if i < (arg c 2).toNat / 4 * 4 then byte (d.reg .eax) (i % 4) else byte (d.reg .eax) 0 := rfl
  rw [hrun, hfilled]
  simpa [Width.bytes, Nat.mod_one, hwhole, hval, hwords.esi] using hall

theorem memset_mem (c : Cpu) :
    (∀ i < (arg c 2).toNat, (run callee asmFastMemset c).mem (offset (arg c 0) i) =
      filled (arg c 1) (arg c 2).toNat i) ∧
    ∀ a, ¬ Within (arg c 0) (arg c 2).toNat a → ¬ BelowStack c 8 a →
      (run callee asmFastMemset c).mem a = c.mem a := by
  obtain ⟨h, hval⟩ := memset_entered callee c
  have hloops := (memset_loops callee h).mem
  have hrest : ∀ d : Cpu, (run callee [.pop .edi, .pop .ebp, .ret] d).mem = d.mem := fun _ => rfl
  have hmem : (run callee asmFastMemset c).mem = write (run callee (asmFastMemset.take 9) c).mem
      (arg c 0) (arg c 2).toNat (filled (arg c 1) (arg c 2).toNat) := by
    rw [← hval, ← h.edi, ← hloops]
    rfl
  have hcount : (arg c 2).toNat ≤ 2 ^ 32 := (arg c 2).isLt.le
  rw [hmem]
  refine ⟨fun i hi => write_offset hi hcount, fun a ha hbelow => ?_⟩
  rw [write_of_not_within ha, h.kept a hbelow]

theorem filled_iff (val : BitVec 32) (count : Nat) :
    (∀ i < count, filled val count i = byte val 0) ↔
      count < 4 ∨ ∀ i < 4, byte val i = byte val 0 := by
  constructor
  · intro h
    by_cases hcount : count < 4
    · exact Or.inl hcount
    · refine Or.inr fun i hi => ?_
      have hword : i < count / 4 * 4 := by omega
      have hfirst := h i (by omega)
      rwa [filled, if_pos hword, Nat.mod_eq_of_lt hi] at hfirst
  · intro h i hi
    unfold filled
    split
    case isTrue hword =>
      rcases h with hcount | hsame
      · omega
      · exact hsame _ (Nat.mod_lt i (by decide))
    case isFalse => rfl

/-- `asm_fast_memset` is `memset` when it writes no word, or a word of four equal bytes. -/
theorem asmFastMemset_iff (c : Cpu) :
    IsMemset c (run callee asmFastMemset c) ↔
      (arg c 2).toNat < 4 ∨ ∀ i < 4, byte (arg c 1) i = byte (arg c 1) 0 := by
  obtain ⟨hbytes, hkept⟩ := memset_mem callee c
  rw [← filled_iff]
  constructor
  · intro h i hi
    rw [← hbytes i hi, h.filled i hi]
  · intro h
    have hcount : (arg c 2).toNat ≤ 2 ^ 32 := (arg c 2).isLt.le
    have hwrite : ∀ a, Within (arg c 0) (arg c 2).toNat a ∨ ¬ BelowStack c 8 a →
        (run callee asmFastMemset c).mem a =
          write c.mem (arg c 0) (arg c 2).toNat (fun _ => byte (arg c 1) 0) a := by
      intro a ha
      by_cases hin : Within (arg c 0) (arg c 2).toNat a
      · rw [write_of_within hin, ← h _ hin, ← hbytes _ hin, offset_toNat_sub]
      · rw [write_of_not_within hin, hkept a hin (ha.resolve_left hin)]
    refine
      { filled := fun i hi => (hbytes i hi).trans (h i hi)
        kept := hkept
        wxMemset := fun a ha => ?_
        schedulerMemorySet := fun a ha => ?_ }
    · rw [hwrite a ha, wxMemset_eq hcount]
    · rw [hwrite a ha, schedulerMemorySet_eq hcount]
      rfl

/-- `bot` calls with a buffer, a second argument and a number of bytes. -/
def botCall (buffer second count : BitVec 32) : Cpu where
  reg := Function.update (fun _ => 0) .esp 0x2000
  seg := fun _ => 0x10
  eip := 0
  direction := false
  interrupts := true
  mem := storeWord (storeWord (storeWord (fun _ => 0) 0x2004 buffer) 0x2008 second) 0x200c count

/-- With the value `0xAA`, the second byte of the buffer is zero. -/
theorem asmFastMemset_bot :
    ¬ IsMemset (botCall 0x1000 0xAA 16) (run id asmFastMemset (botCall 0x1000 0xAA 16)) := by
  intro h
  have hsecond := h.filled 1 (by decide)
  revert hsecond
  decide

/-! ## `asm_fast_memcpy` -/

/-- `asm_fast_memcpy(dest, src, count)`, called in `c`, has left memory as the byte loops do. -/
structure IsMemcpy (c d : Cpu) : Prop where
  copied : ∀ i < (arg c 2).toNat, d.mem (offset (arg c 0) i) = c.mem (offset (arg c 1) i)
  kept : ∀ a, ¬ Within (arg c 0) (arg c 2).toNat a → ¬ BelowStack c 12 a → d.mem a = c.mem a
  wxMemcpy : ∀ a, ¬ BelowStack c 12 a →
    d.mem a = wxMemcpy c.mem (arg c 0) (arg c 1) (arg c 2).toNat a
  schedulerMemoryCopy : ∀ a, ¬ BelowStack c 12 a →
    d.mem a = schedulerMemoryCopy c.mem (arg c 0) (arg c 1) (arg c 2).toNat a
  edi : d.reg .edi = c.reg .edi
  esi : d.reg .esi = c.reg .esi
  ebp : d.reg .ebp = c.reg .ebp

/-- The stack of `asm_fast_memcpy` in front of its loops. -/
def memcpyPushed (c : Cpu) : Memory :=
  pushAll c.mem (c.reg .esp) [c.reg .ebp, c.reg .edi, c.reg .esi]

theorem memcpyPushed_kept {a : Address} (ha : ¬ BelowStack c 12 a) :
    memcpyPushed c a = c.mem a :=
  pushAll_below (by simp) ha

/-- `asm_fast_memcpy` in front of its loops. -/
theorem memcpy_entered (c : Cpu) :
    Entered c (run callee (asmFastMemcpy.take 10) c) 12 ∧
      (run callee (asmFastMemcpy.take 10) c).reg .esi = arg c 1 ∧
      (run callee (asmFastMemcpy.take 10) c).reg .esp = c.reg .esp - 12#32 ∧
      (run callee (asmFastMemcpy.take 10) c).mem = memcpyPushed c := by
  obtain ⟨hdest, hsrc, hcount⟩ :=
    frame_args (m := memcpyPushed c) (by decide) fun _ ha => memcpyPushed_kept ha
  have hmem : (run callee (asmFastMemcpy.take 10) c).mem = memcpyPushed c := by
    simp -implicitDefEqProofs [asmFastMemcpy, run_cons, exec, memcpyPushed, pushAll]
  simp only [memcpyPushed, pushAll] at hdest hsrc hcount
  refine
    ⟨{ edi := ?_
       ecx := ?_
       edx := ?_
       direction := ?_
       kept := fun a ha => ?_ }, ?_, ?_, hmem⟩
  · simp -implicitDefEqProofs [asmFastMemcpy, run_cons, exec, hdest]
  · simp -implicitDefEqProofs [asmFastMemcpy, run_cons, exec, hcount]
  · simp -implicitDefEqProofs [asmFastMemcpy, run_cons, exec, hcount]
  · simp -implicitDefEqProofs [asmFastMemcpy, run_cons, exec]
  · rw [hmem, memcpyPushed_kept ha]
  · simp -implicitDefEqProofs [asmFastMemcpy, run_cons, exec, hsrc]
  · simp -implicitDefEqProofs [asmFastMemcpy, run_cons, exec, BitVec.sub_sub]

theorem memcpy_loops {d : Cpu} {n : Nat} (h : Entered c d n)
    (hapart : Apart (d.reg .esi) (arg c 2).toNat (arg c 0) (arg c 2).toNat) :
    Cpu.Stored d (run callee [.repMovs .dword, .mov .ecx .edx, .and .ecx 3, .repMovs .byte] d)
      (arg c 2).toNat (fun i => d.mem (offset (d.reg .esi) i)) 0
      (offset (d.reg .esi) (arg c 2).toNat) := by
  have hcount := (arg c 2).isLt
  have hwhole : (arg c 2).toNat / 4 * 4 + (arg c 2).toNat % 4 = (arg c 2).toNat :=
    Nat.div_add_mod' _ 4
  rw [← h.edi] at hapart
  have hwords : Cpu.Stored d (d.rep (Cpu.movs .dword)) ((arg c 2).toNat / 4 * 4)
      (fun i => d.mem (offset (d.reg .esi) i)) 0
      (offset (d.reg .esi) ((arg c 2).toNat / 4 * 4)) :=
    Cpu.rep_movs h.direction h.words (by simp only [Width.bytes]; omega)
      (hapart.mono (by simp only [Width.bytes]; omega) (by simp only [Width.bytes]; omega))
  have hedx := (hwords.kept .edx (by decide) (by decide) (by decide)).trans h.edx
  have hrun : run callee [.repMovs .dword, .mov .ecx .edx, .and .ecx 3, .repMovs .byte] d =
      ((d.rep (Cpu.movs .dword)).set .ecx (arg c 2 &&& 3)).rep (Cpu.movs .byte) := by
    simp -implicitDefEqProofs [run_cons, exec, hedx]
  have hsource : (d.rep (Cpu.movs .dword)).reg .esi =
      offset (d.reg .esi) ((arg c 2).toNat / 4 * 4) := hwords.esi
  have hrest : Apart (offset (d.reg .esi) ((arg c 2).toNat / 4 * 4)) ((arg c 2).toNat % 4)
      (offset (d.reg .edi) ((arg c 2).toNat / 4 * 4)) ((arg c 2).toNat % 4) := by
    have hleft := hapart.offset_left (m := (arg c 2).toNat % 4) (by omega) hwhole.le
    exact (hleft.symm.offset_left (by omega) hwhole.le).symm
  have hbytes := Cpu.rep_movs (w := .byte) (c := (d.rep (Cpu.movs .dword)).set .ecx (arg c 2 &&& 3))
    hwords.direction (toNat_and_three (arg c 2)) (by simp only [Width.bytes]; omega)
    (by simpa [Width.bytes, hsource, hwords.edi] using hrest)
  have hall := hwords.append hbytes (by simp only [Width.bytes]; omega)
  simp only [Width.bytes, Nat.mul_one, hwhole, Cpu.set_reg, Cpu.set_mem, reduceCtorEq, if_false,
    hsource, offset_offset] at hall
  rw [hrun]
  refine hall.congr fun i hi => ?_
  split
  case isTrue => rfl
  case isFalse hge =>
    -- the words have been stored elsewhere
    have hindex : (arg c 2).toNat / 4 * 4 + (i - (arg c 2).toNat / 4 * 4) = i :=
      Nat.add_sub_cancel' (Nat.le_of_not_lt hge)
    rw [hindex, hwords.mem]
    refine write_of_not_within fun hin => ?_
    refine hapart _ ((within_offset (by omega)).2 hi) (Nat.lt_of_lt_of_le hin ?_)
    omega

/-- What is saved on the stack is restored. -/
theorem memcpy_restored {d : Cpu} (hesp : d.reg .esp = c.reg .esp - 12#32) :
    (run callee [.pop .esi, .pop .edi, .pop .ebp, .ret] d).mem = d.mem ∧
    (run callee [.pop .esi, .pop .edi, .pop .ebp, .ret] d).reg .esi =
      word d.mem (c.reg .esp - 12#32) ∧
    (run callee [.pop .esi, .pop .edi, .pop .ebp, .ret] d).reg .edi =
      word d.mem (c.reg .esp - 8#32) ∧
    (run callee [.pop .esi, .pop .edi, .pop .ebp, .ret] d).reg .ebp =
      word d.mem (c.reg .esp - 4#32) := by
  have hedi : c.reg .esp - 12#32 + 4#32 = c.reg .esp - 8#32 := by bv_omega
  have hebp : c.reg .esp - 8#32 + 4#32 = c.reg .esp - 4#32 := by bv_omega
  refine ⟨?_, ?_, ?_, ?_⟩
  · simp -implicitDefEqProofs [run_cons, exec, Cpu.top]
  · simp -implicitDefEqProofs [run_cons, exec, Cpu.top, hesp]
  · simp -implicitDefEqProofs [run_cons, exec, Cpu.top, hesp, hedi]
  · simp -implicitDefEqProofs [run_cons, exec, Cpu.top, hesp, hedi, hebp]

/-- `asm_fast_memcpy` copies as the byte loops do, between regions that have no byte in common and
do not reach below the stack pointer. -/
theorem asmFastMemcpy_isMemcpy (c : Cpu)
    (hapart : Apart (arg c 1) (arg c 2).toNat (arg c 0) (arg c 2).toNat)
    (hsrc : Apart (arg c 1) (arg c 2).toNat (c.reg .esp - 12) 12)
    (hdest : Apart (arg c 0) (arg c 2).toNat (c.reg .esp - 12) 12) :
    IsMemcpy c (run callee asmFastMemcpy c) := by
  obtain ⟨h, hesi, hesp, hpushed⟩ := memcpy_entered callee c
  have hloops := memcpy_loops callee h (by rwa [hesi])
  have hcount : (arg c 2).toNat ≤ 2 ^ 32 := (arg c 2).isLt.le
  set d := run callee (asmFastMemcpy.take 10) c with hd
  set e := run callee [.repMovs .dword, .mov .ecx .edx, .and .ecx 3, .repMovs .byte] d with he
  have hrun : run callee asmFastMemcpy c = run callee [.pop .esi, .pop .edi, .pop .ebp, .ret] e := by
    rw [he, hd, ← run_append, ← run_append]
    rfl
  have hread : ∀ i < (arg c 2).toNat, memcpyPushed c (offset (arg c 1) i) =
      c.mem (offset (arg c 1) i) := by
    intro i hi
    exact memcpyPushed_kept (hsrc _ ((within_offset (by omega)).2 hi))
  have hmem : e.mem = write (memcpyPushed c) (arg c 0) (arg c 2).toNat
      fun i => c.mem (offset (arg c 1) i) := by
    rw [hloops.mem, hpushed, h.edi, hesi]
    exact write_congr hread
  have hwords : ∀ k (hk : k < 3), word e.mem (c.reg .esp - BitVec.ofNat 32 (4 * (k + 1))) =
      [c.reg .ebp, c.reg .edi, c.reg .esi][k] := by
    intro k hk
    rw [hmem]
    refine (word_write_of_apart _ fun x hx hx' => hdest x hx' ?_).trans ?_
    · exact belowStack_of_pushed (n := 12) (by omega) (by omega) hx
    · exact word_pushAll (by simp) _ _ hk
  have hwrite : ∀ a, ¬ BelowStack c 12 a →
      e.mem a = write c.mem (arg c 0) (arg c 2).toNat (fun i => c.mem (offset (arg c 1) i)) a := by
    intro a ha
    rw [hmem]
    unfold write
    rw [memcpyPushed_kept ha]
  have hespe := (hloops.kept .esp (by decide) (by decide) (by decide)).trans hesp
  obtain ⟨hmemory, hsi, hdi, hbp⟩ := memcpy_restored callee hespe
  rw [hrun]
  refine
    { copied := fun i hi => ?_
      kept := fun a ha hbelow => ?_
      wxMemcpy := fun a ha => ?_
      schedulerMemoryCopy := fun a ha => ?_
      edi := ?_
      esi := ?_
      ebp := ?_ }
  · rw [hmemory, hmem, write_offset hi hcount]
  · rw [hmemory, hwrite a hbelow, write_of_not_within ha]
  · rw [hmemory, hwrite a ha, wxMemcpy_eq hcount _ hapart]
  · rw [hmemory, hwrite a ha, schedulerMemoryCopy_eq hcount _ hapart]
  · exact hdi.trans (hwords 1 (by decide))
  · exact hsi.trans (hwords 2 (by decide))
  · exact hbp.trans (hwords 0 (by decide))

/-- The copy that `bot` makes, with its `source_buffer`. -/
def botCopy : Cpu :=
  { botCall 0x1000 0x1100 16 with
    mem := storeWord (storeWord (storeWord (storeWord (botCall 0x1000 0x1100 16).mem
      0x1100 0x11111111) 0x1104 0x22222222) 0x1108 0x33333333) 0x110c 0x44444444 }

/-- The two words that `bot` compares are the ones it expects. -/
theorem asmFastMemcpy_bot : IsMemcpy botCopy (run id asmFastMemcpy botCopy) ∧
    word (run id asmFastMemcpy botCopy).mem 0x1004 = 0x22222222 ∧
    word (run id asmFastMemcpy botCopy).mem 0x100c = 0x44444444 :=
  ⟨asmFastMemcpy_isMemcpy id botCopy
    (apart_of_le (by decide) (by decide) (by decide))
    (apart_of_le (by decide) (by decide) (by decide))
    (apart_of_le (by decide) (by decide) (by decide)), by decide, by decide⟩

end Asm
end WhitexKernel
