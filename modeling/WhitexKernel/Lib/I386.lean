import Mathlib.Logic.Function.Iterate
import WhitexKernel.Lib.FlatMemory

/-!
# I386 — straight-line code of the i386

A program is a list of instructions that are executed one after the other, on the general and the
segment registers and on one flat memory, in which the stack is as well.  The string instructions
repeat as often as `ecx` says.  Calls run a function on the machine that is a parameter; `Cdecl`
says what it keeps.  The arithmetic flags are left out, since nothing here reads them.

* `word_pushAll`, `pushAll_below` — the words on the stack, and the memory around them;
* `rep_movs`, `rep_stos` — what the repeated string instructions write.
-/

namespace WhitexKernel
namespace Lib
namespace I386

open FlatMemory

/-! ## Machines -/

inductive Reg
  | eax
  | ecx
  | edx
  | ebx
  | esp
  | ebp
  | esi
  | edi
  deriving DecidableEq, Repr

inductive Seg
  | ds
  | es
  | fs
  | gs
  deriving DecidableEq, Repr

structure Cpu where
  reg : Reg → BitVec 32
  seg : Seg → BitVec 16
  eip : Address
  /-- String instructions go downwards. -/
  direction : Bool
  interrupts : Bool
  mem : Memory

/-- The operand size of a string instruction. -/
inductive Width
  | byte
  | dword
  deriving DecidableEq, Repr

def Width.bytes : Width → Nat
  | .byte => 1
  | .dword => 4

inductive Instr
  | push (r : Reg)
  | pop (r : Reg)
  | pushSeg (s : Seg)
  | popSeg (s : Seg)
  | mov (dst src : Reg)
  /-- `mov ax, imm` -/
  | movAx (imm : BitVec 16)
  /-- `mov s, ax` -/
  | movSeg (s : Seg)
  /-- `mov dst, [base + disp]` -/
  | load (dst base : Reg) (disp : BitVec 32)
  | shr (r : Reg) (count : Nat)
  | and (r : Reg) (imm : BitVec 32)
  | add (r : Reg) (imm : BitVec 32)
  | cld
  | cli
  | sti
  | repMovs (w : Width)
  | repStos (w : Width)
  /-- A call, with the address of the instruction behind it. -/
  | call (next : Address)
  | ret

namespace Cpu

def set (c : Cpu) (r : Reg) (v : BitVec 32) : Cpu := { c with reg := Function.update c.reg r v }

def setSeg (c : Cpu) (s : Seg) (v : BitVec 16) : Cpu := { c with seg := Function.update c.seg s v }

/-- The word at the top of the stack. -/
def top (c : Cpu) : BitVec 32 := word c.mem (c.reg .esp)

def pushWord (c : Cpu) (w : BitVec 32) : Cpu :=
  { c.set .esp (c.reg .esp - 4) with mem := storeWord c.mem (c.reg .esp - 4) w }

/-- The stack without the word at its top. -/
def dropWord (c : Cpu) : Cpu := c.set .esp (c.reg .esp + 4)

/-- How far a string instruction moves its pointers. -/
def stride (c : Cpu) (w : Width) : BitVec 32 :=
  if c.direction then -BitVec.ofNat 32 w.bytes else BitVec.ofNat 32 w.bytes

/-- The bytes at `esi` are copied to `edi`. -/
def movs (w : Width) (c : Cpu) : Cpu :=
  { (c.set .edi (c.reg .edi + c.stride w)).set .esi (c.reg .esi + c.stride w) with
    mem := write c.mem (c.reg .edi) w.bytes fun i => c.mem (offset (c.reg .esi) i) }

/-- The low bytes of `eax` are stored at `edi`. -/
def stos (w : Width) (c : Cpu) : Cpu :=
  { c.set .edi (c.reg .edi + c.stride w) with
    mem := write c.mem (c.reg .edi) w.bytes (byte (c.reg .eax)) }

/-- As many rounds as `ecx` counts down. -/
def rep (body : Cpu → Cpu) (c : Cpu) : Cpu :=
  (fun c => (body c).set .ecx (c.reg .ecx - 1))^[(c.reg .ecx).toNat] c

end Cpu

/-- One instruction; a call runs `callee`, from its entry to its return. -/
def exec (callee : Cpu → Cpu) (c : Cpu) : Instr → Cpu
  | .push r => c.pushWord (c.reg r)
  | .pop r => c.dropWord.set r c.top
  | .pushSeg s => c.pushWord ((c.seg s).setWidth 32)
  | .popSeg s => c.dropWord.setSeg s (c.top.setWidth 16)
  | .mov dst src => c.set dst (c.reg src)
  | .movAx imm => c.set .eax ((c.reg .eax).extractLsb' 16 16 ++ imm)
  | .movSeg s => c.setSeg s ((c.reg .eax).setWidth 16)
  | .load dst base disp => c.set dst (word c.mem (c.reg base + disp))
  | .shr r count => c.set r (c.reg r >>> count)
  | .and r imm => c.set r (c.reg r &&& imm)
  | .add r imm => c.set r (c.reg r + imm)
  | .cld => { c with direction := false }
  | .cli => { c with interrupts := false }
  | .sti => { c with interrupts := true }
  | .repMovs w => c.rep (Cpu.movs w)
  | .repStos w => c.rep (Cpu.stos w)
  | .call next => callee (c.pushWord next)
  | .ret => { c.dropWord with eip := c.top }

def run (callee : Cpu → Cpu) (is : List Instr) (c : Cpu) : Cpu := is.foldl (exec callee) c

@[simp] theorem run_nil (callee : Cpu → Cpu) (c : Cpu) : run callee [] c = c := rfl

theorem run_cons (callee : Cpu → Cpu) (i : Instr) (is : List Instr) (c : Cpu) :
    run callee (i :: is) c = run callee is (exec callee c i) := rfl

theorem run_append (callee : Cpu → Cpu) (is js : List Instr) (c : Cpu) :
    run callee (is ++ js) c = run callee js (run callee is c) := List.foldl_append

/-! ## Registers -/

namespace Cpu

variable (c : Cpu)

@[simp] theorem set_reg (r r' : Reg) (v : BitVec 32) :
    (c.set r v).reg r' = if r' = r then v else c.reg r' := Function.update_apply c.reg r v r'

@[simp] theorem set_seg (r : Reg) (v : BitVec 32) : (c.set r v).seg = c.seg := rfl

@[simp] theorem set_mem (r : Reg) (v : BitVec 32) : (c.set r v).mem = c.mem := rfl

@[simp] theorem set_direction (r : Reg) (v : BitVec 32) : (c.set r v).direction = c.direction := rfl

@[simp] theorem set_set (r : Reg) (v w : BitVec 32) : (c.set r v).set r w = c.set r w :=
  congrArg (fun reg => { c with reg := reg }) (Function.update_idem ..)

@[simp] theorem setSeg_seg (s s' : Seg) (v : BitVec 16) :
    (c.setSeg s v).seg s' = if s' = s then v else c.seg s' := Function.update_apply c.seg s v s'

@[simp] theorem setSeg_reg (s : Seg) (v : BitVec 16) : (c.setSeg s v).reg = c.reg := rfl

@[simp] theorem setSeg_mem (s : Seg) (v : BitVec 16) : (c.setSeg s v).mem = c.mem := rfl

@[simp] theorem setSeg_direction (s : Seg) (v : BitVec 16) :
    (c.setSeg s v).direction = c.direction := rfl

@[simp] theorem pushWord_reg (w : BitVec 32) (r : Reg) :
    (c.pushWord w).reg r = if r = .esp then c.reg .esp - 4 else c.reg r := c.set_reg .esp r _

@[simp] theorem pushWord_seg (w : BitVec 32) : (c.pushWord w).seg = c.seg := rfl

@[simp] theorem pushWord_mem (w : BitVec 32) :
    (c.pushWord w).mem = storeWord c.mem (c.reg .esp - 4) w := rfl

@[simp] theorem dropWord_reg (r : Reg) :
    c.dropWord.reg r = if r = .esp then c.reg .esp + 4 else c.reg r := c.set_reg .esp r _

@[simp] theorem dropWord_seg : c.dropWord.seg = c.seg := rfl

@[simp] theorem dropWord_mem : c.dropWord.mem = c.mem := rfl

end Cpu

/-! ## The stack -/

/-- Memory after words have been pushed, one after the other. -/
def pushAll (m : Memory) (esp : Address) : List (BitVec 32) → Memory
  | [] => m
  | w :: ws => pushAll (storeWord m (esp - 4#32) w) (esp - 4#32) ws

/-- The words are below the stack pointer. -/
theorem pushAll_below {ws : List (BitVec 32)} (hfits : 4 * ws.length ≤ 2 ^ 32) {m : Memory}
    {esp a : Address} (h : ¬ Within (esp - BitVec.ofNat 32 (4 * ws.length)) (4 * ws.length) a) :
    pushAll m esp ws a = m a := by
  induction ws generalizing m esp with
  | nil => rfl
  | cons w ws ih =>
      rw [List.length_cons, Nat.mul_succ] at hfits h
      have hbottom : esp - 4#32 - BitVec.ofNat 32 (4 * ws.length) =
          esp - BitVec.ofNat 32 (4 * ws.length + 4) := by
        rw [BitVec.sub_sub, BitVec.ofNat_add, BitVec.add_comm 4#32]
      have hfirst : esp - 4#32 = offset (esp - BitVec.ofNat 32 (4 * ws.length + 4))
          (4 * ws.length) := by
        rw [← hbottom]
        exact (BitVec.sub_add_cancel _ _).symm
      unfold pushAll
      rw [ih (by omega) fun hrest => h ?_]
      · refine write_of_not_within fun hword => h ?_
        rw [hfirst] at hword
        exact hword.of_offset (by omega) (Nat.le_refl _)
      · rw [hbottom] at hrest
        exact Nat.lt_of_lt_of_le hrest (Nat.le_add_right _ 4)

theorem word_pushAll {ws : List (BitVec 32)} (hfits : 4 * ws.length ≤ 2 ^ 32) (m : Memory)
    (esp : Address) {k : Nat} (hk : k < ws.length) :
    word (pushAll m esp ws) (esp - BitVec.ofNat 32 (4 * (k + 1))) = ws[k] := by
  induction ws generalizing m esp k with
  | nil => exact absurd hk (Nat.not_lt_zero k)
  | cons w ws ih =>
      rw [List.length_cons] at hfits hk
      unfold pushAll
      cases k with
      | zero =>
          have habove : ∀ i < 4, pushAll (storeWord m (esp - 4#32) w) (esp - 4#32) ws
              (offset (esp - 4#32) i) = storeWord m (esp - 4#32) w (offset (esp - 4#32) i) := by
            intro i hi
            refine pushAll_below (by omega) fun hin => ?_
            have hlt := (esp - 4#32).isLt
            unfold Within offset at hin
            simp only [BitVec.toNat_sub, BitVec.toNat_add, BitVec.toNat_ofNat] at hin
            omega
          exact (word_congr habove).trans (word_store_same _ _ _)
      | succ k =>
          have haddress : esp - BitVec.ofNat 32 (4 * (k + 1 + 1)) =
              esp - 4#32 - BitVec.ofNat 32 (4 * (k + 1)) := by
            rw [BitVec.sub_sub, ← BitVec.ofNat_add]
            congr 2
            omega
          rw [haddress]
          exact ih (by omega) _ _ (by omega)

theorem pushAll_concat (m : Memory) (esp : Address) (ws : List (BitVec 32)) (w : BitVec 32) :
    pushAll m esp (ws ++ [w]) =
      storeWord (pushAll m esp ws) (esp - BitVec.ofNat 32 (4 * ws.length) - 4#32) w := by
  induction ws generalizing m esp with
  | nil =>
      have hesp : esp - BitVec.ofNat 32 (4 * 0) = esp := BitVec.sub_zero esp
      rw [List.length_nil, hesp]
      rfl
  | cons v ws ih =>
      have hesp : esp - 4#32 - BitVec.ofNat 32 (4 * ws.length) =
          esp - BitVec.ofNat 32 (4 * (ws.length + 1)) := by
        rw [Nat.mul_succ, BitVec.sub_sub, BitVec.ofNat_add, BitVec.add_comm 4#32]
      rw [List.cons_append, pushAll, pushAll, ih, hesp, List.length_cons]

/-- A function of `args` argument words that follows the calling convention: it returns to its
caller, and leaves the `frame` bytes behind its arguments as they are. -/
structure Cdecl (callee : Cpu → Cpu) (args frame : Nat) : Prop where
  esp : ∀ c, (callee c).reg .esp = c.reg .esp + 4
  frame : ∀ c, ∀ i < frame, (callee c).mem (offset (c.reg .esp) (4 + 4 * args + i)) =
    c.mem (offset (c.reg .esp) (4 + 4 * args + i))

/-! ## Repeated string instructions -/

namespace Cpu

/-- Upwards from `edi`, `d` has `size` bytes given by `f`; `esi` is where the rounds have left it, and
`ecx` counts the rounds that are left. -/
structure Stored (c d : Cpu) (size : Nat) (f : Nat → BitVec 8) (ecx esi : BitVec 32) : Prop where
  mem : d.mem = write c.mem (c.reg .edi) size f
  edi : d.reg .edi = offset (c.reg .edi) size
  ecx : d.reg .ecx = ecx
  esi : d.reg .esi = esi
  kept : ∀ r, r ≠ .edi → r ≠ .ecx → r ≠ .esi → d.reg r = c.reg r
  seg : d.seg = c.seg
  direction : d.direction = false

theorem stride_up {c : Cpu} (hdirection : c.direction = false) (w : Width) :
    c.stride w = BitVec.ofNat 32 w.bytes := by
  unfold stride
  rw [hdirection]
  rfl

variable {c : Cpu} {w : Width}

theorem stored_start (hdirection : c.direction = false) (f : Nat → BitVec 8) :
    Stored c c 0 f (c.reg .ecx) (c.reg .esi) :=
  { mem := (write_zero _ _ _).symm
    edi := (offset_zero _).symm
    ecx := rfl
    esi := rfl
    kept := fun _ _ _ _ => rfl
    seg := rfl
    direction := hdirection }

/-- A write at `edi` goes on where the earlier rounds have ended. -/
theorem Stored.write_next {d : Cpu} {n k : Nat} {f : Nat → BitVec 8} {ecx : BitVec 32}
    {esi : Address} (h : Stored c d n f ecx esi) (hfits : n + k ≤ 2 ^ 32) :
    (write d.mem (d.reg .edi) k fun i => f (n + i)) = write c.mem (c.reg .edi) (n + k) f := by
  rw [h.edi, h.mem, write_write hfits]
  refine write_congr fun i _ => ?_
  split
  case isTrue => rfl
  case isFalse hge => rw [Nat.add_sub_cancel' (Nat.le_of_not_lt hge)]

/-- One more round of `movs`, from bytes that the earlier rounds have not stored to. -/
theorem Stored.movs {d : Cpu} {n : Nat} {ecx : BitVec 32}
    (h : Stored c d n (fun i => c.mem (offset (c.reg .esi) i)) ecx (offset (c.reg .esi) n))
    (hfits : n + w.bytes ≤ 2 ^ 32)
    (hapart : Apart (c.reg .esi) (n + w.bytes) (c.reg .edi) (n + w.bytes)) :
    Stored c ((d.movs w).set .ecx (d.reg .ecx - 1)) (n + w.bytes)
      (fun i => c.mem (offset (c.reg .esi) i)) (ecx - 1) (offset (c.reg .esi) (n + w.bytes)) := by
  have hstride := stride_up h.direction w
  refine
    { mem := ?_
      edi := ?_
      ecx := ?_
      esi := ?_
      kept := fun r hedi hecx hesi => ?_
      seg := h.seg
      direction := h.direction }
  · have hread : ∀ i < w.bytes, d.mem (offset (d.reg .esi) i) =
        c.mem (offset (c.reg .esi) (n + i)) := by
      intro i hi
      have hindex : n + i < 2 ^ 32 := by omega
      have hsource : ¬ Within (c.reg .edi) n (offset (c.reg .esi) (n + i)) := by
        refine (hapart.mono (Nat.le_refl _) (Nat.le_add_right n w.bytes)) _ ?_
        exact (within_offset hindex).2 (by omega)
      rw [h.esi, h.mem, offset_offset]
      exact write_of_not_within hsource
    have hround : (d.movs w).mem = write d.mem (d.reg .edi) w.bytes
        fun i => c.mem (offset (c.reg .esi) (n + i)) := write_congr hread
    rw [set_mem, hround]
    exact h.write_next hfits
  · simp [Cpu.movs, hstride, h.edi, offset, BitVec.add_assoc, BitVec.ofNat_add]
  · simp [h.ecx]
  · simp [Cpu.movs, hstride, h.esi, offset, BitVec.add_assoc, BitVec.ofNat_add]
  · simp [Cpu.movs, hedi, hecx, hesi, h.kept r hedi hecx hesi]

/-- One more round of `stos`. -/
theorem Stored.stos {d : Cpu} {n : Nat} {ecx : BitVec 32} {f : Nat → BitVec 8}
    (h : Stored c d n f ecx (c.reg .esi)) (hfits : n + w.bytes ≤ 2 ^ 32)
    (hbytes : ∀ i < w.bytes, f (n + i) = byte (c.reg .eax) i) :
    Stored c ((d.stos w).set .ecx (d.reg .ecx - 1)) (n + w.bytes) f (ecx - 1) (c.reg .esi) := by
  have hstride := stride_up h.direction w
  have heax : d.reg .eax = c.reg .eax := h.kept .eax (by decide) (by decide) (by decide)
  refine
    { mem := ?_
      edi := ?_
      ecx := ?_
      esi := ?_
      kept := fun r hedi hecx hesi => ?_
      seg := h.seg
      direction := h.direction }
  · have hround : (d.stos w).mem = write d.mem (d.reg .edi) w.bytes fun i => f (n + i) := by
      refine write_congr fun i hi => ?_
      rw [heax, hbytes i hi]
    rw [set_mem, hround]
    exact h.write_next hfits
  · simp [Cpu.stos, hstride, h.edi, offset, BitVec.add_assoc, BitVec.ofNat_add]
  · simp [h.ecx]
  · simp [Cpu.stos, h.esi]
  · simp [Cpu.stos, hedi, hecx, h.kept r hedi hecx hesi]

/-- Rounds that store one operand each, as many as `ecx` counts. -/
theorem rep_stored {body : Cpu → Cpu} {n : Nat} {f : Nat → BitVec 8} (esi : Nat → Address)
    (hdirection : c.direction = false) (hecx : (c.reg .ecx).toNat = n) (hesi : esi 0 = c.reg .esi)
    (hround : ∀ k < n, ∀ (d : Cpu) (ecx : BitVec 32), Stored c d (k * w.bytes) f ecx (esi k) →
      Stored c ((body d).set .ecx (d.reg .ecx - 1)) (k * w.bytes + w.bytes) f (ecx - 1)
        (esi (k + 1))) :
    Stored c (c.rep body) (n * w.bytes) f 0 (esi n) := by
  have hrounds : ∀ k ≤ n, Stored c ((fun d => (body d).set .ecx (d.reg .ecx - 1))^[k] c)
      (k * w.bytes) f (c.reg .ecx - BitVec.ofNat 32 k) (esi k) := by
    intro k hk
    induction k with
    | zero =>
        rw [Nat.zero_mul, hesi, BitVec.ofNat_eq_ofNat, BitVec.sub_zero]
        exact stored_start hdirection f
    | succ k ih =>
        have hcount : c.reg .ecx - BitVec.ofNat 32 (k + 1) =
            c.reg .ecx - BitVec.ofNat 32 k - 1 := by
          rw [BitVec.ofNat_add, ← BitVec.sub_sub]
          rfl
        rw [Function.iterate_succ_apply', Nat.succ_mul, hcount]
        exact hround k hk _ _ (ih (Nat.le_of_succ_le hk))
  have hzero : c.reg .ecx - BitVec.ofNat 32 n = 0 := by
    rw [← hecx, BitVec.ofNat_toNat, BitVec.setWidth_eq]
    exact BitVec.sub_self _
  have hall := hrounds n (Nat.le_refl n)
  rw [hzero] at hall
  unfold rep
  rw [hecx]
  exact hall

/-- `rep movs` copies upwards, if source and destination have no byte in common. -/
theorem rep_movs (hdirection : c.direction = false) {n : Nat} (hecx : (c.reg .ecx).toNat = n)
    (hfits : n * w.bytes ≤ 2 ^ 32)
    (hapart : Apart (c.reg .esi) (n * w.bytes) (c.reg .edi) (n * w.bytes)) :
    Stored c (c.rep (Cpu.movs w)) (n * w.bytes) (fun i => c.mem (offset (c.reg .esi) i)) 0
      (offset (c.reg .esi) (n * w.bytes)) := by
  refine rep_stored (fun k => offset (c.reg .esi) (k * w.bytes)) hdirection hecx ?_ ?_
  · rw [Nat.zero_mul, offset_zero]
  · intro k hk d ecx h
    have hbytes : k * w.bytes + w.bytes ≤ n * w.bytes := by
      rw [← Nat.succ_mul]
      exact Nat.mul_le_mul_right _ hk
    rw [Nat.succ_mul]
    exact h.movs (hbytes.trans hfits) (hapart.mono hbytes hbytes)

/-- `rep stos` repeats the low bytes of `eax`. -/
theorem rep_stos (hdirection : c.direction = false) {n : Nat} (hecx : (c.reg .ecx).toNat = n)
    (hfits : n * w.bytes ≤ 2 ^ 32) :
    Stored c (c.rep (Cpu.stos w)) (n * w.bytes) (fun i => byte (c.reg .eax) (i % w.bytes)) 0
      (c.reg .esi) := by
  refine rep_stored (fun _ => c.reg .esi) hdirection hecx rfl ?_
  intro k hk d ecx h
  have hbytes : k * w.bytes + w.bytes ≤ n * w.bytes := by
    rw [← Nat.succ_mul]
    exact Nat.mul_le_mul_right _ hk
  refine h.stos (hbytes.trans hfits) fun i hi => ?_
  rw [Nat.mul_comm, Nat.mul_add_mod, Nat.mod_eq_of_lt hi]

theorem Stored.congr {d : Cpu} {n : Nat} {f g : Nat → BitVec 8} {ecx : BitVec 32} {esi : Address}
    (h : Stored c d n f ecx esi) (hfg : ∀ i < n, f i = g i) : Stored c d n g ecx esi :=
  { h with mem := h.mem.trans (write_congr hfg) }

/-- Rounds that go on with another count store behind the rounds before them. -/
theorem Stored.append {d e : Cpu} {n k : Nat} {f g : Nat → BitVec 8} {ecx ecx' count : BitVec 32}
    {esi esi' : Address} (h : Stored c d n f ecx esi)
    (h' : Stored (d.set .ecx count) e k g ecx' esi') (hfits : n + k ≤ 2 ^ 32) :
    Stored c e (n + k) (fun i => if i < n then f i else g (i - n)) ecx' esi' := by
  have hedi : (d.set .ecx count).reg .edi = offset (c.reg .edi) n := h.edi
  refine
    { mem := ?_
      edi := ?_
      ecx := h'.ecx
      esi := h'.esi
      kept := fun r hedi hecx hesi => ?_
      seg := h'.seg.trans h.seg
      direction := h'.direction }
  · rw [h'.mem, hedi, set_mem, h.mem, write_write hfits]
  · rw [h'.edi, hedi, offset_offset]
  · rw [h'.kept r hedi hecx hesi, set_reg, if_neg hecx, h.kept r hedi hecx hesi]

end Cpu

end I386
end Lib
end WhitexKernel
