import WhitexKernel.Lib.RegisterFrame

/-!
# Interrupts — the stubs of `interrupt.asm`

The processor interrupts a program between two of its instructions: it pushes the flags, `cs` and the
address of the next instruction, with some exceptions an error code as well, and goes on in `isr0` to
`isr32`.  These put the vector behind it, the ones for the other exceptions and for devices with a zero
in the place of the error code, and `common_stub` does the rest.

A stub comes back exactly when an error code was pushed for the vectors that it is expected with, and
all data segments were those of `ds` (`handle_resumes_iff`).  A program under which that holds, and which
does not read below its stack pointer, then computes the same with interrupts as without
(`interrupts_unseen`).
-/

namespace WhitexKernel
namespace Asm

open Lib FlatMemory I386

/-! ## The processor -/

/-- The registers with the segments and the instruction pointer, and what the ports have received. -/
@[ext] structure Processor where
  regs : Registers
  seg : Seg → BitVec 16
  cs : BitVec 16
  eip : Address
  mem : Memory
  ports : List (BitVec 16 × BitVec 8)

/-- The instructions of the stubs. -/
inductive StubInstr
  | cli
  | sti
  /-- `push byte imm` -/
  | pushByte (imm : BitVec 8)
  | push (r : Reg)
  | pop (r : Reg)
  | pusha
  | popa
  /-- `mov ax, s` -/
  | movAxSeg (s : Seg)
  /-- `mov ax, imm` -/
  | movAx (imm : BitVec 16)
  /-- `mov s, ax` -/
  | movSeg (s : Seg)
  | mov (dst src : Reg)
  /-- `mov al, imm` -/
  | movAl (imm : BitVec 8)
  /-- `out port, al` -/
  | out (port : BitVec 16)
  | add (r : Reg) (imm : BitVec 32)
  | iret

namespace Processor

def push (p : Processor) (w : BitVec 32) : Processor :=
  { p with
    regs := (pushWord p.regs p.mem w).1
    mem := (pushWord p.regs p.mem w).2 }

def set (p : Processor) (r : Reg) (v : BitVec 32) : Processor := { p with regs := p.regs.set r v }

def setSeg (p : Processor) (s : Seg) (v : BitVec 16) : Processor :=
  { p with seg := Function.update p.seg s v }

/-- Whether the processor takes interrupts of devices. -/
def interruptFlag : BitVec 32 := 0x200

/-- `cli` -/
def mask (p : Processor) : Processor :=
  { p with regs := { p.regs with eflags := p.regs.eflags &&& ~~~interruptFlag } }

/-- `sti` -/
def unmask (p : Processor) : Processor :=
  { p with regs := { p.regs with eflags := p.regs.eflags ||| interruptFlag } }

/-- Three words from the stack, within one privilege level. -/
def iret (p : Processor) : Processor :=
  { p with
    regs :=
      { p.regs.set .esp (p.regs.reg .esp + 12) with eflags := word p.mem (p.regs.reg .esp + 8) }
    cs := (word p.mem (p.regs.reg .esp + 4)).setWidth 16
    eip := word p.mem (p.regs.reg .esp) }

/-- One instruction.  The arithmetic flags are left as they are, which `iret` overwrites. -/
def exec (p : Processor) : StubInstr → Processor
  | .cli => p.mask
  | .sti => p.unmask
  | .pushByte imm => p.push (imm.signExtend 32)
  | .push r => p.push (p.regs.reg r)
  | .pop r =>
      { p with regs := (popWord p.regs p.mem).2.set r (popWord p.regs p.mem).1 }
  | .pusha =>
      { p with
        regs := (pushal p.regs p.mem).1
        mem := (pushal p.regs p.mem).2 }
  | .popa => { p with regs := popal p.regs p.mem }
  | .movAxSeg s => p.set .eax ((p.regs.reg .eax).extractLsb' 16 16 ++ p.seg s)
  | .movAx imm => p.set .eax ((p.regs.reg .eax).extractLsb' 16 16 ++ imm)
  | .movSeg s => p.setSeg s ((p.regs.reg .eax).setWidth 16)
  | .mov dst src => p.set dst (p.regs.reg src)
  | .movAl imm => p.set .eax ((p.regs.reg .eax).extractLsb' 8 24 ++ imm)
  | .out port => { p with ports := p.ports ++ [(port, (p.regs.reg .eax).setWidth 8)] }
  | .add r imm => p.set r (p.regs.reg r + imm)
  | .iret => p.iret

def execAll (p : Processor) (is : List StubInstr) : Processor := is.foldl exec p

theorem execAll_append (p : Processor) (is js : List StubInstr) :
    p.execAll (is ++ js) = (p.execAll is).execAll js := List.foldl_append

end Processor

/-! ## The stubs -/

/-- `common_stub`, up to the acknowledgement. -/
def stubEnter : List StubInstr :=
  [.pusha, .movAxSeg .ds, .push .eax, .movAx 0x10, .movSeg .ds, .movSeg .es, .movSeg .fs,
    .movSeg .gs, .mov .eax .esp, .push .eax]

/-- Both interrupt controllers are told that the interrupt is over. -/
def stubAcknowledge : List StubInstr := [.movAl 0x20, .out 0x20, .out 0xA0]

def stubLeave : List StubInstr :=
  [.pop .eax, .pop .eax, .movSeg .ds, .movSeg .es, .movSeg .fs, .movSeg .gs, .popa, .add .esp 8,
    .sti, .iret]

def commonStub : List StubInstr := stubEnter ++ (stubAcknowledge ++ stubLeave)

/-- `ISR_NOERRCODE`, up to its jump. -/
def isrNoerrcode (n : BitVec 8) : List StubInstr := [.cli, .pushByte 0, .pushByte n]

/-- `ISR_ERRCODE`, up to its jump. -/
def isrErrcode (n : BitVec 8) : List StubInstr := [.cli, .pushByte n]

/-- The vectors whose stubs are made by `ISR_ERRCODE`. -/
def errcodeVectors : List (Fin 33) := [8, 10, 11, 12, 13, 14, 17]

def isrEntry (n : Fin 33) : List StubInstr :=
  if n ∈ errcodeVectors then isrErrcode (BitVec.ofNat 8 n.val)
  else isrNoerrcode (BitVec.ofNat 8 n.val)

/-- `isr0` to `isr32` -/
def isr (n : Fin 33) : List StubInstr := isrEntry n ++ commonStub

namespace Processor

/-- What the processor does itself, through an interrupt gate. -/
def deliver (errorCode : Option (BitVec 32)) (p : Processor) : Processor :=
  (([p.regs.eflags, p.cs.setWidth 32, p.eip] ++ errorCode.toList).foldl push p).mask

/-- An interrupt, up to the next instruction of the interrupted program. -/
def handle (n : Fin 33) (errorCode : Option (BitVec 32)) (p : Processor) : Processor :=
  (p.deliver errorCode).execAll (isr n)

/-! ## `common_stub` -/

/-- The words that `common_stub` pushes. -/
def stubWords (p : Processor) : List (BitVec 32) :=
  [p.regs.reg .eax, p.regs.reg .ecx, p.regs.reg .edx, p.regs.reg .ebx, p.regs.reg .esp,
    p.regs.reg .ebp, p.regs.reg .esi, p.regs.reg .edi,
    (p.regs.reg .eax).extractLsb' 16 16 ++ p.seg .ds, p.regs.reg .esp - 36#32]

theorem length_stubWords (p : Processor) : p.stubWords.length = 10 := rfl

theorem stubWords_fits (p : Processor) : 4 * p.stubWords.length ≤ 2 ^ 32 := by
  rw [length_stubWords]
  decide

theorem execAll_stubEnter (p : Processor) :
    (p.execAll stubEnter).regs.reg .esp = p.regs.reg .esp - 40#32 ∧
      (p.execAll stubEnter).mem = pushAll p.mem (p.regs.reg .esp) p.stubWords ∧
      (p.execAll stubEnter).ports = p.ports := by
  refine ⟨?_, ?_, rfl⟩
  · simp -implicitDefEqProofs [execAll, stubEnter, exec, push, set, setSeg, pushal, pushalOrder,
      pushWord, BitVec.sub_sub]
  · simp -implicitDefEqProofs [execAll, stubEnter, exec, push, set, setSeg, pushal, pushalOrder,
      pushWord, stubWords, pushAll, BitVec.sub_sub]

theorem execAll_stubAcknowledge (p : Processor) :
    (p.execAll stubAcknowledge).regs.reg .esp = p.regs.reg .esp ∧
      (p.execAll stubAcknowledge).mem = p.mem ∧
      (p.execAll stubAcknowledge).ports = p.ports ++ [(0x20, 0x20), (0xA0, 0x20)] := by
  have hal : ((p.regs.reg .eax).extractLsb' 8 24 ++ 0x20#8).setWidth 8 = 0x20#8 :=
    BitVec.setWidth_append_eq_right
  have hports : (p.execAll stubAcknowledge).ports =
      p.ports ++ [(0x20, ((p.regs.reg .eax).extractLsb' 8 24 ++ 0x20#8).setWidth 8)] ++
        [(0xA0, ((p.regs.reg .eax).extractLsb' 8 24 ++ 0x20#8).setWidth 8)] := rfl
  refine ⟨rfl, rfl, ?_⟩
  rw [hports, hal, List.append_assoc]
  rfl

/-- What `stubLeave` takes from the 60 bytes at `esp`. -/
def left (m : Memory) (esp : Address) (ports : List (BitVec 16 × BitVec 8)) : Processor where
  regs :=
    { (restored m (esp + 8#32)).set .esp (esp + 60#32) with eflags := word m (esp + 56#32) }
  seg := fun _ => (word m (esp + 4#32)).setWidth 16
  cs := (word m (esp + 52#32)).setWidth 16
  eip := word m (esp + 48#32)
  mem := m
  ports := ports

theorem execAll_stubLeave (p : Processor) :
    p.execAll stubLeave = left p.mem (p.regs.reg .esp) p.ports := by
  refine Processor.ext (Registers.ext (funext fun r => ?_) ?_) (funext fun s => ?_) ?_ ?_ rfl rfl
  · cases r <;>
      simp -implicitDefEqProofs [execAll, stubLeave, exec, set, setSeg, unmask, iret, popal,
        pushalOrder, popWord, left, restored, BitVec.add_assoc]
  · simp -implicitDefEqProofs [execAll, stubLeave, exec, set, setSeg, unmask, iret, popal,
      pushalOrder, popWord, left, BitVec.add_assoc]
  · cases s <;>
      simp -implicitDefEqProofs [execAll, stubLeave, exec, set, setSeg, unmask, iret, popal,
        pushalOrder, popWord, left]
  · simp -implicitDefEqProofs [execAll, stubLeave, exec, set, setSeg, unmask, iret, popal,
      pushalOrder, popWord, left, BitVec.add_assoc]
  · simp -implicitDefEqProofs [execAll, stubLeave, exec, set, setSeg, unmask, iret, popal,
      pushalOrder, popWord, left, BitVec.add_assoc]

/-- `common_stub` takes back what it has saved, and returns over two words. -/
theorem execAll_commonStub (p : Processor) :
    p.execAll commonStub =
      { regs :=
          { reg := Function.update p.regs.reg .esp (p.regs.reg .esp + 20#32)
            eflags := word p.mem (p.regs.reg .esp + 16#32) }
        seg := fun _ => p.seg .ds
        cs := (word p.mem (p.regs.reg .esp + 12#32)).setWidth 16
        eip := word p.mem (p.regs.reg .esp + 8#32)
        mem := pushAll p.mem (p.regs.reg .esp) p.stubWords
        ports := p.ports ++ [(0x20, 0x20), (0xA0, 0x20)] } := by
  rcases execAll_stubEnter p with ⟨hesp, hmem, hports⟩
  rcases execAll_stubAcknowledge (p.execAll stubEnter) with ⟨hesp', hmem', hports'⟩
  have hsaved : ∀ k w a, p.stubWords[k]? = some w →
      a = p.regs.reg .esp - BitVec.ofNat 32 (4 * (k + 1)) →
        word (pushAll p.mem (p.regs.reg .esp) p.stubWords) a = w := by
    intro k w a hw ha
    rcases List.getElem?_eq_some_iff.1 hw with ⟨hlt, rfl⟩
    rw [ha]
    exact word_pushAll p.stubWords_fits _ _ hlt
  -- what was there before is above the words that have been pushed
  have habove : ∀ k < 5, word (pushAll p.mem (p.regs.reg .esp) p.stubWords)
      (p.regs.reg .esp - 40#32 + BitVec.ofNat 32 (40 + 4 * k)) =
        word p.mem (p.regs.reg .esp + BitVec.ofNat 32 (4 * k)) := by
    intro k hk
    have haddress : p.regs.reg .esp - 40#32 + BitVec.ofNat 32 (40 + 4 * k) =
        p.regs.reg .esp + BitVec.ofNat 32 (4 * k) := by
      bv_omega
    rw [← haddress]
    refine word_congr fun i hi => pushAll_below p.stubWords_fits ?_
    intro hin
    have hlt := (within_offset (i := 40 + 4 * k + i) (by omega)).1
      ((offset_offset (p.regs.reg .esp - 40#32) (40 + 4 * k) i) ▸ hin)
    rw [length_stubWords] at hlt
    omega
  rw [commonStub, execAll_append, execAll_append, execAll_stubLeave, hesp', hmem', hports', hesp,
    hmem, hports]
  refine Processor.ext (Registers.ext (funext fun r => ?_) (habove 4 (by decide)))
    (funext fun s => ?_) ?_ (habove 2 (by decide)) rfl rfl
  · cases r with
    | eax => exact hsaved 0 _ _ rfl (by bv_omega)
    | ecx => exact hsaved 1 _ _ rfl (by bv_omega)
    | edx => exact hsaved 2 _ _ rfl (by bv_omega)
    | ebx => exact hsaved 3 _ _ rfl (by bv_omega)
    | esp =>
        have htop : p.regs.reg .esp - 40#32 + 60#32 = p.regs.reg .esp + 20#32 := by bv_omega
        exact htop
    | ebp => exact hsaved 5 _ _ rfl (by bv_omega)
    | esi => exact hsaved 6 _ _ rfl (by bv_omega)
    | edi => exact hsaved 7 _ _ rfl (by bv_omega)
  · have hds := hsaved 8 _ (p.regs.reg .esp - 40#32 + 4#32) rfl (by bv_omega)
    exact (congrArg (BitVec.setWidth 16) hds).trans BitVec.setWidth_append_eq_right
  · exact congrArg (BitVec.setWidth 16) (habove 3 (by decide))

/-! ## The entry -/

/-- `q` is `p` with words on its stack; the flags may be others. -/
structure Pushed (p : Processor) (ws : List (BitVec 32)) (q : Processor) : Prop where
  esp : q.regs.reg .esp = p.regs.reg .esp - BitVec.ofNat 32 (4 * ws.length)
  reg : ∀ r, r ≠ .esp → q.regs.reg r = p.regs.reg r
  seg : q.seg = p.seg
  mem : q.mem = pushAll p.mem (p.regs.reg .esp) ws
  ports : q.ports = p.ports

/-- The words above those of `common_stub`. -/
def entryWords (n : Fin 33) (errorCode : Option (BitVec 32)) (p : Processor) : List (BitVec 32) :=
  p.regs.eflags :: p.cs.setWidth 32 :: p.eip :: (errorCode.toList ++
    ((if n ∈ errcodeVectors then [] else [0#32]) ++ [(BitVec.ofNat 8 n.val).signExtend 32]))

theorem pushed_nil (p : Processor) : Pushed p [] p :=
  { esp := (BitVec.sub_zero _).symm
    reg := fun _ _ => rfl
    seg := rfl
    mem := rfl
    ports := rfl }

variable {p q : Processor} {ws : List (BitVec 32)}

theorem Pushed.mask (h : Pushed p ws q) : Pushed p ws q.mask :=
  { esp := h.esp
    reg := h.reg
    seg := h.seg
    mem := h.mem
    ports := h.ports }

theorem Pushed.push (h : Pushed p ws q) (w : BitVec 32) : Pushed p (ws ++ [w]) (q.push w) where
  esp := by
    have hnext : (q.push w).regs.reg .esp = q.regs.reg .esp - 4#32 := rfl
    rw [hnext, h.esp, BitVec.sub_sub, List.length_append, Nat.mul_add, BitVec.ofNat_add]
    rfl
  reg r hr := (Function.update_of_ne hr _ _).trans (h.reg r hr)
  seg := h.seg
  mem := by
    have hstore : (q.push w).mem = storeWord q.mem (q.regs.reg .esp - 4#32) w := rfl
    rw [hstore, h.mem, h.esp, pushAll_concat]
  ports := h.ports

theorem Pushed.foldl (h : Pushed p ws q) (ws' : List (BitVec 32)) :
    Pushed p (ws ++ ws') (ws'.foldl Processor.push q) := by
  induction ws' generalizing ws q with
  | nil =>
      rw [List.append_nil]
      exact h
  | cons w ws' ih =>
      have hnext := ih (h.push w)
      rwa [List.append_assoc] at hnext

theorem pushed_entry (n : Fin 33) (errorCode : Option (BitVec 32)) (p : Processor) :
    Pushed p (entryWords n errorCode p) ((p.deliver errorCode).execAll (isrEntry n)) := by
  have hdelivered : Pushed p ([p.regs.eflags, p.cs.setWidth 32, p.eip] ++ errorCode.toList)
      (p.deliver errorCode) := ((pushed_nil p).foldl _).mask
  unfold isrEntry entryWords
  by_cases hn : n ∈ errcodeVectors
  · rw [if_pos hn, if_pos hn]
    exact hdelivered.mask.push _
  · rw [if_neg hn, if_neg hn]
    have hboth := (hdelivered.mask.push 0#32).push ((BitVec.ofNat 8 n.val).signExtend 32)
    rw [List.append_assoc, List.append_assoc] at hboth
    exact hboth

/-! ## The way back -/

/-- The program goes on where it was; the bytes that the stub has used are below its stack. -/
structure Resumes (p q : Processor) : Prop where
  regs : q.regs = p.regs
  seg : q.seg = p.seg
  cs : q.cs = p.cs
  eip : q.eip = p.eip
  mem : ∀ a, ¬ Within (p.regs.reg .esp - 60#32) 60 a → q.mem a = p.mem a
  ports : q.ports = p.ports ++ [(0x20, 0x20), (0xA0, 0x20)]

/-- The processor has pushed an error code if and only if the stub is one for it. -/
def Expected (n : Fin 33) (errorCode : Option (BitVec 32)) : Prop :=
  errorCode.isSome ↔ n ∈ errcodeVectors

theorem length_entryWords_iff (n : Fin 33) (errorCode : Option (BitVec 32)) (p : Processor) :
    (entryWords n errorCode p).length = 5 ↔ Expected n errorCode := by
  unfold entryWords Expected
  by_cases hn : n ∈ errcodeVectors
  · cases errorCode <;> simp [hn]
  · cases errorCode <;> simp [hn]

theorem length_entryWords_le (n : Fin 33) (errorCode : Option (BitVec 32)) (p : Processor) :
    (entryWords n errorCode p).length ≤ 6 := by
  unfold entryWords
  by_cases hn : n ∈ errcodeVectors
  · cases errorCode <;> simp [hn]
  · cases errorCode <;> simp [hn]

/-- A stub comes back exactly from what it is made for. -/
theorem handle_resumes_iff (n : Fin 33) (errorCode : Option (BitVec 32)) (p : Processor) :
    Resumes p (p.handle n errorCode) ↔ Expected n errorCode ∧ ∀ s, p.seg s = p.seg .ds := by
  have hpushed := pushed_entry n errorCode p
  have hle := length_entryWords_le n errorCode p
  have hlength := length_entryWords_iff n errorCode p
  have hhandle : p.handle n errorCode =
      ((p.deliver errorCode).execAll (isrEntry n)).execAll commonStub := execAll_append _ _ _
  rw [hhandle, execAll_commonStub, ← hlength]
  generalize (p.deliver errorCode).execAll (isrEntry n) = q at hpushed
  constructor
  · intro h
    refine ⟨?_, fun s => ?_⟩
    · have hesp := congrArg (fun regs => regs.reg .esp) h.regs
      simp only [Function.update_self, hpushed.esp] at hesp
      bv_omega
    · have hseg := congrFun h.seg s
      rw [← hseg, hpushed.seg]
  · rintro ⟨hfive, hflat⟩
    have hesp := hpushed.esp
    rw [hfive] at hesp
    have hfits : 4 * (entryWords n errorCode p).length ≤ 2 ^ 32 := by omega
    have hword : ∀ k, ∀ w, (entryWords n errorCode p)[k]? = some w →
        word q.mem (p.regs.reg .esp - BitVec.ofNat 32 (4 * (k + 1))) = w := by
      intro k w hw
      rcases List.getElem?_eq_some_iff.1 hw with ⟨hk, rfl⟩
      rw [hpushed.mem]
      exact word_pushAll hfits _ _ hk
    have hat : ∀ k < 5, q.regs.reg .esp + BitVec.ofNat 32 (4 * k) =
        p.regs.reg .esp - BitVec.ofNat 32 (4 * (4 - k + 1)) := by
      intro k hk
      rw [hesp]
      bv_omega
    refine
      { regs := Registers.ext (funext fun r => by
          refine (Function.update_apply _ _ _ r).trans ?_
          split
          case isTrue hr =>
            rw [hr, hesp]
            bv_omega
          case isFalse hr => exact hpushed.reg r hr)
          ((congrArg (word q.mem) (hat 4 (by decide))).trans (hword 0 _ rfl))
        seg := by
          funext s
          rw [hflat s, hpushed.seg]
        cs := by
          have hcs := (congrArg (word q.mem) (hat 3 (by decide))).trans (hword 1 _ rfl)
          refine (congrArg (BitVec.setWidth 16) hcs).trans ?_
          simp
        eip := (congrArg (word q.mem) (hat 2 (by decide))).trans (hword 2 _ rfl)
        mem := fun a ha => ?_
        ports := by rw [hpushed.ports] }
    have hinner : ¬ Within (q.regs.reg .esp - 40#32) 40 a := by
      intro hin
      have hbottom : q.regs.reg .esp - 40#32 = offset (p.regs.reg .esp - 60#32) 0 := by
        rw [hesp, offset_zero]
        bv_omega
      rw [hbottom] at hin
      exact ha (hin.of_offset (by decide) (by decide))
    have houter : ¬ Within (p.regs.reg .esp - 20#32) 20 a := by
      intro hin
      have hbottom : p.regs.reg .esp - 20#32 = offset (p.regs.reg .esp - 60#32) 40 := by
        unfold offset
        bv_omega
      rw [hbottom] at hin
      exact ha (hin.of_offset (by decide) (by decide))
    calc
      pushAll q.mem (q.regs.reg .esp) q.stubWords a
          = q.mem a := pushAll_below q.stubWords_fits hinner
      _ = p.mem a := by
          rw [hpushed.mem]
          refine pushAll_below hfits ?_
          rw [hfive]
          exact houter

/-! ## Programs with interrupts -/

/-- What a program that keeps to its stack, from `base` on, does not tell apart. -/
structure Alike (base : Address) (p q : Processor) : Prop where
  regs : p.regs = q.regs
  seg : p.seg = q.seg
  cs : p.cs = q.cs
  eip : p.eip = q.eip
  mem : ∀ a, ¬ Within base (q.regs.reg .esp - base).toNat a → p.mem a = q.mem a

/-- There is room for a stub below the stack pointer, and one segment for all data. -/
structure Interruptible (base : Address) (p : Processor) : Prop where
  room : 60 ≤ (p.regs.reg .esp - base).toNat
  seg : ∀ s, p.seg s = p.seg .ds

/-- What comes next. -/
inductive Turn
  | compute
  | interrupt (n : Fin 33) (errorCode : Option (BitVec 32))

def Turn.Expected : Turn → Prop
  | .compute => True
  | .interrupt n errorCode => Processor.Expected n errorCode

/-- `program` is what the interrupted program does between two places where it can be interrupted. -/
def turn (program : Processor → Processor) (p : Processor) : Turn → Processor
  | .compute => program p
  | .interrupt n errorCode => p.handle n errorCode

def Turn.rounds : Turn → Nat
  | .compute => 1
  | .interrupt _ _ => 0

theorem Alike.trans {base : Address} {r : Processor} (h : Alike base p q) (h' : Alike base q r) :
    Alike base p r where
  regs := h.regs.trans h'.regs
  seg := h.seg.trans h'.seg
  cs := h.cs.trans h'.cs
  eip := h.eip.trans h'.eip
  mem a ha := by
    have hsame : ¬ Within base (q.regs.reg .esp - base).toNat a := by
      rw [h'.regs]
      exact ha
    exact (h.mem a hsame).trans (h'.mem a ha)

/-- The stub uses what is dead for the program. -/
theorem Resumes.alike {base : Address} (h : Resumes p q) (hroom : Interruptible base p) :
    Alike base q p where
  regs := h.regs
  seg := h.seg
  cs := h.cs
  eip := h.eip
  mem a ha := by
    refine h.mem a fun hused => ha ?_
    have hroom := hroom.room
    have hlt := (p.regs.reg .esp - base).isLt
    have hbottom : p.regs.reg .esp - 60#32 =
        offset base ((p.regs.reg .esp - base).toNat - 60) := by
      unfold offset
      bv_omega
    rw [hbottom] at hused
    exact hused.of_offset (by omega) (by omega)

/-- An interrupted program computes what it computes without interrupts. -/
theorem interrupts_unseen {base : Address} {program : Processor → Processor}
    (hblind : ∀ p q, Alike base p q → Alike base (program p) (program q))
    (hkeeps : ∀ p, Interruptible base p → Interruptible base (program p))
    (hp : Interruptible base p) (turns : List Turn) (hturns : ∀ t ∈ turns, t.Expected) :
    Alike base (turns.foldl (turn program) p) (program^[(turns.map Turn.rounds).sum] p) := by
  have hrun : ∀ turns : List Turn, (∀ t ∈ turns, t.Expected) → ∀ p q, Interruptible base q →
      Alike base p q →
        Alike base (turns.foldl (turn program) p) (program^[(turns.map Turn.rounds).sum] q) := by
    intro turns
    induction turns with
    | nil => exact fun _ _ _ _ hsame => hsame
    | cons t turns ih =>
        intro hturns p q hq hsame
        rcases List.forall_mem_cons.1 hturns with ⟨ht, hrest⟩
        cases t with
        | compute =>
            have hsum : ((Turn.compute :: turns).map Turn.rounds).sum =
                (turns.map Turn.rounds).sum + 1 := Nat.add_comm 1 _
            rw [hsum, Function.iterate_succ_apply]
            exact ih hrest _ _ (hkeeps q hq) (hblind p q hsame)
        | interrupt n errorCode =>
            have hsum : ((Turn.interrupt n errorCode :: turns).map Turn.rounds).sum =
                (turns.map Turn.rounds).sum := Nat.zero_add _
            have hp : Interruptible base p :=
              { room := by
                  rw [hsame.regs]
                  exact hq.room
                seg := by
                  rw [hsame.seg]
                  exact hq.seg }
            have hresumes := (handle_resumes_iff n errorCode p).2 ⟨ht, hp.seg⟩
            rw [hsum]
            exact ih hrest _ _ hq ((hresumes.alike hp).trans hsame)
  exact hrun turns hturns p p hp
    { regs := rfl
      seg := rfl
      cs := rfl
      eip := rfl
      mem := fun _ _ => rfl }

/-- A program that counts in `eax`. -/
def counting (p : Processor) : Processor := p.set .eax (p.regs.reg .eax + 1)

/-- At the start of such a program. -/
def beforeCounting : Processor where
  regs := { reg := Function.update (fun _ => 0) .esp 0x2000, eflags := 0x202 }
  seg := fun _ => 0x10
  cs := 0x08
  eip := 0x100
  mem := fun _ => 0
  ports := []

/-- The timer and a page fault. -/
theorem interrupts_unseen_counting :
    Alike 0x1000
      ([.compute, .interrupt 32 none, .compute, .interrupt 14 (some 4)].foldl (turn counting)
        beforeCounting)
      (counting^[2] beforeCounting) := by
  refine @interrupts_unseen beforeCounting 0x1000 counting (fun p q h => ?_)
    (fun p h => ⟨h.room, h.seg⟩) ⟨by decide, fun _ => rfl⟩
    [.compute, .interrupt 32 none, .compute, .interrupt 14 (some 4)] ?_
  · exact
      { regs := by rw [counting, counting, set, set, h.regs]
        seg := h.seg
        cs := h.cs
        eip := h.eip
        mem := h.mem }
  · intro t ht
    simp only [List.mem_cons, List.not_mem_nil, or_false] at ht
    rcases ht with rfl | rfl | rfl | rfl
    · exact trivial
    · exact iff_of_false (by decide) (by decide)
    · exact trivial
    · exact iff_of_true rfl (by decide)

end Processor

end Asm
end WhitexKernel
