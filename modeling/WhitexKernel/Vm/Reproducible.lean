import WhitexKernel.Heap.Chain
import WhitexKernel.Lib.Bytes
import WhitexKernel.Vm.Sandbox

/-!
# Reproducible — what a virtual machine executes, and what the heap held before

`whitex_malloc` hands out memory as it finds it, and `vm_run` does not know how long the program is.
Two machines created over different heaps run alike as long as they execute bytes that were loaded,
and only then (`reproducible_iff`).
-/

namespace WhitexKernel
namespace Vm

open Heap Lib Machine Shell

theorem loaded_length_le (memSize : Nat) (program : List UInt8) :
    (loaded memSize program).length ≤ memSize ∧
      (loaded memSize program).length ≤ program.length := by
  unfold loaded
  split
  case isTrue => exact ⟨Nat.zero_le _, Nat.zero_le _⟩
  case isFalse hfits => exact ⟨Nat.le_of_not_gt hfits, Nat.le_refl _⟩

theorem vmLoadProgram_eq (m : Memory) (vm : VMState) (program : List UInt8) :
    vmLoadProgram m vm program =
      (List.range (loaded vm.memSize program).length).foldl
        (fun m i => Function.update m (wrap32 (vm.ram + i)) ((loaded vm.memSize program).getD i 0))
        m := by
  unfold vmLoadProgram loaded
  split <;> rfl

theorem loaded_length_lt (memSize : UInt32) (program : List UInt8) :
    (loaded memSize.toNat program).length < 2 ^ 32 :=
  Nat.lt_of_le_of_lt (loaded_length_le _ _).1 memSize.toNat_lt

theorem Created.memSize_eq {m m' : Memory} {memSize : UInt32} {program : List UInt8} {block : Nat}
    {vm : VMState} (h : Created m memSize program m' block vm) : vm.memSize = memSize.toNat := by
  rw [vmCreate_fields h.created]

/-! ## Executions -/

namespace Execution

variable {ε : Type} {executeSyscall : ε → (Nat → Nat) → Nat → Option (ε × (Nat → Nat))}

/-- The same execution with the RAM elsewhere. -/
def withRam (e : Execution ε) (ram : Nat) : Execution ε := { e with vm := { e.vm with ram := ram } }

theorem execute_withRam (e : Execution ε) (ram : Nat) (bytes : List UInt8) :
    (e.withRam ram).execute executeSyscall bytes =
      (e.execute executeSyscall bytes).map fun e => e.withRam ram := by
  unfold execute
  simp only
  split_ifs
  · rw [Option.map_map]
    rfl
  · rfl
  · rfl
  · rfl
  · rfl

theorem execute_ram {e e' : Execution ε} {bytes : List UInt8}
    (h : e.execute executeSyscall bytes = some e') : e'.vm.ram = e.vm.ram := by
  unfold execute at h
  simp only at h
  split_ifs at h
  · rcases Option.map_eq_some_iff.1 h with ⟨r, _, rfl⟩
    rfl
  all_goals
    cases h
    rfl

theorem execute_pc_lt {e e' : Execution ε} {bytes : List UInt8}
    (h : e.execute executeSyscall bytes = some e') (hpc : e.vm.pc + 8 < 2 ^ 32) :
    e'.vm.pc < 2 ^ 32 := by
  have hnext : (e.vm.pc + 8) % 2 ^ 64 < 2 ^ 32 := by omega
  unfold execute at h
  simp only at h
  split_ifs at h
  · rcases Option.map_eq_some_iff.1 h with ⟨r, _, rfl⟩
    exact hnext
  · cases h
    exact hnext
  · cases h
    exact hnext
  · cases h
    exact Nat.mod_lt _ (by decide)
  · cases h
    exact hnext

end Execution

/-! ## Two machines with the same program -/

namespace Guest

variable {ε : Type} {executeSyscall : ε → (Nat → Nat) → Nat → Option (ε × (Nat → Nat))}
  {code : List UInt8} {s t : Guest ε}

/-- The next fetch, if there is one, lies inside the first `size` bytes of the RAM. -/
def FetchWithin (size : Nat) (s : Guest ε) : Prop := s.vm.running = true → s.vm.pc + 8 ≤ size

/-- The RAM begins with `code`, out of the reach of the `VMState`. -/
structure Holds (code : List UInt8) (s : Guest ε) : Prop where
  apart : ∀ i < code.length, ¬ InsideState s.block (s.vm.ram + i)
  stored : ∀ i < code.length, s.memory (wrap32 (s.vm.ram + i)) = code.getD i 0

theorem byteAt_of_not_inside {address : Nat} (h : ¬ InsideState s.block address) :
    s.byteAt address = s.memory (wrap32 address) := by
  unfold byteAt
  exact if_neg h

theorem Holds.fetch (h : Holds code s) {pc : Nat} (hpc : pc + 8 ≤ code.length) :
    s.fetch pc = (List.range 8).map fun i => code.getD (pc + i) 0 := by
  unfold Guest.fetch
  apply List.map_congr_left
  intro i hi
  have hlt : pc + i < code.length := by
    have := List.mem_range.1 hi
    omega
  rw [byteAt_of_not_inside (h.apart _ hlt)]
  exact h.stored _ hlt

/-- Two machines that hold the same code and differ in the place of their RAM only. -/
structure Alike (code : List UInt8) (s t : Guest ε) : Prop where
  left : Holds code s
  right : Holds code t
  execution : s.execution = t.execution.withRam s.vm.ram
  pc_lt : t.vm.pc < 2 ^ 32

theorem Alike.running_eq (h : Alike code s t) : s.vm.running = t.vm.running := by
  unfold vm
  rw [h.execution]
  rfl

theorem Alike.pc_eq (h : Alike code s t) : s.vm.pc = t.vm.pc := by
  unfold vm
  rw [h.execution]
  rfl

theorem alike_step (h : Alike code s t) (hcode : code.length < 2 ^ 32)
    (hfetch : FetchWithin code.length t) :
    Option.Rel (Alike code) (s.step executeSyscall ()) (t.step executeSyscall ()) := by
  have hrunning : s.execution.vm.running = t.execution.vm.running := h.running_eq
  have hpc : s.execution.vm.pc = t.execution.vm.pc := h.pc_eq
  unfold Guest.step Execution.round
  rw [hrunning]
  split
  case isFalse => exact .none
  case isTrue hgoes =>
    have hinside : t.execution.vm.pc + 8 ≤ code.length := hfetch hgoes
    -- both memories hold the code where the instruction is, so both fetch the same
    rw [hpc, h.left.fetch hinside, h.right.fetch hinside, h.execution, Execution.execute_withRam]
    cases he : t.execution.execute executeSyscall
        ((List.range 8).map fun i => code.getD (t.execution.vm.pc + i) 0) with
    | none => exact .none
    | some e =>
        have hram : e.vm.ram = t.vm.ram := Execution.execute_ram he
        refine .some ⟨⟨h.left.apart, h.left.stored⟩, ⟨?_, ?_⟩, rfl, ?_⟩
        · change ∀ i < code.length, ¬ InsideState t.block (e.vm.ram + i)
          rw [hram]
          exact h.right.apart
        · change ∀ i < code.length, t.memory (wrap32 (e.vm.ram + i)) = code.getD i 0
          rw [hram]
          exact h.right.stored
        · exact Execution.execute_pc_lt he (by omega)

/-! ## The start -/

theorem holds_start {m m' : Memory} {memSize : UInt32} {program : List UInt8} {block : Nat}
    {vm : VMState} (h : Created m memSize program m' block vm) (registers : Nat → Nat) (env : ε) :
    Holds (loaded memSize.toNat program) (start m' block vm program registers env) := by
  refine ⟨h.apart, fun i hi => ?_⟩
  have hlt := loaded_length_lt memSize program
  change vmLoadProgram m' vm program (wrap32 (vm.ram + i)) = _
  rw [vmLoadProgram_eq, h.memSize_eq]
  refine Bytes.foldl_update_apply m' (fun i => wrap32 (vm.ram + i)) _ ?_ hi
  intro i hi j hj heq
  unfold wrap32 at heq
  omega

theorem alike_start {m₁ m₁' m₂ m₂' : Memory} {memSize : UInt32} {program : List UInt8}
    {block₁ block₂ : Nat} {vm₁ vm₂ : VMState} (h₁ : Created m₁ memSize program m₁' block₁ vm₁)
    (h₂ : Created m₂ memSize program m₂' block₂ vm₂)
    (registers : Nat → Nat) (env : ε) :
    Alike (loaded memSize.toNat program) (start m₁' block₁ vm₁ program registers env)
      (start m₂' block₂ vm₂ program registers env) := by
  refine ⟨holds_start h₁ registers env, holds_start h₂ registers env, ?_, ?_⟩
  · unfold start Execution.withRam
    rw [vmCreate_fields h₁.created, vmCreate_fields h₂.created]
  · change vm₂.pc < 2 ^ 32
    rw [vmCreate_fields h₂.created]
    exact Nat.two_pow_pos 32

/-! ## Whole runs -/

/-- What a run of `vm_run` shows: the registers, `pc`, whether it goes on, the system calls so far,
and the bytes it executes next. -/
structure Observation where
  registers : Nat → Nat
  pc : Nat
  running : Bool
  syscalls : List Nat
  next : Option (List UInt8)

def seen (s : Guest ε) : Observation :=
  { registers := s.vm.registers
    pc := s.vm.pc
    running := s.vm.running
    syscalls := s.execution.syscalls
    next := if s.vm.running then some (s.fetch s.vm.pc) else none }

theorem seen_eq (h : Alike code s t) (hfetch : FetchWithin code.length t) :
    s.seen = t.seen := by
  have hnext : (if s.vm.running then some (s.fetch s.vm.pc) else none) =
      if t.vm.running then some (t.fetch t.vm.pc) else none := by
    rw [h.running_eq, h.pc_eq]
    split
    case isFalse => rfl
    case isTrue hgoes => rw [h.left.fetch (hfetch hgoes), h.right.fetch (hfetch hgoes)]
  unfold seen
  rw [hnext]
  unfold vm
  rw [h.execution]
  rfl

theorem run_seen_eq (h : Alike code s t) (hcode : code.length < 2 ^ 32) {as : List Unit}
    (hfetch : AllStates (step executeSyscall) (FetchWithin code.length) t as) :
    (exec (step executeSyscall) s as).map seen = (exec (step executeSyscall) t as).map seen := by
  have hrel : Option.Rel (Alike code) (exec (step executeSyscall) s as)
      (exec (step executeSyscall) t as) :=
    exec_rel (fun _ _ _ halike hwithin => alike_step halike hcode hwithin) h hfetch.allTried
  generalize hs : exec (step executeSyscall) s as = s' at hrel
  generalize ht : exec (step executeSyscall) t as = t' at hrel
  cases hrel with
  | none => rfl
  | some halike =>
      rw [Option.map_some, Option.map_some, seen_eq halike (hfetch.last ht)]

theorem exec_frame {as : List Unit} (h : exec (step executeSyscall) s as = some t) :
    t.memory = s.memory ∧ t.block = s.block ∧ t.vm.ram = s.vm.ram := by
  refine Reachable.invariant
    (I := fun t : Guest ε => t.memory = s.memory ∧ t.block = s.block ∧ t.vm.ram = s.vm.ram)
    ?_ ⟨rfl, rfl, rfl⟩ ⟨as, h⟩
  rintro u _ v ⟨hmemory, hblock, hram⟩ hstep
  rcases Option.map_eq_some_iff.1 hstep with ⟨e, he, rfl⟩
  refine ⟨hmemory, hblock, ?_⟩
  unfold Execution.round at he
  split at he
  case isFalse => cases he
  case isTrue => exact (Execution.execute_ram he).trans hram

/-- Two machines created over heaps with any contents, in the same surroundings, show the same at
every point of their runs. -/
def Reproducible (executeSyscall : ε → (Nat → Nat) → Nat → Option (ε × (Nat → Nat)))
    (memSize : UInt32) (program : List UInt8) (registers : Nat → Nat) (env : ε) : Prop :=
  ∀ (m₁ m₁' m₂ m₂' : Memory) (block₁ block₂ : Nat) (vm₁ vm₂ : VMState),
    (∀ address, heapSize ≤ address → m₁ address = m₂ address) →
    Created m₁ memSize program m₁' block₁ vm₁ → Created m₂ memSize program m₂' block₂ vm₂ →
    ∀ n, (exec (step executeSyscall) (start m₁' block₁ vm₁ program registers env)
          (List.replicate n ())).map seen =
        (exec (step executeSyscall) (start m₂' block₂ vm₂ program registers env)
          (List.replicate n ())).map seen

end Guest

/-! ## Two heaps -/

section Layout

variable {base : Memory} {k : Nat}

/-- A heap with a free block for the `VMState`, a block of `k` bytes in use behind it, and the end of
the chain, over the bytes `base`. -/
def layout (base : Memory) (k : Nat) : Memory :=
  writeHeader
    (writeHeader (writeHeader base 0 { size := sizeofVMState, status := blockFree }) 156
      { size := k, status := blockUsed })
    (164 + k) { size := 0, status := blockFree }

/-- What `vm_create` leaves of it. -/
def createdLayout (base : Memory) (k memSize : Nat) : Memory :=
  writeHeader (writeHeader (layout base k) 0 { size := sizeofVMState, status := blockUsed }) (164 + k)
    { size := memSize, status := blockUsed }

/-- The headers that the second call of `whitex_malloc` reads. -/
theorem readHeader_layout (base : Memory) (hk : k < 1000) :
    let m := writeHeader (layout base k) 0 { size := sizeofVMState, status := blockUsed }
    readHeader m 0 = ⟨sizeofVMState, blockUsed⟩ ∧ readHeader m 156 = ⟨k, blockUsed⟩ ∧
      readHeader m (164 + k) = ⟨0, blockFree⟩ := by
  intro m
  have hbehind : 156 + sizeofBlockHeader ≤ 164 + k := Nat.le_add_right 164 k
  have hmiddle : readHeader m 156 = ⟨k, blockUsed⟩ := by
    rw [readHeader_writeHeader_of_apart _ _ (.inr (by decide)), layout,
      readHeader_writeHeader_of_apart _ _ (.inl hbehind), readHeader_writeHeader]
    change k < 2 ^ 32
    omega
  have hend : readHeader m (164 + k) = ⟨0, blockFree⟩ := by
    rw [readHeader_writeHeader_of_apart _ _ (.inr (Nat.le_trans (by decide) hbehind)), layout,
      readHeader_writeHeader _ _ (by decide)]
  exact ⟨readHeader_writeHeader _ _ (by decide), hmiddle, hend⟩

theorem whitexMalloc_layout :
    whitexMalloc (layout base k) sizeofVMState =
      some (writeHeader (layout base k) 0 { size := sizeofVMState, status := blockUsed }, some 8) := by
  have hbehind : 0 + sizeofBlockHeader ≤ 164 + k := by
    unfold sizeofBlockHeader
    omega
  have hhead : readHeader (layout base k) 0 = ⟨sizeofVMState, blockFree⟩ := by
    rw [layout, readHeader_writeHeader_of_apart _ _ (.inl hbehind),
      readHeader_writeHeader_of_apart _ _ (.inl (by decide)), readHeader_writeHeader _ _ (by decide)]
  have hloop : mallocLoop (layout base k) sizeofVMState walkFuel 0 = some (some 0) :=
    mallocLoop_of_serves heapSize (by decide) hhead (by decide)
  unfold whitexMalloc
  simp only [hloop]
  rfl

/-- The machine that `vm_create` returns. -/
abbrev freshVm (memSize ram : Nat) : VMState :=
  { registers := fun _ => 0, pc := 0, running := false, memSize := memSize, ram := ram }

theorem vmCreate_layout (hpos : 0 < k) (hk : k < 1000) (memSize : Nat) :
    vmCreate (layout base k) memSize =
      some (createdLayout base k memSize, some (8, freshVm memSize (172 + k))) := by
  have hused : ∀ size, 0 < size → BlockHeader.serves ⟨size, blockUsed⟩ memSize = false := by
    intro size hsize
    have hne : (size == 0) = false := by simpa using Nat.ne_of_gt hsize
    unfold BlockHeader.serves
    rw [hne, show (blockUsed == blockFree) = false from rfl]
    rfl
  obtain ⟨hfirst, hmiddle, hend⟩ := readHeader_layout base hk
  -- the two blocks in use are passed over, and the end of the walk serves the request
  have hloop : mallocLoop (writeHeader (layout base k) 0 ⟨sizeofVMState, blockUsed⟩) memSize
      walkFuel 0 = some (some (164 + k)) := by
    calc mallocLoop _ memSize (65536 + 1) 0
        = mallocLoop _ memSize (65535 + 1) 156 :=
          mallocLoop_of_not_serves _ (by decide) hfirst (hused _ (by decide)) (by decide)
      _ = mallocLoop _ memSize (65534 + 1) (164 + k) :=
          mallocLoop_of_not_serves _ (by decide) hmiddle (hused k hpos)
            (by simp only [sizeofBlockHeader]; omega)
      _ = some (some (164 + k)) :=
          mallocLoop_of_serves _ (by unfold heapSize; omega) hend rfl
  have hram : 164 + k + sizeofBlockHeader = 172 + k := by
    unfold sizeofBlockHeader
    omega
  unfold vmCreate
  rw [whitexMalloc_layout]
  simp only [whitexMalloc, hloop, hram]
  rfl

theorem layout_of_outside (hk : k < 1000) {address : Nat} (h : heapSize ≤ address) :
    layout base k address = base address := by
  unfold heapSize at h
  rw [layout, writeHeader_of_gt _ _ (by omega), writeHeader_of_gt _ _ (by omega),
    writeHeader_of_gt _ _ (by omega)]

/-- Behind the first two headers only the header of the RAM is not as it was. -/
theorem createdLayout_of_ge {memSize address : Nat} (hge : 164 ≤ address)
    (hheader : ¬ (164 + k ≤ address ∧ address < 169 + k)) :
    createdLayout base k memSize address = base address := by
  have hbelow : createdLayout base k memSize address =
      layout base k address := by
    rw [createdLayout]
    by_cases hlt : address < 164 + k
    · rw [writeHeader_of_lt _ _ hlt, writeHeader_of_gt _ _ (by omega)]
    · rw [writeHeader_of_gt _ _ (by omega), writeHeader_of_gt _ _ (by omega)]
  rw [hbelow, layout]
  by_cases hlt : address < 164 + k
  · rw [writeHeader_of_lt _ _ hlt, writeHeader_of_gt _ _ (by omega), writeHeader_of_gt _ _ (by omega)]
  · rw [writeHeader_of_gt _ _ (by omega), writeHeader_of_gt _ _ (by omega),
      writeHeader_of_gt _ _ (by omega)]

theorem created_layout (base : Memory) (hpos : 0 < k) (hk : k < 1000) (memSize : UInt32)
    {program : List UInt8}
    (hprogram : program.length + heapSize ≤ 2 ^ 32) :
    Created (layout base k) memSize program (createdLayout base k memSize.toNat) 8
      (freshVm memSize.toNat (172 + k)) := by
  refine ⟨vmCreate_layout hpos hk memSize.toNat, fun i hi => ?_⟩
  have hlen := (loaded_length_le memSize.toNat program).2
  unfold heapSize at hprogram
  rintro ⟨_, hlt⟩
  change wrap32 (172 + k + i) < 8 + sizeofVMState at hlt
  rw [wrap32_of_lt (by omega)] at hlt
  unfold sizeofVMState at hlt
  omega

/-- A fetch that is not covered by `size` loaded bytes reads a byte that is neither one of them nor
one of the header in front of the RAM. -/
theorem exists_unloaded {pc size : Nat} (hpc : pc < 2 ^ 32) (hsize : size + heapSize ≤ 2 ^ 32)
    (hover : size < pc + 8) :
    ∃ j < 8, size ≤ wrap32 (pc + j) ∧
      ¬ (2 ^ 32 - 8 ≤ wrap32 (pc + j) ∧ wrap32 (pc + j) < 2 ^ 32 - 3) := by
  unfold heapSize at hsize
  unfold wrap32
  by_cases hlast : 2 ^ 32 ≤ pc + 8
  · -- it reaches the last byte of the address space, padding of that header
    exact ⟨2 ^ 32 - 1 - pc, by omega, by omega, by omega⟩
  · by_cases hpadding : 2 ^ 32 - 8 ≤ pc + 7
    · exact ⟨0, by omega, by omega, by omega⟩
    · exact ⟨7, by omega, by omega, by omega⟩

/-- The RAM can be placed so that a byte behind it is not among the first headers. -/
theorem exists_room (q least : Nat) :
    ∃ k, least ≤ k ∧ k ≤ least + 200 ∧ 164 ≤ wrap32 (172 + k + q) := by
  unfold wrap32
  by_cases hroom : 164 ≤ (172 + least + q) % 2 ^ 32
  · exact ⟨least, by omega, by omega, hroom⟩
  · exact ⟨least + 200, by omega, by omega, by omega⟩

end Layout

namespace Guest

variable {ε : Type} {executeSyscall : ε → (Nat → Nat) → Nat → Option (ε × (Nat → Nat))}

theorem byteAt_layout {s : Guest ε} {base : Memory} {k q memSize : Nat} {program : List UInt8}
    (hmemory : s.memory =
      vmLoadProgram (createdLayout base k memSize) (freshVm memSize (172 + k)) program)
    (hblock : s.block = 8) (hsize : (loaded memSize program).length ≤ 2 ^ 32)
    (hroom : 164 ≤ wrap32 (172 + k + q)) (hbehind : (loaded memSize program).length ≤ wrap32 q)
    (hheader : ¬ (2 ^ 32 - 8 ≤ wrap32 q ∧ wrap32 q < 2 ^ 32 - 3)) :
    s.byteAt (172 + k + q) = base (wrap32 (172 + k + q)) := by
  have hinside : ¬ InsideState s.block (172 + k + q) := by
    rintro ⟨_, hlt⟩
    rw [hblock] at hlt
    unfold sizeofVMState at hlt
    omega
  rw [byteAt_of_not_inside hinside, hmemory, vmLoadProgram_eq]
  rw [Bytes.foldl_update_of_ne, createdLayout_of_ge hroom]
  · unfold wrap32 at *
    omega
  · intro i hi heq
    change i < (loaded memSize program).length at hi
    change wrap32 (172 + k + i) = _ at heq
    unfold wrap32 at *
    omega

/-- A machine that comes to a fetch outside the loaded bytes, over some heap. -/
theorem not_reproducible_of_fetch {m m' : Memory} {memSize : UInt32} {program : List UInt8}
    {block : Nat} {vm : VMState} (h : Created m memSize program m' block vm)
    (hprogram : program.length + heapSize ≤ 2 ^ 32) {registers : Nat → Nat} {env : ε} {n : Nat}
    {t : Guest ε}
    (hexec : exec (step executeSyscall) (start m' block vm program registers env)
      (List.replicate n ()) = some t)
    (htried : AllTried (step executeSyscall)
      (fun s _ => FetchWithin (loaded memSize.toNat program).length s)
      (start m' block vm program registers env) (List.replicate n ()))
    (ht : ¬ FetchWithin (loaded memSize.toNat program).length t) :
    ¬ Reproducible executeSyscall memSize program registers env := by
  intro hrep
  have hcode := loaded_length_lt memSize program
  have hsize : (loaded memSize.toNat program).length + heapSize ≤ 2 ^ 32 := by
    have hlen := (loaded_length_le memSize.toNat program).2
    omega
  -- over every other heap, the same fetch is reached
  have hreached : ∀ (base : Memory) (k : Nat), 0 < k → k < 1000 → ∃ s : Guest ε,
      exec (step executeSyscall) (start (createdLayout base k memSize.toNat) 8
          (freshVm memSize.toNat (172 + k)) program registers env) (List.replicate n ()) = some s ∧
        Alike (loaded memSize.toNat program) s t := by
    intro base k hpos hk
    exact exists_exec_of_rel (fun _ _ _ halike hwithin => alike_step halike hcode hwithin)
      (alike_start (created_layout base hpos hk memSize hprogram) h registers env) htried hexec
  obtain ⟨hrunning, hover⟩ := Classical.not_imp.1 ht
  obtain ⟨_, _, hsame⟩ := hreached (fun _ => 0) 1 (by decide) (by decide)
  obtain ⟨j, hj, hbehind, hheader⟩ := exists_unloaded hsame.pc_lt hsize (by omega)
  -- two places for the RAM: one run reads a 1 where the other one reads a 0
  obtain ⟨k₁, hk₁, hk₁', hroom₁⟩ := exists_room (t.vm.pc + j) 256
  obtain ⟨k₂, hk₂, hk₂', hroom₂⟩ := exists_room (t.vm.pc + j) 656
  let base : Memory := fun a => if a = wrap32 (172 + k₁ + (t.vm.pc + j)) then 1 else 0
  obtain ⟨s₁, hs₁, halike₁⟩ := hreached base k₁ (by omega) (by omega)
  obtain ⟨s₂, hs₂, halike₂⟩ := hreached base k₂ (by omega) (by omega)
  have hbyte₁ : s₁.byteAt (s₁.vm.ram + (t.vm.pc + j)) = 1 := by
    obtain ⟨hmemory, hblock, hram⟩ := exec_frame hs₁
    change s₁.vm.ram = 172 + k₁ at hram
    rw [hram, byteAt_layout hmemory hblock (by omega) hroom₁ hbehind hheader]
    exact if_pos rfl
  have hbyte₂ : s₂.byteAt (s₂.vm.ram + (t.vm.pc + j)) = 0 := by
    obtain ⟨hmemory, hblock, hram⟩ := exec_frame hs₂
    change s₂.vm.ram = 172 + k₂ at hram
    rw [hram, byteAt_layout hmemory hblock (by omega) hroom₂ hbehind hheader]
    refine if_neg ?_
    unfold wrap32
    omega
  have hagree : ∀ a, heapSize ≤ a → layout base k₁ a = layout base k₂ a := fun a ha =>
    (layout_of_outside (by omega) ha).trans (layout_of_outside (by omega) ha).symm
  have hseen := hrep _ _ _ _ _ _ _ _ hagree
    (created_layout base (by omega) (by omega) memSize hprogram)
    (created_layout base (by omega) (by omega) memSize hprogram) n
  rw [hs₁, hs₂, Option.map_some, Option.map_some, Option.some.injEq] at hseen
  have hnext : ∀ {s : Guest ε}, Alike (loaded memSize.toNat program) s t →
      s.seen.next = some (s.fetch t.vm.pc) := by
    intro s halike
    change (if s.vm.running then some (s.fetch s.vm.pc) else none) = _
    rw [halike.running_eq, if_pos hrunning, halike.pc_eq]
  have hfetched : s₁.fetch t.vm.pc = s₂.fetch t.vm.pc := by
    apply Option.some.inj
    rw [← hnext halike₁, ← hnext halike₂, hseen]
  have hbytes : s₁.byteAt (s₁.vm.ram + (t.vm.pc + j)) = s₂.byteAt (s₂.vm.ram + (t.vm.pc + j)) :=
    List.map_inj_left.1 hfetched j (List.mem_range.2 hj)
  rw [hbyte₁, hbyte₂] at hbytes
  exact absurd hbytes (by decide)

/-- A program and registers give the same run over all heaps exactly when, over every heap, the run
fetches nothing but loaded bytes. -/
theorem reproducible_iff (executeSyscall : ε → (Nat → Nat) → Nat → Option (ε × (Nat → Nat)))
    (memSize : UInt32) (program : List UInt8) (hprogram : program.length + heapSize ≤ 2 ^ 32)
    (registers : Nat → Nat) (env : ε) :
    Reproducible executeSyscall memSize program registers env ↔
      ∀ (m m' : Memory) (block : Nat) (vm : VMState), Created m memSize program m' block vm →
        ∀ n, AllStates (step executeSyscall)
          (FetchWithin (loaded memSize.toNat program).length)
          (start m' block vm program registers env) (List.replicate n ()) := by
  constructor
  · intro hrep m m' block vm hcreated n
    apply Classical.byContradiction
    intro hbad
    obtain ⟨bs, cs, t, has, hexec, ht, htried⟩ := exists_first_of_not_allStates hbad
    have hbs : bs = List.replicate bs.length () := List.eq_replicate_iff.2 ⟨rfl, fun _ _ => rfl⟩
    rw [hbs] at hexec htried
    exact not_reproducible_of_fetch hcreated hprogram hexec htried ht hrep
  · intro hwithin m₁ m₁' m₂ m₂' block₁ block₂ vm₁ vm₂ _ h₁ h₂ n
    exact run_seen_eq (alike_start h₁ h₂ registers env) (loaded_length_lt memSize program)
      (hwithin m₂ m₂' block₂ vm₂ h₂ n)

theorem reproducible_iff_wellBehaved :
    Reproducible kernelSyscall 32 wellBehaved (fun _ => 0) ShellState.initial ↔
      ∀ (m m' : Memory) (block : Nat) (vm : VMState), Created m 32 wellBehaved m' block vm →
        ∀ n, AllStates (step kernelSyscall)
          (FetchWithin (loaded (32 : UInt32).toNat wellBehaved).length)
          (start m' block vm wellBehaved (fun _ => 0) ShellState.initial) (List.replicate n ()) :=
  reproducible_iff kernelSyscall 32 wellBehaved (by decide) (fun _ => 0) ShellState.initial

/-- The heap after a block of 200 bytes was allocated, an instruction written into it and the block
freed. -/
def recycledHeap : Memory :=
  writeStatus
    (Bytes.overwrite (writeHeader emptyHeap 0 { size := 200, status := blockUsed }) 164
      (assemble 0x01 0 7))
    0 blockFree

/-- `sys_vm_init` loads no program. -/
theorem reproducible_false :
    ¬ ∀ (memSize : UInt32) (program : List UInt8), program.length + heapSize ≤ 2 ^ 32 →
      ∀ (registers : Nat → Nat) (env : ShellState),
        Reproducible kernelSyscall memSize program registers env := by
  intro h
  have hagree : ∀ address, heapSize ≤ address → emptyHeap address = recycledHeap address := by
    intro address haddress
    unfold heapSize at haddress
    unfold recycledHeap writeStatus
    rw [if_neg (by omega), Bytes.overwrite_of_ge (Nat.le_trans (by decide) haddress),
      writeHeader_of_gt _ _ (by omega)]
  have hrep := h 65536 [] (by decide) (fun _ => 0) ShellState.initial emptyHeap _ recycledHeap _ _ _
    _ _ hagree ⟨rfl, fun i hi => absurd hi (Nat.not_lt_zero i)⟩
    ⟨rfl, fun i hi => absurd hi (Nat.not_lt_zero i)⟩ 1
  -- the leftover instruction loads a 7 into the first register
  have hregister := congrArg (Option.map fun seen => seen.registers 0) hrep
  exact absurd hregister (by decide)

end Guest

end Vm
end WhitexKernel
