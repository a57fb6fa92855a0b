import Mathlib.Algebra.GroupWithZero.Nat
import WhitexKernel.Heap.Walk

/-!
# FreeRam — what `get_free_ram` adds up

`get_free_ram` subtracts the blocks marked used, header included, from `HEAP_SIZE`.  That is the
account of the live allocations as long as every block on its way is one of them or free, which asks
a little more of a request than a walk that ends: at least one byte, and a block inside the heap.
-/

namespace WhitexKernel
namespace Heap

open Lib Machine

/-! ## The account -/

/-- What allocations take up, headers included. -/
def footprint (as : List Allocation) : Nat := (as.map fun a => a.size + sizeofBlockHeader).sum

@[simp] theorem footprint_nil : footprint [] = 0 := rfl

@[simp] theorem footprint_cons (a : Allocation) (as : List Allocation) :
    footprint (a :: as) = a.size + sizeofBlockHeader + footprint as := rfl

theorem footprint_perm {as bs : List Allocation} (h : as.Perm bs) : footprint as = footprint bs :=
  (h.map _).sum_nat

variable {m : Memory} {o : Nat} {b : BlockHeader} {bs xs ys : List BlockHeader}

/-- The used blocks fit between the ends of all blocks. -/
theorem footprint_usedBlocks_le (o : Nat) (bs : List BlockHeader) :
    o + footprint (usedBlocks o bs) ≤ after o bs := by
  induction bs generalizing o with
  | nil => exact Nat.le_refl o
  | cons b bs ih =>
      have hrest := ih (o + sizeofBlockHeader + b.size)
      simp only [usedBlocks, after]
      split
      · rw [footprint_cons]
        dsimp only
        omega
      · omega

/-- Without a borrow, the loop subtracts the used blocks. -/
theorem foldl_subUsed (o : Nat) {freeRam : Nat} (hle : footprint (usedBlocks o bs) ≤ freeRam)
    (hlt : freeRam < 2 ^ 32) :
    bs.foldl subUsed freeRam = freeRam - footprint (usedBlocks o bs) := by
  induction bs generalizing o freeRam with
  | nil => rfl
  | cons b bs ih =>
      rw [List.foldl_cons]
      by_cases hused : b.status = blockUsed
      · simp only [usedBlocks, hused, if_true, footprint_cons] at hle ⊢
        have hsub : subUsed freeRam b = freeRam - (b.size + sizeofBlockHeader) := by
          unfold subUsed
          rw [if_pos hused, wrap32_of_lt (by omega), sub32_of_le (by omega) hlt]
        rw [hsub, ih (o + sizeofBlockHeader + b.size) (by omega) (by omega)]
        omega
      · simp only [usedBlocks, hused, if_false] at hle ⊢
        have hsub : subUsed freeRam b = freeRam := if_neg hused
        rw [hsub]
        exact ih _ hle hlt

theorem usedBlocks_append (o : Nat) (xs ys : List BlockHeader) :
    usedBlocks o (xs ++ ys) = usedBlocks o xs ++ usedBlocks (after o xs) ys := by
  induction xs generalizing o with
  | nil => rfl
  | cons b xs ih =>
      simp only [List.cons_append, usedBlocks, after]
      split
      · rw [ih, List.cons_append]
      · exact ih _

theorem exists_of_mem_usedBlocks {a : Allocation} (ha : a ∈ usedBlocks o bs) :
    ∃ xs b ys, bs = xs ++ b :: ys ∧ b.status = blockUsed ∧
      a = { ptr := after o xs + sizeofBlockHeader, size := b.size } := by
  induction bs generalizing o with
  | nil => cases ha
  | cons b bs ih =>
      have htail : a ∈ usedBlocks (o + sizeofBlockHeader + b.size) bs → ∃ xs b' ys,
          b :: bs = xs ++ b' :: ys ∧ b'.status = blockUsed ∧
            a = { ptr := after o xs + sizeofBlockHeader, size := b'.size } := by
        intro hmem
        obtain ⟨xs, b', ys, hbs, hused, ha⟩ := ih hmem
        exact ⟨b :: xs, b', ys, by rw [hbs]; rfl, hused, ha⟩
      simp only [usedBlocks] at ha
      split at ha
      case isTrue hused =>
        rcases List.mem_cons.1 ha with rfl | hmem
        · exact ⟨[], b, bs, rfl, hused, rfl⟩
        · exact htail hmem
      case isFalse => exact htail ha

/-- The used blocks when one among them is marked used. -/
theorem usedBlocks_perm_of_used (o : Nat) (xs ys : List BlockHeader) (size : Nat) :
    (usedBlocks o (xs ++ { size := size, status := blockUsed } :: ys)).Perm
      ({ ptr := after o xs + sizeofBlockHeader, size := size } ::
        usedBlocks o (xs ++ { size := size, status := blockFree } :: ys)) := by
  have hne : blockFree ≠ blockUsed := by decide
  rw [usedBlocks_append, usedBlocks_append]
  simp only [usedBlocks, if_true, hne, if_false]
  exact List.perm_middle

/-! ## Runs -/

/-- The heap is linked blocks inside the heap, and the used ones are the live allocations. -/
def Accounted (s : HeapState) : Prop :=
  ∃ bs, Linked s.memory bs ∧ after 0 bs ≤ heapSize ∧ s.live.Perm (usedBlocks 0 bs)

/-- `get_free_ram` returns `HEAP_SIZE` minus what the live allocations take up. -/
def FreeRamExact (s : HeapState) : Prop :=
  footprint s.live ≤ heapSize ∧ getFreeRam s.memory = some (heapSize - footprint s.live)

/-- A request that is served is for at least one byte, and finds a free block of exactly its size or
goes behind the last block: inside the heap, and at its very end or with room for a size behind. -/
def KeepsAccount (s : HeapState) : HeapAction → Prop
  | .malloc size => ∀ o ∈ (mallocLoop s.memory size walkFuel 0).join, 1 ≤ size ∧
      ((readHeader s.memory o).size = size ∨
      ((readHeader s.memory o).size = 0 ∧
        (o + sizeofBlockHeader + size + 4 ≤ heapSize ∨ o + sizeofBlockHeader + size = heapSize)))
  | _ => True

theorem accounted_zeroed (outside : Memory) : Accounted (HeapState.zeroed outside) := by
  refine ⟨[], ⟨trivial, .inl (by decide), fun i _ hi _ => ?_⟩, Nat.zero_le _, .nil⟩
  simp only [HeapState.zeroed]
  rw [if_pos hi]

namespace Accounted

variable {s t : HeapState}

theorem freeRamExact (h : Accounted s) : FreeRamExact s := by
  obtain ⟨bs, hlinked, hin, hperm⟩ := h
  have hle : footprint (usedBlocks 0 bs) ≤ heapSize := by
    have := footprint_usedBlocks_le 0 bs
    omega
  refine ⟨by rw [footprint_perm hperm]; exact hle, ?_⟩
  unfold getFreeRam
  rw [hlinked.links.freeRamLoop_eq hlinked.ends hlinked.links.length_lt_walkFuel,
    foldl_subUsed 0 hle (by decide), footprint_perm hperm]

theorem malloc (h : Accounted s) {size : Nat} (hserved : KeepsAccount s (.malloc size))
    (hstep : s.step (.malloc size) = some t) : Accounted t := by
  obtain ⟨bs, hlinked, hin, hperm⟩ := h
  have hserved' : ∀ o, mallocLoop s.memory size walkFuel 0 = some (some o) → _ :=
    fun o ho => hserved o (by rw [ho]; rfl)
  have hmalloc := step_malloc hstep
  rcases hlinked.links.mallocLoop_cases hlinked.ends hlinked.links.length_lt_walkFuel size with
    ⟨hloop, _⟩ | ⟨hloop, hroom⟩ | ⟨xs, b, ys, rfl, hfree, hloop⟩
  · -- the heap is full
    simp only [whitexMalloc, hloop, Option.map_some, Option.some.injEq] at hmalloc
    subst hmalloc
    exact ⟨bs, hlinked, hin, hperm⟩
  · -- behind the last block
    simp only [whitexMalloc, hloop, Option.map_some, Option.some.injEq] at hmalloc
    subst hmalloc
    have hzero := hlinked.ends.readHeader_size (by omega)
    obtain ⟨hpos, hfits⟩ := hserved' _ hloop
    have hclear := hfits.resolve_left (by omega)
    have hend : after 0 bs + sizeofBlockHeader + size ≤ heapSize := by omega
    refine ⟨_, hlinked.append hpos hroom (by unfold heapSize at hend; omega) (by omega), ?_, ?_⟩
    · rw [after_append]
      exact hend
    · rw [usedBlocks_append]
      exact (hperm.cons _).trans (List.perm_append_singleton _ _).symm
  · -- at a free block
    simp only [whitexMalloc, hloop, Option.map_some, Option.some.injEq] at hmalloc
    subst hmalloc
    obtain ⟨hhead, hpos, _⟩ := (links_append.1 hlinked.links).2
    have hsize : b.size = size := by
      rcases (hserved' _ hloop).2 with heq | ⟨hzero, _⟩
      · rw [← heq, hhead]
      · rw [hhead] at hzero
        omega
    subst hsize
    refine ⟨_, hlinked.reuse, ?_, ?_⟩
    · rw [after_append] at hin ⊢
      exact hin
    · refine (hperm.cons _).trans (List.Perm.trans ?_ (usedBlocks_perm_of_used 0 xs ys _).symm)
      rw [← hfree]

theorem free (h : Accounted s) {ptr : Nat} (hstep : s.step (.free ptr) = some t) : Accounted t := by
  obtain ⟨bs, hlinked, hin, hperm⟩ := h
  obtain ⟨a, hmem, rfl, rfl⟩ := step_free hstep
  obtain ⟨xs, b, ys, rfl, hused, rfl⟩ := exists_of_mem_usedBlocks (hperm.mem_iff.1 hmem)
  refine ⟨_, hlinked.free, ?_, ?_⟩
  · rw [after_append] at hin ⊢
    exact hin
  · -- what is left are the used blocks without this one
    have hblocks := usedBlocks_perm_of_used 0 xs ys b.size
    rw [← hused] at hblocks
    exact ((List.perm_cons_erase hmem).symm.trans (hperm.trans hblocks)).cons_inv

theorem write (h : Accounted s) {address : Nat} {byte : UInt8}
    (hstep : s.step (.write address byte) = some t) : Accounted t := by
  obtain ⟨bs, hlinked, hin, hperm⟩ := h
  obtain ⟨a, ha, hlow, hhigh, rfl⟩ := step_write hstep
  obtain ⟨xs, b, ys, rfl, _, rfl⟩ := exists_of_mem_usedBlocks (hperm.mem_iff.1 ha)
  exact ⟨_, hlinked.write hlow hhigh byte, hin, hperm⟩

theorem step (h : Accounted s) {a : HeapAction} (ha : KeepsAccount s a)
    (hstep : s.step a = some t) : Accounted t := by
  cases a with
  | malloc size => exact h.malloc ha hstep
  | free ptr => exact h.free hstep
  | write address byte => exact h.write hstep

end Accounted

instance (s : HeapState) : ∀ a, Decidable (KeepsAccount s a)
  | .malloc size => by
      unfold KeepsAccount
      infer_instance
  | .free _ => isTrue trivial
  | .write _ _ => isTrue trivial

/-- In a run whose requests all keep the account, `get_free_ram` is exact in every state. -/
theorem freeRamExact_run (outside : Memory) (as : List HeapAction)
    (h : AllSteps HeapState.step KeepsAccount (HeapState.zeroed outside) as) :
    AllStates HeapState.step FreeRamExact (HeapState.zeroed outside) as := by
  refine (allStates_of_allSteps ?_ (accounted_zeroed outside) h).mono fun s hs => hs.freeRamExact
  intro s a t hs ha hstep
  exact hs.step ha hstep

/-- Two blocks, the first of which is freed and used again, and one up to the end of the heap. -/
theorem freeRamExact_run_full :
    AllStates HeapState.step FreeRamExact (HeapState.zeroed fun _ => 0xFF)
      [.malloc 16, .write 8 0xAB, .malloc 8, .free 8, .malloc 16, .malloc 65488, .free 32] :=
  freeRamExact_run _ _ (by decide)

/-- Sixteen bytes are freed and eight of them used again: the walk takes the zeros behind them for
the end of the chain and leaves out the block of the other client. -/
theorem freeRamExact_run_false :
    ∃ t, exec HeapState.step (HeapState.zeroed fun _ => 0)
        [.malloc 16, .malloc 8, .free 8, .malloc 8] = some t ∧
      footprint t.live = 32 ∧ getFreeRam t.memory = some (heapSize - 16) ∧ ¬ FreeRamExact t := by
  have hrun : (exec HeapState.step (HeapState.zeroed fun _ => 0)
      [.malloc 16, .malloc 8, .free 8, .malloc 8]).any (fun t => decide
        (footprint t.live = 32 ∧ getFreeRam t.memory = some (heapSize - 16))) = true := by
    decide
  obtain ⟨t, hexec, ht⟩ := exists_of_exec_any hrun
  obtain ⟨hlive, hfree⟩ := of_decide_eq_true ht
  refine ⟨t, hexec, hlive, hfree, fun hexact => ?_⟩
  have heq := hexact.2
  rw [hfree, hlive] at heq
  exact absurd heq (by decide)

end Heap
end WhitexKernel
