import Mathlib.Data.List.Perm.Basic
import Mathlib.Data.List.Pairwise
import Mathlib.Order.CompletePartialOrder
import Mathlib.Order.Interval.Set.Disjoint
import WhitexKernel.Heap.Model

/-!
# Chain — a heap as a chain of blocks

`Chain m o bs` says that the headers found in memory `m` from offset `o` on are those of the blocks
`bs`, one behind the other and inside the heap, and that the rest of the heap is zero.  This is what
the walks of `malloc.h` take for granted; the lemmas say which changes of the memory keep it.
-/

namespace WhitexKernel
namespace Heap

open Machine

/-! ## Headers in memory -/

theorem writeHeader_of_lt (m : Memory) {o i : Nat} (h : BlockHeader) (hi : i < o) :
    writeHeader m o h i = m i := by
  unfold writeHeader
  repeat rw [if_neg (by omega)]

/-- The padding of a header is not written. -/
theorem writeHeader_of_gt (m : Memory) {o i : Nat} (h : BlockHeader) (hi : o + 4 < i) :
    writeHeader m o h i = m i := by
  unfold writeHeader
  repeat rw [if_neg (by omega)]

theorem writeHeader_of_le (m : Memory) {o i : Nat} (h : BlockHeader)
    (hi : o + sizeofBlockHeader ≤ i) : writeHeader m o h i = m i := by
  unfold sizeofBlockHeader at hi
  exact writeHeader_of_gt m h (by omega)

@[simp] theorem readHeader_writeHeader (m : Memory) (o : Nat) {h : BlockHeader}
    (hsize : h.size < 2 ^ 32) : readHeader (writeHeader m o h) o = h := by
  rcases h with ⟨size, status⟩
  simp only at hsize
  simp only [readHeader, writeHeader, BlockHeader.mk.injEq]
  constructor
  · simp only [if_true, Nat.add_eq_left, Nat.add_left_cancel_iff]
    simp [UInt8.toNat_ofNat']
    omega
  · simp

/-- A header depends on its own bytes only. -/
theorem readHeader_congr {m m' : Memory} {o : Nat}
    (h : ∀ i, o ≤ i → i < o + sizeofBlockHeader → m' i = m i) : readHeader m' o = readHeader m o := by
  unfold sizeofBlockHeader at h
  simp only [readHeader, BlockHeader.mk.injEq]
  rw [h o (by omega) (by omega), h (o + 1) (by omega) (by omega), h (o + 2) (by omega) (by omega),
    h (o + 3) (by omega) (by omega), h (o + 4) (by omega) (by omega)]
  exact ⟨rfl, rfl⟩

theorem readHeader_writeHeader_of_apart (m : Memory) {o o' : Nat} (h : BlockHeader)
    (happart : o + sizeofBlockHeader ≤ o' ∨ o' + sizeofBlockHeader ≤ o) :
    readHeader (writeHeader m o' h) o = readHeader m o := by
  apply readHeader_congr
  intro i hlow hhigh
  rcases happart with happart | happart
  · exact writeHeader_of_lt m h (by omega)
  · exact writeHeader_of_le m h (by omega)

theorem readHeader_writeStatus (m : Memory) (o : Nat) (status : UInt8) :
    readHeader (writeStatus m o status) o = { readHeader m o with status := status } := by
  simp [readHeader, writeStatus]

/-! ## Chains -/

/-- The blocks in the heap from offset `o` on. -/
def Chain (m : Memory) : Nat → List BlockHeader → Prop
  | o, [] => o ≤ heapSize ∧ ∀ i, o ≤ i → i < heapSize → m i = 0
  | o, b :: bs =>
      readHeader m o = b ∧ 1 ≤ b.size ∧ o + sizeofBlockHeader + b.size ≤ heapSize ∧
        Chain m (o + sizeofBlockHeader + b.size) bs

/-- A block in use: where its data is, and how much was asked for. -/
structure Allocation where
  ptr : Nat
  size : Nat
  deriving DecidableEq, Repr

/-- The header and the data of an allocation. -/
def Allocation.extent (a : Allocation) : Set Nat :=
  Set.Ico (a.ptr - sizeofBlockHeader) (a.ptr + a.size)

/-- The used blocks among `bs`, which start at offset `o`. -/
def usedBlocks : Nat → List BlockHeader → List Allocation
  | _, [] => []
  | o, b :: bs =>
      if b.status = blockUsed then
        { ptr := o + sizeofBlockHeader, size := b.size } ::
          usedBlocks (o + sizeofBlockHeader + b.size) bs
      else usedBlocks (o + sizeofBlockHeader + b.size) bs

/-- Every used block lies behind the start of the chain and inside the heap. -/
theorem Chain.usedBlocks_bounds {m : Memory} {o : Nat} {bs : List BlockHeader} (h : Chain m o bs)
    {a : Allocation} (ha : a ∈ usedBlocks o bs) :
    o + sizeofBlockHeader ≤ a.ptr ∧ a.ptr + a.size ≤ heapSize := by
  induction bs generalizing o with
  | nil => cases ha
  | cons b bs ih =>
      rcases h with ⟨_, _, hend, hrest⟩
      have htail : a ∈ usedBlocks (o + sizeofBlockHeader + b.size) bs →
          o + sizeofBlockHeader ≤ a.ptr ∧ a.ptr + a.size ≤ heapSize := by
        intro hmem
        have hbounds := ih hrest hmem
        omega
      simp only [usedBlocks] at ha
      split at ha
      · rcases List.mem_cons.1 ha with rfl | hmem
        · simp only
          omega
        · exact htail hmem
      · exact htail ha

/-- Used blocks of a chain do not overlap. -/
theorem Chain.usedBlocks_disjoint {m : Memory} {o : Nat} {bs : List BlockHeader}
    (h : Chain m o bs) :
    (usedBlocks o bs).Pairwise fun a b => Disjoint a.extent b.extent := by
  induction bs generalizing o with
  | nil => exact .nil
  | cons b bs ih =>
      rcases h with ⟨_, _, _, hrest⟩
      simp only [usedBlocks]
      split
      · refine List.pairwise_cons.2 ⟨fun a ha => ?_, ih hrest⟩
        have hbounds := hrest.usedBlocks_bounds ha
        unfold Allocation.extent
        rw [Set.Ico_disjoint_Ico]
        simp only
        omega
      · exact ih hrest

/-! ## Changes that keep the chain -/

/-- A change of the memory in front of the chain. -/
theorem Chain.congr {m m' : Memory} {o : Nat} {bs : List BlockHeader} (h : Chain m o bs)
    (hm : ∀ i, o ≤ i → m' i = m i) : Chain m' o bs := by
  induction bs generalizing o with
  | nil => exact ⟨h.1, fun i hi hlt => (hm i hi).trans (h.2 i hi hlt)⟩
  | cons b bs ih =>
      rcases h with ⟨hhead, hsize, hend, hrest⟩
      refine ⟨?_, hsize, hend, ih hrest fun i hi => hm i (by omega)⟩
      rw [readHeader_congr fun i hi _ => hm i hi]
      exact hhead

/-- A change of the memory inside the data of a used block. -/
theorem Chain.write {m : Memory} {o : Nat} {bs : List BlockHeader} (h : Chain m o bs)
    {a : Allocation} (ha : a ∈ usedBlocks o bs) {i : Nat} (hi : a.ptr ≤ i)
    (hlt : i < a.ptr + a.size) (v : UInt8) : Chain (Function.update m i v) o bs := by
  induction bs generalizing o with
  | nil => cases ha
  | cons b bs ih =>
      rcases h with ⟨hhead, hsize, hend, hrest⟩
      -- the header at the front stays, since the byte lies behind it
      have hhere : o + sizeofBlockHeader ≤ i → readHeader (Function.update m i v) o = b := by
        intro hle
        rw [readHeader_congr fun j _ hj => Function.update_of_ne (by omega) _ _]
        exact hhead
      have htail : a ∈ usedBlocks (o + sizeofBlockHeader + b.size) bs →
          Chain (Function.update m i v) o (b :: bs) := by
        intro hmem
        have hbounds := hrest.usedBlocks_bounds hmem
        exact ⟨hhere (by omega), hsize, hend, ih hrest hmem⟩
      simp only [usedBlocks] at ha
      split at ha
      · rcases List.mem_cons.1 ha with rfl | hmem
        · simp only at hi hlt
          exact ⟨hhere hi, hsize, hend,
            hrest.congr fun j hj => Function.update_of_ne (by omega) _ _⟩
        · exact htail hmem
      · exact htail ha

/-- Freeing a used block. -/
theorem Chain.free {m : Memory} {o : Nat} {bs : List BlockHeader} (h : Chain m o bs)
    {a : Allocation} (ha : a ∈ usedBlocks o bs) :
    ∃ bs', Chain (whitexFree m (some a.ptr)) o bs' ∧
      (usedBlocks o bs).Perm (a :: usedBlocks o bs') := by
  induction bs generalizing o with
  | nil => cases ha
  | cons b bs ih =>
      rcases h with ⟨hhead, hsize, hend, hrest⟩
      -- the block lies behind this one: the walk goes on, and this header stays
      have htail : a ∈ usedBlocks (o + sizeofBlockHeader + b.size) bs →
          ∃ bs', Chain (whitexFree m (some a.ptr)) o bs' ∧
            (usedBlocks o (b :: bs)).Perm (a :: usedBlocks o bs') := by
        intro hmem
        have hbounds := hrest.usedBlocks_bounds hmem
        rcases ih hrest hmem with ⟨bs', hchain, hperm⟩
        refine ⟨b :: bs', ⟨?_, hsize, hend, hchain⟩, ?_⟩
        · rw [← hhead]
          refine readHeader_congr fun j _ hj => ?_
          unfold whitexFree writeStatus
          simp only
          rw [if_neg (by omega)]
        · simp only [usedBlocks]
          split
          · exact (hperm.cons _).trans (List.Perm.swap _ _ _)
          · exact hperm
      by_cases hused : b.status = blockUsed
      · simp only [usedBlocks, hused, if_true] at ha
        -- it is this one, or lies behind it
        rcases List.mem_cons.1 ha with rfl | hmem
        · refine ⟨{ b with status := blockFree } :: bs, ⟨?_, hsize, hend, ?_⟩, ?_⟩
          · simp [whitexFree, readHeader_writeStatus, hhead]
          · refine hrest.congr fun j hj => ?_
            unfold sizeofBlockHeader at hj
            unfold whitexFree writeStatus
            simp only
            rw [if_neg (by omega)]
          · have hne : blockFree ≠ blockUsed := by decide
            simp [usedBlocks, hused, hne]
        · exact htail hmem
      · simp only [usedBlocks, hused, if_false] at ha
        exact htail ha

/-! ## Allocation -/

theorem Chain.length_le {m : Memory} {o : Nat} {bs : List BlockHeader} (h : Chain m o bs) :
    o + bs.length ≤ heapSize := by
  induction bs generalizing o with
  | nil => exact h.1
  | cons b bs ih =>
      rcases h with ⟨_, hsize, _, hrest⟩
      have hlen := ih hrest
      simp only [List.length_cons]
      omega

/-- Behind the last block a whole header reads as the end of the chain. -/
theorem Chain.readHeader_end {m : Memory} {o : Nat} (h : Chain m o [])
    (hroom : o + sizeofBlockHeader ≤ heapSize) : (readHeader m o).size = 0 := by
  have hzero : ∀ k, k < sizeofBlockHeader → m (o + k) = 0 := fun k hk => h.2 _ (by omega) (by omega)
  simp only [readHeader]
  rw [show m o = 0 from hzero 0 (by decide), hzero 1 (by decide), hzero 2 (by decide),
    hzero 3 (by decide)]
  rfl

theorem Chain.nextOffset_eq {m : Memory} {o : Nat} {b : BlockHeader} {bs : List BlockHeader}
    (h : Chain m o (b :: bs)) : nextOffset m o = o + sizeofBlockHeader + b.size := by
  rcases h with ⟨hhead, _, hend, _⟩
  unfold nextOffset
  rw [hhead, wrap32_of_lt]
  · omega
  · unfold heapSize at hend
    omega

theorem mallocLoop_of_serves {m : Memory} {size o : Nat} {b : BlockHeader} (fuel : Nat)
    (ho : o < heapSize) (hb : readHeader m o = b) (hserves : b.serves size = true) :
    mallocLoop m size (fuel + 1) o = some (some o) := by
  unfold mallocLoop
  rw [if_pos ho, hb, if_pos hserves]

theorem mallocLoop_of_not_serves {m : Memory} {size o : Nat} {b : BlockHeader} (fuel : Nat)
    (ho : o < heapSize) (hb : readHeader m o = b) (hserves : b.serves size = false)
    (hnext : o + sizeofBlockHeader + b.size < 2 ^ 32) :
    mallocLoop m size (fuel + 1) o = mallocLoop m size fuel (o + sizeofBlockHeader + b.size) := by
  rw [Nat.add_assoc] at hnext
  rw [mallocLoop, if_pos ho, hb, hserves, if_neg Bool.false_ne_true, nextOffset, hb,
    wrap32_of_lt hnext, Nat.add_assoc]

/-- A request is served as the format of the heap demands: no header across the end of the heap is
read, the block ends inside the heap, and a block that is reused has exactly the size asked for. -/
structure ServedExactly (m : Memory) (size fuel o : Nat) : Prop where
  positive : 1 ≤ size
  inside : ∀ o' ∈ headersRead m size fuel o, o' + sizeofBlockHeader ≤ heapSize
  fits : ∀ o' ∈ (mallocLoop m size fuel o).join, o' + sizeofBlockHeader + size ≤ heapSize ∧
    ((readHeader m o').size = 0 ∨ (readHeader m o').size = size)

/-- On a chain, the loop of `whitex_malloc` ends; a request that is served exactly leads to a chain
with one more used block. -/
theorem Chain.mallocLoop {m : Memory} {size fuel o : Nat} {bs : List BlockHeader}
    (h : Chain m o bs) (hfuel : bs.length < fuel) (hserved : ServedExactly m size fuel o) :
    mallocLoop m size fuel o = some none ∨
    ∃ o' bs', mallocLoop m size fuel o = some (some o') ∧ o ≤ o' ∧
      Chain (writeHeader m o' { size := size, status := blockUsed }) o bs' ∧
      (usedBlocks o bs').Perm
        ({ ptr := o' + sizeofBlockHeader, size := size } :: usedBlocks o bs) := by
  induction bs generalizing o fuel with
  | nil =>
      obtain ⟨fuel, rfl⟩ : ∃ k, fuel = k + 1 := ⟨fuel - 1, by omega⟩
      by_cases hlt : o < heapSize
      · -- The end of the chain: a new block.
        have hroom : o + sizeofBlockHeader ≤ heapSize :=
          hserved.inside o (by simp [headersRead, hlt])
        have hserves : (readHeader m o).serves size = true := by
          simp [BlockHeader.serves, h.readHeader_end hroom]
        have hloop : Heap.mallocLoop m size (fuel + 1) o = some (some o) := by
          simp [Heap.mallocLoop, hlt, hserves]
        have hfit := (hserved.fits o (by simp [hloop])).1
        refine .inr ⟨o, [{ size := size, status := blockUsed }], hloop, Nat.le_refl o, ?_, ?_⟩
        · refine ⟨readHeader_writeHeader m o ?_, hserved.positive, hfit, hfit, fun i hi hlt' => ?_⟩
          · unfold heapSize at hfit
            simp only
            omega
          · rw [writeHeader_of_le m _ (by omega)]
            exact h.2 i (by omega) hlt'
        · simp [usedBlocks]
      · exact .inl (by simp [Heap.mallocLoop, hlt])
  | cons b bs ih =>
      have hnext := h.nextOffset_eq
      rcases h with ⟨hhead, hsize, hend, hrest⟩
      have hlt : o < heapSize := by
        unfold sizeofBlockHeader at hend
        omega
      obtain ⟨fuel, rfl⟩ : ∃ k, fuel = k + 1 := ⟨fuel - 1, by omega⟩
      -- one round: the first header serves, or the loop goes on behind its block
      have hround : Heap.mallocLoop m size (fuel + 1) o =
          if b.serves size then some (some o)
          else Heap.mallocLoop m size fuel (o + sizeofBlockHeader + b.size) := by
        simp [Heap.mallocLoop, hlt, hhead, hnext]
      by_cases hserves : b.serves size = true
      · -- A free block of the size asked for is used again.
        rw [if_pos hserves] at hround
        have hfit := hserved.fits o (by simp [hround])
        rw [hhead] at hfit
        have heq : b.size = size := by omega
        have hfree : b.status ≠ blockUsed := by
          intro hused
          have hne : blockUsed ≠ blockFree := by decide
          have hpos : b.size ≠ 0 := by omega
          simp [BlockHeader.serves, hused, hne, hpos] at hserves
        refine .inr ⟨o, { size := size, status := blockUsed } :: bs, hround, Nat.le_refl o, ?_, ?_⟩
        · refine ⟨readHeader_writeHeader m o ?_, hserved.positive, hfit.1, ?_⟩
          · unfold heapSize at hend
            simp only
            omega
          · simp only
            rw [← heq]
            exact hrest.congr fun i hi => writeHeader_of_le m _ (by omega)
        · simp [usedBlocks, hfree, heq]
      · -- The walk goes on behind the block.
        rw [if_neg hserves] at hround
        have hserved' : ServedExactly m size fuel
            (o + sizeofBlockHeader + b.size) := by
          refine ⟨hserved.positive, fun o' ho' => hserved.inside o' ?_, ?_⟩
          · simp [headersRead, hlt, hhead, hserves, hnext, ho']
          · rw [← hround]
            exact hserved.fits
        have hlen : bs.length < fuel := by
          simp only [List.length_cons] at hfuel
          omega
        rcases ih hrest hlen hserved' with hnone | ⟨o', bs', hloop, hle, hchain, hperm⟩
        · exact .inl (hround.trans hnone)
        · refine .inr ⟨o', b :: bs', hround.trans hloop, by omega, ⟨?_, hsize, hend, hchain⟩, ?_⟩
          · rw [← hhead]
            exact readHeader_congr fun i _ hi => writeHeader_of_lt m _ (by omega)
          · simp only [usedBlocks]
            split
            · exact (hperm.cons _).trans (List.Perm.swap _ _ _)
            · exact hperm

end Heap
end WhitexKernel
