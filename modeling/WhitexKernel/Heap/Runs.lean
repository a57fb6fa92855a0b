import WhitexKernel.Heap.Chain
import WhitexKernel.Lib.Transition

/-!
# Runs — the heap under its clients

Clients ask for blocks, free the ones they hold, and write inside them.  As long as every request is
served exactly, the heap stays a chain whose used blocks are the allocations the clients hold, so
these lie inside the heap and do not overlap.
-/

namespace WhitexKernel
namespace Heap

open Lib Machine

/-- The memory, and the allocations that have not been freed yet. -/
structure HeapState where
  memory : Memory
  live : List Allocation

inductive HeapAction
  | malloc (size : Nat)
  | free (ptr : Nat)
  /-- A client stores a byte. -/
  | write (address : Nat) (byte : UInt8)

namespace HeapState

/-- The allocation that `whitex_malloc` returned, if it did not return `NULL`. -/
def hold (s : HeapState) (memory : Memory) (size : Nat) : Option Nat → HeapState
  | none => { s with memory := memory }
  | some ptr =>
      { memory := memory
        live := { ptr := ptr, size := size } :: s.live }

/-- Sizes are those of `size_t`; a pointer that is freed was returned before and has not been freed
since; a store goes into a block that its client holds. -/
def step (s : HeapState) : HeapAction → Option HeapState
  | .malloc size =>
      if size < 2 ^ 32 then
        (whitexMalloc s.memory size).map fun r => s.hold r.1 size r.2
      else none
  | .free ptr =>
      (s.live.find? fun a => a.ptr = ptr).map fun a =>
        { memory := whitexFree s.memory (some ptr)
          live := s.live.erase a }
  | .write address byte =>
      if ∃ a ∈ s.live, a.ptr ≤ address ∧ address < a.ptr + a.size then
        some { s with memory := Function.update s.memory address byte }
      else none

/-- The zeroed heap, in front of memory that belongs to others. -/
def zeroed (outside : Memory) : HeapState :=
  { memory := fun i => if i < heapSize then 0 else outside i
    live := [] }

/-- Headers and blocks of the live allocations lie inside the heap and do not overlap. -/
structure BlocksSafe (s : HeapState) : Prop where
  inside : ∀ a ∈ s.live, sizeofBlockHeader ≤ a.ptr ∧ a.ptr + a.size ≤ heapSize
  disjoint : s.live.Pairwise fun a b => Disjoint a.extent b.extent

/-- A request is for at least one byte; the loop that serves it reads no header across the end of the
heap; it ends at the end of the chain with room for header and block, or at a free block of exactly
the size asked for. -/
def ServesExactly (s : HeapState) : HeapAction → Prop
  | .malloc size => ServedExactly s.memory size walkFuel 0
  | _ => True

end HeapState

instance (m : Memory) (size fuel o : Nat) : Decidable (ServedExactly m size fuel o) :=
  decidable_of_iff (_ ∧ _ ∧ _)
    ⟨fun h => ⟨h.1, h.2.1, h.2.2⟩, fun h => ⟨h.positive, h.inside, h.fits⟩⟩

instance (s : HeapState) (a : HeapAction) : Decidable (s.ServesExactly a) := by
  cases a <;> unfold HeapState.ServesExactly <;> infer_instance

open HeapState

section Steps

variable {s t : HeapState}

theorem step_malloc {size : Nat} (h : s.step (.malloc size) = some t) :
    (whitexMalloc s.memory size).map (fun r => s.hold r.1 size r.2) = some t := by
  simp only [HeapState.step] at h
  split at h
  case isTrue => exact h
  case isFalse => cases h

theorem step_free {ptr : Nat} (h : s.step (.free ptr) = some t) :
    ∃ a ∈ s.live, a.ptr = ptr ∧
      t = { memory := whitexFree s.memory (some ptr), live := s.live.erase a } := by
  simp only [HeapState.step] at h
  rcases Option.map_eq_some_iff.1 h with ⟨a, hfind, rfl⟩
  have hptr : a.ptr = ptr := by simpa using List.find?_some hfind
  exact ⟨a, List.mem_of_find?_eq_some hfind, hptr, rfl⟩

theorem step_write {address : Nat} {byte : UInt8} (h : s.step (.write address byte) = some t) :
    ∃ a ∈ s.live, a.ptr ≤ address ∧ address < a.ptr + a.size ∧
      t = { s with memory := Function.update s.memory address byte } := by
  simp only [HeapState.step] at h
  split at h
  case isTrue hin =>
    rcases hin with ⟨a, ha, hlow, hhigh⟩
    cases h
    exact ⟨a, ha, hlow, hhigh, rfl⟩
  case isFalse => cases h

end Steps

/-- The heap is a chain whose used blocks are the live allocations. -/
def HeapHeld (s : HeapState) : Prop :=
  ∃ bs, Chain s.memory 0 bs ∧ s.live.Perm (usedBlocks 0 bs)

theorem heapHeld_zeroed (outside : Memory) : HeapHeld (HeapState.zeroed outside) := by
  refine ⟨[], ⟨Nat.zero_le _, fun i _ hi => ?_⟩, .nil⟩
  simp only [HeapState.zeroed]
  rw [if_pos hi]

namespace HeapHeld

variable {s t : HeapState}

theorem blocksSafe (h : HeapHeld s) : s.BlocksSafe := by
  rcases h with ⟨bs, hchain, hperm⟩
  constructor
  · intro a ha
    have hbounds := hchain.usedBlocks_bounds (hperm.mem_iff.1 ha)
    exact ⟨by omega, hbounds.2⟩
  · exact (hperm.pairwise_iff fun hab => hab.symm).2 hchain.usedBlocks_disjoint

/-- A request served exactly returns `NULL` or a block of its own. -/
theorem malloc (h : HeapHeld s) {size : Nat} (hserved : ServedExactly s.memory size walkFuel 0)
    (hstep : s.step (.malloc size) = some t) : HeapHeld t := by
  rcases h with ⟨bs, hchain, hperm⟩
  have hlen : bs.length < walkFuel := by
    have hle := hchain.length_le
    unfold walkFuel
    omega
  have hmalloc := step_malloc hstep
  rcases hchain.mallocLoop hlen hserved with hnone | ⟨o, bs', hloop, _, hchain', hperm'⟩
  · simp only [whitexMalloc, hnone, Option.map_some, Option.some.injEq] at hmalloc
    subst hmalloc
    exact ⟨bs, hchain, hperm⟩
  · simp only [whitexMalloc, hloop, Option.map_some, Option.some.injEq] at hmalloc
    subst hmalloc
    exact ⟨bs', hchain', (hperm.cons _).trans hperm'.symm⟩

theorem free (h : HeapHeld s) {ptr : Nat} (hstep : s.step (.free ptr) = some t) : HeapHeld t := by
  rcases h with ⟨bs, hchain, hperm⟩
  rcases step_free hstep with ⟨a, hmem, rfl, rfl⟩
  rcases hchain.free (hperm.mem_iff.1 hmem) with ⟨bs', hchain', hperm'⟩
  refine ⟨bs', hchain', ?_⟩
  have hcons : (a :: s.live.erase a).Perm (a :: usedBlocks 0 bs') :=
    (List.perm_cons_erase hmem).symm.trans (hperm.trans hperm')
  exact hcons.cons_inv

theorem write (h : HeapHeld s) {address : Nat} {byte : UInt8}
    (hstep : s.step (.write address byte) = some t) : HeapHeld t := by
  rcases h with ⟨bs, hchain, hperm⟩
  rcases step_write hstep with ⟨a, ha, hlow, hhigh, rfl⟩
  exact ⟨bs, hchain.write (hperm.mem_iff.1 ha) hlow hhigh byte, hperm⟩

theorem step (h : HeapHeld s) {a : HeapAction} (ha : s.ServesExactly a) (hstep : s.step a = some t) :
    HeapHeld t := by
  cases a with
  | malloc size => exact h.malloc ha hstep
  | free ptr => exact h.free hstep
  | write address byte => exact h.write hstep

end HeapHeld

/-- In a run whose requests are all served exactly, the live allocations lie inside the heap and do
not overlap. -/
theorem blocksSafe_run (outside : Memory) (as : List HeapAction)
    (h : AllSteps HeapState.step ServesExactly (HeapState.zeroed outside) as) :
    AllStates HeapState.step BlocksSafe (HeapState.zeroed outside) as := by
  refine (allStates_of_allSteps ?_ (heapHeld_zeroed outside) h).mono fun s hs => hs.blocksSafe
  intro s a t hs ha hstep
  exact hs.step ha hstep

/-- Two blocks, the first of which is freed and used again. -/
theorem blocksSafe_run_reuse :
    AllStates HeapState.step BlocksSafe (HeapState.zeroed fun _ => 0xFF)
      [.malloc 16, .write 8 0xAB, .malloc 8, .free 8, .malloc 16, .write 23 0xCD] :=
  blocksSafe_run _ _ (by decide)

/-- A smaller block in the place of the first one, and another one in what is left of it: the last
block overlaps the second. -/
theorem blocksSafe_run_false :
    ¬ ∀ (outside : Memory) (as : List HeapAction),
      AllStates HeapState.step BlocksSafe (HeapState.zeroed outside) as := by
  intro h
  have hrun : (exec HeapState.step (HeapState.zeroed fun _ => 0)
      [.malloc 16, .malloc 8, .free 8, .malloc 8, .malloc 8]).any
        (fun t => decide (t.live =
          [{ ptr := 24, size := 8 }, { ptr := 8, size := 8 }, { ptr := 32, size := 8 }])) = true := by
    decide
  rcases exists_of_exec_any hrun with ⟨t, hexec, ht⟩
  rw [decide_eq_true_eq] at ht
  have hdisjoint := ((h _ _).last hexec).disjoint
  rw [ht, List.pairwise_cons] at hdisjoint
  have hoverlap := hdisjoint.1 { ptr := 32, size := 8 } (by simp)
  unfold Allocation.extent at hoverlap
  rw [Set.Ico_disjoint_Ico] at hoverlap
  exact absurd hoverlap (by decide)

end Heap
end WhitexKernel
