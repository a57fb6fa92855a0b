import WhitexKernel.Paging.Booted
import WhitexKernel.Paging.Detected

/-!
# FramesAccounted — the counter and the frames in use

`get_page_entry` and `map_virtual_to_physical` mark frames without counting them, so that after
`initialize_paging_system` 1024 frames are marked and none is counted.
-/

namespace WhitexKernel
namespace Paging

open Lib Machine FlatMemory

namespace FlatState

variable {s t : FlatState} {dir page : Address}

/-- How many frames are marked. -/
def markedFrames (s : FlatState) : Nat := Bitmap.count s.physicalMemoryBitmap (bitmapSize * 32)

/-- Making a table does not count anything. -/
theorem getPageEntry_counter {address : Address} {make : Bool}
    (h : s.getPageEntry address make dir = .ok (t, page)) :
    t.totalAllocatedFrames = s.totalAllocatedFrames := by
  unfold getPageEntry at h
  dsimp only at h
  split at h
  case isTrue =>
    cases h
    rfl
  case isFalse =>
    split at h
    case isTrue =>
      split at h
      case isTrue => cases h
      case isFalse =>
        cases h
        rfl
    case isFalse =>
      cases h
      rfl

theorem mapVirtualToPhysical_counter {virtualAddr physicalAddr : Address} {isKernel isWritable : Int}
    (h : s.mapVirtualToPhysical virtualAddr physicalAddr isKernel isWritable dir = .ok t) :
    t.totalAllocatedFrames = s.totalAllocatedFrames := by
  obtain ⟨⟨u, page⟩, hpage, hrest⟩ := Outcome.bind_eq_ok.1 h
  have hcounter := getPageEntry_counter hpage
  dsimp only at hrest
  split at hrest
  case isTrue => cases hrest
  case isFalse =>
    cases hrest
    exact hcounter

theorem identityRounds_counter {pages : List Address} (h : pages.foldlM (identityRound dir) s = .ok t) :
    t.totalAllocatedFrames = s.totalAllocatedFrames :=
  Outcome.foldlM_invariant (I := fun u : FlatState => u.totalAllocatedFrames = s.totalAllocatedFrames)
    (fun _ _ _ _ hu hround => (mapVirtualToPhysical_counter hround).trans hu) rfl h

/-- Initialisation clears the bitmap, but not the counter. -/
theorem initializePagingSystem_counter {handler : Address} {totalMemoryKb : BitVec 32}
    (h : s.initializePagingSystem handler totalMemoryKb = .ok t) :
    t.totalAllocatedFrames = s.totalAllocatedFrames := by
  unfold initializePagingSystem at h
  dsimp only at h
  split at h
  case isTrue => cases h
  case isFalse =>
    obtain ⟨u, hloop, hrest⟩ := Outcome.bind_eq_ok.1 h
    cases hrest
    have hcounter := identityRounds_counter hloop
    exact hcounter

theorem Booted.markedFrames_eq {m : Memory} {handler : Address} (h : Booted m handler t) :
    t.markedFrames = 1024 :=
  Bitmap.count_of_marked_iff_lt (by decide) fun frame _ => h.marked frame

end FlatState

namespace FlatSystem

/-- The counter is the number of marked frames; the totals computed from it do not wrap, and sum to
the memory of a machine with so many KiB. -/
structure FramesAccounted (totalMemoryKb : Nat) (y : FlatSystem) : Prop where
  counted : y.state.totalAllocatedFrames.toNat = y.state.markedFrames
  allocated : y.state.getTotalAllocatedMemory.toNat = y.state.totalAllocatedFrames.toNat * pageSize
  free : (y.state.getTotalFreeMemory.toNat : Int) =
    ((y.state.totalSystemFrames.toNat : Int) - y.state.totalAllocatedFrames.toNat) * pageSize
  total : y.state.getTotalAllocatedMemory.toNat + y.state.getTotalFreeMemory.toNat =
    detectedFrames totalMemoryKb * pageSize

/-- The state after the first initialisation does not account for its frames. -/
theorem not_framesAccounted_initialized (memory : Memory) (handler : Address)
    (totalMemoryKb : BitVec 32) :
    ∃ t, (FlatState.boot memory).initializePagingSystem handler totalMemoryKb = .ok t ∧
      ¬ FramesAccounted totalMemoryKb.toNat (initialized t) := by
  rcases (FlatState.boot memory).initializePagingSystem_booted handler totalMemoryKb with
    ⟨t, ht, hbooted⟩
  refine ⟨t, ht, fun haccounted => ?_⟩
  -- the loop of the initialisation maps the first 4 MiB, and never calls `allocate_frame`
  have hmarked : (initialized t).state.markedFrames = 1024 := hbooted.markedFrames_eq
  have hcounter : (initialized t).state.totalAllocatedFrames = 0 :=
    FlatState.initializePagingSystem_counter ht
  have hcounted := haccounted.counted
  rw [hmarked, hcounter] at hcounted
  cases hcounted

/-- On no machine and in no run is the counter the number of marked frames throughout: the first
initialisation marks 1024 frames, and counts none. -/
theorem framesAccounted_run_boot (memory : Memory) (handler : Address) (totalMemoryKb : BitVec 32) :
    ∃ t, (FlatState.boot memory).initializePagingSystem handler totalMemoryKb = .ok t ∧
      ∀ as : List FlatAction,
        ¬ AllStates step (FramesAccounted totalMemoryKb.toNat) (initialized t) as := by
  rcases not_framesAccounted_initialized memory handler totalMemoryKb with ⟨t, ht, hnot⟩
  exact ⟨t, ht, fun as hall => hnot hall.head⟩

/-- So it is with 64 MiB. -/
theorem framesAccounted_run_false :
    ¬ ∀ (t : FlatState) (as : List FlatAction),
      (FlatState.boot fun _ => 0).initializePagingSystem 0x100000 65536 = .ok t →
        AllStates step (FramesAccounted 65536) (initialized t) as := by
  intro h
  rcases not_framesAccounted_initialized (fun _ => 0) 0x100000 65536 with ⟨t, ht, hnot⟩
  exact hnot (h t [] ht)

end FlatSystem

end Paging
end WhitexKernel
