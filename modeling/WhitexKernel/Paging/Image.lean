import WhitexKernel.Paging.KeptByClones

/-!
# Image — what is written in the kernel image

The code and the globals of the kernel lie in memory, too.  What an operation stores is in an entry that
it has been called for, in a directory or behind it, or in a frame that it has just taken; while the
image is in frames that are marked, only the first of these can be in it.

* `Sound.sameImage_getPageEntry` — a table that is made lies outside the image, and so do its entries;
* `sameImage_foldlM_freeRound`, `Sound.sameImage_clonePageDirectory` — whole loops leave the image alone.
-/

namespace WhitexKernel
namespace Paging

open Lib Machine FlatMemory

namespace FlatState

variable {s t u : FlatState} {known : List Address} {dir page table : Address} {i k : Nat}

/-- The bytes of the kernel image are the same. -/
def SameImage (s t : FlatState) : Prop :=
  ∀ x : Address, InImage (x.toNat / pageSize) → t.memory x = s.memory x

theorem SameImage.refl (s : FlatState) : SameImage s s := fun _ _ => rfl

theorem SameImage.trans (h : SameImage s t) (h' : SameImage t u) : SameImage s u :=
  fun x hx => (h' x hx).trans (h x hx)

theorem OutsideImage.offset {block : Address} {len n : Nat} (h : OutsideImage block len)
    (hi : i < 2 ^ 32) (hfits : i + n ≤ len) : OutsideImage (FlatMemory.offset block i) n :=
  fun x hx => h x (hx.of_offset hi hfits)

/-- Storing a word outside the image leaves the image alone. -/
theorem OutsideImage.sameImage {w : BitVec 32} (h : OutsideImage page 4)
    (hmemory : t.memory = storeWord s.memory page w) : SameImage s t := by
  intro x hx
  rw [hmemory]
  exact write_of_not_within fun hin => h x hin hx

/-- A frame that is free is not in the image. -/
theorem ImageHeld.outside_frame (h : s.ImageHeld known) (hk : s.Free k) :
    OutsideImage (frameAddress k) pageSize := by
  intro x hx himage
  have hmarked := h.marked _ himage
  rw [(within_frameAddress hk.lt).1 hx, hk.not_marked] at hmarked
  cases hmarked

theorem outside_tablePointer (h : OutsideImage dir directorySize) (hi : i < directoryEntries) :
    OutsideImage (tablePointer dir i) 4 := by
  unfold directoryEntries at hi
  refine h.offset (by omega) ?_
  unfold directorySize
  omega

theorem outside_physicalTable (h : OutsideImage dir directorySize) (hi : i < directoryEntries) :
    OutsideImage (physicalTable dir i) 4 := by
  unfold directoryEntries at hi
  refine h.offset (by omega) ?_
  unfold directorySize
  omega

theorem outside_entryAddress (h : OutsideImage table pageSize) (hi : i < pageEntries) :
    OutsideImage (entryAddress table i) 4 := by
  unfold pageEntries at hi
  refine h.offset (by omega) ?_
  unfold pageSize
  omega

/-! ## Operations that take frames -/

theorem Made.sameImage (h : Made s t dir i k) (hs : s.ImageHeld known) (hdir : dir ∈ known)
    (hi : i < directoryEntries) (hk : s.Free k) : SameImage s t := by
  intro x hx
  rw [h.memory]
  have hphysical : ¬ Within (physicalTable dir i) 4 x :=
    fun hin => outside_physicalTable (hs.directories dir hdir) hi x hin hx
  have hframe : ¬ Within (frameAddress k) (4 * pageEntries) x :=
    fun hin => hs.outside_frame hk x hin hx
  have hpointer : ¬ Within (tablePointer dir i) 4 x :=
    fun hin => outside_tablePointer (hs.directories dir hdir) hi x hin hx
  exact (write_of_not_within hphysical).trans
    ((write_of_not_within hframe).trans (write_of_not_within hpointer))

/-- Looking an entry up leaves the image alone, and the entry found is not in it. -/
theorem Sound.sameImage_getPageEntry {address : Address} (hs : s.Sound known) (hdir : dir ∈ known)
    (hroom : s.HasRoom known dir address) (h : s.getPageEntry address true dir = .ok (t, page)) :
    SameImage s t ∧ OutsideImage page 4 := by
  have hindex := tableIdx_lt address
  rcases getPageEntry_cases h with
    ⟨hused, rfl, rfl⟩ | ⟨_, hmake, _⟩ | ⟨hmissing, _, k, hk, hmade, rfl⟩
  · exact ⟨SameImage.refl t, hroom.found hused⟩
  · cases hmake
  · have hcell := hmade.cell_directory hs.laidOut hdir hindex hk.lt (hroom.made hmissing k hk) hdir
      hindex
    rw [if_pos ⟨rfl, rfl⟩] at hcell
    rw [hcell]
    exact ⟨hmade.sameImage hs.image hdir hindex hk,
      outside_entryAddress (hs.image.outside_frame hk) (pageIdx_lt address)⟩

theorem Filled.sameImage (h : Filled s t page k) (hpage : OutsideImage page 4) : SameImage s t := by
  rcases h.memory with ⟨w, _, _, hmemory⟩
  exact hpage.sameImage hmemory

theorem sameImage_allocateFrame {isKernel isWritable : Int} (hpage : OutsideImage page 4)
    (h : s.allocateFrame page isKernel isWritable = .ok t) : SameImage s t := by
  rcases allocateFrame_cases h with ⟨_, rfl⟩ | ⟨_, k, _, hfilled⟩
  · exact SameImage.refl t
  · exact hfilled.sameImage hpage

theorem Sound.sameImage_allocateRound {isKernel isWritable : Int} {current : Address}
    (hs : s.Sound known) (hdir : dir ∈ known) (hroom : s.HasRoom known dir current)
    (h : FlatState.allocateRound isKernel isWritable dir s current = .ok t) : SameImage s t := by
  obtain ⟨⟨u, page⟩, hpage, hrest⟩ := Outcome.bind_eq_ok.1 h
  rcases hs.sameImage_getPageEntry hdir hroom hpage with ⟨hsame, houtside⟩
  exact hsame.trans (sameImage_allocateFrame houtside hrest)

theorem Sound.sameImage_mapVirtualToPhysical {virtualAddr physicalAddr : Address}
    {isKernel isWritable : Int} (hs : s.Sound known) (hdir : dir ∈ known)
    (hroom : s.HasRoom known dir virtualAddr)
    (h : s.mapVirtualToPhysical virtualAddr physicalAddr isKernel isWritable dir = .ok t) :
    SameImage s t := by
  rcases mapVirtualToPhysical_cases h with ⟨u, page, hpage, hfilled⟩
  rcases hs.sameImage_getPageEntry hdir hroom hpage with ⟨hsame, houtside⟩
  exact hsame.trans (hfilled.sameImage houtside)

theorem Sound.sameImage_pageFaultHandler {faultingAddress : Address} {errCode : BitVec 32}
    (hs : s.Sound known) (hdir : s.currentPageDirectory ∈ known)
    (hroom : s.HasRoom known s.currentPageDirectory faultingAddress)
    (h : s.pageFaultHandler faultingAddress errCode = .ok t) : SameImage s t := by
  unfold FlatState.pageFaultHandler at h
  dsimp only at h
  split at h
  case isTrue => cases h
  case isFalse =>
    obtain ⟨⟨u, page⟩, hpage, hrest⟩ := Outcome.bind_eq_ok.1 h
    rcases hs.sameImage_getPageEntry hdir hroom hpage with ⟨hsame, houtside⟩
    dsimp only at hrest
    split at hrest
    case isTrue => exact hsame.trans (sameImage_allocateFrame houtside hrest)
    case isFalse => cases hrest

/-! ## Operations that give frames back -/

/-- Unmapping a page writes to its entry, if that is present. -/
theorem sameImage_unmapVirtualPage {virtualAddr : Address} (hdir : dir ∈ known)
    (hentries : ∀ table, IsTable s.memory known table → ∀ i < pageEntries,
      entryAddress table i ∈ entriesFor s.memory dir [virtualAddr] → isPresent (cell s.memory table i) →
        OutsideImage (entryAddress table i) 4)
    (h : s.unmapVirtualPage virtualAddr dir = .ok t) : SameImage s t := by
  rcases unmapVirtualPage_cases h with ⟨rfl, _⟩ | ⟨hused, hemptied⟩
  · exact SameImage.refl t
  · rcases hemptied.memory with ⟨w, _, hmemory⟩
    refine OutsideImage.sameImage (hentries _ ⟨hused, dir, hdir, _, tableIdx_lt _, rfl⟩ _
      (pageIdx_lt virtualAddr) ?_ hemptied.present) hmemory
    rw [entriesFor_single hused]
    exact Set.mem_singleton _

theorem sameImage_foldlM_freeRound {addresses : List Address} (hs : LaidOut s.memory known)
    (hdir : dir ∈ known)
    (hentries : ∀ table, IsTable s.memory known table → ∀ i < pageEntries,
      entryAddress table i ∈ entriesFor s.memory dir addresses → isPresent (cell s.memory table i) →
        OutsideImage (entryAddress table i) 4)
    (h : addresses.foldlM (freeRound dir) s = .ok t) : SameImage s t := by
  induction addresses generalizing s with
  | nil =>
      cases h
      exact SameImage.refl t
  | cons address addresses ih =>
      rw [List.foldlM_cons, Outcome.bind_eq_ok] at h
      rcases h with ⟨u, hu, hrest⟩
      have hfirst := unmapVirtualPage_unmapped hs hdir hu
      rw [entriesFor_cons] at hentries
      have hsame := sameImage_unmapVirtualPage hdir
        (fun table htable i hi hin => hentries table htable i hi (.inl hin)) hu
      refine hsame.trans (ih (hs.congr hfirst.pointers) (fun table htable i hi hin hpresent => ?_) hrest)
      rw [entriesFor_congr hfirst.pointers hdir] at hin
      have hold := hfirst.pointers.isTable.1 htable
      -- what is present after the first page was so before it
      by_cases hdone : entryAddress table i ∈ entriesFor s.memory dir [address]
      · exact absurd hpresent (hfirst.emptied table hold i hi hdone)
      · rw [hfirst.entries table hold i hi hdone] at hpresent
        exact hentries table hold i hi (.inr hin) hpresent

/-! ## Clones -/

/-- Setting a pointer of the new directory, and its word of `physical_tables`. -/
theorem sameImage_store {table w : BitVec 32} (houtside : OutsideImage dir directorySize)
    (hi : i < directoryEntries) :
    SameImage s ((s.store (tablePointer dir i) table).store (physicalTable dir i) w) := by
  have hpointer : SameImage s (s.store (tablePointer dir i) table) :=
    (outside_tablePointer houtside hi).sameImage rfl
  exact hpointer.trans ((outside_physicalTable houtside hi).sameImage rfl)

theorem sameImage_cloneDirectoryEntry {src phys : Address}
    (hmarked : ∀ frame, InImage frame → s.marked frame = true)
    (houtside : OutsideImage dir directorySize) (hi : i < directoryEntries)
    (h : cloneDirectoryEntry src dir phys s i = .ok t) : SameImage s t := by
  unfold cloneDirectoryEntry at h
  dsimp only at h
  split at h
  case isTrue =>
    cases h
    exact SameImage.refl s
  case isFalse =>
    split at h
    case isTrue =>
      cases h
      exact sameImage_store houtside hi
    case isFalse =>
      obtain ⟨⟨u, newTable, phys'⟩, hclone, hrest⟩ := Outcome.bind_eq_ok.1 h
      cases hrest
      rcases clonePageTable_cases hclone with ⟨rfl, _⟩ | ⟨l, _, _, _, hcopy⟩
      · exact sameImage_store houtside hi
      · have hkept : SameImage s u := fun x hx => hcopy.kept x (hmarked _ hx)
        exact hkept.trans (sameImage_store houtside hi)

theorem Sound.sameImage_clonePageDirectory {src phys newDir : Address} (hs : s.Sound known)
    (hsrc : src ∈ known) (hroom : ∀ k, s.Free k → s.RoomForClone known src phys k)
    (h : s.clonePageDirectory src phys = .ok (t, newDir)) : SameImage s t := by
  unfold FlatState.clonePageDirectory at h
  dsimp only at h
  rcases s.findFirstFreeFrame_cases with ⟨hnone, _⟩ | ⟨k, hk, haddress⟩
  · rw [if_pos hnone] at h
    cases h
    exact SameImage.refl s
  · rw [if_neg (by rw [haddress]; exact frameAddress_ne_noFrame hk.lt), haddress] at h
    obtain ⟨u, hloop, hrest⟩ := Outcome.bind_eq_ok.1 h
    cases hrest
    have hroom := hroom k hk
    have hopened := hroom.opened hs.laidOut hk.lt
    have hmarks : ∀ frame, InImage frame → (s.newDirectory (frameAddress k)).marked frame = true :=
      fun frame hframe => (marked_newDirectory hk.lt frame).2 (.inr (hs.image.marked frame hframe))
    have hstart : SameImage s (s.newDirectory (frameAddress k)) :=
      fun x hx => memory_newDirectory fun hin => hroom.image x hin hx
    -- the frames of the image stay marked from round to round, and so none of them is taken
    have hround : ∀ i ∈ List.range directoryEntries, ∀ u v : FlatState,
        (Cloning (s.newDirectory (frameAddress k)) u known k ∧ SameImage s u) →
          CopySound src (frameAddress k) u i →
            FlatState.cloneDirectoryEntry src (frameAddress k) phys u i = .ok v →
              Cloning (s.newDirectory (frameAddress k)) v known k ∧ SameImage s v := by
      rintro i hi u v ⟨hu, hsame⟩ hsound hround
      have hindex := List.mem_range.1 hi
      exact ⟨hu.cloneDirectoryEntry hopened hsrc hindex hsound hround, hsame.trans
        (sameImage_cloneDirectoryEntry (fun frame hframe => hu.marks frame (hmarks frame hframe))
          hroom.image hindex hround)⟩
    exact (hroom.copies.invariant hround
      ⟨Cloning.start fun j hj => s.cell_newDirectory _ hj, hstart⟩ hloop).2

end FlatState

end Paging
end WhitexKernel
