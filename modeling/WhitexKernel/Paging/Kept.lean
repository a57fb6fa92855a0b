import WhitexKernel.Paging.Structures

/-!
# Kept — the frames of present entries

Every frame that a present entry maps should be marked in the bitmap, so that it is not handed out
again.  The same goes for those of the kernel image, in which the bitmap itself is.

* `Sound` — what is kept;
* `Sound.mapVirtualToPhysical`, `Sound.allocateRound`, `Sound.pageFaultHandler` — operations that take
  frames keep them so, where they find room for the tables that they make;
* `Sound.unmapped` — those that give frames back keep them so, if no entry that stays maps one of them.
-/

namespace WhitexKernel
namespace Paging

open Lib Machine FlatMemory

namespace FlatState

variable {s t u : FlatState} {known : List Address} {dir page table : Address} {i k : Nat}

/-- The frame of every present entry is marked. -/
def FramesMarked (s : FlatState) (known : List Address) : Prop :=
  ∀ table, IsTable s.memory known table → ∀ i < pageEntries,
    isPresent (cell s.memory table i) → s.marked (frameNumber (cell s.memory table i)) = true

/-- The frame is one of the kernel image, from 1 MiB to `kernel_end_ptr`, where the code and the globals
are. -/
def InImage (frame : Nat) : Prop := 0x100 ≤ frame ∧ frame < 0x400

/-- No byte of the block is in the kernel image. -/
def OutsideImage (block : Address) (len : Nat) : Prop :=
  ∀ x, Within block len x → ¬ InImage (x.toNat / pageSize)

/-- The kernel image is in frames that are marked, so that nothing is made in it, and no directory
reaches into it with what lies behind its pointers. -/
structure ImageHeld (s : FlatState) (known : List Address) : Prop where
  marked : ∀ frame, InImage frame → s.marked frame = true
  directories : ∀ dir ∈ known, OutsideImage dir directorySize

theorem ImageHeld.mono (h : s.ImageHeld known)
    (hmarks : ∀ frame, s.marked frame = true → t.marked frame = true) : t.ImageHeld known where
  marked := fun frame hframe => hmarks frame (h.marked frame hframe)
  directories := h.directories

/-- What the operations keep, as far as they do: one directory is that of the kernel, at address `0`. -/
structure Sound (s : FlatState) (known : List Address) : Prop where
  laidOut : LaidOut s.memory known
  marked : s.FramesMarked known
  zero : 0 ∈ known
  image : s.ImageHeld known

theorem marked_mark {b : Bitmap.Words 32} (h : t.physicalMemoryBitmap = Bitmap.mark b k)
    (frame : Nat) : t.marked frame = true ↔ frame = k ∨ Bitmap.marked b frame = true := by
  unfold marked
  rw [h]
  exact Bitmap.mark_iff (by decide) b k frame

/-! ## Filling an entry -/

theorem Filled.samePointers (h : Filled s t (entryAddress table i) k) (hs : LaidOut s.memory known)
    (htable : IsTable s.memory known table) (hi : i < pageEntries) :
    SamePointers known s.memory t.memory := by
  rcases h.memory with ⟨w, _, _, hmemory⟩
  rw [hmemory]
  exact hs.samePointers_storeWord htable hi w

/-- The entry that is filled is present, and the others are as they were. -/
theorem Filled.cells (h : Filled s t (entryAddress table i) k) (hs : LaidOut s.memory known)
    (htable : IsTable s.memory known table) (hi : i < pageEntries) :
    (isPresent (cell t.memory table i) ∧ frameNumber (cell t.memory table i) = k) ∧
      ∀ other, IsTable s.memory known other → ∀ j < pageEntries,
        entryAddress other j ≠ entryAddress table i → cell t.memory other j = cell s.memory other j := by
  rcases h.memory with ⟨w, hpresent, hframe, hmemory⟩
  have hcell : ∀ other, IsTable s.memory known other → ∀ j < pageEntries,
      cell (storeWord s.memory (entryAddress table i) w) other j =
        if entryAddress other j = entryAddress table i then w else cell s.memory other j :=
    fun _ hother _ hj => hs.cell_storeWord htable hother hi hj w
  rw [← hmemory] at hcell
  refine ⟨?_, fun other hother j hj hne => ?_⟩
  · rw [hcell table htable i hi, if_pos rfl]
    exact ⟨hpresent, hframe⟩
  · rw [hcell other hother j hj, if_neg hne]

theorem Sound.filled (hs : s.Sound known) (htable : IsTable s.memory known table)
    (hi : i < pageEntries) (h : Filled s t (entryAddress table i) k) : t.Sound known := by
  have hsame := h.samePointers hs.laidOut htable hi
  rcases h.cells hs.laidOut htable hi with ⟨⟨_, hframe⟩, hothers⟩
  refine ⟨hs.laidOut.congr hsame, fun other hother j hj hused => ?_, hs.zero,
    hs.image.mono fun frame hmarked => (marked_mark h.bitmap frame).2 (.inr hmarked)⟩
  have hold := hsame.isTable.1 hother
  rw [marked_mark h.bitmap]
  by_cases hentry : entryAddress other j = entryAddress table i
  · have hword : cell t.memory other j = cell t.memory table i := congrArg (word t.memory) hentry
    rw [hword]
    exact .inl hframe
  · rw [hothers other hold j hj hentry] at hused ⊢
    exact .inr (hs.marked other hold j hj hused)

/-! ## Making a table -/

/-- The entry for an address is not in the kernel image, and there is room for its table, if that has
to be made. -/
structure HasRoom (s : FlatState) (known : List Address) (dir address : Address) : Prop where
  found : cell s.memory dir (tableIdx address) ≠ 0 →
    OutsideImage (entryAddress (cell s.memory dir (tableIdx address)) (pageIdx address)) 4
  made : cell s.memory dir (tableIdx address) = 0 → ∀ k, s.Free k →
    RoomFor s.memory known dir (tableIdx address) k

/-- The word of `physical_tables` maps, read as an entry, the frame of the table. -/
theorem frameNumber_frameAddress (hk : k < 2 ^ 20) : frameNumber (frameAddress k ||| 0x07#32) = k := by
  have hshift : (k * pageSize) >>> 12 = k := by
    rw [Nat.shiftRight_eq_div_pow]
    exact Nat.mul_div_cancel k (by decide)
  have hflags : (0x07#32).toNat >>> 12 = 0 := rfl
  change ((frameAddress k ||| 0x07#32).extractLsb' 12 20).toNat = k
  rw [BitVec.extractLsb'_toNat, BitVec.toNat_or, toNat_frameAddress hk, Nat.shiftRight_or_distrib,
    hshift, hflags, Nat.or_zero, Nat.mod_eq_of_lt hk]

theorem Sound.frameAddress_ne_zero (hs : s.Sound known) (h : frameAddress k ∉ known) :
    frameAddress k ≠ 0 := by
  intro hzero
  exact h (hzero ▸ hs.zero)

theorem Sound.made {index : Nat} (hs : s.Sound known) (hdir : dir ∈ known)
    (hindex : index < directoryEntries) (hk : k < 2 ^ 20)
    (hroom : RoomFor s.memory known dir index k) (hmissing : cell s.memory dir index = 0)
    (h : Made s t dir index k) : t.Sound known := by
  have hne := hs.frameAddress_ne_zero hroom.directories
  refine ⟨h.laidOut hs.laidOut hdir hindex hk hroom hmissing hne, fun table htable i hi hused => ?_,
    hs.zero, hs.image.mono fun frame hmarked => (marked_mark h.bitmap frame).2 (.inr hmarked)⟩
  have hcell := h.cell_table hs.laidOut hdir hindex hk hroom hmissing hne htable hi
  rw [marked_mark h.bitmap]
  split at hcell
  case isTrue =>
    rw [hcell, frameNumber_frameAddress hk]
    exact .inl rfl
  case isFalse =>
    split at hcell
    case isTrue =>
      -- the rest of the new table is empty
      rw [hcell] at hused
      exact absurd hused not_isPresent_zero
    case isFalse hother =>
      rw [hcell] at hused ⊢
      have hold := ((h.isTable_iff hs.laidOut hdir hindex hk hroom hmissing hne).1
        htable).resolve_left hother
      exact .inr (hs.marked table hold i hi hused)

/-- The entry for an address, in a table that is there or has been made. -/
theorem Sound.getPageEntry {address : Address} (hs : s.Sound known) (hdir : dir ∈ known)
    (hroom : s.HasRoom known dir address) (h : s.getPageEntry address true dir = .ok (t, page)) :
    t.Sound known ∧ ∃ table, IsTable t.memory known table ∧
      page = entryAddress table (pageIdx address) := by
  have hindex := tableIdx_lt address
  rcases getPageEntry_cases h with
    ⟨hused, rfl, hpage⟩ | ⟨_, hmake, _⟩ | ⟨hmissing, _, k, hk, hmade, hpage⟩
  · exact ⟨hs, _, ⟨hused, dir, hdir, _, hindex, rfl⟩, hpage⟩
  · cases hmake
  · have hfits := hroom.made hmissing k hk
    have hne := hs.frameAddress_ne_zero hfits.directories
    have hcell := hmade.cell_directory hs.laidOut hdir hindex hk.lt hfits hdir hindex
    rw [if_pos ⟨rfl, rfl⟩] at hcell
    refine ⟨hs.made hdir hindex hk.lt hfits hmissing hmade, _, ?_, hpage⟩
    rw [hcell]
    exact (hmade.isTable_iff hs.laidOut hdir hindex hk.lt hfits hmissing hne).2 (.inl rfl)

/-! ## Operations that take frames -/

theorem Sound.allocateFrame {isKernel isWritable : Int} (hs : s.Sound known)
    (htable : IsTable s.memory known table) (hi : i < pageEntries)
    (h : s.allocateFrame (entryAddress table i) isKernel isWritable = .ok t) : t.Sound known := by
  rcases allocateFrame_cases h with ⟨_, rfl⟩ | ⟨_, k, _, hfilled⟩
  · exact hs
  · exact hs.filled htable hi hfilled

theorem Sound.allocateRound {isKernel isWritable : Int} {current : Address} (hs : s.Sound known)
    (hdir : dir ∈ known) (hroom : s.HasRoom known dir current)
    (h : allocateRound isKernel isWritable dir s current = .ok t) : t.Sound known := by
  obtain ⟨⟨u, page⟩, hpage, hrest⟩ := Outcome.bind_eq_ok.1 h
  rcases hs.getPageEntry hdir hroom hpage with ⟨hu, table, htable, rfl⟩
  exact hu.allocateFrame htable (pageIdx_lt current) hrest

/-- Mapping a page fills its entry. -/
theorem mapVirtualToPhysical_cases {virtualAddr physicalAddr : Address} {isKernel isWritable : Int}
    (h : s.mapVirtualToPhysical virtualAddr physicalAddr isKernel isWritable dir = .ok t) :
    ∃ u page, s.getPageEntry virtualAddr true dir = .ok (u, page) ∧
      Filled u t page (physicalAddr.toNat / pageSize) := by
  obtain ⟨⟨u, page⟩, hpage, hrest⟩ := Outcome.bind_eq_ok.1 h
  refine ⟨u, page, hpage, ?_⟩
  dsimp only at hrest
  split at hrest
  case isTrue => cases hrest
  case isFalse =>
    have hnumber : (BitVec.ofNat EntryField.frame.width (physicalAddr.toNat / pageSize)).toNat =
        physicalAddr.toNat / pageSize := by
      have hlt := physicalAddr.isLt
      rw [BitVec.toNat_ofNat]
      refine Nat.mod_eq_of_lt ?_
      change _ < 2 ^ 20
      unfold pageSize
      omega
    rcases setFields u page (flag (isWritable ≠ 0)) (flag (isKernel = 0))
      (BitVec.ofNat EntryField.frame.width (physicalAddr.toNat / pageSize)) with
      ⟨w, hpresent, hframe, hset⟩
    rw [hset] at hrest
    cases hrest
    exact ⟨⟨w, hpresent, hframe.trans hnumber, rfl⟩, rfl, rfl, rfl⟩

theorem Sound.mapVirtualToPhysical {virtualAddr physicalAddr : Address} {isKernel isWritable : Int}
    (hs : s.Sound known) (hdir : dir ∈ known) (hroom : s.HasRoom known dir virtualAddr)
    (h : s.mapVirtualToPhysical virtualAddr physicalAddr isKernel isWritable dir = .ok t) :
    t.Sound known := by
  rcases mapVirtualToPhysical_cases h with ⟨u, page, hpage, hfilled⟩
  rcases hs.getPageEntry hdir hroom hpage with ⟨hu, table, htable, rfl⟩
  exact hu.filled htable (pageIdx_lt virtualAddr) hfilled

theorem Sound.pageFaultHandler {faultingAddress : Address} {errCode : BitVec 32}
    (hs : s.Sound known) (hdir : s.currentPageDirectory ∈ known)
    (hroom : s.HasRoom known s.currentPageDirectory faultingAddress)
    (h : s.pageFaultHandler faultingAddress errCode = .ok t) : t.Sound known := by
  unfold FlatState.pageFaultHandler at h
  dsimp only at h
  split at h
  case isTrue => cases h
  case isFalse =>
    obtain ⟨⟨u, page⟩, hpage, hrest⟩ := Outcome.bind_eq_ok.1 h
    rcases hs.getPageEntry hdir hroom hpage with ⟨hu, table, htable, rfl⟩
    dsimp only at hrest
    split at hrest
    case isTrue => exact hu.allocateFrame htable (pageIdx_lt faultingAddress) hrest
    case isFalse => cases hrest

/-! ## Operations that give frames back -/

/-- `t` is `s` with the entry at `page` not present any more, and the bit of its frame cleared. -/
structure Emptied (s t : FlatState) (page : Address) : Prop where
  present : isPresent (word s.memory page)
  memory : ∃ w, ¬ isPresent w ∧ t.memory = storeWord s.memory page w
  marked : ∀ frame, s.marked frame = true →
    (frame = frameNumber (word s.memory page) → frame = 0) → t.marked frame = true
  cleared : frameNumber (word s.memory page) ≠ 0 →
    t.marked (frameNumber (word s.memory page)) = false
  kernel : t.kernelPageDirectory = s.kernelPageDirectory
  current : t.currentPageDirectory = s.currentPageDirectory

theorem not_isPresent_set (w : BitVec 32) : ¬ isPresent (EntryField.present.set w 0) := by
  unfold isPresent
  rw [BitField.get_set_self]
  exact fun h => h rfl

theorem emptied_freeFrame (hpresent : isPresent (word s.memory page)) :
    Emptied s ((s.freeFrame page).setField .present page 0) page := by
  have hword : ∀ (s : FlatState) (w : BitVec 32), word (s.store page w).memory page = w :=
    fun s w => word_store_same s.memory page w
  have hset : ∀ (s : FlatState) (f : EntryField) (v : BitVec f.width),
      s.setField f page v = s.store page (f.set (word s.memory page) v) := fun _ _ _ => rfl
  unfold freeFrame
  dsimp only
  split
  case isTrue hframe =>
    have hzero : frameNumber (word s.memory page) = 0 := congrArg BitVec.toNat hframe
    exact
      { present := hpresent
        memory := ⟨_, not_isPresent_set _, rfl⟩
        marked := fun _ h _ => h
        cleared := fun hne => absurd hzero hne
        kernel := rfl
        current := rfl }
  case isFalse hframe =>
    have hmemory : ∃ w, ((((s.bitmapClearBit (BitVec.ofNat 32 ((s.getField .frame page).toNat *
        pageSize))).setField .frame page 0).setField .present page 0).setField .present page
          0).memory = storeWord s.memory page (EntryField.present.set w 0) := by
      rw [hset, hset, hset, hword, store_store, hword, store_store]
      exact ⟨_, rfl⟩
    rcases hmemory with ⟨w, hmemory⟩
    have hlt : frameNumber (word s.memory page) < 2 ^ 20 := frameNumber_lt _
    have hfreed : (BitVec.ofNat 32 ((s.getField .frame page).toNat * pageSize)).toNat / pageSize =
        frameNumber (word s.memory page) := by
      have haddress := toNat_frameAddress hlt
      unfold frameAddress at haddress
      change (BitVec.ofNat 32 (frameNumber (word s.memory page) * pageSize)).toNat / pageSize = _
      rw [haddress, Nat.mul_div_cancel _ (by decide)]
    have hbit : ∀ frame, Bitmap.marked (Bitmap.clear s.physicalMemoryBitmap
        ((BitVec.ofNat 32 ((s.getField .frame page).toNat * pageSize)).toNat / pageSize)) frame =
          true ↔ frame ≠ frameNumber (word s.memory page) ∧ s.marked frame = true := by
      intro frame
      rw [hfreed]
      exact Bitmap.clear_iff (by decide) s.physicalMemoryBitmap _ frame
    exact
      { present := hpresent
        memory := ⟨_, not_isPresent_set w, hmemory⟩
        marked := fun frame hmarked hzero => (hbit frame).2
          ⟨fun heq => hframe (BitVec.eq_of_toNat_eq (heq.symm.trans (hzero heq))), hmarked⟩
        cleared := fun _ => Bool.eq_false_iff.2 fun hmarked => ((hbit _).1 hmarked).1 rfl
        kernel := rfl
        current := rfl }

/-- Unmapping a page empties its entry if it is present, and does nothing otherwise. -/
theorem unmapVirtualPage_cases {virtualAddr : Address}
    (h : s.unmapVirtualPage virtualAddr dir = .ok t) :
    (t = s ∧ (cell s.memory dir (tableIdx virtualAddr) = 0 ∨
        entryAddress (cell s.memory dir (tableIdx virtualAddr)) (pageIdx virtualAddr) = 0 ∨
          ¬ isPresent (cell s.memory (cell s.memory dir (tableIdx virtualAddr))
            (pageIdx virtualAddr)))) ∨
      (cell s.memory dir (tableIdx virtualAddr) ≠ 0 ∧
        Emptied s t
          (entryAddress (cell s.memory dir (tableIdx virtualAddr)) (pageIdx virtualAddr))) := by
  obtain ⟨⟨u, page⟩, hpage, hrest⟩ := Outcome.bind_eq_ok.1 h
  rcases getPageEntry_cases hpage with ⟨hused, rfl, rfl⟩ | ⟨hmissing, _, rfl, rfl⟩ | ⟨_, hmake, _⟩
  · dsimp only at hrest
    split at hrest
    case isTrue hpresent =>
      cases hrest
      exact .inr ⟨hused, emptied_freeFrame hpresent.2⟩
    case isFalse hnot =>
      cases hrest
      refine .inl ⟨rfl, .inr ?_⟩
      by_cases hnull : entryAddress (cell t.memory dir (tableIdx virtualAddr)) (pageIdx virtualAddr) = 0
      · exact .inl hnull
      · exact .inr fun hpresent => hnot ⟨hnull, hpresent⟩
  · dsimp only at hrest
    rw [if_neg fun hnull => hnull.1 rfl] at hrest
    cases hrest
    exact .inl ⟨rfl, .inl hmissing⟩
  · cases hmake

/-- The entries for some addresses. -/
def entriesFor (m : Memory) (dir : Address) (addresses : List Address) : Set Address :=
  {page | ∃ address ∈ addresses, cell m dir (tableIdx address) ≠ 0 ∧
    page = entryAddress (cell m dir (tableIdx address)) (pageIdx address)}

theorem entriesFor_single {m : Memory} {address : Address}
    (h : cell m dir (tableIdx address) ≠ 0) : entriesFor m dir [address] =
      {entryAddress (cell m dir (tableIdx address)) (pageIdx address)} := by
  ext page
  constructor
  · rintro ⟨other, hmem, _, hpage⟩
    rw [List.mem_singleton.1 hmem] at hpage
    exact hpage
  · intro hpage
    exact ⟨address, List.mem_singleton_self _, h, hpage⟩

theorem entriesFor_congr {m m' : Memory} (h : SamePointers known m m') (hdir : dir ∈ known)
    (addresses : List Address) : entriesFor m' dir addresses = entriesFor m dir addresses := by
  unfold entriesFor
  simp only [h dir hdir _ (tableIdx_lt _)]

/-- `t` is `s` after the present ones among some entries have been unmapped. -/
structure Unmapped (s t : FlatState) (known : List Address) (pages : Set Address) : Prop where
  pointers : SamePointers known s.memory t.memory
  emptied : ∀ table, IsTable s.memory known table → ∀ i < pageEntries,
    entryAddress table i ∈ pages → ¬ isPresent (cell t.memory table i)
  entries : ∀ table, IsTable s.memory known table → ∀ i < pageEntries,
    entryAddress table i ∉ pages → cell t.memory table i = cell s.memory table i
  marked : ∀ frame, s.marked frame = true →
    (∀ table, IsTable s.memory known table → ∀ i < pageEntries, entryAddress table i ∈ pages →
      isPresent (cell s.memory table i) → frame = frameNumber (cell s.memory table i) → frame = 0) →
        t.marked frame = true
  kernel : t.kernelPageDirectory = s.kernelPageDirectory
  current : t.currentPageDirectory = s.currentPageDirectory

namespace Unmapped

theorem refl (s : FlatState) (known : List Address) : Unmapped s s known ∅ where
  pointers := fun _ _ _ _ => rfl
  emptied := fun _ _ _ _ h => absurd h (Set.notMem_empty _)
  entries := fun _ _ _ _ _ => rfl
  marked := fun _ h _ => h
  kernel := rfl
  current := rfl

theorem trans {pages more : Set Address} (h : Unmapped s t known pages)
    (h' : Unmapped t u known more) : Unmapped s u known (pages ∪ more) where
  pointers := fun dir hdir i hi => (h'.pointers dir hdir i hi).trans (h.pointers dir hdir i hi)
  emptied := by
    intro table htable i hi hin
    have htable' := h.pointers.isTable.2 htable
    by_cases hmore : entryAddress table i ∈ more
    · exact h'.emptied table htable' i hi hmore
    · rw [h'.entries table htable' i hi hmore]
      exact h.emptied table htable i hi (hin.resolve_right hmore)
  entries := by
    intro table htable i hi hout
    rw [Set.mem_union, not_or] at hout
    rw [h'.entries table (h.pointers.isTable.2 htable) i hi hout.2, h.entries table htable i hi hout.1]
  marked := by
    intro frame hmarked hzero
    refine h'.marked frame (h.marked frame hmarked fun table htable i hi hin =>
      hzero table htable i hi (.inl hin)) fun table htable i hi hin hpresent hframe => ?_
    have hold := h.pointers.isTable.1 htable
    by_cases hfirst : entryAddress table i ∈ pages
    · exact absurd hpresent (h.emptied table hold i hi hfirst)
    · rw [h.entries table hold i hi hfirst] at hpresent hframe
      exact hzero table hold i hi (.inr hin) hpresent hframe
  kernel := h'.kernel.trans h.kernel
  current := h'.current.trans h.current

end Unmapped

theorem Emptied.unmapped (h : Emptied s t (entryAddress table i)) (hs : LaidOut s.memory known)
    (htable : IsTable s.memory known table) (hi : i < pageEntries) :
    Unmapped s t known {entryAddress table i} := by
  rcases h.memory with ⟨w, habsent, hmemory⟩
  have hcell : ∀ other, IsTable s.memory known other → ∀ j < pageEntries,
      cell (storeWord s.memory (entryAddress table i) w) other j =
        if entryAddress other j = entryAddress table i then w else cell s.memory other j :=
    fun _ hother _ hj => hs.cell_storeWord htable hother hi hj w
  refine
    { pointers := ?_
      emptied := fun other hother j hj hin => ?_
      entries := fun other hother j hj hout => ?_
      marked := fun frame hmarked hzero => ?_
      kernel := h.kernel
      current := h.current }
  · rw [hmemory]
    exact hs.samePointers_storeWord htable hi w
  · rw [hmemory, hcell other hother j hj, if_pos (Set.mem_singleton_iff.1 hin)]
    exact habsent
  · rw [hmemory, hcell other hother j hj, if_neg fun heq => hout (Set.mem_singleton_iff.2 heq)]
  · exact h.marked frame hmarked fun hframe =>
      hzero table htable i hi (Set.mem_singleton _) h.present hframe

theorem unmapVirtualPage_unmapped {virtualAddr : Address} (hs : LaidOut s.memory known)
    (hdir : dir ∈ known) (h : s.unmapVirtualPage virtualAddr dir = .ok t) :
    Unmapped s t known (entriesFor s.memory dir [virtualAddr]) := by
  have hindex := pageIdx_lt virtualAddr
  have htable : cell s.memory dir (tableIdx virtualAddr) ≠ 0 →
      IsTable s.memory known (cell s.memory dir (tableIdx virtualAddr)) :=
    fun hused => ⟨hused, dir, hdir, _, tableIdx_lt virtualAddr, rfl⟩
  rcases unmapVirtualPage_cases h with ⟨rfl, hnothing⟩ | ⟨hused, hemptied⟩
  · by_cases hused : cell t.memory dir (tableIdx virtualAddr) = 0
    · have hempty : entriesFor t.memory dir [virtualAddr] = ∅ := by
        refine Set.eq_empty_iff_forall_notMem.2 ?_
        rintro page ⟨address, hmem, hne, _⟩
        rw [List.mem_singleton.1 hmem] at hne
        exact hne hused
      rw [hempty]
      exact Unmapped.refl t known
    · have hne := entryAddress_ne_zero (hs.fits _ (htable hused)) hused hindex
      have habsent := (hnothing.resolve_left hused).resolve_left hne
      rw [entriesFor_single hused]
      refine
        { Unmapped.refl t known with
          emptied := fun other hother j hj hin => ?_
          entries := fun _ _ _ _ _ => rfl
          marked := fun _ h _ => h }
      have hsame : cell t.memory other j = cell t.memory (cell t.memory dir (tableIdx virtualAddr))
          (pageIdx virtualAddr) := congrArg (word t.memory) (Set.mem_singleton_iff.1 hin)
      rw [hsame]
      exact habsent
  · rw [entriesFor_single hused]
    exact hemptied.unmapped hs (htable hused) hindex

theorem entriesFor_nil (m : Memory) (dir : Address) : entriesFor m dir [] = ∅ := by
  ext page
  unfold entriesFor
  simp

theorem entriesFor_cons (m : Memory) (dir address : Address) (addresses : List Address) :
    entriesFor m dir (address :: addresses) =
      entriesFor m dir [address] ∪ entriesFor m dir addresses := by
  ext page
  unfold entriesFor
  simp

/-- Pages are unmapped one after the other. -/
theorem foldlM_freeRound_unmapped {addresses : List Address} (hs : LaidOut s.memory known)
    (hdir : dir ∈ known) (h : addresses.foldlM (freeRound dir) s = .ok t) :
    Unmapped s t known (entriesFor s.memory dir addresses) := by
  induction addresses generalizing s with
  | nil =>
      cases h
      rw [entriesFor_nil]
      exact Unmapped.refl _ known
  | cons address addresses ih =>
      rw [List.foldlM_cons, Outcome.bind_eq_ok] at h
      rcases h with ⟨u, hu, hrest⟩
      have hfirst := unmapVirtualPage_unmapped hs hdir hu
      rw [entriesFor_cons]
      refine hfirst.trans ?_
      rw [← entriesFor_congr hfirst.pointers hdir]
      exact ih (hs.congr hfirst.pointers) hrest

/-- An entry that is unmapped is not in the kernel image, nor is its frame, and no present entry that
stays maps that. -/
structure FreesUnshared (s : FlatState) (known : List Address) (pages : Set Address) : Prop where
  entries : ∀ table, IsTable s.memory known table → ∀ i < pageEntries, entryAddress table i ∈ pages →
    isPresent (cell s.memory table i) → OutsideImage (entryAddress table i) 4
  frames : ∀ table, IsTable s.memory known table → ∀ i < pageEntries, entryAddress table i ∈ pages →
    isPresent (cell s.memory table i) → ¬ InImage (frameNumber (cell s.memory table i))
  unshared : ∀ table, IsTable s.memory known table → ∀ i < pageEntries, entryAddress table i ∈ pages →
    isPresent (cell s.memory table i) → frameNumber (cell s.memory table i) ≠ 0 →
      ∀ other, IsTable s.memory known other → ∀ j < pageEntries, entryAddress other j ∉ pages →
        isPresent (cell s.memory other j) →
          frameNumber (cell s.memory other j) ≠ frameNumber (cell s.memory table i)

theorem Sound.unmapped {pages : Set Address} (hs : s.Sound known)
    (hunshared : s.FreesUnshared known pages) (h : Unmapped s t known pages) : t.Sound known := by
  refine ⟨hs.laidOut.congr h.pointers, fun other hother j hj hpresent => ?_, hs.zero,
    fun frame hframe => ?_, hs.image.directories⟩
  case refine_2 =>
    refine h.marked frame (hs.image.marked frame hframe) fun table htable i hi hin hused heq => ?_
    rw [heq] at hframe
    exact absurd hframe (hunshared.frames table htable i hi hin hused)
  have hold := h.pointers.isTable.1 hother
  by_cases hin : entryAddress other j ∈ pages
  · exact absurd hpresent (h.emptied other hold j hj hin)
  · rw [h.entries other hold j hj hin] at hpresent ⊢
    refine h.marked _ (hs.marked other hold j hj hpresent)
      fun table htable i hi hin' hpresent' hframe => ?_
    by_contra hne
    rw [hframe] at hne
    exact hunshared.unshared table htable i hi hin' hpresent' hne other hold j hj hin hpresent hframe

end FlatState

end Paging
end WhitexKernel
