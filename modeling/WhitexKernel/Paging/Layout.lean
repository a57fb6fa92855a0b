import Mathlib.Order.CompletePartialOrder
import Mathlib.Order.Interval.Set.Disjoint
import WhitexKernel.Paging.Release

/-!
# Layout — where the paging structures lie in memory

The stores of the model keep directories and tables apart by construction; in memory each of them is
a range of bytes at its physical address, and a directory is larger than the frame taken for it.

* `PagingSystem.structuresApart_run` — in no run are the ranges disjoint: the kernel directory
  reaches into the frame of its first table;
* `PagingSystem.Overlaps.physicalTable_eq_entry` — its `physical_tables` are the entries of that table.
-/

namespace WhitexKernel
namespace Paging

open Lib Machine

/-- `sizeof(page_table_t)`: an entry has four bytes. -/
def sizeofPageTable : Nat := 4 * pageEntries

/-- The place of `physical_tables` in a directory, behind the pointers of `tables`. -/
def physicalTablesOffset : Nat := 4 * directoryEntries

/-- `sizeof(page_directory_t)`: the two arrays, and `physical_address`. -/
def sizeofPageDirectory : Nat := physicalTablesOffset + 4 * directoryEntries + 4

/-- A directory or a table, given by its address. -/
inductive PagingStructure
  | directory (dir : Nat)
  | table (page : Nat)
  deriving DecidableEq

/-- The addresses of its bytes. -/
def PagingStructure.bytes : PagingStructure → Set Nat
  | directory dir => Set.Ico dir (dir + sizeofPageDirectory)
  | table page => Set.Ico page (page + sizeofPageTable)

namespace PagingSystem

/-- The directories handed out, and the tables made for them. -/
def Contains (y : PagingSystem) : PagingStructure → Prop
  | .directory dir => dir ∈ y.known
  | .table page => page ∈ y.state.mappedTables y.known

/-- The paging structures lie in frames that are marked, and no byte belongs to two of them. -/
structure StructuresApart (y : PagingSystem) : Prop where
  marked : ∀ a, y.Contains a → ∀ address ∈ a.bytes, y.state.marked (address / pageSize) = true
  disjoint : ∀ a b, y.Contains a → y.Contains b → a ≠ b → Disjoint a.bytes b.bytes

end PagingSystem

/-! ## The first table of the kernel directory -/

namespace PagingState

/-- The kernel directory holds frame 0, and its first table lies in the frame behind it. -/
structure FirstTableNext (s : PagingState) : Prop where
  taken : s.marked 0 = true
  next : (s.directories 0).tables 0 = pageSize

namespace FirstTableNext

variable {s t : PagingState}

theorem bitmapSetBit (hs : s.FirstTableNext) (address : Nat) :
    (s.bitmapSetBit address).FirstTableNext := by
  refine ⟨?_, hs.next⟩
  rw [marked_bitmapSetBit]
  exact .inr hs.taken

theorem setEntry (hs : s.FirstTableNext) (page : EntryRef) (e : PageTableEntry) :
    (s.setEntry page e).FirstTableNext := ⟨hs.taken, hs.next⟩

theorem zeroTable (hs : s.FirstTableNext) (table : Nat) : (s.zeroTable table).FirstTableNext :=
  ⟨hs.taken, hs.next⟩

theorem copyFrame (hs : s.FirstTableNext) (dest src : Nat) :
    (s.copyFrame dest src).FirstTableNext := ⟨hs.taken, hs.next⟩

theorem withCount (hs : s.FirstTableNext) (count : Nat) :
    FirstTableNext { s with totalAllocatedFrames := count } :=
  ⟨(marked_withCount s count 0).trans hs.taken, hs.next⟩

theorem setDirectory (hs : s.FirstTableNext) {dir : Nat} {d : PageDirectory}
    (h : dir = 0 → d.tables 0 = pageSize) : (s.setDirectory dir d).FirstTableNext := by
  refine ⟨hs.taken, ?_⟩
  unfold PagingState.setDirectory
  by_cases hdir : dir = 0
  · subst hdir
    simpa using h rfl
  · simpa [Ne.symm hdir] using hs.next

/-- A frame that is free is not that of the kernel directory. -/
theorem findFirstFreeFrame_ne (hs : s.FirstTableNext) (hfound : s.findFirstFreeFrame ≠ noFrame) :
    s.findFirstFreeFrame ≠ 0 := by
  intro hzero
  have hfree := not_marked_findFirstFreeFrame hfound
  rw [hzero, Nat.zero_div, hs.taken] at hfree
  cases hfree

theorem allocateFrame {page : EntryRef} {isKernel isWritable : Int} (hs : s.FirstTableNext)
    (h : s.allocateFrame page isKernel isWritable = .ok t) : t.FirstTableNext := by
  rcases allocateFrame_cases h with ⟨_, rfl⟩ | ⟨_, _, rfl⟩
  · exact hs
  · exact ((hs.bitmapSetBit _).setEntry _ _).withCount _

/-- Frame 0 is the one that is not given back. -/
theorem freeFrame (hs : s.FirstTableNext) (page : EntryRef) : (s.freeFrame page).FirstTableNext := by
  unfold PagingState.freeFrame
  dsimp only
  split
  · exact hs
  case isFalse hframe =>
    refine ⟨?_, hs.next⟩
    rw [marked_withCount, marked_setEntry, marked_bitmapClearBit, Nat.mul_div_cancel _ (by decide)]
    exact ⟨Ne.symm hframe, hs.taken⟩

theorem getPageEntry {address dir : Nat} {make : Bool} {page : Option EntryRef}
    (hs : s.FirstTableNext) (h : s.getPageEntry address make dir = .ok (t, page)) :
    t.FirstTableNext := by
  unfold PagingState.getPageEntry at h
  dsimp only at h
  split at h
  · cases h
    exact hs
  case isFalse hmissing =>
    split at h
    · split at h
      · cases h
      · cases h
        refine ((hs.bitmapSetBit _).zeroTable _).setDirectory ?_
        -- The kernel directory has its first table, so the one that is missing is another.
        rintro rfl
        have hother : address / pageSize / pageEntries ≠ 0 := by
          intro hzero
          rw [hzero, hs.next] at hmissing
          exact hmissing (by decide)
        dsimp only
        rw [Function.update_of_ne (Ne.symm hother)]
        exact hs.next
    · cases h
      exact hs

theorem mapVirtualToPhysical {virtualAddr physicalAddr dir : Nat} {isKernel isWritable : Int}
    (hs : s.FirstTableNext)
    (h : s.mapVirtualToPhysical virtualAddr physicalAddr isKernel isWritable dir = .ok t) :
    t.FirstTableNext := by
  unfold PagingState.mapVirtualToPhysical at h
  rcases Outcome.bind_eq_ok.1 h with ⟨⟨u, page⟩, hpage, hrest⟩
  have hu := hs.getPageEntry hpage
  cases page with
  | none => cases hrest
  | some page =>
      cases hrest
      exact (hu.setEntry _ _).bitmapSetBit _

theorem unmapVirtualPage {virtualAddr dir : Nat} (hs : s.FirstTableNext)
    (h : s.unmapVirtualPage virtualAddr dir = .ok t) : t.FirstTableNext := by
  unfold PagingState.unmapVirtualPage at h
  rcases Outcome.bind_eq_ok.1 h with ⟨⟨u, page⟩, hpage, hrest⟩
  have hu := hs.getPageEntry hpage
  cases page with
  | none =>
      cases hrest
      exact hu
  | some page =>
      dsimp only at hrest
      split at hrest
      · cases hrest
        exact (hu.freeFrame page).setEntry _ _
      · cases hrest
        exact hu

theorem allocateMemoryRegion {startAddr size dir : Nat} {isKernel isWritable : Int}
    (hs : s.FirstTableNext)
    (h : s.allocateMemoryRegion startAddr size isKernel isWritable dir = .ok t) :
    t.FirstTableNext := by
  refine Outcome.foldlM_invariant (I := FirstTableNext) ?_ hs h
  intro current _ u v hu hround
  rcases Outcome.bind_eq_ok.1 hround with ⟨⟨w, page⟩, hpage, hrest⟩
  have hw := hu.getPageEntry hpage
  cases page with
  | none => cases hrest
  | some page => exact hw.allocateFrame hrest

theorem freeMemoryRegion {startAddr size dir : Nat} (hs : s.FirstTableNext)
    (h : s.freeMemoryRegion startAddr size dir = .ok t) : t.FirstTableNext :=
  Outcome.foldlM_invariant (I := FirstTableNext) (fun _ _ _ _ hu hround => hu.unmapVirtualPage hround)
    hs h

/-- Mapping a list of pages to the frames of the same addresses. -/
theorem identityMap {pages : List Nat} {dir : Nat} (hs : s.FirstTableNext)
    (h : pages.foldlM (fun s current => s.mapVirtualToPhysical current current 1 1 dir) s = .ok t) :
    t.FirstTableNext :=
  Outcome.foldlM_invariant (I := FirstTableNext)
    (fun _ _ _ _ hu hround => hu.mapVirtualToPhysical hround) hs h

theorem cloneEntry {src newTable i : Nat} (hs : s.FirstTableNext)
    (h : cloneEntry src newTable s i = .ok t) : t.FirstTableNext := by
  unfold PagingState.cloneEntry at h
  split at h
  · rcases Outcome.bind_eq_ok.1 h with ⟨u, hu, hrest⟩
    cases hrest
    exact ((hs.allocateFrame hu).setEntry _ _).copyFrame _ _
  · cases h
    exact hs

theorem clonePageTable {src physicalAddr newTable phys : Nat} (hs : s.FirstTableNext)
    (h : s.clonePageTable src physicalAddr = .ok (t, newTable, phys)) : t.FirstTableNext := by
  unfold PagingState.clonePageTable at h
  dsimp only at h
  split at h
  · cases h
    exact hs
  · rcases Outcome.bind_eq_ok.1 h with ⟨u, hu, hrest⟩
    simp only [Except.ok.injEq, Prod.mk.injEq] at hrest
    rcases hrest with ⟨rfl, rfl, _⟩
    have hstart := (hs.bitmapSetBit s.findFirstFreeFrame).zeroTable s.findFirstFreeFrame
    exact Outcome.foldlM_invariant (I := FirstTableNext)
      (fun _ _ _ _ hv hround => hv.cloneEntry hround) hstart hu

theorem cloneDirectoryEntry {src newDir phys i : Nat} (hs : s.FirstTableNext) (hnew : newDir ≠ 0)
    (h : cloneDirectoryEntry src newDir phys s i = .ok t) : t.FirstTableNext := by
  unfold PagingState.cloneDirectoryEntry at h
  dsimp only at h
  split at h
  · cases h
    exact hs
  · split at h
    · cases h
      exact hs.setDirectory fun hzero => absurd hzero hnew
    · rcases Outcome.bind_eq_ok.1 h with ⟨⟨u, newTable, phys'⟩, hu, hrest⟩
      cases hrest
      exact (hs.clonePageTable hu).setDirectory fun hzero => absurd hzero hnew

theorem clonePageDirectory {src phys newDir : Nat} (hs : s.FirstTableNext)
    (h : s.clonePageDirectory src phys = .ok (t, newDir)) : t.FirstTableNext := by
  unfold PagingState.clonePageDirectory at h
  dsimp only at h
  split at h
  · cases h
    exact hs
  case isFalse hfound =>
    have hnew := hs.findFirstFreeFrame_ne hfound
    rcases Outcome.bind_eq_ok.1 h with ⟨u, hu, hrest⟩
    simp only [Except.ok.injEq, Prod.mk.injEq] at hrest
    rcases hrest with ⟨rfl, rfl⟩
    refine Outcome.foldlM_invariant (I := FirstTableNext) ?_ ?_ hu
    · exact fun _ _ _ _ hv hround => hv.cloneDirectoryEntry hnew hround
    · exact FirstTableNext.setDirectory (hs.bitmapSetBit _) fun hzero => absurd hzero hnew

theorem pageFaultHandler {faultingAddress : Nat} {errCode : BitVec 32} (hs : s.FirstTableNext)
    (h : s.pageFaultHandler faultingAddress errCode = .ok t) : t.FirstTableNext := by
  unfold PagingState.pageFaultHandler at h
  dsimp only at h
  split at h
  · cases h
  · rcases Outcome.bind_eq_ok.1 h with ⟨⟨u, page⟩, hpage, hrest⟩
    have hu := hs.getPageEntry hpage
    cases page with
    | none => cases hrest
    | some page =>
        dsimp only at hrest
        split at hrest
        · cases hrest
        · exact hu.allocateFrame hrest

end FirstTableNext

/-! ## Initialisation -/

/-- When frame 0 is taken and frame 1 is free, frame 1 is the next one. -/
theorem findFirstFreeFrame_next {s : PagingState} (htaken : s.marked 0 = true)
    (hfree : s.marked 1 = false) : s.findFirstFreeFrame = pageSize := by
  rcases findFirstFreeFrame_cases s with ⟨_, hall⟩ | ⟨frame, hframe, hlowest⟩
  · have hmarked := hall 1 (by decide)
    rw [hfree] at hmarked
    cases hmarked
  · have hzero : frame ≠ 0 := by
      rintro rfl
      have hclear := hlowest.clear
      rw [htaken] at hclear
      cases hclear
    have hone : ¬ 1 < frame := by
      intro hlt
      have hmarked := hlowest.below 1 hlt
      rw [hfree] at hmarked
      cases hmarked
    have hfirst : frame = 1 := by omega
    rw [hframe, hfirst, Nat.one_mul]

/-- While only frame 0 is taken, the next free frame is frame 1. -/
theorem findFirstFreeFrame_second {s : PagingState}
    (h : s.physicalMemoryBitmap = Bitmap.mark (fun _ => 0#32) 0) :
    s.findFirstFreeFrame = pageSize := by
  have honly : ∀ frame, s.marked frame = true ↔ frame = 0 := by
    intro frame
    unfold marked
    rw [h, Bitmap.mark_iff (by decide), Bitmap.marked_zero]
    simp
  refine findFirstFreeFrame_next ((honly 0).2 rfl) (Bool.eq_false_iff.2 ?_)
  rw [Ne, honly]
  decide

/-- The first page that is mapped gets the first table. -/
theorem mapVirtualToPhysical_firstTableNext {s t : PagingState} {virtualAddr physicalAddr : Nat}
    {isKernel isWritable : Int} (hlow : virtualAddr / pageSize / pageEntries = 0)
    (htaken : s.marked 0 = true) (hmissing : (s.directories 0).tables 0 = 0)
    (hnext : s.findFirstFreeFrame = pageSize)
    (h : s.mapVirtualToPhysical virtualAddr physicalAddr isKernel isWritable 0 = .ok t) :
    t.FirstTableNext := by
  unfold mapVirtualToPhysical at h
  rcases Outcome.bind_eq_ok.1 h with ⟨⟨u, page⟩, hpage, hrest⟩
  -- the frame for the table is the next free one, which is the one behind the directory
  have hu : u.FirstTableNext := by
    unfold getPageEntry at hpage
    simp only [hlow, hmissing, hnext, ne_eq, not_true_eq_false, if_false, if_true] at hpage
    rw [if_neg (by decide)] at hpage
    cases hpage
    refine ⟨?_, ?_⟩
    · rw [marked_setDirectory, marked_zeroTable, marked_bitmapSetBit]
      exact .inr htaken
    · simp [setDirectory]
  cases page with
  | none => cases hrest
  | some page =>
      cases hrest
      exact (hu.setEntry _ _).bitmapSetBit _

theorem initializePagingSystem_firstTableNext {s t : PagingState} {totalMemoryKb : Nat}
    (h : s.initializePagingSystem totalMemoryKb = .ok t) : t.FirstTableNext := by
  unfold initializePagingSystem at h
  simp only at h
  rw [findFirstFreeFrame_empty rfl, if_neg (by decide : ¬ (0 : Nat) = noFrame)] at h
  generalize hempty : PagingState.mk (fun _ => 0#32) _ _ _ _ _ _ _ = u at h
  have hbitmap : u.physicalMemoryBitmap = fun _ => 0#32 := by rw [← hempty]
  rcases Outcome.bind_eq_ok.1 h with ⟨v, hloop, hrest⟩
  cases hrest
  -- all of the first 4 MiB belong to the first table
  have hpages : ∀ page ∈ regionPages 0 0x400000, page / pageSize / pageEntries = 0 := by
    intro page hmem
    rcases List.mem_map.1 hmem with ⟨i, hi, rfl⟩
    rw [List.mem_range] at hi
    unfold pageSize at hi ⊢
    unfold pageEntries
    omega
  have hsome : 0 ∈ regionPages 0 0x400000 :=
    List.mem_map.2 ⟨0, List.mem_range.2 (by decide), rfl⟩
  generalize regionPages 0 0x400000 = pages at hloop hpages hsome
  cases pages with
  | nil => cases hsome
  | cons current rest =>
      rw [List.foldlM_cons, Outcome.bind_eq_ok] at hloop
      rcases hloop with ⟨w, hfirst, hrest⟩
      -- mapping the first page makes the table, the others keep it
      have hw : w.FirstTableNext := by
        refine mapVirtualToPhysical_firstTableNext (hpages current List.mem_cons_self) ?_ ?_ ?_ hfirst
        · exact (marked_bitmapSetBit u 0 0).2 (.inl rfl)
        · simp [setDirectory, PageDirectory.zero]
        · refine findFirstFreeFrame_second ?_
          rw [← hbitmap]
          rfl
      have hv := FirstTableNext.identityMap hw hrest
      exact ⟨hv.taken, hv.next⟩

end PagingState

/-! ## Whole runs -/

namespace PagingSystem

/-- The kernel directory is in use, with its first table behind it. -/
structure Overlaps (y : PagingSystem) : Prop where
  known : 0 ∈ y.known
  first : y.state.FirstTableNext

theorem Overlaps.step {y z : PagingSystem} {a : PagingAction} (hy : y.Overlaps)
    (h : y.step a = some z) : z.Overlaps := by
  have hfirst := hy.first
  cases step_turn h with
  | mapVirtualToPhysical _ hs => exact ⟨hy.known, hfirst.mapVirtualToPhysical hs⟩
  | unmapVirtualPage _ hs => exact ⟨hy.known, hfirst.unmapVirtualPage hs⟩
  | allocateMemoryRegion _ hs => exact ⟨hy.known, hfirst.allocateMemoryRegion hs⟩
  | freeMemoryRegion _ hs => exact ⟨hy.known, hfirst.freeMemoryRegion hs⟩
  | identityMapRegion _ hs => exact ⟨hy.known, hfirst.identityMap hs⟩
  | cloneFailed _ hs => exact ⟨hy.known, hfirst.clonePageDirectory hs⟩
  | cloned _ hs _ =>
      exact ⟨List.mem_cons_of_mem _ hy.known, hfirst.clonePageDirectory hs⟩
  | switchPageDirectory => exact ⟨hy.known, hfirst.taken, hfirst.next⟩
  | pageFault hs => exact ⟨hy.known, hfirst.pageFaultHandler hs⟩

/-- The 8196 bytes of the kernel directory reach over its first table. -/
theorem Overlaps.not_structuresApart {y : PagingSystem} (hy : y.Overlaps) :
    ¬ y.StructuresApart := by
  intro hapart
  have htable : y.Contains (.table pageSize) := ⟨by decide, 0, hy.known, 0, hy.first.next⟩
  have hdisjoint := hapart.disjoint (.directory 0) (.table pageSize) hy.known htable (by simp)
  have hin : pageSize ∈ (PagingStructure.directory 0).bytes := ⟨by decide, by decide⟩
  exact Set.disjoint_left.1 hdisjoint hin ⟨Nat.le_refl _, by decide⟩

/-- A pointer of `physical_tables` in the kernel directory is an entry of its first table. -/
theorem Overlaps.physicalTable_eq_entry {y : PagingSystem} (hy : y.Overlaps) (i : Nat) :
    0 + physicalTablesOffset + 4 * i = (y.state.directories 0).tables 0 + 4 * i := by
  rw [hy.first.next]
  rfl

/-- Whatever memory there is and whatever is done after initialisation, two paging structures share
bytes. -/
theorem structuresApart_run (s : PagingState) (totalMemoryKb : Nat) :
    ∃ t, s.initializePagingSystem totalMemoryKb = .ok t ∧
      ∀ as : List PagingAction, AllStates step (fun y => ¬ y.StructuresApart) (initialized t) as := by
  rcases PagingState.initializePagingSystem_ok s totalMemoryKb with ⟨t, ht, hinit⟩
  refine ⟨t, ht, fun as => ?_⟩
  have hstart : (initialized t).Overlaps := by
    refine ⟨?_, PagingState.initializePagingSystem_firstTableNext ht⟩
    simp [initialized, hinit.kernel]
  have hrun : AllStates step Overlaps (initialized t) as :=
    allStates_of_invariant (fun _ _ _ hy h => hy.step h) hstart as
  exact hrun.mono fun _ hy => hy.not_structuresApart

/-- They share bytes as soon as `initialize_paging_system` returns. -/
theorem structuresApart_run_false :
    ¬ ∀ (s t : PagingState) (totalMemoryKb : Nat) (as : List PagingAction),
      s.initializePagingSystem totalMemoryKb = .ok t →
        AllStates step StructuresApart (initialized t) as := by
  intro h
  rcases PagingState.initializePagingSystem_ok PagingState.boot 65536 with ⟨t, ht, hinit⟩
  have hstart : (initialized t).Overlaps := by
    refine ⟨?_, PagingState.initializePagingSystem_firstTableNext ht⟩
    simp [initialized, hinit.kernel]
  exact hstart.not_structuresApart (h _ t _ [] ht)

end PagingSystem

end Paging
end WhitexKernel
