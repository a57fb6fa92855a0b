import WhitexKernel.Paging.Frames

/-!
# Release — unmapping pages, and the state after initialisation

`unmap_virtual_page` clears the bit of the frame its entry maps, without asking whether another
entry maps the frame too.

* `Released` — what unmapping a set of pages changes;
* `initializePagingSystem_ok` — initialisation returns, with a table for the first 4 MiB.
-/

namespace WhitexKernel
namespace Paging

open Lib Machine

namespace PagingState

/-! ## What unmapping changes -/

/-- `t` is `s` after the present ones among `pages` have been unmapped. -/
structure Released (s t : PagingState) (pages : Set EntryRef) : Prop where
  directories : t.directories = s.directories
  present : ∀ page,
    (t.entry page).present = true ↔ (s.entry page).present = true ∧ page ∉ pages
  entry : ∀ page, page ∉ pages → t.entry page = s.entry page
  marked : ∀ frame, t.marked frame = true ↔ s.marked frame = true ∧
    ¬ ∃ page ∈ pages, (s.entry page).present = true ∧ (s.entry page).frame = frame ∧ frame ≠ 0

namespace Released

theorem refl (s : PagingState) : Released s s ∅ :=
  { directories := rfl
    present := by simp
    entry := fun _ _ => rfl
    marked := by simp }

/-- Unmapping an entry that is not present changes nothing. -/
theorem of_not_present {s : PagingState} {page : EntryRef}
    (h : (s.entry page).present = false) : Released s s {page} := by
  refine ⟨rfl, ?_, fun _ _ => rfl, ?_⟩
  · intro other
    constructor
    · intro hpresent
      refine ⟨hpresent, ?_⟩
      rintro rfl
      rw [h] at hpresent
      cases hpresent
    · exact fun hpresent => hpresent.1
  · intro frame
    simp [h]

theorem trans {s t u : PagingState} {pages more : Set EntryRef} (h : Released s t pages)
    (h' : Released t u more) : Released s u (pages ∪ more) := by
  refine ⟨h'.directories.trans h.directories, ?_, ?_, ?_⟩
  · intro page
    rw [h'.present, h.present, Set.mem_union, not_or, and_assoc]
  · intro page hpage
    rw [Set.mem_union, not_or] at hpage
    rw [h'.entry page hpage.2, h.entry page hpage.1]
  · intro frame
    rw [h'.marked, h.marked, and_assoc]
    refine and_congr_right fun _ => ?_
    constructor
    -- the page was unmapped by the first, or was still there for the second
    · rintro ⟨hfirst, hsecond⟩ ⟨page, hpage, hpresent, hframe⟩
      by_cases hmem : page ∈ pages
      · exact hfirst ⟨page, hmem, hpresent, hframe⟩
      · refine hsecond ⟨page, hpage.resolve_left hmem, (h.present page).2 ⟨hpresent, hmem⟩, ?_⟩
        rw [h.entry page hmem]
        exact hframe
    · intro hnone
      constructor
      · rintro ⟨page, hpage, hrest⟩
        exact hnone ⟨page, .inl hpage, hrest⟩
      · rintro ⟨page, hpage, hpresent, hframe⟩
        rcases (h.present page).1 hpresent with ⟨hpresent, hmem⟩
        rw [h.entry page hmem] at hframe
        exact hnone ⟨page, .inr hpage, hpresent, hframe⟩

end Released

/-- The entries that exist for these addresses. -/
def pageRefs (s : PagingState) (addresses : List Nat) (dir : Nat) : Set EntryRef :=
  {page | ∃ address ∈ addresses, s.pageRef address dir = some page}

theorem pageRef_congr {s t : PagingState} (h : t.directories = s.directories) (address dir : Nat) :
    t.pageRef address dir = s.pageRef address dir := by
  unfold pageRef
  rw [h]

theorem pageRefs_congr {s t : PagingState} (h : t.directories = s.directories)
    (addresses : List Nat) (dir : Nat) : t.pageRefs addresses dir = s.pageRefs addresses dir := by
  unfold pageRefs
  simp only [pageRef_congr h]

theorem pageRefs_cons (s : PagingState) (address : Nat) (addresses : List Nat) (dir : Nat) :
    s.pageRefs (address :: addresses) dir =
      s.pageRefs [address] dir ∪ s.pageRefs addresses dir := by
  ext page
  unfold pageRefs
  simp

theorem freeFrame_eq {s : PagingState} {page : EntryRef} (hframe : (s.entry page).frame ≠ 0) :
    s.freeFrame page =
      { (s.bitmapClearBit ((s.entry page).frame * pageSize)).setEntry page
          { s.entry page with
            present := false
            frame := 0 } with
        totalAllocatedFrames := sub32 s.totalAllocatedFrames 1 } := by
  unfold freeFrame
  simp only [hframe, if_false, entry_bitmapClearBit]
  congr 1

/-- The entry is cleared, and so is the bit of the frame it maps. -/
theorem freeFrame_released {s : PagingState} {page : EntryRef}
    (hpresent : (s.entry page).present = true) :
    Released s ((s.freeFrame page).setEntry page
      { (s.freeFrame page).entry page with present := false }) {page} := by
  by_cases hframe : (s.entry page).frame = 0
  -- frame 0 is never freed
  · have hfree : s.freeFrame page = s := by
      unfold freeFrame
      simp [hframe]
    rw [hfree]
    refine ⟨rfl, ?_, ?_, ?_⟩
    · intro other
      rw [entry_setEntry]
      by_cases hother : other = page
      · simp [hother]
      · simp [hother]
    · intro other hother
      have hne : other ≠ page := hother
      rw [entry_setEntry, if_neg hne]
    · intro frame
      rw [marked_setEntry]
      refine ⟨fun hmarked => ⟨hmarked, ?_⟩, fun hmarked => hmarked.1⟩
      rintro ⟨_, rfl, _, heq, hne⟩
      exact hne (heq.symm.trans hframe)
  · rw [freeFrame_eq hframe]
    -- the bit of the frame is cleared, and with it that of no other
    have hdiv : (s.entry page).frame * pageSize / pageSize = (s.entry page).frame :=
      Nat.mul_div_cancel _ (by decide)
    refine ⟨rfl, ?_, ?_, ?_⟩
    · intro other
      rw [entry_setEntry]
      by_cases hother : other = page
      · simp [hother]
      · simp [hother]
    · intro other hother
      have hne : other ≠ page := hother
      simp [hne]
    · intro frame
      rw [marked_setEntry, marked_withCount, marked_setEntry, marked_bitmapClearBit, hdiv,
        and_comm]
      refine and_congr_right fun _ => ?_
      constructor
      · rintro hne ⟨_, rfl, _, heq, _⟩
        exact hne heq.symm
      · intro hnone heq
        exact hnone ⟨page, rfl, hpresent, heq.symm, heq ▸ hframe⟩

/-- `unmap_virtual_page` returns, and unmaps the entry for the address. -/
theorem unmapVirtualPage_released (s : PagingState) (virtualAddr dir : Nat) :
    ∃ t, s.unmapVirtualPage virtualAddr dir = .ok t ∧
      Released s t (s.pageRefs [virtualAddr] dir) := by
  have hrefs : s.pageRefs [virtualAddr] dir = {page | s.pageRef virtualAddr dir = some page} := by
    unfold pageRefs
    simp
  rw [hrefs]
  unfold unmapVirtualPage
  rw [getPageEntry_lookup]
  cases hpage : s.pageRef virtualAddr dir with
  | none =>
      refine ⟨s, rfl, ?_⟩
      -- without a table nothing is unmapped
      have hempty : {page | (none : Option EntryRef) = some page} = ∅ := by simp
      rw [hempty]
      exact Released.refl s
  | some page =>
      have hsingle : {other | some page = some other} = {page} := by
        ext other
        simp [eq_comm]
      rw [hsingle]
      cases hpresent : (s.entry page).present with
      | false =>
          refine ⟨s, ?_, Released.of_not_present hpresent⟩
          simp [bind, Except.bind, hpresent]
      | true =>
          refine ⟨_, ?_, freeFrame_released hpresent⟩
          simp only [bind, Except.bind, hpresent, if_true]

/-- A region is unmapped page by page. -/
theorem unmapPages_released (s : PagingState) (addresses : List Nat) (dir : Nat) :
    ∃ t, addresses.foldlM (fun s current => s.unmapVirtualPage current dir) s = .ok t ∧
      Released s t (s.pageRefs addresses dir) := by
  induction addresses generalizing s with
  | nil =>
      refine ⟨s, rfl, ?_⟩
      have hempty : s.pageRefs [] dir = ∅ := by
        unfold pageRefs
        simp
      rw [hempty]
      exact Released.refl s
  | cons address addresses ih =>
      rcases unmapVirtualPage_released s address dir with ⟨u, hu, hfirst⟩
      rcases ih u with ⟨t, ht, hrest⟩
      refine ⟨t, ?_, ?_⟩
      · rw [List.foldlM_cons, Outcome.bind_eq_ok]
        exact ⟨u, hu, ht⟩
      · rw [pageRefs_congr hfirst.directories] at hrest
        rw [pageRefs_cons]
        exact hfirst.trans hrest

theorem released_of_unmapVirtualPage {s t : PagingState} {virtualAddr dir : Nat}
    (h : s.unmapVirtualPage virtualAddr dir = .ok t) :
    Released s t (s.pageRefs [virtualAddr] dir) := by
  rcases unmapVirtualPage_released s virtualAddr dir with ⟨u, hu, hreleased⟩
  cases hu.symm.trans h
  exact hreleased

theorem released_of_freeMemoryRegion {s t : PagingState} {startAddr size dir : Nat}
    (h : s.freeMemoryRegion startAddr size dir = .ok t) :
    Released s t (s.pageRefs (memoryRegion startAddr size) dir) := by
  rcases unmapPages_released s (memoryRegion startAddr size) dir with ⟨u, hu, hreleased⟩
  cases hu.symm.trans h
  exact hreleased

/-! ## Initialisation -/

/-- With the table in place, mapping a page returns. -/
theorem mapVirtualToPhysical_of_pageRef {s : PagingState} {virtualAddr dir : Nat} {page : EntryRef}
    (hpage : s.pageRef virtualAddr dir = some page) (physicalAddr : Nat)
    (isKernel isWritable : Int) :
    s.mapVirtualToPhysical virtualAddr physicalAddr isKernel isWritable dir =
      .ok ((s.setEntry page
        { s.entry page with
          present := true
          rw := isWritable != 0
          user := isKernel == 0
          frame := physicalAddr / pageSize }).bitmapSetBit physicalAddr) := by
  have hentry : s.getPageEntry virtualAddr true dir = .ok (s, some page) := by
    unfold pageRef at hpage
    unfold getPageEntry
    simp only at hpage ⊢
    split at hpage
    case isTrue htable =>
      rw [if_pos htable, ← hpage]
    case isFalse => cases hpage
  unfold mapVirtualToPhysical
  rw [hentry]
  rfl

theorem pageRef_of_table {s : PagingState} {address dir : Nat}
    (htable : (s.directories dir).tables (address / pageSize / pageEntries) ≠ 0) :
    s.pageRef address dir = some
      { table := (s.directories dir).tables (address / pageSize / pageEntries)
        index := address / pageSize % pageEntries } := by
  unfold pageRef
  simp only [htable, ne_eq, not_false_eq_true, if_true]

/-- A page of the first 4 MiB has its entry in the first table. -/
theorem pageRef_first {s : PagingState} {dir : Nat} (htable : (s.directories dir).tables 0 ≠ 0)
    {address index : Nat} (hindex : address / pageSize = index) (hlow : index < pageEntries) :
    s.pageRef address dir = some
      { table := (s.directories dir).tables 0
        index := index } := by
  have hzero : address / pageSize / pageEntries = 0 := by
    rw [hindex]
    exact Nat.div_eq_of_lt hlow
  have hthere : (s.directories dir).tables (address / pageSize / pageEntries) ≠ 0 := by
    rw [hzero]
    exact htable
  rw [pageRef_of_table hthere, hzero, hindex, Nat.mod_eq_of_lt hlow]

/-- Frame 0, which the kernel directory takes, is not handed out again, and another one is left. -/
structure FirstFrameTaken (s : PagingState) : Prop where
  taken : s.marked 0 = true
  left : ∃ frame, frame < 2 ^ 20 ∧ s.marked frame = false

/-- A first table for the first 4 MiB can be made, and then stays. -/
def MapsFirst (dir : Nat) (s : PagingState) : Prop :=
  (s.directories dir).tables 0 ≠ 0 ∨ s.FirstFrameTaken

theorem FirstFrameTaken.findFirstFreeFrame_ne {s : PagingState} (h : s.FirstFrameTaken) :
    s.findFirstFreeFrame ≠ noFrame ∧ s.findFirstFreeFrame ≠ 0 := by
  rcases h.left with ⟨frame, hlt, hfree⟩
  have hfound := findFirstFreeFrame_ne_noFrame hlt hfree
  refine ⟨hfound, ?_⟩
  intro hzero
  have hnew := not_marked_findFirstFreeFrame hfound
  rw [hzero, Nat.zero_div, h.taken] at hnew
  cases hnew

theorem getPageEntry_new {s : PagingState} {address dir : Nat}
    (htable : (s.directories dir).tables (address / pageSize / pageEntries) = 0)
    (hfound : s.findFirstFreeFrame ≠ noFrame) :
    ∃ t page, s.getPageEntry address true dir = .ok (t, some page) ∧
      (t.directories dir).tables (address / pageSize / pageEntries) = s.findFirstFreeFrame := by
  unfold getPageEntry
  simp only [htable, hfound, ne_eq, not_true_eq_false, if_false, if_true]
  refine ⟨_, _, rfl, ?_⟩
  simp [setDirectory]

/-- Mapping a page of the first 4 MiB returns, with the table for it in place. -/
theorem mapVirtualToPhysical_first {s : PagingState} {virtualAddr dir : Nat}
    (hs : s.MapsFirst dir) (hlow : virtualAddr / pageSize / pageEntries = 0)
    (physicalAddr : Nat) (isKernel isWritable : Int) :
    ∃ t, s.mapVirtualToPhysical virtualAddr physicalAddr isKernel isWritable dir = .ok t ∧
      (t.directories dir).tables 0 ≠ 0 := by
  by_cases htable : (s.directories dir).tables 0 = 0
  · rcases (hs.resolve_left (fun h => h htable)).findFirstFreeFrame_ne with ⟨hfound, hne⟩
    have hmissing : (s.directories dir).tables (virtualAddr / pageSize / pageEntries) = 0 := by
      rw [hlow]
      exact htable
    rcases getPageEntry_new hmissing hfound with ⟨u, page, hpage, hdir⟩
    rw [hlow] at hdir
    refine ⟨_, Outcome.bind_eq_ok.2 ⟨(u, some page), hpage, rfl⟩, ?_⟩
    change (u.directories dir).tables 0 ≠ 0
    rw [hdir]
    exact hne
  · have hpage := pageRef_first htable rfl (Nat.lt_of_div_eq_zero (by decide) hlow)
    exact ⟨_, mapVirtualToPhysical_of_pageRef hpage _ _ _, htable⟩

theorem mapVirtualToPhysical_kernelPageDirectory {s t : PagingState}
    {virtualAddr physicalAddr dir : Nat} {isKernel isWritable : Int}
    (h : s.mapVirtualToPhysical virtualAddr physicalAddr isKernel isWritable dir = .ok t) :
    t.kernelPageDirectory = s.kernelPageDirectory := by
  unfold mapVirtualToPhysical at h
  rw [Outcome.bind_eq_ok] at h
  rcases h with ⟨⟨u, page⟩, hpage, hrest⟩
  have hu : u.kernelPageDirectory = s.kernelPageDirectory := by
    unfold getPageEntry at hpage
    simp only [if_true] at hpage
    split at hpage
    · cases hpage
      rfl
    · split at hpage
      · cases hpage
      · cases hpage
        rfl
  cases page with
  | none => cases hrest
  | some page =>
      cases hrest
      exact hu

/-- What the loop of `initialize_paging_system` keeps, from its first round on. -/
structure Initializing (dir : Nat) (s : PagingState) : Prop where
  kernel : s.kernelPageDirectory = dir
  first : (s.directories dir).tables 0 ≠ 0

theorem initialize_round {s : PagingState} {current dir : Nat} (hs : s.MapsFirst dir)
    (hkernel : s.kernelPageDirectory = dir)
    (hmem : current ∈ regionPages 0 0x400000) :
    ∃ t, s.mapVirtualToPhysical current current 1 1 dir = .ok t ∧ t.Initializing dir := by
  have hlow : current / pageSize / pageEntries = 0 := by
    unfold regionPages at hmem
    rcases List.mem_map.1 hmem with ⟨i, hi, rfl⟩
    rw [List.mem_range] at hi
    unfold pageSize at hi ⊢
    unfold pageEntries
    omega
  rcases mapVirtualToPhysical_first hs hlow current 1 1 with ⟨t, ht, htable⟩
  exact ⟨t, ht, (mapVirtualToPhysical_kernelPageDirectory ht).trans hkernel, htable⟩

theorem initialize_loop {s : PagingState} {dir : Nat} (hs : s.MapsFirst dir)
    (hkernel : s.kernelPageDirectory = dir) :
    ∃ t, (regionPages 0 0x400000).foldlM
        (fun s current => s.mapVirtualToPhysical current current 1 1 dir) s = .ok t ∧
      t.Initializing dir := by
  have hrounds := fun current => @initialize_round s current dir hs hkernel
  have hkeep : ∀ current ∈ regionPages 0 0x400000, ∀ u : PagingState, u.Initializing dir →
      ∃ t, u.mapVirtualToPhysical current current 1 1 dir = .ok t ∧ t.Initializing dir :=
    fun current hmem u hu => initialize_round (.inl hu.first) hu.kernel hmem
  have hsome : 0 ∈ regionPages 0 0x400000 :=
    List.mem_map.2 ⟨0, List.mem_range.2 (by decide), rfl⟩
  generalize regionPages 0 0x400000 = pages at hrounds hkeep hsome
  -- the first round makes the table, and the other ones find it
  cases pages with
  | nil => cases hsome
  | cons current rest =>
      rcases hrounds current (by simp) with ⟨u, hu, hfirst⟩
      have hrest : ∃ t, rest.foldlM
          (fun s current => s.mapVirtualToPhysical current current 1 1 dir) u = .ok t ∧
            t.Initializing dir := by
        refine Outcome.foldlM_total ?_ hfirst
        intro current' hmem
        exact hkeep current' (List.mem_cons_of_mem _ hmem)
      rcases hrest with ⟨t, ht, hlast⟩
      exact ⟨t, by rw [List.foldlM_cons, Outcome.bind_eq_ok]; exact ⟨u, hu, ht⟩, hlast⟩

/-- In an empty bitmap the first free frame is frame 0. -/
theorem findFirstFreeFrame_empty {s : PagingState}
    (h : s.physicalMemoryBitmap = fun _ => 0#32) : s.findFirstFreeFrame = 0 := by
  have hfree : s.marked 0 = false := by
    unfold marked
    rw [h]
    exact Bitmap.marked_zero 0
  rcases findFirstFreeFrame_cases s with ⟨_, hall⟩ | ⟨frame, hframe, hlowest⟩
  · have hmarked := hall 0 (by decide)
    rw [hfree] at hmarked
    cases hmarked
  · rcases Nat.eq_zero_or_pos frame with hzero | hpos
    · rw [hframe, hzero, Nat.zero_mul]
    · have hmarked := hlowest.below 0 hpos
      rw [hfree] at hmarked
      cases hmarked

/-- Once the first frame of an empty bitmap is taken, another one is left. -/
theorem firstFrameTaken_bitmapSetBit {s : PagingState}
    (h : s.physicalMemoryBitmap = fun _ => 0#32) : (s.bitmapSetBit 0).FirstFrameTaken := by
  refine ⟨?_, 1, by decide, ?_⟩
  · rw [marked_bitmapSetBit]
    exact .inl rfl
  · rw [Bool.eq_false_iff]
    intro hmarked
    rw [marked_bitmapSetBit] at hmarked
    rcases hmarked with hone | hone
    · exact absurd hone (by decide)
    · unfold marked at hone
      rw [h, Bitmap.marked_zero] at hone
      cases hone

/-- Initialisation returns, with the kernel directory in frame 0 and a table for the first 4 MiB. -/
theorem initializePagingSystem_ok (s : PagingState) (totalMemoryKb : Nat) :
    ∃ t, s.initializePagingSystem totalMemoryKb = .ok t ∧ t.Initializing 0 := by
  unfold initializePagingSystem
  simp only
  rw [findFirstFreeFrame_empty rfl, if_neg (by decide : ¬ (0 : Nat) = noFrame)]
  generalize hempty : PagingState.mk (fun _ => 0#32) _ _ _ _ _ _ _ = u
  have hbitmap : u.physicalMemoryBitmap = fun _ => 0#32 := by rw [← hempty]
  have htaken := firstFrameTaken_bitmapSetBit hbitmap
  rcases initialize_loop
      (s := PagingState.setDirectory { u.bitmapSetBit 0 with kernelPageDirectory := 0 } 0
      { PageDirectory.zero with physicalAddress := wrap32 (0 + 4 * directoryEntries) })
      (.inr ⟨htaken.taken, htaken.left⟩) rfl with ⟨t, ht, hinit⟩
  refine ⟨t.switchPageDirectory 0, Outcome.bind_eq_ok.2 ⟨t, ht, rfl⟩, ?_⟩
  exact ⟨hinit.kernel, hinit.first⟩

end PagingState

namespace PagingSystem

/-- Mapping a page whose table exists makes its entry map the frame and marks it, and leaves the
other entries and the directories as they are. -/
theorem step_map_of_pageRef {y : PagingSystem} {dir : Nat} {page : EntryRef}
    (hknown : dir ∈ y.known) (virtualAddr physicalAddr : BitVec 32)
    (hpage : y.state.pageRef virtualAddr.toNat dir = some page) :
    ∃ z, y.step (.mapVirtualToPhysical virtualAddr physicalAddr 1 1 dir) = some z ∧
      z.known = y.known ∧ z.state.directories = y.state.directories ∧
      (z.state.entry page).present = true ∧
      (z.state.entry page).frame = physicalAddr.toNat / pageSize ∧
      (∀ other, other ≠ page → z.state.entry other = y.state.entry other) ∧
      ∀ frame, z.state.marked frame = true ↔
        frame = physicalAddr.toNat / pageSize ∨ y.state.marked frame = true := by
  have hmap := PagingState.mapVirtualToPhysical_of_pageRef hpage physicalAddr.toNat 1 1
  -- from here on only the equations of `u` are used, not how it was built
  generalize hstate : PagingState.bitmapSetBit _ _ = u at hmap
  refine ⟨{ y with state := u }, ?_, rfl, ?_, ?_, ?_, ?_, ?_⟩
  · simp only [step, hknown, if_true]
    rw [hmap]
    rfl
  · rw [← hstate]
    rfl
  · simp [← hstate]
  · simp [← hstate]
  · intro other hother
    simp [← hstate, hother]
  · intro frame
    rw [← hstate, PagingState.marked_bitmapSetBit, PagingState.marked_setEntry]

end PagingSystem

end Paging
end WhitexKernel
