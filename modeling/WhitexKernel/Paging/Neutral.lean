import WhitexKernel.Paging.Accounting
import WhitexKernel.Paging.Vacant

/-!
# Neutral — allocating a region and freeing it again

`free_memory_region` unmaps what `allocate_memory_region` has mapped.  In between the allocator may
have made page tables, and these stay.  `Filled` describes the state on the way there; the two loops
undo each other unless a table is made in a frame that holds a table in use, whose present entries
are lost.
-/

namespace WhitexKernel
namespace Paging

open Lib Machine

namespace PagingState

/-! ## Regions that are free -/

theorem frameOf_eq_none_iff (s : PagingState) (dir virtualAddr : Nat) :
    s.frameOf dir virtualAddr = none ↔
      ∀ page, s.pageRef virtualAddr dir = some page → (s.entry page).present = false := by
  unfold frameOf
  cases s.pageRef virtualAddr dir with
  | none => simp
  | some page => simp

/-- The loop returns `1` when none of the pages is present. -/
theorem checkPages_eq_one_iff (s : PagingState) (dir : Nat) (pages : List Nat) :
    s.checkPages dir pages = .ok 1 ↔ ∀ current ∈ pages, s.frameOf dir current = none := by
  induction pages with
  | nil => simp [checkPages]
  | cons current rest ih =>
      rw [checkPages, getPageEntry_lookup, Outcome.ok_bind, List.forall_mem_cons, ← ih,
        frameOf_eq_none_iff]
      cases s.pageRef current dir with
      | none => simp
      | some page =>
          cases hpresent : (s.entry page).present with
          | false => simp [hpresent]
          | true => simp [hpresent]

theorem checkRegionAvailability_eq_one_iff (s : PagingState) (startAddr size dir : Nat) :
    s.checkRegionAvailability startAddr size dir = .ok 1 ↔
      ∀ current ∈ memoryRegion startAddr size, s.frameOf dir current = none :=
  s.checkPages_eq_one_iff dir _

/-! ## Enough frames -/

/-- The indices of the tables that the directory lacks for these pages. -/
def missingTables (s : PagingState) (dir : Nat) (pages : List Nat) : Finset Nat :=
  (pages.map fun current => current / pageSize / pageEntries).toFinset.filter fun i =>
    (s.directories dir).tables i = 0

/-- A frame for every page, and one for every table that is missing. -/
def pagesNeed (s : PagingState) (dir : Nat) (pages : List Nat) : Nat :=
  pages.length + (s.missingTables dir pages).card

/-- The frames that a region of this size takes. -/
def framesNeeded (s : PagingState) (startAddr size dir : Nat) : Nat :=
  s.pagesNeed dir (memoryRegion startAddr size)

theorem pagesNeed_congr {s t : PagingState} (h : t.directories = s.directories) (dir : Nat)
    (pages : List Nat) : t.pagesNeed dir pages = s.pagesNeed dir pages := by
  unfold pagesNeed missingTables
  rw [h]

/-- What a new table saves the pages that come after. -/
theorem missingTables_card_setTable {s t : PagingState} {dir current table : Nat}
    (hmissing : (s.directories dir).tables (current / pageSize / pageEntries) = 0)
    (hnull : table ≠ 0)
    (htables : (t.directories dir).tables =
      Function.update (s.directories dir).tables (current / pageSize / pageEntries) table)
    (pages : List Nat) :
    (t.missingTables dir pages).card + 1 = (s.missingTables dir (current :: pages)).card := by
  have hinsert : s.missingTables dir (current :: pages) =
      insert (current / pageSize / pageEntries) (t.missingTables dir pages) := by
    ext i
    unfold missingTables
    rw [htables]
    simp only [List.map_cons, List.toFinset_cons, Finset.mem_filter, Finset.mem_insert]
    by_cases hi : i = current / pageSize / pageEntries
    · simp [hi, hmissing]
    · rw [Function.update_of_ne hi]
      simp [hi]
  rw [hinsert, Finset.card_insert_of_notMem]
  intro hmem
  have hzero := (Finset.mem_filter.1 hmem).2
  rw [htables, Function.update_self] at hzero
  exact hnull hzero

theorem pagesNeed_le (s : PagingState) (dir : Nat) (pages : List Nat) :
    s.pagesNeed dir pages ≤ 2 * pages.length := by
  have hcard : (s.missingTables dir pages).card ≤ pages.length := by
    unfold missingTables
    refine (Finset.card_filter_le _ _).trans ((List.toFinset_card_le _).trans ?_)
    rw [List.length_map]
  unfold pagesNeed
  omega

theorem pagesNeed_lt_cons (s : PagingState) (dir current : Nat) (pages : List Nat) :
    s.pagesNeed dir pages + 1 ≤ s.pagesNeed dir (current :: pages) := by
  have hsub : s.missingTables dir pages ⊆ s.missingTables dir (current :: pages) := by
    unfold missingTables
    refine Finset.filter_subset_filter _ ?_
    rw [List.map_cons, List.toFinset_cons]
    exact Finset.subset_insert _ _
  have hcard := Finset.card_le_card hsub
  unfold pagesNeed
  rw [List.length_cons]
  omega

/-! ## What a round does -/

/-- The index of the table for an address. -/
abbrev tableIdx (address : Nat) : Nat := address / pageSize / pageEntries

/-- `t` is `s` with a table made at index `i` of the directory. -/
structure TableMade (s t : PagingState) (dir i : Nat) : Prop where
  missing : (s.directories dir).tables i = 0
  found : s.findFirstFreeFrame ≠ noFrame
  tables : ∀ dir', (t.directories dir').tables =
    if dir' = dir then Function.update (s.directories dir).tables i s.findFirstFreeFrame
    else (s.directories dir').tables
  entry : ∀ page, t.entry page =
    if page.table = s.findFirstFreeFrame then PageTableEntry.zero else s.entry page
  marked : ∀ frame, t.marked frame = true ↔
    frame = s.findFirstFreeFrame / pageSize ∨ s.marked frame = true

/-- `get_page_entry` returns as long as it needs no frame, or there is one. -/
theorem getPageEntry_ok {s : PagingState} {address dir : Nat} (htaken : s.marked 0 = true)
    (hroom : s.HasTable address dir ∨ s.findFirstFreeFrame ≠ noFrame) :
    ∃ t page, s.getPageEntry address true dir = .ok (t, some page) ∧
      t.pageRef address dir = some page ∧
      ((s.HasTable address dir ∧ t = s) ∨ (TableMade s t dir (tableIdx address))) := by
  by_cases htable : s.HasTable address dir
  · refine ⟨s, { table := (s.directories dir).tables (tableIdx address)
                 index := address / pageSize % pageEntries }, ?_, ?_, .inl ⟨htable, rfl⟩⟩
    · rw [getPageEntry_of_hasTable htable, pageRef_of_table htable]
    · exact pageRef_of_table htable
  · have hfound := hroom.resolve_left htable
    have hmissing : (s.directories dir).tables (tableIdx address) = 0 := not_not.1 htable
    -- the frame is not that of the kernel directory, so its address is no null pointer
    have hnull : s.findFirstFreeFrame ≠ 0 := by
      intro hzero
      have hfree := not_marked_findFirstFreeFrame hfound
      rw [hzero, Nat.zero_div, htaken] at hfree
      cases hfree
    unfold getPageEntry
    dsimp only
    rw [if_neg (not_not.2 hmissing), if_pos rfl, if_neg hfound]
    refine ⟨_, _, rfl, ?_, .inr ⟨hmissing, hfound, fun dir' => ?_, fun page => ?_, fun frame => ?_⟩⟩
    · unfold pageRef setDirectory
      simp only [Function.update_self]
      rw [if_pos hnull]
    · unfold setDirectory
      by_cases hdir : dir' = dir
      · subst hdir
        rw [if_pos rfl]
        simp only [Function.update_self]
        rfl
      · rw [if_neg hdir]
        exact congrArg PageDirectory.tables (Function.update_of_ne hdir _ _)
    · rw [entry_setDirectory, entry_zeroTable, entry_bitmapSetBit]
    · rw [marked_setDirectory, marked_zeroTable, marked_bitmapSetBit]

theorem getPageEntry_cases {s t : PagingState} {address dir : Nat} {page : Option EntryRef}
    (htaken : s.marked 0 = true) (h : s.getPageEntry address true dir = .ok (t, page)) :
    ∃ ref, page = some ref ∧ t.pageRef address dir = some ref ∧
      ((s.HasTable address dir ∧ t = s) ∨ (TableMade s t dir (tableIdx address))) := by
  have hroom : s.HasTable address dir ∨ s.findFirstFreeFrame ≠ noFrame := by
    by_contra hnone
    obtain ⟨htable, hfound⟩ := not_or.1 hnone
    have hmissing : (s.directories dir).tables (tableIdx address) = 0 := not_not.1 htable
    unfold getPageEntry at h
    dsimp only at h
    rw [if_neg (not_not.2 hmissing), if_pos rfl, if_pos (not_not.1 hfound)] at h
    cases h
  obtain ⟨t', ref, h', href, hcases⟩ := getPageEntry_ok htaken hroom
  rw [h'] at h
  cases h
  exact ⟨ref, rfl, href, hcases⟩

/-- A table that is there stays. -/
theorem TableMade.tables_of_ne {s t : PagingState} {dir i : Nat} (h : TableMade s t dir i)
    {dir' j : Nat} (hused : (s.directories dir').tables j ≠ 0) :
    (t.directories dir').tables j = (s.directories dir').tables j := by
  rw [h.tables]
  split
  case isTrue hdir =>
    subst hdir
    refine Function.update_of_ne ?_ _ _
    rintro rfl
    exact hused h.missing
  case isFalse => rfl

/-- The only table that is new. -/
theorem TableMade.eq_of_new {s t : PagingState} {dir i : Nat} (h : TableMade s t dir i)
    {dir' j : Nat} (hold : (s.directories dir').tables j = 0)
    (hnew : (t.directories dir').tables j ≠ 0) :
    dir' = dir ∧ j = i ∧ (t.directories dir').tables j = s.findFirstFreeFrame := by
  rw [h.tables] at hnew ⊢
  split at hnew
  case isTrue hdir =>
    by_cases hj : j = i
    · rw [if_pos hdir, hj, Function.update_self]
      exact ⟨hdir, rfl, rfl⟩
    · rw [Function.update_of_ne hj, ← hdir] at hnew
      exact absurd hold hnew
  case isFalse => exact absurd hold hnew

theorem pageRef_eq_some_iff {s : PagingState} {address dir : Nat} {page : EntryRef} :
    s.pageRef address dir = some page ↔
      s.HasTable address dir ∧ page.table = (s.directories dir).tables (tableIdx address) ∧
        page.index = address / pageSize % pageEntries := by
  unfold pageRef HasTable
  by_cases htable : (s.directories dir).tables (address / pageSize / pageEntries) = 0
  · simp [htable]
  · rw [if_pos htable, Option.some.injEq]
    constructor
    · rintro rfl
      exact ⟨htable, rfl, rfl⟩
    · rintro ⟨_, hpage, hindex⟩
      cases page
      simp only at hpage hindex
      rw [hpage, hindex]

theorem HasTable.kept {s t : PagingState} {address dir : Nat} (h : s.HasTable address dir)
    (hkept : (t.directories dir).tables (tableIdx address) =
      (s.directories dir).tables (tableIdx address)) :
    t.HasTable address dir ∧ t.pageRef address dir = s.pageRef address dir := by
  unfold HasTable pageRef
  rw [hkept]
  exact ⟨h, rfl⟩

/-- The tables that the known directories map addresses with. -/
def usedTables (s : PagingState) (known : List Nat) : Set Nat :=
  {table | table ≠ 0 ∧ ∃ dir ∈ known, ∃ i < directoryEntries, (s.directories dir).tables i = table}

theorem usedTables_subset (s : PagingState) (known : List Nat) :
    s.usedTables known ⊆ s.mappedTables known := by
  rintro table ⟨hnull, dir, hdir, i, _, hi⟩
  exact ⟨hnull, dir, hdir, i, hi⟩

theorem mem_usedTables_of_pageRef {s : PagingState} {known : List Nat} {address dir : Nat}
    {page : EntryRef} (hdir : dir ∈ known) (hlow : address < 2 ^ 32)
    (h : s.pageRef address dir = some page) : page.table ∈ s.usedTables known := by
  obtain ⟨hused, htable, _⟩ := pageRef_eq_some_iff.1 h
  rw [htable]
  refine ⟨hused, dir, hdir, _, ?_, rfl⟩
  unfold tableIdx pageSize pageEntries directoryEntries
  omega

/-- The loop of `allocate_memory_region` returns when there are frames for its pages and for the
tables they lack. -/
theorem allocatePages_ok {s : PagingState} (isKernel isWritable : Int) {dir : Nat}
    {pages : List Nat} (htaken : s.marked 0 = true)
    (hroom : s.markedFrames + s.pagesNeed dir pages ≤ 2 ^ 20) :
    ∃ t, pages.foldlM (allocateRound isKernel isWritable dir) s = .ok t := by
  induction pages generalizing s with
  | nil => exact ⟨s, rfl⟩
  | cons current rest ih =>
      have hneed := s.pagesNeed_lt_cons dir current rest
      have hfound := findFirstFreeFrame_ne_of_markedFrames (s := s) (by omega)
      obtain ⟨u, page, hpage, _, hcases⟩ := getPageEntry_ok htaken (.inr hfound)
      have hlen : u.markedFrames = s.markedFrames + (s.getPageEntryRequests current dir).length :=
        getPageEntry_markedFrames hpage
      -- what is left suffices for the page itself and the pages after it
      have hleft : u.marked 0 = true ∧ u.markedFrames + u.pagesNeed dir rest + 1 ≤ 2 ^ 20 := by
        rcases hcases with ⟨htable, rfl⟩ | hmade
        · rw [(getPageEntryRequests_eq_nil_iff u current dir).2 htable, List.length_nil] at hlen
          exact ⟨htaken, by omega⟩
        · have hcard := missingTables_card_setTable hmade.missing (t := u)
            (by
              intro hzero
              have hfree := not_marked_findFirstFreeFrame hfound
              rw [hzero, Nat.zero_div, htaken] at hfree
              cases hfree)
            ((hmade.tables dir).trans (if_pos rfl)) rest
          have hone : (s.getPageEntryRequests current dir).length ≤ 1 := by
            unfold getPageEntryRequests
            split <;> simp
          refine ⟨(hmade.marked 0).2 (.inr htaken), ?_⟩
          unfold pagesNeed at hroom ⊢
          rw [List.length_cons] at hroom
          omega
      have hfound' := findFirstFreeFrame_ne_of_markedFrames (s := u) (by omega)
      obtain ⟨v, hv⟩ : ∃ v, u.allocateFrame page isKernel isWritable = .ok v := by
        unfold allocateFrame
        split
        · exact ⟨u, rfl⟩
        · exact ⟨_, if_neg hfound'⟩
      have hgiven : (u.allocateFrameRequests page).length ≤ 1 := by
        unfold allocateFrameRequests
        split <;> simp
      have hmarked := allocateFrame_markedFrames hv
      have hdirs := allocateFrame_directories hv
      obtain ⟨t, ht⟩ := ih (s := v) ((allocateFrame_onlyMarks hv).marked 0 hleft.1)
        (by rw [pagesNeed_congr hdirs]; omega)
      refine ⟨t, ?_⟩
      rw [List.foldlM_cons, Outcome.bind_eq_ok]
      exact ⟨v, Outcome.bind_eq_ok.2 ⟨_, hpage, hv⟩, ht⟩

/-! ## On the way -/

/-- A table of the directory that it did not have. -/
def NewTable (s t : PagingState) (dir table : Nat) : Prop :=
  table ≠ 0 ∧ ∃ i, (s.directories dir).tables i = 0 ∧ (t.directories dir).tables i = table

theorem TableMade.newTable {s t u : PagingState} {dir i table : Nat} (hmade : TableMade t u dir i)
    (h : NewTable s u dir table) : NewTable s t dir table ∨ table = t.findFirstFreeFrame := by
  obtain ⟨hused, j, hzero, hj⟩ := h
  by_cases hbefore : (t.directories dir).tables j = 0
  · rw [← hj] at hused ⊢
    exact .inr (hmade.eq_of_new hbefore hused).2.2
  · exact .inl ⟨hused, j, hzero, (hmade.tables_of_ne hbefore).symm.trans hj⟩

/-- No request is answered by the frame of a table in use that has a present entry. -/
def SparesMappings (known : List Nat) (requests : List Request) : Prop :=
  ∀ r ∈ requests, ∀ page : EntryRef, page.table = r.answer → page.index < pageEntries →
    page.table ∈ r.state.usedTables known → (r.state.entry page).present = false

/-- `t` is `s` after the pages `done` have been given frames; `news` are the frames of the tables
made for them. -/
structure Filled (s t : PagingState) (known : List Nat) (dir : Nat) (done : List Nat)
    (news : Finset Nat) : Prop where
  tables : ∀ dir' i, (s.directories dir').tables i ≠ 0 →
    (t.directories dir').tables i = (s.directories dir').tables i
  only : ∀ dir' i, (s.directories dir').tables i = 0 → (t.directories dir').tables i ≠ 0 →
    dir' = dir
  low : ∀ current ∈ done, current < 2 ^ 32
  there : ∀ current ∈ done, t.HasTable current dir
  kept : ∀ page : EntryRef, page.table ∈ s.usedTables known → page.index < pageEntries →
    page ∉ t.pageRefs done dir → (t.entry page).present = (s.entry page).present ∧
      ((s.entry page).present = true → t.entry page = s.entry page)
  fresh : ∀ page : EntryRef, NewTable s t dir page.table → page.index < pageEntries →
    page ∉ t.pageRefs done dir → (t.entry page).present = false
  filled : ∀ page ∈ t.pageRefs done dir, (t.entry page).present = true ∧
    (t.entry page).frame ≠ 0 ∧ s.marked (t.entry page).frame = false ∧
    (t.entry page).frame ∉ news
  absent : ∀ page ∈ t.pageRefs done dir, page.table ∈ s.usedTables known →
    (s.entry page).present = false
  own : ∀ page ∈ t.pageRefs done dir, ∀ other ∈ t.pageRefs done dir,
    (t.entry other).frame = (t.entry page).frame → other = page
  marked : ∀ frame, t.marked frame = true ↔ s.marked frame = true ∨ frame ∈ news ∨
    ∃ page ∈ t.pageRefs done dir, (t.entry page).frame = frame
  news_clear : ∀ frame ∈ news, s.marked frame = false
  news_iff : ∀ frame, frame ∈ news ↔ ∃ table, NewTable s t dir table ∧ table / pageSize = frame
  drift : Drifts s t news.card

theorem index_lt_of_mem_pageRefs {s : PagingState} {addresses : List Nat} {dir : Nat}
    {page : EntryRef} (h : page ∈ s.pageRefs addresses dir) : page.index < pageEntries := by
  obtain ⟨address, _, hpage⟩ := h
  rw [(pageRef_eq_some_iff.1 hpage).2.2]
  exact Nat.mod_lt _ (by decide)

theorem mem_pageRefs_append {s : PagingState} {addresses : List Nat} {address dir : Nat}
    {page : EntryRef} (hpage : s.pageRef address dir = some page) (other : EntryRef) :
    other ∈ s.pageRefs (addresses ++ [address]) dir ↔
      other ∈ s.pageRefs addresses dir ∨ other = page := by
  unfold pageRefs
  simp only [Set.mem_ofPred_eq, List.mem_append, List.mem_singleton, or_and_right, exists_or,
    exists_eq_left, hpage, Option.some.injEq, eq_comm (a := page)]

namespace Filled

variable {s t u : PagingState} {known : List Nat} {dir : Nat} {done : List Nat} {news : Finset Nat}

theorem start (hs : s.Tracked) (known : List Nat) (dir : Nat) : Filled s s known dir [] ∅ := by
  have hempty : s.pageRefs [] dir = ∅ := by
    unfold pageRefs
    simp
  -- no table is new between a state and itself
  have hnone : ∀ table, ¬ NewTable s s dir table := by
    rintro table ⟨hnull, i, hzero, htable⟩
    exact hnull (htable.symm.trans hzero)
  refine
    { tables := fun _ _ _ => rfl
      only := fun _ _ hzero hnull => absurd hzero hnull
      low := fun _ hmem => by cases hmem
      there := fun _ hmem => by cases hmem
      kept := fun _ _ _ _ => ⟨rfl, fun _ => rfl⟩
      fresh := fun page hnew => absurd hnew (hnone _)
      filled := ?_
      absent := ?_
      own := ?_
      marked := ?_
      news_clear := fun _ hmem => absurd hmem (Finset.notMem_empty _)
      news_iff := fun frame => ?_
      drift := Drifts.of_same hs rfl rfl rfl }
  · rw [hempty]
    exact fun _ hmem => hmem.elim
  · rw [hempty]
    exact fun _ hmem => hmem.elim
  · rw [hempty]
    exact fun _ hmem => hmem.elim
  · rw [hempty]
    simp
  · simp [hnone]

/-- A table in use before is in use still. -/
theorem mem_usedTables (h : Filled s t known dir done news) {table : Nat}
    (htable : table ∈ s.usedTables known) : table ∈ t.usedTables known := by
  obtain ⟨hnull, dir', hdir', i, hlt, hi⟩ := htable
  refine ⟨hnull, dir', hdir', i, hlt, ?_⟩
  rw [h.tables dir' i (by rw [hi]; exact hnull), hi]

/-- The entries that have been filled are those of tables in use. -/
theorem table_mem (h : Filled s t known dir done news) (hdir : dir ∈ known) {page : EntryRef}
    (hpage : page ∈ t.pageRefs done dir) : page.table ∈ t.usedTables known := by
  obtain ⟨address, hmem, href⟩ := hpage
  exact mem_usedTables_of_pageRef hdir (h.low address hmem) href

/-! ### A table is made -/

section TableMade

variable {i : Nat}

/-- A table in use has no present entry in the frame that the new one takes. -/
theorem absent_of_spared (hspare : SparesMappings known [t.request]) {page : EntryRef}
    (htable : page.table = t.findFirstFreeFrame) (hindex : page.index < pageEntries)
    (hused : page.table ∈ t.usedTables known) : (t.entry page).present = false :=
  hspare _ (List.mem_singleton_self _) page (by rw [answer_request]; exact htable) hindex hused

theorem pageRefs_tableMade (h : Filled s t known dir done news) (hmade : TableMade t u dir i) :
    u.pageRefs done dir = t.pageRefs done dir := by
  ext page
  refine exists_congr fun current => and_congr_right fun hmem => ?_
  rw [((h.there current hmem).kept (hmade.tables_of_ne (h.there current hmem))).2]

/-- The entries that have been filled are present, and so they are elsewhere. -/
theorem entry_tableMade (h : Filled s t known dir done news) (hdir : dir ∈ known)
    (hmade : TableMade t u dir i) (hspare : SparesMappings known [t.request]) {page : EntryRef}
    (hpage : page ∈ t.pageRefs done dir) : u.entry page = t.entry page := by
  rw [hmade.entry, if_neg]
  intro htable
  have habsent := absent_of_spared hspare htable (index_lt_of_mem_pageRefs hpage)
    (h.table_mem hdir hpage)
  rw [(h.filled page hpage).1] at habsent
  cases habsent

theorem newTable_tableMade_iff (h : Filled s t known dir done news) (hmade : TableMade t u dir i)
    (hnull : t.findFirstFreeFrame ≠ 0) (table : Nat) :
    NewTable s u dir table ↔ NewTable s t dir table ∨ table = t.findFirstFreeFrame := by
  constructor
  · exact hmade.newTable
  · rintro (⟨hused, j, hzero, hj⟩ | heq)
    · refine ⟨hused, j, hzero, (hmade.tables_of_ne ?_).trans hj⟩
      rw [hj]
      exact hused
    · rw [heq]
      refine ⟨hnull, i, ?_, ?_⟩
      · by_contra hthere
        exact hthere ((h.tables dir i hthere).symm.trans hmade.missing)
      · rw [hmade.tables, if_pos rfl, Function.update_self]

/-- What is zeroed was not present, and was not at the start. -/
theorem kept_tableMade (h : Filled s t known dir done news) (hmade : TableMade t u dir i)
    (hspare : SparesMappings known [t.request]) {page : EntryRef}
    (hmapped : page.table ∈ s.usedTables known) (hindex : page.index < pageEntries)
    (hout : page ∉ t.pageRefs done dir) :
    (u.entry page).present = (s.entry page).present ∧
      ((s.entry page).present = true → u.entry page = s.entry page) := by
  obtain ⟨hpresent, hsame⟩ := h.kept page hmapped hindex hout
  rw [hmade.entry]
  split
  case isTrue htable =>
    rw [absent_of_spared hspare htable hindex (h.mem_usedTables hmapped)] at hpresent
    refine ⟨hpresent, fun hwas => ?_⟩
    rw [← hpresent] at hwas
    cases hwas
  case isFalse => exact ⟨hpresent, hsame⟩

/-- A marked frame is not the one that is taken. -/
theorem ne_taken (hmade : TableMade t u dir i) {frame : Nat} (hframe : t.marked frame = true) :
    frame ≠ t.findFirstFreeFrame / pageSize := by
  intro heq
  rw [heq, not_marked_findFirstFreeFrame hmade.found] at hframe
  cases hframe

theorem filled_tableMade (h : Filled s t known dir done news) (hmade : TableMade t u dir i)
    {page : EntryRef} (hpage : page ∈ t.pageRefs done dir) (hentry : u.entry page = t.entry page) :
    (u.entry page).present = true ∧ (u.entry page).frame ≠ 0 ∧
      s.marked (u.entry page).frame = false ∧
        (u.entry page).frame ∉ insert (t.findFirstFreeFrame / pageSize) news := by
  obtain ⟨hpresent, hframe, hclear, hnews⟩ := h.filled page hpage
  rw [hentry]
  refine ⟨hpresent, hframe, hclear, fun hmem => ?_⟩
  rcases Finset.mem_insert.1 hmem with heq | hmem
  · exact ne_taken hmade ((h.marked _).2 (.inr (.inr ⟨page, hpage, rfl⟩))) heq
  · exact hnews hmem

theorem marked_tableMade (h : Filled s t known dir done news) (hmade : TableMade t u dir i)
    (hrefs : u.pageRefs done dir = t.pageRefs done dir)
    (hentry : ∀ page ∈ t.pageRefs done dir, u.entry page = t.entry page) (frame : Nat) :
    u.marked frame = true ↔ s.marked frame = true ∨
      frame ∈ insert (t.findFirstFreeFrame / pageSize) news ∨
        ∃ page ∈ u.pageRefs done dir, (u.entry page).frame = frame := by
  have hframes : (∃ page ∈ u.pageRefs done dir, (u.entry page).frame = frame) ↔
      ∃ page ∈ t.pageRefs done dir, (t.entry page).frame = frame := by
    rw [hrefs]
    exact exists_congr fun page => and_congr_right fun hpage => by rw [hentry page hpage]
  rw [hmade.marked, h.marked, hframes, Finset.mem_insert, or_left_comm, or_assoc]

theorem news_tableMade_iff (h : Filled s t known dir done news) (hmade : TableMade t u dir i)
    (hnull : t.findFirstFreeFrame ≠ 0) (frame : Nat) :
    frame ∈ insert (t.findFirstFreeFrame / pageSize) news ↔
      ∃ table, NewTable s u dir table ∧ table / pageSize = frame := by
  rw [Finset.mem_insert, h.news_iff]
  simp only [h.newTable_tableMade_iff hmade hnull]
  constructor
  · rintro (heq | ⟨table, htable, heq⟩)
    · exact ⟨t.findFirstFreeFrame, .inr rfl, heq.symm⟩
    · exact ⟨table, .inl htable, heq⟩
  · rintro ⟨table, htable | htable, heq⟩
    · exact .inr ⟨table, htable, heq⟩
    · rw [htable] at heq
      exact .inl heq.symm

/-- A table is made in a frame that holds no present entry. -/
theorem tableMade (h : Filled s t known dir done news) (hdir : dir ∈ known)
    (hmade : TableMade t u dir i) (htaken : t.marked 0 = true) (hdrift : Drifts t u 1)
    (hspare : SparesMappings known [t.request]) :
    Filled s u known dir done (insert (t.findFirstFreeFrame / pageSize) news) := by
  have hnull : t.findFirstFreeFrame ≠ 0 := by
    intro hzero
    have hne := ne_taken hmade htaken
    rw [hzero, Nat.zero_div] at hne
    exact hne rfl
  have hrefs := h.pageRefs_tableMade hmade
  have hentry : ∀ page ∈ t.pageRefs done dir, u.entry page = t.entry page := fun page hpage =>
    h.entry_tableMade hdir hmade hspare hpage
  refine
    { tables := fun dir' j hused => ?_
      only := fun dir' j hzero hused => ?_
      low := h.low
      there := fun current hmem =>
        ((h.there current hmem).kept (hmade.tables_of_ne (h.there current hmem))).1
      kept := fun page hmapped hindex hpage =>
        h.kept_tableMade hmade hspare hmapped hindex (hrefs ▸ hpage)
      fresh := fun page hpage hindex hout => ?_
      filled := fun page hpage =>
        h.filled_tableMade hmade (hrefs ▸ hpage) (hentry page (hrefs ▸ hpage))
      absent := fun page hpage => h.absent page (hrefs ▸ hpage)
      own := fun page hpage other hother heq => ?_
      marked := h.marked_tableMade hmade hrefs hentry
      news_clear := fun frame hmem => ?_
      news_iff := h.news_tableMade_iff hmade hnull
      drift := ?_ }
  · have hthere := h.tables dir' j hused
    exact (hmade.tables_of_ne (by rw [hthere]; exact hused)).trans hthere
  · by_cases hbefore : (t.directories dir').tables j = 0
    · exact (hmade.eq_of_new hbefore hused).1
    · exact h.only dir' j hzero hbefore
  · rw [hrefs] at hout
    rw [hmade.entry]
    split
    case isTrue => rfl
    case isFalse htable =>
      have hold := ((h.newTable_tableMade_iff hmade hnull _).1 hpage).resolve_right htable
      exact h.fresh page hold hindex hout
  · rw [hrefs] at hpage hother
    rw [hentry page hpage, hentry other hother] at heq
    exact h.own page hpage other hother heq
  · rcases Finset.mem_insert.1 hmem with heq | hmem
    · rw [Bool.eq_false_iff]
      exact fun hwas => ne_taken hmade ((h.marked frame).2 (.inl hwas)) heq
    · exact h.news_clear frame hmem
  · have hnot : t.findFirstFreeFrame / pageSize ∉ news := fun hmem =>
      ne_taken hmade ((h.marked _).2 (.inr (.inl hmem))) rfl
    rw [Finset.card_insert_of_notMem hnot]
    exact h.drift.trans hdrift

end TableMade

/-! ### An entry is filled -/

theorem pageRefs_append_of_mem {current : Nat} {page : EntryRef}
    (hpage : t.pageRef current dir = some page) (hmem : page ∈ t.pageRefs done dir) :
    t.pageRefs (done ++ [current]) dir = t.pageRefs done dir := by
  ext other
  rw [mem_pageRefs_append hpage]
  refine or_iff_left_of_imp ?_
  rintro rfl
  exact hmem

/-- An entry of the region that has not been filled is not present. -/
theorem not_present {current : Nat} {page : EntryRef} (h : Filled s t known dir done news)
    (hdir : dir ∈ known) (hlow : current < 2 ^ 32) (hpage : t.pageRef current dir = some page)
    (habsent : s.frameOf dir current = none) (hout : page ∉ t.pageRefs done dir) :
    (t.entry page).present = false ∧
      (page.table ∈ s.usedTables known → (s.entry page).present = false) := by
  obtain ⟨hused, htable, hidx⟩ := pageRef_eq_some_iff.1 hpage
  have hindex : page.index < pageEntries := by
    rw [hidx]
    exact Nat.mod_lt _ (by decide)
  by_cases hbefore : s.HasTable current dir
  · have hsame := h.tables dir (tableIdx current) hbefore
    have hpage' : s.pageRef current dir = some page := by
      rw [← (hbefore.kept hsame).2]
      exact hpage
    have hwas := (frameOf_eq_none_iff s dir current).1 habsent page hpage'
    have hkept := h.kept page (mem_usedTables_of_pageRef hdir hlow hpage') hindex hout
    exact ⟨hkept.1.trans hwas, fun _ => hwas⟩
  · -- the table is new
    have hnew : NewTable s t dir page.table := by
      rw [htable]
      exact ⟨hused, tableIdx current, not_not.1 hbefore, rfl⟩
    have hfresh := h.fresh page hnew hindex hout
    exact ⟨hfresh, fun hmapped => (h.kept page hmapped hindex hout).1.symm.trans hfresh⟩

/-- From `t` to `u` an entry is given a frame that is free. -/
structure Gives (t u : PagingState) (page : EntryRef) (frame : Nat) : Prop where
  nonzero : frame ≠ 0
  free : t.marked frame = false
  directories : u.directories = t.directories
  marked : ∀ x, u.marked x = true ↔ x = frame ∨ t.marked x = true
  others : ∀ other, other ≠ page → u.entry other = t.entry other
  present : (u.entry page).present = true
  frame : (u.entry page).frame = frame
  drift : Drifts t u 0

section Gives

variable {current frame : Nat} {page : EntryRef}

theorem Gives.mem_pageRefs (hgives : Gives t u page frame)
    (hpage : t.pageRef current dir = some page) (other : EntryRef) :
    other ∈ u.pageRefs (done ++ [current]) dir ↔ other ∈ t.pageRefs done dir ∨ other = page := by
  rw [pageRefs_congr hgives.directories]
  exact mem_pageRefs_append hpage other

theorem Gives.newTable (hgives : Gives t u page frame) (table : Nat) :
    NewTable s u dir table ↔ NewTable s t dir table := by
  unfold NewTable
  rw [hgives.directories]

theorem Gives.ne_of_marked (hgives : Gives t u page frame) {x : Nat} (hx : t.marked x = true) :
    x ≠ frame := by
  intro heq
  rw [heq, hgives.free] at hx
  cases hx

/-- The entries filled before stay, -/
theorem Gives.entry (hgives : Gives t u page frame) (hout : page ∉ t.pageRefs done dir)
    {other : EntryRef} (hother : other ∈ t.pageRefs done dir) : u.entry other = t.entry other := by
  refine hgives.others other fun heq => hout ?_
  rw [← heq]
  exact hother

/-- and have other frames. -/
theorem frame_ne (h : Filled s t known dir done news) (hgives : Gives t u page frame)
    {other : EntryRef} (hother : other ∈ t.pageRefs done dir) : (t.entry other).frame ≠ frame :=
  hgives.ne_of_marked ((h.marked _).2 (.inr (.inr ⟨other, hother, rfl⟩)))

/-- The frame given was clear at the start, and belongs to no table made since. -/
theorem filled_gives (h : Filled s t known dir done news) (hgives : Gives t u page frame) :
    (u.entry page).present = true ∧ (u.entry page).frame ≠ 0 ∧
      s.marked (u.entry page).frame = false ∧ (u.entry page).frame ∉ news := by
  rw [hgives.frame]
  refine ⟨hgives.present, hgives.nonzero, ?_, fun hmem => ?_⟩
  · rw [Bool.eq_false_iff]
    exact fun hmark => hgives.ne_of_marked ((h.marked _).2 (.inl hmark)) rfl
  · exact hgives.ne_of_marked ((h.marked _).2 (.inr (.inl hmem))) rfl

theorem own_gives (h : Filled s t known dir done news) (hgives : Gives t u page frame)
    (hpage : t.pageRef current dir = some page) (hout : page ∉ t.pageRefs done dir) :
    ∀ first ∈ u.pageRefs (done ++ [current]) dir, ∀ second ∈ u.pageRefs (done ++ [current]) dir,
      (u.entry second).frame = (u.entry first).frame → second = first := by
  intro first hfirst second hsecond heq
  rcases (hgives.mem_pageRefs hpage first).1 hfirst with hfirst | rfl <;>
    rcases (hgives.mem_pageRefs hpage second).1 hsecond with hsecond | rfl
  · rw [hgives.entry hout hfirst, hgives.entry hout hsecond] at heq
    exact h.own first hfirst second hsecond heq
  · rw [hgives.entry hout hfirst, hgives.frame] at heq
    exact absurd heq.symm (h.frame_ne hgives hfirst)
  · rw [hgives.entry hout hsecond, hgives.frame] at heq
    exact absurd heq (h.frame_ne hgives hsecond)
  · rfl

theorem marked_gives (h : Filled s t known dir done news) (hgives : Gives t u page frame)
    (hpage : t.pageRef current dir = some page) (hout : page ∉ t.pageRefs done dir) (x : Nat) :
    u.marked x = true ↔ s.marked x = true ∨ x ∈ news ∨
      ∃ other ∈ u.pageRefs (done ++ [current]) dir, (u.entry other).frame = x := by
  have hframes : (∃ other ∈ u.pageRefs (done ++ [current]) dir, (u.entry other).frame = x) ↔
      (∃ other ∈ t.pageRefs done dir, (t.entry other).frame = x) ∨ x = frame := by
    constructor
    · rintro ⟨other, hother, heq⟩
      rcases (hgives.mem_pageRefs hpage other).1 hother with hother | rfl
      · rw [hgives.entry hout hother] at heq
        exact .inl ⟨other, hother, heq⟩
      · exact .inr (heq.symm.trans hgives.frame)
    · rintro (⟨other, hother, heq⟩ | heq)
      · rw [← hgives.entry hout hother] at heq
        exact ⟨other, (hgives.mem_pageRefs hpage other).2 (.inl hother), heq⟩
      · exact ⟨page, (hgives.mem_pageRefs hpage page).2 (.inr rfl), hgives.frame.trans heq.symm⟩
  rw [hgives.marked, h.marked, hframes, or_comm, or_assoc, or_assoc]

/-- An entry that has not been filled is given a frame. -/
theorem fill (h : Filled s t known dir done news) (hgives : Gives t u page frame)
    (hlow : current < 2 ^ 32) (hpage : t.pageRef current dir = some page)
    (hout : page ∉ t.pageRefs done dir)
    (hwas : page.table ∈ s.usedTables known → (s.entry page).present = false) :
    Filled s u known dir (done ++ [current]) news := by
  refine
    { tables := ?_
      only := ?_
      low := List.forall_mem_append.2 ⟨h.low, List.forall_mem_singleton.2 hlow⟩
      there := ?_
      kept := fun other hmapped hindex hother => ?_
      fresh := fun other htable hindex hother => ?_
      filled := fun other hother => ?_
      absent := fun other hother hmapped => ?_
      own := h.own_gives hgives hpage hout
      marked := h.marked_gives hgives hpage hout
      news_clear := h.news_clear
      news_iff := fun x => ?_
      drift := h.drift.trans hgives.drift }
  · rw [hgives.directories]
    exact h.tables
  · rw [hgives.directories]
    exact h.only
  · unfold HasTable
    rw [hgives.directories]
    exact List.forall_mem_append.2
      ⟨h.there, List.forall_mem_singleton.2 (pageRef_eq_some_iff.1 hpage).1⟩
  · obtain ⟨hother, hne⟩ := not_or.1 fun hmem => hother ((hgives.mem_pageRefs hpage other).2 hmem)
    rw [hgives.others other hne]
    exact h.kept other hmapped hindex hother
  · obtain ⟨hother, hne⟩ := not_or.1 fun hmem => hother ((hgives.mem_pageRefs hpage other).2 hmem)
    rw [hgives.others other hne]
    exact h.fresh other ((hgives.newTable _).1 htable) hindex hother
  · rcases (hgives.mem_pageRefs hpage other).1 hother with hother | rfl
    · rw [hgives.entry hout hother]
      exact h.filled other hother
    · exact h.filled_gives hgives
  · rcases (hgives.mem_pageRefs hpage other).1 hother with hother | rfl
    · exact h.absent other hother hmapped
    · exact hwas hmapped
  · rw [h.news_iff]
    simp only [hgives.newTable]

end Gives

/-- A page of the region is given a frame. -/
theorem given {current : Nat} {isKernel isWritable : Int} {page : EntryRef}
    (h : Filled s t known dir done news) (hdir : dir ∈ known) (htaken : t.marked 0 = true)
    (hvacant : t.VacantAll known) (hlow : current < 2 ^ 32) (hpage : t.pageRef current dir = some page)
    (habsent : s.frameOf dir current = none)
    (halloc : t.allocateFrame page isKernel isWritable = .ok u) :
    Filled s u known dir (done ++ [current]) news := by
  have hdrift := allocateFrame_drifts h.drift.tracked halloc
  rcases allocateFrame_cases halloc with ⟨hframe, hsame⟩ | ⟨hframe, hfound, hset⟩
  · -- an entry with a frame has been filled before
    have hmem : page ∈ t.pageRefs done dir := by
      by_contra hout
      have hnot := (h.not_present hdir hlow hpage habsent hout).1
      have hmapped := t.usedTables_subset known (mem_usedTables_of_pageRef hdir hlow hpage)
      exact hframe (hvacant page hmapped hnot)
    have hrefs := pageRefs_append_of_mem hpage hmem
    have hthere := (pageRef_eq_some_iff.1 hpage).1
    rw [hsame]
    refine { h with
      low := List.forall_mem_append.2 ⟨h.low, List.forall_mem_singleton.2 hlow⟩
      there := List.forall_mem_append.2 ⟨h.there, List.forall_mem_singleton.2 hthere⟩
      kept := ?_
      fresh := ?_
      filled := ?_
      absent := ?_
      own := ?_
      marked := ?_ }
    all_goals rw [hrefs]
    · exact h.kept
    · exact h.fresh
    · exact h.filled
    · exact h.absent
    · exact h.own
    · exact h.marked
  · have hout : page ∉ t.pageRefs done dir := fun hmem => (h.filled page hmem).2.1 hframe
    obtain ⟨frame, hframe'⟩ : ∃ frame, t.findFirstFreeFrame / pageSize = frame := ⟨_, rfl⟩
    have hfree := not_marked_findFirstFreeFrame hfound
    rw [hframe'] at hset hfree
    have hnull : frame ≠ 0 := by
      rintro rfl
      rw [htaken] at hfree
      cases hfree
    have hgives : Gives t u page frame :=
      { nonzero := hnull
        free := hfree
        directories := allocateFrame_directories halloc
        marked := fun x => by
          rw [hset, marked_withCount, marked_setEntry, marked_bitmapSetBit, hframe']
        others := fun other hne => by
          rw [hset, entry_withCount, entry_setEntry, if_neg hne, entry_bitmapSetBit]
        present := by rw [hset, entry_withCount, entry_setEntry, if_pos rfl]
        frame := by rw [hset, entry_withCount, entry_setEntry, if_pos rfl]
        drift := hdrift }
    exact h.fill hgives hlow hpage hout (h.not_present hdir hlow hpage habsent hout).2

end Filled

/-! ## Damage -/

/-- A mapping from before that will not be there when the region is freed. -/
structure Lost (s t : PagingState) (known : List Nat) (dir : Nat) (pages : List Nat)
    (page : EntryRef) : Prop where
  used : page.table ∈ s.usedTables known
  index_lt : page.index < pageEntries
  present : (s.entry page).present = true
  gone : page ∈ t.pageRefs pages dir ∨ (t.entry page).present = false

/-- A frame that is marked for no entry of the region and no new table. -/
structure Leaked (s t : PagingState) (dir : Nat) (pages : List Nat) (frame : Nat) : Prop where
  nonzero : frame ≠ 0
  marked : t.marked frame = true
  clear : s.marked frame = false
  unmapped : ∀ page ∈ t.pageRefs pages dir, (t.entry page).frame ≠ frame
  no_table : ∀ table, NewTable s t dir table → table / pageSize ≠ frame

/-- From `s` to `t` a mapping has been lost, or a frame leaked. -/
structure Damaged (s t : PagingState) (known : List Nat) (dir : Nat) (pages : List Nat) : Prop where
  tables : ∀ dir' i, (s.directories dir').tables i ≠ 0 →
    (t.directories dir').tables i = (s.directories dir').tables i
  damage : (∃ page, Lost s t known dir pages page) ∨ ∃ frame, Leaked s t dir pages frame

/-- The entries of a table that is made are empty; the others are those that were there. -/
theorem TableMade.mem_pageRefs {t u : PagingState} {dir i : Nat} {pages : List Nat}
    {page : EntryRef} (hmade : TableMade t u dir i) (hpage : page ∈ u.pageRefs pages dir) :
    u.entry page = PageTableEntry.zero ∨
      page ∈ t.pageRefs pages dir ∧ u.entry page = t.entry page ∧
        page.table ≠ t.findFirstFreeFrame := by
  rw [hmade.entry]
  split
  case isTrue => exact .inl rfl
  case isFalse hne =>
    obtain ⟨address, hmem, href⟩ := hpage
    obtain ⟨hused, htable, hindex⟩ := pageRef_eq_some_iff.1 href
    have hbefore : t.HasTable address dir := by
      intro hzero
      exact hne (htable.trans (hmade.eq_of_new hzero hused).2.2)
    refine .inr ⟨⟨address, hmem, ?_⟩, rfl, hne⟩
    rw [← (hbefore.kept (hmade.tables_of_ne hbefore)).2]
    exact href

theorem pageRefs_mono {s t : PagingState} {dir : Nat} {pages : List Nat}
    (htables : ∀ dir' i, (s.directories dir').tables i ≠ 0 →
      (t.directories dir').tables i = (s.directories dir').tables i) :
    s.pageRefs pages dir ⊆ t.pageRefs pages dir := by
  rintro page ⟨address, hmem, href⟩
  have hthere := (pageRef_eq_some_iff.1 href).1
  refine ⟨address, hmem, ?_⟩
  rw [(hthere.kept (htables dir _ hthere)).2]
  exact href

/-- What is lost or leaked when a table is made stays so. -/
theorem Damaged.tableMade {s t u : PagingState} {known : List Nat} {dir i : Nat} {pages : List Nat}
    (h : Damaged s t known dir pages) (hmade : TableMade t u dir i) :
    Damaged s u known dir pages := by
  refine ⟨fun dir' j hused => ?_, ?_⟩
  · have hthere := h.tables dir' j hused
    exact (hmade.tables_of_ne (by rw [hthere]; exact hused)).trans hthere
  rcases h.damage with ⟨page, hlost⟩ | ⟨frame, hleaked⟩
  · refine .inl ⟨page, { hlost with gone := ?_ }⟩
    rcases hlost.gone with hpage | habsent
    · exact .inl (pageRefs_mono (fun _ _ hused => hmade.tables_of_ne hused) hpage)
    · rw [hmade.entry]
      split
      · exact .inr rfl
      · exact .inr habsent
  · refine .inr ⟨frame, { hleaked with
      marked := (hmade.marked frame).2 (.inr hleaked.marked)
      unmapped := fun page hpage => ?_
      no_table := fun table htable => ?_ }⟩
    · rcases hmade.mem_pageRefs hpage with hzero | ⟨hbefore, hsame, _⟩
      · rw [hzero]
        exact hleaked.nonzero.symm
      · rw [hsame]
        exact hleaked.unmapped page hbefore
    -- a new table lies in a frame that was free, and the leaked one is marked
    · rcases hmade.newTable htable with htable | hnew
      · exact hleaked.no_table table htable
      · intro heq
        have hfree := not_marked_findFirstFreeFrame hmade.found
        rw [← hnew, heq, hleaked.marked] at hfree
        cases hfree

theorem Damaged.given {s t u : PagingState} {known : List Nat} {dir current : Nat}
    {pages : List Nat} {isKernel isWritable : Int} {page : EntryRef}
    (h : Damaged s t known dir pages) (hmem : current ∈ pages)
    (hpage : t.pageRef current dir = some page)
    (halloc : t.allocateFrame page isKernel isWritable = .ok u) :
    Damaged s u known dir pages := by
  have hdirs := allocateFrame_directories halloc
  rcases allocateFrame_cases halloc with ⟨_, hsame⟩ | ⟨_, hfound, hset⟩
  · rw [hsame]
    exact h
  obtain ⟨new, hnew⟩ : ∃ new, t.findFirstFreeFrame / pageSize = new := ⟨_, rfl⟩
  have hfree := not_marked_findFirstFreeFrame hfound
  rw [hnew] at hset hfree
  refine ⟨?_, ?_⟩
  · rw [hdirs]
    exact h.tables
  rcases h.damage with ⟨other, hlost⟩ | ⟨frame, hleaked⟩
  · refine .inl ⟨other, { hlost with gone := ?_ }⟩
    rw [pageRefs_congr hdirs]
    by_cases hother : other = page
    · rw [hother]
      exact .inl ⟨current, hmem, hpage⟩
    · rw [hset, entry_withCount, entry_setEntry, if_neg hother, entry_bitmapSetBit]
      exact hlost.gone
  · refine .inr ⟨frame, { hleaked with
      marked := (allocateFrame_onlyMarks halloc).marked frame hleaked.marked
      unmapped := fun other hother => ?_
      no_table := fun table htable => ?_ }⟩
    · rw [pageRefs_congr hdirs] at hother
      rw [hset, entry_withCount, entry_setEntry]
      split
      case isTrue =>
        -- the frame that is given was clear
        rintro rfl
        rw [hleaked.marked] at hfree
        cases hfree
      case isFalse =>
        rw [entry_bitmapSetBit]
        exact hleaked.unmapped other hother
    · unfold NewTable at htable
      rw [hdirs] at htable
      exact hleaked.no_table table htable

namespace Filled

variable {s t u : PagingState} {known : List Nat} {dir : Nat} {done : List Nat} {news : Finset Nat}

/-- A table that is made over a present entry loses it, or the frame that the region has given it. -/
theorem damaged {i : Nat} {pages : List Nat} {page : EntryRef}
    (h : Filled s t known dir done news) (hdir : dir ∈ known) (hmade : TableMade t u dir i)
    (hvacant : t.VacantAll known) (hlow : ∀ current ∈ pages, current < 2 ^ 32)
    (hregion : ∀ current ∈ pages, s.frameOf dir current = none)
    (htable : page.table = t.findFirstFreeFrame) (hindex : page.index < pageEntries)
    (hused : page.table ∈ t.usedTables known) (hpresent : (t.entry page).present = true) :
    Damaged s u known dir pages := by
  refine ⟨fun dir' j hthere => ?_, ?_⟩
  · have hbefore := h.tables dir' j hthere
    exact (hmade.tables_of_ne (by rw [hbefore]; exact hthere)).trans hbefore
  by_cases hmem : page ∈ t.pageRefs done dir
  · -- its frame stays marked, and no entry has it any more
    right
    obtain ⟨_, hnull, hclear, hnews⟩ := h.filled page hmem
    have hmarked : t.marked (t.entry page).frame = true :=
      (h.marked _).2 (.inr (.inr ⟨page, hmem, rfl⟩))
    refine ⟨(t.entry page).frame, hnull, (hmade.marked _).2 (.inr hmarked), hclear,
      fun other hother => ?_, fun table hnew heq => ?_⟩
    · rcases hmade.mem_pageRefs hother with hzero | ⟨hbefore, hsame, hne⟩
      · rw [hzero]
        exact hnull.symm
      · rw [hsame]
        by_cases hdone : other ∈ t.pageRefs done dir
        · intro heq
          rw [h.own page hmem other hdone heq] at hne
          exact hne htable
        · obtain ⟨current, hcurrent, href⟩ := hbefore
          have hlt := hlow current hcurrent
          have habsent := (h.not_present hdir hlt href (hregion current hcurrent) hdone).1
          have hmapped := t.usedTables_subset known (mem_usedTables_of_pageRef hdir hlt href)
          rw [hvacant other hmapped habsent]
          exact hnull.symm
    · rcases hmade.newTable hnew with hold | hold
      · exact hnews ((h.news_iff _).2 ⟨table, hold, heq⟩)
      · have hfree := not_marked_findFirstFreeFrame hmade.found
        rw [← hold, heq, hmarked] at hfree
        cases hfree
  · -- it was there before
    left
    obtain ⟨hnull, dir', hdir', j, hlt, hj⟩ := hused
    have hbefore : (s.directories dir').tables j ≠ 0 := by
      intro hzero
      have heq := h.only dir' j hzero (by rw [hj]; exact hnull)
      have hfresh := h.fresh page ⟨hnull, j, heq ▸ hzero, heq ▸ hj⟩ hindex hmem
      rw [hpresent] at hfresh
      cases hfresh
    have hwas : page.table ∈ s.usedTables known :=
      ⟨hnull, dir', hdir', j, hlt, (h.tables dir' j hbefore).symm.trans hj⟩
    refine ⟨page, hwas, hindex, (h.kept page hwas hindex hmem).1.symm.trans hpresent, .inr ?_⟩
    rw [hmade.entry, if_pos htable]
    rfl

end Filled

/-! ## The loop -/

/-- What the loop of `allocate_memory_region` requests for tables. -/
def regionTables (s : PagingState) (pages : List Nat) (isKernel isWritable : Int) (dir : Nat) :
    List Request :=
  loopRequests (allocateRound isKernel isWritable dir)
    (fun s current => s.getPageEntryRequests current dir) pages s

/-- Sparing the tables is more than is needed. -/
theorem SparesTables.sparesMappings {known : List Nat} {requests : List Request}
    (h : SparesTables known requests) : SparesMappings known requests := by
  intro r hr page htable _ hused
  rw [htable] at hused
  exact absurd (r.state.usedTables_subset known hused) (h r hr)

theorem sparesMappings_nil (known : List Nat) : SparesMappings known [] :=
  fun _ hmem => by cases hmem

theorem sparesMappings_append {known : List Nat} {requests more : List Request} :
    SparesMappings known (requests ++ more) ↔
      SparesMappings known requests ∧ SparesMappings known more := by
  unfold SparesMappings
  simp only [List.forall_mem_append]

theorem allocateRound_taken {s t : PagingState} {isKernel isWritable : Int} {dir current : Nat}
    (htaken : s.marked 0 = true) (h : allocateRound isKernel isWritable dir s current = .ok t) :
    t.marked 0 = true := by
  obtain ⟨⟨u, page⟩, hpage, hrest⟩ := Outcome.bind_eq_ok.1 h
  obtain ⟨ref, rfl, _, hcases⟩ := getPageEntry_cases htaken hpage
  refine (allocateFrame_onlyMarks hrest).marked 0 ?_
  rcases hcases with ⟨_, rfl⟩ | hmade
  · exact htaken
  · exact (hmade.marked 0).2 (.inr htaken)

theorem Damaged.run {s t u : PagingState} {known : List Nat} {dir : Nat} {pages rest : List Nat}
    {isKernel isWritable : Int} (h : Damaged s t known dir pages) (htaken : t.marked 0 = true)
    (hsub : ∀ current ∈ rest, current ∈ pages)
    (hrun : rest.foldlM (allocateRound isKernel isWritable dir) t = .ok u) :
    Damaged s u known dir pages := by
  have hinv : u.marked 0 = true ∧ Damaged s u known dir pages := by
    refine Outcome.foldlM_invariant
      (I := fun v => v.marked 0 = true ∧ Damaged s v known dir pages) ?_ ⟨htaken, h⟩ hrun
    rintro current hmem v w ⟨hv, hdamaged⟩ hround
    obtain ⟨⟨x, page⟩, hpage, hrest⟩ := Outcome.bind_eq_ok.1 hround
    obtain ⟨ref, rfl, href, hcases⟩ := getPageEntry_cases hv hpage
    have hx : Damaged s x known dir pages := by
      rcases hcases with ⟨_, rfl⟩ | hmade
      · exact hdamaged
      · exact hdamaged.tableMade hmade
    exact ⟨allocateRound_taken hv hround, hx.given (hsub current hmem) href hrest⟩
  exact hinv.2

/-- A round fills its page, or does damage. -/
theorem Filled.round {s t u : PagingState} {known : List Nat} {dir current : Nat}
    {done pages : List Nat} {news : Finset Nat} {isKernel isWritable : Int}
    (h : Filled s t known dir done news) (hdir : dir ∈ known) (htaken : t.marked 0 = true)
    (hvacant : t.VacantAll known) (hlow : ∀ current ∈ pages, current < 2 ^ 32)
    (hregion : ∀ current ∈ pages, s.frameOf dir current = none) (hmem : current ∈ pages)
    (hround : allocateRound isKernel isWritable dir t current = .ok u) :
    (SparesMappings known (t.getPageEntryRequests current dir) ∧
        ∃ news', Filled s u known dir (done ++ [current]) news') ∨
      ¬ SparesMappings known (t.getPageEntryRequests current dir) ∧
        Damaged s u known dir pages := by
  obtain ⟨⟨v, page⟩, hpage, hrest⟩ := Outcome.bind_eq_ok.1 hround
  have hdrift := getPageEntry_drifts h.drift.tracked hpage
  have hv := hvacant.getPageEntry hpage
  obtain ⟨ref, rfl, href, hcases⟩ := getPageEntry_cases htaken hpage
  have hone := hlow current hmem
  have hfree := hregion current hmem
  -- the page has a table, or one is made: in a free frame, or over a table in use
  rcases hcases with ⟨hthere, rfl⟩ | hmade
  · rw [(getPageEntryRequests_eq_nil_iff v current dir).2 hthere]
    exact .inl ⟨sparesMappings_nil known, news, h.given hdir htaken hv hone href hfree hrest⟩
  have htaken' : v.marked 0 = true := (hmade.marked 0).2 (.inr htaken)
  have hrequests : t.getPageEntryRequests current dir = [t.request] := by
    unfold getPageEntryRequests
    exact if_neg (not_not.2 hmade.missing)
  rw [hrequests] at hdrift ⊢
  by_cases hspare : SparesMappings known [t.request]
  · have hfilled := h.tableMade hdir hmade htaken hdrift hspare
    exact .inl ⟨hspare, _, hfilled.given hdir htaken' hv hone href hfree hrest⟩
  · refine .inr ⟨hspare, ?_⟩
    simp only [SparesMappings, not_forall] at hspare
    -- the zeroed table held a present page, and that page is lost
    obtain ⟨r, hr, other, htable, hindex, hused, hpresent⟩ := hspare
    rw [List.mem_singleton] at hr
    subst hr
    rw [answer_request] at htable
    have hthere : (t.entry other).present = true := Bool.of_not_eq_false hpresent
    have hdamaged := h.damaged hdir hmade hvacant hlow hregion htable hindex hused hthere
    exact hdamaged.given hmem href hrest

/-- The loop fills the region, or does damage. -/
theorem Filled.run {s t u : PagingState} {known : List Nat} {dir : Nat}
    {done rest pages : List Nat} {news : Finset Nat} {isKernel isWritable : Int}
    (h : Filled s t known dir done news) (hdir : dir ∈ known) (htaken : t.marked 0 = true)
    (hvacant : t.VacantAll known) (hlow : ∀ current ∈ pages, current < 2 ^ 32)
    (hregion : ∀ current ∈ pages, s.frameOf dir current = none) (hpages : done ++ rest = pages)
    (hrun : rest.foldlM (allocateRound isKernel isWritable dir) t = .ok u) :
    (SparesMappings known (t.regionTables rest isKernel isWritable dir) ∧
        ∃ news', Filled s u known dir pages news') ∨
      ¬ SparesMappings known (t.regionTables rest isKernel isWritable dir) ∧
        Damaged s u known dir pages := by
  induction rest generalizing t done news with
  | nil =>
      cases hrun
      rw [List.append_nil] at hpages
      subst hpages
      exact .inl ⟨sparesMappings_nil known, news, h⟩
  | cons current rest ih =>
      rw [List.foldlM_cons, Outcome.bind_eq_ok] at hrun
      obtain ⟨v, hround, hrest⟩ := hrun
      have hmem : current ∈ pages := by
        rw [← hpages]
        exact List.mem_append_right _ (List.mem_cons_self ..)
      have htaken' := allocateRound_taken htaken hround
      -- the tables of the loop are those of its first round and those of the rest
      have hrequests : t.regionTables (current :: rest) isKernel isWritable dir =
          t.getPageEntryRequests current dir ++ v.regionTables rest isKernel isWritable dir := by
        unfold regionTables
        rw [loopRequests, hround]
        rfl
      rw [hrequests, sparesMappings_append]
      rcases h.round hdir htaken hvacant hlow hregion hmem hround with
        ⟨hspare, news', hfilled⟩ | ⟨hspare, hdamaged⟩
      · rw [List.append_cons] at hpages
        rcases ih hfilled htaken' (hvacant.allocateRound hround) hpages hrest with
          ⟨hlater, hend⟩ | ⟨hlater, hend⟩
        · exact .inl ⟨⟨hspare, hlater⟩, hend⟩
        · exact .inr ⟨fun hall => hlater hall.2, hend⟩
      · refine .inr ⟨fun hall => hspare hall.1, hdamaged.run htaken' (fun other hother => ?_) hrest⟩
        rw [← hpages]
        exact List.mem_append_right _ (List.mem_cons_of_mem _ hother)

/-! ## Freed again -/

/-- `t` has the mappings and the count of `s`, and its bitmap but for the tables that are new. -/
structure Neutral (s t : PagingState) (known : List Nat) (dir : Nat) : Prop where
  frames : ∀ dir' ∈ known, ∀ virtualAddr : BitVec 32,
    t.frameOf dir' virtualAddr.toNat = s.frameOf dir' virtualAddr.toNat
  translation : ∀ dir' ∈ known, ∀ virtualAddr : BitVec 32,
    t.getPhysicalAddress virtualAddr.toNat dir' = s.getPhysicalAddress virtualAddr.toNat dir'
  counter : t.totalAllocatedFrames = s.totalAllocatedFrames
  marked : ∀ frame, t.marked frame = true ↔
    s.marked frame = true ∨ ∃ table, NewTable s t dir table ∧ table / pageSize = frame

section Freed

variable {s t u : PagingState} {known : List Nat} {dir : Nat} {pages : List Nat}
  {news : Finset Nat}

/-- What the region was given is released, and nothing else. -/
theorem Filled.marked_released (h : Filled s t known dir pages news)
    (hfree : Released t u (t.pageRefs pages dir)) (frame : Nat) :
    u.marked frame = true ↔ s.marked frame = true ∨ frame ∈ news := by
  rw [hfree.marked, h.marked]
  constructor
  · rintro ⟨hold | hnew | ⟨page, hpage, heq⟩, hnot⟩
    · exact .inl hold
    · exact .inr hnew
    · obtain ⟨hpresent, hnull, _⟩ := h.filled page hpage
      rw [heq] at hnull
      exact absurd ⟨page, hpage, hpresent, heq, hnull⟩ hnot
  · intro hkept
    refine ⟨hkept.imp_right .inl, ?_⟩
    rintro ⟨page, hpage, _, heq, _⟩
    obtain ⟨_, _, hclear, hnews⟩ := h.filled page hpage
    rw [heq] at hclear hnews
    rcases hkept with hold | hnew
    · rw [hclear] at hold
      cases hold
    · exact hnews hnew

/-- The pages of the region are not present again, and the others are as they were. -/
theorem Filled.frameOf_released (h : Filled s t known dir pages news)
    (hfree : Released t u (t.pageRefs pages dir)) {dir' virtualAddr : Nat} (hdir' : dir' ∈ known)
    (hlow : virtualAddr < 2 ^ 32) : u.frameOf dir' virtualAddr = s.frameOf dir' virtualAddr := by
  have habsent : ∀ page ∈ t.pageRefs pages dir, (u.entry page).present = false := by
    intro page hpage
    rw [Bool.eq_false_iff, Ne, hfree.present]
    exact fun hpresent => hpresent.2 hpage
  by_cases hbefore : s.HasTable virtualAddr dir'
  · obtain ⟨page, hpage⟩ : ∃ page, s.pageRef virtualAddr dir' = some page := by
      unfold pageRef
      exact ⟨_, if_pos hbefore⟩
    have hpage' : u.pageRef virtualAddr dir' = some page := by
      rw [pageRef_congr hfree.directories, (hbefore.kept (h.tables dir' _ hbefore)).2]
      exact hpage
    have hused := mem_usedTables_of_pageRef hdir' hlow hpage
    have hindex : page.index < pageEntries :=
      index_lt_of_mem_pageRefs ⟨virtualAddr, List.mem_singleton_self _, hpage⟩
    unfold frameOf
    rw [hpage, hpage', Option.bind_some, Option.bind_some]
    by_cases hmem : page ∈ t.pageRefs pages dir
    · simp [habsent page hmem, h.absent page hmem hused]
    · rw [hfree.entry page hmem]
      obtain ⟨hpresent, hsame⟩ := h.kept page hused hindex hmem
      cases hwas : (s.entry page).present with
      | false => simp [hpresent.trans hwas]
      | true => rw [hsame hwas, hwas]
  · -- only a new table can map the address now, and its entries are not present
    have hnone : s.frameOf dir' virtualAddr = none := by
      refine frameOf_none ?_
      unfold pageRef
      exact if_neg hbefore
    rw [hnone, frameOf_eq_none_iff]
    intro page hpage
    by_cases hmem : page ∈ t.pageRefs pages dir
    · exact habsent page hmem
    rw [pageRef_congr hfree.directories] at hpage
    obtain ⟨hthere, htable, _⟩ := pageRef_eq_some_iff.1 hpage
    have heq := h.only dir' _ (not_not.1 hbefore) hthere
    subst heq
    rw [hfree.entry page hmem]
    refine h.fresh page ?_ ?_ hmem
    · rw [htable]
      exact ⟨hthere, _, not_not.1 hbefore, rfl⟩
    · exact index_lt_of_mem_pageRefs ⟨virtualAddr, List.mem_singleton_self _, hpage⟩

/-- The frames of the region are counted out again. -/
theorem Filled.freesCounted (h : Filled s t known dir pages news) :
    t.FreesCounted (t.pageRefs pages dir) := by
  refine ⟨fun page hpage _ _ => ?_, fun page hpage other hother _ _ _ heq => ?_⟩
  · exact (h.marked _).2 (.inr (.inr ⟨page, hpage, rfl⟩))
  · exact h.own page hpage other hother heq

theorem newTable_congr (hdirs : u.directories = t.directories) (table : Nat) :
    NewTable s u dir table ↔ NewTable s t dir table := by
  unfold NewTable
  rw [hdirs]

/-- A region that has been filled is freed without a trace. -/
theorem Filled.neutral (h : Filled s t known dir pages news) (hs : s.Tracked)
    (hfree : pages.foldlM (fun s current => PagingState.unmapVirtualPage s current dir) t = .ok u) :
    Neutral s u known dir := by
  obtain ⟨t', ht', hreleased⟩ := unmapPages_released t pages dir
  cases ht'.symm.trans hfree
  have hframes := fun dir' (hdir' : dir' ∈ known) (virtualAddr : BitVec 32) =>
    h.frameOf_released hreleased hdir' virtualAddr.isLt
  have hmarked := h.marked_released hreleased
  refine ⟨hframes, fun dir' hdir' virtualAddr => ?_, ?_, fun frame => ?_⟩
  · rw [getPhysicalAddress_eq, getPhysicalAddress_eq, hframes dir' hdir' virtualAddr]
  · obtain ⟨n, _, hdrift, hzero⟩ := unmapPages_drifts h.drift.tracked hfree
    have htotal := h.drift.trans hdrift
    rw [hzero.2 h.freesCounted, Nat.add_zero] at htotal
    -- the bitmap gains the new tables, which are not counted
    have hnews : ∀ frame ∈ news, frame < bitmapSize * 32 := fun frame hmem =>
      htotal.tracked.inBitmap frame ((hmarked frame).2 (.inr hmem))
    have hcount : u.markedFrames = s.markedFrames + news.card :=
      Bitmap.count_union hnews h.news_clear hmarked
    have hbalance := htotal.drift
    have hbefore := hs.counter_lt
    have hafter := htotal.tracked.counter_lt
    omega
  · rw [hmarked, h.news_iff]
    simp only [newTable_congr hreleased.directories]

/-- What is lost is not there again, and what leaked is still marked. -/
theorem Damaged.not_neutral (h : Damaged s t known dir pages)
    (hfree : Released t u (t.pageRefs pages dir)) : ¬ Neutral s u known dir := by
  intro hneutral
  rcases h.damage with ⟨page, hlost⟩ | ⟨frame, hleaked⟩
  · obtain ⟨hnull, dir', hdir', i, hi, htable⟩ := hlost.used
    have hindex := hlost.index_lt
    -- the address that the entry is for
    obtain ⟨virtualAddr, hidx, hoffset⟩ : ∃ virtualAddr : BitVec 32,
        tableIdx virtualAddr.toNat = i ∧ virtualAddr.toNat / pageSize % pageEntries = page.index := by
      refine ⟨BitVec.ofNat 32 ((i * pageEntries + page.index) * pageSize), ?_⟩
      unfold directoryEntries at hi
      unfold pageEntries at hindex
      unfold tableIdx pageEntries pageSize
      rw [BitVec.toNat_ofNat]
      omega
    have hpage : s.pageRef virtualAddr.toNat dir' = some page := by
      rw [pageRef_eq_some_iff, hoffset]
      unfold HasTable
      rw [show virtualAddr.toNat / pageSize / pageEntries = i from hidx, hidx, htable]
      exact ⟨hnull, rfl, rfl⟩
    have hpage' : u.pageRef virtualAddr.toNat dir' = some page := by
      have hthere := (pageRef_eq_some_iff.1 hpage).1
      rw [pageRef_congr hfree.directories, (hthere.kept (h.tables dir' _ hthere)).2]
      exact hpage
    have habsent : (u.entry page).present = false := by
      rw [Bool.eq_false_iff, Ne, hfree.present]
      rintro ⟨hpresent, hmem⟩
      rcases hlost.gone with hgone | hgone
      · exact hmem hgone
      · rw [hgone] at hpresent
        cases hpresent
    have hframe := hneutral.frames dir' hdir' virtualAddr
    unfold frameOf at hframe
    rw [hpage, hpage', Option.bind_some, Option.bind_some, habsent, hlost.present] at hframe
    cases hframe
  · have hmarked : u.marked frame = true := by
      rw [hfree.marked]
      refine ⟨hleaked.marked, ?_⟩
      rintro ⟨page, hpage, _, heq, _⟩
      exact hleaked.unmapped page hpage heq
    rcases (hneutral.marked frame).1 hmarked with hold | ⟨table, htable, heq⟩
    · rw [hleaked.clear] at hold
      cases hold
    · exact hleaked.no_table table ((newTable_congr hfree.directories table).1 htable) heq

end Freed

theorem lt_of_mem_memoryRegion {startAddr size current : Nat}
    (h : current ∈ memoryRegion startAddr size) : current < 2 ^ 32 := by
  unfold memoryRegion regionPages alignedEnd at h
  obtain ⟨i, hi, rfl⟩ := List.mem_map.1 h
  have hlt := wrap32_lt (startAddr + size + pageSize - 1)
  rw [List.mem_range] at hi
  generalize wrap32 (startAddr + size + pageSize - 1) = stop at hi hlt
  unfold alignPage pageSize at hi ⊢
  omega

/-- A region that is free is allocated and freed again without a trace exactly if no table is made
for it over mappings in use. -/
theorem allocate_free_neutral_iff {s : PagingState} {known : List Nat} {dir startAddr size : Nat}
    (hs : s.Tracked) (htaken : s.marked 0 = true) (hvacant : s.VacantAll known)
    (hdir : dir ∈ known) (hfree : s.checkRegionAvailability startAddr size dir = .ok 1)
    (hroom : s.markedFrames + s.framesNeeded startAddr size dir ≤ 2 ^ 20)
    (isKernel isWritable : Int) :
    ∃ t u, s.allocateMemoryRegion startAddr size isKernel isWritable dir = .ok t ∧
      t.freeMemoryRegion startAddr size dir = .ok u ∧
      (Neutral s u known dir ↔
        SparesMappings known
          (s.regionTables (memoryRegion startAddr size) isKernel isWritable dir)) := by
  obtain ⟨t, ht⟩ := allocatePages_ok isKernel isWritable htaken hroom
  obtain ⟨u, hu, hreleased⟩ := unmapPages_released t (memoryRegion startAddr size) dir
  refine ⟨t, u, ht, hu, ?_⟩
  have hregion := (s.checkRegionAvailability_eq_one_iff startAddr size dir).1 hfree
  rcases (Filled.start hs known dir).run hdir htaken hvacant (fun _ => lt_of_mem_memoryRegion)
      hregion (List.nil_append _) ht with ⟨hspare, news, hfilled⟩ | ⟨hspare, hdamaged⟩
  · exact iff_of_true (hfilled.neutral hs hu) hspare
  · exact iff_of_false (hdamaged.not_neutral hreleased) hspare

end PagingState

/-! ## Whole runs -/

namespace PagingSystem

/-- What every reachable state has, so that a region can be given back. -/
structure Restores (y : PagingSystem) : Prop where
  tracked : y.state.Tracked
  overlaps : y.Overlaps
  vacant : y.state.VacantAll y.known

theorem restores_initialized {s t : PagingState} {totalMemoryKb : Nat}
    (hcounter : s.totalAllocatedFrames < 2 ^ 32)
    (h : s.initializePagingSystem totalMemoryKb = .ok t) : (initialized t).Restores := by
  refine ⟨⟨fun frame hframe => ?_, ?_⟩, (ownsTables_initialized h).1.overlaps,
    vacant_initialized h⟩
  · have hlow := (PagingState.marked_initializePagingSystem h frame).1 hframe
    omega
  · have hkept : (initialized t).state.totalAllocatedFrames = s.totalAllocatedFrames :=
      (PagingState.initializePagingSystem_totals h).1
    rw [hkept]
    exact hcounter

theorem Restores.pageStep {y z : PagingSystem} {a : PageAction} (hy : y.Restores)
    (h : y.pageStep a = some z) : z.Restores := by
  cases a with
  | operation a =>
      obtain ⟨n, _, hdrift, _⟩ := step_drifts hy.tracked h
      exact ⟨hdrift.tracked, hy.overlaps.step h, step_vacant hy.vacant h⟩
  | getPageEntry address dir =>
      obtain ⟨_, s, page, hs, rfl⟩ := pageStep_getPageEntry h
      exact ⟨(PagingState.getPageEntry_drifts hy.tracked hs).tracked,
        ⟨hy.overlaps.known, hy.overlaps.first.getPageEntry hs⟩, hy.vacant.getPageEntry hs⟩

theorem Restores.reachable {y z : PagingSystem} (hy : y.Restores)
    (h : Reachable PagingSystem.pageStep y z) : z.Restores :=
  h.invariant (fun _ _ _ hu hstep => hu.pageStep hstep) hy

/-- `y` allocates a region, and `z` is what is left when it has been freed. -/
def AllocatesAndFrees (y z : PagingSystem) (startAddr size : BitVec 32) (isKernel isWritable : Int)
    (dir : Nat) : Prop :=
  exec step y [.allocateMemoryRegion startAddr size isKernel isWritable dir,
    .freeMemoryRegion startAddr size dir] = some z

theorem Restores.neutral_iff {y : PagingSystem} (hy : y.Restores) {dir : Nat} (hdir : dir ∈ y.known)
    {startAddr size : BitVec 32}
    (hfree : y.state.checkRegionAvailability startAddr.toNat size.toNat dir = .ok 1)
    (hroom : y.state.markedFrames + y.state.framesNeeded startAddr.toNat size.toNat dir ≤ 2 ^ 20)
    (isKernel isWritable : Int) :
    ∃ z, y.AllocatesAndFrees z startAddr size isKernel isWritable dir ∧
      (PagingState.Neutral y.state z.state y.known dir ↔
        PagingState.SparesMappings y.known
          (y.tableRequests (.allocateMemoryRegion startAddr size isKernel isWritable dir))) := by
  obtain ⟨t, u, ht, hu, hiff⟩ := PagingState.allocate_free_neutral_iff hy.tracked
    hy.overlaps.first.taken hy.vacant hdir hfree hroom isKernel isWritable
  refine ⟨{ y with state := u }, ?_, hiff⟩
  have hallocate : y.step (.allocateMemoryRegion startAddr size isKernel isWritable dir) =
      some { y with state := t } := by
    simp only [step, hdir, if_true]
    exact congrArg y.withState ht
  have hrelease : step { y with state := t } (.freeMemoryRegion startAddr size dir) =
      some { y with state := u } := by
    simp only [step, hdir, if_true]
    exact congrArg y.withState hu
  unfold AllocatesAndFrees
  simp only [exec_cons, exec_nil, hallocate, hrelease, Option.bind_some]

/-! ### The page behind the first table -/

theorem memoryRegion_secondTable :
    PagingState.memoryRegion (0x400000#32).toNat (0x1000#32).toNat = [0x400000] := by
  decide

theorem tableRequests_secondTable (y : PagingSystem) :
    y.tableRequests (.allocateMemoryRegion 0x400000#32 0x1000#32 1 1 0) =
      y.state.getPageEntryRequests 0x400000 0 := by
  rw [tableRequests, memoryRegion_secondTable, PagingState.loopRequests]
  cases PagingState.allocateRound 1 1 0 y.state 0x400000 with
  | error => exact List.append_nil _
  | ok => exact List.append_nil _

theorem getPageEntryRequests_secondTable {s : PagingState} (hone : s.OneTable) :
    s.getPageEntryRequests 0x400000 0 = [s.request] := by
  unfold PagingState.getPageEntryRequests
  rw [if_neg]
  intro hnull
  exact absurd (hone _ hnull) (by decide)

/-- Without a second table its pages are free. -/
theorem secondTable_free {s : PagingState} (hone : s.OneTable) :
    s.checkRegionAvailability (0x400000#32).toNat (0x1000#32).toNat 0 = .ok 1 ∧
      s.framesNeeded (0x400000#32).toNat (0x1000#32).toNat 0 ≤ 2 := by
  constructor
  · rw [PagingState.checkRegionAvailability_eq_one_iff, memoryRegion_secondTable]
    intro current hmem
    rw [List.mem_singleton.1 hmem]
    refine PagingState.frameOf_none ?_
    unfold PagingState.pageRef
    refine if_neg fun hnull => ?_
    exact absurd (hone _ hnull) (by decide)
  · unfold PagingState.framesNeeded
    rw [memoryRegion_secondTable]
    exact s.pagesNeed_le 0 [0x400000]

/-- In every state that is reached from initialisation, a region that is free and for which there are
frames is allocated and freed again without a trace exactly if no page table is made for it in a
frame that holds present entries of a table in use. -/
theorem regionNeutral_iff {s t : PagingState} {totalMemoryKb : Nat}
    (hcounter : s.totalAllocatedFrames < 2 ^ 32)
    (h : s.initializePagingSystem totalMemoryKb = .ok t) {y : PagingSystem}
    (hreach : Reachable pageStep (initialized t) y) {dir : Nat} (hdir : dir ∈ y.known)
    {startAddr size : BitVec 32}
    (hfree : y.state.checkRegionAvailability startAddr.toNat size.toNat dir = .ok 1)
    (hroom : y.state.markedFrames + y.state.framesNeeded startAddr.toNat size.toNat dir ≤ 2 ^ 20)
    (isKernel isWritable : Int) :
    ∃ z, y.AllocatesAndFrees z startAddr size isKernel isWritable dir ∧
      (PagingState.Neutral y.state z.state y.known dir ↔
        PagingState.SparesMappings y.known
          (y.tableRequests (.allocateMemoryRegion startAddr size isKernel isWritable dir))) :=
  ((restores_initialized hcounter h).reachable hreach).neutral_iff hdir hfree hroom isKernel
    isWritable

/-- Right after initialisation a page behind the first 4 MiB is allocated and freed without a
trace. -/
theorem regionNeutral_second_table :
    ∃ t z, PagingState.boot.initializePagingSystem 65536 = .ok t ∧
      (initialized t).AllocatesAndFrees z 0x400000#32 0x1000#32 1 1 0 ∧
        PagingState.Neutral t z.state (initialized t).known 0 := by
  rcases PagingState.initializePagingSystem_ok PagingState.boot 65536 with ⟨t, ht, _⟩
  rcases ownsTables_initialized ht with ⟨hown, _⟩
  obtain ⟨hfree, hneed⟩ := secondTable_free (s := (initialized t).state)
    (PagingState.initializePagingSystem_oneTable ht)
  have hmarked : (initialized t).state.markedFrames = 1024 :=
    PagingState.markedFrames_initializePagingSystem ht
  obtain ⟨z, hz, hiff⟩ := regionNeutral_iff (by decide) ht (Reachable.refl (initialized t))
    hown.overlaps.known hfree (by rw [hmarked]; omega) 1 1
  refine ⟨t, z, ht, hz, hiff.2 ?_⟩
  rw [tableRequests_secondTable]
  exact (sparesTables_initialized ht 0x400000).sparesMappings

/-- After page 1 has been unmapped, the table for the region is made in the frame of the first one,
and page 2 is not present any more. -/
theorem regionNeutral_false :
    ¬ ∀ (s t : PagingState) (totalMemoryKb : Nat) (y : PagingSystem) (dir : Nat)
      (startAddr size : BitVec 32) (isKernel isWritable : Int),
      s.totalAllocatedFrames < 2 ^ 32 → s.initializePagingSystem totalMemoryKb = .ok t →
      Reachable pageStep (initialized t) y → dir ∈ y.known →
      y.state.checkRegionAvailability startAddr.toNat size.toNat dir = .ok 1 →
      y.state.markedFrames + y.state.framesNeeded startAddr.toNat size.toNat dir ≤ 2 ^ 20 →
      ∃ z, y.AllocatesAndFrees z startAddr size isKernel isWritable dir ∧
        PagingState.Neutral y.state z.state y.known dir := by
  intro hall
  rcases PagingState.initializePagingSystem_ok PagingState.boot 65536 with ⟨t, ht, _⟩
  rcases exec_free_firstTable ht with ⟨y, hy, hdir, hfirst, hone, hclear, hpresent, hmarked⟩
  have hreach : Reachable pageStep (initialized t) y := ⟨_, hy⟩
  have hcounter : PagingState.boot.totalAllocatedFrames < 2 ^ 32 := by decide
  have hrestores := (restores_initialized hcounter ht).reachable hreach
  obtain ⟨hfree, hneed⟩ := secondTable_free hone
  have hroom : y.state.markedFrames +
      y.state.framesNeeded (0x400000#32).toNat (0x1000#32).toNat 0 ≤ 2 ^ 20 := by
    have hfewer : y.state.markedFrames ≤ t.markedFrames :=
      Bitmap.count_mono _ fun frame hframe => hmarked frame hframe
    rw [PagingState.markedFrames_initializePagingSystem ht] at hfewer
    omega
  obtain ⟨z, hz, hneutral⟩ := hall _ t _ y 0 _ _ 1 1 hcounter ht hreach hdir hfree hroom
  obtain ⟨z', hz', hiff⟩ := hrestores.neutral_iff hdir hfree hroom 1 1
  cases Option.some.inj (hz.symm.trans hz')
  have hspare := hiff.1 hneutral
  rw [tableRequests_secondTable, getPageEntryRequests_secondTable hone] at hspare
  -- the answer is the frame of the first table
  have habsent := hspare _ (List.mem_singleton_self _) { table := pageSize, index := 2 }
    (by rw [PagingState.answer_request, PagingState.findFirstFreeFrame_next hfirst.taken hclear])
    (by decide) ⟨by decide, 0, hdir, 0, by decide, hfirst.next⟩
  have hthere : (y.state.request.state.entry { table := pageSize, index := 2 }).present = true :=
    hpresent
  rw [hthere] at habsent
  cases habsent

end PagingSystem

end Paging
end WhitexKernel
