import WhitexKernel.Paging.Translation

/-!
# Vacant — an entry that is not present has no frame

`allocate_frame` leaves an entry with a frame alone, present or not.  It never meets one that has a
frame and is not present: what clears the one clears the other.
-/

namespace WhitexKernel
namespace Paging

open Lib Machine

namespace PagingState

/-- The entries of these tables that are not present have frame 0. -/
def VacantOn (s : PagingState) (tables : Set Nat) : Prop :=
  ∀ page : EntryRef, page.table ∈ tables → (s.entry page).present = false →
    (s.entry page).frame = 0

/-- Those of the tables of the known directories. -/
abbrev VacantAll (s : PagingState) (known : List Nat) : Prop := s.VacantOn (s.mappedTables known)

variable {s t : PagingState} {tables : Set Nat} {known : List Nat}

theorem mappedTables_congr (h : t.directories = s.directories) (known : List Nat) :
    t.mappedTables known = s.mappedTables known := by
  unfold mappedTables
  rw [h]

/-- A directory that is given a table maps no others than before. -/
theorem mem_mappedTables_setDirectory {dir i table mapped : Nat} {d : PageDirectory}
    (htables : d.tables = Function.update (s.directories dir).tables i table)
    (h : mapped ∈ (s.setDirectory dir d).mappedTables known) :
    mapped ∈ s.mappedTables known ∨ mapped = table ∧ table ≠ 0 := by
  obtain ⟨hnull, dir', hknown, j, hj⟩ := h
  by_cases hdir : dir' = dir
  · subst hdir
    have hj : d.tables j = mapped := by simpa [setDirectory] using hj
    rw [htables] at hj
    by_cases hji : j = i
    · rw [hji, Function.update_self] at hj
      exact .inr ⟨hj.symm, hj ▸ hnull⟩
    · rw [Function.update_of_ne hji] at hj
      exact .inl ⟨hnull, dir', hknown, j, hj⟩
  · have hj : (s.directories dir').tables j = mapped := by simpa [setDirectory, hdir] using hj
    exact .inl ⟨hnull, dir', hknown, j, hj⟩

/-- An empty directory maps none. -/
theorem mappedTables_setDirectory_empty {dir : Nat} {d : PageDirectory}
    (hempty : ∀ i, d.tables i = 0) :
    (s.setDirectory dir d).mappedTables (dir :: known) ⊆ s.mappedTables known := by
  rintro mapped ⟨hnull, dir', hknown, j, hj⟩
  by_cases hdir : dir' = dir
  · subst hdir
    have hj : d.tables j = mapped := by simpa [setDirectory] using hj
    rw [hempty] at hj
    exact absurd hj.symm hnull
  · have hj : (s.directories dir').tables j = mapped := by simpa [setDirectory, hdir] using hj
    exact ⟨hnull, dir', List.mem_of_ne_of_mem hdir hknown, j, hj⟩

namespace VacantOn

theorem mono {more : Set Nat} (h : s.VacantOn more) (hsub : tables ⊆ more) : s.VacantOn tables :=
  fun page htable => h page (hsub htable)

theorem congr (h : s.VacantOn tables) (hentries : ∀ page, t.entry page = s.entry page) :
    t.VacantOn tables := by
  intro page htable habsent
  rw [hentries] at habsent ⊢
  exact h page htable habsent

/-- An entry may be set to a vacant or a present one. -/
theorem setEntry (h : s.VacantOn tables) (page : EntryRef) {e : PageTableEntry}
    (he : e.present = false → e.frame = 0) : (s.setEntry page e).VacantOn tables := by
  intro other htable habsent
  rw [entry_setEntry] at habsent ⊢
  split
  case isTrue heq =>
    rw [if_pos heq] at habsent
    exact he habsent
  case isFalse hne =>
    rw [if_neg hne] at habsent
    exact h other htable habsent

theorem zeroTable (h : s.VacantOn tables) (table : Nat) :
    (s.zeroTable table).VacantOn (insert table tables) := by
  intro page htable habsent
  rw [entry_zeroTable] at habsent ⊢
  split
  · rfl
  case isFalse hne =>
    rw [if_neg hne] at habsent
    exact h page (Set.mem_of_mem_insert_of_ne htable hne) habsent

theorem allocateFrame {page : EntryRef} {isKernel isWritable : Int} (hs : s.VacantOn tables)
    (h : s.allocateFrame page isKernel isWritable = .ok t) : t.VacantOn tables := by
  rcases allocateFrame_cases h with ⟨_, rfl⟩ | ⟨_, _, rfl⟩
  · exact hs
  · have hset := setEntry (s := s.bitmapSetBit s.findFirstFreeFrame) hs page
      (e := { s.entry page with
        present := true
        rw := isWritable == 1
        user := !(isKernel == 1)
        frame := s.findFirstFreeFrame / pageSize }) fun habsent => by cases habsent
    exact hset.congr fun other => entry_withCount _ _ other

/-- Freeing the frame of an entry and clearing its present bit leaves it vacant. -/
theorem unmap (hs : s.VacantOn tables) (page : EntryRef) :
    ((s.freeFrame page).setEntry page
      { (s.freeFrame page).entry page with present := false }).VacantOn tables := by
  by_cases hframe : (s.entry page).frame = 0
  · have hfree : s.freeFrame page = s := by
      unfold PagingState.freeFrame
      simp [hframe]
    rw [hfree]
    exact hs.setEntry page fun _ => hframe
  · have hzero : ((s.freeFrame page).entry page).frame = 0 := by
      rw [freeFrame_eq hframe, entry_withCount, entry_setEntry_self]
    have hfreed : (s.freeFrame page).VacantOn tables := by
      rw [freeFrame_eq hframe]
      have hset := setEntry (s := s.bitmapClearBit ((s.entry page).frame * pageSize)) hs page
        (e := { s.entry page with
          present := false
          frame := 0 }) fun _ => rfl
      exact hset.congr fun other => entry_withCount _ _ other
    exact hfreed.setEntry page fun _ => hzero

theorem cloneEntry {src newTable i : Nat} (hs : s.VacantOn tables)
    (h : PagingState.cloneEntry src newTable s i = .ok t) : t.VacantOn tables := by
  unfold PagingState.cloneEntry at h
  split at h
  case isTrue hpresent =>
    rcases Outcome.bind_eq_ok.1 h with ⟨u, halloc, hrest⟩
    cases hrest
    -- what is copied is present, also where an entry is copied over itself
    have hstill : (u.entry { table := src, index := i }).present = true := by
      rcases allocateFrame_cases halloc with ⟨_, rfl⟩ | ⟨_, _, rfl⟩
      · exact hpresent
      · rw [entry_withCount, entry_setEntry]
        split
        · rfl
        · exact hpresent
    refine (hs.allocateFrame halloc).setEntry _ fun habsent => ?_
    rw [show (u.tables src i).present = true from hstill] at habsent
    cases habsent
  case isFalse =>
    cases h
    exact hs

end VacantOn

namespace VacantAll

theorem of_directories {u : PagingState} (h : u.VacantOn (s.mappedTables known))
    (hdirs : u.directories = s.directories) : u.VacantAll known := by
  unfold VacantAll
  rw [mappedTables_congr hdirs]
  exact h

/-- A directory may be given a table whose entries are good already, or `NULL`. -/
theorem setTable {dir i table : Nat} {d : PageDirectory}
    (hs : s.VacantAll known) (h : table ≠ 0 → s.VacantOn (insert table (s.mappedTables known)))
    (htables : d.tables = Function.update (s.directories dir).tables i table) :
    (s.setDirectory dir d).VacantAll known := by
  intro page hmapped habsent
  rcases mem_mappedTables_setDirectory htables hmapped with hold | ⟨hnew, hnull⟩
  · exact hs page hold habsent
  · exact h hnull page (.inl hnew) habsent

theorem getPageEntry {address dir : Nat} {make : Bool} {page : Option EntryRef}
    (hs : s.VacantAll known) (h : s.getPageEntry address make dir = .ok (t, page)) :
    t.VacantAll known := by
  unfold PagingState.getPageEntry at h
  dsimp only at h
  split at h
  · cases h
    exact hs
  · split at h
    · split at h
      · cases h
      · cases h
        have hnew := VacantOn.zeroTable (s := s.bitmapSetBit s.findFirstFreeFrame) hs
          s.findFirstFreeFrame
        exact setTable (hnew.mono (Set.subset_insert _ _)) (fun _ => hnew) rfl
    · cases h
      exact hs

theorem allocateFrame {page : EntryRef} {isKernel isWritable : Int} (hs : s.VacantAll known)
    (h : s.allocateFrame page isKernel isWritable = .ok t) : t.VacantAll known :=
  of_directories (VacantOn.allocateFrame hs h) (allocateFrame_directories h)

theorem mapVirtualToPhysical {virtualAddr physicalAddr dir : Nat} {isKernel isWritable : Int}
    (hs : s.VacantAll known)
    (h : s.mapVirtualToPhysical virtualAddr physicalAddr isKernel isWritable dir = .ok t) :
    t.VacantAll known := by
  unfold PagingState.mapVirtualToPhysical at h
  rcases Outcome.bind_eq_ok.1 h with ⟨⟨u, page⟩, hpage, hrest⟩
  have hu := hs.getPageEntry hpage
  cases page with
  | none => cases hrest
  | some page =>
      cases hrest
      exact VacantOn.setEntry hu page fun habsent => by cases habsent

theorem unmapVirtualPage {virtualAddr dir : Nat} (hs : s.VacantAll known)
    (h : s.unmapVirtualPage virtualAddr dir = .ok t) : t.VacantAll known := by
  have hdirs := (released_of_unmapVirtualPage h).directories
  unfold PagingState.unmapVirtualPage at h
  rcases Outcome.bind_eq_ok.1 h with ⟨⟨u, page⟩, hpage, hrest⟩
  rw [getPageEntry_lookup] at hpage
  cases hpage
  cases hpage : s.pageRef virtualAddr dir with
  | none =>
      rw [hpage] at hrest
      cases hrest
      exact hs
  | some page =>
      rw [hpage] at hrest
      dsimp only at hrest
      split at hrest
      · cases hrest
        exact of_directories (VacantOn.unmap hs page) hdirs
      · cases hrest
        exact hs

theorem allocateRound {current dir : Nat} {isKernel isWritable : Int} (hs : s.VacantAll known)
    (h : allocateRound isKernel isWritable dir s current = .ok t) : t.VacantAll known := by
  unfold PagingState.allocateRound at h
  rcases Outcome.bind_eq_ok.1 h with ⟨⟨u, page⟩, hpage, hrest⟩
  have hu := hs.getPageEntry hpage
  cases page with
  | none => cases hrest
  | some page => exact hu.allocateFrame hrest

theorem pageFaultHandler {faultingAddress : Nat} {errCode : BitVec 32} (hs : s.VacantAll known)
    (h : s.pageFaultHandler faultingAddress errCode = .ok t) : t.VacantAll known := by
  unfold PagingState.pageFaultHandler at h
  dsimp only at h
  split at h
  · cases h
  · rcases Outcome.bind_eq_ok.1 h with ⟨⟨u, page⟩, hpage, hrest⟩
    have hu := hs.getPageEntry hpage
    cases page with
    | none => cases hrest
    | some page =>
        dsimp only at hrest
        split at hrest
        · cases hrest
        · exact hu.allocateFrame hrest

/-- A clone of a table is as good as the tables there are. -/
theorem clonePageTable {src physicalAddr newTable phys : Nat}
    (h : s.clonePageTable src physicalAddr = .ok (t, newTable, phys)) (hs : s.VacantOn tables) :
    t.VacantOn tables ∧ (newTable ≠ 0 → t.VacantOn (insert newTable tables)) := by
  unfold PagingState.clonePageTable at h
  dsimp only at h
  split at h
  · cases h
    exact ⟨hs, fun hnull => absurd rfl hnull⟩
  · rcases Outcome.bind_eq_ok.1 h with ⟨u, hloop, hrest⟩
    simp only [Except.ok.injEq, Prod.mk.injEq] at hrest
    rcases hrest with ⟨rfl, rfl, _⟩
    have hstart := VacantOn.zeroTable (s := s.bitmapSetBit s.findFirstFreeFrame) hs
      s.findFirstFreeFrame
    have hend : u.VacantOn (insert s.findFirstFreeFrame tables) :=
      Outcome.foldlM_invariant (I := fun v => v.VacantOn (insert s.findFirstFreeFrame tables))
        (fun _ _ _ _ hv hround => VacantOn.cloneEntry hv hround) hstart hloop
    exact ⟨hend.mono (Set.subset_insert _ _), fun _ => hend⟩

theorem cloneDirectoryEntry {src newDir phys i : Nat} (hsrc : src ∈ known) (hs : s.VacantAll known)
    (h : cloneDirectoryEntry src newDir phys s i = .ok t) : t.VacantAll known := by
  unfold PagingState.cloneDirectoryEntry at h
  dsimp only at h
  split at h
  · cases h
    exact hs
  case isFalse hnull =>
    split at h
    · cases h
      -- a kernel table is shared, and was known before
      refine hs.setTable ?_ rfl
      intro _
      have hmem : (s.directories src).tables i ∈ s.mappedTables known := ⟨hnull, src, hsrc, i, rfl⟩
      rw [Set.insert_eq_of_mem hmem]
      exact hs
    · rcases Outcome.bind_eq_ok.1 h with ⟨⟨u, newTable, phys'⟩, hclone, hrest⟩
      cases hrest
      have hdirs : u.directories = s.directories := (clonePageTable_onlyMarks hclone).1.directories
      obtain ⟨hold, hnew⟩ := clonePageTable hclone hs
      rw [← mappedTables_congr hdirs] at hold hnew
      exact setTable hold hnew rfl

/-- The new directory is as good as the known ones. -/
theorem clonePageDirectory {src phys newDir : Nat} (hsrc : src ∈ known) (hs : s.VacantAll known)
    (h : s.clonePageDirectory src phys = .ok (t, newDir)) :
    t.VacantAll known ∧ (newDir ≠ 0 → t.VacantAll (newDir :: known)) := by
  unfold PagingState.clonePageDirectory at h
  dsimp only at h
  split at h
  · cases h
    exact ⟨hs, fun hnull => absurd rfl hnull⟩
  · rcases Outcome.bind_eq_ok.1 h with ⟨u, hloop, hrest⟩
    simp only [Except.ok.injEq, Prod.mk.injEq] at hrest
    rcases hrest with ⟨rfl, rfl⟩
    -- the new directory has no tables yet, so it maps nothing that is not vacant
    have hstart : ((s.bitmapSetBit s.findFirstFreeFrame).setDirectory s.findFirstFreeFrame
        { PageDirectory.zero with
          physicalAddress := wrap32 (s.findFirstFreeFrame + 4 * directoryEntries) }).VacantAll
            (s.findFirstFreeFrame :: known) :=
      VacantOn.mono (s := s.bitmapSetBit s.findFirstFreeFrame) hs
        (mappedTables_setDirectory_empty fun _ => rfl)
    have hend := Outcome.foldlM_invariant
      (fun _ _ _ _ hv hround => cloneDirectoryEntry (List.mem_cons_of_mem _ hsrc) hv hround)
      hstart hloop
    refine ⟨hend.mono ?_, fun _ => hend⟩
    rintro table ⟨hnull, dir, hknown, i, hi⟩
    exact ⟨hnull, dir, List.mem_cons_of_mem _ hknown, i, hi⟩

end VacantAll

end PagingState

/-! ## Whole runs -/

namespace PagingSystem

theorem vacant_initialized {s t : PagingState} {totalMemoryKb : Nat}
    (h : s.initializePagingSystem totalMemoryKb = .ok t) :
    t.VacantAll (initialized t).known := by
  have hknown : (initialized t).known = [0] := by
    rcases PagingState.initializePagingSystem_ok s totalMemoryKb with ⟨t', ht', hinit⟩
    cases ht'.symm.trans h
    unfold initialized
    rw [hinit.kernel]
  rw [hknown]
  unfold PagingState.initializePagingSystem at h
  dsimp only at h
  rw [PagingState.findFirstFreeFrame_empty rfl, if_neg (by decide : ¬ (0 : Nat) = noFrame)] at h
  rcases Outcome.bind_eq_ok.1 h with ⟨u, hloop, hrest⟩
  cases hrest
  refine Outcome.foldlM_invariant (I := fun s => s.VacantAll [0])
    (fun _ _ _ _ hv hround => hv.mapVirtualToPhysical hround) ?_ hloop
  -- the kernel directory starts without tables
  rintro page ⟨hnull, dir, hdir, i, hi⟩
  rw [List.mem_singleton] at hdir
  subst hdir
  unfold PagingState.setDirectory at hi
  simp only [Function.update_self] at hi
  exact absurd hi.symm hnull

theorem step_vacant {y z : PagingSystem} {a : PagingAction} (hy : y.state.VacantAll y.known)
    (h : y.step a = some z) : z.state.VacantAll z.known := by
  cases step_turn h with
  | mapVirtualToPhysical _ hs => exact hy.mapVirtualToPhysical hs
  | unmapVirtualPage _ hs => exact hy.unmapVirtualPage hs
  | allocateMemoryRegion _ hs =>
      exact Outcome.foldlM_invariant (I := fun s => s.VacantAll y.known)
        (fun _ _ _ _ hv hround => hv.allocateRound hround) hy hs
  | freeMemoryRegion _ hs =>
      exact Outcome.foldlM_invariant (I := fun s => s.VacantAll y.known)
        (fun _ _ _ _ hv hround => hv.unmapVirtualPage hround) hy hs
  | identityMapRegion _ hs =>
      exact Outcome.foldlM_invariant (I := fun s => s.VacantAll y.known)
        (fun _ _ _ _ hv hround => hv.mapVirtualToPhysical hround) hy hs
  | cloneFailed hsrc hs => exact (hy.clonePageDirectory hsrc hs).1
  | cloned hsrc hs hnew => exact (hy.clonePageDirectory hsrc hs).2 hnew
  | switchPageDirectory => exact hy
  | pageFault hs => exact hy.pageFaultHandler hs

end PagingSystem

end Paging
end WhitexKernel
