import WhitexKernel.Paging.Detected
import WhitexKernel.Paging.Layout

/-!
# Translation — a page directory as a map from pages to frames

`frameOf` is the map that a directory stands for.  Mapping and unmapping a page change it at that page
and nowhere else, and making a table does not change it — as long as no table is made in a frame
that holds a table in use.  A table's frame counts as free once a page that was mapped to it has been
unmapped: right after initialisation page 1 is mapped to the first table itself.

* `OwnTables` — no table is used twice in a directory;
* `PagingSystem.translatesThroughout_run` — the translation over whole runs.
-/

namespace WhitexKernel
namespace Paging

open Lib Machine

namespace PagingState

/-! ## The map -/

/-- The frame that a directory maps the page of an address to. -/
def frameOf (s : PagingState) (dir virtualAddr : Nat) : Option Nat :=
  (s.pageRef virtualAddr dir).bind fun page =>
    if (s.entry page).present then some (s.entry page).frame else none

/-- What `get_physical_address` makes of it. -/
def physicalOf (virtualAddr : Nat) : Option Nat → Nat
  | some frame => wrap32 (frame * pageSize + virtualAddr % pageSize)
  | none => noFrame

theorem getPhysicalAddress_eq (s : PagingState) (virtualAddr dir : Nat) :
    s.getPhysicalAddress virtualAddr dir =
      .ok (physicalOf virtualAddr (s.frameOf dir virtualAddr)) := by
  unfold getPhysicalAddress frameOf
  rw [getPageEntry_lookup, Outcome.ok_bind]
  cases s.pageRef virtualAddr dir with
  | none => rfl
  | some page =>
      simp only [Option.bind_some]
      split <;> rfl

/-- The address of a byte of a frame needs no wrap-around. -/
theorem physicalOf_some (virtualAddr : Nat) (physicalAddr : BitVec 32) :
    physicalOf virtualAddr (some (physicalAddr.toNat / pageSize)) =
      alignPage physicalAddr.toNat + virtualAddr % pageSize := by
  have hlt := physicalAddr.isLt
  refine wrap32_of_lt ?_
  unfold pageSize
  omega

theorem pageRef_of_same_page (s : PagingState) {virtualAddr virtualAddr' : Nat} (dir : Nat)
    (h : virtualAddr' / pageSize = virtualAddr / pageSize) :
    s.pageRef virtualAddr' dir = s.pageRef virtualAddr dir := by
  unfold pageRef
  rw [h]

theorem frameOf_congr {s t : PagingState} (hdirs : t.directories = s.directories)
    (hentries : ∀ page, t.entry page = s.entry page) (dir virtualAddr : Nat) :
    t.frameOf dir virtualAddr = s.frameOf dir virtualAddr := by
  unfold frameOf
  simp only [pageRef_congr hdirs, hentries]

@[simp] theorem frameOf_bitmapSetBit (s : PagingState) (address dir virtualAddr : Nat) :
    (s.bitmapSetBit address).frameOf dir virtualAddr = s.frameOf dir virtualAddr :=
  frameOf_congr rfl (entry_bitmapSetBit s address) dir virtualAddr

theorem frameOf_setEntry (s : PagingState) (page : EntryRef) (e : PageTableEntry)
    (dir virtualAddr : Nat) :
    (s.setEntry page e).frameOf dir virtualAddr =
      if s.pageRef virtualAddr dir = some page then (if e.present then some e.frame else none)
      else s.frameOf dir virtualAddr := by
  have hdirs : (s.setEntry page e).directories = s.directories := rfl
  unfold frameOf
  rw [pageRef_congr hdirs]
  cases hpage : s.pageRef virtualAddr dir with
  | none => simp
  | some other =>
      simp only [Option.bind_some, entry_setEntry, Option.some.injEq]
      split <;> rfl

/-! ## Tables of their own -/

/-- No table is used twice in one of the directories. -/
def OwnTables (s : PagingState) (known : List Nat) : Prop :=
  ∀ dir ∈ known, ∀ i j, (s.directories dir).tables i ≠ 0 →
    (s.directories dir).tables j = (s.directories dir).tables i → j = i

/-- No request is answered by the frame of a table that is in use. -/
def SparesTables (known : List Nat) (requests : List Request) : Prop :=
  ∀ r ∈ requests, r.answer ∉ r.state.mappedTables known

theorem sparesTables_append {known : List Nat} {requests more : List Request} :
    SparesTables known (requests ++ more) ↔
      SparesTables known requests ∧ SparesTables known more := by
  unfold SparesTables
  simp only [List.forall_mem_append]

/-! ### The requests for new tables -/

def pageFaultTables (s : PagingState) (faultingAddress : Nat) (errCode : BitVec 32) :
    List Request :=
  let present := errCode &&& 0x1#32 == 0
  let reserved := errCode &&& 0x8#32 != 0
  let id := errCode &&& 0x10#32 != 0
  if present || reserved || id then []
  else s.getPageEntryRequests faultingAddress s.currentPageDirectory

def cloneDirectoryEntryTables (src : Nat) (s : PagingState) (i : Nat) : List Request :=
  let table := (s.directories src).tables i
  if table = 0 then []
  else if (s.directories s.kernelPageDirectory).tables i = table then []
  else [s.request]

def clonePageDirectoryTables (s : PagingState) (src phys : Nat) : List Request :=
  let newDir := s.findFirstFreeFrame
  if newDir = noFrame then []
  else
    loopRequests (cloneDirectoryEntry src newDir phys) (cloneDirectoryEntryTables src)
      (List.range directoryEntries)
      ((s.bitmapSetBit newDir).setDirectory newDir
        { PageDirectory.zero with physicalAddress := wrap32 (newDir + 4 * directoryEntries) })

/-! ### Operations -/

/-- Different pages have different entries. -/
theorem pageRef_eq_iff {s : PagingState} {known : List Nat} {dir virtualAddr virtualAddr' : Nat}
    {page : EntryRef} (hs : s.OwnTables known) (hdir : dir ∈ known)
    (hpage : s.pageRef virtualAddr dir = some page) :
    s.pageRef virtualAddr' dir = some page ↔ virtualAddr' / pageSize = virtualAddr / pageSize := by
  constructor
  · intro hpage'
    unfold pageRef at hpage hpage'
    simp only [Option.ite_none_right_eq_some, Option.some.injEq] at hpage hpage'
    rcases hpage with ⟨htable, rfl⟩
    rcases hpage' with ⟨_, heq⟩
    rcases EntryRef.mk.inj heq with ⟨hsame, hindex⟩
    -- the same table, and the same index in it
    have hdiv := hs dir hdir _ _ htable hsame
    rw [← Nat.div_add_mod (virtualAddr' / pageSize) pageEntries, hdiv, hindex, Nat.div_add_mod]
  · intro hsame
    rw [pageRef_of_same_page s dir hsame, hpage]

namespace OwnTables

variable {s t : PagingState} {known : List Nat}

theorem of_directories (hs : s.OwnTables known) (h : t.directories = s.directories) :
    t.OwnTables known := by
  unfold OwnTables
  rw [h]
  exact hs

theorem mono {fewer : List Nat} (hs : s.OwnTables known) (h : ∀ dir ∈ fewer, dir ∈ known) :
    s.OwnTables fewer := fun dir hdir => hs dir (h dir hdir)

/-- A directory may be given a table that it does not use yet. -/
theorem setTable {dir i table : Nat} {d : PageDirectory} (hs : s.OwnTables known)
    (hfresh : dir ∈ known → table ≠ 0 → ∀ j, j ≠ i → (s.directories dir).tables j ≠ table)
    (htables : d.tables = Function.update (s.directories dir).tables i table) :
    (s.setDirectory dir d).OwnTables known := by
  intro dir' hdir' a b hnull heq
  by_cases hdir : dir' = dir
  · subst hdir
    have hget : (s.setDirectory dir' d).directories dir' = d := Function.update_self _ _ _
    rw [hget, htables] at hnull heq
    -- two entries with one table: the new one is fresh, so neither is the new one
    by_cases ha : a = i <;> by_cases hb : b = i
    · rw [ha, hb]
    · rw [ha, Function.update_self] at hnull heq
      rw [Function.update_of_ne hb] at heq
      exact absurd heq (hfresh hdir' hnull b hb)
    · rw [Function.update_of_ne ha] at hnull heq
      rw [hb, Function.update_self] at heq
      exact absurd heq.symm (hfresh hdir' (heq ▸ hnull) a ha)
    · rw [Function.update_of_ne ha] at hnull heq
      rw [Function.update_of_ne hb] at heq
      exact hs dir' hdir' a b hnull heq
  · have hget : (s.setDirectory dir d).directories dir' = s.directories dir' :=
      Function.update_of_ne hdir _ _
    rw [hget] at hnull heq
    exact hs dir' hdir' a b hnull heq

theorem getPageEntry {address dir : Nat} {page : Option EntryRef} (hs : s.OwnTables known)
    (hspare : SparesTables known (s.getPageEntryRequests address dir))
    (h : s.getPageEntry address true dir = .ok (t, page)) : t.OwnTables known := by
  unfold PagingState.getPageEntry at h
  unfold getPageEntryRequests at hspare
  simp only [if_true] at h
  split at h
  case isTrue =>
    cases h
    exact hs
  case isFalse htable =>
    rw [if_neg htable] at hspare
    split at h
    · cases h
    cases h
    have hnew := hspare _ (List.mem_singleton_self _)
    rw [answer_request] at hnew
    have htaken : ((s.bitmapSetBit s.findFirstFreeFrame).zeroTable
        s.findFirstFreeFrame).OwnTables known := hs.of_directories rfl
    refine htaken.setTable (fun hdir hnull j _ heq => hnew ?_) rfl
    exact ⟨hnull, dir, hdir, j, heq⟩

theorem allocateFrame {page : EntryRef} {isKernel isWritable : Int} (hs : s.OwnTables known)
    (h : s.allocateFrame page isKernel isWritable = .ok t) : t.OwnTables known :=
  hs.of_directories (allocateFrame_directories h)

theorem mapVirtualToPhysical {virtualAddr physicalAddr dir : Nat} {isKernel isWritable : Int}
    (hs : s.OwnTables known)
    (hspare : SparesTables known (s.getPageEntryRequests virtualAddr dir))
    (h : s.mapVirtualToPhysical virtualAddr physicalAddr isKernel isWritable dir = .ok t) :
    t.OwnTables known := by
  unfold PagingState.mapVirtualToPhysical at h
  rcases Outcome.bind_eq_ok.1 h with ⟨⟨u, page⟩, hpage, hrest⟩
  have hu := hs.getPageEntry hspare hpage
  cases page with
  | none => cases hrest
  | some page =>
      cases hrest
      exact hu.of_directories rfl

/-- A loop whose rounds spare the tables. -/
theorem loop {round : PagingState → Nat → Except Halt PagingState}
    {requests : PagingState → Nat → List Request} {is : List Nat}
    (hround : ∀ i s t, s.OwnTables known → SparesTables known (requests s i) →
      round s i = .ok t → t.OwnTables known)
    (hs : s.OwnTables known) (hspare : SparesTables known (loopRequests round requests is s))
    (h : is.foldlM round s = .ok t) : t.OwnTables known := by
  induction is generalizing s with
  | nil =>
      cases h
      exact hs
  | cons i is ih =>
      rw [List.foldlM_cons, Outcome.bind_eq_ok] at h
      rcases h with ⟨u, hfirst, hrest⟩
      rw [loopRequests, hfirst, sparesTables_append] at hspare
      exact ih (hround i s u hs hspare.1 hfirst) hspare.2 hrest

theorem allocateRound {isKernel isWritable : Int} {dir current : Nat} (hs : s.OwnTables known)
    (hspare : SparesTables known (s.getPageEntryRequests current dir))
    (h : allocateRound isKernel isWritable dir s current = .ok t) : t.OwnTables known := by
  unfold PagingState.allocateRound at h
  rcases Outcome.bind_eq_ok.1 h with ⟨⟨u, page⟩, hpage, hrest⟩
  have hu := hs.getPageEntry hspare hpage
  cases page with
  | none => cases hrest
  | some page => exact hu.allocateFrame hrest

theorem pageFaultHandler {faultingAddress : Nat} {errCode : BitVec 32} (hs : s.OwnTables known)
    (hspare : SparesTables known (s.pageFaultTables faultingAddress errCode))
    (h : s.pageFaultHandler faultingAddress errCode = .ok t) : t.OwnTables known := by
  unfold PagingState.pageFaultHandler at h
  unfold pageFaultTables at hspare
  simp only at h hspare
  split at h
  · cases h
  case isFalse hresolvable =>
    rw [if_neg hresolvable] at hspare
    rcases Outcome.bind_eq_ok.1 h with ⟨⟨u, page⟩, hpage, hrest⟩
    have hu := hs.getPageEntry hspare hpage
    cases page with
    | none => cases hrest
    | some page =>
        simp only at hrest
        split at hrest
        · cases hrest
        · exact hu.allocateFrame hrest

end OwnTables

/-! ## Clones have tables of their own -/

/-- No directory changes, and no bit is cleared. -/
structure OnlyMarks (s t : PagingState) : Prop where
  directories : t.directories = s.directories
  marked : ∀ frame, s.marked frame = true → t.marked frame = true

theorem OnlyMarks.refl (s : PagingState) : s.OnlyMarks s := ⟨rfl, fun _ hframe => hframe⟩

theorem OnlyMarks.trans {s t u : PagingState} (h : s.OnlyMarks t) (h' : t.OnlyMarks u) :
    s.OnlyMarks u :=
  ⟨h'.directories.trans h.directories, fun frame hframe => h'.marked frame (h.marked frame hframe)⟩

theorem onlyMarks_bitmapSetBit (s : PagingState) (address : Nat) :
    s.OnlyMarks (s.bitmapSetBit address) :=
  ⟨rfl, fun frame hframe => (marked_bitmapSetBit s address frame).2 (.inr hframe)⟩

theorem onlyMarks_zeroTable (s : PagingState) (table : Nat) : s.OnlyMarks (s.zeroTable table) :=
  ⟨rfl, fun _ hframe => hframe⟩

theorem allocateFrame_onlyMarks {s t : PagingState} {page : EntryRef} {isKernel isWritable : Int}
    (h : s.allocateFrame page isKernel isWritable = .ok t) : s.OnlyMarks t := by
  refine ⟨allocateFrame_directories h, fun frame hframe => ?_⟩
  rcases allocateFrame_cases h with ⟨_, rfl⟩ | ⟨_, _, rfl⟩
  · exact hframe
  · rw [marked_withCount, marked_setEntry]
    exact (onlyMarks_bitmapSetBit s _).marked frame hframe

theorem cloneEntry_onlyMarks {s t : PagingState} {src newTable i : Nat}
    (h : cloneEntry src newTable s i = .ok t) : s.OnlyMarks t := by
  unfold cloneEntry at h
  split at h
  · rcases Outcome.bind_eq_ok.1 h with ⟨u, halloc, hrest⟩
    cases hrest
    have hu := allocateFrame_onlyMarks halloc
    exact ⟨hu.directories, hu.marked⟩
  · cases h
    exact OnlyMarks.refl _

/-- The frame of a clone of a table was free, and is marked afterwards. -/
theorem clonePageTable_onlyMarks {s t : PagingState} {src physicalAddr newTable phys : Nat}
    (h : s.clonePageTable src physicalAddr = .ok (t, newTable, phys)) :
    s.OnlyMarks t ∧ (newTable ≠ 0 → newTable = s.findFirstFreeFrame ∧
      s.findFirstFreeFrame ≠ noFrame ∧ t.marked (newTable / pageSize) = true) := by
  unfold clonePageTable at h
  simp only at h
  split at h
  · cases h
    exact ⟨OnlyMarks.refl _, fun hnull => absurd rfl hnull⟩
  case isFalse hfound =>
    rcases Outcome.bind_eq_ok.1 h with ⟨u, hloop, hrest⟩
    simp only [Except.ok.injEq, Prod.mk.injEq] at hrest
    rcases hrest with ⟨rfl, rfl, _⟩
    have hstart := onlyMarks_zeroTable (s.bitmapSetBit s.findFirstFreeFrame) s.findFirstFreeFrame
    have hkept : (s.bitmapSetBit s.findFirstFreeFrame).OnlyMarks u :=
      Outcome.foldlM_invariant (fun i _ v w hv hround => hv.trans (cloneEntry_onlyMarks hround))
        hstart hloop
    refine ⟨(onlyMarks_bitmapSetBit s _).trans hkept, fun _ => ⟨rfl, hfound, hkept.marked _ ?_⟩⟩
    exact (marked_bitmapSetBit s _ _).2 (.inl rfl)

/-- A table of the directory that is being cloned into: there is none yet, or it is shared, or its
frame has been taken for it. -/
def ClonedTable (s : PagingState) (src newDir i : Nat) : Prop :=
  let table := (s.directories newDir).tables i
  table = 0 ∨ table = (s.directories src).tables i ∨
    s.marked (table / pageSize) = true ∧ ∀ j, (s.directories src).tables j ≠ table

theorem clonedTable_setDirectory {s u : PagingState} {src newDir i table : Nat}
    {d : PageDirectory} (hs : ∀ j, s.ClonedTable src newDir j) (hmarks : s.OnlyMarks u)
    (htable : table = 0 ∨ table = (s.directories src).tables i ∨
      u.marked (table / pageSize) = true ∧ ∀ j, (s.directories src).tables j ≠ table)
    (htables : d.tables = Function.update (u.directories newDir).tables i table) (j : Nat) :
    (u.setDirectory newDir d).ClonedTable src newDir j := by
  have hnew : (u.setDirectory newDir d).directories newDir = d := Function.update_self _ _ _
  unfold ClonedTable
  by_cases hsrc : src = newDir
  · exact .inr (.inl (by rw [hsrc]))
  · have hold : (u.setDirectory newDir d).directories src = s.directories src := by
      rw [← hmarks.directories]
      exact Function.update_of_ne hsrc _ _
    simp only [hnew, hold, htables, marked_setDirectory, hmarks.directories]
    by_cases hj : j = i
    · rw [hj, Function.update_self]
      exact htable
    · rw [Function.update_of_ne hj]
      rcases hs j with hzero | hsame | ⟨hmarked, hother⟩
      · exact .inl hzero
      · exact .inr (.inl hsame)
      · exact .inr (.inr ⟨hmarks.marked _ hmarked, hother⟩)

/-- The loop of `clone_page_directory` after some rounds. -/
structure Cloning (s : PagingState) (known : List Nat) (src newDir : Nat) : Prop where
  own : s.OwnTables (newDir :: known)
  tables : ∀ i, s.ClonedTable src newDir i

theorem Cloning.round {s t : PagingState} {known : List Nat} {src newDir phys i : Nat}
    (hs : s.Cloning known src newDir) (hsrc : src ∈ known)
    (hspare : SparesTables known (cloneDirectoryEntryTables src s i))
    (h : cloneDirectoryEntry src newDir phys s i = .ok t) : t.Cloning known src newDir := by
  have hown := hs.own src (List.mem_cons_of_mem _ hsrc)
  unfold cloneDirectoryEntry at h
  unfold cloneDirectoryEntryTables at hspare
  simp only at h hspare
  split at h
  · cases h
    exact hs
  case isFalse hnull =>
    rw [if_neg hnull] at hspare
    split at h
    case isTrue hshared =>
      cases h
      refine ⟨hs.own.setTable (fun _ _ j hj heq => ?_) rfl,
        clonedTable_setDirectory hs.tables (OnlyMarks.refl s) (.inr (.inl rfl)) rfl⟩
      -- the table is that of `src` at the same place, so at no other place
      rcases hs.tables j with hzero | hsame | ⟨_, hother⟩
      · exact hnull (heq.symm.trans hzero)
      · exact hj (hown i j hnull (hsame.symm.trans heq))
      · exact hother i heq.symm
    case isFalse hkernel =>
      rw [if_neg hkernel] at hspare
      rcases Outcome.bind_eq_ok.1 h with ⟨⟨u, newTable, phys'⟩, hclone, hrest⟩
      cases hrest
      rcases clonePageTable_onlyMarks hclone with ⟨hmarks, hnew⟩
      have hrequest : s.findFirstFreeFrame ∉ s.mappedTables known := by
        have hfirst := hspare s.request (List.mem_singleton_self _)
        rwa [answer_request] at hfirst
      -- the new table is none of `src`, and its frame was free until now
      have hother : newTable ≠ 0 → ∀ j, (s.directories src).tables j ≠ newTable := by
        intro hnull' j heq
        rw [(hnew hnull').1] at heq hnull'
        exact hrequest ⟨hnull', src, hsrc, j, heq⟩
      refine ⟨(hs.own.of_directories hmarks.directories).setTable
          (fun _ hnull' j _ hsame => ?_) rfl,
        clonedTable_setDirectory hs.tables hmarks ?_ rfl⟩
      · have heq : (s.directories newDir).tables j = newTable := by
          rw [← hmarks.directories]
          exact hsame
        rcases hs.tables j with hzero | hsame | ⟨hmarked, _⟩
        · exact hnull' (heq.symm.trans hzero)
        · exact hother hnull' j (hsame.symm.trans heq)
        · rcases hnew hnull' with ⟨hframe, hfound, _⟩
          have hfree := not_marked_findFirstFreeFrame hfound
          rw [← hframe, ← heq, hmarked] at hfree
          cases hfree
      · by_cases hnull' : newTable = 0
        · exact .inl hnull'
        · exact .inr (.inr ⟨(hnew hnull').2.2, hother hnull'⟩)

theorem Cloning.loop {s t : PagingState} {known is : List Nat} {src newDir phys : Nat}
    (hsrc : src ∈ known) (hs : s.Cloning known src newDir)
    (hspare : SparesTables known (loopRequests (cloneDirectoryEntry src newDir phys)
      (cloneDirectoryEntryTables src) is s))
    (h : is.foldlM (cloneDirectoryEntry src newDir phys) s = .ok t) :
    t.Cloning known src newDir := by
  induction is generalizing s with
  | nil =>
      cases h
      exact hs
  | cons i is ih =>
      rw [List.foldlM_cons, Outcome.bind_eq_ok] at h
      rcases h with ⟨u, hfirst, hrest⟩
      rw [loopRequests, hfirst, sparesTables_append] at hspare
      exact ih (hs.round hsrc hspare.1 hfirst) hspare.2 hrest

/-- A directory without tables can be cloned into. -/
theorem Cloning.start {s : PagingState} {known : List Nat} (hs : s.OwnTables known) (src : Nat)
    {newDir : Nat} {d : PageDirectory} (hnone : ∀ i, d.tables i = 0) :
    (s.setDirectory newDir d).Cloning known src newDir := by
  have hnew : (s.setDirectory newDir d).directories newDir = d := Function.update_self _ _ _
  refine ⟨fun dir hdir i j hnull heq => ?_, fun i => .inl ?_⟩
  · by_cases hself : dir = newDir
    · rw [hself, hnew, hnone] at hnull
      exact absurd rfl hnull
    · have hold : (s.setDirectory newDir d).directories dir = s.directories dir :=
        Function.update_of_ne hself _ _
      rw [hold] at hnull heq
      exact hs dir ((List.mem_cons.1 hdir).resolve_left hself) i j hnull heq
  · rw [hnew, hnone]

theorem OwnTables.clonePageDirectory {s t : PagingState} {known : List Nat} {src phys newDir : Nat}
    (hs : s.OwnTables known) (hsrc : src ∈ known)
    (hspare : SparesTables known (s.clonePageDirectoryTables src phys))
    (h : s.clonePageDirectory src phys = .ok (t, newDir)) :
    t.OwnTables known ∧ (newDir ≠ 0 → t.OwnTables (newDir :: known)) := by
  unfold PagingState.clonePageDirectory at h
  unfold clonePageDirectoryTables at hspare
  simp only at h hspare
  split at h
  · cases h
    exact ⟨hs, fun hnull => absurd rfl hnull⟩
  case isFalse hfound =>
    rw [if_neg hfound] at hspare
    rcases Outcome.bind_eq_ok.1 h with ⟨u, hloop, hrest⟩
    simp only [Except.ok.injEq, Prod.mk.injEq] at hrest
    rcases hrest with ⟨rfl, rfl⟩
    have htaken : (s.bitmapSetBit s.findFirstFreeFrame).OwnTables known := hs.of_directories rfl
    have hend := Cloning.loop hsrc (Cloning.start htaken src fun _ => rfl) hspare hloop
    exact ⟨hend.own.mono fun dir hdir => List.mem_cons_of_mem _ hdir, fun _ => hend.own⟩

/-! ## One call -/

theorem frameOf_none {s : PagingState} {dir virtualAddr : Nat}
    (h : s.pageRef virtualAddr dir = none) : s.frameOf dir virtualAddr = none := by
  unfold frameOf
  rw [h]
  rfl

/-- A zeroed table in a frame that holds no table in use maps nothing, and hides nothing. -/
theorem frameOf_newTable {s u : PagingState} {known : List Nat} {dir i table : Nat}
    (hmissing : (s.directories dir).tables i = 0) (hnull : table ≠ 0)
    (hnew : table ∉ s.mappedTables known)
    (htables : ∀ dir', (u.directories dir').tables =
      if dir' = dir then Function.update (s.directories dir).tables i table
      else (s.directories dir').tables)
    (hentry : ∀ page, u.entry page =
      if page.table = table then PageTableEntry.zero else s.entry page)
    {dir' : Nat} (hdir' : dir' ∈ known) (virtualAddr : Nat) :
    u.frameOf dir' virtualAddr = s.frameOf dir' virtualAddr := by
  by_cases hdir : dir' = dir ∧ virtualAddr / pageSize / pageEntries = i
  -- the pages of the new table were not mapped, and are not mapped now
  · rcases hdir with ⟨rfl, hindex⟩
    have hold : s.pageRef virtualAddr dir' = none := by
      unfold pageRef
      rw [hindex, hmissing]
      rfl
    rw [frameOf_none hold]
    unfold frameOf pageRef
    rw [htables, if_pos rfl, hindex, Function.update_self]
    simp only [hentry, ne_eq, hnull, not_false_eq_true, if_true, Option.bind_some]
    rfl
  -- the other pages keep their tables
  · have hkept : (u.directories dir').tables (virtualAddr / pageSize / pageEntries) =
        (s.directories dir').tables (virtualAddr / pageSize / pageEntries) := by
      rw [htables]
      split
      case isTrue hsame =>
        subst hsame
        rw [Function.update_of_ne fun heq => hdir ⟨rfl, heq⟩]
      case isFalse => rfl
    have hpage : u.pageRef virtualAddr dir' = s.pageRef virtualAddr dir' := by
      unfold pageRef
      rw [hkept]
    unfold frameOf
    rw [hpage]
    cases hpage : s.pageRef virtualAddr dir' with
    | none => rfl
    | some ref =>
        have hapart : ref.table ≠ table := by
          intro heq
          unfold pageRef at hpage
          simp only [Option.ite_none_right_eq_some, Option.some.injEq] at hpage
          rcases hpage with ⟨hused, rfl⟩
          exact hnew ⟨hnull, dir', hdir', _, heq⟩
        rw [Option.bind_some, Option.bind_some, hentry, if_neg hapart]

/-- The entry that `get_page_entry` makes is found there afterwards, and no page is mapped anew. -/
theorem getPageEntry_frameOf {s t : PagingState} {known : List Nat} {address dir : Nat}
    {page : Option EntryRef} (htaken : s.marked 0 = true)
    (hspare : SparesTables known (s.getPageEntryRequests address dir))
    (h : s.getPageEntry address true dir = .ok (t, page)) :
    t.pageRef address dir = page ∧ page ≠ none ∧
      ∀ dir' ∈ known, ∀ virtualAddr, t.frameOf dir' virtualAddr = s.frameOf dir' virtualAddr := by
  unfold getPageEntry at h
  unfold getPageEntryRequests at hspare
  simp only [if_true] at h
  split at h
  case isTrue htable =>
    cases h
    refine ⟨?_, by simp, fun _ _ _ => rfl⟩
    unfold pageRef
    rw [if_pos htable]
  case isFalse hmissing =>
    rw [if_neg hmissing] at hspare
    split at h
    · cases h
    case isFalse hfound =>
      have hnew := hspare _ (List.mem_singleton_self _)
      rw [answer_request] at hnew
      -- the frame is not that of the kernel directory, so its address is no null pointer
      have hnull : s.findFirstFreeFrame ≠ 0 := by
        intro hzero
        have hfree := not_marked_findFirstFreeFrame hfound
        rw [hzero, Nat.zero_div, htaken] at hfree
        cases hfree
      cases h
      refine ⟨?_, by simp, fun dir' hdir' virtualAddr =>
        frameOf_newTable (not_not.1 hmissing) hnull hnew (fun dir'' => ?_) (fun page => ?_) hdir'
          virtualAddr⟩
      · unfold pageRef setDirectory
        simp only [Function.update_self]
        rw [if_pos hnull]
      · unfold setDirectory
        by_cases hdir : dir'' = dir
        · subst hdir
          rw [if_pos rfl]
          simp only [Function.update_self]
          rfl
        · rw [if_neg hdir]
          exact congrArg PageDirectory.tables (Function.update_of_ne hdir _ _)
      · rw [entry_setDirectory, entry_zeroTable, entry_bitmapSetBit]

/-- Mapping a page changes the translation there, and nowhere else. -/
theorem mapVirtualToPhysical_frameOf {s t : PagingState} {known : List Nat}
    {virtualAddr physicalAddr dir : Nat} {isKernel isWritable : Int} (hs : s.OwnTables known)
    (htaken : s.marked 0 = true) (hdir : dir ∈ known)
    (hspare : SparesTables known (s.getPageEntryRequests virtualAddr dir))
    (h : s.mapVirtualToPhysical virtualAddr physicalAddr isKernel isWritable dir = .ok t)
    (virtualAddr' : Nat) :
    t.frameOf dir virtualAddr' =
      if virtualAddr' / pageSize = virtualAddr / pageSize then some (physicalAddr / pageSize)
      else s.frameOf dir virtualAddr' := by
  unfold mapVirtualToPhysical at h
  rcases Outcome.bind_eq_ok.1 h with ⟨⟨u, page⟩, hpage, hrest⟩
  rcases getPageEntry_frameOf htaken hspare hpage with ⟨href, hsome, hkept⟩
  have hu := hs.getPageEntry hspare hpage
  cases page with
  | none => exact absurd rfl hsome
  | some page =>
      cases hrest
      rw [frameOf_bitmapSetBit, frameOf_setEntry, hkept dir hdir]
      simp only [pageRef_eq_iff hu hdir href, if_true]

/-- Unmapping a page ends the translation there, and nowhere else. -/
theorem unmapVirtualPage_frameOf {s t : PagingState} {known : List Nat} {virtualAddr dir : Nat}
    (hs : s.OwnTables known) (hdir : dir ∈ known)
    (h : s.unmapVirtualPage virtualAddr dir = .ok t) (virtualAddr' : Nat) :
    t.frameOf dir virtualAddr' =
      if virtualAddr' / pageSize = virtualAddr / pageSize then none
      else s.frameOf dir virtualAddr' := by
  have hreleased := released_of_unmapVirtualPage h
  unfold frameOf
  rw [pageRef_congr hreleased.directories]
  split
  case isTrue hsame =>
    rw [pageRef_of_same_page s dir hsame]
    cases hpage : s.pageRef virtualAddr dir with
    | none => rfl
    | some page =>
        have hgone : ¬ (t.entry page).present = true := fun hpresent =>
          ((hreleased.present page).1 hpresent).2 ⟨virtualAddr, List.mem_singleton_self _, hpage⟩
        rw [Option.bind_some, if_neg hgone]
  case isFalse hother =>
    cases hpage : s.pageRef virtualAddr' dir with
    | none => rfl
    | some page =>
        -- a page of its own entry is not among those that are unmapped
        have hkept : t.entry page = s.entry page := by
          refine hreleased.entry page ?_
          rintro ⟨address, haddress, hpage'⟩
          rw [List.mem_singleton] at haddress
          rw [haddress] at hpage'
          exact hother ((pageRef_eq_iff hs hdir hpage').1 hpage)
        rw [Option.bind_some, Option.bind_some, hkept]

end PagingState

/-! ## Whole runs -/

namespace PagingSystem

/-- The requests for new tables. -/
def tableRequests (y : PagingSystem) : PagingAction → List Request
  | .mapVirtualToPhysical virtualAddr _ _ _ dir =>
      y.state.getPageEntryRequests virtualAddr.toNat dir
  | .allocateMemoryRegion startAddr size isKernel isWritable dir =>
      PagingState.loopRequests (PagingState.allocateRound isKernel isWritable dir)
        (fun s current => s.getPageEntryRequests current dir)
        (PagingState.memoryRegion startAddr.toNat size.toNat) y.state
  | .identityMapRegion startAddr endAddr dir =>
      y.state.identityMapRequests (PagingState.identityPages startAddr.toNat endAddr.toNat) dir
  | .clonePageDirectory src phys => y.state.clonePageDirectoryTables src phys.toNat
  | .pageFault faultingAddress errCode => y.state.pageFaultTables faultingAddress.toNat errCode
  | _ => []

/-- A paging operation, or an entry that is made on its own. -/
inductive PageAction
  | operation (a : PagingAction)
  | getPageEntry (address : BitVec 32) (dir : Nat)

/-- `get_page_entry` is called with `make` set. -/
def pageStep (y : PagingSystem) : PageAction → Option PagingSystem
  | .operation a => y.step a
  | .getPageEntry address dir =>
      if dir ∈ y.known then
        y.withState ((y.state.getPageEntry address.toNat true dir).map Prod.fst)
      else none

/-- No frame that holds a page table in use is handed out for a new one. -/
def KeepsTables (y : PagingSystem) : PageAction → Prop
  | .operation a => PagingState.SparesTables y.known (y.tableRequests a)
  | .getPageEntry address dir =>
      PagingState.SparesTables y.known (y.state.getPageEntryRequests address.toNat dir)

/-- What `get_physical_address` returns. -/
abbrev Translates (y : PagingSystem) (dir : Nat) (virtualAddr : BitVec 32) (physicalAddr : Nat) :
    Prop :=
  y.state.getPhysicalAddress virtualAddr.toNat dir = .ok physicalAddr

/-- Two addresses on one page. -/
def SamePage (virtualAddr virtualAddr' : BitVec 32) : Prop :=
  virtualAddr'.toNat / pageSize = virtualAddr.toNat / pageSize

instance (virtualAddr virtualAddr' : BitVec 32) : Decidable (SamePage virtualAddr virtualAddr') :=
  inferInstanceAs (Decidable (_ = _))

/-- The byte that an address is mapped to, when its page is mapped to this one. -/
def byteOf (physicalAddr virtualAddr : BitVec 32) : Nat :=
  PagingState.alignPage physicalAddr.toNat + virtualAddr.toNat % pageSize

/-- `z` translates the addresses of a page in its own way, and all others as `y` does. -/
def TranslatesPage (y z : PagingSystem) (dir : Nat) (virtualAddr : BitVec 32)
    (translation : BitVec 32 → Nat) : Prop :=
  ∀ virtualAddr',
    (SamePage virtualAddr virtualAddr' →
      z.Translates dir virtualAddr' (translation virtualAddr')) ∧
    (¬ SamePage virtualAddr virtualAddr' → ∀ address,
      z.Translates dir virtualAddr' address ↔ y.Translates dir virtualAddr' address)

/-- The translation after an operation that returns. -/
def TranslatesAfter (y z : PagingSystem) : PageAction → Prop
  | .operation (.mapVirtualToPhysical virtualAddr physicalAddr _ _ dir) =>
      y.TranslatesPage z dir virtualAddr (byteOf physicalAddr)
  | .operation (.unmapVirtualPage virtualAddr dir) =>
      y.TranslatesPage z dir virtualAddr fun _ => noFrame
  | .getPageEntry _ _ => ∀ dir ∈ y.known, ∀ virtualAddr address,
      z.Translates dir virtualAddr address ↔ y.Translates dir virtualAddr address
  | .operation _ => True

/-! ### Sequences of maps and unmaps -/

/-- A map or an unmap of a page, in whatever directory. -/
inductive PageOp
  | map (virtualAddr physicalAddr : BitVec 32) (isKernel isWritable : Int)
  | unmap (virtualAddr : BitVec 32)

namespace PageOp

def virtualAddr : PageOp → BitVec 32
  | map virtualAddr _ _ _ => virtualAddr
  | unmap virtualAddr => virtualAddr

/-- The operation, on this directory. -/
def action (dir : Nat) : PageOp → PageAction
  | map virtualAddr physicalAddr isKernel isWritable =>
      .operation (.mapVirtualToPhysical virtualAddr physicalAddr isKernel isWritable dir)
  | unmap virtualAddr => .operation (.unmapVirtualPage virtualAddr dir)

/-- The translation of an address on the page. -/
def translation (virtualAddr : BitVec 32) : PageOp → Nat
  | map _ physicalAddr _ _ => byteOf physicalAddr virtualAddr
  | unmap _ => noFrame

/-- The frame of the page. -/
def frame : PageOp → Option Nat
  | map _ physicalAddr _ _ => some (physicalAddr.toNat / pageSize)
  | unmap _ => none

theorem physicalOf_frame (op : PageOp) (virtualAddr : BitVec 32) :
    PagingState.physicalOf virtualAddr.toNat op.frame = op.translation virtualAddr := by
  cases op with
  | map _ physicalAddr _ _ => exact PagingState.physicalOf_some virtualAddr.toNat physicalAddr
  | unmap _ => rfl

end PageOp

/-- The last operation on the page of an address. -/
def lastOn (ops : List PageOp) (virtualAddr : BitVec 32) : Option PageOp :=
  ops.reverse.find? fun op => decide (SamePage op.virtualAddr virtualAddr)

/-- Every address is translated according to the last operation on its page. -/
def TranslatesByLast (y z : PagingSystem) (dir : Nat) (ops : List PageOp) : Prop :=
  ∀ virtualAddr,
    match lastOn ops virtualAddr with
    | some op => z.Translates dir virtualAddr (op.translation virtualAddr)
    | none => ∀ address, z.Translates dir virtualAddr address ↔ y.Translates dir virtualAddr address

theorem lastOn_cons (op : PageOp) (ops : List PageOp) (virtualAddr : BitVec 32) :
    lastOn (op :: ops) virtualAddr =
      (lastOn ops virtualAddr).or
        (if SamePage op.virtualAddr virtualAddr then some op else none) := by
  unfold lastOn
  rw [List.reverse_cons, List.find?_append]
  by_cases hsame : SamePage op.virtualAddr virtualAddr
  · simp [hsame]
  · simp [hsame]

/-- What a run has to translate. -/
structure TranslatesThroughout (y : PagingSystem) (as : List PageAction) : Prop where
  steps : AllSteps pageStep (fun u a => ∀ z, u.pageStep a = some z → u.TranslatesAfter z a) y as
  last : ∀ bs dir ops u z, as = bs ++ ops.map (PageOp.action dir) → exec pageStep y bs = some u →
    exec pageStep u (ops.map (PageOp.action dir)) = some z → u.TranslatesByLast z dir ops

/-! ### The invariant -/

/-- The kernel directory is in use, and no table is used twice in a directory. -/
structure OwnsTables (y : PagingSystem) : Prop where
  overlaps : y.Overlaps
  own : y.state.OwnTables y.known

theorem pageStep_getPageEntry {y z : PagingSystem} {address : BitVec 32} {dir : Nat}
    (h : y.pageStep (.getPageEntry address dir) = some z) :
    dir ∈ y.known ∧ ∃ s page, y.state.getPageEntry address.toNat true dir = .ok (s, page) ∧
      z = { y with state := s } := by
  rcases known_eq_some h with ⟨hdir, s, hs, rfl⟩
  refine ⟨hdir, s, ?_⟩
  cases hpage : y.state.getPageEntry address.toNat true dir with
  | error e => simp [hpage, Except.map] at hs
  | ok r =>
      rw [hpage] at hs
      cases hs
      exact ⟨r.2, rfl, rfl⟩

theorem OwnsTables.operation {y z : PagingSystem} {a : PagingAction} (hy : y.OwnsTables)
    (hspare : PagingState.SparesTables y.known (y.tableRequests a)) (h : y.step a = some z) :
    z.OwnsTables := by
  refine ⟨hy.overlaps.step h, ?_⟩
  -- only what makes tables can give two directories the same one
  have hown := hy.own
  cases step_turn h with
  | mapVirtualToPhysical _ hs => exact hown.mapVirtualToPhysical hspare hs
  | unmapVirtualPage _ hs =>
      exact hown.of_directories (PagingState.released_of_unmapVirtualPage hs).directories
  | allocateMemoryRegion _ hs =>
      rw [PagingState.allocateMemoryRegion_eq] at hs
      exact hown.loop (fun _ _ _ hu hround h => hu.allocateRound hround h) hspare hs
  | freeMemoryRegion _ hs =>
      exact hown.of_directories (PagingState.released_of_freeMemoryRegion hs).directories
  | identityMapRegion _ hs =>
      rw [PagingState.identityMapRegion_eq] at hs
      exact hown.loop (fun _ _ _ hu hround h => hu.mapVirtualToPhysical hround h) hspare hs
  | cloneFailed hsrc hs =>
      rw [tableRequests] at hspare
      exact (hown.clonePageDirectory hsrc hspare hs).1
  | cloned hsrc hs hnew =>
      rw [tableRequests] at hspare
      exact (hown.clonePageDirectory hsrc hspare hs).2 hnew
  | switchPageDirectory => exact hown.of_directories rfl
  | pageFault hs => exact hown.pageFaultHandler hspare hs

theorem OwnsTables.pageStep {y z : PagingSystem} {a : PageAction} (hy : y.OwnsTables)
    (hkeeps : y.KeepsTables a) (h : y.pageStep a = some z) : z.OwnsTables := by
  cases a with
  | operation a => exact hy.operation hkeeps h
  | getPageEntry address dir =>
      rcases pageStep_getPageEntry h with ⟨_, s, page, hs, rfl⟩
      have hfirst := hy.overlaps.first.getPageEntry hs
      exact ⟨⟨hy.overlaps.known, hfirst⟩, hy.own.getPageEntry hkeeps hs⟩

/-- Where the frames agree, the translations do. -/
theorem translates_congr {y z : PagingSystem} {dir : Nat} {virtualAddr : BitVec 32}
    (h : z.state.frameOf dir virtualAddr.toNat = y.state.frameOf dir virtualAddr.toNat)
    (address : Nat) :
    z.Translates dir virtualAddr address ↔ y.Translates dir virtualAddr address := by
  unfold Translates
  rw [PagingState.getPhysicalAddress_eq, PagingState.getPhysicalAddress_eq, h]

/-- A map or an unmap changes the frame of its page. -/
theorem OwnsTables.frameOf_op {y z : PagingSystem} {dir : Nat} {op : PageOp} (hy : y.OwnsTables)
    (hkeeps : y.KeepsTables (op.action dir)) (h : y.pageStep (op.action dir) = some z)
    (virtualAddr : BitVec 32) :
    z.state.frameOf dir virtualAddr.toNat =
      if SamePage op.virtualAddr virtualAddr then op.frame
      else y.state.frameOf dir virtualAddr.toNat := by
  have htaken := hy.overlaps.first.taken
  cases op with
  | map target physicalAddr isKernel isWritable =>
      rcases known_eq_some h with ⟨hdir, s, hs, rfl⟩
      exact PagingState.mapVirtualToPhysical_frameOf hy.own htaken hdir hkeeps hs _
  | unmap target =>
      rcases known_eq_some h with ⟨hdir, s, hs, rfl⟩
      exact PagingState.unmapVirtualPage_frameOf hy.own hdir hs _

theorem OwnsTables.translatesPage {y z : PagingSystem} {dir : Nat} (hy : y.OwnsTables)
    (op : PageOp) (hkeeps : y.KeepsTables (op.action dir))
    (h : y.pageStep (op.action dir) = some z) :
    y.TranslatesPage z dir op.virtualAddr fun virtualAddr => op.translation virtualAddr := by
  intro virtualAddr
  have hframe := hy.frameOf_op hkeeps h virtualAddr
  constructor
  · intro hsame
    rw [if_pos hsame] at hframe
    unfold Translates
    rw [PagingState.getPhysicalAddress_eq, hframe, PageOp.physicalOf_frame]
  · intro hother
    rw [if_neg hother] at hframe
    exact translates_congr hframe

theorem OwnsTables.translatesAfter {y z : PagingSystem} {a : PageAction} (hy : y.OwnsTables)
    (hkeeps : y.KeepsTables a) (h : y.pageStep a = some z) : y.TranslatesAfter z a := by
  cases a with
  | getPageEntry address dir =>
      rcases pageStep_getPageEntry h with ⟨_, s, page, hs, rfl⟩
      intro dir' hdir' virtualAddr
      exact translates_congr
        ((PagingState.getPageEntry_frameOf hy.overlaps.first.taken hkeeps hs).2.2 dir' hdir' _)
  | operation a =>
      cases a with
      | mapVirtualToPhysical virtualAddr physicalAddr isKernel isWritable dir =>
          exact hy.translatesPage (.map virtualAddr physicalAddr isKernel isWritable) hkeeps h
      | unmapVirtualPage virtualAddr dir =>
          exact hy.translatesPage (.unmap virtualAddr) hkeeps h
      | _ => trivial

/-- After a sequence of maps and unmaps, the last one on a page decides. -/
theorem OwnsTables.frameOf_ops {y z : PagingSystem} {dir : Nat} {ops : List PageOp}
    (hy : y.OwnsTables) (hkeeps : AllSteps PagingSystem.pageStep KeepsTables y
      (ops.map (PageOp.action dir)))
    (h : exec PagingSystem.pageStep y (ops.map (PageOp.action dir)) = some z)
    (virtualAddr : BitVec 32) :
    z.state.frameOf dir virtualAddr.toNat =
      match lastOn ops virtualAddr with
      | some op => op.frame
      | none => y.state.frameOf dir virtualAddr.toNat := by
  induction ops generalizing y with
  | nil =>
      cases h
      rfl
  | cons op ops ih =>
      cases hstep : y.pageStep (op.action dir) with
      | none => simp [hstep] at h
      | some u =>
          have hrest : exec PagingSystem.pageStep u (ops.map (PageOp.action dir)) = some z := by
            simpa [hstep] using h
          rcases hkeeps u hstep with ⟨hfirst, hkeeps⟩
          rw [ih (hy.pageStep hfirst hstep) hkeeps hrest, lastOn_cons,
            hy.frameOf_op hfirst hstep virtualAddr]
          -- a later operation on the page, or this one, or none
          cases lastOn ops virtualAddr with
          | some later => rfl
          | none =>
              by_cases hsame : SamePage op.virtualAddr virtualAddr
              · simp [hsame]
              · simp [hsame]

theorem OwnsTables.translatesByLast {y z : PagingSystem} {dir : Nat} {ops : List PageOp}
    (hy : y.OwnsTables) (hkeeps : AllSteps PagingSystem.pageStep KeepsTables y
      (ops.map (PageOp.action dir)))
    (h : exec PagingSystem.pageStep y (ops.map (PageOp.action dir)) = some z) :
    y.TranslatesByLast z dir ops := by
  intro virtualAddr
  have hframe := hy.frameOf_ops hkeeps h virtualAddr
  cases hlast : lastOn ops virtualAddr with
  | some op =>
      rw [hlast] at hframe
      simp only
      unfold Translates
      rw [PagingState.getPhysicalAddress_eq, hframe, PageOp.physicalOf_frame]
  | none =>
      rw [hlast] at hframe
      exact translates_congr hframe

theorem OwnsTables.translatesThroughout {y : PagingSystem} {as : List PageAction}
    (hy : y.OwnsTables) (hkeeps : AllSteps PagingSystem.pageStep KeepsTables y as) :
    y.TranslatesThroughout as := by
  have hkept : ∀ u a z, OwnsTables u → u.KeepsTables a → u.pageStep a = some z →
      z.OwnsTables := fun _ _ _ hu hkeeps h => hu.pageStep hkeeps h
  refine ⟨?_, fun bs dir ops u z has hu hz => ?_⟩
  · refine (hkeeps.and_of_invariant hkept hy).mono ?_
    rintro u a ⟨hu, hfirst⟩ z hz
    exact hu.translatesAfter hfirst hz
  · subst has
    have hown : u.OwnsTables :=
      (allStates_of_allSteps hkept hy hkeeps.append_left).last hu
    exact hown.translatesByLast (hkeeps.of_exec hu) hz

end PagingSystem

/-! ### Initialisation -/

namespace PagingState

/-- The kernel directory has no table but its first one. -/
def OneTable (s : PagingState) : Prop := ∀ i, (s.directories 0).tables i ≠ 0 → i = 0

theorem OneTable.mapVirtualToPhysical {s t : PagingState} {virtualAddr physicalAddr : Nat}
    {isKernel isWritable : Int} (hs : s.OneTable) (hlow : virtualAddr / pageSize / pageEntries = 0)
    (h : s.mapVirtualToPhysical virtualAddr physicalAddr isKernel isWritable 0 = .ok t) :
    t.OneTable := by
  unfold PagingState.mapVirtualToPhysical at h
  rcases Outcome.bind_eq_ok.1 h with ⟨⟨u, page⟩, hpage, hrest⟩
  have hu : u.OneTable := by
    unfold PagingState.getPageEntry at hpage
    simp only [hlow, if_true] at hpage
    split at hpage
    · cases hpage
      exact hs
    · split at hpage
      · cases hpage
      · cases hpage
        -- the table that is made is the first one
        intro i hi
        by_contra hother
        unfold setDirectory at hi
        simp only [Function.update_self] at hi
        rw [Function.update_of_ne hother] at hi
        exact hother (hs i hi)
  cases page with
  | none => cases hrest
  | some page =>
      cases hrest
      exact hu

theorem initializePagingSystem_oneTable {s t : PagingState} {totalMemoryKb : Nat}
    (h : s.initializePagingSystem totalMemoryKb = .ok t) : t.OneTable := by
  unfold initializePagingSystem at h
  simp only at h
  rw [findFirstFreeFrame_empty rfl, if_neg (by decide : ¬ (0 : Nat) = noFrame)] at h
  rcases Outcome.bind_eq_ok.1 h with ⟨u, hloop, hrest⟩
  cases hrest
  have hpages := fun page => @low_of_mem_regionPages page
  generalize regionPages 0 0x400000 = pages at hloop hpages
  have hu : u.OneTable := by
    refine Outcome.foldlM_invariant (I := OneTable) ?_ ?_ hloop
    · intro page hmem v w hv hround
      exact hv.mapVirtualToPhysical (hpages page hmem).2 hround
    · intro i hi
      unfold setDirectory at hi
      simp only [Function.update_self] at hi
      exact absurd rfl hi
  exact hu

end PagingState

namespace PagingSystem

theorem ownsTables_initialized {s t : PagingState} {totalMemoryKb : Nat}
    (h : s.initializePagingSystem totalMemoryKb = .ok t) :
    (initialized t).OwnsTables ∧ (initialized t).known = [0] := by
  have hknown : (initialized t).known = [0] := by
    rcases PagingState.initializePagingSystem_ok s totalMemoryKb with ⟨t', ht', hinit⟩
    cases ht'.symm.trans h
    unfold initialized
    rw [hinit.kernel]
  have hone := PagingState.initializePagingSystem_oneTable h
  refine ⟨⟨⟨?_, PagingState.initializePagingSystem_firstTableNext h⟩, ?_⟩, hknown⟩
  · rw [hknown]
    exact List.mem_singleton_self 0
  · intro dir hdir i j hi hj
    rw [hknown, List.mem_singleton] at hdir
    subst hdir
    rw [hone i hi]
    exact hone j (fun hnull => hi (hj ▸ hnull))

/-- From initialisation on, every map and unmap changes the translation of its page alone and a table
that is made changes none, so that any sequence of maps and unmaps translates every address by the
last operation on its page, as long as no table is made in a frame that holds a table in use. -/
theorem translatesThroughout_run {s t : PagingState} {totalMemoryKb : Nat} {as : List PageAction}
    (h : s.initializePagingSystem totalMemoryKb = .ok t)
    (hkeeps : AllSteps pageStep KeepsTables (initialized t) as) :
    (initialized t).TranslatesThroughout as :=
  (ownsTables_initialized h).1.translatesThroughout hkeeps

/-- The first table that is made after initialisation is made in a frame that holds no table. -/
theorem sparesTables_initialized {s t : PagingState} {totalMemoryKb : Nat}
    (h : s.initializePagingSystem totalMemoryKb = .ok t) (address : Nat) :
    PagingState.SparesTables (initialized t).known
      ((initialized t).state.getPageEntryRequests address 0) := by
  rcases ownsTables_initialized h with ⟨hown, hknown⟩
  have hone := PagingState.initializePagingSystem_oneTable h
  intro r hr
  change r ∈ t.getPageEntryRequests address 0 at hr
  unfold PagingState.getPageEntryRequests at hr
  split at hr
  · cases hr
  case isFalse =>
    rw [List.mem_singleton] at hr
    subst hr
    rw [PagingState.answer_request, hknown]
    rintro ⟨hnull, dir, hdir, i, hi⟩
    rw [List.mem_singleton] at hdir
    subst hdir
    have hi' : (t.directories 0).tables i = t.findFirstFreeFrame := hi
    have hnext : (t.directories 0).tables 0 = pageSize := hown.overlaps.first.next
    rw [hone i (hi' ▸ hnull), hnext] at hi'
    -- the frame of the first table is taken
    have hfree := PagingState.not_marked_findFirstFreeFrame (s := t) (hi' ▸ by decide)
    rw [← hi', (PagingState.marked_initializePagingSystem h _).2 (by decide)] at hfree
    cases hfree

/-- A table for a page behind the first 4 MiB is made in a frame that holds no table. -/
theorem translatesThroughout_run_second_table :
    ∃ t, PagingState.boot.initializePagingSystem 65536 = .ok t ∧
      (initialized t).TranslatesThroughout
        [.operation (.mapVirtualToPhysical 0x400000#32 0x500000#32 1 1 0)] := by
  rcases PagingState.initializePagingSystem_ok PagingState.boot 65536 with ⟨t, ht, _⟩
  exact ⟨t, ht, translatesThroughout_run ht fun u _ => ⟨sparesTables_initialized ht _, trivial⟩⟩

/-- A table that is made in the frame of the first one takes its mappings away. -/
theorem mapVirtualToPhysical_over_first {s : PagingState} (hfirst : s.FirstTableNext)
    (hone : s.OneTable) (hfree : s.marked 1 = false) :
    ∃ t, s.mapVirtualToPhysical 0x400000 0x400000 1 1 0 = .ok t ∧ t.frameOf 0 0x2000 = none := by
  have hnext := PagingState.findFirstFreeFrame_next hfirst.taken hfree
  have hmissing : (s.directories 0).tables (0x400000 / pageSize / pageEntries) = 0 := by
    by_contra hnull
    exact absurd (hone _ hnull) (by decide)
  -- the new table goes into the first free frame, which is that of the table in use
  have hpage : ∃ u, s.getPageEntry 0x400000 true 0 =
        .ok (u, some { table := pageSize, index := 0 }) ∧
      (u.directories 0).tables 0 = pageSize ∧
        u.entry { table := pageSize, index := 2 } = PageTableEntry.zero := by
    unfold PagingState.getPageEntry
    simp only [hmissing, hnext, ne_eq, not_true_eq_false, if_false, if_true]
    rw [if_neg (by decide)]
    refine ⟨_, rfl, ?_, ?_⟩
    · unfold PagingState.setDirectory
      simp only [Function.update_self]
      rw [Function.update_of_ne (by decide)]
      exact hfirst.next
    · rw [PagingState.entry_setDirectory, PagingState.entry_zeroTable, if_pos rfl]
  rcases hpage with ⟨u, hpage, htable, hzero⟩
  refine ⟨_, Outcome.bind_eq_ok.2 ⟨_, hpage, rfl⟩, ?_⟩
  have href : u.pageRef 0x2000 0 = some { table := pageSize, index := 2 } := by
    rw [← htable]
    exact PagingState.pageRef_first (by rw [htable]; decide) (by decide) (by decide)
  rw [PagingState.frameOf_bitmapSetBit, PagingState.frameOf_setEntry, href, if_neg (by decide)]
  unfold PagingState.frameOf
  rw [href, Option.bind_some, hzero]
  rfl

/-- After page 1 has been unmapped the frame of the first table is free, although page 2 is mapped by
it. -/
theorem exec_free_firstTable {s t : PagingState} {totalMemoryKb : Nat}
    (ht : s.initializePagingSystem totalMemoryKb = .ok t) :
    ∃ y : PagingSystem, exec pageStep (initialized t) (([.map 0x2000#32 0x2000#32 1 1,
        .map 0x1000#32 0x1000#32 1 1, .unmap 0x1000#32] : List PageOp).map (PageOp.action 0)) =
          some y ∧
      0 ∈ y.known ∧ y.state.FirstTableNext ∧ y.state.OneTable ∧ y.state.marked 1 = false ∧
      (y.state.entry { table := pageSize, index := 2 }).present = true ∧
      ∀ frame, y.state.marked frame = true → t.marked frame = true := by
  rcases ownsTables_initialized ht with ⟨hown, hknown⟩
  have hnext : (t.directories 0).tables 0 = pageSize := hown.overlaps.first.next
  have hfirst : ((initialized t).state.directories 0).tables 0 ≠ 0 := by
    rw [show ((initialized t).state.directories 0).tables 0 = pageSize from hnext]
    decide
  have hdir : 0 ∈ (initialized t).known := hown.overlaps.known
  have hone : (initialized t).state.pageRef (0x1000#32).toNat 0 = some
      { table := (t.directories 0).tables 0
        index := 1 } := PagingState.pageRef_first hfirst (by decide) (by decide)
  have htwo : (initialized t).state.pageRef (0x2000#32).toNat 0 = some
      { table := (t.directories 0).tables 0
        index := 2 } := PagingState.pageRef_first hfirst (by decide) (by decide)
  rw [hnext] at hone htwo
  rcases step_map_of_pageRef hdir 0x2000#32 0x2000#32 htwo with
    ⟨u, hu, hknown₁, hdirs₁, hpresent₁, _, _, hmarked₁⟩
  rw [← PagingState.pageRef_congr hdirs₁] at hone
  rcases step_map_of_pageRef (hknown₁ ▸ hdir) 0x1000#32 0x1000#32 hone with
    ⟨v, hv, hknown₂, hdirs₂, hpresent, hframe, hkept₂, hmarked₂⟩
  rw [← PagingState.pageRef_congr hdirs₂] at hone
  rcases PagingState.unmapVirtualPage_released v.state (0x1000#32).toNat 0 with ⟨w, hw, hreleased⟩
  have hdirs : w.directories = t.directories := hreleased.directories.trans (hdirs₂.trans hdirs₁)
  have hdir₂ : 0 ∈ v.known := by
    rw [hknown₂, hknown₁]
    exact hdir
  have hunmap : v.step (.unmapVirtualPage 0x1000#32 0) = some { v with state := w } := by
    simp only [step, hdir₂, if_true]
    exact congrArg v.withState hw
  refine ⟨{ v with state := w }, ?_, hdir₂,
    (((hown.overlaps.step hu).step hv).first).unmapVirtualPage hw, ?_, ?_, ?_, fun frame hmark => ?_⟩
  · simp only [List.map_cons, List.map_nil, exec_cons, exec_nil, PageOp.action, pageStep, hu, hv,
      hunmap, Option.bind_some]
  · unfold PagingState.OneTable
    rw [hdirs]
    exact PagingState.initializePagingSystem_oneTable ht
  · -- unmapping page 1 frees frame 1, which holds the first table
    rw [Bool.eq_false_iff, Ne, hreleased.marked]
    rintro ⟨_, hnone⟩
    exact hnone ⟨_, ⟨_, List.mem_singleton_self _, hone⟩, hpresent, hframe, by decide⟩
  · rw [hreleased.present, hkept₂ _ (by simp)]
    refine ⟨hpresent₁, ?_⟩
    rintro ⟨address, hmem, href⟩
    rw [List.mem_singleton.1 hmem, hone, Option.some.injEq] at href
    cases href
  · -- the frames that were mapped again were marked
    have hbefore := ((hreleased.marked frame).1 hmark).1
    rw [hmarked₂, hmarked₁] at hbefore
    rw [PagingState.marked_initializePagingSystem ht]
    rcases hbefore with rfl | rfl | hold
    · decide
    · decide
    · exact (PagingState.marked_initializePagingSystem ht frame).1 hold

/-- After page 1 has been unmapped, the second table is made in the frame of the first one, and the
mapping of page 2 is lost. -/
theorem translatesThroughout_run_false :
    ¬ ∀ (s t : PagingState) (totalMemoryKb : Nat) (as : List PageAction),
      s.initializePagingSystem totalMemoryKb = .ok t → (initialized t).TranslatesThroughout as := by
  intro hall
  rcases PagingState.initializePagingSystem_ok PagingState.boot 65536 with ⟨t, ht, _⟩
  rcases exec_free_firstTable ht with ⟨y, hy, hdir, hfirst, hone, hfree, _⟩
  rcases mapVirtualToPhysical_over_first hfirst hone hfree with ⟨x, hx, hlost⟩
  have hmap : y.step (.mapVirtualToPhysical 0x400000#32 0x400000#32 1 1 0) =
      some { y with state := x } := by
    simp only [step, hdir, if_true]
    exact congrArg y.withState hx
  let ops : List PageOp :=
    [.map 0x2000#32 0x2000#32 1 1, .map 0x1000#32 0x1000#32 1 1, .unmap 0x1000#32] ++
      [.map 0x400000#32 0x400000#32 1 1]
  have hexec : exec pageStep (initialized t) (ops.map (PageOp.action 0)) =
      some { y with state := x } := by
    rw [List.map_append, exec_append, hy, Option.bind_some]
    simp only [List.map_cons, List.map_nil, exec_cons, exec_nil, PageOp.action, pageStep, hmap,
      Option.bind_some]
  -- the last operation on page 2 mapped it to frame 2
  have hlast : Translates { y with state := x } 0 0x2000#32 0x2000 :=
    (hall _ t _ _ ht).last [] 0 ops _ _ rfl rfl hexec 0x2000#32
  unfold Translates at hlast
  rw [PagingState.getPhysicalAddress_eq] at hlast
  change Except.ok (PagingState.physicalOf 0x2000 (x.frameOf 0 0x2000)) = _ at hlast
  rw [hlost] at hlast
  exact absurd hlast (by decide)

end PagingSystem

end Paging
end WhitexKernel
