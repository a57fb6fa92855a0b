import WhitexKernel.Lib.Bitmap
import WhitexKernel.Lib.Transition
import WhitexKernel.Machine.Word

/-!
# Paging — frames, page tables and page directories (`paging.h`)

Page directories, page tables and the bytes of the other frames are kept in three stores, each under
its physical address; a pointer to a page-table entry is the address of its table and its index.
That the structures share one memory, and how they lie in it, is not part of these stores: a
directory or table that is allocated over another one of its kind replaces it, and the handler
that `initialize_paging_system` registers is not stored anywhere.

`sys_panic` never returns, which is a `Halt` outcome, as is following a null pointer.  The control
registers and the TLB are left out.
-/

namespace WhitexKernel
namespace Paging

open Lib Machine

/-- `PAGE_SIZE` -/
abbrev pageSize : Nat := 4096

/-- `PAGE_ENTRIES` -/
abbrev pageEntries : Nat := 1024

/-- `DIRECTORY_ENTRIES` -/
abbrev directoryEntries : Nat := 1024

/-- `BITMAP_SIZE`: the frames of `PHYSICAL_MEMORY_LIMIT` bytes, 32 of them a word. -/
def bitmapSize : Nat := 0x100000000 / pageSize / 32

/-- What the allocators return when no frame is free. -/
def noFrame : Nat := 0xFFFFFFFF

/-! ## Data -/

/-- `page_table_entry_t` -/
structure PageTableEntry where
  present : Bool
  rw : Bool
  user : Bool
  accessed : Bool
  dirty : Bool
  frame : Nat
  deriving DecidableEq, Repr

/-- An entry in zeroed memory. -/
def PageTableEntry.zero : PageTableEntry :=
  { present := false
    rw := false
    user := false
    accessed := false
    dirty := false
    frame := 0 }

/-- `page_table_t` -/
abbrev PageTable := Nat → PageTableEntry

/-- `page_directory_t`; a table is given by its address, `0` is `NULL`. -/
structure PageDirectory where
  tables : Nat → Nat
  physicalTables : Nat → Nat
  physicalAddress : Nat

/-- A directory in zeroed memory. -/
def PageDirectory.zero : PageDirectory :=
  { tables := fun _ => 0
    physicalTables := fun _ => 0
    physicalAddress := 0 }

/-- `&table->entries[index]` -/
structure EntryRef where
  table : Nat
  index : Nat
  deriving DecidableEq, Repr

/-- The globals of `paging.h` and the memory they point to. -/
structure PagingState where
  physicalMemoryBitmap : Bitmap.Words 32
  totalAllocatedFrames : Nat
  totalSystemFrames : Nat
  currentPageDirectory : Nat
  kernelPageDirectory : Nat
  directories : Nat → PageDirectory
  tables : Nat → PageTable
  /-- The bytes of each frame. -/
  contents : Nat → Nat → UInt8

/-- How a call can fail to return. -/
inductive Halt
  | panic (code : String)
  | nullPointer
  deriving DecidableEq, Repr

namespace PagingState

/-- The globals in zeroed static storage, before any frame has been written. -/
def boot : PagingState :=
  { physicalMemoryBitmap := fun _ => 0
    totalAllocatedFrames := 0
    totalSystemFrames := 0
    currentPageDirectory := 0
    kernelPageDirectory := 0
    directories := fun _ => PageDirectory.zero
    tables := fun _ _ => PageTableEntry.zero
    contents := fun _ _ => 0 }

/-- The entry behind a pointer. -/
def entry (s : PagingState) (page : EntryRef) : PageTableEntry := s.tables page.table page.index

/-- `*page = e` -/
def setEntry (s : PagingState) (page : EntryRef) (e : PageTableEntry) : PagingState :=
  { s with
    tables := Function.update s.tables page.table
      (Function.update (s.tables page.table) page.index e) }

/-- `*dir = d` -/
def setDirectory (s : PagingState) (dir : Nat) (d : PageDirectory) : PagingState :=
  { s with directories := Function.update s.directories dir d }

/-- `memzero_custom(table, sizeof(page_table_t))` -/
def zeroTable (s : PagingState) (table : Nat) : PagingState :=
  { s with tables := Function.update s.tables table fun _ => PageTableEntry.zero }

/-- `memcpy_custom` of one frame. -/
def copyFrame (s : PagingState) (dest src : Nat) : PagingState :=
  { s with contents := Function.update s.contents dest (s.contents src) }

/-- The bit of a frame is set. -/
def marked (s : PagingState) (frame : Nat) : Bool := Bitmap.marked s.physicalMemoryBitmap frame

def bitmapSetBit (s : PagingState) (frameAddress : Nat) : PagingState :=
  { s with physicalMemoryBitmap := Bitmap.mark s.physicalMemoryBitmap (frameAddress / pageSize) }

def bitmapClearBit (s : PagingState) (frameAddress : Nat) : PagingState :=
  { s with physicalMemoryBitmap := Bitmap.clear s.physicalMemoryBitmap (frameAddress / pageSize) }

/-! ## Frames -/

/-- The address of the first frame whose bit is not set. -/
def findFirstFreeFrame (s : PagingState) : Nat :=
  match Bitmap.firstClear s.physicalMemoryBitmap bitmapSize with
  | some frame => frame * pageSize
  | none => noFrame

/-- Give an entry a frame, unless it has one. -/
def allocateFrame (s : PagingState) (page : EntryRef) (isKernel isWritable : Int) :
    Except Halt PagingState :=
  if (s.entry page).frame ≠ 0 then .ok s
  else
    let frameAddr := s.findFirstFreeFrame
    if frameAddr = noFrame then .error (.panic "SYS_ERR_OUT_OF_PHYSICAL_MEMORY")
    else
      let s := s.bitmapSetBit frameAddr
      let s := s.setEntry page
        { s.entry page with
          present := true
          rw := isWritable == 1
          user := !(isKernel == 1)
          frame := frameAddr / pageSize }
      .ok { s with totalAllocatedFrames := wrap32 (s.totalAllocatedFrames + 1) }

def freeFrame (s : PagingState) (page : EntryRef) : PagingState :=
  let frameAddr := (s.entry page).frame
  if frameAddr = 0 then s
  else
    let s := s.bitmapClearBit (frameAddr * pageSize)
    let s := s.setEntry page
      { s.entry page with
        present := false
        frame := 0 }
    { s with totalAllocatedFrames := sub32 s.totalAllocatedFrames 1 }

/-! ## Pages -/

/-- The entry for an address, if its table exists; otherwise, when asked to `make` it, the entry in a
new table. -/
def getPageEntry (s : PagingState) (address : Nat) (make : Bool) (dir : Nat) :
    Except Halt (PagingState × Option EntryRef) :=
  let address := address / pageSize
  let tableIdx := address / pageEntries
  let pageIdx := address % pageEntries
  let table := (s.directories dir).tables tableIdx
  if table ≠ 0 then
    .ok (s, some { table := table, index := pageIdx })
  else if make then
    let physicalAddr := s.findFirstFreeFrame
    if physicalAddr = noFrame then .error (.panic "SYS_ERR_PAGE_TABLE_ALLOCATION_FAILED")
    else
      let s := s.bitmapSetBit physicalAddr
      let s := s.zeroTable physicalAddr
      let d := s.directories dir
      let s := s.setDirectory dir
        { d with
          tables := Function.update d.tables tableIdx physicalAddr
          physicalTables := Function.update d.physicalTables tableIdx (physicalAddr ||| 0x07) }
      .ok (s, some { table := physicalAddr, index := pageIdx })
  else .ok (s, none)

def mapVirtualToPhysical (s : PagingState) (virtualAddr physicalAddr : Nat)
    (isKernel isWritable : Int) (dir : Nat) : Except Halt PagingState := do
  let (s, page) ← s.getPageEntry virtualAddr true dir
  match page with
  | none => .error (.panic "SYS_ERR_MAP_VIRTUAL_FAILED")
  | some page =>
      let s := s.setEntry page
        { s.entry page with
          present := true
          rw := isWritable != 0
          user := isKernel == 0
          frame := physicalAddr / pageSize }
      .ok (s.bitmapSetBit physicalAddr)

def unmapVirtualPage (s : PagingState) (virtualAddr dir : Nat) : Except Halt PagingState := do
  let (s, page) ← s.getPageEntry virtualAddr false dir
  match page with
  | none => .ok s
  | some page =>
      if (s.entry page).present then
        let s := s.freeFrame page
        .ok (s.setEntry page { s.entry page with present := false })
      else .ok s

/-- `0xFFFFFFFF` for an address that is not mapped. -/
def getPhysicalAddress (s : PagingState) (virtualAddr dir : Nat) : Except Halt Nat := do
  let (s, page) ← s.getPageEntry virtualAddr false dir
  match page with
  | none => .ok noFrame
  | some page =>
      if (s.entry page).present then
        .ok (wrap32 ((s.entry page).frame * pageSize + virtualAddr % pageSize))
      else .ok noFrame

def switchPageDirectory (s : PagingState) (dir : Nat) : PagingState :=
  { s with currentPageDirectory := dir }

/-- `errCode` is `regs->err_code`, and `faultingAddress` the value of `cr2`. -/
def pageFaultHandler (s : PagingState) (faultingAddress : Nat) (errCode : BitVec 32) :
    Except Halt PagingState :=
  let present := errCode &&& 0x1#32 == 0
  let rw := errCode &&& 0x2#32 != 0
  let us := errCode &&& 0x4#32 != 0
  let reserved := errCode &&& 0x8#32 != 0
  let id := errCode &&& 0x10#32 != 0
  if present || reserved || id then .error (.panic "SYS_ERR_UNRECOVERABLE_PAGE_FAULT")
  else do
    let (s, page) ← s.getPageEntry faultingAddress true s.currentPageDirectory
    match page with
    | none => .error .nullPointer
    | some page =>
        if (s.entry page).present then .error (.panic "SYS_ERR_PROTECTION_FAULT")
        else s.allocateFrame page (if us then 0 else 1) (if rw then 1 else 0)

/-! ## Clones -/

/-- One round of the loop of `clone_page_table`. -/
def cloneEntry (src newTable : Nat) (s : PagingState) (i : Nat) : Except Halt PagingState :=
  if (s.tables src i).present then do
    let s ← s.allocateFrame { table := newTable, index := i } 0 0
    let e := s.tables src i
    let s := s.setEntry { table := newTable, index := i }
      { s.tables newTable i with
        present := e.present
        rw := e.rw
        user := e.user
        accessed := e.accessed
        dirty := e.dirty }
    .ok (s.copyFrame (s.tables newTable i).frame (s.tables src i).frame)
  else .ok s

/-- The address of the new table, `0` when there is no frame for it, and the value of
`*physical_addr` afterwards. -/
def clonePageTable (s : PagingState) (src physicalAddr : Nat) :
    Except Halt (PagingState × Nat × Nat) :=
  let newTable := s.findFirstFreeFrame
  if newTable = noFrame then .ok (s, 0, physicalAddr)
  else do
    let s := s.bitmapSetBit newTable
    let s := s.zeroTable newTable
    let s ← (List.range pageEntries).foldlM (cloneEntry src newTable) s
    .ok (s, newTable, newTable)

/-- One round of the loop of `clone_page_directory`; `phys` is what the uninitialised variable of
that name holds. -/
def cloneDirectoryEntry (src newDir phys : Nat) (s : PagingState) (i : Nat) :
    Except Halt PagingState :=
  let table := (s.directories src).tables i
  if table = 0 then .ok s
  else if (s.directories s.kernelPageDirectory).tables i = table then
    let d := s.directories newDir
    .ok (s.setDirectory newDir
      { d with
        tables := Function.update d.tables i table
        physicalTables := Function.update d.physicalTables i
          ((s.directories src).physicalTables i) })
  else do
    let (s, newTable, phys) ← s.clonePageTable table phys
    let d := s.directories newDir
    .ok (s.setDirectory newDir
      { d with
        tables := Function.update d.tables i newTable
        physicalTables := Function.update d.physicalTables i (phys ||| 0x07) })

/-- The address of the new directory, `0` when there is no frame for it. -/
def clonePageDirectory (s : PagingState) (src phys : Nat) : Except Halt (PagingState × Nat) :=
  let newDir := s.findFirstFreeFrame
  if newDir = noFrame then .ok (s, 0)
  else do
    let s := s.bitmapSetBit newDir
    -- `physical_tables` lies behind the 1024 pointers of `tables`.
    let s := s.setDirectory newDir
      { PageDirectory.zero with physicalAddress := wrap32 (newDir + 4 * directoryEntries) }
    let s ← (List.range directoryEntries).foldlM (cloneDirectoryEntry src newDir phys) s
    .ok (s, newDir)

/-! ## Regions -/

/-- `address & ~(PAGE_SIZE - 1)` -/
def alignPage (address : Nat) : Nat := address / pageSize * pageSize

/-- The addresses the loops over `[start, stop)` visit, page by page. -/
def regionPages (start stop : Nat) : List Nat :=
  (List.range ((stop - start) / pageSize)).map fun i => start + i * pageSize

/-- `aligned_end` of a region of `size` bytes. -/
def alignedEnd (startAddr size : Nat) : Nat := alignPage (wrap32 (startAddr + size + pageSize - 1))

/-- The pages of the region of `size` bytes at `startAddr`. -/
def memoryRegion (startAddr size : Nat) : List Nat :=
  regionPages (alignPage startAddr) (alignedEnd startAddr size)

def allocateMemoryRegion (s : PagingState) (startAddr size : Nat) (isKernel isWritable : Int)
    (dir : Nat) : Except Halt PagingState :=
  (memoryRegion startAddr size).foldlM
    (fun s current => do
      let (s, page) ← s.getPageEntry current true dir
      match page with
      | none => .error .nullPointer
      | some page => s.allocateFrame page isKernel isWritable) s

def freeMemoryRegion (s : PagingState) (startAddr size dir : Nat) : Except Halt PagingState :=
  (memoryRegion startAddr size).foldlM (fun s current => s.unmapVirtualPage current dir) s

/-- The loop of `check_region_availability`. -/
def checkPages (s : PagingState) (dir : Nat) : List Nat → Except Halt Nat
  | [] => .ok 1
  | current :: rest => do
      let (s, page) ← s.getPageEntry current false dir
      match page with
      | none => s.checkPages dir rest
      | some page => if (s.entry page).present then .ok 0 else s.checkPages dir rest

def checkRegionAvailability (s : PagingState) (startAddr size dir : Nat) : Except Halt Nat :=
  s.checkPages dir (memoryRegion startAddr size)

def identityMapRegion (s : PagingState) (startAddr endAddr dir : Nat) : Except Halt PagingState :=
  (regionPages (alignPage startAddr) (alignPage (wrap32 (endAddr + pageSize - 1)))).foldlM
    (fun s current => s.mapVirtualToPhysical current current 1 1 dir) s

/-! ## Initialisation -/

def initializePagingSystem (s : PagingState) (totalMemoryKb : Nat) : Except Halt PagingState :=
  let s : PagingState :=
    { s with
      totalSystemFrames := wrap32 (totalMemoryKb * 1024) / pageSize
      physicalMemoryBitmap := fun _ => 0#32 }
  let dir := s.findFirstFreeFrame
  if dir = noFrame then .error (.panic "SYS_ERR_KERNEL_DIR_ALLOC_FAILED")
  else do
    let s := { s.bitmapSetBit dir with kernelPageDirectory := dir }
    let s := s.setDirectory dir
      { PageDirectory.zero with physicalAddress := wrap32 (dir + 4 * directoryEntries) }
    let s ← (regionPages 0 0x400000).foldlM
      (fun s current => s.mapVirtualToPhysical current current 1 1 dir) s
    .ok (s.switchPageDirectory dir)

end PagingState

/-! ## The system -/

/-- The paging state and the directories handed out so far. -/
structure PagingSystem where
  state : PagingState
  known : List Nat

/-- A paging operation with its arguments. -/
inductive PagingAction
  | mapVirtualToPhysical (virtualAddr physicalAddr : BitVec 32) (isKernel isWritable : Int)
      (dir : Nat)
  | unmapVirtualPage (virtualAddr : BitVec 32) (dir : Nat)
  | allocateMemoryRegion (startAddr size : BitVec 32) (isKernel isWritable : Int) (dir : Nat)
  | freeMemoryRegion (startAddr size : BitVec 32) (dir : Nat)
  | identityMapRegion (startAddr endAddr : BitVec 32) (dir : Nat)
  /-- `phys` is what the uninitialised variable of that name holds. -/
  | clonePageDirectory (src : Nat) (phys : BitVec 32)
  | switchPageDirectory (dir : Nat)
  | pageFault (faultingAddress errCode : BitVec 32)

namespace PagingSystem

/-- The state a call returns with, if it returns. -/
def withState (y : PagingSystem) : Except Halt PagingState → Option PagingSystem
  | .error _ => none
  | .ok s => some { y with state := s }

/-- Operations take directories that exist; a fault is taken in the current one. -/
def step (y : PagingSystem) : PagingAction → Option PagingSystem
  | .mapVirtualToPhysical virtualAddr physicalAddr isKernel isWritable dir =>
      if dir ∈ y.known then
        y.withState
          (y.state.mapVirtualToPhysical virtualAddr.toNat physicalAddr.toNat isKernel isWritable dir)
      else none
  | .unmapVirtualPage virtualAddr dir =>
      if dir ∈ y.known then y.withState (y.state.unmapVirtualPage virtualAddr.toNat dir) else none
  | .allocateMemoryRegion startAddr size isKernel isWritable dir =>
      if dir ∈ y.known then
        y.withState
          (y.state.allocateMemoryRegion startAddr.toNat size.toNat isKernel isWritable dir)
      else none
  | .freeMemoryRegion startAddr size dir =>
      if dir ∈ y.known then
        y.withState (y.state.freeMemoryRegion startAddr.toNat size.toNat dir)
      else none
  | .identityMapRegion startAddr endAddr dir =>
      if dir ∈ y.known then
        y.withState (y.state.identityMapRegion startAddr.toNat endAddr.toNat dir)
      else none
  | .clonePageDirectory src phys =>
      if src ∈ y.known then
        match y.state.clonePageDirectory src phys.toNat with
        | .error _ => none
        | .ok (s, newDir) =>
            if newDir = 0 then some { y with state := s }
            else some { state := s, known := newDir :: y.known }
      else none
  | .switchPageDirectory dir =>
      if dir ∈ y.known then some { y with state := y.state.switchPageDirectory dir } else none
  | .pageFault faultingAddress errCode =>
      y.withState (y.state.pageFaultHandler faultingAddress.toNat errCode)

/-- The ways an operation can return. -/
inductive Turn (y : PagingSystem) : PagingAction → PagingSystem → Prop
  | mapVirtualToPhysical {virtualAddr physicalAddr : BitVec 32} {isKernel isWritable : Int}
      {dir : Nat} {s : PagingState} (hdir : dir ∈ y.known)
      (hs : y.state.mapVirtualToPhysical virtualAddr.toNat physicalAddr.toNat isKernel isWritable
        dir = .ok s) :
      Turn y (.mapVirtualToPhysical virtualAddr physicalAddr isKernel isWritable dir)
        { y with state := s }
  | unmapVirtualPage {virtualAddr : BitVec 32} {dir : Nat} {s : PagingState}
      (hdir : dir ∈ y.known) (hs : y.state.unmapVirtualPage virtualAddr.toNat dir = .ok s) :
      Turn y (.unmapVirtualPage virtualAddr dir) { y with state := s }
  | allocateMemoryRegion {startAddr size : BitVec 32} {isKernel isWritable : Int} {dir : Nat}
      {s : PagingState} (hdir : dir ∈ y.known)
      (hs : y.state.allocateMemoryRegion startAddr.toNat size.toNat isKernel isWritable dir =
        .ok s) :
      Turn y (.allocateMemoryRegion startAddr size isKernel isWritable dir) { y with state := s }
  | freeMemoryRegion {startAddr size : BitVec 32} {dir : Nat} {s : PagingState}
      (hdir : dir ∈ y.known)
      (hs : y.state.freeMemoryRegion startAddr.toNat size.toNat dir = .ok s) :
      Turn y (.freeMemoryRegion startAddr size dir) { y with state := s }
  | identityMapRegion {startAddr endAddr : BitVec 32} {dir : Nat} {s : PagingState}
      (hdir : dir ∈ y.known)
      (hs : y.state.identityMapRegion startAddr.toNat endAddr.toNat dir = .ok s) :
      Turn y (.identityMapRegion startAddr endAddr dir) { y with state := s }
  | cloneFailed {src : Nat} {phys : BitVec 32} {s : PagingState} (hsrc : src ∈ y.known)
      (hs : y.state.clonePageDirectory src phys.toNat = .ok (s, 0)) :
      Turn y (.clonePageDirectory src phys) { y with state := s }
  | cloned {src newDir : Nat} {phys : BitVec 32} {s : PagingState} (hsrc : src ∈ y.known)
      (hs : y.state.clonePageDirectory src phys.toNat = .ok (s, newDir)) (hnew : newDir ≠ 0) :
      Turn y (.clonePageDirectory src phys) { state := s, known := newDir :: y.known }
  | switchPageDirectory {dir : Nat} (hdir : dir ∈ y.known) :
      Turn y (.switchPageDirectory dir) { y with state := y.state.switchPageDirectory dir }
  | pageFault {faultingAddress errCode : BitVec 32} {s : PagingState}
      (hs : y.state.pageFaultHandler faultingAddress.toNat errCode = .ok s) :
      Turn y (.pageFault faultingAddress errCode) { y with state := s }

theorem withState_eq_some {y z : PagingSystem} {r : Except Halt PagingState}
    (h : y.withState r = some z) : ∃ s, r = .ok s ∧ z = { y with state := s } := by
  cases r with
  | error e => cases h
  | ok s =>
      cases h
      exact ⟨s, rfl, rfl⟩

/-- An operation on a directory returns if its directory is known and its call returns. -/
theorem known_eq_some {y z : PagingSystem} {dir : Nat} {r : Except Halt PagingState}
    (h : (if dir ∈ y.known then y.withState r else none) = some z) :
    dir ∈ y.known ∧ ∃ s, r = .ok s ∧ z = { y with state := s } := by
  split at h
  case isTrue hdir => exact ⟨hdir, withState_eq_some h⟩
  case isFalse => cases h

theorem step_turn {y z : PagingSystem} {a : PagingAction} (h : y.step a = some z) : Turn y a z := by
  cases a with
  | mapVirtualToPhysical virtualAddr physicalAddr isKernel isWritable dir =>
      rcases known_eq_some h with ⟨hdir, s, hs, rfl⟩
      exact .mapVirtualToPhysical hdir hs
  | unmapVirtualPage virtualAddr dir =>
      rcases known_eq_some h with ⟨hdir, s, hs, rfl⟩
      exact .unmapVirtualPage hdir hs
  | allocateMemoryRegion startAddr size isKernel isWritable dir =>
      rcases known_eq_some h with ⟨hdir, s, hs, rfl⟩
      exact .allocateMemoryRegion hdir hs
  | freeMemoryRegion startAddr size dir =>
      rcases known_eq_some h with ⟨hdir, s, hs, rfl⟩
      exact .freeMemoryRegion hdir hs
  | identityMapRegion startAddr endAddr dir =>
      rcases known_eq_some h with ⟨hdir, s, hs, rfl⟩
      exact .identityMapRegion hdir hs
  | clonePageDirectory src phys =>
      simp only [step] at h
      split at h
      case isFalse => cases h
      case isTrue hsrc =>
        split at h
        · cases h
        case h_2 s newDir hs =>
          split at h
          case isTrue hnull =>
            cases h
            -- a null pointer is a clone that failed: the directory is not known afterwards
            subst hnull
            exact .cloneFailed hsrc hs
          case isFalse hnew =>
            cases h
            exact .cloned hsrc hs hnew
  | switchPageDirectory dir =>
      simp only [step] at h
      split at h
      case isTrue hdir =>
        cases h
        exact .switchPageDirectory hdir
      case isFalse => cases h
  | pageFault faultingAddress errCode =>
      rcases withState_eq_some h with ⟨s, hs, rfl⟩
      exact .pageFault hs

/-- The paging system after `initialize_paging_system`. -/
def initialized (s : PagingState) : PagingSystem :=
  { state := s
    known := [s.kernelPageDirectory] }

end PagingSystem

end Paging
end WhitexKernel
