import WhitexKernel.Lib.BitField
import WhitexKernel.Lib.WordArray
import WhitexKernel.Paging.Model

/-!
# Flat — the paging structures in one memory (`paging.h`)

Here page directories and page tables are bytes of one flat memory, as pointers and bit-fields of the
source have them: a directory is larger than the frame taken for it, so that its `physical_tables` lie
on whatever comes behind it, and `register_interrupt_handler` stores an address at `0x38`, which is a
pointer of the kernel directory.

The bitmap, the counters and the pointers to the directories are objects of the kernel image, which is
below 4 MiB; they are kept apart from this memory.  A pointer is the address that it holds, `0` is
`NULL`.  The control registers and the TLB are left out.
-/

namespace WhitexKernel
namespace Paging

open Lib Machine FlatMemory

/-! ## Data -/

/-- The members of `page_table_entry_t`. -/
abbrev EntryField := BitField 32

namespace EntryField

def present : EntryField := ⟨0, 1, by decide⟩

def rw : EntryField := ⟨1, 1, by decide⟩

def user : EntryField := ⟨2, 1, by decide⟩

def accessed : EntryField := ⟨3, 1, by decide⟩

def dirty : EntryField := ⟨4, 1, by decide⟩

def frame : EntryField := ⟨12, 20, by decide⟩

end EntryField

/-- `&table->entries[index]` -/
def entryAddress (table : Address) (index : Nat) : Address := offset table (4 * index)

/-- `&dir->tables[index]` -/
def tablePointer (dir : Address) (index : Nat) : Address := offset dir (4 * index)

/-- `&dir->physical_tables[index]`, behind the pointers. -/
def physicalTable (dir : Address) (index : Nat) : Address := offset dir (4 * (1024 + index))

/-- `&dir->physical_address`, behind both arrays. -/
def physicalAddress (dir : Address) : Address := offset dir (4 * 2048)

/-- `sizeof(page_directory_t)` -/
def directorySize : Nat := 4 * 2048 + 4

/-- A C truth value in a bit-field of one bit. -/
def flag (b : Prop) [Decidable b] : BitVec 1 := if b then 1 else 0

/-- The globals of `paging.h`, and the memory. -/
structure FlatState where
  memory : Memory
  physicalMemoryBitmap : Bitmap.Words 32
  totalAllocatedFrames : BitVec 32
  totalSystemFrames : BitVec 32
  currentPageDirectory : Address
  kernelPageDirectory : Address

namespace FlatState

/-- A member of the entry at `page`. -/
def getField (s : FlatState) (f : EntryField) (page : Address) : BitVec f.width :=
  f.get (word s.memory page)

/-- `page->f = v` -/
def setField (s : FlatState) (f : EntryField) (page : Address) (v : BitVec f.width) : FlatState :=
  { s with memory := storeWord s.memory page (f.set (word s.memory page) v) }

/-- `*p = w` -/
def store (s : FlatState) (p : Address) (w : BitVec 32) : FlatState :=
  { s with memory := storeWord s.memory p w }

/-- `memzero_custom` -/
def zero (s : FlatState) (dest : Address) (len : Nat) : FlatState :=
  { s with memory := zeroed s.memory dest len }

/-- The bit of a frame is set. -/
def marked (s : FlatState) (frame : Nat) : Bool := Bitmap.marked s.physicalMemoryBitmap frame

def bitmapSetBit (s : FlatState) (frameAddress : Address) : FlatState :=
  { s with
    physicalMemoryBitmap := Bitmap.mark s.physicalMemoryBitmap (frameAddress.toNat / pageSize) }

def bitmapClearBit (s : FlatState) (frameAddress : Address) : FlatState :=
  { s with
    physicalMemoryBitmap := Bitmap.clear s.physicalMemoryBitmap (frameAddress.toNat / pageSize) }

/-! ## Frames -/

def findFirstFreeFrame (s : FlatState) : Address :=
  match Bitmap.firstClear s.physicalMemoryBitmap bitmapSize with
  | some frame => BitVec.ofNat 32 (frame * pageSize)
  | none => BitVec.ofNat 32 noFrame

/-- Give an entry a frame, unless it has one. -/
def allocateFrame (s : FlatState) (page : Address) (isKernel isWritable : Int) :
    Except Halt FlatState :=
  if s.getField .frame page ≠ 0 then .ok s
  else
    let frameAddr := s.findFirstFreeFrame
    if frameAddr = BitVec.ofNat 32 noFrame then .error (.panic "SYS_ERR_OUT_OF_PHYSICAL_MEMORY")
    else
      let s := s.bitmapSetBit frameAddr
      let s := s.setField .present page 1
      let s := s.setField .rw page (flag (isWritable = 1))
      let s := s.setField .user page (flag (isKernel ≠ 1))
      let s := s.setField .frame page (BitVec.ofNat _ (frameAddr.toNat / pageSize))
      .ok { s with totalAllocatedFrames := s.totalAllocatedFrames + 1 }

def freeFrame (s : FlatState) (page : Address) : FlatState :=
  let frameAddr := s.getField .frame page
  if frameAddr = 0 then s
  else
    let s := s.bitmapClearBit (BitVec.ofNat 32 (frameAddr.toNat * pageSize))
    let s := s.setField .frame page 0
    let s := s.setField .present page 0
    { s with totalAllocatedFrames := s.totalAllocatedFrames - 1 }

/-! ## Pages -/

/-- The entry for an address, in a table that is made when it is missing, if asked to `make` it;
otherwise `NULL`.  The pointer to the new table is read again after each store. -/
def getPageEntry (s : FlatState) (address : Address) (make : Bool) (dir : Address) :
    Except Halt (FlatState × Address) :=
  let tableIdx := address.toNat / pageSize / pageEntries
  let pageIdx := address.toNat / pageSize % pageEntries
  let table := word s.memory (tablePointer dir tableIdx)
  if table ≠ 0 then .ok (s, entryAddress table pageIdx)
  else if make then
    let s := s.store (tablePointer dir tableIdx) s.findFirstFreeFrame
    let physicalAddr := word s.memory (tablePointer dir tableIdx)
    if physicalAddr = BitVec.ofNat 32 noFrame then
      .error (.panic "SYS_ERR_PAGE_TABLE_ALLOCATION_FAILED")
    else
      let s := s.bitmapSetBit physicalAddr
      let s := s.zero (word s.memory (tablePointer dir tableIdx)) (4 * pageEntries)
      -- behind the frame of the directory, whatever is there
      let s := s.store (physicalTable dir tableIdx) (physicalAddr ||| 0x07#32)
      .ok (s, entryAddress (word s.memory (tablePointer dir tableIdx)) pageIdx)
  else .ok (s, 0)

def mapVirtualToPhysical (s : FlatState) (virtualAddr physicalAddr : Address)
    (isKernel isWritable : Int) (dir : Address) : Except Halt FlatState := do
  let (s, page) ← s.getPageEntry virtualAddr true dir
  if page = 0 then .error (.panic "SYS_ERR_MAP_VIRTUAL_FAILED")
  else
    let s := s.setField .present page 1
    let s := s.setField .rw page (flag (isWritable ≠ 0))
    let s := s.setField .user page (flag (isKernel = 0))
    let s := s.setField .frame page (BitVec.ofNat _ (physicalAddr.toNat / pageSize))
    .ok (s.bitmapSetBit physicalAddr)

def unmapVirtualPage (s : FlatState) (virtualAddr dir : Address) : Except Halt FlatState := do
  let (s, page) ← s.getPageEntry virtualAddr false dir
  if page ≠ 0 ∧ s.getField .present page ≠ 0 then
    let s := s.freeFrame page
    .ok (s.setField .present page 0)
  else .ok s

def switchPageDirectory (s : FlatState) (dir : Address) : FlatState :=
  { s with currentPageDirectory := dir }

/-- `errCode` is `regs->err_code`, and `faultingAddress` the value of `cr2`. -/
def pageFaultHandler (s : FlatState) (faultingAddress : Address) (errCode : BitVec 32) :
    Except Halt FlatState :=
  let present := errCode &&& 0x1#32 = 0
  let rw := errCode &&& 0x2#32 ≠ 0
  let us := errCode &&& 0x4#32 ≠ 0
  let reserved := errCode &&& 0x8#32 ≠ 0
  let id := errCode &&& 0x10#32 ≠ 0
  -- the bit is clear when the page is missing, so that every such fault ends here
  if present ∨ reserved ∨ id then .error (.panic "SYS_ERR_UNRECOVERABLE_PAGE_FAULT")
  else do
    let (s, page) ← s.getPageEntry faultingAddress true s.currentPageDirectory
    if s.getField .present page = 0 then
      s.allocateFrame page (if us then 0 else 1) (if rw then 1 else 0)
    else .error (.panic "SYS_ERR_PROTECTION_FAULT")

/-! ## Clones -/

/-- `dest->f = src->f` -/
def copyField (s : FlatState) (f : EntryField) (dest src : Address) : FlatState :=
  s.setField f dest (s.getField f src)

/-- The page that an entry maps. -/
def pageOf (s : FlatState) (page : Address) : Address :=
  BitVec.ofNat 32 ((s.getField .frame page).toNat * pageSize)

/-- `memcpy_custom` of one page. -/
def copyPage (s : FlatState) (dest src : Address) : FlatState :=
  { s with memory := copied s.memory dest src pageSize }

/-- One round of the loop of `clone_page_table`. -/
def cloneEntry (src newTable : Address) (s : FlatState) (i : Nat) : Except Halt FlatState :=
  if s.getField .present (entryAddress src i) ≠ 0 then do
    let s ← s.allocateFrame (entryAddress newTable i) 0 0
    let s := s.copyField .present (entryAddress newTable i) (entryAddress src i)
    let s := s.copyField .rw (entryAddress newTable i) (entryAddress src i)
    let s := s.copyField .user (entryAddress newTable i) (entryAddress src i)
    let s := s.copyField .accessed (entryAddress newTable i) (entryAddress src i)
    let s := s.copyField .dirty (entryAddress newTable i) (entryAddress src i)
    .ok (s.copyPage (s.pageOf (entryAddress newTable i)) (s.pageOf (entryAddress src i)))
  else .ok s

/-- The new table, `NULL` when there is no frame for it, and the value of `*physical_addr`
afterwards. -/
def clonePageTable (s : FlatState) (src physicalAddr : Address) :
    Except Halt (FlatState × Address × Address) :=
  let newTable := s.findFirstFreeFrame
  if newTable = BitVec.ofNat 32 noFrame then .ok (s, 0, physicalAddr)
  else do
    let s := s.bitmapSetBit newTable
    let s := s.zero newTable (4 * pageEntries)
    let s ← (List.range pageEntries).foldlM (cloneEntry src newTable) s
    .ok (s, newTable, newTable)

/-- One round of the loop of `clone_page_directory`; `phys` is what the uninitialised variable of
that name holds. -/
def cloneDirectoryEntry (src newDir phys : Address) (s : FlatState) (i : Nat) :
    Except Halt FlatState :=
  let table := word s.memory (tablePointer src i)
  if table = 0 then .ok s
  else if word s.memory (tablePointer s.kernelPageDirectory i) = table then
    -- tables of the kernel are shared
    let s := s.store (tablePointer newDir i) table
    .ok (s.store (physicalTable newDir i) (word s.memory (physicalTable src i)))
  else do
    let (s, newTable, phys) ← s.clonePageTable table phys
    let s := s.store (tablePointer newDir i) newTable
    .ok (s.store (physicalTable newDir i) (phys ||| 0x07#32))

/-- A directory at `dir`, of which only `physical_address` is set. -/
def newDirectory (s : FlatState) (dir : Address) : FlatState :=
  let s := s.bitmapSetBit dir
  let s := s.zero dir directorySize
  s.store (physicalAddress dir) (dir + (physicalTable dir 0 - dir))

/-- The address of the new directory, `NULL` when there is no frame for it. -/
def clonePageDirectory (s : FlatState) (src phys : Address) : Except Halt (FlatState × Address) :=
  let newDir := s.findFirstFreeFrame
  if newDir = BitVec.ofNat 32 noFrame then .ok (s, 0)
  else do
    let s := s.newDirectory newDir
    let s ← (List.range directoryEntries).foldlM (cloneDirectoryEntry src newDir phys) s
    .ok (s, newDir)

/-! ## Regions -/

/-- The addresses that a loop over the pages of a region visits. -/
def pagesOf (pages : List Nat) : List Address := pages.map (BitVec.ofNat 32)

/-- One round of the loop of `allocate_memory_region`. -/
def allocateRound (isKernel isWritable : Int) (dir : Address) (s : FlatState) (current : Address) :
    Except Halt FlatState := do
  let (s, page) ← s.getPageEntry current true dir
  s.allocateFrame page isKernel isWritable

def allocateMemoryRegion (s : FlatState) (startAddr size : Address) (isKernel isWritable : Int)
    (dir : Address) : Except Halt FlatState :=
  (pagesOf (PagingState.memoryRegion startAddr.toNat size.toNat)).foldlM
    (allocateRound isKernel isWritable dir) s

/-- One round of the loop of `free_memory_region`. -/
def freeRound (dir : Address) (s : FlatState) (current : Address) : Except Halt FlatState :=
  s.unmapVirtualPage current dir

def freeMemoryRegion (s : FlatState) (startAddr size dir : Address) : Except Halt FlatState :=
  (pagesOf (PagingState.memoryRegion startAddr.toNat size.toNat)).foldlM (freeRound dir) s

/-- The loop of `check_region_availability`. -/
def checkPages (s : FlatState) (dir : Address) : List Address → Except Halt Nat
  | [] => .ok 1
  | current :: rest => do
      let (s, page) ← s.getPageEntry current false dir
      if page ≠ 0 ∧ s.getField .present page ≠ 0 then .ok 0 else s.checkPages dir rest

def checkRegionAvailability (s : FlatState) (startAddr size dir : Address) : Except Halt Nat :=
  s.checkPages dir (pagesOf (PagingState.memoryRegion startAddr.toNat size.toNat))

/-- One round of the loop of `identity_map_region`. -/
def identityRound (dir : Address) (s : FlatState) (current : Address) : Except Halt FlatState :=
  s.mapVirtualToPhysical current current 1 1 dir

/-- The addresses that `identity_map_region` visits. -/
def identityRegion (startAddr endAddr : Address) : List Nat :=
  PagingState.regionPages (PagingState.alignPage startAddr.toNat)
    (PagingState.alignPage (wrap32 (endAddr.toNat + pageSize - 1)))

def identityMapRegion (s : FlatState) (startAddr endAddr dir : Address) : Except Halt FlatState :=
  (pagesOf (identityRegion startAddr endAddr)).foldlM (identityRound dir) s

/-! ## Initialisation -/

/-- The handlers begin at address `0`. -/
def registerInterruptHandler (s : FlatState) (n : BitVec 8) (handler : Address) : FlatState :=
  s.store (offset 0 (4 * n.toNat)) handler

/-- `handler` is the address of `page_fault_handler`. -/
def initializePagingSystem (s : FlatState) (handler : Address) (totalMemoryKb : BitVec 32) :
    Except Halt FlatState :=
  let s : FlatState :=
    { s with
      totalSystemFrames := totalMemoryKb * 1024#32 / BitVec.ofNat 32 pageSize
      physicalMemoryBitmap := fun _ => 0#32 }
  let dir := s.findFirstFreeFrame
  if dir = BitVec.ofNat 32 noFrame then .error (.panic "SYS_ERR_KERNEL_DIR_ALLOC_FAILED")
  else do
    let s := { s.newDirectory dir with kernelPageDirectory := dir }
    let s ← (pagesOf (PagingState.regionPages 0 0x400000)).foldlM (identityRound dir) s
    let s := s.registerInterruptHandler 14 handler
    .ok (s.switchPageDirectory dir)

/-- Before it the globals are zero. -/
def boot (memory : Memory) : FlatState :=
  { memory := memory
    physicalMemoryBitmap := fun _ => 0
    totalAllocatedFrames := 0
    totalSystemFrames := 0
    currentPageDirectory := 0
    kernelPageDirectory := 0 }

/-! ## Totals -/

def getTotalAllocatedMemory (s : FlatState) : BitVec 32 :=
  s.totalAllocatedFrames * BitVec.ofNat 32 pageSize

def getTotalFreeMemory (s : FlatState) : BitVec 32 :=
  (s.totalSystemFrames - s.totalAllocatedFrames) * BitVec.ofNat 32 pageSize

end FlatState

/-! ## The system -/

/-- The paging state and the directories handed out so far. -/
structure FlatSystem where
  state : FlatState
  known : List Address

/-- A paging operation with its arguments. -/
inductive FlatAction
  | mapVirtualToPhysical (virtualAddr physicalAddr : Address) (isKernel isWritable : Int)
      (dir : Address)
  | unmapVirtualPage (virtualAddr dir : Address)
  | allocateMemoryRegion (startAddr size : Address) (isKernel isWritable : Int) (dir : Address)
  | freeMemoryRegion (startAddr size dir : Address)
  | identityMapRegion (startAddr endAddr dir : Address)
  /-- `phys` is what the uninitialised variable of that name holds. -/
  | clonePageDirectory (src phys : Address)
  | switchPageDirectory (dir : Address)
  | pageFault (faultingAddress : Address) (errCode : BitVec 32)

namespace FlatAction

/-- The directory that an operation is called for; a fault is taken in the current one. -/
def directory (y : FlatSystem) : FlatAction → Address
  | .mapVirtualToPhysical _ _ _ _ dir => dir
  | .unmapVirtualPage _ dir => dir
  | .allocateMemoryRegion _ _ _ _ dir => dir
  | .freeMemoryRegion _ _ dir => dir
  | .identityMapRegion _ _ dir => dir
  | .clonePageDirectory src _ => src
  | .switchPageDirectory dir => dir
  | .pageFault _ _ => y.state.currentPageDirectory

/-- The call, and the directory it hands out, if it does. -/
def call (s : FlatState) : FlatAction → Except Halt (FlatState × List Address)
  | .mapVirtualToPhysical virtualAddr physicalAddr isKernel isWritable dir =>
      return (← s.mapVirtualToPhysical virtualAddr physicalAddr isKernel isWritable dir, [])
  | .unmapVirtualPage virtualAddr dir => return (← s.unmapVirtualPage virtualAddr dir, [])
  | .allocateMemoryRegion startAddr size isKernel isWritable dir =>
      return (← s.allocateMemoryRegion startAddr size isKernel isWritable dir, [])
  | .freeMemoryRegion startAddr size dir => return (← s.freeMemoryRegion startAddr size dir, [])
  | .identityMapRegion startAddr endAddr dir =>
      return (← s.identityMapRegion startAddr endAddr dir, [])
  | .clonePageDirectory src phys => do
      let (s, newDir) ← s.clonePageDirectory src phys
      return (s, if newDir = 0 then [] else [newDir])
  | .switchPageDirectory dir => return (s.switchPageDirectory dir, [])
  | .pageFault faultingAddress errCode => return (← s.pageFaultHandler faultingAddress errCode, [])

end FlatAction

namespace FlatSystem

/-- Operations take directories that exist. -/
def step (y : FlatSystem) (a : FlatAction) : Option FlatSystem :=
  if a.directory y ∈ y.known then
    match a.call y.state with
    | .error _ => none
    | .ok (s, handed) =>
        some
          { state := s
            known := handed ++ y.known }
  else none

/-- The paging system after `initialize_paging_system`. -/
def initialized (s : FlatState) : FlatSystem :=
  { state := s
    known := [s.kernelPageDirectory] }

end FlatSystem

end Paging
end WhitexKernel
