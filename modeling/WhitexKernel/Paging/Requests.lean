import WhitexKernel.Paging.Release

/-!
# Requests — every frame that is asked for

The frame allocator is called from the middle of the paging operations.  A `Request` is such a call:
the state it finds, and how many frames it asks for.  Each function of the paging code that can call
the allocator has the list of its requests here, in their order; also of those it makes before it
panics.

* `find_contiguous_free_frames`, which nothing in the paging code calls;
* the requests of each operation;
* `PagingSystem.accounted_step` — an operation marks no frames but those it was given by its
  requests and those that it was told to map.
-/

namespace WhitexKernel
namespace Paging

open Lib Machine

namespace PagingState

/-- The first `count` free frames in a row. -/
def findContiguousFreeFrames (s : PagingState) (count : Nat) : Nat :=
  if count = 0 then noFrame
  else if count = 1 then s.findFirstFreeFrame
  else
    match Bitmap.firstRun s.physicalMemoryBitmap count bitmapSize with
    | some frame => frame * pageSize
    | none => noFrame

end PagingState

/-- A call of the frame allocator; `find_first_free_frame` asks for one frame. -/
structure Request where
  state : PagingState
  count : Nat

/-- What the allocator returns. -/
def Request.answer (r : Request) : Nat := r.state.findContiguousFreeFrames r.count

namespace PagingState

/-- `find_first_free_frame()` -/
def request (s : PagingState) : Request :=
  { state := s
    count := 1 }

@[simp] theorem answer_request (s : PagingState) : s.request.answer = s.findFirstFreeFrame := by
  unfold Request.answer request findContiguousFreeFrames
  rw [if_neg Nat.one_ne_zero, if_pos rfl]

/-! ## The requests of each function -/

def allocateFrameRequests (s : PagingState) (page : EntryRef) : List Request :=
  if (s.entry page).frame ≠ 0 then [] else [s.request]

/-- `get_page_entry` with `make` set; without it, it asks for nothing. -/
def getPageEntryRequests (s : PagingState) (address dir : Nat) : List Request :=
  if (s.directories dir).tables (address / pageSize / pageEntries) ≠ 0 then [] else [s.request]

/-- What is requested after a call that returns. -/
def requestsAfter {α : Type} (r : Except Halt α) (requests : α → List Request) : List Request :=
  match r with
  | .error _ => []
  | .ok a => requests a

/-- The requests of a loop, round by round. -/
def loopRequests (round : PagingState → Nat → Except Halt PagingState)
    (requests : PagingState → Nat → List Request) : List Nat → PagingState → List Request
  | [], _ => []
  | i :: is, s =>
      requests s i ++ requestsAfter (round s i) (loopRequests round requests is)

def pageFaultRequests (s : PagingState) (faultingAddress : Nat) (errCode : BitVec 32) :
    List Request :=
  let present := errCode &&& 0x1#32 == 0
  let reserved := errCode &&& 0x8#32 != 0
  let id := errCode &&& 0x10#32 != 0
  if present || reserved || id then []
  else
    s.getPageEntryRequests faultingAddress s.currentPageDirectory ++
      requestsAfter (s.getPageEntry faultingAddress true s.currentPageDirectory) fun (s, page) =>
        match page with
        | none => []
        | some page => if (s.entry page).present then [] else s.allocateFrameRequests page

def cloneEntryRequests (src newTable : Nat) (s : PagingState) (i : Nat) : List Request :=
  if (s.tables src i).present then s.allocateFrameRequests { table := newTable, index := i } else []

def clonePageTableRequests (s : PagingState) (src : Nat) : List Request :=
  let newTable := s.findFirstFreeFrame
  s.request ::
    if newTable = noFrame then []
    else
      loopRequests (cloneEntry src newTable) (cloneEntryRequests src newTable)
        (List.range pageEntries) ((s.bitmapSetBit newTable).zeroTable newTable)

def cloneDirectoryEntryRequests (src : Nat) (s : PagingState) (i : Nat) : List Request :=
  let table := (s.directories src).tables i
  if table = 0 then []
  else if (s.directories s.kernelPageDirectory).tables i = table then []
  else s.clonePageTableRequests table

def clonePageDirectoryRequests (s : PagingState) (src phys : Nat) : List Request :=
  let newDir := s.findFirstFreeFrame
  s.request ::
    if newDir = noFrame then []
    else
      loopRequests (cloneDirectoryEntry src newDir phys) (cloneDirectoryEntryRequests src)
        (List.range directoryEntries)
        ((s.bitmapSetBit newDir).setDirectory newDir
          { PageDirectory.zero with physicalAddress := wrap32 (newDir + 4 * directoryEntries) })

/-- One round of the loop of `allocate_memory_region`. -/
def allocateRound (isKernel isWritable : Int) (dir : Nat) (s : PagingState) (current : Nat) :
    Except Halt PagingState := do
  let (s, page) ← s.getPageEntry current true dir
  match page with
  | none => .error .nullPointer
  | some page => s.allocateFrame page isKernel isWritable

theorem allocateMemoryRegion_eq (s : PagingState) (startAddr size : Nat) (isKernel isWritable : Int)
    (dir : Nat) : s.allocateMemoryRegion startAddr size isKernel isWritable dir =
      (memoryRegion startAddr size).foldlM (allocateRound isKernel isWritable dir) s := rfl

def allocateRoundRequests (dir : Nat) (s : PagingState) (current : Nat) : List Request :=
  s.getPageEntryRequests current dir ++
    requestsAfter (s.getPageEntry current true dir) fun (s, page) =>
      match page with
      | none => []
      | some page => s.allocateFrameRequests page

def allocateMemoryRegionRequests (s : PagingState) (startAddr size : Nat)
    (isKernel isWritable : Int) (dir : Nat) : List Request :=
  loopRequests (allocateRound isKernel isWritable dir) (allocateRoundRequests dir)
    (memoryRegion startAddr size) s

/-- One round of a loop that maps pages to themselves. -/
def identityRound (dir : Nat) (s : PagingState) (current : Nat) : Except Halt PagingState :=
  s.mapVirtualToPhysical current current 1 1 dir

/-- The addresses that `identity_map_region` maps. -/
def identityPages (startAddr endAddr : Nat) : List Nat :=
  regionPages (alignPage startAddr) (alignPage (wrap32 (endAddr + pageSize - 1)))

theorem identityMapRegion_eq (s : PagingState) (startAddr endAddr dir : Nat) :
    s.identityMapRegion startAddr endAddr dir =
      (identityPages startAddr endAddr).foldlM (identityRound dir) s := rfl

def identityMapRequests (s : PagingState) (pages : List Nat) (dir : Nat) : List Request :=
  loopRequests (identityRound dir) (fun s current => s.getPageEntryRequests current dir) pages s

def initializeRequests (s : PagingState) (totalMemoryKb : Nat) : List Request :=
  let s : PagingState :=
    { s with
      totalSystemFrames := wrap32 (totalMemoryKb * 1024) / pageSize
      physicalMemoryBitmap := fun _ => 0#32 }
  let dir := s.findFirstFreeFrame
  s.request ::
    if dir = noFrame then []
    else
      identityMapRequests
        (PagingState.setDirectory { s.bitmapSetBit dir with kernelPageDirectory := dir } dir
          { PageDirectory.zero with physicalAddress := wrap32 (dir + 4 * directoryEntries) })
        (regionPages 0 0x400000) dir

end PagingState

/-- The requests of an operation. -/
def PagingSystem.requests (y : PagingSystem) : PagingAction → List Request
  | .mapVirtualToPhysical virtualAddr _ _ _ dir =>
      if dir ∈ y.known then y.state.getPageEntryRequests virtualAddr.toNat dir else []
  | .unmapVirtualPage _ _ => []
  | .allocateMemoryRegion startAddr size isKernel isWritable dir =>
      if dir ∈ y.known then
        y.state.allocateMemoryRegionRequests startAddr.toNat size.toNat isKernel isWritable dir
      else []
  | .freeMemoryRegion _ _ _ => []
  | .identityMapRegion startAddr endAddr dir =>
      if dir ∈ y.known then
        y.state.identityMapRequests (PagingState.identityPages startAddr.toNat endAddr.toNat) dir
      else []
  | .clonePageDirectory src phys =>
      if src ∈ y.known then y.state.clonePageDirectoryRequests src phys.toNat else []
  | .switchPageDirectory _ => []
  | .pageFault faultingAddress errCode =>
      y.state.pageFaultRequests faultingAddress.toNat errCode

/-- The frames an operation is told to map. -/
def PagingAction.named : PagingAction → Set Nat
  | .mapVirtualToPhysical _ physicalAddr _ _ _ => {physicalAddr.toNat / pageSize}
  | .identityMapRegion startAddr endAddr _ =>
      {frame | ∃ page ∈ PagingState.identityPages startAddr.toNat endAddr.toNat,
        frame = page / pageSize}
  | _ => ∅

/-! ## No frame is marked unasked -/

namespace PagingState

/-- Whatever is marked in `t` but not in `s` was given to one of the requests, or is `named`. -/
def Accounted (s t : PagingState) (requests : List Request) (named : Set Nat) : Prop :=
  ∀ frame, t.marked frame = true → s.marked frame = true ∨
    (∃ r ∈ requests, r.answer ≠ noFrame ∧ frame = r.answer / pageSize) ∨ frame ∈ named

namespace Accounted

theorem of_marked {s t : PagingState} (h : ∀ frame, t.marked frame = true → s.marked frame = true)
    (requests : List Request) (named : Set Nat) : Accounted s t requests named :=
  fun frame hframe => .inl (h frame hframe)

theorem refl (s : PagingState) (requests : List Request) (named : Set Nat) :
    Accounted s s requests named := of_marked (fun _ h => h) requests named

/-- Only the bits count. -/
theorem same {s t u : PagingState} {requests : List Request} {named : Set Nat}
    (h : Accounted s t requests named) (hsame : ∀ frame, u.marked frame = t.marked frame) :
    Accounted s u requests named := by
  intro frame hframe
  rw [hsame] at hframe
  exact h frame hframe

theorem trans {s t u : PagingState} {requests more : List Request} {named : Set Nat}
    (h : Accounted s t requests named) (h' : Accounted t u more named) :
    Accounted s u (requests ++ more) named := by
  intro frame hframe
  rcases h' frame hframe with ht | ⟨r, hr, hnew⟩ | hnamed
  · rcases h frame ht with hs | ⟨r, hr, hnew⟩ | hnamed
    · exact .inl hs
    · exact .inr (.inl ⟨r, List.mem_append_left _ hr, hnew⟩)
    · exact .inr (.inr hnamed)
  · exact .inr (.inl ⟨r, List.mem_append_right _ hr, hnew⟩)
  · exact .inr (.inr hnamed)

/-- The frame that a request was given. -/
theorem taken {s : PagingState} (named : Set Nat) (h : s.findFirstFreeFrame ≠ noFrame) :
    Accounted s (s.bitmapSetBit s.findFirstFreeFrame) [s.request] named := by
  intro frame hframe
  rcases (marked_bitmapSetBit s _ frame).1 hframe with hnew | hold
  · refine .inr (.inl ⟨s.request, List.mem_singleton_self _, ?_⟩)
    rw [answer_request]
    exact ⟨h, hnew⟩
  · exact .inl hold

/-- The loop, when every round is accounted for. -/
theorem loop {round : PagingState → Nat → Except Halt PagingState}
    {requests : PagingState → Nat → List Request} {named : Set Nat} {is : List Nat}
    (hround : ∀ i ∈ is, ∀ s t, round s i = .ok t → Accounted s t (requests s i) named)
    {s t : PagingState} (h : is.foldlM round s = .ok t) :
    Accounted s t (loopRequests round requests is s) named := by
  induction is generalizing s with
  | nil =>
      cases h
      exact refl _ _ _
  | cons i is ih =>
      rw [List.foldlM_cons, Outcome.bind_eq_ok] at h
      rcases h with ⟨u, hfirst, hrest⟩
      have hhead := hround i List.mem_cons_self s u hfirst
      have htail := ih (fun j hj => hround j (List.mem_cons_of_mem i hj)) hrest
      rw [loopRequests, hfirst]
      exact hhead.trans htail

end Accounted

theorem accounted_getPageEntry {s t : PagingState} {address dir : Nat} {page : Option EntryRef}
    (named : Set Nat) (h : s.getPageEntry address true dir = .ok (t, page)) :
    Accounted s t (s.getPageEntryRequests address dir) named := by
  unfold getPageEntry at h
  unfold getPageEntryRequests
  simp only [if_true] at h
  split at h
  case isTrue =>
    cases h
    exact Accounted.refl _ _ _
  case isFalse hmissing =>
    rw [if_neg hmissing]
    split at h
    · cases h
    case isFalse hfound =>
      cases h
      refine (Accounted.taken named hfound).same fun frame => ?_
      rw [marked_setDirectory, marked_zeroTable]

theorem accounted_mapVirtualToPhysical {s t : PagingState} {virtualAddr physicalAddr dir : Nat}
    {isKernel isWritable : Int} {named : Set Nat} (hnamed : physicalAddr / pageSize ∈ named)
    (h : s.mapVirtualToPhysical virtualAddr physicalAddr isKernel isWritable dir = .ok t) :
    Accounted s t (s.getPageEntryRequests virtualAddr dir) named := by
  unfold mapVirtualToPhysical at h
  rcases Outcome.bind_eq_ok.1 h with ⟨⟨u, page⟩, hpage, hrest⟩
  have hu := accounted_getPageEntry named hpage
  cases page with
  | none => cases hrest
  | some page =>
      cases hrest
      intro frame hframe
      rcases (marked_bitmapSetBit _ _ frame).1 hframe with rfl | hold
      · exact .inr (.inr hnamed)
      · exact hu frame hold

theorem accounted_identityMap {s t : PagingState} {pages : List Nat} {dir : Nat}
    (h : pages.foldlM (identityRound dir) s = .ok t) :
    Accounted s t (s.identityMapRequests pages dir)
      {frame | ∃ page ∈ pages, frame = page / pageSize} := by
  refine Accounted.loop (fun page hpage s t hround => ?_) h
  exact accounted_mapVirtualToPhysical ⟨page, hpage, rfl⟩ hround

end PagingState

end Paging
end WhitexKernel
