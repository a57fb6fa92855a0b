import WhitexKernel.Paging.Layout
import WhitexKernel.Paging.Requests

/-!
# Detected — whether frames lie in the memory there is

`initialize_paging_system` keeps the number of frames of the machine in `total_system_frames`, but
the bitmap covers 4 GiB on every machine and nothing marks the frames behind the end of memory.  The
allocators look for the first free frames of the whole bitmap; so they answer within memory exactly
as long as there is room in it, and afterwards hand out frames that do not exist.
-/

namespace WhitexKernel
namespace Paging

open Lib Machine

/-- The frames of a machine with this much memory, computed exactly. -/
def detectedFrames (totalMemoryKb : Nat) : Nat := totalMemoryKb * 1024 / pageSize

/-! ## One request -/

namespace Request

/-- The answer is frames below `frames`, or that there are none. -/
def InDetected (frames : Nat) (r : Request) : Prop :=
  r.answer = noFrame ∨ r.answer / pageSize + r.count ≤ frames

/-- The bitmap has the requested number of free frames from `start` on. -/
def FreeAt (r : Request) (start : Nat) : Prop :=
  Bitmap.ClearRun r.state.physicalMemoryBitmap start r.count ∧ start + r.count ≤ bitmapSize * 32

/-- There are enough free frames in a row below `frames`, or nowhere in the bitmap. -/
def HasRoom (frames : Nat) (r : Request) : Prop :=
  r.count = 0 ∨ (∃ start, r.FreeAt start ∧ start + r.count ≤ frames) ∨ ∀ start, ¬ r.FreeAt start

/-- A request is answered by the first frames that are free, if any are. -/
theorem answer_cases (r : Request) :
    (r.answer = noFrame ∧ (r.count = 0 ∨ ∀ start, ¬ r.FreeAt start)) ∨
    ∃ start, r.answer = start * pageSize ∧ 0 < r.count ∧ r.FreeAt start ∧
      ∀ start', r.FreeAt start' → start ≤ start' := by
  unfold answer FreeAt PagingState.findContiguousFreeFrames
  split
  case isTrue hzero => exact .inl ⟨rfl, .inl hzero⟩
  case isFalse hzero =>
    have hpos : 0 < r.count := Nat.pos_of_ne_zero hzero
    split
    case isTrue hone =>
      rw [hone]
      -- a request for one frame goes to `find_first_free_frame`
      rcases r.state.findFirstFreeFrame_cases with ⟨hnone, hall⟩ | ⟨frame, hframe, hlowest⟩
      · refine .inl ⟨hnone, .inr fun start hstart => ?_⟩
        have hmarked : Bitmap.marked _ start = true := hall start hstart.2
        have hclear := hstart.1 0 Nat.one_pos
        rw [Nat.add_zero, hmarked] at hclear
        cases hclear
      · refine .inr ⟨frame, hframe, Nat.one_pos, ⟨fun i hi => ?_, hlowest.lt⟩,
          fun start hstart => ?_⟩
        · rw [Nat.lt_one_iff.1 hi]
          exact hlowest.clear
        · by_contra hless
          have hmarked : Bitmap.marked _ start = true :=
            hlowest.below start (Nat.lt_of_not_le hless)
          have hfree := hstart.1 0 Nat.one_pos
          rw [Nat.add_zero, hmarked] at hfree
          cases hfree
    case isFalse =>
      cases hfound : Bitmap.firstRun r.state.physicalMemoryBitmap r.count bitmapSize with
      | none =>
          refine .inl ⟨rfl, .inr fun start hstart => ?_⟩
          exact Bitmap.firstRun_none hpos hfound start hstart.1 hstart.2
      | some frame =>
          rcases Bitmap.firstRun_some hpos hfound with ⟨hclear, hend, hleast⟩
          exact .inr ⟨frame, rfl, hpos, ⟨hclear, hend⟩, fun start hstart => hleast start hstart.1⟩

/-- A request is answered within the detected memory exactly when there is room in it, or none at
all. -/
theorem inDetected_iff (frames : Nat) (r : Request) : r.InDetected frames ↔ r.HasRoom frames := by
  unfold InDetected HasRoom
  rcases r.answer_cases with ⟨hnone, hcount⟩ | ⟨start, hanswer, hpos, hfree, hleast⟩
  · exact iff_of_true (.inl hnone) (hcount.imp_right .inr)
  · have hend : start + r.count ≤ 1048576 := hfree.2
    -- the answer is the least run of free frames
    have hframe : r.answer / pageSize = start := by
      rw [hanswer]
      exact Nat.mul_div_cancel start (by decide)
    have hsome : r.answer ≠ noFrame := by
      rw [hanswer]
      unfold noFrame pageSize
      omega
    rw [hframe]
    constructor
    · rintro (hnone | hbelow)
      · exact absurd hnone hsome
      · exact .inr (.inl ⟨start, hfree, hbelow⟩)
    · rintro (hzero | ⟨start', hfree', hbelow⟩ | hnone)
      · exact absurd hzero (Nat.ne_of_gt hpos)
      · have hle := hleast start' hfree'
        exact .inr (by omega)
      · exact absurd hfree (hnone start)

end Request

/-! ## Runs -/

/-- A paging operation, or a call of one of the allocators. -/
inductive FrameAction
  | operation (a : PagingAction)
  | findFirstFreeFrame
  | findContiguousFreeFrames (count : BitVec 32)

namespace PagingSystem

def frameRequests (y : PagingSystem) : FrameAction → List Request
  | .operation a => y.requests a
  | .findFirstFreeFrame => [y.state.request]
  | .findContiguousFreeFrames count => [{ state := y.state, count := count.toNat }]

def frameStep (y : PagingSystem) : FrameAction → Option PagingSystem
  | .operation a => y.step a
  | .findFirstFreeFrame => some y
  | .findContiguousFreeFrames _ => some y

/-- All requests of a run, those of a call that does not return included. -/
def runRequests (y : PagingSystem) : List FrameAction → List Request
  | [] => []
  | a :: as =>
      y.frameRequests a ++
        match y.frameStep a with
        | none => []
        | some z => z.runRequests as

end PagingSystem

/-! ## The bitmap after initialisation -/

namespace PagingState

/-- A page that is mapped has its frame marked, and no bit is cleared. -/
theorem mapVirtualToPhysical_marks {s t : PagingState} {virtualAddr physicalAddr dir : Nat}
    {isKernel isWritable : Int}
    (h : s.mapVirtualToPhysical virtualAddr physicalAddr isKernel isWritable dir = .ok t) :
    (∀ frame, s.marked frame = true → t.marked frame = true) ∧
      t.marked (physicalAddr / pageSize) = true := by
  unfold mapVirtualToPhysical at h
  rcases Outcome.bind_eq_ok.1 h with ⟨⟨u, page⟩, hpage, hrest⟩
  -- at most a frame for the table is marked on the way
  have hkept : ∀ frame, s.marked frame = true → u.marked frame = true := by
    intro frame hframe
    unfold getPageEntry at hpage
    simp only [if_true] at hpage
    split at hpage
    · cases hpage
      exact hframe
    · split at hpage
      · cases hpage
      · cases hpage
        rw [marked_setDirectory, marked_zeroTable, marked_bitmapSetBit]
        exact .inr hframe
  cases page with
  | none => cases hrest
  | some page =>
      cases hrest
      refine ⟨fun frame hframe => ?_, ?_⟩
      · rw [marked_bitmapSetBit, marked_setEntry]
        exact .inr (hkept frame hframe)
      · rw [marked_bitmapSetBit]
        exact .inl rfl

/-- Mapping pages to themselves marks all of them. -/
theorem identityMap_marks {s t : PagingState} {pages : List Nat} {dir : Nat}
    (h : pages.foldlM (identityRound dir) s = .ok t) :
    (∀ frame, s.marked frame = true → t.marked frame = true) ∧
      ∀ page ∈ pages, t.marked (page / pageSize) = true := by
  induction pages generalizing s with
  | nil =>
      cases h
      exact ⟨fun _ hframe => hframe, fun page hmem => by cases hmem⟩
  | cons page pages ih =>
      rw [List.foldlM_cons, Outcome.bind_eq_ok] at h
      rcases h with ⟨u, hfirst, hrest⟩
      have hround := mapVirtualToPhysical_marks hfirst
      have hloop := ih hrest
      refine ⟨fun frame hframe => hloop.1 frame (hround.1 frame hframe), fun other hmem => ?_⟩
      rcases List.mem_cons.1 hmem with rfl | hmem
      · exact hloop.1 _ hround.2
      · exact hloop.2 other hmem

/-- Once there is a table for the first 4 MiB, mapping them asks for nothing. -/
theorem identityMapRequests_eq_nil {s : PagingState} {pages : List Nat} {dir : Nat}
    (hpages : ∀ page ∈ pages, page / pageSize / pageEntries = 0)
    (htable : (s.directories dir).tables 0 ≠ 0) : s.identityMapRequests pages dir = [] := by
  unfold identityMapRequests
  induction pages generalizing s with
  | nil => rfl
  | cons page pages ih =>
      have hlow := hpages page List.mem_cons_self
      rcases mapVirtualToPhysical_first (.inl htable) hlow page 1 1 with ⟨u, hu, hnext⟩
      have hround : identityRound dir s page = .ok u := hu
      have hnone : s.getPageEntryRequests page dir = [] := by
        unfold getPageEntryRequests
        rw [hlow, if_pos htable]
      rw [loopRequests, hnone, hround]
      exact ih (fun other hmem => hpages other (List.mem_cons_of_mem page hmem)) hnext

/-- Without one, only the first page asks for a frame. -/
theorem eq_request_of_mem_identityMapRequests {s : PagingState} {pages : List Nat} {dir : Nat}
    (hpages : ∀ page ∈ pages, page / pageSize / pageEntries = 0) (htaken : s.FirstFrameTaken)
    {r : Request} (hr : r ∈ s.identityMapRequests pages dir) : r = s.request := by
  cases pages with
  | nil => cases hr
  | cons page pages =>
      have hlow := hpages page List.mem_cons_self
      have hrest : ∀ other ∈ pages, other / pageSize / pageEntries = 0 :=
        fun other hmem => hpages other (List.mem_cons_of_mem page hmem)
      have hfirst : s.MapsFirst dir := .inr htaken
      rcases mapVirtualToPhysical_first hfirst hlow page 1 1 with ⟨u, hu, hnext⟩
      have hround : identityRound dir s page = .ok u := hu
      have hnone : loopRequests (identityRound dir)
          (fun s current => s.getPageEntryRequests current dir) pages u = [] :=
        identityMapRequests_eq_nil hrest hnext
      rw [identityMapRequests, loopRequests, hround, requestsAfter, hnone, List.append_nil] at hr
      unfold getPageEntryRequests at hr
      split at hr
      · cases hr
      · exact List.mem_singleton.1 hr

theorem low_of_mem_regionPages {page : Nat} (h : page ∈ regionPages 0 0x400000) :
    page / pageSize < 1024 ∧ page / pageSize / pageEntries = 0 := by
  rcases List.mem_map.1 h with ⟨i, hi, rfl⟩
  rw [List.mem_range] at hi
  unfold pageSize at hi ⊢
  unfold pageEntries
  omega

theorem mem_regionPages_of_low {frame : Nat} (h : frame < 1024) :
    frame * pageSize ∈ regionPages 0 0x400000 := by
  refine List.mem_map.2 ⟨frame, List.mem_range.2 ?_, Nat.zero_add _⟩
  unfold pageSize
  omega

/-- The loop of `initialize_paging_system` marks the frames of the first 4 MiB and no other
ones. -/
theorem marked_identityMap {s t : PagingState} {pages : List Nat} (htaken : s.FirstFrameTaken)
    (hnext : s.findFirstFreeFrame = pageSize) (hlow : ∀ frame, s.marked frame = true → frame < 1024)
    (hpages : ∀ page ∈ pages, page / pageSize < 1024 ∧ page / pageSize / pageEntries = 0)
    (hall : ∀ frame, frame < 1024 → frame * pageSize ∈ pages)
    (h : pages.foldlM (identityRound 0) s = .ok t) (frame : Nat) :
    t.marked frame = true ↔ frame < 1024 := by
  constructor
  · intro hframe
    rcases accounted_identityMap h frame hframe with hold | ⟨r, hr, _, rfl⟩ | ⟨page, hpage, rfl⟩
    · exact hlow frame hold
    · -- the only request is the one for the first table
      have hfirst := eq_request_of_mem_identityMapRequests
        (fun page hpage => (hpages page hpage).2) htaken hr
      rw [hfirst, answer_request, hnext]
      decide
    · exact (hpages page hpage).1
  · intro hframe
    have hmarked := (identityMap_marks h).2 _ (hall frame hframe)
    rwa [Nat.mul_div_cancel frame (by decide)] at hmarked

theorem marked_initializePagingSystem {s t : PagingState} {totalMemoryKb : Nat}
    (h : s.initializePagingSystem totalMemoryKb = .ok t) (frame : Nat) :
    t.marked frame = true ↔ frame < 1024 := by
  unfold initializePagingSystem at h
  simp only at h
  rw [findFirstFreeFrame_empty rfl, if_neg (by decide : ¬ (0 : Nat) = noFrame)] at h
  generalize hempty : PagingState.mk (fun _ => 0#32) _ _ _ _ _ _ _ = u at h
  have hbitmap : u.physicalMemoryBitmap = fun _ => 0#32 := by rw [← hempty]
  rcases Outcome.bind_eq_ok.1 h with ⟨v, hloop, hrest⟩
  cases hrest
  -- frame 0 has been taken for the directory before the loop begins
  have htaken := firstFrameTaken_bitmapSetBit hbitmap
  have hpages := fun page => @low_of_mem_regionPages page
  have hall := fun frame => @mem_regionPages_of_low frame
  generalize regionPages 0 0x400000 = pages at hloop hpages hall
  have hrounds : pages.foldlM (identityRound 0) _ = .ok v := hloop
  refine marked_identityMap ?_ ?_ ?_ hpages hall hrounds frame
  · exact ⟨htaken.taken, htaken.left⟩
  · refine findFirstFreeFrame_second ?_
    rw [← hbitmap]
    rfl
  · intro frame hframe
    have hmarked : (u.bitmapSetBit 0).marked frame = true := hframe
    rcases (marked_bitmapSetBit u 0 frame).1 hmarked with hzero | hold
    · rw [hzero]
      decide
    · unfold marked at hold
      rw [hbitmap, Bitmap.marked_zero] at hold
      cases hold

end PagingState

/-- After initialisation the frames behind the first 4 MiB are free. -/
theorem Request.freeAt_iff {r : Request} (hpos : 0 < r.count)
    (hmarked : ∀ frame, r.state.marked frame = true ↔ frame < 1024) (start : Nat) :
    r.FreeAt start ↔ 1024 ≤ start ∧ start + r.count ≤ bitmapSize * 32 := by
  unfold FreeAt
  refine and_congr_left fun _ => ?_
  constructor
  · intro hclear
    by_contra hlow
    have htaken : r.state.marked (start + 0) = true := (hmarked start).2 (Nat.lt_of_not_le hlow)
    have hfree : r.state.marked (start + 0) = false := hclear 0 hpos
    rw [hfree] at htaken
    cases htaken
  · intro hhigh i _
    have hfree : ¬ r.state.marked (start + i) = true := by
      rw [hmarked]
      omega
    exact Bool.eq_false_iff.2 hfree

/-- Then no request is answered within less than 4 MiB and `count` frames, if frames are left. -/
theorem Request.le_of_inDetected {r : Request} {frames : Nat} (hpos : 0 < r.count)
    (hmarked : ∀ frame, r.state.marked frame = true ↔ frame < 1024)
    (hleft : 1024 + r.count ≤ bitmapSize * 32) (h : r.InDetected frames) :
    1024 + r.count ≤ frames := by
  have hfree := freeAt_iff hpos hmarked
  rcases (inDetected_iff frames r).1 h with hzero | ⟨start, hstart, hbelow⟩ | hnone
  · exact absurd hzero (Nat.ne_of_gt hpos)
  · have hhigh := ((hfree start).1 hstart).1
    omega
  · exact absurd ((hfree 1024).2 ⟨Nat.le_refl _, hleft⟩) (hnone 1024)

/-! ## Whole runs -/

namespace PagingSystem

/-- During initialisation and over every run after it, all frames handed out lie in the detected
memory exactly when every request finds room there, or none in the whole bitmap. -/
theorem detected_run_iff (s : PagingState) (totalMemoryKb : BitVec 32) :
    ∃ t, s.initializePagingSystem totalMemoryKb.toNat = .ok t ∧
      ((∀ r ∈ s.initializeRequests totalMemoryKb.toNat,
          r.InDetected (detectedFrames totalMemoryKb.toNat)) ↔
        ∀ r ∈ s.initializeRequests totalMemoryKb.toNat,
          r.HasRoom (detectedFrames totalMemoryKb.toNat)) ∧
      ∀ as : List FrameAction,
        (∀ r ∈ (initialized t).runRequests as,
            r.InDetected (detectedFrames totalMemoryKb.toNat)) ↔
          ∀ r ∈ (initialized t).runRequests as,
            r.HasRoom (detectedFrames totalMemoryKb.toNat) := by
  rcases PagingState.initializePagingSystem_ok s totalMemoryKb.toNat with ⟨t, ht, _⟩
  refine ⟨t, ht, ?_, fun as => ?_⟩
  · exact forall₂_congr fun r _ => Request.inDetected_iff _ r
  · exact forall₂_congr fun r _ => Request.inDetected_iff _ r

/-- On machines with less than 4 GiB, and only there, some run hands out a frame behind the end of
memory. -/
theorem detected_every_run_iff {s t : PagingState} {totalMemoryKb : BitVec 32}
    (h : s.initializePagingSystem totalMemoryKb.toNat = .ok t) :
    (∀ as, ∀ r ∈ (initialized t).runRequests as,
        r.InDetected (detectedFrames totalMemoryKb.toNat)) ↔
      bitmapSize * 32 ≤ detectedFrames totalMemoryKb.toNat := by
  constructor
  · intro hall
    -- all the frames that are left, in one request
    have hall' := hall [.findContiguousFreeFrames 0xFFC00]
      { state := t, count := 0xFFC00 }
      (by simp [runRequests, frameRequests, frameStep, initialized])
    have hpos : 0 < 0xFFC00 := by decide
    have hleft : 1024 + 0xFFC00 ≤ bitmapSize * 32 := by decide
    have hle : 1024 + 0xFFC00 ≤ detectedFrames totalMemoryKb.toNat :=
      Request.le_of_inDetected (r := { state := t, count := 0xFFC00 }) hpos
        (PagingState.marked_initializePagingSystem h) hleft hall'
    have hsize : bitmapSize * 32 = 1024 + 0xFFC00 := by decide
    rw [hsize]
    exact hle
  · intro hsize as r _
    rw [Request.inDetected_iff]
    by_cases hfree : ∃ start, r.FreeAt start
    · rcases hfree with ⟨start, hstart⟩
      exact .inr (.inl ⟨start, hstart, Nat.le_trans hstart.2 hsize⟩)
    · exact .inr (.inr fun start hstart => hfree ⟨start, hstart⟩)

/-- On a machine with 4 MiB the first frame handed out after initialisation is the one behind the
end of memory. -/
theorem detected_run_false :
    ¬ ∀ (s t : PagingState) (totalMemoryKb : BitVec 32) (as : List FrameAction),
      s.initializePagingSystem totalMemoryKb.toNat = .ok t →
        ∀ r ∈ (initialized t).runRequests as,
          r.InDetected (detectedFrames totalMemoryKb.toNat) := by
  intro h
  rcases PagingState.initializePagingSystem_ok .boot 4096 with ⟨t, ht, _⟩
  have hdetected := h .boot t 4096 [.findFirstFreeFrame] ht t.request (by
    simp [runRequests, frameRequests, frameStep, initialized])
  have hleft : 1024 + 1 ≤ bitmapSize * 32 := by decide
  have hle : 1024 + 1 ≤ detectedFrames 4096 :=
    Request.le_of_inDetected (r := t.request) Nat.one_pos
      (PagingState.marked_initializePagingSystem ht) hleft hdetected
  exact absurd hle (by decide)

end PagingSystem

end Paging
end WhitexKernel
