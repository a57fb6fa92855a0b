import WhitexKernel.Paging.Detected

/-!
# Accounting — the counter of allocated frames beside the bitmap

`total_allocated_frames` follows `allocate_frame` and `free_frame`.  The frames of directories and
tables, and those that pages are mapped to by their address, are marked without it; and a frame whose
bit is clear already is counted when it is freed.  The difference between bitmap and counter only
grows, so the two agree exactly as long as nothing is marked or freed uncounted.
-/

namespace WhitexKernel
namespace Paging

open Lib Machine

namespace PagingState

/-- How many frames are marked. -/
def markedFrames (s : PagingState) : Nat := Bitmap.count s.physicalMemoryBitmap (bitmapSize * 32)

theorem markedFrames_congr {s t : PagingState}
    (h : t.physicalMemoryBitmap = s.physicalMemoryBitmap) : t.markedFrames = s.markedFrames := by
  unfold markedFrames
  rw [h]

theorem markedFrames_bitmapSetBit (s : PagingState) {address : Nat}
    (hlt : address / pageSize < 2 ^ 20) :
    (s.bitmapSetBit address).markedFrames =
      s.markedFrames + (if s.marked (address / pageSize) = true then 0 else 1) :=
  Bitmap.count_mark (by decide) _ hlt

theorem markedFrames_bitmapClearBit (s : PagingState) {address : Nat}
    (hlt : address / pageSize < 2 ^ 20) :
    (s.bitmapClearBit address).markedFrames +
      (if s.marked (address / pageSize) = true then 1 else 0) = s.markedFrames :=
  Bitmap.count_clear (by decide) _ hlt

/-- A frame that is handed out lies in the bitmap. -/
theorem findFirstFreeFrame_lt {s : PagingState} (h : s.findFirstFreeFrame ≠ noFrame) :
    s.findFirstFreeFrame / pageSize < 2 ^ 20 := (lowestFree_findFirstFreeFrame h).lt

/-- It is one more marked frame. -/
theorem markedFrames_taken {s : PagingState} (h : s.findFirstFreeFrame ≠ noFrame) :
    (s.bitmapSetBit s.findFirstFreeFrame).markedFrames = s.markedFrames + 1 := by
  rw [markedFrames_bitmapSetBit s (findFirstFreeFrame_lt h), not_marked_findFirstFreeFrame h]
  rfl

/-! ## Drift -/

/-- The marked frames lie in the bitmap, and the counter is a `uint32_t`. -/
structure Tracked (s : PagingState) : Prop where
  inBitmap : ∀ frame, s.marked frame = true → frame < 2 ^ 20
  counter_lt : s.totalAllocatedFrames < 2 ^ 32

/-- From `s` to `t` the bitmap gains `n` frames on the counter. -/
structure Drifts (s t : PagingState) (n : Nat) : Prop where
  tracked : t.Tracked
  system : t.totalSystemFrames = s.totalSystemFrames
  drift : (t.markedFrames + s.totalAllocatedFrames) % 2 ^ 32 =
    (s.markedFrames + n + t.totalAllocatedFrames) % 2 ^ 32

namespace Drifts

variable {s t u : PagingState} {n m : Nat}

theorem trans (h : Drifts s t n) (h' : Drifts t u m) : Drifts s u (n + m) := by
  refine ⟨h'.tracked, h'.system.trans h.system, ?_⟩
  have hfirst := h.drift
  have hsecond := h'.drift
  omega

/-- What is done to the bitmap, up to `u`, and to the counter. -/
theorem of_bitmap (counter : Nat) (hu : ∀ frame, u.marked frame = true → frame < 2 ^ 20)
    (hbitmap : t.physicalMemoryBitmap = u.physicalMemoryBitmap)
    (hsystem : t.totalSystemFrames = s.totalSystemFrames)
    (hcounter : t.totalAllocatedFrames = counter) (hlt : counter < 2 ^ 32)
    (hdrift : (u.markedFrames + s.totalAllocatedFrames) % 2 ^ 32 =
      (s.markedFrames + n + counter) % 2 ^ 32) : Drifts s t n := by
  refine ⟨⟨fun frame hframe => ?_, hcounter ▸ hlt⟩, hsystem, ?_⟩
  · unfold marked at hframe
    rw [hbitmap] at hframe
    exact hu frame hframe
  · rw [markedFrames_congr hbitmap, hcounter]
    exact hdrift

/-- What touches neither bitmap nor counter. -/
theorem of_same (hs : s.Tracked) (hbitmap : t.physicalMemoryBitmap = s.physicalMemoryBitmap)
    (hcounter : t.totalAllocatedFrames = s.totalAllocatedFrames)
    (hsystem : t.totalSystemFrames = s.totalSystemFrames) : Drifts s t 0 :=
  of_bitmap _ hs.inBitmap hbitmap hsystem hcounter hs.counter_lt (by rw [Nat.add_zero])

theorem same (h : Drifts s t n) (hbitmap : u.physicalMemoryBitmap = t.physicalMemoryBitmap)
    (hcounter : u.totalAllocatedFrames = t.totalAllocatedFrames)
    (hsystem : u.totalSystemFrames = t.totalSystemFrames) : Drifts s u n :=
  h.trans (of_same h.tracked hbitmap hcounter hsystem)

end Drifts

theorem Tracked.bitmapSetBit {s : PagingState} (hs : s.Tracked) {address : Nat}
    (hlt : address / pageSize < 2 ^ 20) : (s.bitmapSetBit address).Tracked := by
  refine ⟨fun frame hframe => ?_, hs.counter_lt⟩
  rcases (marked_bitmapSetBit s address frame).1 hframe with rfl | hold
  · exact hlt
  · exact hs.inBitmap frame hold

/-- A bit that is set without the counter. -/
theorem bitmapSetBit_drifts {s : PagingState} (hs : s.Tracked) {address : Nat}
    (hlt : address / pageSize < 2 ^ 20) :
    Drifts s (s.bitmapSetBit address) (if s.marked (address / pageSize) = true then 0 else 1) := by
  refine ⟨hs.bitmapSetBit hlt, rfl, ?_⟩
  rw [markedFrames_bitmapSetBit s hlt]
  rfl

/-- The frame that a directory or a table takes. -/
theorem taken_drifts {s : PagingState} (hs : s.Tracked) (h : s.findFirstFreeFrame ≠ noFrame) :
    Drifts s (s.bitmapSetBit s.findFirstFreeFrame) 1 := by
  have hdrift := bitmapSetBit_drifts hs (findFirstFreeFrame_lt h)
  rw [not_marked_findFirstFreeFrame h] at hdrift
  exact hdrift

theorem allocateFrame_drifts {s t : PagingState} {page : EntryRef} {isKernel isWritable : Int}
    (hs : s.Tracked) (h : s.allocateFrame page isKernel isWritable = .ok t) : Drifts s t 0 := by
  rcases allocateFrame_cases h with ⟨_, rfl⟩ | ⟨_, hfound, rfl⟩
  · exact Drifts.of_same hs rfl rfl rfl
  · have htaken := (hs.bitmapSetBit (findFirstFreeFrame_lt hfound)).inBitmap
    refine Drifts.of_bitmap (wrap32 (s.totalAllocatedFrames + 1)) htaken rfl rfl rfl
      (wrap32_lt _) ?_
    -- bitmap and counter both go up by one
    rw [markedFrames_taken hfound]
    unfold wrap32
    omega

theorem allocateFrame_markedFrames {s t : PagingState} {page : EntryRef}
    {isKernel isWritable : Int} (h : s.allocateFrame page isKernel isWritable = .ok t) :
    t.markedFrames = s.markedFrames + (s.allocateFrameRequests page).length := by
  unfold allocateFrameRequests
  rcases allocateFrame_cases h with ⟨hframe, rfl⟩ | ⟨hframe, hfound, rfl⟩
  · rw [if_pos hframe, List.length_nil, Nat.add_zero]
  · rw [if_neg (by simpa using hframe), List.length_singleton, ← markedFrames_taken hfound]
    exact markedFrames_congr rfl

theorem freeFrame_drifts {s : PagingState} (hs : s.Tracked) (page : EntryRef) :
    Drifts s (s.freeFrame page)
      (if (s.entry page).frame = 0 ∨ s.marked (s.entry page).frame = true then 0 else 1) := by
  by_cases hframe : (s.entry page).frame = 0
  · have hfree : s.freeFrame page = s := by
      unfold freeFrame
      simp [hframe]
    rw [hfree, if_pos (.inl hframe)]
    exact Drifts.of_same hs rfl rfl rfl
  · rw [freeFrame_eq hframe]
    have hdiv : (s.entry page).frame * pageSize / pageSize = (s.entry page).frame :=
      Nat.mul_div_cancel _ (by decide)
    have hclears := marked_bitmapClearBit s ((s.entry page).frame * pageSize)
    have hcleared := fun frame hmarked => hs.inBitmap frame ((hclears frame).1 hmarked).2
    have hcounter := hs.counter_lt
    refine Drifts.of_bitmap (sub32 s.totalAllocatedFrames 1) hcleared rfl rfl rfl
      (Nat.mod_lt _ (by decide)) ?_
    unfold sub32
    by_cases hmarked : s.marked (s.entry page).frame = true
    · have hlt := hs.inBitmap _ hmarked
      rw [← hdiv] at hlt
      have hcount := s.markedFrames_bitmapClearBit hlt
      rw [hdiv, if_pos hmarked] at hcount
      rw [if_pos (.inr hmarked)]
      omega
    · -- the bit was clear already, and the counter goes down
      have hsame : (s.bitmapClearBit ((s.entry page).frame * pageSize)).markedFrames =
          s.markedFrames := by
        refine Bitmap.count_congr _ fun frame => (hclears frame).trans (and_iff_right_of_imp ?_)
        rw [hdiv]
        rintro hold rfl
        exact hmarked hold
      rw [hsame, if_neg (not_or.2 ⟨hframe, hmarked⟩)]
      omega

/-! ## Pages -/

/-- There is a table for the address. -/
def HasTable (s : PagingState) (address dir : Nat) : Prop :=
  (s.directories dir).tables (address / pageSize / pageEntries) ≠ 0

theorem getPageEntry_of_hasTable {s : PagingState} {address dir : Nat}
    (h : s.HasTable address dir) :
    s.getPageEntry address true dir = .ok (s, s.pageRef address dir) := by
  unfold HasTable at h
  unfold getPageEntry pageRef
  simp only [h, ne_eq, not_false_eq_true, if_true]

theorem getPageEntryRequests_eq_nil_iff (s : PagingState) (address dir : Nat) :
    s.getPageEntryRequests address dir = [] ↔ s.HasTable address dir := by
  unfold getPageEntryRequests HasTable
  split <;> simp_all

/-- The drift of a page-table lookup is the table it makes. -/
theorem getPageEntry_drifts {s t : PagingState} {address dir : Nat} {page : Option EntryRef}
    (hs : s.Tracked) (h : s.getPageEntry address true dir = .ok (t, page)) :
    Drifts s t (s.getPageEntryRequests address dir).length := by
  unfold getPageEntry at h
  unfold getPageEntryRequests
  simp only [if_true] at h
  split at h
  case isTrue htable =>
    cases h
    rw [if_pos htable, List.length_nil]
    exact Drifts.of_same hs rfl rfl rfl
  case isFalse htable =>
    split at h
    · cases h
    case isFalse hfound =>
      cases h
      rw [if_neg htable, List.length_singleton]
      exact (taken_drifts hs hfound).same rfl rfl rfl

theorem getPageEntry_markedFrames {s t : PagingState} {address dir : Nat} {page : Option EntryRef}
    (h : s.getPageEntry address true dir = .ok (t, page)) :
    t.markedFrames = s.markedFrames + (s.getPageEntryRequests address dir).length := by
  unfold getPageEntry at h
  unfold getPageEntryRequests
  simp only [if_true] at h
  split at h
  case isTrue htable =>
    cases h
    rw [if_pos htable, List.length_nil, Nat.add_zero]
  case isFalse htable =>
    split at h
    · cases h
    case isFalse hfound =>
      cases h
      rw [if_neg htable, List.length_singleton, ← markedFrames_taken hfound]
      exact markedFrames_congr rfl

/-- Mapping a page drifts unless its table is there and the frame is marked. -/
theorem mapVirtualToPhysical_drifts {s t : PagingState} {virtualAddr physicalAddr dir : Nat}
    {isKernel isWritable : Int} (hs : s.Tracked) (hlt : physicalAddr / pageSize < 2 ^ 20)
    (h : s.mapVirtualToPhysical virtualAddr physicalAddr isKernel isWritable dir = .ok t) :
    ∃ n ≤ 2, Drifts s t n ∧
      (n = 0 ↔ s.HasTable virtualAddr dir ∧ s.marked (physicalAddr / pageSize) = true) := by
  unfold mapVirtualToPhysical at h
  rcases Outcome.bind_eq_ok.1 h with ⟨⟨u, page⟩, hpage, hrest⟩
  have hu := getPageEntry_drifts hs hpage
  cases page with
  | none => cases hrest
  | some page =>
      cases hrest
      have hbit := bitmapSetBit_drifts hu.tracked hlt
      refine ⟨_, ?_, (hu.trans hbit).same rfl rfl rfl, ?_⟩
      · unfold getPageEntryRequests
        split <;> split <;> simp
      · rw [← getPageEntryRequests_eq_nil_iff, Nat.add_eq_zero_iff, List.length_eq_zero_iff]
        refine and_congr_right fun hnone => ?_
        -- with its table in place, the lookup has left the bitmap alone
        have hsame : u = s := by
          have hthere := getPageEntry_of_hasTable ((getPageEntryRequests_eq_nil_iff s _ _).1 hnone)
          exact (Prod.mk.inj (Except.ok.inj (hpage.symm.trans hthere))).1
        rw [hsame]
        split <;> simp_all

/-- The present ones of these entries have marked frames, each its own. -/
structure FreesCounted (s : PagingState) (pages : Set EntryRef) : Prop where
  marked : ∀ page ∈ pages, (s.entry page).present = true → (s.entry page).frame ≠ 0 →
    s.marked (s.entry page).frame = true
  own : ∀ page ∈ pages, ∀ other ∈ pages, (s.entry page).present = true →
    (s.entry other).present = true → (s.entry page).frame ≠ 0 →
    (s.entry other).frame = (s.entry page).frame → other = page

theorem freesCounted_empty (s : PagingState) : s.FreesCounted ∅ :=
  ⟨fun _ hpage => hpage.elim, fun _ hpage => hpage.elim⟩

/-- After the first entries have been released, the rest must be freed counted. -/
theorem freesCounted_union_iff {s t : PagingState} {pages more : Set EntryRef}
    (h : Released s t pages) :
    s.FreesCounted (pages ∪ more) ↔ s.FreesCounted pages ∧ t.FreesCounted more := by
  constructor
  · intro hall
    refine ⟨⟨fun page hpage => hall.marked page (.inl hpage), fun page hpage other hother =>
      hall.own page (.inl hpage) other (.inl hother)⟩, ⟨?_, ?_⟩⟩
    · intro page hpage hpresent hframe
      rcases (h.present page).1 hpresent with ⟨hpresent, hkept⟩
      rw [h.entry page hkept] at hframe ⊢
      refine (h.marked _).2 ⟨hall.marked page (.inr hpage) hpresent hframe, ?_⟩
      -- none of the released entries had this frame
      rintro ⟨other, hother, hpresent', heq, _⟩
      have hsame := hall.own page (.inr hpage) other (.inl hother) hpresent hpresent' hframe heq
      exact hkept (hsame ▸ hother)
    · intro page hpage other hother hpresent hpresent' hframe heq
      rcases (h.present page).1 hpresent with ⟨hpresent, hkept⟩
      rcases (h.present other).1 hpresent' with ⟨hpresent', hkept'⟩
      rw [h.entry page hkept] at hframe heq
      rw [h.entry other hkept'] at heq
      exact hall.own page (.inr hpage) other (.inr hother) hpresent hpresent' hframe heq
  · rintro ⟨hfirst, hrest⟩
    -- an entry that is left has a bit that no released entry had
    have hleft : ∀ page ∈ more, page ∉ pages → (s.entry page).present = true →
        (s.entry page).frame ≠ 0 → t.marked (s.entry page).frame = true := by
      intro page hpage hkept hpresent hframe
      have hmarked := hrest.marked page hpage ((h.present page).2 ⟨hpresent, hkept⟩)
      rw [h.entry page hkept] at hmarked
      exact hmarked hframe
    have hapart : ∀ page ∈ pages, ∀ other ∈ more, other ∉ pages →
        (s.entry page).present = true → (s.entry other).present = true →
        (s.entry page).frame ≠ 0 → (s.entry other).frame ≠ (s.entry page).frame := by
      intro page hpage other hother hkept hpresent hpresent' hframe heq
      have hmarked := hleft other hother hkept hpresent' (heq ▸ hframe)
      exact ((h.marked _).1 hmarked).2 ⟨page, hpage, hpresent, heq.symm, heq ▸ hframe⟩
    constructor
    · intro page hpage hpresent hframe
      by_cases hmem : page ∈ pages
      · exact hfirst.marked page hmem hpresent hframe
      · exact ((h.marked _).1 (hleft page (hpage.resolve_left hmem) hmem hpresent hframe)).1
    · intro page hpage other hother hpresent hpresent' hframe heq
      by_cases hmem : page ∈ pages <;> by_cases hmem' : other ∈ pages
      · exact hfirst.own page hmem other hmem' hpresent hpresent' hframe heq
      · exact absurd heq
          (hapart page hmem other (hother.resolve_left hmem') hmem' hpresent hpresent' hframe)
      · exact absurd heq.symm
          (hapart other hmem' page (hpage.resolve_left hmem) hmem hpresent' hpresent
            (heq ▸ hframe))
      · have hown := hrest.own page (hpage.resolve_left hmem) other (hother.resolve_left hmem')
          ((h.present page).2 ⟨hpresent, hmem⟩) ((h.present other).2 ⟨hpresent', hmem'⟩)
        rw [h.entry page hmem, h.entry other hmem'] at hown
        exact hown hframe heq

/-- Unmapping a page drifts exactly when the bit of its frame is clear already. -/
theorem unmapVirtualPage_drifts {s t : PagingState} {virtualAddr dir : Nat} (hs : s.Tracked)
    (h : s.unmapVirtualPage virtualAddr dir = .ok t) :
    ∃ n ≤ 1, Drifts s t n ∧ (n = 0 ↔ s.FreesCounted (s.pageRefs [virtualAddr] dir)) := by
  have hrefs : ∀ page, page ∈ s.pageRefs [virtualAddr] dir ↔
      s.pageRef virtualAddr dir = some page := by
    intro page
    unfold pageRefs
    simp
  have hsame : Drifts s s 0 := Drifts.of_same hs rfl rfl rfl
  unfold unmapVirtualPage at h
  rw [getPageEntry_lookup, Outcome.ok_bind] at h
  cases hpage : s.pageRef virtualAddr dir with
  | none =>
      simp only [hpage] at h
      cases h
      refine ⟨0, by omega, hsame, iff_of_true rfl ⟨?_, ?_⟩⟩
      · intro page hmem
        rw [hrefs, hpage] at hmem
        cases hmem
      · intro page hmem
        rw [hrefs, hpage] at hmem
        cases hmem
  | some page =>
      simp only [hpage] at h
      -- one address has one page, so there is no second page to compare it with
      have hone : ∀ other ∈ s.pageRefs [virtualAddr] dir, other = page := by
        intro other hmem
        rw [hrefs, hpage] at hmem
        exact (Option.some.inj hmem).symm
      split at h
      case isFalse habsent =>
        cases h
        refine ⟨0, by omega, hsame, iff_of_true rfl ⟨?_, ?_⟩⟩
        · intro other hmem hpresent
          rw [hone other hmem] at hpresent
          exact absurd hpresent habsent
        · intro other hmem _ _ hpresent
          rw [hone other hmem] at hpresent
          exact absurd hpresent habsent
      case isTrue hpresent =>
        cases h
        -- the counter goes down either way; the bitmap only when the bit was set
        have hfree := freeFrame_drifts hs page
        refine ⟨_, ?_, hfree.same rfl rfl rfl, ?_⟩
        · split <;> simp
        · have hmem : page ∈ s.pageRefs [virtualAddr] dir := (hrefs page).2 hpage
          constructor
          · intro hzero
            refine ⟨fun other hother _ hframe => ?_, fun other hother other' hother' _ _ _ _ => ?_⟩
            · rw [hone other hother] at hframe ⊢
              by_contra hclear
              rw [if_neg (not_or.2 ⟨hframe, hclear⟩)] at hzero
              exact absurd hzero (by decide)
            · rw [hone other hother, hone other' hother']
          · intro hcounted
            rw [if_pos]
            by_cases hframe : (s.entry page).frame = 0
            · exact .inl hframe
            · exact .inr (hcounted.marked page hmem hpresent hframe)

/-! ## Loops -/

section Loops

variable {round : PagingState → Nat → Except Halt PagingState}

theorem loop_drifts {c : Nat} {is : List Nat}
    (hround : ∀ i ∈ is, ∀ s t, s.Tracked → round s i = .ok t → ∃ n ≤ c, Drifts s t n)
    {s t : PagingState} (hs : s.Tracked) (h : is.foldlM round s = .ok t) :
    ∃ n ≤ c * is.length, Drifts s t n := by
  induction is generalizing s with
  | nil =>
      cases h
      exact ⟨0, Nat.zero_le _, Drifts.of_same hs rfl rfl rfl⟩
  | cons i is ih =>
      rw [List.foldlM_cons, Outcome.bind_eq_ok] at h
      rcases h with ⟨u, hfirst, hrest⟩
      rcases hround i List.mem_cons_self s u hs hfirst with ⟨n, hn, hdrift⟩
      rcases ih (fun j hj => hround j (List.mem_cons_of_mem i hj)) hdrift.tracked hrest with
        ⟨m, hm, hdrift'⟩
      refine ⟨n + m, ?_, hdrift.trans hdrift'⟩
      rw [List.length_cons, Nat.mul_succ]
      omega

/-- When a round without drift leaves the others as they are, the loop is without drift exactly when
every round is, as things stand before the loop. -/
theorem loop_drifts_iff {P : PagingState → Nat → Prop} {c : Nat} {is : List Nat}
    (hround : ∀ i ∈ is, ∀ s t, s.Tracked → round s i = .ok t →
      ∃ n ≤ c, Drifts s t n ∧ (n = 0 ↔ P s i))
    (hkeep : ∀ i ∈ is, ∀ s t, round s i = .ok t → P s i → ∀ j, P t j ↔ P s j)
    {s t : PagingState} (hs : s.Tracked) (h : is.foldlM round s = .ok t) :
    ∃ n ≤ c * is.length, Drifts s t n ∧ (n = 0 ↔ ∀ i ∈ is, P s i) := by
  induction is generalizing s with
  | nil =>
      cases h
      exact ⟨0, Nat.zero_le _, Drifts.of_same hs rfl rfl rfl, by simp⟩
  | cons i is ih =>
      rw [List.foldlM_cons, Outcome.bind_eq_ok] at h
      rcases h with ⟨u, hfirst, hrest⟩
      rcases hround i List.mem_cons_self s u hs hfirst with ⟨n, hn, hdrift, hzero⟩
      rcases ih (fun j hj => hround j (List.mem_cons_of_mem i hj))
        (fun j hj => hkeep j (List.mem_cons_of_mem i hj)) hdrift.tracked hrest with
        ⟨m, hm, hdrift', hzero'⟩
      refine ⟨n + m, ?_, hdrift.trans hdrift', ?_⟩
      · rw [List.length_cons, Nat.mul_succ]
        omega
      · rw [Nat.add_eq_zero_iff, hzero, hzero', List.forall_mem_cons]
        -- a first round without drift leaves the conditions of the later ones alone
        refine and_congr_right fun hi => ?_
        exact forall₂_congr fun j _ => hkeep i List.mem_cons_self s u hfirst hi j

end Loops

/-! ## Regions and faults -/

theorem length_regionPages (start stop : Nat) :
    (regionPages start stop).length = (stop - start) / pageSize := by
  unfold regionPages
  rw [List.length_map, List.length_range]

/-- A region has at most as many pages as there are addresses for. -/
theorem length_regionPages_le (start stop : Nat) :
    (regionPages start (alignPage (wrap32 stop))).length ≤ 2 ^ 20 := by
  have hlt := wrap32_lt stop
  rw [length_regionPages]
  unfold alignPage pageSize
  omega

theorem length_identityPages_le (startAddr endAddr : Nat) :
    (identityPages startAddr endAddr).length ≤ 2 ^ 20 := length_regionPages_le _ _

theorem identityPages_lt {startAddr endAddr : Nat} :
    ∀ page ∈ identityPages startAddr endAddr, page / pageSize < 2 ^ 20 := by
  intro page hpage
  have hlt := wrap32_lt (endAddr + pageSize - 1)
  rcases List.mem_map.1 hpage with ⟨i, hi, rfl⟩
  rw [List.mem_range] at hi
  unfold alignPage pageSize at *
  omega

theorem allocateRound_drifts {s t : PagingState} {isKernel isWritable : Int} {dir current : Nat}
    (hs : s.Tracked) (h : allocateRound isKernel isWritable dir s current = .ok t) :
    ∃ n ≤ 1, Drifts s t n ∧ (n = 0 ↔ s.HasTable current dir) := by
  unfold allocateRound at h
  rcases Outcome.bind_eq_ok.1 h with ⟨⟨u, page⟩, hpage, hrest⟩
  have hu := getPageEntry_drifts hs hpage
  cases page with
  | none => cases hrest
  | some page =>
      refine ⟨_, ?_, hu.trans (allocateFrame_drifts hu.tracked hrest), ?_⟩
      · unfold getPageEntryRequests
        split <;> simp
      · rw [Nat.add_zero, List.length_eq_zero_iff]
        exact getPageEntryRequests_eq_nil_iff s current dir

theorem hasTable_congr {s t : PagingState} (h : t.directories = s.directories)
    (address dir : Nat) : t.HasTable address dir ↔ s.HasTable address dir := by
  unfold HasTable
  rw [h]

theorem allocateMemoryRegion_drifts {s t : PagingState} {startAddr size dir : Nat}
    {isKernel isWritable : Int} (hs : s.Tracked)
    (h : s.allocateMemoryRegion startAddr size isKernel isWritable dir = .ok t) :
    ∃ n ≤ 2 ^ 20, Drifts s t n ∧
      (n = 0 ↔ ∀ current ∈ memoryRegion startAddr size, s.HasTable current dir) := by
  rw [allocateMemoryRegion_eq] at h
  have hkeep : ∀ i ∈ memoryRegion startAddr size, ∀ s t : PagingState,
      allocateRound isKernel isWritable dir s i = .ok t → s.HasTable i dir →
      ∀ j, t.HasTable j dir ↔ s.HasTable j dir := by
    intro i _ s t hround htable j
    unfold allocateRound at hround
    rw [getPageEntry_of_hasTable htable, pageRef_of_table htable, Outcome.ok_bind] at hround
    exact hasTable_congr (allocateFrame_directories hround) j dir
  rcases loop_drifts_iff (fun i _ s t hs hround => allocateRound_drifts hs hround) hkeep hs h with
    ⟨n, hn, hdrift⟩
  have hlen := length_regionPages_le (alignPage startAddr) (startAddr + size + pageSize - 1)
  refine ⟨n, ?_, hdrift⟩
  unfold memoryRegion alignedEnd at hn
  omega

theorem unmapPages_drifts {addresses : List Nat} {s t : PagingState} {dir : Nat} (hs : s.Tracked)
    (h : addresses.foldlM (fun s current => PagingState.unmapVirtualPage s current dir) s =
      .ok t) :
    ∃ n ≤ addresses.length, Drifts s t n ∧
      (n = 0 ↔ s.FreesCounted (s.pageRefs addresses dir)) := by
  induction addresses generalizing s with
  | nil =>
      cases h
      have hempty : t.pageRefs [] dir = ∅ := by
        unfold pageRefs
        simp
      refine ⟨0, Nat.zero_le _, Drifts.of_same hs rfl rfl rfl, iff_of_true rfl ?_⟩
      rw [hempty]
      exact freesCounted_empty t
  | cons address addresses ih =>
      rw [List.foldlM_cons, Outcome.bind_eq_ok] at h
      rcases h with ⟨u, hfirst, hrest⟩
      have hreleased := released_of_unmapVirtualPage hfirst
      rcases unmapVirtualPage_drifts hs hfirst with ⟨n, hn, hdrift, hzero⟩
      rcases ih hdrift.tracked hrest with ⟨m, hm, hdrift', hzero'⟩
      -- unmapping does not touch directories, so the later pages are found as before
      rw [pageRefs_congr hreleased.directories] at hzero'
      refine ⟨n + m, ?_, hdrift.trans hdrift', ?_⟩
      · rw [List.length_cons]
        omega
      · rw [Nat.add_eq_zero_iff, hzero, hzero', s.pageRefs_cons address addresses dir]
        exact (freesCounted_union_iff hreleased).symm

theorem freeMemoryRegion_drifts {s t : PagingState} {startAddr size dir : Nat} (hs : s.Tracked)
    (h : s.freeMemoryRegion startAddr size dir = .ok t) :
    ∃ n ≤ 2 ^ 20, Drifts s t n ∧
      (n = 0 ↔ s.FreesCounted (s.pageRefs (memoryRegion startAddr size) dir)) := by
  rcases unmapPages_drifts hs h with ⟨n, hn, hdrift⟩
  have hlen := length_regionPages_le (alignPage startAddr) (startAddr + size + pageSize - 1)
  refine ⟨n, ?_, hdrift⟩
  unfold memoryRegion alignedEnd at hn
  omega

/-- Pages whose tables are there, and whose frames are marked, are mapped to themselves without
drift. -/
theorem identityMap_drifts {pages : List Nat} {s t : PagingState} {dir : Nat} (hs : s.Tracked)
    (hpages : ∀ page ∈ pages, page / pageSize < 2 ^ 20)
    (h : pages.foldlM (identityRound dir) s = .ok t) :
    ∃ n ≤ 2 * pages.length, Drifts s t n ∧
      (n = 0 ↔ ∀ page ∈ pages, s.HasTable page dir ∧ s.marked (page / pageSize) = true) := by
  refine loop_drifts_iff
    (P := fun s page => s.HasTable page dir ∧ s.marked (page / pageSize) = true) ?_ ?_ hs h
  · intro page hpage s t hs hround
    exact mapVirtualToPhysical_drifts hs (hpages page hpage) hround
  · intro page _ s t hround hcounted other
    have hmap := mapVirtualToPhysical_of_pageRef (pageRef_of_table hcounted.1) page 1 1
    unfold identityRound at hround
    cases hmap.symm.trans hround
    refine and_congr Iff.rfl ?_
    rw [marked_bitmapSetBit, marked_setEntry]
    refine or_iff_right_of_imp fun heq => ?_
    rw [heq]
    exact hcounted.2

theorem pageFaultHandler_drifts {s t : PagingState} {faultingAddress : Nat}
    {errCode : BitVec 32} (hs : s.Tracked)
    (h : s.pageFaultHandler faultingAddress errCode = .ok t) :
    ∃ n ≤ 1, Drifts s t n ∧ (n = 0 ↔ s.HasTable faultingAddress s.currentPageDirectory) := by
  unfold pageFaultHandler at h
  simp only at h
  split at h
  · cases h
  rcases Outcome.bind_eq_ok.1 h with ⟨⟨u, page⟩, hpage, hrest⟩
  have hu := getPageEntry_drifts hs hpage
  cases page with
  | none => cases hrest
  | some page =>
      simp only at hrest
      split at hrest
      · cases hrest
      refine ⟨_, ?_, hu.trans (allocateFrame_drifts hu.tracked hrest), ?_⟩
      · unfold getPageEntryRequests
        split <;> simp
      · rw [Nat.add_zero, List.length_eq_zero_iff]
        exact getPageEntryRequests_eq_nil_iff s _ _

/-! ## Clones -/

theorem cloneEntry_drifts {s t : PagingState} {src newTable i : Nat} (hs : s.Tracked)
    (h : cloneEntry src newTable s i = .ok t) : Drifts s t 0 := by
  unfold cloneEntry at h
  split at h
  · rcases Outcome.bind_eq_ok.1 h with ⟨u, halloc, hrest⟩
    cases hrest
    exact (allocateFrame_drifts hs halloc).same rfl rfl rfl
  · cases h
    exact Drifts.of_same hs rfl rfl rfl

theorem clonePageTable_drifts {s t : PagingState} {src physicalAddr newTable phys : Nat}
    (hs : s.Tracked) (h : s.clonePageTable src physicalAddr = .ok (t, newTable, phys)) :
    ∃ n ≤ 1, Drifts s t n := by
  unfold clonePageTable at h
  simp only at h
  split at h
  · cases h
    exact ⟨0, Nat.zero_le _, Drifts.of_same hs rfl rfl rfl⟩
  case isFalse hfound =>
    rcases Outcome.bind_eq_ok.1 h with ⟨u, hloop, hrest⟩
    simp only [Except.ok.injEq, Prod.mk.injEq] at hrest
    rcases hrest with ⟨rfl, _, _⟩
    have htable : Drifts s
        ((s.bitmapSetBit s.findFirstFreeFrame).zeroTable s.findFirstFreeFrame) 1 :=
      (taken_drifts hs hfound).same rfl rfl rfl
    rcases loop_drifts
      (fun i _ s t hs hround => ⟨0, Nat.le_refl 0, cloneEntry_drifts hs hround⟩)
      htable.tracked hloop with ⟨n, hn, hdrift⟩
    exact ⟨1 + n, by omega, htable.trans hdrift⟩

theorem cloneDirectoryEntry_drifts {s t : PagingState} {src newDir phys i : Nat} (hs : s.Tracked)
    (h : cloneDirectoryEntry src newDir phys s i = .ok t) : ∃ n ≤ 1, Drifts s t n := by
  unfold cloneDirectoryEntry at h
  simp only at h
  split at h
  · cases h
    exact ⟨0, Nat.zero_le _, Drifts.of_same hs rfl rfl rfl⟩
  split at h
  · cases h
    exact ⟨0, Nat.zero_le _, Drifts.of_same hs rfl rfl rfl⟩
  rcases Outcome.bind_eq_ok.1 h with ⟨⟨u, newTable, phys'⟩, hclone, hrest⟩
  cases hrest
  rcases clonePageTable_drifts hs hclone with ⟨n, hn, hdrift⟩
  exact ⟨n, hn, hdrift.same rfl rfl rfl⟩

/-- A clone takes a frame for the new directory, at least, which is not counted. -/
theorem clonePageDirectory_drifts {s t : PagingState} {src phys newDir : Nat} (hs : s.Tracked)
    (hfound : s.findFirstFreeFrame ≠ noFrame)
    (h : s.clonePageDirectory src phys = .ok (t, newDir)) :
    ∃ n ≤ 1025, Drifts s t n ∧ n ≠ 0 := by
  unfold clonePageDirectory at h
  simp only [hfound, if_false] at h
  rcases Outcome.bind_eq_ok.1 h with ⟨u, hloop, hrest⟩
  simp only [Except.ok.injEq, Prod.mk.injEq] at hrest
  rcases hrest with ⟨rfl, _⟩
  have hdir : Drifts s ((s.bitmapSetBit s.findFirstFreeFrame).setDirectory s.findFirstFreeFrame
      { PageDirectory.zero with
        physicalAddress := wrap32 (s.findFirstFreeFrame + 4 * directoryEntries) }) 1 :=
    (taken_drifts hs hfound).same rfl rfl rfl
  rcases loop_drifts (fun i _ s t hs hround => cloneDirectoryEntry_drifts hs hround) hdir.tracked
    hloop with ⟨n, hn, hdrift⟩
  have hlen : n ≤ 1024 := by simpa using hn
  exact ⟨1 + n, by omega, hdir.trans hdrift, by omega⟩

/-- A frame is handed out as long as not all of them are marked. -/
theorem findFirstFreeFrame_ne_of_markedFrames {s : PagingState} (h : s.markedFrames < 2 ^ 20) :
    s.findFirstFreeFrame ≠ noFrame := by
  by_contra hnone
  have hall : ∀ frame, frame < 2 ^ 20 → s.marked frame = true := by
    intro frame hlt
    by_contra hclear
    exact findFirstFreeFrame_ne_noFrame hlt (Bool.eq_false_iff.2 hclear) hnone
  have hfull : s.markedFrames = 2 ^ 20 :=
    Bitmap.count_of_marked_iff_lt (Nat.le_refl _) fun frame hlt => iff_of_true (hall frame hlt) hlt
  omega

/-- Mapping pages does not count anything. -/
theorem mapVirtualToPhysical_totals {s t : PagingState} {virtualAddr physicalAddr dir : Nat}
    {isKernel isWritable : Int}
    (h : s.mapVirtualToPhysical virtualAddr physicalAddr isKernel isWritable dir = .ok t) :
    t.totalAllocatedFrames = s.totalAllocatedFrames ∧
      t.totalSystemFrames = s.totalSystemFrames := by
  unfold mapVirtualToPhysical at h
  rcases Outcome.bind_eq_ok.1 h with ⟨⟨u, page⟩, hpage, hrest⟩
  -- looking a page up may take a frame, but never counts it
  have hu : u.totalAllocatedFrames = s.totalAllocatedFrames ∧
      u.totalSystemFrames = s.totalSystemFrames := by
    unfold getPageEntry at hpage
    simp only [if_true] at hpage
    split at hpage
    · cases hpage
      exact ⟨rfl, rfl⟩
    · split at hpage
      · cases hpage
      · cases hpage
        exact ⟨rfl, rfl⟩
  cases page with
  | none => cases hrest
  | some page =>
      cases hrest
      exact hu

/-- Initialisation clears the bitmap, but not the counter. -/
theorem initializePagingSystem_totals {s t : PagingState} {totalMemoryKb : Nat}
    (h : s.initializePagingSystem totalMemoryKb = .ok t) :
    t.totalAllocatedFrames = s.totalAllocatedFrames ∧
      t.totalSystemFrames = wrap32 (totalMemoryKb * 1024) / pageSize := by
  unfold initializePagingSystem at h
  simp only at h
  rw [findFirstFreeFrame_empty rfl, if_neg (by decide : ¬ (0 : Nat) = noFrame)] at h
  generalize hempty : PagingState.mk (fun _ => 0#32) _ _ _ _ _ _ _ = u at h
  -- everything before the loop: the state it starts from has these totals
  have hcounter : u.totalAllocatedFrames = s.totalAllocatedFrames := by rw [← hempty]
  have hsystem : u.totalSystemFrames = wrap32 (totalMemoryKb * 1024) / pageSize := by
    rw [← hempty]
  rcases Outcome.bind_eq_ok.1 h with ⟨v, hloop, hrest⟩
  cases hrest
  rw [← hcounter, ← hsystem]
  change v.totalAllocatedFrames = u.totalAllocatedFrames ∧
    v.totalSystemFrames = u.totalSystemFrames
  generalize hdir : PagingState.setDirectory _ _ _ = w at hloop
  have hw : w.totalAllocatedFrames = u.totalAllocatedFrames ∧
      w.totalSystemFrames = u.totalSystemFrames := by
    rw [← hdir]
    exact ⟨rfl, rfl⟩
  refine Outcome.foldlM_invariant
    (I := fun v : PagingState => v.totalAllocatedFrames = u.totalAllocatedFrames ∧
      v.totalSystemFrames = u.totalSystemFrames) ?_ hw hloop
  intro page _ v w hv hround
  have hsame := mapVirtualToPhysical_totals hround
  exact ⟨hsame.1.trans hv.1, hsame.2.trans hv.2⟩

/-- After initialisation the frames of the first 4 MiB are marked. -/
theorem markedFrames_initializePagingSystem {s t : PagingState} {totalMemoryKb : Nat}
    (h : s.initializePagingSystem totalMemoryKb = .ok t) : t.markedFrames = 1024 :=
  Bitmap.count_of_marked_iff_lt (by decide) fun frame _ => marked_initializePagingSystem h frame

end PagingState

/-! ## Whole runs -/

namespace PagingSystem

/-- The operation finds its page tables in place, the frames that it maps marked, and those that it
frees marked and mapped by one of its entries only; and it clones no directory. -/
def CountsFrames (y : PagingSystem) : PagingAction → Prop
  | .mapVirtualToPhysical virtualAddr physicalAddr _ _ dir =>
      y.state.HasTable virtualAddr.toNat dir ∧
        y.state.marked (physicalAddr.toNat / pageSize) = true
  | .unmapVirtualPage virtualAddr dir =>
      y.state.FreesCounted (y.state.pageRefs [virtualAddr.toNat] dir)
  | .allocateMemoryRegion startAddr size _ _ dir =>
      ∀ current ∈ PagingState.memoryRegion startAddr.toNat size.toNat,
        y.state.HasTable current dir
  | .freeMemoryRegion startAddr size dir =>
      y.state.FreesCounted
        (y.state.pageRefs (PagingState.memoryRegion startAddr.toNat size.toNat) dir)
  | .identityMapRegion startAddr endAddr dir =>
      ∀ page ∈ PagingState.identityPages startAddr.toNat endAddr.toNat,
        y.state.HasTable page dir ∧ y.state.marked (page / pageSize) = true
  | .clonePageDirectory _ _ => False
  | .switchPageDirectory _ => True
  | .pageFault faultingAddress _ =>
      y.state.HasTable faultingAddress.toNat y.state.currentPageDirectory

/-- An address has a frame of the bitmap. -/
theorem frame_lt (address : BitVec 32) : address.toNat / pageSize < 2 ^ 20 := by
  have hlt := address.isLt
  unfold pageSize
  omega

/-- Every operation drifts by less than the counter can hide, and not at all exactly when it counts
its frames. -/
theorem step_drifts {y z : PagingSystem} {a : PagingAction} (hy : y.state.Tracked)
    (h : y.step a = some z) :
    ∃ n < 2 ^ 32, y.state.Drifts z.state n ∧
      (y.state.findFirstFreeFrame ≠ noFrame → (n = 0 ↔ y.CountsFrames a)) := by
  -- a clone that finds a frame never counts it, whether or not it succeeds
  have hclone : ∀ {src : Nat} {phys : BitVec 32} {s : PagingState} {newDir : Nat},
      y.state.clonePageDirectory src phys.toNat = .ok (s, newDir) →
      ∃ n < 2 ^ 32, y.state.Drifts s n ∧
        (y.state.findFirstFreeFrame ≠ noFrame → (n = 0 ↔ False)) := by
    intro src phys s newDir hs
    by_cases hfound : y.state.findFirstFreeFrame = noFrame
    · simp only [PagingState.clonePageDirectory, hfound, if_true] at hs
      cases hs
      exact ⟨0, by omega, PagingState.Drifts.of_same hy rfl rfl rfl, fun h => absurd hfound h⟩
    · rcases PagingState.clonePageDirectory_drifts hy hfound hs with ⟨n, hn, hdrift, hne⟩
      exact ⟨n, by omega, hdrift, fun _ => iff_of_false hne id⟩
  cases step_turn h with
  | mapVirtualToPhysical _ hs =>
      rcases PagingState.mapVirtualToPhysical_drifts hy (frame_lt _) hs with ⟨n, hn, hdrift, hzero⟩
      exact ⟨n, by omega, hdrift, fun _ => hzero⟩
  | unmapVirtualPage _ hs =>
      rcases PagingState.unmapVirtualPage_drifts hy hs with ⟨n, hn, hdrift, hzero⟩
      exact ⟨n, by omega, hdrift, fun _ => hzero⟩
  | allocateMemoryRegion _ hs =>
      rcases PagingState.allocateMemoryRegion_drifts hy hs with ⟨n, hn, hdrift, hzero⟩
      exact ⟨n, by omega, hdrift, fun _ => hzero⟩
  | freeMemoryRegion _ hs =>
      rcases PagingState.freeMemoryRegion_drifts hy hs with ⟨n, hn, hdrift, hzero⟩
      exact ⟨n, by omega, hdrift, fun _ => hzero⟩
  | identityMapRegion _ hs =>
      rw [PagingState.identityMapRegion_eq] at hs
      rcases PagingState.identityMap_drifts hy PagingState.identityPages_lt hs with
        ⟨n, hn, hdrift, hzero⟩
      have hlen := hn.trans (Nat.mul_le_mul_left 2 (PagingState.length_identityPages_le _ _))
      exact ⟨n, by omega, hdrift, fun _ => hzero⟩
  | cloneFailed _ hs => exact hclone hs
  | cloned _ hs _ => exact hclone hs
  | switchPageDirectory =>
      exact ⟨0, by omega, PagingState.Drifts.of_same hy rfl rfl rfl, fun _ => iff_of_true rfl trivial⟩
  | pageFault hs =>
      rcases PagingState.pageFaultHandler_drifts hy hs with ⟨n, hn, hdrift, hzero⟩
      exact ⟨n, by omega, hdrift, fun _ => hzero⟩

end PagingSystem

end Paging
end WhitexKernel
