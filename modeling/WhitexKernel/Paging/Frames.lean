import Mathlib.Data.Set.Insert
import WhitexKernel.Lib.Outcome
import WhitexKernel.Paging.Model

/-!
# Frames — what the operations on frames do to the bitmap and to the entries

* `findFirstFreeFrame_cases` — the frame that is handed out is the lowest that is not marked;
* `allocateFrame_cases` — an entry is left alone, or it gets this frame;
* `getPageEntry_lookup` — looking an entry up changes nothing.
-/

namespace WhitexKernel
namespace Paging

open Lib Machine

namespace PagingState

/-! ## Stores and bits -/

@[simp] theorem entry_setEntry (s : PagingState) (page other : EntryRef) (e : PageTableEntry) :
    (s.setEntry page e).entry other = if other = page then e else s.entry other := by
  unfold entry setEntry
  by_cases htable : other.table = page.table
  · by_cases hindex : other.index = page.index
    · have heq : other = page := by
        cases other
        cases page
        simp_all
      simp [heq]
    · have hne : other ≠ page := fun h => hindex (by rw [h])
      simp [htable, hindex, hne]
  · have hne : other ≠ page := fun h => htable (by rw [h])
    simp [htable, hne]

theorem entry_setEntry_self (s : PagingState) (page : EntryRef) (e : PageTableEntry) :
    (s.setEntry page e).entry page = e := by simp

@[simp] theorem entry_zeroTable (s : PagingState) (table : Nat) (page : EntryRef) :
    (s.zeroTable table).entry page =
      if page.table = table then PageTableEntry.zero else s.entry page := by
  unfold entry zeroTable
  by_cases htable : page.table = table
  · simp [htable]
  · simp [htable]

@[simp] theorem entry_bitmapSetBit (s : PagingState) (address : Nat) (page : EntryRef) :
    (s.bitmapSetBit address).entry page = s.entry page := rfl

@[simp] theorem entry_bitmapClearBit (s : PagingState) (address : Nat) (page : EntryRef) :
    (s.bitmapClearBit address).entry page = s.entry page := rfl

@[simp] theorem entry_setDirectory (s : PagingState) (dir : Nat) (d : PageDirectory)
    (page : EntryRef) : (s.setDirectory dir d).entry page = s.entry page := rfl

@[simp] theorem entry_copyFrame (s : PagingState) (dest src : Nat) (page : EntryRef) :
    (s.copyFrame dest src).entry page = s.entry page := rfl

@[simp] theorem marked_setEntry (s : PagingState) (page : EntryRef) (e : PageTableEntry)
    (frame : Nat) : (s.setEntry page e).marked frame = s.marked frame := rfl

@[simp] theorem marked_zeroTable (s : PagingState) (table frame : Nat) :
    (s.zeroTable table).marked frame = s.marked frame := rfl

@[simp] theorem marked_setDirectory (s : PagingState) (dir : Nat) (d : PageDirectory)
    (frame : Nat) : (s.setDirectory dir d).marked frame = s.marked frame := rfl

@[simp] theorem marked_copyFrame (s : PagingState) (dest src frame : Nat) :
    (s.copyFrame dest src).marked frame = s.marked frame := rfl

-- Not by `rfl` alone: as rewriting steps these would have the kernel compare the counts.
@[simp] theorem entry_withCount (s : PagingState) (count : Nat) (page : EntryRef) :
    { s with totalAllocatedFrames := count }.entry page = s.entry page := by
  unfold entry
  rfl

@[simp] theorem marked_withCount (s : PagingState) (count frame : Nat) :
    { s with totalAllocatedFrames := count }.marked frame = s.marked frame := by
  unfold marked
  rfl

theorem marked_bitmapSetBit (s : PagingState) (address frame : Nat) :
    (s.bitmapSetBit address).marked frame = true ↔
      frame = address / pageSize ∨ s.marked frame = true :=
  Bitmap.mark_iff (by decide) _ _ _

theorem marked_bitmapClearBit (s : PagingState) (address frame : Nat) :
    (s.bitmapClearBit address).marked frame = true ↔
      frame ≠ address / pageSize ∧ s.marked frame = true :=
  Bitmap.clear_iff (by decide) _ _ _

/-- The frame is not marked, and those below it are. -/
structure LowestFree (s : PagingState) (frame : Nat) : Prop where
  lt : frame < 2 ^ 20
  clear : s.marked frame = false
  below : ∀ j < frame, s.marked j = true

/-- No address of a frame is the answer for "none". -/
theorem mul_pageSize_ne_noFrame (frame : Nat) : frame * pageSize ≠ noFrame := by
  unfold pageSize noFrame
  omega

/-- The search answers with the lowest free frame, if there is one. -/
theorem findFirstFreeFrame_cases (s : PagingState) :
    (s.findFirstFreeFrame = noFrame ∧ ∀ frame < 2 ^ 20, s.marked frame = true) ∨
      ∃ frame, s.findFirstFreeFrame = frame * pageSize ∧ s.LowestFree frame := by
  have hsome : ∀ frame, Bitmap.firstClear s.physicalMemoryBitmap bitmapSize = some frame →
      s.LowestFree frame := by
    intro frame hfirst
    rcases Bitmap.firstClear_some hfirst with ⟨hlt, hclear, hbelow⟩
    exact ⟨hlt, hclear, hbelow⟩
  have hnone : Bitmap.firstClear s.physicalMemoryBitmap bitmapSize = none →
      ∀ frame < 2 ^ 20, s.marked frame = true :=
    fun hfirst frame hlt => Bitmap.firstClear_none hfirst hlt
  unfold findFirstFreeFrame
  -- the words are kept from being enumerated
  generalize Bitmap.firstClear s.physicalMemoryBitmap bitmapSize = first at hsome hnone
  cases first with
  | none => exact .inl ⟨rfl, hnone rfl⟩
  | some frame => exact .inr ⟨frame, rfl, hsome frame rfl⟩

theorem lowestFree_findFirstFreeFrame {s : PagingState} (h : s.findFirstFreeFrame ≠ noFrame) :
    s.LowestFree (s.findFirstFreeFrame / pageSize) := by
  rcases findFirstFreeFrame_cases s with ⟨hnone, _⟩ | ⟨frame, hframe, hlowest⟩
  · exact absurd hnone h
  · rw [hframe, Nat.mul_div_cancel frame (by decide)]
    exact hlowest

/-- A frame that is handed out was not marked. -/
theorem not_marked_findFirstFreeFrame {s : PagingState} (h : s.findFirstFreeFrame ≠ noFrame) :
    s.marked (s.findFirstFreeFrame / pageSize) = false := (lowestFree_findFirstFreeFrame h).clear

/-- A frame is handed out as long as one is free. -/
theorem findFirstFreeFrame_ne_noFrame {s : PagingState} {frame : Nat} (hlt : frame < 2 ^ 20)
    (hfree : s.marked frame = false) : s.findFirstFreeFrame ≠ noFrame := by
  rcases findFirstFreeFrame_cases s with ⟨_, hall⟩ | ⟨first, hfirst, _⟩
  · have hmarked := hall frame hlt
    rw [hfree] at hmarked
    cases hmarked
  · rw [hfirst]
    exact mul_pageSize_ne_noFrame first

/-- The tables of the known directories. -/
def mappedTables (s : PagingState) (known : List Nat) : Set Nat :=
  {table | table ≠ 0 ∧ ∃ dir ∈ known, ∃ i, (s.directories dir).tables i = table}

/-! ## Entries and their frames -/

theorem allocateFrame_cases {s t : PagingState} {page : EntryRef} {isKernel isWritable : Int}
    (h : s.allocateFrame page isKernel isWritable = .ok t) :
    ((s.entry page).frame ≠ 0 ∧ t = s) ∨
    ((s.entry page).frame = 0 ∧ s.findFirstFreeFrame ≠ noFrame ∧
      t = { (s.bitmapSetBit s.findFirstFreeFrame).setEntry page
              { s.entry page with
                present := true
                rw := isWritable == 1
                user := !(isKernel == 1)
                frame := s.findFirstFreeFrame / pageSize } with
            totalAllocatedFrames := wrap32 (s.totalAllocatedFrames + 1) }) := by
  unfold allocateFrame at h
  split at h
  case isTrue hframe =>
    cases h
    exact .inl ⟨hframe, rfl⟩
  case isFalse hframe =>
    simp only at h
    split at h
    · cases h
    case isFalse hfree =>
      cases h
      exact .inr ⟨by simpa using hframe, hfree, rfl⟩

theorem allocateFrame_directories {s t : PagingState} {page : EntryRef} {isKernel isWritable : Int}
    (h : s.allocateFrame page isKernel isWritable = .ok t) : t.directories = s.directories := by
  rcases allocateFrame_cases h with ⟨_, rfl⟩ | ⟨_, _, rfl⟩ <;> rfl

/-- Where the entry for an address is, if its table exists. -/
def pageRef (s : PagingState) (address dir : Nat) : Option EntryRef :=
  let table := (s.directories dir).tables (address / pageSize / pageEntries)
  if table ≠ 0 then some { table := table, index := address / pageSize % pageEntries } else none

/-- Looking an entry up changes nothing. -/
theorem getPageEntry_lookup (s : PagingState) (address dir : Nat) :
    s.getPageEntry address false dir = .ok (s, s.pageRef address dir) := by
  unfold getPageEntry pageRef
  by_cases htable : (s.directories dir).tables (address / pageSize / pageEntries) = 0
  · simp [htable]
  · simp [htable]

end PagingState

end Paging
end WhitexKernel
