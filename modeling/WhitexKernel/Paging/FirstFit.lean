import Mathlib.Order.Bounds.Basic
import WhitexKernel.Paging.Detected

/-!
# FirstFit — `find_contiguous_free_frames` is first fit

`contiguousLoop` is the loop as it is written, in 32-bit arithmetic on the bits of
`physical_memory_bitmap`; it never wraps around, so it is the search for the first run of free
frames.  What the search answers is the least frame such a run begins at.
-/

namespace WhitexKernel
namespace Paging

open Lib Machine

namespace PagingState

/-! ## The loop of the source -/

/-- `bitmap_test_bit` -/
def bitmapTestBit (s : PagingState) (frameAddress : Nat) : Bool :=
  s.marked (frameAddress / pageSize)

/-- The loop of `find_contiguous_free_frames`, with the values of `start_frame` and `free_count`. -/
def contiguousLoop (s : PagingState) (count : Nat) : List Nat → Nat → Nat → Nat
  | [], _, _ => noFrame
  | i :: is, startFrame, freeCount =>
      if !s.bitmapTestBit (wrap32 (i * pageSize)) then
        let startFrame := if freeCount = 0 then i else startFrame
        let freeCount := wrap32 (freeCount + 1)
        if freeCount = count then wrap32 (startFrame * pageSize)
        else s.contiguousLoop count is startFrame freeCount
      else s.contiguousLoop count is startFrame 0

/-- `find_contiguous_free_frames` without its two special cases. -/
def searchContiguous (s : PagingState) (count : Nat) : Nat :=
  s.contiguousLoop count (List.range (bitmapSize * 32)) 0 0

/-- Frame numbers below `2 ^ 20` have 32-bit addresses. -/
theorem wrap32_address {frame : Nat} (h : frame < 2 ^ 20) :
    wrap32 (frame * pageSize) = frame * pageSize := by
  apply wrap32_of_lt
  unfold pageSize
  omega

theorem bitmapTestBit_address (s : PagingState) {frame : Nat} (h : frame < 2 ^ 20) :
    s.bitmapTestBit (wrap32 (frame * pageSize)) = s.marked frame := by
  have hpage : 0 < pageSize := by decide
  rw [wrap32_address h, bitmapTestBit, Nat.mul_div_cancel _ hpage]

/-- No step of the loop wraps around. -/
theorem contiguousLoop_eq (s : PagingState) (count : Nat) {is : List Nat}
    (his : ∀ i ∈ is, i < 2 ^ 20) {start free : Nat} (hstart : start < 2 ^ 20)
    (hfree : free + is.length ≤ 2 ^ 20) :
    s.contiguousLoop count is start free =
      match Bitmap.runFrom s.physicalMemoryBitmap count is start free with
      | some frame => frame * pageSize
      | none => noFrame := by
  induction is generalizing start free with
  | nil => rfl
  | cons i is ih =>
      have hi : i < 2 ^ 20 := his i List.mem_cons_self
      have hrest : ∀ j ∈ is, j < 2 ^ 20 := fun j hj => his j (List.mem_cons_of_mem _ hj)
      rw [List.length_cons] at hfree
      -- neither the counter nor the address of a frame reaches 2^32
      have hcount : wrap32 (free + 1) = free + 1 := wrap32_of_lt (by omega)
      have hbit : s.bitmapTestBit (wrap32 (i * pageSize)) =
          Bitmap.marked s.physicalMemoryBitmap i := s.bitmapTestBit_address hi
      rw [contiguousLoop, Bitmap.runFrom, hbit, hcount]
      cases Bitmap.marked s.physicalMemoryBitmap i with
      | true => exact ih hrest hstart (by omega)
      | false =>
          have hnew : (if free = 0 then i else start) < 2 ^ 20 := by
            split
            · exact hi
            · exact hstart
          simp only [Bool.not_false, if_true]
          split
          case isTrue => exact wrap32_address hnew
          case isFalse => exact ih hrest hnew (by omega)

/-- The loop over the frames of the first `n` words. -/
theorem contiguousLoop_range (s : PagingState) (count : Nat) {n : Nat} (hn : n * 32 ≤ 2 ^ 20) :
    s.contiguousLoop count (List.range (n * 32)) 0 0 =
      match Bitmap.firstRun s.physicalMemoryBitmap count n with
      | some frame => frame * pageSize
      | none => noFrame := by
  have hbelow : ∀ i ∈ List.range (n * 32), i < 2 ^ 20 := fun i hi =>
    Nat.lt_of_lt_of_le (List.mem_range.1 hi) hn
  unfold Bitmap.firstRun
  refine s.contiguousLoop_eq count hbelow (Nat.two_pow_pos 20) ?_
  rw [List.length_range, Nat.zero_add]
  exact hn

/-- The general loop, whatever the count, is the search for the first run of free frames. -/
theorem searchContiguous_eq (s : PagingState) (count : Nat) :
    s.searchContiguous count =
      match Bitmap.firstRun s.physicalMemoryBitmap count bitmapSize with
      | some frame => frame * pageSize
      | none => noFrame := by
  have hsize : bitmapSize * 32 ≤ 2 ^ 20 := by decide
  unfold searchContiguous
  -- the frames are kept from being enumerated
  generalize bitmapSize = n at hsize ⊢
  exact s.contiguousLoop_range count hsize

/-! ## First fit -/

/-- The frames `start`, …, `start + count - 1` are below `2 ^ 20` and free. -/
def FreeRun (s : PagingState) (count start : Nat) : Prop :=
  start + count ≤ 2 ^ 20 ∧ ∀ i, i < count → s.marked (start + i) = false

/-- The answer to a request for `count` frames in a row. -/
structure FirstFit (s : PagingState) (count answer : Nat) : Prop where
  found : ∀ start, answer = start * pageSize ↔ IsLeast {start | s.FreeRun count start} start
  none : answer = noFrame ↔ ∀ start, ¬ s.FreeRun count start

theorem freeAt_iff_freeRun (s : PagingState) (count start : Nat) :
    Request.FreeAt { state := s, count := count } start ↔ s.FreeRun count start := by
  have hsize : bitmapSize * 32 = 2 ^ 20 := by decide
  unfold Request.FreeAt FreeRun
  rw [hsize]
  exact and_comm

/-- The address of the least run, or `0xFFFFFFFF` when there is none, is the answer. -/
theorem firstFit_of_cases {s : PagingState} {count answer : Nat}
    (h : (answer = noFrame ∧ ∀ start, ¬ s.FreeRun count start) ∨
      ∃ start, answer = start * pageSize ∧ IsLeast {start | s.FreeRun count start} start) :
    s.FirstFit count answer := by
  rcases h with ⟨rfl, hnone⟩ | ⟨first, rfl, hleast⟩
  · refine ⟨fun start => ⟨fun h => ?_, fun h => ?_⟩, iff_of_true rfl hnone⟩
    · exact absurd h.symm (mul_pageSize_ne_noFrame start)
    · exact absurd h.1 (hnone start)
  · refine ⟨fun start => ⟨fun h => ?_, fun h => ?_⟩, ?_⟩
    · have hsame : first = start := Nat.eq_of_mul_eq_mul_right (by decide) h
      exact hsame ▸ hleast
    · rw [hleast.unique h]
    · refine iff_of_false (mul_pageSize_ne_noFrame first) fun hnone => ?_
      exact hnone first hleast.1

/-- The first run that the search finds is the least one. -/
theorem searchContiguous_firstFit (s : PagingState) {count : Nat} (hcount : 0 < count) :
    s.FirstFit count (s.searchContiguous count) := by
  have hsize : bitmapSize * 32 = 2 ^ 20 := by decide
  rw [searchContiguous_eq]
  apply firstFit_of_cases
  cases hfound : Bitmap.firstRun s.physicalMemoryBitmap count bitmapSize with
  | none =>
      refine .inl ⟨rfl, fun start hstart => ?_⟩
      have hend := Bitmap.firstRun_none hcount hfound start hstart.2
      rw [hsize] at hend
      exact hend hstart.1
  | some frame =>
      rcases Bitmap.firstRun_some hcount hfound with ⟨hclear, hend, hleast⟩
      rw [hsize] at hend
      exact .inr ⟨frame, rfl, ⟨hend, hclear⟩, fun start hstart => hleast start hstart.2⟩

/-- There is one answer only. -/
theorem FirstFit.unique {s : PagingState} {count answer answer' : Nat}
    (h : s.FirstFit count answer) (h' : s.FirstFit count answer')
    (hanswer : answer = noFrame ∨ ∃ start, answer = start * pageSize) : answer' = answer := by
  rcases hanswer with hnone | ⟨start, hstart⟩
  · rw [hnone]
    exact h'.none.2 (h.none.1 hnone)
  · rw [hstart]
    exact (h'.found start).2 ((h.found start).1 hstart)

/-- Every call for at least one frame is answered by first fit, as the general loop would answer
it: the call for one frame, which takes the shortcut, as well. -/
theorem findContiguousFreeFrames_firstFit (s : PagingState) (count : BitVec 32)
    (hcount : 1 ≤ count.toNat) :
    s.FirstFit count.toNat (s.findContiguousFreeFrames count.toNat) ∧
      s.findContiguousFreeFrames count.toNat = s.searchContiguous count.toNat ∧
      s.searchContiguous 1 = s.findFirstFreeFrame := by
  have hanswer : ∀ n, 0 < n → s.FirstFit n (s.findContiguousFreeFrames n) := by
    intro n hn
    apply firstFit_of_cases
    rcases Request.answer_cases { state := s, count := n } with
      ⟨hnone, hzero | hfree⟩ | ⟨start, hstart, _, hfree, hleast⟩
    · exact absurd hzero (Nat.ne_of_gt hn)
    · exact .inl ⟨hnone, fun start h => hfree start ((s.freeAt_iff_freeRun n start).2 h)⟩
    · refine .inr ⟨start, hstart, (s.freeAt_iff_freeRun n start).1 hfree, fun start' h => ?_⟩
      exact hleast start' ((s.freeAt_iff_freeRun n start').2 h)
  have hsearch : ∀ n, 0 < n → s.findContiguousFreeFrames n = s.searchContiguous n := by
    intro n hn
    -- first fit has one answer, and both give it
    refine (s.searchContiguous_firstFit hn).unique (hanswer n hn) ?_
    rw [searchContiguous_eq]
    cases Bitmap.firstRun s.physicalMemoryBitmap n bitmapSize with
    | none => exact .inl rfl
    | some frame => exact .inr ⟨frame, rfl⟩
  have hone : s.findContiguousFreeFrames 1 = s.findFirstFreeFrame := by
    unfold findContiguousFreeFrames
    rw [if_neg Nat.one_ne_zero, if_pos rfl]
  exact ⟨hanswer _ hcount, hsearch _ hcount, (hsearch 1 Nat.one_pos).symm.trans hone⟩

/-- With the first frame taken, the first two free frames in a row begin at the second. -/
theorem findContiguousFreeFrames_firstFit_pair :
    (boot.bitmapSetBit 0).FirstFit 2 ((boot.bitmapSetBit 0).findContiguousFreeFrames 2) ∧
      (boot.bitmapSetBit 0).findContiguousFreeFrames 2 = (boot.bitmapSetBit 0).searchContiguous 2 ∧
      (boot.bitmapSetBit 0).searchContiguous 1 = (boot.bitmapSetBit 0).findFirstFreeFrame :=
  findContiguousFreeFrames_firstFit (boot.bitmapSetBit 0) 2#32 (by decide)

end PagingState

end Paging
end WhitexKernel
