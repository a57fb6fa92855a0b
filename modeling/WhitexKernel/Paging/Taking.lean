import WhitexKernel.Lib.Rank
import WhitexKernel.Paging.Demand

/-!
# Taking — in which order frames are taken

`find_first_free_frame` always answers with the lowest free frame.  So the frame that a call takes
with its `m`-th request is the one of rank `m` among those that were free before the call, whatever
else the call does.  `Grown` is the frame rule that goes with it: tables and contents change in frames
of certain ranks only.
-/

namespace WhitexKernel
namespace Paging

open Lib Machine

namespace PagingState

instance (s : PagingState) : DecidablePred s.Free := fun frame => by
  unfold Free
  infer_instance

variable {s t u v : PagingState} {m n frame : Nat}

/-- The frame is free, and `m` free frames are below it. -/
def Placed (s : PagingState) (frame m : Nat) : Prop := s.Free frame ∧ Nat.count s.Free frame = m

theorem Placed.unique {frame' : Nat} (h : s.Placed frame m) (h' : s.Placed frame' m) :
    frame = frame' :=
  Nat.count_injective h.1 h'.1 (h.2.trans h'.2.symm)

/-- In `u` the `m` lowest of the frames that are free in `s` have been taken. -/
def Taken (s u : PagingState) (m : Nat) : Prop := ∀ frame, u.Free frame ↔ Rank.Left s.Free m frame

namespace Taken

theorem start (s : PagingState) : Taken s s 0 := fun frame => (Rank.left_zero s.Free frame).symm

theorem congr (h : Taken s u m) (hbitmap : v.physicalMemoryBitmap = u.physicalMemoryBitmap) :
    Taken s v m := by
  intro frame
  rw [← h frame]
  unfold Free marked
  rw [hbitmap]

/-- The frame that is handed out next. -/
theorem placed (h : Taken s u m) (hfound : u.findFirstFreeFrame ≠ noFrame) :
    s.Placed (u.findFirstFreeFrame / pageSize) m := by
  have hleft := (h _).1 (free_findFirstFreeFrame hfound)
  refine ⟨hleft.1, Rank.count_eq_of_least hleft fun j hj hlower => ?_⟩
  have hclear := ((h j).2 hlower).2
  rw [marked_of_lt_findFirstFreeFrame hfound hj] at hclear
  cases hclear

theorem mark (h : Taken s u m) (hfound : u.findFirstFreeFrame ≠ noFrame) :
    Taken s (u.bitmapSetBit u.findFirstFreeFrame) (m + 1) := by
  intro frame
  have hplaced := h.placed hfound
  rw [free_bitmapSetBit_iff, h frame]
  exact (Rank.left_succ hplaced.1 hplaced.2 frame).symm

/-- When no frame is found, all of them have been taken. -/
theorem count_le (h : Taken s u m) (hnone : u.findFirstFreeFrame = noFrame) :
    Nat.count s.Free (2 ^ 20) ≤ m := by
  refine Rank.count_le_of_none fun frame _ hleft => ?_
  exact (findFirstFreeFrame_eq_noFrame_iff u).1 hnone frame ((h frame).2 hleft)

/-- What has been taken is marked. -/
theorem marked (h : Taken s u m) (hfree : s.Free frame) (hlt : Nat.count s.Free frame < m) :
    u.marked frame = true := by
  by_contra hclear
  have hleft := (h frame).1 ⟨hfree.1, Bool.eq_false_iff.2 hclear⟩
  exact absurd hlt (Nat.not_lt.2 hleft.2)

end Taken

/-! ## What changes on the way -/

/-- A frame of rank `m`, …, `n - 1`. -/
def Between (s : PagingState) (frame m n : Nat) : Prop :=
  s.Free frame ∧ m ≤ Nat.count s.Free frame ∧ Nat.count s.Free frame < n

theorem Between.mono {m' n' : Nat} (h : s.Between frame m n) (hm : m' ≤ m) (hn : n ≤ n') :
    s.Between frame m' n' :=
  ⟨h.1, Nat.le_trans hm h.2.1, Nat.lt_of_lt_of_le h.2.2 hn⟩

theorem Placed.between (h : s.Placed frame m) (hlt : m < n) : s.Between frame m n :=
  ⟨h.1, Nat.le_of_eq h.2.symm, h.2.symm ▸ hlt⟩

/-- Between `u` and `v`, entries of tables and contents have changed only in frames of rank `m`, …,
`n - 1`. -/
structure Grown (s u v : PagingState) (m n : Nat) : Prop where
  entry : ∀ page : EntryRef, v.entry page = u.entry page ∨
    ∃ frame, page.table = frame * pageSize ∧ s.Between frame m n
  contents : ∀ frame, v.contents frame = u.contents frame ∨ s.Between frame m n

namespace Grown

theorem refl (s u : PagingState) (m : Nat) : Grown s u u m m :=
  ⟨fun _ => .inl rfl, fun _ => .inl rfl⟩

theorem mono {m' n' : Nat} (h : Grown s u v m n) (hm : m' ≤ m) (hn : n ≤ n') :
    Grown s u v m' n' := by
  refine ⟨fun page => (h.entry page).imp_right ?_, fun frame => (h.contents frame).imp_right ?_⟩
  · rintro ⟨frame, htable, hbetween⟩
    exact ⟨frame, htable, hbetween.mono hm hn⟩
  · exact fun hbetween => hbetween.mono hm hn

theorem trans (huv : Grown s u v m n) (hvt : Grown s v t m n) : Grown s u t m n := by
  refine ⟨fun page => ?_, fun frame => ?_⟩
  · rcases hvt.entry page with hsame | hchanged
    · rw [hsame]
      exact huv.entry page
    · exact .inr hchanged
  · rcases hvt.contents frame with hsame | hchanged
    · rw [hsame]
      exact huv.contents frame
    · exact .inr hchanged

theorem congr (h : Grown s u v m n) (hentries : ∀ page, t.entry page = v.entry page)
    (hcontents : t.contents = v.contents) : Grown s u t m n := by
  refine ⟨fun page => ?_, fun frame => ?_⟩
  · rw [hentries]
    exact h.entry page
  · rw [hcontents]
    exact h.contents frame

/-- A table in a frame of another rank is as it was. -/
theorem entry_of_placed {rank : Nat} {page : EntryRef} (h : Grown s u v m n)
    (htable : page.table = frame * pageSize) (hplaced : s.Placed frame rank)
    (hother : rank < m ∨ n ≤ rank) : v.entry page = u.entry page := by
  rcases h.entry page with hsame | ⟨frame', htable', hbetween⟩
  · exact hsame
  · have heq : frame' = frame :=
      Nat.eq_of_mul_eq_mul_right (by decide) (htable'.symm.trans htable)
    rw [heq] at hbetween
    have hrank := hplaced.2
    have hfrom := hbetween.2.1
    have hto := hbetween.2.2
    omega

theorem contents_of_placed {rank : Nat} (h : Grown s u v m n) (hplaced : s.Placed frame rank)
    (hother : rank < m ∨ n ≤ rank) : v.contents frame = u.contents frame := by
  rcases h.contents frame with hsame | hbetween
  · exact hsame
  · have hrank := hplaced.2
    have hfrom := hbetween.2.1
    have hto := hbetween.2.2
    omega

end Grown

end PagingState

end Paging
end WhitexKernel
