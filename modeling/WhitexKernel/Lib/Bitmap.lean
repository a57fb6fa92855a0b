import Mathlib.Data.Finset.Card
import Mathlib.Data.Finset.Range

/-!
# Bitmap — sets of numbers kept as bits of words

Bit `k % w` of word `k / w` says whether `k` is in the set.  Words are combined with masks, the way
C code does it; the lemmas give the set the operations stand for.

* `mark_iff`, `clear_iff` — marking and clearing one number;
* `count_mark`, `count_clear` — how many numbers are marked afterwards;
* `firstClear_some`, `firstClear_none` — the search for the least number that is not marked.
-/

namespace WhitexKernel
namespace Lib
namespace Bitmap

variable {w : Nat}

/-- The words of a bitmap. -/
abbrev Words (w : Nat) := Nat → BitVec w

/-- `1 << k % w` -/
def mask (w k : Nat) : BitVec w := 1#w <<< (k % w)

/-- `words[k / w] & mask` is not zero. -/
def marked (b : Words w) (k : Nat) : Bool := b (k / w) &&& mask w k != 0#w

/-- `words[k / w] |= mask` -/
def mark (b : Words w) (k : Nat) : Words w :=
  Function.update b (k / w) (b (k / w) ||| mask w k)

/-- `words[k / w] &= ~mask` -/
def clear (b : Words w) (k : Nat) : Words w :=
  Function.update b (k / w) (b (k / w) &&& ~~~ mask w k)

/-! ## Membership -/

theorem getLsbD_mask (hw : 0 < w) (k i : Nat) :
    (mask w k).getLsbD i = decide (i = k % w) := by
  have hk : k % w < w := Nat.mod_lt _ hw
  unfold mask
  rw [BitVec.getLsbD_shiftLeft, BitVec.getLsbD_one]
  by_cases hi : i = k % w
  · subst hi
    simp [hk, hw]
  · simp only [hi, decide_false]
    by_cases hlt : i < k % w
    · simp [hlt]
    · have hne : ¬ i - k % w = 0 := by omega
      simp [hne]

theorem marked_eq_getLsbD (hw : 0 < w) (b : Words w) (k : Nat) :
    marked b k = (b (k / w)).getLsbD (k % w) := by
  have hk : k % w < w := Nat.mod_lt _ hw
  unfold marked
  rw [Bool.eq_iff_iff, bne_iff_ne]
  constructor
  · intro hne
    by_contra hbit
    apply hne
    apply BitVec.eq_of_getLsbD_eq
    intro i _
    rw [BitVec.getLsbD_and, getLsbD_mask hw, BitVec.getLsbD_zero]
    by_cases hi : i = k % w
    · subst hi
      simpa using hbit
    · simp [hi]
  · intro hbit hzero
    have hget : (b (k / w) &&& mask w k).getLsbD (k % w) = false := by
      rw [hzero, BitVec.getLsbD_zero]
    rw [BitVec.getLsbD_and, getLsbD_mask hw, hbit] at hget
    simp at hget

theorem eq_of_div_eq_of_mod_eq {j k : Nat} (hdiv : j / w = k / w) (hmod : j % w = k % w) :
    j = k := by
  rw [← Nat.div_add_mod j w, ← Nat.div_add_mod k w, hdiv, hmod]

/-- Marking `k` adds `k`. -/
theorem mark_iff (hw : 0 < w) (b : Words w) (k j : Nat) :
    marked (mark b k) j = true ↔ j = k ∨ marked b j = true := by
  rw [marked_eq_getLsbD hw, marked_eq_getLsbD hw]
  unfold mark
  by_cases hword : j / w = k / w
  · rw [hword, Function.update_self, BitVec.getLsbD_or, getLsbD_mask hw]
    have hbit : j % w = k % w ↔ j = k :=
      ⟨fun hmod => eq_of_div_eq_of_mod_eq hword hmod, fun h => by rw [h]⟩
    simp [hbit, or_comm]
  · have hne : j ≠ k := by
      intro h
      exact hword (by rw [h])
    rw [Function.update_of_ne hword]
    simp [hne]

/-- Clearing `k` takes `k` away. -/
theorem clear_iff (hw : 0 < w) (b : Words w) (k j : Nat) :
    marked (clear b k) j = true ↔ j ≠ k ∧ marked b j = true := by
  have hj : j % w < w := Nat.mod_lt _ hw
  rw [marked_eq_getLsbD hw, marked_eq_getLsbD hw]
  unfold clear
  by_cases hword : j / w = k / w
  · rw [hword, Function.update_self, BitVec.getLsbD_and, BitVec.getLsbD_not, getLsbD_mask hw]
    have hbit : j % w = k % w ↔ j = k :=
      ⟨fun hmod => eq_of_div_eq_of_mod_eq hword hmod, fun h => by rw [h]⟩
    simp [hbit, hj, and_comm]
  · have hne : j ≠ k := by
      intro h
      exact hword (by rw [h])
    rw [Function.update_of_ne hword]
    simp [hne]

@[simp] theorem marked_zero (k : Nat) : marked (fun _ => 0#w) k = false := by
  simp [marked]

/-! ## Counting -/

/-- How many of the first `n` numbers are marked. -/
def count (b : Words w) (n : Nat) : Nat := ((Finset.range n).filter fun k => marked b k = true).card

theorem count_le (b : Words w) (n : Nat) : count b n ≤ n := by
  unfold count
  calc ((Finset.range n).filter fun k => marked b k = true).card
      ≤ (Finset.range n).card := Finset.card_filter_le _ _
    _ = n := Finset.card_range n

theorem count_mono {b c : Words w} (n : Nat) (h : ∀ k, marked b k = true → marked c k = true) :
    count b n ≤ count c n :=
  Finset.card_le_card (Finset.monotone_filter_right _ fun k _ => h k)

theorem count_congr {b c : Words w} (n : Nat) (h : ∀ k, marked b k = true ↔ marked c k = true) :
    count b n = count c n := by
  unfold count
  rw [Finset.filter_congr fun k _ => h k]

/-- When just the numbers below `m` are marked, there are `m` of them. -/
theorem count_of_marked_iff_lt {b : Words w} {m n : Nat} (hmn : m ≤ n)
    (h : ∀ k, k < n → (marked b k = true ↔ k < m)) : count b n = m := by
  have hlow : ((Finset.range n).filter fun k => marked b k = true) = Finset.range m := by
    ext k
    rw [Finset.mem_filter, Finset.mem_range, Finset.mem_range]
    constructor
    · rintro ⟨hk, hmarked⟩
      exact (h k hk).1 hmarked
    · intro hk
      exact ⟨Nat.lt_of_lt_of_le hk hmn, (h k (Nat.lt_of_lt_of_le hk hmn)).2 hk⟩
  unfold count
  rw [hlow, Finset.card_range]

/-- A number is counted once, however often it is marked. -/
theorem count_mark (hw : 0 < w) (b : Words w) {k n : Nat} (hk : k < n) :
    count (mark b k) n = count b n + (if marked b k = true then 0 else 1) := by
  have hinsert : ((Finset.range n).filter fun j => marked (mark b k) j = true) =
      insert k ((Finset.range n).filter fun j => marked b j = true) := by
    ext j
    rw [Finset.mem_filter, Finset.mem_insert, Finset.mem_filter, mark_iff hw]
    constructor
    · rintro ⟨hj, rfl | hold⟩
      · exact .inl rfl
      · exact .inr ⟨hj, hold⟩
    · rintro (rfl | ⟨hj, hold⟩)
      · exact ⟨Finset.mem_range.2 hk, .inl rfl⟩
      · exact ⟨hj, .inr hold⟩
  unfold count
  rw [hinsert]
  split
  case isTrue hmarked =>
    exact congrArg Finset.card
      (Finset.insert_eq_of_mem (Finset.mem_filter.2 ⟨Finset.mem_range.2 hk, hmarked⟩))
  case isFalse hfree =>
    exact Finset.card_insert_of_notMem fun hmem => hfree (Finset.mem_filter.1 hmem).2

theorem count_clear (hw : 0 < w) (b : Words w) {k n : Nat} (hk : k < n) :
    count (clear b k) n + (if marked b k = true then 1 else 0) = count b n := by
  have herase : ((Finset.range n).filter fun j => marked (clear b k) j = true) =
      ((Finset.range n).filter fun j => marked b j = true).erase k := by
    ext j
    rw [Finset.mem_filter, Finset.mem_erase, Finset.mem_filter, clear_iff hw]
    constructor
    · rintro ⟨hj, hne, hold⟩
      exact ⟨hne, hj, hold⟩
    · rintro ⟨hne, hj, hold⟩
      exact ⟨hj, hne, hold⟩
  unfold count
  rw [herase]
  split
  case isTrue hmarked =>
    exact Finset.card_erase_add_one (Finset.mem_filter.2 ⟨Finset.mem_range.2 hk, hmarked⟩)
  case isFalse hfree =>
    have hnot : k ∉ (Finset.range n).filter fun j => marked b j = true :=
      fun hmem => hfree (Finset.mem_filter.1 hmem).2
    rw [Finset.erase_eq_of_notMem hnot, Nat.add_zero]

/-- Numbers that were not marked are counted once each. -/
theorem count_union {b c : Words w} {n : Nat} {ks : Finset Nat} (hks : ∀ k ∈ ks, k < n)
    (hnew : ∀ k ∈ ks, marked b k = false)
    (h : ∀ k, marked c k = true ↔ marked b k = true ∨ k ∈ ks) : count c n = count b n + ks.card := by
  have hunion : ((Finset.range n).filter fun k => marked c k = true) =
      ((Finset.range n).filter fun k => marked b k = true) ∪ ks := by
    ext k
    rw [Finset.mem_filter, Finset.mem_union, Finset.mem_filter, h]
    constructor
    · rintro ⟨hk, hold | hmem⟩
      · exact .inl ⟨hk, hold⟩
      · exact .inr hmem
    · rintro (⟨hk, hold⟩ | hmem)
      · exact ⟨hk, .inl hold⟩
      · exact ⟨Finset.mem_range.2 (hks k hmem), .inr hmem⟩
  unfold count
  rw [hunion]
  refine Finset.card_union_of_disjoint (Finset.disjoint_left.2 fun k hk hmem => ?_)
  have hclear := hnew k hmem
  rw [(Finset.mem_filter.1 hk).2] at hclear
  cases hclear

/-! ## The least number that is not marked -/

/-- The least unset bit of a word. -/
def clearBit (word : BitVec w) : Option Nat :=
  (List.range w).find? fun j => word &&& 1#w <<< j == 0#w

/-- The least unset bit of the first `n` words, looking only into words that are not full. -/
def firstClear (b : Words w) (n : Nat) : Option Nat :=
  (List.range n).findSome? fun i =>
    if b i != BitVec.allOnes w then (clearBit (b i)).map fun j => i * w + j else none

/-- Bit `j` of word `i` belongs to `i * w + j`. -/
theorem marked_mul_add (b : Words w) {i j : Nat} (hj : j < w) :
    marked b (i * w + j) = (b i &&& 1#w <<< j != 0#w) := by
  have hdiv : (i * w + j) / w = i := by
    rw [Nat.mul_comm, Nat.mul_add_div (by omega), Nat.div_eq_of_lt hj, Nat.add_zero]
  have hmod : (i * w + j) % w = j := by
    rw [Nat.mul_comm, Nat.mul_add_mod, Nat.mod_eq_of_lt hj]
  unfold marked mask
  rw [hdiv, hmod]

theorem findSome?_range_eq_some {β : Type} {f : Nat → Option β} {n : Nat} {b : β}
    (h : (List.range n).findSome? f = some b) :
    ∃ i, i < n ∧ f i = some b ∧ ∀ j, j < i → f j = none := by
  rcases List.findSome?_eq_some_iff.1 h with ⟨l₁, i, l₂, hsplit, hfound, hbefore⟩
  have hget : (List.range n)[l₁.length]? = some i := by
    rw [hsplit]
    simp
  rcases List.getElem?_eq_some_iff.1 hget with ⟨hlen, hi⟩
  rw [List.length_range] at hlen
  have hi : l₁.length = i := by simpa using hi
  refine ⟨i, by omega, hfound, ?_⟩
  intro j hj
  apply hbefore
  have hmem : (List.range n)[j]? = some j := by
    rw [List.getElem?_range (by omega)]
  rw [hsplit, List.getElem?_append_left (by omega)] at hmem
  exact List.mem_of_getElem? hmem

/-- A full word, or one without a clear bit, has all its bits set. -/
theorem marked_of_not_found {b : Words w} {i j : Nat} (hj : j < w)
    (h : (if b i != BitVec.allOnes w then (clearBit (b i)).map fun k => i * w + k
      else none) = none) : marked b (i * w + j) = true := by
  rw [marked_mul_add b hj]
  split at h
  case isTrue =>
    rw [Option.map_eq_none_iff] at h
    unfold clearBit at h
    rw [List.find?_eq_none] at h
    simpa using h j (List.mem_range.2 hj)
  case isFalse hfull =>
    have hfull : b i = BitVec.allOnes w := by simpa using hfull
    have hbit := marked_mul_add b (i := i) hj
    rw [← hbit, marked_eq_getLsbD (by omega), Nat.mul_comm, Nat.mul_add_div (by omega),
      Nat.div_eq_of_lt hj, Nat.add_zero, hfull, BitVec.getLsbD_allOnes]
    simpa using Nat.mod_lt _ (by omega : 0 < w)

/-- What the search finds is in range and not marked, and everything below it is marked. -/
theorem firstClear_some {b : Words w} {n k : Nat} (h : firstClear b n = some k) :
    k < n * w ∧ marked b k = false ∧ ∀ j, j < k → marked b j = true := by
  unfold firstClear at h
  -- word `i` is the first with a clear bit, and `j` the first clear bit in it
  rcases findSome?_range_eq_some h with ⟨i, hi, hfound, hbefore⟩
  split at hfound
  case isFalse => cases hfound
  case isTrue =>
    rcases Option.map_eq_some_iff.1 hfound with ⟨j, hbit, rfl⟩
    unfold clearBit at hbit
    rw [List.find?_range_eq_some] at hbit
    rcases hbit with ⟨hclear, hj, hbelow⟩
    rw [List.mem_range] at hj
    refine ⟨?_, ?_, ?_⟩
    · calc i * w + j < i * w + w := by omega
        _ = (i + 1) * w := by rw [Nat.add_mul, Nat.one_mul]
        _ ≤ n * w := Nat.mul_le_mul_right w hi
    · rw [marked_mul_add b hj]
      simpa using hclear
    · intro m hm
      have hw : 0 < w := by omega
      have hmod : m % w < w := Nat.mod_lt _ hw
      have hsplit : m / w * w + m % w = m := by
        rw [Nat.mul_comm]
        exact Nat.div_add_mod m w
      rw [← hsplit]
      -- a bit below lies in an earlier word, or in word `i` below `j`
      rcases Nat.lt_or_ge (m / w) i with hword | hword
      · exact marked_of_not_found hmod (hbefore _ hword)
      · have hle : i * w ≤ m / w * w := Nat.mul_le_mul_right w hword
        have heq : m / w = i := by
          apply Nat.le_antisymm _ hword
          rw [← Nat.lt_succ_iff, Nat.div_lt_iff_lt_mul hw, Nat.succ_mul]
          omega
        rw [heq, marked_mul_add b hmod]
        have hlt : m % w < j := by
          rw [heq] at hsplit
          omega
        simpa using hbelow _ hlt

/-- When the search finds nothing, every number in range is marked. -/
theorem firstClear_none {b : Words w} {n : Nat} (h : firstClear b n = none) {k : Nat}
    (hk : k < n * w) : marked b k = true := by
  have hw : 0 < w := by
    rcases Nat.eq_zero_or_pos w with rfl | hw
    · omega
    · exact hw
  have hj : k % w < w := Nat.mod_lt _ hw
  have hi : k / w < n := (Nat.div_lt_iff_lt_mul hw).2 hk
  have hsplit : k / w * w + k % w = k := by
    rw [Nat.mul_comm]
    exact Nat.div_add_mod k w
  unfold firstClear at h
  rw [List.findSome?_eq_none_iff] at h
  rw [← hsplit]
  exact marked_of_not_found hj (h (k / w) (List.mem_range.2 hi))

/-! ## The first run of numbers that are not marked -/

/-- None of the `count` numbers from `start` on is marked. -/
def ClearRun (b : Words w) (start count : Nat) : Prop :=
  ∀ i, i < count → marked b (start + i) = false

/-- The search for `count` unmarked numbers in a row, with a run of length `free` that began at
`start` right before the numbers still to be looked at. -/
def runFrom (b : Words w) (count : Nat) : List Nat → Nat → Nat → Option Nat
  | [], _, _ => none
  | i :: is, start, free =>
      if !marked b i then
        let start := if free = 0 then i else start
        if free + 1 = count then some start else runFrom b count is start (free + 1)
      else runFrom b count is start 0

/-- The least number that begins a run of `count` unmarked numbers in the first `n` words. -/
def firstRun (b : Words w) (count n : Nat) : Option Nat :=
  runFrom b count (List.range (n * w)) 0 0

/-- Where the search stands before it looks at `k`: the `free` numbers before `k` are unmarked, and
no run begins before them. -/
structure Searching (b : Words w) (count k start free : Nat) : Prop where
  short : free < count
  behind : free ≤ k
  start : 0 < free → start = k - free
  clear : ∀ j, k - free ≤ j → j < k → marked b j = false
  least : ∀ r, ClearRun b r count → k - free ≤ r

theorem Searching.extend {b : Words w} {count k start free : Nat}
    (h : Searching b count k start free) (hk : marked b k = false) (hshort : free + 1 < count) :
    Searching b count (k + 1) (if free = 0 then k else start) (free + 1) := by
  have hbehind := h.behind
  have hstart := h.start
  refine
    { short := hshort
      behind := Nat.succ_le_succ hbehind
      start := fun _ => ?_
      clear := fun j hj hlt => ?_
      least := fun r hr => ?_ }
  · split
    · omega
    · rw [hstart (by omega)]
      omega
  · rcases Nat.lt_or_ge j k with hjk | hjk
    · exact h.clear j (by omega) hjk
    · have hj : j = k := by omega
      exact hj ▸ hk
  · have hle := h.least r hr
    omega

theorem Searching.restart {b : Words w} {count k start free : Nat}
    (h : Searching b count k start free) (hk : marked b k = true) :
    Searching b count (k + 1) start 0 := by
  have hshort := h.short
  refine
    { short := by omega
      behind := Nat.zero_le _
      start := fun hpos => absurd hpos (Nat.lt_irrefl 0)
      clear := fun j hj hlt => by omega
      least := fun r hr => ?_ }
  -- a run that began earlier would go over `k`
  have hle := h.least r hr
  by_contra hbefore
  have hclear := hr (k - r) (by omega)
  rw [show r + (k - r) = k by omega, hk] at hclear
  cases hclear

theorem runFrom_spec {b : Words w} {count m : Nat} {k start free : Nat}
    (h : Searching b count k start free) :
    (∀ r, runFrom b count (List.range' k m) start free = some r →
      ClearRun b r count ∧ r + count ≤ k + m ∧ ∀ r', ClearRun b r' count → r ≤ r') ∧
    (runFrom b count (List.range' k m) start free = none →
      ∀ r, ClearRun b r count → ¬ r + count ≤ k + m) := by
  -- on what is left to search, with the invariant `Searching` at its front
  induction m generalizing k start free with
  | zero =>
      refine ⟨fun r hr => ?_, fun _ r hr hle => ?_⟩
      · cases hr
      have hleast := h.least r hr
      have hshort := h.short
      have hbehind := h.behind
      omega
  | succ m ih =>
      have hbound : k + 1 + m = k + (m + 1) := by omega
      rw [List.range'_succ, runFrom, ← hbound]
      cases hk : marked b k with
      | true => exact ih (h.restart hk)
      | false =>
          simp only [Bool.not_false, if_true]
          split
          case isTrue hfull =>
            -- the run has just become long enough, and starts where its first clear bit was seen
            have hstart : (if free = 0 then k else start) = k - free := by
              have hfirst := h.start
              split
              · omega
              · exact hfirst (by omega)
            have hbehind := h.behind
            refine ⟨fun r hr => ?_, fun hnone => by cases hnone⟩
            rw [Option.some.injEq, hstart] at hr
            subst hr
            refine ⟨fun i hi => ?_, by omega, h.least⟩
            rcases Nat.lt_or_ge (k - free + i) k with hlt | hge
            · exact h.clear _ (Nat.le_add_right _ _) hlt
            · have hik : k - free + i = k := by omega
              rw [hik]
              exact hk
          case isFalse hmore =>
            have hshort := h.short
            exact ih (h.extend hk (by omega))

theorem searching_start (b : Words w) {count : Nat} (hcount : 0 < count) :
    Searching b count 0 0 0 :=
  { short := hcount
    behind := Nat.le_refl 0
    start := fun _ => rfl
    clear := fun _ _ hlt => absurd hlt (Nat.not_lt_zero _)
    least := fun _ _ => Nat.zero_le _ }

/-- The search finds the first run. -/
theorem firstRun_some {b : Words w} {count n r : Nat} (hcount : 0 < count)
    (h : firstRun b count n = some r) :
    ClearRun b r count ∧ r + count ≤ n * w ∧ ∀ r', ClearRun b r' count → r ≤ r' := by
  unfold firstRun at h
  rw [List.range_eq_range'] at h
  have hspec := (runFrom_spec (searching_start b hcount)).1 r h
  rwa [Nat.zero_add] at hspec

/-- When it finds nothing, there is none. -/
theorem firstRun_none {b : Words w} {count n : Nat} (hcount : 0 < count)
    (h : firstRun b count n = none) (r : Nat) (hr : ClearRun b r count) : ¬ r + count ≤ n * w := by
  unfold firstRun at h
  rw [List.range_eq_range'] at h
  have hspec := (runFrom_spec (searching_start b hcount)).2 h r hr
  rwa [Nat.zero_add] at hspec

end Bitmap
end Lib
end WhitexKernel
