import Mathlib.Logic.Function.Basic

/-!
# Handover — a ring of slots between two parties

One party fills the slots of a ring of `N` in order, the other empties them in order.  Counted from
the start, the `k`-th slot is slot `k % N` of the ring.  `Handed` says how far the two have come.

* `Handed.next` — the slot to be emptied next shows whether something waits in it;
* `Handed.fill`, `Handed.empty` — a step of either party.
-/

namespace WhitexKernel
namespace Lib

universe u v

variable {α : Type u} {β : Type v}

/-- No two slots within one round of the ring are the same. -/
theorem mod_ne_of_window {N n j k : Nat} (hj : n ≤ j) (hk : n ≤ k) (hj' : j < n + N)
    (hk' : k < n + N) (hne : j ≠ k) : j % N ≠ k % N := by
  intro hsame
  rcases Nat.lt_or_gt_of_ne hne with hlt | hlt
  · have hzero : (k - j) % N = 0 := Nat.sub_mod_eq_zero_of_mod_eq hsame.symm
    rw [Nat.mod_eq_of_lt (by omega)] at hzero
    omega
  · have hzero : (j - k) % N = 0 := Nat.sub_mod_eq_zero_of_mod_eq hsame
    rw [Nat.mod_eq_of_lt (by omega)] at hzero
    omega

/-- All of `xs` has been filled in and the first `n` of it have been emptied; `read` is what a slot
holds. -/
structure Handed (N : Nat) (read : α → Option β) (slots : Nat → α) (xs : List β) (n : Nat) :
    Prop where
  le_length : n ≤ xs.length
  window : ∀ k, n ≤ k → k < n + N → read (slots (k % N)) = xs[k]?

namespace Handed

variable {N n : Nat} {read : α → Option β} {slots : Nat → α} {xs : List β}

theorem start (hempty : ∀ i < N, read (slots i) = none) : Handed N read slots [] 0 where
  le_length := Nat.zero_le _
  window k _ hk := by
    rw [hempty _ (Nat.mod_lt _ (by omega)), List.getElem?_nil]

theorem next (h : Handed N read slots xs n) (hpos : 0 < N) : read (slots (n % N)) = xs[n]? :=
  h.window n (Nat.le_refl n) (by omega)

/-- The next slot is filled, which is not one of those in use. -/
theorem fill (h : Handed N read slots xs n) (hroom : xs.length < n + N) {slot : α} {x : β}
    (hslot : read slot = some x) :
    Handed N read (Function.update slots (xs.length % N) slot) (xs ++ [x]) n where
  le_length := by
    rw [List.length_append]
    exact Nat.le_trans h.le_length (Nat.le_add_right _ _)
  window k hn hk := by
    by_cases hlast : k = xs.length
    · rw [hlast, Function.update_self, hslot, List.getElem?_concat_length]
    · have hother := mod_ne_of_window hn h.le_length hk hroom hlast
      rw [Function.update_of_ne hother, h.window k hn hk]
      rcases Nat.lt_or_gt_of_ne hlast with hlt | hlt
      · exact (List.getElem?_append_left hlt).symm
      · rw [List.getElem?_eq_none (by omega), List.getElem?_eq_none (by simp; omega)]

/-- The slot that has waited longest is emptied. -/
theorem empty (h : Handed N read slots xs n) (hlt : n < xs.length) (hlength : xs.length ≤ n + N)
    {slot : α} (hslot : read slot = none) :
    Handed N read (Function.update slots (n % N) slot) xs (n + 1) where
  le_length := hlt
  window k hn hk := by
    by_cases hlast : k = n + N
    · rw [hlast, Nat.add_mod_right, Function.update_self, hslot,
        List.getElem?_eq_none (by omega)]
    · have hother := mod_ne_of_window (j := k) (k := n) (by omega) (Nat.le_refl n)
        (by omega : k < n + N) (by omega) (by omega)
      rw [Function.update_of_ne hother, h.window k (by omega) (by omega)]

end Handed

end Lib
end WhitexKernel
