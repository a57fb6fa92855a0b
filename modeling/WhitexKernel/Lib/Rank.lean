import Mathlib.Data.Nat.Count

/-!
# Rank — taking the elements of a set in order

The rank of a number in a decidable set of numbers is how many elements of the set are below it.
Whoever always takes the least element that is left takes the element of rank 0, then that of rank 1,
and so on; so what has been taken can be told from the set as it was.
-/

namespace WhitexKernel
namespace Lib
namespace Rank

variable {p : Nat → Prop} [DecidablePred p] {k m n : Nat}

/-- What is left of `p` when its `m` least elements have been taken. -/
def Left (p : Nat → Prop) [DecidablePred p] (m k : Nat) : Prop := p k ∧ m ≤ Nat.count p k

@[simp] theorem left_zero (p : Nat → Prop) [DecidablePred p] (k : Nat) : Left p 0 k ↔ p k :=
  ⟨fun h => h.1, fun h => ⟨h, Nat.zero_le _⟩⟩

/-- Every rank below the number of elements is that of an element. -/
theorem exists_of_lt_count (h : m < Nat.count p n) : ∃ k < n, p k ∧ Nat.count p k = m := by
  induction n with
  | zero =>
      rw [Nat.count_zero] at h
      omega
  | succ n ih =>
      by_cases hn : p n
      · rw [Nat.count_succ, if_pos hn] at h
        rcases Nat.lt_succ_iff_lt_or_eq.1 h with hbelow | heq
        · rcases ih hbelow with ⟨k, hk, hpk, hcount⟩
          exact ⟨k, Nat.lt_succ_of_lt hk, hpk, hcount⟩
        · exact ⟨n, Nat.lt_succ_self n, hn, heq.symm⟩
      · rw [Nat.count_succ, if_neg hn] at h
        rcases ih h with ⟨k, hk, hpk, hcount⟩
        exact ⟨k, Nat.lt_succ_of_lt hk, hpk, hcount⟩

/-- The least element that is left has the rank that comes next. -/
theorem count_eq_of_least (h : Left p m k) (hleast : ∀ j, j < k → ¬ Left p m j) :
    Nat.count p k = m := by
  rcases Nat.lt_or_eq_of_le h.2 with hmore | heq
  · rcases exists_of_lt_count hmore with ⟨j, hj, hpj, hcount⟩
    exact absurd ⟨hpj, Nat.le_of_eq hcount.symm⟩ (hleast j hj)
  · exact heq.symm

theorem left_succ (hk : p k) (hcount : Nat.count p k = m) (j : Nat) :
    Left p (m + 1) j ↔ j ≠ k ∧ Left p m j := by
  constructor
  · rintro ⟨hj, hlt⟩
    refine ⟨?_, hj, Nat.le_of_succ_le hlt⟩
    rintro rfl
    omega
  · rintro ⟨hne, hj, hle⟩
    refine ⟨hj, Nat.lt_of_le_of_ne hle fun heq => hne ?_⟩
    exact Nat.count_injective hj hk (heq.symm.trans hcount.symm)

/-- When nothing is left there were no more elements. -/
theorem count_le_of_none (h : ∀ k, k < n → ¬ Left p m k) : Nat.count p n ≤ m := by
  by_contra hmore
  rcases exists_of_lt_count (Nat.lt_of_not_le hmore) with ⟨k, hk, hpk, hcount⟩
  exact h k hk ⟨hpk, Nat.le_of_eq hcount.symm⟩

end Rank
end Lib
end WhitexKernel
