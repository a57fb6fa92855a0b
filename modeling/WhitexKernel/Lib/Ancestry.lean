import Mathlib.Data.Fintype.Card
import Mathlib.Data.Nat.Find
import Mathlib.Logic.Function.Iterate

/-!
# Ancestry — climbing a parent function to its root

Every node has one parent, and the root is its own.  `Climbs parent root Good x n` says that `n`
steps up from `x` end at the root, over nodes that are all `Good`.

* `Climbs.congr` — only the nodes on the way matter;
* `Climbs.up`, `Climbs.down` — the climb of the parent, and of a child;
* `Climbs.not_child` — no node on the way but the root is a child of the first one;
* `Climbs.exists_lt_card` — over finitely many nodes, some climb is short.
-/

namespace WhitexKernel
namespace Lib

universe u

variable {α : Type u}

/-- `n` steps up from `x` lead to `root`, over good nodes. -/
structure Climbs (parent : α → α) (root : α) (Good : α → Prop) (x : α) (n : Nat) : Prop where
  arrives : parent^[n] x = root
  good : ∀ k, k ≤ n → Good (parent^[k] x)

namespace Climbs

variable {parent parent' : α → α} {root : α} {Good Good' : α → Prop} {x y : α} {n : Nat}

/-- The first node is good, and so is the root. -/
theorem head (h : Climbs parent root Good x n) : Good x := h.good 0 (Nat.zero_le n)

theorem root_good (h : Climbs parent root Good x n) : Good root := by
  have hlast := h.good n (Nat.le_refl n)
  rwa [h.arrives] at hlast

theorem refl (h : Good root) : Climbs parent root Good root 0 := by
  refine ⟨rfl, fun k hk => ?_⟩
  rw [Nat.le_zero.1 hk]
  exact h

/-- Two parent functions that agree on the nodes of a climb take the same steps. -/
theorem iterate_eq (h : Climbs parent root Good x n)
    (hparent : ∀ y, Good y → parent' y = parent y) {k : Nat} (hk : k ≤ n) :
    parent'^[k] x = parent^[k] x := by
  induction k with
  | zero => rfl
  | succ k ih =>
      have hle : k ≤ n := Nat.le_of_succ_le hk
      rw [Function.iterate_succ_apply', Function.iterate_succ_apply', ih hle]
      exact hparent _ (h.good k hle)

/-- A climb survives what changes none of its nodes. -/
theorem congr (h : Climbs parent root Good x n)
    (hparent : ∀ y, Good y → parent' y = parent y)
    (hgood : ∀ k, k ≤ n → Good' (parent^[k] x)) : Climbs parent' root Good' x n := by
  refine ⟨(h.iterate_eq hparent (Nat.le_refl n)).trans h.arrives, fun k hk => ?_⟩
  rw [h.iterate_eq hparent hk]
  exact hgood k hk

/-- The parent climbs as well. -/
theorem up (h : Climbs parent root Good x n) (hroot : parent root = root) :
    ∃ m, m ≤ n ∧ Climbs parent root Good (parent x) m := by
  cases n with
  | zero =>
      have hx : x = root := h.arrives
      subst hx
      rw [hroot]
      exact ⟨0, Nat.le_refl 0, h⟩
  | succ n =>
      refine ⟨n, Nat.le_succ n, h.arrives, fun k hk => ?_⟩
      exact h.good (k + 1) (Nat.succ_le_succ hk)

/-- A good child climbs one step further. -/
theorem down (h : Climbs parent root Good x n) (hy : Good y) (hparent : parent y = x) :
    Climbs parent root Good y (n + 1) := by
  subst hparent
  refine ⟨h.arrives, fun k hk => ?_⟩
  cases k with
  | zero => exact hy
  | succ k => exact h.good k (Nat.le_of_succ_le_succ hk)

/-- A climb that came back to its first node would never leave it, so it starts at the root. -/
theorem eq_root_of_cycle (h : Climbs parent root Good x n) (hroot : parent root = root) {k : Nat}
    (hcycle : parent^[k + 1] x = x) : x = root := by
  have hround : parent^[(k + 1) * n] x = x := by
    rw [Function.iterate_mul]
    exact Function.iterate_fixed hcycle n
  have hsplit : (k + 1) * n = k * n + n := Nat.succ_mul k n
  rw [hsplit, Function.iterate_add_apply, h.arrives, Function.iterate_fixed hroot] at hround
  exact hround.symm

/-- No node on the way but the root is a child of the first one. -/
theorem not_child (h : Climbs parent root Good x n) (hroot : parent root = root)
    (hy : y ≠ root) (hparent : parent y = x) (k : Nat) : parent^[k] x ≠ y := by
  intro hk
  have hcycle : parent^[k + 1] x = x := by
    rw [Function.iterate_succ_apply', hk, hparent]
  have hx : x = root := h.eq_root_of_cycle hroot hcycle
  rw [hx, Function.iterate_fixed hroot] at hk
  exact hy hk.symm

/-- Over finitely many nodes, there is a climb of fewer steps than there are nodes. -/
theorem exists_lt_card [Fintype α] (h : Climbs parent root Good x n) :
    ∃ m, m < Fintype.card α ∧ Climbs parent root Good x m := by
  classical
  have hex : ∃ m, parent^[m] x = root := ⟨n, h.arrives⟩
  -- the shortest climb passes no node twice
  let m := Nat.find hex
  have harrives : parent^[m] x = root := Nat.find_spec hex
  have hmn : m ≤ n := Nat.find_min' hex h.arrives
  have hlater : ∀ i j, i < j → j ≤ m → parent^[i] x ≠ parent^[j] x := by
    intro i j hij hj heq
    have hshort : parent^[m - j + i] x = root := by
      calc parent^[m - j + i] x = parent^[m - j] (parent^[j] x) := by
            rw [Function.iterate_add_apply, heq]
        _ = parent^[m] x := by
            rw [← Function.iterate_add_apply, Nat.sub_add_cancel hj]
        _ = root := harrives
    exact Nat.find_min hex (by omega : m - j + i < m) hshort
  have hinj : Function.Injective fun i : Fin (m + 1) => parent^[i.val] x := by
    intro i j hij
    rcases Nat.lt_trichotomy i.val j.val with hlt | heq | hlt
    · exact absurd hij (hlater i j hlt (Nat.le_of_lt_succ j.isLt))
    · exact Fin.ext heq
    · exact absurd hij.symm (hlater j i hlt (Nat.le_of_lt_succ i.isLt))
  have hcard : m + 1 ≤ Fintype.card α := by
    simpa using Fintype.card_le_of_injective _ hinj
  exact ⟨m, hcard, harrives, fun k hk => h.good k (Nat.le_trans hk hmn)⟩

end Climbs

end Lib
end WhitexKernel
