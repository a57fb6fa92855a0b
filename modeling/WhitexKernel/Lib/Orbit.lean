import Mathlib.Data.Finset.Card
import Mathlib.Data.Finset.Range

/-!
# Orbit — following a partial function

`next` says where a place leads to, if anywhere.  On a finite set of places it is decided early
whether one ever leaves the set or comes to an end: there are only so many places to go to before one
that has been visited comes again (`orbit_inside`).
-/

namespace WhitexKernel
namespace Lib

universe u

variable {κ : Type u}

/-- The place after `n` steps. -/
def orbit (next : κ → Option κ) : Nat → κ → Option κ
  | 0, k => some k
  | n + 1, k => (next k).bind (orbit next n)

variable {next : κ → Option κ} {k l : κ}

theorem orbit_add (next : κ → Option κ) (m n : Nat) (k : κ) :
    orbit next (m + n) k = (orbit next m k).bind (orbit next n) := by
  induction m generalizing k with
  | zero =>
      rw [Nat.zero_add]
      rfl
  | succ m ih =>
      rw [Nat.succ_add, orbit, orbit, Option.bind_assoc]
      cases next k with
      | none => rfl
      | some l => exact ih l

/-- A place that comes again comes again and again. -/
theorem orbit_shift {i j : Nat} (h : orbit next i k = some l) (h' : orbit next j k = some l)
    (n : Nat) : orbit next (j + n) k = orbit next (i + n) k := by
  rw [orbit_add, orbit_add, h, h']

/-- As many steps inside a finite set as it has places: then all steps are inside. -/
theorem orbit_inside {places : Finset κ}
    (h : ∀ n ≤ places.card, ∃ l ∈ places, orbit next n k = some l) (n : Nat) :
    ∃ l ∈ places, orbit next n k = some l := by
  have hcard : places.card < (Finset.range (places.card + 1)).card := by
    rw [Finset.card_range]
    exact Nat.lt_succ_self _
  have hmaps : Set.MapsTo (fun i => (orbit next i k).getD k) (Finset.range (places.card + 1))
      places := by
    intro i hi
    rw [Finset.mem_coe, Finset.mem_range] at hi
    obtain ⟨l, hl, hi⟩ := h i (Nat.lt_succ_iff.1 hi)
    simp only [hi, Option.getD_some]
    exact hl
  obtain ⟨i, hi, j, hj, hne, heq⟩ := Finset.exists_ne_map_eq_of_card_lt_of_maps_to hcard hmaps
  rw [Finset.mem_range] at hi hj
  -- the earlier and the later visit of the same place
  wlog hlt : i < j generalizing i j
  · exact this j hj i hi hne.symm heq.symm (by omega)
  obtain ⟨l, _, hvisit⟩ := h i (by omega)
  obtain ⟨l', _, hagain⟩ := h j (by omega)
  simp only [hvisit, hagain, Option.getD_some] at heq
  rw [← heq] at hagain
  induction n using Nat.strong_induction_on with
  | _ n ih =>
      by_cases hearly : n ≤ places.card
      · exact h n hearly
      · -- the same steps, one round of the circle earlier
        obtain ⟨d, rfl⟩ : ∃ d, n = j + d := ⟨n - j, by omega⟩
        rw [orbit_shift hvisit hagain]
        exact ih (i + d) (by omega)

end Lib
end WhitexKernel
