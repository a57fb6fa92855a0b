import Mathlib.Logic.Function.Basic

/-!
# Keyed — slots that hold different keys

A slot is free or holds a key.  No two slots hold the same key as long as only keys that no slot
holds are put into free slots; then the first slot with a key is the only one, and when it is given up
the key is gone.
-/

namespace WhitexKernel
namespace Lib

universe u v

variable {ι : Type u} {κ : Type v} {keys keys' : ι → Option κ} {i : ι} {k : κ}

/-- No two slots hold the same key. -/
def DistinctKeys (keys : ι → Option κ) : Prop :=
  ∀ i j k, keys i = some k → keys j = some k → i = j

namespace DistinctKeys

/-- Slots may be given up. -/
theorem mono (h : DistinctKeys keys) (hsub : ∀ i k, keys' i = some k → keys i = some k) :
    DistinctKeys keys' := by
  intro i j k hi hj
  exact h i j k (hsub i k hi) (hsub j k hj)

/-- A free slot may be given a key exactly when no slot holds it. -/
theorem update_iff [DecidableEq ι] (h : DistinctKeys keys) (hfree : keys i = none) :
    DistinctKeys (Function.update keys i (some k)) ↔ ∀ j, keys j ≠ some k := by
  constructor
  · rintro hnew j hj
    have hne : j ≠ i := by
      rintro rfl
      rw [hfree] at hj
      cases hj
    refine hne (hnew j i k ?_ (Function.update_self i _ keys))
    rw [Function.update_of_ne hne]
    exact hj
  · intro hfresh a b key ha hb
    -- a slot other than `i` holds what it held before
    have hold : ∀ {c}, c ≠ i → Function.update keys i (some k) c = some key →
        keys c = some key := by
      intro c hc hkey
      rwa [Function.update_of_ne hc] at hkey
    have hself : ∀ {c}, c = i → Function.update keys i (some k) c = some key → k = key := by
      rintro c rfl hkey
      rw [Function.update_self] at hkey
      exact Option.some.inj hkey
    by_cases hai : a = i
    · by_cases hbi : b = i
      · rw [hai, hbi]
      · exact absurd (hself hai ha ▸ hold hbi hb) (hfresh b)
    · by_cases hbi : b = i
      · exact absurd (hself hbi hb ▸ hold hai ha) (hfresh a)
      · exact h a b key (hold hai ha) (hold hbi hb)

/-- The key of a slot that is given up is gone. -/
theorem gone (h : DistinctKeys keys) (hi : keys i = some k) (hfreed : keys' i = none)
    (hsub : ∀ j key, keys' j = some key → keys j = some key) (j : ι) : keys' j ≠ some k := by
  intro hj
  have hji : j = i := h j i k (hsub j k hj) hi
  rw [hji, hfreed] at hj
  cases hj

/-- A search for a key finds the slot that holds it. -/
theorem find?_eq (h : DistinctKeys keys) {p : ι → Bool} (hp : ∀ j, p j = true → keys j = some k)
    (hi : p i = true) {slots : List ι} (hmem : i ∈ slots) : slots.find? p = some i := by
  cases hfind : slots.find? p with
  | none => exact absurd hi (List.find?_eq_none.1 hfind i hmem)
  | some j =>
      have hj : p j = true := List.find?_some hfind
      rw [h j i k (hp j hj) (hp i hi)]

end DistinctKeys

end Lib
end WhitexKernel
