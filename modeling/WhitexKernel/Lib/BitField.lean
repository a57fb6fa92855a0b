import Mathlib.Data.BitVec

/-!
# BitField — the members of a packed word

A member is some bits in a row: `get` reads them, and `set` puts others in their place.

* `get_set_self`, `get_set_of_apart` — what the members are after one of them has been set.
-/

namespace WhitexKernel
namespace Lib

/-- A member of a word of `w` bits: its lowest bit, and how many there are. -/
structure BitField (w : Nat) where
  lsb : Nat
  width : Nat
  fits : lsb + width ≤ w

namespace BitField

variable {w : Nat}

def get (f : BitField w) (x : BitVec w) : BitVec f.width := x.extractLsb' f.lsb f.width

/-- The bits of the member. -/
def mask (f : BitField w) : BitVec w := (BitVec.allOnes f.width).setWidth w <<< f.lsb

def set (f : BitField w) (x : BitVec w) (v : BitVec f.width) : BitVec w :=
  x &&& ~~~ f.mask ||| v.setWidth w <<< f.lsb

/-- Two members have no bit in common. -/
def Apart (f g : BitField w) : Prop := f.lsb + f.width ≤ g.lsb ∨ g.lsb + g.width ≤ f.lsb

theorem getLsbD_mask (f : BitField w) (j : Nat) :
    f.mask.getLsbD j = decide (f.lsb ≤ j ∧ j < f.lsb + f.width) := by
  have hfits := f.fits
  unfold mask
  rw [BitVec.getLsbD_shiftLeft, BitVec.getLsbD_setWidth, BitVec.getLsbD_allOnes]
  by_cases hin : f.lsb ≤ j ∧ j < f.lsb + f.width
  · have hlow : j - f.lsb < f.width := by omega
    have hword : j < w := by omega
    have hword' : j - f.lsb < w := by omega
    have hnot : ¬ j < f.lsb := by omega
    simp [hin, hlow, hword, hword', hnot]
  · rw [decide_eq_false hin]
    by_cases hbelow : j < f.lsb
    · simp [hbelow]
    · have habove : ¬ j - f.lsb < f.width := by omega
      simp [habove]

/-- The bits of the word after a member has been set. -/
theorem getLsbD_set (f : BitField w) (x : BitVec w) (v : BitVec f.width) (j : Nat) :
    (f.set x v).getLsbD j =
      if f.lsb ≤ j ∧ j < f.lsb + f.width then v.getLsbD (j - f.lsb) else x.getLsbD j := by
  have hfits := f.fits
  unfold set
  rw [BitVec.getLsbD_or, BitVec.getLsbD_and, BitVec.getLsbD_not, getLsbD_mask,
    BitVec.getLsbD_shiftLeft, BitVec.getLsbD_setWidth]
  by_cases hin : f.lsb ≤ j ∧ j < f.lsb + f.width
  · have hword : j < w := by omega
    have hword' : j - f.lsb < w := by omega
    have hnot : ¬ j < f.lsb := by omega
    simp [hin, hword, hword', hnot]
  · rw [if_neg hin, decide_eq_false hin]
    have hempty : v.getLsbD (j - f.lsb) = false ∨ j < f.lsb := by
      by_cases hbelow : j < f.lsb
      · exact .inr hbelow
      · exact .inl (BitVec.getLsbD_of_ge _ _ (by omega))
    by_cases hword : j < w
    · rcases hempty with hempty | hbelow
      · simp [hempty, hword]
      · simp [hbelow, hword]
    · simp [hword, BitVec.getLsbD_of_ge x j (by omega)]

@[simp] theorem get_set_self (f : BitField w) (x : BitVec w) (v : BitVec f.width) :
    f.get (f.set x v) = v := by
  refine BitVec.eq_of_getLsbD_eq fun j hj => ?_
  have hin : f.lsb ≤ f.lsb + j ∧ f.lsb + j < f.lsb + f.width := by omega
  unfold get
  rw [BitVec.getLsbD_extractLsb', getLsbD_set, if_pos hin, Nat.add_sub_cancel_left]
  simp [hj]

/-- The other members keep their values. -/
theorem get_set_of_apart {f g : BitField w} (h : f.Apart g) (x : BitVec w) (v : BitVec g.width) :
    f.get (g.set x v) = f.get x := by
  refine BitVec.eq_of_getLsbD_eq fun j hj => ?_
  have hout : ¬ (g.lsb ≤ f.lsb + j ∧ f.lsb + j < g.lsb + g.width) := by
    unfold Apart at h
    omega
  unfold get
  rw [BitVec.getLsbD_extractLsb', BitVec.getLsbD_extractLsb', getLsbD_set, if_neg hout]

end BitField
end Lib
end WhitexKernel
