import Mathlib.Algebra.BigOperators.Field
import Mathlib.Algebra.Order.BigOperators.Group.Finset
import Mathlib.Algebra.Order.Field.Rat
import Mathlib.Data.Nat.Cast.Field

/-!
# Recovery — sharing one slot among members that have to recover

In each round one member wins and then has to recover for `full` rounds before it can win again;
meanwhile every member that is recovering gets one round closer to the end of its rest.  If the
members that recover at the same time never make up a whole winner, that is, if the sum of
`1 / full` over them stays below one, then winning uses up more than recovery gives back:

* `potential` — what all members have still to recover, weighted by how fast they do;
* `potential_lt` — it rises in such a round;
* `potential_le` — it is bounded, so there are not many such rounds in a row.
-/

namespace WhitexKernel
namespace Lib
namespace Recovery

variable {ι : Type}

/-- The rest of each member, in units of which a full recovery is worth `unit`. -/
def potential (members : Finset ι) (unit : Nat) (full rest : ι → Nat) : Nat :=
  ∑ q ∈ members, unit / full q * rest q

theorem potential_le {members : Finset ι} {unit : Nat} {full rest : ι → Nat}
    (hrest : ∀ q ∈ members, rest q ≤ full q) :
    potential members unit full rest ≤ members.card * unit := by
  unfold potential
  refine Finset.sum_le_card_nsmul _ _ _ fun q hq => ?_
  exact (Nat.mul_le_mul_left _ (hrest q hq)).trans (Nat.div_mul_le_self unit (full q))

theorem potential_congr {members : Finset ι} {unit : Nat} {full full' rest rest' : ι → Nat}
    (hfull : ∀ q ∈ members, full' q = full q) (hrest : ∀ q ∈ members, rest' q = rest q) :
    potential members unit full' rest' = potential members unit full rest := by
  unfold potential
  exact Finset.sum_congr rfl fun q hq => by rw [hfull q hq, hrest q hq]

/-- The members that recover take less off than one full recovery. -/
theorem sum_div_lt {recovering : Finset ι} {unit : Nat} {full : ι → Nat} (hunit : 0 < unit)
    (hdvd : ∀ q ∈ recovering, full q ∣ unit)
    (hload : ∑ q ∈ recovering, (1 : ℚ) / full q < 1) :
    ∑ q ∈ recovering, unit / full q < unit := by
  have hunit' : (0 : ℚ) < unit := by exact_mod_cast hunit
  have hcast : ((∑ q ∈ recovering, unit / full q : Nat) : ℚ) =
      unit * ∑ q ∈ recovering, (1 : ℚ) / full q := by
    rw [Nat.cast_sum, Finset.mul_sum]
    refine Finset.sum_congr rfl fun q hq => ?_
    have hfull : (full q : ℚ) ≠ 0 := by
      intro hzero
      have hzero : full q = 0 := by exact_mod_cast hzero
      have hnull := hdvd q hq
      rw [hzero, Nat.zero_dvd] at hnull
      omega
    rw [Nat.cast_div (hdvd q hq) hfull, mul_one_div]
  have hlt : ((∑ q ∈ recovering, unit / full q : Nat) : ℚ) < unit := by
    rw [hcast]
    calc unit * ∑ q ∈ recovering, (1 : ℚ) / full q
        < unit * 1 := mul_lt_mul_of_pos_left hload hunit'
      _ = unit := mul_one _
  exact_mod_cast hlt

/-- In a round the winner begins a full recovery, and the others that recover get one step closer to
the end of theirs. -/
theorem potential_lt [DecidableEq ι] {members recovering : Finset ι} {unit : Nat}
    {full rest rest' : ι → Nat} {winner : ι} (hunit : 0 < unit) (hsub : recovering ⊆ members)
    (hwinner : winner ∈ members) (hdvd : ∀ q ∈ members, full q ∣ unit)
    (hround : ∀ q ∈ members, rest' q + (if q ∈ recovering then 1 else 0) =
      rest q + if q = winner then full winner else 0)
    (hload : ∑ q ∈ recovering, (1 : ℚ) / full q < 1) :
    potential members unit full rest < potential members unit full rest' := by
  have hlost := sum_div_lt hunit (fun q hq => hdvd q (hsub hq)) hload
  -- the weighted steps of those that recover, and the weighted rest the winner takes on
  have htaken : ∑ q ∈ members, unit / full q * (if q ∈ recovering then 1 else 0) =
      ∑ q ∈ recovering, unit / full q := by
    simp only [mul_ite, mul_one, mul_zero]
    rw [← Finset.sum_filter, Finset.filter_mem_eq_inter, Finset.inter_eq_right.2 hsub]
  have hgiven : ∑ q ∈ members, unit / full q * (if q = winner then full winner else 0) = unit := by
    simp only [mul_ite, mul_zero]
    rw [Finset.sum_ite_eq' members winner, if_pos hwinner, Nat.div_mul_cancel (hdvd _ hwinner)]
  -- the winner adds a whole unit, more than all the others give back
  have hsum : potential members unit full rest' + ∑ q ∈ recovering, unit / full q =
      potential members unit full rest + unit :=
    calc potential members unit full rest' + ∑ q ∈ recovering, unit / full q
        = ∑ q ∈ members, unit / full q * (rest' q + if q ∈ recovering then 1 else 0) := by
          simp only [potential, Nat.mul_add, Finset.sum_add_distrib, htaken]
      _ = ∑ q ∈ members, unit / full q * (rest q + if q = winner then full winner else 0) :=
          Finset.sum_congr rfl fun q hq => by rw [hround q hq]
      _ = potential members unit full rest + unit := by
          simp only [potential, Nat.mul_add, Finset.sum_add_distrib, hgiven]
  omega

end Recovery
end Lib
end WhitexKernel
