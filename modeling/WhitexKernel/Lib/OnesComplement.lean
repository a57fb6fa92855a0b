/-!
# OnesComplement — sums with end-around carry

To base `B`, a number is reduced to one digit by adding its carries back in until none is left.
`endAround` is what comes out: zero for zero, and otherwise the residue modulo `B - 1` between `1`
and `B - 1`.

* `loop_eq_endAround` — every loop with that round computes it;
* `endAround_add_complement` — a number and the complement of its digit reduce to the largest digit.
-/

namespace WhitexKernel
namespace Lib

/-- The one digit that is left of `n` when its carries are added back in. -/
def endAround (B n : Nat) : Nat := if n = 0 then 0 else (n - 1) % (B - 1) + 1

variable {B n : Nat}

@[simp] theorem endAround_zero : endAround B 0 = 0 := rfl

theorem endAround_of_pos (h : 0 < n) : endAround B n = (n - 1) % (B - 1) + 1 :=
  if_neg (Nat.ne_of_gt h)

/-- A single digit stays as it is. -/
theorem endAround_of_lt (h : n < B) : endAround B n = n := by
  rcases Nat.eq_zero_or_pos n with rfl | hpos
  · rfl
  · rw [endAround_of_pos hpos, Nat.mod_eq_of_lt (by omega)]
    omega

theorem endAround_lt (hB : 2 ≤ B) (n : Nat) : endAround B n < B := by
  rcases Nat.eq_zero_or_pos n with rfl | hpos
  · exact Nat.lt_of_lt_of_le Nat.zero_lt_two hB
  · have hmod : (n - 1) % (B - 1) < B - 1 := Nat.mod_lt _ (by omega)
    rw [endAround_of_pos hpos]
    omega

/-- What is `1` less than the base may be added freely. -/
theorem endAround_add_mul (hpos : 0 < n) (k : Nat) :
    endAround B (n + (B - 1) * k) = endAround B n := by
  have hsum : n + (B - 1) * k - 1 = (n - 1) + (B - 1) * k := by omega
  rw [endAround_of_pos (by omega), endAround_of_pos hpos, hsum, Nat.add_mul_mod_self_left]

/-- Adding the carries back in keeps the digit. -/
theorem endAround_round (hB : 2 ≤ B) (n : Nat) :
    endAround B (n % B + n / B) = endAround B n := by
  rcases Nat.eq_zero_or_pos n with rfl | hpos
  · simp
  · have hpos' : 0 < n % B + n / B := by
      rcases Nat.lt_or_ge n B with hlt | hge
      · rw [Nat.mod_eq_of_lt hlt]
        exact Nat.add_pos_left hpos _
      · have hdiv : 0 < n / B := Nat.div_pos hge (by omega)
        omega
    have hsplit : n = (n % B + n / B) + (B - 1) * (n / B) := by
      have hdiv : B * (n / B) + n % B = n := Nat.div_add_mod n B
      have hmul : (B - 1) * (n / B) + n / B = B * (n / B) := by
        rw [← Nat.succ_mul]
        congr 1
        omega
      omega
    calc endAround B (n % B + n / B)
        = endAround B ((n % B + n / B) + (B - 1) * (n / B)) := (endAround_add_mul hpos' _).symm
      _ = endAround B n := by rw [← hsplit]

theorem loop_eq_endAround (hB : 2 ≤ B) {loop : Nat → Nat}
    (hloop : ∀ n, loop n = if n / B = 0 then n else loop (n % B + n / B)) (n : Nat) :
    loop n = endAround B n := by
  induction n using Nat.strongRecOn with
  | ind n ih =>
      rw [hloop]
      split
      case isTrue hdone =>
        have hlt : n < B := (Nat.div_eq_zero_iff_lt (by omega)).1 hdone
        exact (endAround_of_lt hlt).symm
      case isFalse hcarry =>
        -- a carry makes the number smaller when it is added back in
        have hless : n % B + n / B < n := by
          have hdiv : B * (n / B) + n % B = n := Nat.div_add_mod n B
          have hquot : 0 < n / B := Nat.pos_of_ne_zero hcarry
          have hmul : 2 * (n / B) ≤ B * (n / B) := Nat.mul_le_mul_right _ hB
          omega
        rw [ih _ hless, endAround_round hB]

/-- With the complement of its digit added, a number reduces to the largest digit. -/
theorem endAround_add_complement (hB : 2 ≤ B) (n : Nat) :
    endAround B (n + (B - 1 - endAround B n)) = B - 1 := by
  rcases Nat.eq_zero_or_pos n with rfl | hpos
  · rw [endAround_zero, Nat.zero_add, Nat.sub_zero]
    exact endAround_of_lt (by omega)
  · have hmod : (n - 1) % (B - 1) < B - 1 := Nat.mod_lt _ (by omega)
    have hdiv : (B - 1) * ((n - 1) / (B - 1)) + (n - 1) % (B - 1) = n - 1 := Nat.div_add_mod _ _
    have hsum : n + (B - 1 - endAround B n) = (B - 1) + (B - 1) * ((n - 1) / (B - 1)) := by
      rw [endAround_of_pos hpos]
      omega
    rw [hsum, endAround_add_mul (by omega)]
    exact endAround_of_lt (by omega)

end Lib
end WhitexKernel
