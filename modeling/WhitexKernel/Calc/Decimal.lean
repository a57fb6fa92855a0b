import Mathlib.Algebra.Group.Nat.Defs
import WhitexKernel.Calc.Model

/-!
# Decimal — what `itoa2` writes

`itoa2` negates a negative number before it takes its digits, which works for every `int` that has a
negation.
-/

namespace WhitexKernel
namespace Calc

/-- A word that is not negative as an `int`. -/
theorem msb_eq_false_of_lt {num : Word} (h : num.toNat < 2 ^ 31) : num.msb = false := by
  rw [BitVec.msb_eq_false_iff_two_mul_lt]
  omega

theorem toNat_sdiv_ten {num : Word} (h : num.toNat < 2 ^ 31) :
    (num.sdiv 10).toNat = num.toNat / 10 := by
  rw [BitVec.sdiv_eq, msb_eq_false_of_lt h, show (10 : Word).msb = false by decide]
  exact BitVec.toNat_udiv

theorem toNat_srem_ten {num : Word} (h : num.toNat < 2 ^ 31) :
    (num.srem 10).toNat = num.toNat % 10 := by
  rw [BitVec.srem_eq, msb_eq_false_of_lt h, show (10 : Word).msb = false by decide]
  exact BitVec.toNat_umod

/-- `(num % 10) + '0'` is the last digit. -/
theorem itoa_char {num : Word} (h : num.toNat < 2 ^ 31) :
    Char.ofNat ((num.srem 10 + 48).toNat % 256) = (num.toNat % 10).digitChar := by
  have hdigit : ∀ k, k < 10 → Char.ofNat (48 + k) = k.digitChar := by decide
  rw [← hdigit (num.toNat % 10) (Nat.mod_lt _ (by decide)), BitVec.toNat_add, toNat_srem_ten h]
  congr 1
  have hlt := Nat.mod_lt num.toNat (y := 10) (by decide)
  have h48 : (48 : Word).toNat = 48 := by decide
  rw [h48]
  omega

/-- The digits of a number that is not negative, least significant first. -/
theorem reverse_itoaLoop {fuel : Nat} {num : Word} (h : num.toNat < 2 ^ 31) (hpos : num ≠ 0)
    (hfuel : num.toNat < 10 ^ fuel) : (itoaLoop fuel num).reverse = Nat.toDigits 10 num.toNat := by
  induction fuel generalizing num with
  | zero =>
      have hzero : num.toNat = 0 := by simpa using hfuel
      exact absurd (BitVec.eq_of_toNat_eq (by simpa using hzero)) hpos
  | succ fuel ih =>
      have hdiv := toNat_sdiv_ten h
      simp only [itoaLoop, hpos, if_false, List.reverse_cons, itoa_char h]
      rw [Nat.toDigits_eq_if (by decide)]
      split
      -- the last digit
      case isTrue hlt =>
        have hlast : num.sdiv 10 = 0 := BitVec.eq_of_toNat_eq (by
          rw [hdiv, Nat.div_eq_of_lt hlt]
          rfl)
        have hempty : itoaLoop fuel (num.sdiv 10) = [] := by
          rw [hlast]
          cases fuel <;> simp [itoaLoop]
        rw [hempty, Nat.mod_eq_of_lt hlt]
        rfl
      case isFalse hge =>
        have hne : num.sdiv 10 ≠ 0 := by
          intro hzero
          have hnat := congrArg BitVec.toNat hzero
          rw [hdiv] at hnat
          have hzero' : (0 : Word).toNat = 0 := by decide
          rw [hzero'] at hnat
          omega
        -- the digits in front of the last one
        have hrec := @ih (num.sdiv 10) (by omega) hne (by
          rw [hdiv, Nat.div_lt_iff_lt_mul (by decide)]
          simpa [Nat.pow_succ] using hfuel)
        rw [hrec, hdiv]

theorem itoa2_of_nonneg {num : Word} (h : num.toNat < 2 ^ 31) (hpos : num ≠ 0) :
    String.ofList (itoa2 num) = num.toNat.repr := by
  have hslt : num.slt 0 = false := by
    simp only [BitVec.slt, BitVec.toInt_eq_toNat_cond, decide_eq_false_iff_not]
    rw [if_pos (by omega)]
    simp
  rw [Nat.repr_eq_ofList_toDigits, ← @reverse_itoaLoop 10 num h hpos (by omega)]
  simp only [itoa2, hpos, hslt, if_false, Bool.false_eq_true, List.append_nil]

theorem itoa2_of_neg {num : Word} (h : 2 ^ 31 < num.toNat) :
    String.ofList (itoa2 num) = "-" ++ (2 ^ 32 - num.toNat).repr := by
  have hlt : num.toNat < 2 ^ 32 := num.isLt
  have hslt : num.slt 0 = true := by
    simp only [BitVec.slt, BitVec.toInt_eq_toNat_cond, decide_eq_true_eq]
    rw [if_neg (by omega)]
    simp
    omega
  have hnegate : (-num).toNat = 2 ^ 32 - num.toNat := by
    rw [BitVec.toNat_neg, Nat.mod_eq_of_lt (by omega)]
  have hzero : ∀ w : Word, w.toNat ≠ 0 → w ≠ 0 := by
    rintro w hw rfl
    exact hw rfl
  rw [Nat.repr_eq_ofList_toDigits, ← hnegate,
    ← @reverse_itoaLoop 10 (-num) (by omega) (hzero _ (by omega)) (by omega)]
  simp only [itoa2, hzero num (by omega), hslt, if_false, if_true, List.reverse_append,
    String.ofList_append]
  rfl

/-- `itoa2` writes the decimal of every `int` but `INT_MIN`. -/
theorem itoa2_eq_toString {num : Word} (h : num ≠ intMin) :
    String.ofList (itoa2 num) = toString num.toInt := by
  have hlt : num.toNat < 2 ^ 32 := num.isLt
  have hmin : num.toNat ≠ 2 ^ 31 := fun heq => h (BitVec.eq_of_toNat_eq heq)
  rw [Int.toString_eq_repr, Int.repr_eq_if, BitVec.toInt_eq_toNat_cond]
  by_cases hzero : num = 0
  · subst hzero
    decide
  · by_cases hneg : num.toNat < 2 ^ 31
    · rw [if_pos (by omega : 2 * num.toNat < 2 ^ 32), if_pos (by omega), itoa2_of_nonneg hneg hzero]
      rfl
    · rw [if_neg (by omega : ¬ 2 * num.toNat < 2 ^ 32), if_neg (by omega), itoa2_of_neg (by omega)]
      congr 2
      omega

end Calc
end WhitexKernel
