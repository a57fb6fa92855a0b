import WhitexKernel.Calc.Reading
import WhitexKernel.Lib.Bytes
import WhitexKernel.Shell.Keyboard

/-!
# PrintInt — what `sys_print_int` prints

The digits are stored in front of index 10 of a buffer whose NUL is at index 11, so the character in
between is printed as well, whatever it was before.  A negative number has no digits at all.

* `sysPrintInt_eq` — what is printed of another number than zero;
* `sysPrintInt_iff` — when that is the decimal of the number.
-/

namespace WhitexKernel
namespace Shell

open Calc (itoaLoop itoaLoop_length reverse_itoaLoop)
open Lib.Bytes

/-! ## The loop -/

/-- `while (n > 0 && i > 0) { buffer[--i] = (n % 10) + '0'; n /= 10; }` -/
def printIntLoop (n : BitVec 32) (buffer : Nat → Char) : Nat → (Nat → Char) × Nat
  | 0 => (buffer, 0)
  | i + 1 =>
      if BitVec.slt 0 n then
        printIntLoop (n.sdiv 10)
          (Function.update buffer i (Char.ofNat ((n.srem 10 + 48).toNat % 256))) i
      else (buffer, i + 1)

/-- What `print` shows of a buffer of 12 characters, from index `i` to the first NUL. -/
def printFrom (buffer : Nat → Char) (i : Nat) : List Char :=
  (slice buffer i (12 - i)).takeWhile (· ≠ nul)

/-- `sys_print_int`, with the characters that its buffer has before. -/
def sysPrintInt (n : BitVec 32) (buffer : Nat → Char) : List Char :=
  if n = 0 then ['0']
  else
    let (buffer, i) := printIntLoop n (Function.update buffer 11 nul) 10
    printFrom buffer i

theorem zero_slt_iff (n : BitVec 32) : BitVec.slt 0 n = true ↔ 0 < n.toInt := by
  have hzero : (0 : BitVec 32).toInt = 0 := by decide
  rw [BitVec.slt, decide_eq_true_eq, hzero]

theorem toNat_lt_of_pos {n : BitVec 32} (h : 0 < n.toInt) : n.toNat < 2 ^ 31 := by
  rw [BitVec.toInt_eq_toNat_cond] at h
  split at h
  · omega
  · omega

theorem pos_of_ne_zero {n : BitVec 32} (h : n.toNat < 2 ^ 31) (hn : n ≠ 0) : 0 < n.toInt := by
  have hpos : n.toNat ≠ 0 := fun hzero => hn (BitVec.eq_of_toNat_eq hzero)
  rw [BitVec.toInt_eq_toNat_cond, if_pos (by omega)]
  omega

/-- The loop stores the digits in front of index `i`. -/
theorem printIntLoop_eq {n : BitVec 32} (h : n.toNat < 2 ^ 31) (buffer : Nat → Char) (i : Nat) :
    printIntLoop n buffer i =
      (overwrite buffer (i - (itoaLoop i n).length) (itoaLoop i n).reverse,
        i - (itoaLoop i n).length) := by
  induction i generalizing n buffer with
  | zero => simp [printIntLoop, itoaLoop]
  | succ i ih =>
      have hlength := itoaLoop_length i (n.sdiv 10)
      rw [printIntLoop, itoaLoop]
      by_cases hn : n = 0
      · rw [if_neg (by simp [hn]), if_pos hn]
        simp
      · have hnext : (n.sdiv 10).toNat < 2 ^ 31 := by
          rw [Calc.toNat_sdiv_ten h]
          omega
        have hlast : i = i - (itoaLoop i (n.sdiv 10)).length +
            (itoaLoop i (n.sdiv 10)).reverse.length := by
          rw [List.length_reverse]
          omega
        rw [if_pos ((zero_slt_iff n).2 (pos_of_ne_zero h hn)), if_neg hn, ih hnext, List.length_cons,
          Nat.add_sub_add_right, List.reverse_cons, ← overwrite_update, ← hlast]

/-! ## What is printed -/

/-- The character at index 10 is between the digits and the NUL. -/
theorem printFrom_overwrite (buffer : Nat → Char) {digits : List Char} (hlength : digits.length ≤ 10)
    (hdigits : ∀ c ∈ digits, c ≠ nul) :
    printFrom (overwrite (Function.update buffer 11 nul) (10 - digits.length) digits)
        (10 - digits.length) =
      digits ++ if buffer 10 = nul then [] else [buffer 10] := by
  have hcount : 12 - (10 - digits.length) = digits.length + 2 := by omega
  have hbehind : 10 - digits.length + digits.length = 10 := Nat.sub_add_cancel hlength
  have hlast : slice (Function.update buffer 11 nul) 10 2 = [buffer 10, nul] := by
    simp [slice, List.range_succ]
  unfold printFrom
  rw [hcount, slice_overwrite_front, hbehind, hlast,
    List.takeWhile_append_of_pos fun c hc => decide_eq_true (hdigits c hc)]
  congr 1
  split
  case isTrue hnul => simp [hnul]
  case isFalse hnul => simp [hnul]

/-- A positive number is followed by what its buffer has at index 10, and that is all that is
printed of a negative one. -/
theorem sysPrintInt_eq {n : BitVec 32} (hn : n ≠ 0) (buffer : Nat → Char) :
    sysPrintInt n buffer =
      (if 0 < n.toInt then Nat.toDigits 10 n.toNat else []) ++
        if buffer 10 = nul then [] else [buffer 10] := by
  unfold sysPrintInt
  rw [if_neg hn]
  by_cases hpos : 0 < n.toInt
  · have hlt := toNat_lt_of_pos hpos
    have hdigits : (itoaLoop 10 n).reverse = Nat.toDigits 10 n.toNat :=
      reverse_itoaLoop hlt hn (by omega)
    have hlength : (Nat.toDigits 10 n.toNat).length = (itoaLoop 10 n).length := by
      rw [← hdigits, List.length_reverse]
    have hle := itoaLoop_length 10 n
    rw [if_pos hpos, printIntLoop_eq hlt, hdigits, ← hlength]
    refine printFrom_overwrite buffer (by omega) fun c hc hnul => ?_
    have hdigit := Nat.isDigit_of_mem_toDigits (by decide) (by decide) hc
    rw [hnul] at hdigit
    exact absurd hdigit (by decide)
  · have hstop : printIntLoop n (Function.update buffer 11 nul) 10 =
        (Function.update buffer 11 nul, 10) := by
      rw [printIntLoop, if_neg fun h => hpos ((zero_slt_iff n).1 h)]
    have hnone := @printFrom_overwrite buffer [] (Nat.zero_le 10) (List.forall_mem_nil _)
    rw [overwrite_nil] at hnone
    rw [if_neg hpos, hstop]
    exact hnone

/-- A number other than zero is printed as it is only if it is positive and its buffer happens to
have a NUL at index 10. -/
theorem sysPrintInt_iff (n : BitVec 32) (buffer : Nat → Char) :
    String.ofList (sysPrintInt n buffer) = toString n.toInt ↔
      n = 0 ∨ 0 < n.toInt ∧ buffer 10 = nul := by
  by_cases hn : n = 0
  · subst hn
    exact iff_of_true rfl (Or.inl rfl)
  rw [sysPrintInt_eq hn, Int.toString_eq_repr, Int.repr_eq_if, or_iff_right hn]
  by_cases hpos : 0 < n.toInt
  · have hvalue : n.toInt.toNat = n.toNat := by
      rw [BitVec.toInt_eq_toNat_cond, if_pos (by have := toNat_lt_of_pos hpos; omega)]
      exact Int.toNat_natCast _
    rw [if_pos hpos, if_pos (Int.le_of_lt hpos), hvalue, Nat.repr_eq_ofList_toDigits,
      String.ofList_inj, List.append_right_eq_self]
    split
    case isTrue hnul => exact iff_of_true rfl ⟨hpos, hnul⟩
    case isFalse hnul => exact iff_of_false (by simp) fun h => hnul h.2
  · -- a sign and a digit are missing, and one character is there at most
    refine iff_of_false (fun h => ?_) fun h => hpos h.1
    have hne : n.toInt ≠ 0 := fun hzero => hn (BitVec.eq_of_toInt_eq hzero)
    have hneg : ¬ 0 ≤ n.toInt := by omega
    rw [if_neg hpos, if_neg hneg, List.nil_append, Nat.repr_eq_ofList_toDigits] at h
    have hlength := congrArg String.length h
    have hdigits := List.length_pos_iff.2 (Nat.toDigits_ne_nil (b := 10) (n := (-n.toInt).toNat))
    have hsign : "-".length = 1 := by decide
    simp only [String.length_append, String.length_ofList, hsign] at hlength
    split at hlength
    · rw [List.length_nil] at hlength
      omega
    · rw [List.length_singleton] at hlength
      omega

/-- What is printed depends on the earlier characters unless the number is zero. -/
theorem sysPrintInt_stale_iff (n : BitVec 32) :
    (∀ buffer buffer', sysPrintInt n buffer = sysPrintInt n buffer') ↔ n = 0 := by
  constructor
  · intro h
    by_contra hn
    have hsame := h (fun _ => nul) fun _ => 'x'
    rw [sysPrintInt_eq hn, sysPrintInt_eq hn] at hsame
    exact absurd (List.append_cancel_left hsame) (by decide)
  · rintro rfl buffer buffer'
    rfl

/-- Behind a 7, an `x` that was in the buffer is printed. -/
theorem sysPrintInt_false :
    ¬ ∀ (n : BitVec 32) (buffer : Nat → Char),
      String.ofList (sysPrintInt n buffer) = toString n.toInt := by
  intro h
  exact absurd (h 7 fun _ => 'x') (by decide)

end Shell
end WhitexKernel
