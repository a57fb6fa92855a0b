import WhitexKernel.Heap.Model
import WhitexKernel.Lib.Bytes
import WhitexKernel.Sched.Messages

/-!
# PidText — numbers printed and read again

`scheduler_integer_to_string` counts the digits of a number and stores them from the last one on;
`ram_print_number` stores them in the other order and puts them out backwards.  Both give the decimal
of the number.  `parse_integer` multiplies modulo `2 ^ 32`, which does no harm to the decimal of a
32-bit number.

* `parseInteger_eq` — what `parse_integer` reads from any text;
* `pidText_roundTrip` — the two printers and the reader.
-/

namespace WhitexKernel
namespace Sched

open Lib.Bytes Machine

/-! ## Reading -/

/-- The digits at the start of a text. -/
def digitRun (text : List Char) : List Char := text.takeWhile isDigit

/-- The number that a text starts with, however long it is. -/
def typedNumber (text : List Char) : Nat := Nat.ofDigitChars 10 (digitRun text) 0

theorem parseIntegerLoop_eq (text : List Char) {result value : Nat} (h : result = wrap32 value) :
    parseIntegerLoop text result = wrap32 (Nat.ofDigitChars 10 (digitRun text) value) := by
  induction text generalizing result value with
  | nil => exact h
  | cons c text ih =>
      unfold parseIntegerLoop digitRun
      split
      case isTrue hdigit =>
        rw [List.takeWhile_cons_of_pos hdigit, Nat.ofDigitChars_cons]
        refine ih ?_
        unfold wrap32 at h ⊢
        omega
      case isFalse hdigit =>
        rw [List.takeWhile_cons_of_neg hdigit, Nat.ofDigitChars_nil]
        exact h

/-- `parse_integer` reads the number modulo `2 ^ 32`. -/
theorem parseInteger_eq (text : List Char) : parseInteger text = wrap32 (typedNumber text) :=
  parseIntegerLoop_eq text rfl

theorem isDigit_eq (c : Char) : isDigit c = c.isDigit := rfl

/-- A numeral is read to its end. -/
theorem parseInteger_toDigits {n : Nat} (hn : n < 2 ^ 32) :
    parseInteger (Nat.toDigits 10 n) = n := by
  have hall : digitRun (Nat.toDigits 10 n) = Nat.toDigits 10 n := by
    refine List.takeWhile_eq_self_iff.2 fun c hc => ?_
    rw [isDigit_eq]
    exact Nat.isDigit_of_mem_toDigits (by decide) (by decide) hc
  rw [parseInteger_eq, typedNumber, hall, Nat.ofDigitChars_ten_toDigits, wrap32_of_lt hn]

/-! ## `scheduler_integer_to_string` -/

/-- `'\0'` -/
def terminator : Char := Char.ofNat 0

/-- The second loop, over the digits `length - 1` to 0 of the buffer. -/
def storeDigits : Nat → Nat → (Nat → Char) → Nat → Char
  | 0, _, buffer => buffer
  | length + 1, value, buffer =>
      storeDigits length (value / 10)
        (Function.update buffer length (Char.ofNat (value % 10 + '0'.toNat)))

/-- What `buffer` holds after `scheduler_integer_to_string`. -/
def integerToStringInPlace (value : Nat) (buffer : Nat → Char) : Nat → Char :=
  if value = 0 then Function.update (Function.update buffer 0 '0') 1 terminator
  else
    let length := digitCount value value
    storeDigits length value (Function.update buffer length terminator)

/-- `n % 10 + '0'` is the last digit. -/
theorem digit_char (n : Nat) : Char.ofNat (n % 10 + '0'.toNat) = (n % 10).digitChar := by
  have hdigit : ∀ k < 10, Char.ofNat (k + '0'.toNat) = k.digitChar := by decide
  exact hdigit _ (Nat.mod_lt n (by decide))

theorem fillDigits_eq {fuel n : Nat} (hpos : 0 < n) (hfuel : n ≤ fuel) (buffer : List Char) :
    fillDigits (digitCount fuel n) n buffer = Nat.toDigits 10 n ++ buffer := by
  induction fuel generalizing n buffer with
  | zero => omega
  | succ fuel ih =>
      rw [digitCount, if_pos hpos, fillDigits, digit_char, Nat.toDigits_eq_if (by decide)]
      split
      case isTrue hlt =>
        have hnone : digitCount fuel (n / 10) = 0 := by
          rw [Nat.div_eq_of_lt hlt]
          cases fuel <;> rfl
        rw [hnone, fillDigits, Nat.mod_eq_of_lt hlt]
        rfl
      case isFalse hge =>
        rw [ih (by omega) (by omega), List.append_assoc]
        rfl

theorem schedulerIntegerToString_eq (value : Nat) :
    schedulerIntegerToString value = Nat.toDigits 10 value := by
  unfold schedulerIntegerToString
  split
  case isTrue hzero => rw [hzero]; rfl
  case isFalse hne =>
    rw [fillDigits_eq (Nat.pos_of_ne_zero hne) (Nat.le_refl value), List.append_nil]

theorem fillDigits_append (length value : Nat) (buffer : List Char) :
    fillDigits length value buffer = fillDigits length value [] ++ buffer := by
  induction length generalizing value buffer with
  | zero => rfl
  | succ length ih =>
      rw [fillDigits, fillDigits, ih, ih _ [_], List.append_assoc]
      rfl

theorem length_fillDigits (length value : Nat) : (fillDigits length value []).length = length := by
  induction length generalizing value with
  | zero => rfl
  | succ length ih =>
      rw [fillDigits, fillDigits_append, List.length_append, ih]
      rfl

/-- From the last digit to the first, the digits are stored in order. -/
theorem storeDigits_eq (length value : Nat) (buffer : Nat → Char) :
    storeDigits length value buffer = overwrite buffer 0 (fillDigits length value []) := by
  induction length generalizing value buffer with
  | zero => exact (overwrite_nil buffer 0).symm
  | succ length ih =>
      have hlast : 0 + (fillDigits length (value / 10) []).length = length := by
        rw [Nat.zero_add, length_fillDigits]
      rw [storeDigits, fillDigits, fillDigits_append, ih, ← overwrite_update, hlast]

/-- The characters of the number and a NUL are written, and nothing else. -/
theorem integerToStringInPlace_eq (value : Nat) (buffer : Nat → Char) :
    integerToStringInPlace value buffer =
      overwrite buffer 0 (schedulerIntegerToString value ++ [terminator]) := by
  unfold integerToStringInPlace schedulerIntegerToString
  split
  case isTrue hzero =>
    have hdigit : Function.update buffer 0 '0' = overwrite buffer 0 ['0'] := by
      rw [← overwrite_cons, overwrite_nil]
    rw [hdigit]
    exact overwrite_snoc buffer 0 ['0'] terminator
  case isFalse hne =>
    have hlength : 0 + (fillDigits (digitCount value value) value []).length =
        digitCount value value := by
      rw [length_fillDigits, Nat.zero_add]
    simp only
    rw [storeDigits_eq, ← overwrite_update, hlength]

/-! ## `ram_print_number` -/

open Heap (ramDigitLoop putBackwards ramPrintNumber)

/-- The digits are stored in the opposite order. -/
theorem ramDigitLoop_eq {n : Nat} (hpos : 0 < n) (buf : Nat → Char) (i : Nat) :
    ramDigitLoop n buf i =
      (overwrite buf i (Nat.toDigits 10 n).reverse, i + (Nat.toDigits 10 n).length) := by
  induction n using Nat.strongRecOn generalizing buf i with
  | ind n ih =>
      have hstore : (fun j => if j = i then Char.ofNat (n % 10 + '0'.toNat) else buf j) =
          Function.update buf i (n % 10).digitChar := by
        funext j
        rw [digit_char, Function.update_apply]
      rw [ramDigitLoop, if_pos hpos, hstore, Nat.toDigits_eq_if (by decide)]
      split
      case isTrue hlt =>
        have hnone : n / 10 = 0 := Nat.div_eq_of_lt hlt
        rw [hnone, ramDigitLoop, if_neg (Nat.lt_irrefl 0), Nat.mod_eq_of_lt hlt, List.reverse_singleton,
          ← overwrite_cons, overwrite_nil]
        rfl
      case isFalse hge =>
        rw [ih (n / 10) (by omega) (by omega), List.reverse_append, List.reverse_singleton,
          List.singleton_append, ← overwrite_cons, List.length_append, List.length_singleton]
        congr 1
        omega

theorem putBackwards_eq (buf : Nat → Char) (n : Nat) :
    putBackwards buf n = (slice buf 0 n).reverse := by
  induction n with
  | zero => rfl
  | succ n ih =>
      have hlast : slice buf (0 + n) 1 = [buf n] := by
        rw [Nat.zero_add]
        rfl
      rw [putBackwards, ih, slice_append, hlast, List.reverse_append]
      rfl

theorem ramPrintNumber_eq (n : Nat) (buf : Nat → Char) :
    ramPrintNumber n buf = Nat.toDigits 10 n := by
  unfold ramPrintNumber
  split
  case isTrue hzero => rw [hzero]; rfl
  case isFalse hne =>
    have hstored := slice_overwrite_same buf 0 (Nat.toDigits 10 n).reverse
    rw [List.length_reverse] at hstored
    rw [ramDigitLoop_eq (Nat.pos_of_ne_zero hne), Nat.zero_add]
    simp only
    rw [putBackwards_eq, hstored, List.reverse_reverse]

/-! ## Both ways -/

/-- `scheduler_integer_to_string` writes the decimal of a number within 11 bytes, `ram_print_number`
puts out the same characters, and `parse_integer` reads the number from them. -/
theorem pidText_roundTrip (v : UInt32) (buffer buf : Nat → Char) :
    ∃ text : List Char, String.ofList text = toString v.toNat ∧
      integerToStringInPlace v.toNat buffer = overwrite buffer 0 (text ++ [terminator]) ∧
      text.length + 1 ≤ 11 ∧ ramPrintNumber v.toNat buf = text ∧
      parseInteger text = v.toNat := by
  have hlt : v.toNat < 2 ^ 32 := v.toNat_lt
  have hlength : (Nat.toDigits 10 v.toNat).length ≤ 10 := by
    rw [Nat.length_toDigits_le_iff (by decide) (by decide)]
    omega
  have hprinted := integerToStringInPlace_eq v.toNat buffer
  rw [schedulerIntegerToString_eq] at hprinted
  exact ⟨Nat.toDigits 10 v.toNat, Nat.repr_eq_ofList_toDigits.symm, hprinted, by omega,
    ramPrintNumber_eq _ _, parseInteger_toDigits hlt⟩

end Sched
end WhitexKernel
