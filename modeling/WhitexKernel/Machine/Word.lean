import Mathlib.Algebra.Group.Nat.Defs

/-!
# Word — the fixed-width integers of the i386 target

`uint32_t`, `size_t` and pointers are natural numbers kept below `2 ^ 32` by `wrap32`, `uint16_t`
by `wrap16`.  Subtraction wraps as well, so it gets a definition of its own.
-/

namespace WhitexKernel
namespace Machine

/-- Reduction of an unsigned 32-bit result. -/
def wrap32 (n : Nat) : Nat := n % 2 ^ 32

/-- Reduction of an unsigned 16-bit result. -/
def wrap16 (n : Nat) : Nat := n % 2 ^ 16

/-- `a - b` on unsigned 32-bit operands. -/
def sub32 (a b : Nat) : Nat := (a + (2 ^ 32 - b % 2 ^ 32)) % 2 ^ 32

/-- `a - b` on `uint16_t` operands, assigned to a `uint16_t`. -/
def sub16 (a b : Nat) : Nat := (a + (2 ^ 16 - b % 2 ^ 16)) % 2 ^ 16

/-- The value of a 32-bit word read as a signed `int32_t`. -/
def toInt32 (i : Int) : Int := Int.bmod i (2 ^ 32)

theorem wrap32_lt (n : Nat) : wrap32 n < 2 ^ 32 := Nat.mod_lt _ (by decide)

@[simp] theorem wrap32_of_lt {n : Nat} (h : n < 2 ^ 32) : wrap32 n = n := Nat.mod_eq_of_lt h

@[simp] theorem wrap16_of_lt {n : Nat} (h : n < 2 ^ 16) : wrap16 n = n := Nat.mod_eq_of_lt h

/-- Without a borrow, the wrapping subtraction is the ordinary one. -/
theorem sub32_of_le {a b : Nat} (hb : b ≤ a) (ha : a < 2 ^ 32) : sub32 a b = a - b := by
  unfold sub32
  omega

theorem sub16_of_le {a b : Nat} (hb : b ≤ a) (ha : a < 2 ^ 16) : sub16 a b = a - b := by
  unfold sub16
  omega

end Machine
end WhitexKernel
