import Mathlib.Data.Finset.Card
import Mathlib.Data.Fintype.Basic
import Mathlib.Logic.Function.Basic
import WhitexKernel.Lib.Transition

/-!
# Loans — slots that are taken and given back

A pool of slots goes through a history of loans: a slot is taken, a slot is returned, or a request
is refused because no slot is free (`loanStep`).  `Nested n used events` says that `events` is a
history of loans within loans, at most `n` deep, every one of them returned.

* `Nested.exec` — such a history is possible, and leaves the slots as they were;
* `Nested.untouched` — it leaves the slots alone that are in use;
* `Nested.not_refused` — with `n` free slots at its start, it has no refusals.
-/

namespace WhitexKernel
namespace Lib

universe u

variable {ι : Type u}

inductive Loan (ι : Type u) : Type u
  | taken (i : ι)
  | returned (i : ι)
  | refused
  deriving DecidableEq

variable [DecidableEq ι]

/-- What an event does to the slots in use, if it is possible. -/
def loanStep [Fintype ι] (used : ι → Bool) : Loan ι → Option (ι → Bool)
  | .taken i => if used i then none else some (Function.update used i true)
  | .returned i => if used i then some (Function.update used i false) else none
  | .refused => if ∀ i, used i = true then some used else none

/-- Loans within loans, at most `n` deep, that are all returned. -/
inductive Nested : Nat → (ι → Bool) → List (Loan ι) → Prop
  | nil (n : Nat) (used : ι → Bool) : Nested n used []
  | refused {n : Nat} {used : ι → Bool} {rest : List (Loan ι)} (hfull : ∀ i, used i = true)
      (hrest : Nested (n + 1) used rest) : Nested (n + 1) used (.refused :: rest)
  | loan {n : Nat} {used : ι → Bool} {i : ι} {inner rest : List (Loan ι)} (hfree : used i = false)
      (hinner : Nested n (Function.update used i true) inner)
      (hrest : Nested (n + 1) used rest) :
      Nested (n + 1) used (.taken i :: (inner ++ .returned i :: rest))

/-- The slots that can be taken. -/
def freeSlots [Fintype ι] (used : ι → Bool) : Finset ι := Finset.univ.filter fun i => used i = false

namespace Nested

variable {n m : Nat} {used : ι → Bool} {xs ys : List (Loan ι)}

theorem mono (h : Nested n used xs) (hle : n ≤ m) : Nested m used xs := by
  induction h generalizing m with
  | nil n used => exact .nil m used
  | refused hfull _ ih =>
      cases m with
      | zero => exact absurd hle (Nat.not_succ_le_zero _)
      | succ m => exact .refused hfull (ih hle)
  | loan hfree _ _ ihinner ihrest =>
      cases m with
      | zero => exact absurd hle (Nat.not_succ_le_zero _)
      | succ m => exact .loan hfree (ihinner (Nat.le_of_succ_le_succ hle)) (ihrest hle)

theorem append (hx : Nested n used xs) (hy : Nested n used ys) : Nested n used (xs ++ ys) := by
  induction hx with
  | nil n used => exact hy
  | refused hfull _ ih => exact .refused hfull (ih hy)
  | @loan n used i inner rest hfree hinner _ _ ih =>
      have hmore := Nested.loan hfree hinner (ih hy)
      simpa using hmore

/-- A single loan around others. -/
theorem single {i : ι} (hfree : used i = false) (h : Nested n (Function.update used i true) xs) :
    Nested (n + 1) used (.taken i :: (xs ++ [.returned i])) :=
  .loan hfree h (.nil _ _)

section History

variable [Fintype ι]

theorem exec (h : Nested n used xs) : Lib.exec loanStep used xs = some used := by
  induction h with
  | nil n used => rfl
  | refused hfull _ ih => simpa [loanStep, hfull] using ih
  | @loan n used i inner rest hfree _ _ ihinner ihrest =>
      -- the slot is in use from here to where it is returned
      have hback : Function.update (Function.update used i true) i false = used := by
        rw [Function.update_idem, ← hfree, Function.update_eq_self]
      simp [loanStep, hfree, exec_append, ihinner, hback, ihrest]

end History

/-- Nobody else's slot is touched. -/
theorem untouched {i : ι} (h : Nested n used xs) (hused : used i = true) :
    Loan.taken i ∉ xs ∧ Loan.returned i ∉ xs := by
  induction h with
  | nil n used => simp
  | refused _ _ ih => simpa using ih hused
  | @loan n used j inner rest hfree _ _ ihinner ihrest =>
      have hne : i ≠ j := by
        rintro rfl
        rw [hused] at hfree
        cases hfree
      have hinner := ihinner (by rw [Function.update_of_ne hne, hused])
      have hrest := ihrest hused
      simp [hne, hinner, hrest]

section Room

variable [Fintype ι]

theorem not_refused (h : Nested n used xs) (hroom : n ≤ (freeSlots used).card) :
    Loan.refused ∉ xs := by
  induction h with
  | nil n used => simp
  | @refused n used rest hfull _ _ =>
      have hnone : (freeSlots used).card = 0 := by simp [freeSlots, hfull]
      omega
  | @loan n used i inner rest hfree _ _ ihinner ihrest =>
      have hmem : i ∈ freeSlots used := by simpa [freeSlots] using hfree
      have herase : freeSlots (Function.update used i true) = (freeSlots used).erase i := by
        ext j
        by_cases hj : j = i
        · simp [freeSlots, hj]
        · simp [freeSlots, hj]
      have hleft : n ≤ (freeSlots (Function.update used i true)).card := by
        rw [herase, Finset.card_erase_of_mem hmem]
        omega
      simp [ihinner hleft, ihrest hroom]

end Room

end Nested

end Lib
end WhitexKernel
