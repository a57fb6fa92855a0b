import Mathlib.Tactic.TFAE
import WhitexKernel.Nano.Model
import WhitexKernel.Sched.Messages
import WhitexKernel.Shell.Strings
import WhitexKernel.Vfs.Names

/-!
# Comparisons — the four string comparisons of the kernel

The loops of `strcmp` and `str_compare` (`notepad.h`) run to the first difference and subtract there,
`nano_sys_strcmp` stops at the end of either string and compares once more, and
`sys_constant_time_compare` measures both strings before it collects their differences.  They agree on
strings without a NUL inside (`comparisons_tfae`).
-/

namespace WhitexKernel
namespace Shell

open Nano (nanoSysStrcmp)
open Sched (CString longLine)
open Vfs (IsText strcmp strcmp_eq_zero)

/-- `str_compare` -/
def strCompare : List Char → List Char → Int
  | [], [] => 0
  | [], d :: _ => -(d.toNat : Int)
  | c :: _, [] => c.toNat
  | c :: s1, d :: s2 => if c = d then strCompare s1 s2 else (c.toNat : Int) - d.toNat

/-- The notepad has a `strcmp` of its own. -/
theorem strCompare_eq (s1 s2 : List Char) : strCompare s1 s2 = strcmp s1 s2 := by
  induction s1 generalizing s2 with
  | nil =>
      cases s2 with
      | nil => rfl
      | cons d s2 => rfl
  | cons c s1 ih =>
      cases s2 with
      | nil => rfl
      | cons d s2 => rw [strCompare, strcmp, ih]

theorem nanoSysStrcmp_iff {a b : List Char} (ha : IsText a) (hb : IsText b) :
    nanoSysStrcmp a b = true ↔ a = b := by
  -- the NUL behind the shorter string is no character of the longer one
  have hhead : ∀ {c : Char} {rest : List Char}, IsText (c :: rest) → c ≠ nul := by
    rintro c rest htext rfl
    exact htext List.mem_cons_self
  induction a generalizing b with
  | nil =>
      cases b with
      | nil => simp [nanoSysStrcmp]
      | cons d b => simp [nanoSysStrcmp, (hhead hb).symm]
  | cons c a ih =>
      cases b with
      | nil => simp [nanoSysStrcmp, hhead ha]
      | cons d b =>
          have hrest : nanoSysStrcmp a b = true ↔ a = b :=
            ih (fun h => ha (List.mem_cons_of_mem c h)) fun h => hb (List.mem_cons_of_mem d h)
          by_cases hcd : c = d
          · simp [nanoSysStrcmp, hcd, hrest]
          · simp [nanoSysStrcmp, hcd]

theorem isText_chars (str : CString) : IsText str.chars := fun hnul =>
  absurd (str.byte _ hnul).1 (by decide)

/-- On strings, the second of which is shorter than `max_len`, the four comparisons say the same:
whether the strings are equal. -/
theorem comparisons_tfae (a b : CString) {maxLen : Nat} (hb : b.chars.length < maxLen) :
    [strcmp a.chars b.chars = 0, strCompare a.chars b.chars = 0,
      nanoSysStrcmp a.chars b.chars = true,
      sysConstantTimeCompare a.chars b.chars maxLen = true, a.chars = b.chars].TFAE := by
  have hstrcmp := strcmp_eq_zero (isText_chars a) (isText_chars b)
  have hnano := nanoSysStrcmp_iff (isText_chars a) (isText_chars b)
  have hconstant := @sysConstantTimeCompare_eq_true a.chars b.chars maxLen hb
  rw [strCompare_eq]
  tfae_have 1 ↔ 5 := hstrcmp
  tfae_have 2 ↔ 5 := hstrcmp
  tfae_have 3 ↔ 5 := hnano
  tfae_have 4 ↔ 5 := hconstant
  tfae_finish

/-- A string and a longer one that begins with it. -/
theorem comparisons_tfae_extended :
    [strcmp (longLine 1).chars (longLine 2).chars = 0,
      strCompare (longLine 1).chars (longLine 2).chars = 0,
      nanoSysStrcmp (longLine 1).chars (longLine 2).chars = true,
      sysConstantTimeCompare (longLine 1).chars (longLine 2).chars sysMaxBuffer = true,
      (longLine 1).chars = (longLine 2).chars].TFAE :=
  comparisons_tfae (longLine 1) (longLine 2) (by decide)

end Shell
end WhitexKernel
