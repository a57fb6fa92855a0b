import Mathlib.Data.List.TakeWhile
import Mathlib.Data.Nat.Bitwise
import WhitexKernel.Shell.Model

/-!
# Strings — what the string loops of the shell compute

`sys_constant_time_compare` compares the first `max_len` characters, `sys_sanitize_string` keeps
what is in front of the first cut character, and a copy loop stops at the end of its room.
-/

namespace WhitexKernel
namespace Shell

/-! ## Comparison -/

/-- The collected differences are zero when every one of them is. -/
theorem foldl_differences_eq_zero (pairs : List (Char × Char)) (acc : Nat) :
    pairs.foldl (fun result pair => result ||| (pair.1.toNat ^^^ pair.2.toNat)) acc = 0 ↔
      acc = 0 ∧ ∀ pair ∈ pairs, pair.1 = pair.2 := by
  induction pairs generalizing acc with
  | nil => simp
  | cons pair pairs ih =>
      have hpair : acc ||| (pair.1.toNat ^^^ pair.2.toNat) = 0 ↔ acc = 0 ∧ pair.1 = pair.2 := by
        rw [Nat.or_eq_zero_iff, Nat.xor_eq_zero_iff]
        exact and_congr_right fun _ => Char.toNat_inj
      simp [ih, hpair, and_assoc]

theorem zip_all_eq_iff {xs ys : List Char} (h : xs.length = ys.length) :
    (∀ pair ∈ xs.zip ys, pair.1 = pair.2) ↔ xs = ys := by
  induction xs generalizing ys with
  | nil =>
      cases ys with
      | nil => simp
      | cons y ys => simp at h
  | cons x xs ih =>
      cases ys with
      | nil => simp at h
      | cons y ys => simpa using and_congr_right fun _ => by simpa using ih (by simpa using h)

theorem sysConstantTimeCompare_iff (input expected : List Char) (maxLen : Nat) :
    sysConstantTimeCompare input expected maxLen = true ↔
      input.take maxLen = expected.take maxLen := by
  -- the length found for a string is that of its part within `max_len`
  have htake : ∀ str : List Char, str.take (min str.length maxLen) = str.take maxLen := by
    intro str
    rcases Nat.le_total str.length maxLen with hle | hle
    · simp [Nat.min_eq_left hle, List.take_of_length_le hle]
    · rw [Nat.min_eq_right hle]
  unfold sysConstantTimeCompare
  dsimp only
  split
  case isTrue hne =>
    constructor
    · intro h
      cases h
    · intro h
      have hlength := congrArg List.length h
      rw [List.length_take, List.length_take, Nat.min_comm, Nat.min_comm maxLen] at hlength
      exact absurd hlength hne
  case isFalse heq =>
    have hlength : min input.length maxLen = min expected.length maxLen := by simpa using heq
    have hexpected : expected.take (min input.length maxLen) = expected.take maxLen := by
      rw [hlength, htake]
    rw [decide_eq_true_iff, foldl_differences_eq_zero, htake, hexpected]
    rw [zip_all_eq_iff (by rw [List.length_take, List.length_take]; omega)]
    exact and_iff_right rfl

/-- Against a string within `max_len`, nothing else compares equal. -/
theorem sysConstantTimeCompare_eq_true {input expected : List Char} {maxLen : Nat}
    (h : expected.length < maxLen) :
    sysConstantTimeCompare input expected maxLen = true ↔ input = expected := by
  rw [sysConstantTimeCompare_iff, List.take_of_length_le (Nat.le_of_lt h)]
  constructor
  · intro htake
    have hlength := congrArg List.length htake
    rw [List.length_take] at hlength
    rw [← htake, List.take_of_length_le (by omega)]
  · rintro rfl
    exact List.take_of_length_le (Nat.le_of_lt h)

/-! ## Sanitised strings -/

/-- Characters that `sys_sanitize_string` lets pass. -/
def Clean (str : List Char) : Prop := ∀ c ∈ str, c ∉ cutCharacters

instance (str : List Char) : Decidable (Clean str) :=
  List.decidableBAll (· ∉ cutCharacters) str

/-- A string within `max_len` is cut in front of its first cut character. -/
theorem sysSanitizeString_eq {str : List Char} {maxLen : Nat} (h : str.length ≤ maxLen) :
    sysSanitizeString str maxLen = str.takeWhile (· ∉ cutCharacters) := by
  induction str generalizing maxLen with
  | nil => cases maxLen <;> rfl
  | cons c str ih =>
      cases maxLen with
      | zero => simp at h
      | succ maxLen =>
          have hrest : sysSanitizeString str maxLen = str.takeWhile (· ∉ cutCharacters) :=
            ih (by simpa using h)
          by_cases hc : c ∈ cutCharacters
          · simp [sysSanitizeString, hc]
          · simp [sysSanitizeString, hc, hrest]

theorem takeWhile_clean {str : List Char} :
    str.takeWhile (· ∉ cutCharacters) = str ↔ Clean str := by
  simp [List.takeWhile_eq_self_iff, Clean]

/-- A string is left as it is exactly when it is clean. -/
theorem sysSanitizeString_eq_self_iff {str : List Char} {maxLen : Nat} (h : str.length ≤ maxLen) :
    sysSanitizeString str maxLen = str ↔ Clean str := by
  rw [sysSanitizeString_eq h]
  exact takeWhile_clean

/-! ## Copy loops -/

/-- A loop that only its room ends. -/
theorem copyWhile_true (room : Nat) (raw : List Char) :
    copyWhile (fun _ => true) room raw = (raw.take room, raw.drop room) := by
  induction room generalizing raw with
  | zero => simp [copyWhile]
  | succ room ih =>
      cases raw with
      | nil => simp [copyWhile]
      | cons c raw => simp [copyWhile, ih]

/-- A word that fits is copied whole, if nothing behind it continues it. -/
theorem copyWhile_word {p : Char → Bool} {room : Nat} {word rest : List Char}
    (hword : ∀ c ∈ word, p c = true) (hroom : word.length ≤ room)
    (hrest : ∀ c ∈ rest.head?, p c = false) : copyWhile p room (word ++ rest) = (word, rest) := by
  induction word generalizing room with
  | nil =>
      cases room with
      | zero => rfl
      | succ room =>
          cases rest with
          | nil => rfl
          | cons c rest =>
              have hc : p c = false := hrest c rfl
              simp [copyWhile, hc]
  | cons c word ih =>
      cases room with
      | zero => simp at hroom
      | succ room =>
          have hc : p c = true := hword c (by simp)
          have hcopied : copyWhile p room (word ++ rest) = (word, rest) :=
            ih (fun d hd => hword d (List.mem_cons_of_mem c hd)) (by simpa using hroom)
          simp [copyWhile, hc, hcopied]

end Shell
end WhitexKernel
