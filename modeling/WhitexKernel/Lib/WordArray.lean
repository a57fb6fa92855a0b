import WhitexKernel.Lib.FlatMemory

/-!
# WordArray — arrays of words in flat memory

* `cell_storeWord_same`, `cell_storeWord_of_ne` — one word of an array is stored;
* `cell_write_of_apart` — the array is not written to;
* `eq_or_apart` — arrays that are aligned to their size.
-/

namespace WhitexKernel
namespace Lib
namespace FlatMemory

/-- Word `i` of the array at `a`. -/
def cell (m : Memory) (a : Address) (i : Nat) : BitVec 32 := word m (offset a (4 * i))

/-- The `n` bytes from `a` are set to zero. -/
def zeroed (m : Memory) (a : Address) (n : Nat) : Memory := write m a n fun _ => 0

/-- The `n` bytes from `src` are copied to `dest`, where they were not before. -/
def copied (m : Memory) (dest src : Address) (n : Nat) : Memory :=
  write m dest n fun i => m (offset src i)

section Cells

variable {m : Memory} {a b : Address} {n i j : Nat}

theorem cell_storeWord_same (m : Memory) (a : Address) (i : Nat) (w : BitVec 32) :
    cell (storeWord m (offset a (4 * i)) w) a i = w :=
  word_store_same m _ w

/-- Different words of an array have no byte in common. -/
theorem apart_cells (hn : 4 * n ≤ 2 ^ 32) (hi : i < n) (hj : j < n) (h : i ≠ j) :
    Apart (offset a (4 * i)) 4 (offset a (4 * j)) 4 := by
  intro x hx hx'
  have hlt := (x - a).isLt
  unfold Within at hx hx'
  rw [toNat_sub_offset a x (by omega)] at hx hx'
  split at hx
  · split at hx'
    · omega
    · omega
  · omega

theorem cell_storeWord_of_ne (hn : 4 * n ≤ 2 ^ 32) (hi : i < n) (hj : j < n) (h : i ≠ j)
    (w : BitVec 32) : cell (storeWord m (offset a (4 * j)) w) a i = cell m a i :=
  word_write_of_apart _ (apart_cells hn hi hj h)

theorem cell_write_of_apart {k : Nat} (hn : 4 * n ≤ 2 ^ 32) (h : Apart a (4 * n) b k) (hi : i < n)
    (f : Nat → BitVec 8) : cell (write m b k f) a i = cell m a i :=
  word_write_of_apart f (h.offset_left (by omega) (by omega))

/-- A word of another array is stored. -/
theorem cell_storeWord_of_apart {k : Nat} (hn : 4 * n ≤ 2 ^ 32) (hk : 4 * k ≤ 2 ^ 32)
    (h : Apart a (4 * n) b (4 * k)) (hi : i < n) (hj : j < k) (w : BitVec 32) :
    cell (storeWord m (offset b (4 * j)) w) a i = cell m a i :=
  word_write_of_apart _
    ((h.offset_left (by omega) (by omega)).symm.offset_left (by omega) (by omega)).symm

/-- An array is the same where its bytes are. -/
theorem cell_congr {m' : Memory} (hn : 4 * n ≤ 2 ^ 32) (h : ∀ x, Within a (4 * n) x → m' x = m x)
    (hi : i < n) : cell m' a i = cell m a i := by
  refine word_congr fun j hj => h _ ?_
  rw [offset_offset]
  exact (within_offset (by omega)).2 (by omega)

theorem cell_zeroed (hn : 4 * n ≤ 2 ^ 32) (hi : i < n) : cell (zeroed m a (4 * n)) a i = 0#32 := by
  have hbyte : ∀ j < 4, zeroed m a (4 * n) (offset (offset a (4 * i)) j) = 0#8 := by
    intro j hj
    rw [offset_offset]
    exact write_offset (by omega) hn
  refine eq_of_byte_eq fun j hj => ?_
  unfold cell
  rw [byte_word _ _ hj, hbyte j hj]
  simp [byte]

end Cells

/-- Blocks of one size that are aligned to it are the same or apart. -/
theorem eq_or_apart {a b : Address} {n : Nat} (hn : n ∣ 2 ^ 32) (ha : n ∣ a.toNat) (hb : n ∣ b.toNat) :
    a = b ∨ Apart a n b n := by
  by_cases heq : a = b
  · exact .inl heq
  · right
    have hne : a.toNat ≠ b.toNat := fun h => heq (BitVec.eq_of_toNat_eq h)
    have hbehind : ∀ {x y : Nat}, n ∣ x → n ∣ y → x < y → x + n ≤ y := by
      intro x y hx hy hlt
      have hle := Nat.le_of_dvd (by omega) (Nat.dvd_sub hy hx)
      omega
    refine apart_of_le (hbehind ha hn a.isLt) (hbehind hb hn b.isLt) ?_
    rcases Nat.lt_or_gt_of_ne hne with hlt | hgt
    · exact .inl (hbehind ha hb hlt)
    · exact .inr (hbehind hb ha hgt)

/-- The bytes of an aligned block. -/
theorem within_iff_div {a x : Address} {n : Nat} (hn : n ∣ 2 ^ 32) (hpos : 0 < n)
    (ha : n ∣ a.toNat) : Within a n x ↔ x.toNat / n = a.toNat / n := by
  obtain ⟨k, hk⟩ := ha
  obtain ⟨l, hl⟩ := hn
  have halt := a.isLt
  have hxlt := x.isLt
  have hkl : k < l := by
    rw [hk, hl] at halt
    exact Nat.lt_of_mul_lt_mul_left halt
  have hend : n * k + n ≤ n * l := by
    rw [← Nat.mul_succ]
    exact Nat.mul_le_mul_left n hkl
  have hdiv : a.toNat / n = k := by
    rw [hk, Nat.mul_div_cancel_left k hpos]
  have hiff : x.toNat / n = k ↔ n * k ≤ x.toNat ∧ x.toNat < n * k + n := by
    rw [Nat.div_eq_iff hpos]
    constructor
    · intro h
      rw [Nat.mul_comm n k]
      omega
    · intro h
      rw [Nat.mul_comm n k] at h
      omega
  unfold Within
  rw [hdiv, hiff, BitVec.toNat_sub, hk]
  rw [hk, hl] at halt
  rw [hl] at hxlt ⊢
  by_cases hle : n * k ≤ x.toNat
  · rw [show n * l - n * k + x.toNat = n * l + (x.toNat - n * k) by omega, Nat.add_mod_left,
      Nat.mod_eq_of_lt (by omega)]
    omega
  · rw [Nat.mod_eq_of_lt (by omega)]
    omega

end FlatMemory
end Lib
end WhitexKernel
