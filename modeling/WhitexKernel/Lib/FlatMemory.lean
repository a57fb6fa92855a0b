import Mathlib.Data.BitVec

/-!
# FlatMemory — bytes at 32-bit addresses

Addresses wrap around, so a region is a start and a number of bytes, and an address is in it when its
distance from the start is less.  All stores are instances of `write`, which gives the bytes of a
region by their index:

* `write_write` — a write right behind another one is one write;
* `word_store_same`, `word_write_of_apart` — words are read as they were stored;
* `apart_of_le` — when two regions have no byte in common.
-/

namespace WhitexKernel
namespace Lib
namespace FlatMemory

abbrev Address := BitVec 32

abbrev Memory := Address → BitVec 8

/-! ## Regions -/

/-- `a` is one of the `n` bytes from `start`. -/
def Within (start : Address) (n : Nat) (a : Address) : Prop := (a - start).toNat < n

instance (start : Address) (n : Nat) (a : Address) : Decidable (Within start n a) := by
  unfold Within
  infer_instance

/-- Two regions have no byte in common. -/
def Apart (a : Address) (n : Nat) (b : Address) (k : Nat) : Prop :=
  ∀ x, Within a n x → ¬ Within b k x

/-- Byte `i` from `a`. -/
def offset (a : Address) (i : Nat) : Address := a + BitVec.ofNat 32 i

theorem toNat_offset_sub (a : Address) {i : Nat} (hi : i < 2 ^ 32) : (offset a i - a).toNat = i := by
  have hsub : offset a i - a = BitVec.ofNat 32 i := by
    unfold offset
    rw [BitVec.add_comm, BitVec.add_sub_cancel]
  rw [hsub, BitVec.toNat_ofNat, Nat.mod_eq_of_lt hi]

theorem offset_toNat_sub (a x : Address) : offset a (x - a).toNat = x := by
  unfold offset
  rw [BitVec.ofNat_toNat, BitVec.setWidth_eq, BitVec.add_comm, BitVec.sub_add_cancel]

theorem offset_zero (a : Address) : offset a 0 = a := BitVec.add_zero a

theorem offset_offset (a : Address) (i j : Nat) : offset (offset a i) j = offset a (i + j) := by
  unfold offset
  rw [BitVec.add_assoc, BitVec.ofNat_add]

theorem within_offset {a : Address} {n i : Nat} (hi : i < 2 ^ 32) : Within a n (offset a i) ↔ i < n := by
  unfold Within
  rw [toNat_offset_sub a hi]

/-- The distance from a later start, where the regions do not go round the whole memory. -/
theorem toNat_sub_offset (a x : Address) {n : Nat} (hn : n < 2 ^ 32) :
    (x - offset a n).toNat =
      if n ≤ (x - a).toNat then (x - a).toNat - n else (x - a).toNat + 2 ^ 32 - n := by
  have hsub : x - offset a n = (x - a) - BitVec.ofNat 32 n := by
    unfold offset
    rw [BitVec.sub_sub]
  have hlt := (x - a).isLt
  rw [hsub, BitVec.toNat_sub, BitVec.toNat_ofNat, Nat.mod_eq_of_lt hn]
  split
  · omega
  · omega

/-- Regions that do not wrap around, one in front of the other. -/
theorem apart_of_le {a b : Address} {n k : Nat} (ha : a.toNat + n ≤ 2 ^ 32)
    (hb : b.toNat + k ≤ 2 ^ 32) (h : a.toNat + n ≤ b.toNat ∨ b.toNat + k ≤ a.toNat) :
    Apart a n b k := by
  intro x hx hx'
  unfold Within at hx hx'
  rw [BitVec.toNat_sub] at hx hx'
  have hxlt := x.isLt
  have halt := a.isLt
  have hblt := b.isLt
  omega

theorem Apart.symm {a b : Address} {n k : Nat} (h : Apart a n b k) : Apart b k a n :=
  fun x hb ha => h x ha hb

theorem Apart.mono {a b : Address} {n n' k k' : Nat} (h : Apart a n b k) (hn : n' ≤ n)
    (hk : k' ≤ k) : Apart a n' b k' :=
  fun x hx hx' => h x (Nat.lt_of_lt_of_le hx hn) (Nat.lt_of_lt_of_le hx' hk)

/-- The bytes of a region from one of them on. -/
theorem Within.of_offset {a x : Address} {n k i : Nat} (hi : i < 2 ^ 32) (hfits : i + k ≤ n)
    (h : Within (offset a i) k x) : Within a n x := by
  have hlt := (x - a).isLt
  unfold Within at h ⊢
  rw [toNat_sub_offset a x hi] at h
  split at h
  · omega
  · omega

theorem Apart.offset_left {a b : Address} {n k i m : Nat} (h : Apart a n b k) (hi : i < 2 ^ 32)
    (hfits : i + m ≤ n) : Apart (offset a i) m b k :=
  fun x hx => h x (hx.of_offset hi hfits)

/-! ## Writes -/

/-- `m` with the `n` bytes from `start` given by `f`. -/
def write (m : Memory) (start : Address) (n : Nat) (f : Nat → BitVec 8) : Memory :=
  fun a => if Within start n a then f (a - start).toNat else m a

section Writes

variable {m : Memory} {a b x : Address} {n k : Nat} {f g : Nat → BitVec 8}

theorem write_of_within (h : Within a n x) : write m a n f x = f (x - a).toNat := if_pos h

theorem write_of_not_within (h : ¬ Within a n x) : write m a n f x = m x := if_neg h

theorem write_offset {i : Nat} (hi : i < n) (hn : n ≤ 2 ^ 32) : write m a n f (offset a i) = f i := by
  have hlt : i < 2 ^ 32 := Nat.lt_of_lt_of_le hi hn
  rw [write_of_within ((within_offset hlt).2 hi), toNat_offset_sub a hlt]

@[simp] theorem write_zero (m : Memory) (a : Address) (f : Nat → BitVec 8) : write m a 0 f = m := by
  funext x
  exact write_of_not_within (Nat.not_lt_zero _)

theorem write_congr (h : ∀ i < n, f i = g i) : write m a n f = write m a n g := by
  funext x
  unfold write
  split
  case isTrue hx => exact h _ hx
  case isFalse => rfl

/-- Of two writes to a region the second one counts. -/
theorem write_write_self : write (write m a n f) a n g = write m a n g := by
  funext x
  by_cases hx : Within a n x
  · rw [write_of_within hx, write_of_within hx]
  · rw [write_of_not_within hx, write_of_not_within hx, write_of_not_within hx]

/-- The second write takes up where the first one ends. -/
theorem write_write (hfits : n + k ≤ 2 ^ 32) :
    write (write m a n f) (offset a n) k g =
      write m a (n + k) fun i => if i < n then f i else g (i - n) := by
  by_cases hn : n = 2 ^ 32
  · -- nothing is left for the second write
    have hk : k = 0 := by omega
    subst hk
    rw [write_zero, Nat.add_zero]
    exact write_congr fun i hi => (if_pos hi).symm
  have hlt : n < 2 ^ 32 := by omega
  funext x
  have hdistance := toNat_sub_offset a x hlt
  have hx := (x - a).isLt
  by_cases hback : Within (offset a n) k x
  · have hbehind : n ≤ (x - a).toNat ∧ (x - a).toNat - n < k := by
      unfold Within at hback
      rw [hdistance] at hback
      split at hback
      · omega
      · omega
    have hwhole : Within a (n + k) x := by
      unfold Within
      omega
    rw [write_of_within hback, write_of_within hwhole, hdistance, if_pos hbehind.1,
      if_neg (by omega)]
  · rw [write_of_not_within hback]
    unfold Within at hback
    rw [hdistance] at hback
    by_cases hfront : Within a n x
    · have hwhole : Within a (n + k) x := Nat.lt_of_lt_of_le hfront (Nat.le_add_right n k)
      rw [write_of_within hfront, write_of_within hwhole]
      exact (if_pos hfront).symm
    · have hwhole : ¬ Within a (n + k) x := by
        unfold Within at hfront ⊢
        rw [if_pos (Nat.le_of_not_lt hfront)] at hback
        omega
      rw [write_of_not_within hfront, write_of_not_within hwhole]

end Writes

/-! ## Words -/

/-- Byte `i` of a word, the lowest first. -/
def byte (w : BitVec 32) (i : Nat) : BitVec 8 := w.extractLsb' (8 * i) 8

/-- The word at an address. -/
def word (m : Memory) (a : Address) : BitVec 32 :=
  m (offset a 3) ++ m (offset a 2) ++ m (offset a 1) ++ m (offset a 0)

def storeWord (m : Memory) (a : Address) (w : BitVec 32) : Memory := write m a 4 (byte w)

theorem byte_word (m : Memory) (a : Address) {i : Nat} (hi : i < 4) :
    byte (word m a) i = m (offset a i) := by
  unfold byte word
  ext j hj
  rw [BitVec.getElem_extractLsb', BitVec.getLsbD_append, BitVec.getLsbD_append,
    BitVec.getLsbD_append, ← BitVec.getLsbD_eq_getElem]
  rcases (by omega : i = 0 ∨ i = 1 ∨ i = 2 ∨ i = 3) with rfl | rfl | rfl | rfl
  · rw [if_pos (by omega), Nat.mul_zero, Nat.zero_add]
  · rw [if_neg (by omega), if_pos (by omega), Nat.mul_one, Nat.add_sub_cancel_left]
  · rw [if_neg (by omega), if_neg (by omega), if_pos (by omega)]
    congr 1
    omega
  · rw [if_neg (by omega), if_neg (by omega), if_neg (by omega)]
    congr 1
    omega

/-- A word is its bytes. -/
theorem eq_of_byte_eq {v w : BitVec 32} (h : ∀ i < 4, byte v i = byte w i) : v = w := by
  refine BitVec.eq_of_getLsbD_eq fun j hj => ?_
  have hbyte := congrArg (fun b => b.getLsbD (j % 8)) (h (j / 8) (by omega))
  have hlow : j % 8 < 8 := Nat.mod_lt j (by decide)
  simpa [byte, BitVec.getLsbD_extractLsb', hlow, Nat.div_add_mod] using hbyte

/-- Words with the same bytes in memory. -/
theorem word_congr {m m' : Memory} {a b : Address} (h : ∀ i < 4, m (offset a i) = m' (offset b i)) :
    word m a = word m' b := by
  refine eq_of_byte_eq fun i hi => ?_
  rw [byte_word m a hi, byte_word m' b hi, h i hi]

theorem word_store_same (m : Memory) (a : Address) (w : BitVec 32) :
    word (storeWord m a w) a = w := by
  refine eq_of_byte_eq fun i hi => ?_
  rw [byte_word _ _ hi]
  exact write_offset hi (by decide)

theorem word_write_of_apart {m : Memory} {a b : Address} {n : Nat} (f : Nat → BitVec 8)
    (h : Apart a 4 b n) : word (write m b n f) a = word m a := by
  refine word_congr fun i hi => write_of_not_within (h _ ?_)
  exact (within_offset (by omega)).2 hi

end FlatMemory
end Lib
end WhitexKernel
