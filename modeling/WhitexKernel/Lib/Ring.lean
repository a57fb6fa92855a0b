import Mathlib.Data.List.DropRight
import Mathlib.Data.List.Forall2
import Mathlib.Logic.Function.Basic

/-!
# Ring — a bounded queue in a circular array

A ring of capacity `cap` keeps the index of its oldest element, the index of the next free slot and
the number of elements.  Its `contents` are the queue it stands for, oldest element first:

* `push` appends to the contents, as long as there is room;
* `pop` removes the oldest element;
* `overwrite` appends in any case, and drops the oldest element where it has to.

Slots outside the contents are arbitrary.
-/

namespace WhitexKernel
namespace Lib

universe u

structure Ring (α : Type u) where
  slots : Nat → α
  head : Nat
  tail : Nat
  count : Nat

namespace Ring

variable {α : Type u} {cap : Nat}

/-- The elements, oldest first. -/
def contents (cap : Nat) (r : Ring α) : List α :=
  (List.range r.count).map fun k => r.slots ((r.head + k) % cap)

def push (cap : Nat) (r : Ring α) (x : α) : Ring α :=
  { slots := Function.update r.slots r.tail x
    head := r.head
    tail := (r.tail + 1) % cap
    count := r.count + 1 }

def pop (cap : Nat) (r : Ring α) : Ring α :=
  { slots := r.slots
    head := (r.head + 1) % cap
    tail := r.tail
    count := r.count - 1 }

def overwrite (cap : Nat) (r : Ring α) (x : α) : Ring α :=
  (if r.count ≥ cap then r.pop cap else r).push cap x

/-- The indices are in range, and `tail` is where the contents end. -/
structure WellFormed (cap : Nat) (r : Ring α) : Prop where
  head_lt : r.head < cap
  count_le : r.count ≤ cap
  tail_eq : r.tail = (r.head + r.count) % cap

@[simp] theorem length_contents (r : Ring α) : (r.contents cap).length = r.count := by
  simp [contents]

theorem contents_of_count_eq_zero {r : Ring α} (h : r.count = 0) : r.contents cap = [] := by
  simp [contents, h]

/-- Dropping early or late is the same. -/
theorem rtake_rtake_concat (hpos : 0 < cap) (xs : List α) (x : α) :
    (xs.rtake cap ++ [x]).rtake cap = (xs ++ [x]).rtake cap := by
  obtain ⟨n, rfl⟩ : ∃ n, cap = n + 1 := ⟨cap - 1, by omega⟩
  rw [List.rtake_concat_succ, List.rtake_concat_succ]
  unfold List.rtake
  rw [List.length_drop, List.drop_drop]
  congr 2
  omega

namespace WellFormed

variable {r : Ring α}

theorem tail_lt (h : r.WellFormed cap) : r.tail < cap := by
  rw [h.tail_eq]
  exact Nat.mod_lt _ (Nat.lt_of_le_of_lt (Nat.zero_le _) h.head_lt)

theorem push (h : r.WellFormed cap) (hroom : r.count < cap) (x : α) :
    (r.push cap x).WellFormed cap := by
  refine ⟨h.head_lt, hroom, ?_⟩
  calc (r.tail + 1) % cap
      = ((r.head + r.count) % cap + 1) % cap := by rw [h.tail_eq]
    _ = (r.head + r.count + 1) % cap := Nat.mod_add_mod _ _ _

theorem pop (h : r.WellFormed cap) (hpos : r.count ≠ 0) : (r.pop cap).WellFormed cap := by
  refine ⟨Nat.mod_lt _ (Nat.lt_of_le_of_lt (Nat.zero_le _) h.head_lt), ?_, ?_⟩
  · exact Nat.le_trans (Nat.sub_le _ _) h.count_le
  · calc r.tail
        = (r.head + 1 + (r.count - 1)) % cap := by
          rw [h.tail_eq]
          congr 1
          omega
      _ = ((r.head + 1) % cap + (r.count - 1)) % cap := (Nat.mod_add_mod _ _ _).symm

/-- The slot at `tail` is none of those in use. -/
theorem tail_ne (h : r.WellFormed cap) (hroom : r.count < cap) {k : Nat} (hk : k < r.count) :
    (r.head + k) % cap ≠ r.tail := by
  rw [h.tail_eq]
  intro heq
  have hhead := h.head_lt
  rcases Nat.lt_or_ge (r.head + k) cap with hlt | hge
  · rcases Nat.lt_or_ge (r.head + r.count) cap with hlt' | hge'
    · rw [Nat.mod_eq_of_lt hlt, Nat.mod_eq_of_lt hlt'] at heq
      omega
    · rw [Nat.mod_eq_of_lt hlt, Nat.mod_eq_sub_mod hge', Nat.mod_eq_of_lt (by omega)] at heq
      omega
  · rw [Nat.mod_eq_sub_mod hge, Nat.mod_eq_of_lt (by omega), Nat.mod_eq_sub_mod (by omega),
      Nat.mod_eq_of_lt (by omega)] at heq
    omega

/-- A push appends. -/
theorem contents_push (h : r.WellFormed cap) (hroom : r.count < cap) (x : α) :
    (r.push cap x).contents cap = r.contents cap ++ [x] := by
  unfold contents Ring.push
  simp only [List.range_succ, List.map_append, List.map_cons, List.map_nil]
  congr 1
  · refine List.map_congr_left fun k hk => ?_
    exact Function.update_of_ne (h.tail_ne hroom (List.mem_range.1 hk)) _ _
  · rw [← h.tail_eq, Function.update_self]

/-- A pop takes the oldest element away. -/
theorem contents_pop (h : r.WellFormed cap) (hpos : r.count ≠ 0) :
    r.contents cap = r.slots r.head :: (r.pop cap).contents cap := by
  unfold contents Ring.pop
  have hcount : r.count = (r.count - 1) + 1 := by omega
  rw [hcount, List.range_succ_eq_map]
  simp only [List.map_cons, List.map_map, Nat.add_zero, Nat.mod_eq_of_lt h.head_lt,
    Nat.add_sub_cancel]
  congr 1
  refine List.map_congr_left fun k _ => ?_
  simp only [Function.comp_apply]
  congr 1
  calc (r.head + (k + 1)) % cap
      = (r.head + 1 + k) % cap := by
        congr 1
        omega
    _ = ((r.head + 1) % cap + k) % cap := (Nat.mod_add_mod _ _ _).symm

/-! ### Overwriting -/

/-- After room has been made, there is room. -/
theorem makeRoom (h : r.WellFormed cap) :
    (if r.count ≥ cap then r.pop cap else r).WellFormed cap ∧
      (if r.count ≥ cap then r.pop cap else r).count < cap := by
  have hpos : 0 < cap := Nat.lt_of_le_of_lt (Nat.zero_le _) h.head_lt
  split
  case isTrue hfull =>
    refine ⟨h.pop (by omega), ?_⟩
    change r.count - 1 < cap
    have hcount := h.count_le
    omega
  case isFalse hroom => exact ⟨h, Nat.lt_of_not_le hroom⟩

theorem overwrite (h : r.WellFormed cap) (x : α) : (r.overwrite cap x).WellFormed cap :=
  h.makeRoom.1.push h.makeRoom.2 x

/-- What is written last is kept, up to the capacity. -/
theorem contents_overwrite (h : r.WellFormed cap) (x : α) :
    (r.overwrite cap x).contents cap = (r.contents cap ++ [x]).rtake cap := by
  have hpos : 0 < cap := Nat.lt_of_le_of_lt (Nat.zero_le _) h.head_lt
  have hcount := h.count_le
  unfold Ring.overwrite
  rw [h.makeRoom.1.contents_push h.makeRoom.2]
  split
  case isTrue hfull =>
    have hsplit := h.contents_pop (by omega)
    have hlength : (r.pop cap).count + 1 = cap := by
      change r.count - 1 + 1 = cap
      omega
    rw [hsplit]
    unfold List.rtake
    simp [hlength]
  case isFalse hroom =>
    unfold List.rtake
    rw [List.length_append, length_contents, List.length_singleton,
      show r.count + 1 - cap = 0 by omega, List.drop_zero]

/-- A sequence of writes keeps the last ones. -/
theorem foldl_overwrite (h : r.WellFormed cap) (xs : List α) :
    (xs.foldl (Ring.overwrite cap) r).WellFormed cap ∧
      (xs.foldl (Ring.overwrite cap) r).contents cap = (r.contents cap ++ xs).rtake cap := by
  have hpos : 0 < cap := Nat.lt_of_le_of_lt (Nat.zero_le _) h.head_lt
  induction xs using List.reverseRecOn with
  | nil =>
      refine ⟨h, ?_⟩
      have hcount := h.count_le
      unfold List.rtake
      rw [List.append_nil, length_contents, Nat.sub_eq_zero_of_le hcount, List.drop_zero]
      rfl
  | append_singleton xs x ih =>
      rw [List.foldl_append]
      refine ⟨ih.1.overwrite x, ?_⟩
      refine (ih.1.contents_overwrite x).trans ?_
      rw [ih.2, rtake_rtake_concat hpos, List.append_assoc]

end WellFormed

end Ring

end Lib
end WhitexKernel
