import Mathlib.Data.List.GetD
import Mathlib.Logic.Function.Basic

/-!
# Bytes — memories as functions, and the lists in them

A memory gives a value for every offset.  `slice` reads a list out of it and `overwrite` writes one
into it.

* `slice_overwrite_front` — what a list put right in front of a slice reads as;
* `overwrite_within` — a write inside an earlier one changes the list that was written;
* `foldl_rows` — a loop over rows and columns as one loop;
* `foldl_update_apply`, `foldl_update_of_ne` — a loop that stores one value after the other.
-/

namespace WhitexKernel
namespace Lib
namespace Bytes

universe u

variable {α : Type u}

/-- The `n` values from `offset` on. -/
def slice (f : Nat → α) (offset n : Nat) : List α := (List.range n).map fun i => f (offset + i)

/-- `f` with `xs` from `offset` on. -/
def overwrite (f : Nat → α) (offset : Nat) (xs : List α) : Nat → α :=
  fun i => if offset ≤ i then xs.getD (i - offset) (f i) else f i

@[simp] theorem slice_length (f : Nat → α) (offset n : Nat) : (slice f offset n).length = n := by
  simp [slice]

theorem slice_getElem? (f : Nat → α) (offset n i : Nat) :
    (slice f offset n)[i]? = if i < n then some (f (offset + i)) else none := by
  unfold slice
  rw [List.getElem?_map]
  split
  case isTrue hi => rw [List.getElem?_range hi, Option.map_some]
  case isFalse hi =>
    rw [List.getElem?_eq_none (by rw [List.length_range]; omega), Option.map_none]

/-- Two slices are the same when their values are. -/
theorem slice_congr {f g : Nat → α} {a b n : Nat} (h : ∀ i, i < n → f (a + i) = g (b + i)) :
    slice f a n = slice g b n := by
  unfold slice
  apply List.map_congr_left
  intro i hi
  exact h i (List.mem_range.1 hi)

/-- Only slices with the same values are the same. -/
theorem slice_eq_iff {f g : Nat → α} {a b n : Nat} :
    slice f a n = slice g b n ↔ ∀ i < n, f (a + i) = g (b + i) := by
  refine ⟨fun h i hi => ?_, slice_congr⟩
  have hget : (slice f a n)[i]? = (slice g b n)[i]? := by rw [h]
  rw [slice_getElem?, slice_getElem?, if_pos hi, if_pos hi] at hget
  exact Option.some.inj hget

theorem slice_append (f : Nat → α) (offset m n : Nat) :
    slice f offset (m + n) = slice f offset m ++ slice f (offset + m) n := by
  unfold slice
  rw [List.range_add, List.map_append, List.map_map]
  simp [Function.comp_def, Nat.add_assoc]

theorem take_slice (f : Nat → α) (offset : Nat) {m n : Nat} (h : n ≤ m) :
    (slice f offset m).take n = slice f offset n := by
  have hsplit : m = n + (m - n) := by omega
  rw [hsplit, slice_append, List.take_left' (slice_length f offset n)]

/-- Equally long slices, one behind the other. -/
theorem slices_flatten (f : Nat → α) (offset k n : Nat) :
    (List.range n).flatMap (fun i => slice f (offset + i * k) k) = slice f offset (n * k) := by
  induction n with
  | zero => simp [slice]
  | succ n ih =>
      rw [List.range_succ, List.flatMap_append, ih, Nat.succ_mul, slice_append]
      simp

theorem overwrite_of_lt {f : Nat → α} {offset i : Nat} (xs : List α) (h : i < offset) :
    overwrite f offset xs i = f i := by
  unfold overwrite
  rw [if_neg (by omega)]

theorem overwrite_of_ge {f : Nat → α} {offset i : Nat} {xs : List α} (h : offset + xs.length ≤ i) :
    overwrite f offset xs i = f i := by
  unfold overwrite
  rw [if_pos (by omega)]
  exact List.getD_eq_default _ _ (by omega)

theorem overwrite_add (f : Nat → α) (offset : Nat) (xs : List α) (i : Nat) :
    overwrite f offset xs (offset + i) = xs.getD i (f (offset + i)) := by
  unfold overwrite
  rw [if_pos (by omega), Nat.add_sub_cancel_left]

/-- A list reads back as it was written. -/
theorem slice_overwrite_same (f : Nat → α) (offset : Nat) (xs : List α) :
    slice (overwrite f offset xs) offset xs.length = xs := by
  apply List.ext_getElem?
  intro i
  rw [slice_getElem?]
  split
  case isTrue hi =>
    rw [overwrite_add, List.getD_eq_getElem?_getD, List.getElem?_eq_getElem hi, Option.getD_some]
  case isFalse hi => rw [List.getElem?_eq_none (by omega)]

/-- A slice behind what is written, or in front of it, stays as it is. -/
theorem slice_overwrite_disjoint {f : Nat → α} {offset a n : Nat} {xs : List α}
    (h : offset + xs.length ≤ a ∨ a + n ≤ offset) :
    slice (overwrite f offset xs) a n = slice f a n := by
  apply slice_congr
  intro i hi
  rcases h with h | h
  · exact overwrite_of_ge (by omega)
  · exact overwrite_of_lt xs (by omega)

/-- A list written right in front of a slice. -/
theorem slice_overwrite_front (f : Nat → α) (offset n : Nat) (xs : List α) :
    slice (overwrite f offset xs) offset (xs.length + n) =
      xs ++ slice f (offset + xs.length) n := by
  rw [slice_append, slice_overwrite_same, slice_overwrite_disjoint (.inl (Nat.le_refl _))]

/-- Two lists in front of a slice, the later one in front of the other. -/
theorem slice_headers (f : Nat → α) (offset n : Nat) (xs ys : List α) :
    slice (overwrite (overwrite f (offset + xs.length) ys) offset xs) offset
      (xs.length + (ys.length + n)) = xs ++ (ys ++ slice f (offset + xs.length + ys.length) n) := by
  rw [slice_overwrite_front, slice_overwrite_front]

@[simp] theorem slice_zero (f : Nat → α) (offset : Nat) : slice f offset 0 = [] := rfl

@[simp] theorem overwrite_nil (f : Nat → α) (offset : Nat) : overwrite f offset [] = f := by
  funext i
  simp [overwrite]

/-- A value, and a list behind it. -/
theorem overwrite_cons (f : Nat → α) (offset : Nat) (x : α) (xs : List α) :
    overwrite (Function.update f offset x) (offset + 1) xs = overwrite f offset (x :: xs) := by
  funext i
  by_cases hlow : i < offset
  · rw [overwrite_of_lt _ (by omega), overwrite_of_lt _ hlow,
      Function.update_of_ne (Nat.ne_of_lt hlow)]
  · obtain ⟨j, rfl⟩ : ∃ j, i = offset + j := ⟨i - offset, by omega⟩
    rw [overwrite_add]
    cases j with
    | zero =>
        rw [overwrite_of_lt _ (show offset + 0 < offset + 1 by omega)]
        exact Function.update_self _ _ _
    | succ j =>
        have hne : offset + (j + 1) ≠ offset := by omega
        have hindex : offset + (j + 1) = offset + 1 + j := by omega
        rw [List.getD_cons_succ, hindex, overwrite_add, ← hindex, Function.update_of_ne hne]

/-- A list, and a value behind it. -/
theorem overwrite_snoc (f : Nat → α) (offset : Nat) (xs : List α) (x : α) :
    Function.update (overwrite f offset xs) (offset + xs.length) x =
      overwrite f offset (xs ++ [x]) := by
  induction xs generalizing f offset with
  | nil => rw [List.nil_append, ← overwrite_cons, overwrite_nil, overwrite_nil]; rfl
  | cons y ys ih =>
      have hindex : offset + (y :: ys).length = offset + 1 + ys.length := by
        rw [List.length_cons]
        omega
      rw [hindex, ← overwrite_cons, ih, List.cons_append, overwrite_cons]

/-- A list right behind another one. -/
theorem overwrite_append (f : Nat → α) (offset : Nat) (xs ys : List α) :
    overwrite (overwrite f offset xs) (offset + xs.length) ys = overwrite f offset (xs ++ ys) := by
  induction xs generalizing f offset with
  | nil => rw [overwrite_nil, List.length_nil, Nat.add_zero, List.nil_append]
  | cons x xs ih =>
      have hindex : offset + (x :: xs).length = offset + 1 + xs.length := by
        rw [List.length_cons]
        omega
      rw [hindex, ← overwrite_cons, ih, List.cons_append, overwrite_cons]

/-- A value behind a list, and then the list. -/
theorem overwrite_update (f : Nat → α) (offset : Nat) (xs : List α) (x : α) :
    overwrite (Function.update f (offset + xs.length) x) offset xs =
      overwrite f offset (xs ++ [x]) := by
  rw [← overwrite_snoc]
  funext i
  by_cases hi : i = offset + xs.length
  · rw [hi, overwrite_of_ge (Nat.le_refl _), Function.update_self, Function.update_self]
  · unfold overwrite
    rw [Function.update_of_ne hi, Function.update_of_ne hi]

/-- A write inside an earlier one. -/
theorem overwrite_within (f : Nat → α) (offset k : Nat) {xs ys : List α}
    (h : k + ys.length ≤ xs.length) :
    overwrite (overwrite f offset xs) (offset + k) ys =
      overwrite f offset (xs.take k ++ ys ++ xs.drop (k + ys.length)) := by
  funext i
  by_cases hlow : i < offset
  · rw [overwrite_of_lt _ (by omega), overwrite_of_lt _ hlow, overwrite_of_lt _ hlow]
  · obtain ⟨j, rfl⟩ : ∃ j, i = offset + j := ⟨i - offset, by omega⟩
    rw [overwrite_add]
    -- the outer list: before the inner one, inside it, and behind it
    by_cases hfirst : j < k
    · rw [overwrite_of_lt _ (by omega), overwrite_add, List.getD_eq_getElem?_getD,
        List.getD_eq_getElem?_getD, List.append_assoc,
        List.getElem?_append_left (by rw [List.length_take]; omega), List.getElem?_take_of_lt hfirst]
    · obtain ⟨m, rfl⟩ : ∃ m, j = k + m := ⟨j - k, by omega⟩
      rw [← Nat.add_assoc, overwrite_add, List.getD_eq_getElem?_getD, List.getD_eq_getElem?_getD,
        List.append_assoc, List.getElem?_append_right (by rw [List.length_take]; omega),
        List.length_take, Nat.min_eq_left (by omega), Nat.add_sub_cancel_left]
      by_cases hmid : m < ys.length
      · rw [List.getElem?_append_left hmid, List.getElem?_eq_getElem hmid]
        rfl
      · rw [List.getElem?_append_right (by omega), List.getElem?_drop,
          List.getElem?_eq_none (by omega), Option.getD_none, Nat.add_assoc, overwrite_add,
          List.getD_eq_getElem?_getD]
        congr 2
        omega

/-! ## Stores one by one -/

/-- A loop over the rows of a table, and in each of them over its columns. -/
theorem foldl_rows {β : Type u} (f : β → Nat → β) (b : β) (rows columns : Nat) :
    (List.range rows).foldl
        (fun b y => (List.range columns).foldl (fun b x => f b (y * columns + x)) b) b =
      (List.range (rows * columns)).foldl f b := by
  induction rows with
  | zero => simp
  | succ rows ih =>
      rw [List.range_succ, List.foldl_append, ih, Nat.succ_mul, List.range_add, List.foldl_append,
        List.foldl_map]
      rfl

/-- What a loop of stores leaves alone. -/
theorem foldl_update_of_ne (f : Nat → α) {address : Nat → Nat} {n a : Nat} (value : Nat → α)
    (h : ∀ i < n, address i ≠ a) :
    (List.range n).foldl (fun f i => Function.update f (address i) (value i)) f a = f a := by
  induction n with
  | zero => rfl
  | succ n ih =>
      rw [List.range_succ, List.foldl_append, List.foldl_cons, List.foldl_nil,
        Function.update_of_ne (h n (Nat.lt_succ_self n)).symm]
      exact ih fun i hi => h i (Nat.lt_succ_of_lt hi)

/-- A loop of stores to different addresses. -/
theorem foldl_update_apply (f : Nat → α) (address : Nat → Nat) {n i : Nat} (value : Nat → α)
    (hinj : ∀ i < n, ∀ j < n, address i = address j → i = j) (hi : i < n) :
    (List.range n).foldl (fun f i => Function.update f (address i) (value i)) f (address i) =
      value i := by
  induction n with
  | zero => omega
  | succ n ih =>
      rw [List.range_succ, List.foldl_append, List.foldl_cons, List.foldl_nil]
      by_cases hlast : i = n
      · rw [hlast, Function.update_self]
      · have hne : address i ≠ address n := fun heq => hlast (hinj i hi n (Nat.lt_succ_self n) heq)
        rw [Function.update_of_ne hne]
        exact ih (fun j hj k hk => hinj j (Nat.lt_succ_of_lt hj) k (Nat.lt_succ_of_lt hk)) (by omega)

end Bytes
end Lib
end WhitexKernel
