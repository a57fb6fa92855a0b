import WhitexKernel.Paging.Booted
import WhitexKernel.Paging.Region

/-!
# Tidy — a directory whose structures keep apart

While a directory and its tables lie apart, in frames that are marked, a table that is made takes none
of them away.  The one thing it does to the other tables is that its word of `physical_tables` may be an
entry of one of them.

* `provided_of_getPageEntry` — what looking an entry up with `make` does to the pages;
* `Filled.wordOf_self`, `Filled.wordOf_of_ne` — what filling the entry does to them.
-/

namespace WhitexKernel
namespace Paging

open Lib Machine FlatMemory

namespace FlatState

variable {s t u : FlatState} {dir page : Address} {j k l : Nat}

/-! ## Pages -/

/-- The table for the page `k`. -/
def tableOf (s : FlatState) (dir : Address) (k : Nat) : Address := cell s.memory dir (k / pageEntries)

/-- The address of the entry for the page `k`, if it has a table. -/
def entryOf (s : FlatState) (dir : Address) (k : Nat) : Address :=
  entryAddress (s.tableOf dir k) (k % pageEntries)

/-- The entry for the page `k`. -/
def wordOf (s : FlatState) (dir : Address) (k : Nat) : BitVec 32 := word s.memory (s.entryOf dir k)

theorem table_lt (hk : k < 2 ^ 20) : k / pageEntries < directoryEntries := by
  unfold pageEntries directoryEntries
  omega

theorem index_lt (k : Nat) : k % pageEntries < pageEntries := Nat.mod_lt k (by decide)

theorem wordOf_congr (h : s.entryOf dir j = s.entryOf dir k) : s.wordOf dir j = s.wordOf dir k :=
  congrArg (word s.memory) h

/-- The table made for the page `k` has its word of `physical_tables` where the entry for the page `j`
is. -/
def Strikes (s : FlatState) (dir : Address) (k j : Nat) : Prop :=
  s.tableOf dir k = 0 ∧ s.entryOf dir j = physicalTable dir (k / pageEntries)

/-! ## Directories whose structures keep apart -/

/-- The pointers of a directory and its tables do not overlap; they, `physical_tables` and the kernel
image are in frames that are marked, and no word of `physical_tables` lies across two entries. -/
structure Tidy (s : FlatState) (dir : Address) : Prop where
  laidOut : LaidOut s.memory [dir]
  held : s.Held [dir]
  physical : s.marked ((behind dir).toNat / pageSize) = true
  image : s.ImageHeld [dir]
  zero : s.marked 0 = true
  words : ∀ table, IsTable s.memory [dir] table → ∀ index < directoryEntries,
    Apart table pageSize (physicalTable dir index) 4 ∨
      ∃ i < pageEntries, physicalTable dir index = entryAddress table i

theorem isTable_tableOf (hk : k < 2 ^ 20) (h : s.tableOf dir k ≠ 0) :
    IsTable s.memory [dir] (s.tableOf dir k) :=
  ⟨h, dir, List.mem_singleton_self dir, _, table_lt hk, rfl⟩

namespace Tidy

theorem aligned (h : s.Tidy dir) : pageSize ∣ dir.toNat :=
  h.laidOut.aligned dir (List.mem_singleton_self dir)

/-- A table is apart from every frame that is free. -/
theorem apart_free (h : s.Tidy dir) (hl : s.Free l) {table : Address}
    (htable : IsTable s.memory [dir] table) : Apart table pageSize (frameAddress l) pageSize := by
  intro x hx hx'
  have hmarked := h.held.tables table htable x hx
  rw [(within_frameAddress hl.lt).1 hx', hl.not_marked] at hmarked
  cases hmarked

theorem frameAddress_ne_zero (h : s.Tidy dir) (hl : s.Free l) : frameAddress l ≠ 0 := by
  intro hzero
  have hvalue := congrArg BitVec.toNat hzero
  rw [toNat_frameAddress hl.lt] at hvalue
  have hnumber : l = 0 := by
    unfold pageSize at hvalue
    change l * 4096 = 0 at hvalue
    omega
  have hmarked := h.zero
  rw [← hnumber, hl.not_marked] at hmarked
  cases hmarked

theorem roomFor (h : s.Tidy dir) (hl : s.Free l) {index : Nat} (hindex : index < directoryEntries) :
    RoomFor s.memory [dir] dir index l where
  directories := fun hmem => by
    have hmarked := h.held.directories dir (List.mem_singleton_self dir)
    rw [← List.mem_singleton.1 hmem, toNat_frameAddress hl.lt, Nat.mul_div_cancel l (by decide),
      hl.not_marked] at hmarked
    cases hmarked
  tables := fun table htable => .inr (h.apart_free hl htable)
  pointers := fun hmem => by
    have hvalue := congrArg (fun x => (x - dir).toNat) (List.mem_singleton.1 hmem)
    unfold behind at hvalue
    rw [toNat_offset_sub dir (by decide), BitVec.sub_self] at hvalue
    exact absurd hvalue (by decide)
  entries := fun table htable => h.words table htable index hindex

end Tidy

/-- A table that is made keeps apart, too. -/
theorem Made.tidy {index : Nat} (h : Made s t dir index l) (hs : s.Tidy dir) (hl : s.Free l)
    (hindex : index < directoryEntries) (hmissing : cell s.memory dir index = 0) : t.Tidy dir := by
  have hmem : dir ∈ [dir] := List.mem_singleton_self dir
  have hroom := hs.roomFor hl hindex
  have hne := hs.frameAddress_ne_zero hl
  have htable : ∀ table, IsTable t.memory [dir] table ↔
      table = frameAddress l ∨ IsTable s.memory [dir] table :=
    fun _ => h.isTable_iff hs.laidOut hmem hindex hl.lt hroom hmissing hne
  have hmarks : ∀ frame, t.marked frame = true ↔ frame = l ∨ s.marked frame = true :=
    marked_mark h.bitmap
  refine
    { laidOut := h.laidOut hs.laidOut hmem hindex hl.lt hroom hmissing hne
      held := ⟨fun d hd => (hmarks _).2 (.inr (hs.held.directories d hd)), fun table hin x hx => ?_⟩
      physical := (hmarks _).2 (.inr hs.physical)
      image := hs.image.mono fun frame hmarked => (hmarks frame).2 (.inr hmarked)
      zero := (hmarks 0).2 (.inr hs.zero)
      words := fun table hin j hj => ?_ }
  · rcases (htable table).1 hin with rfl | hold
    · exact (hmarks _).2 (.inl ((within_frameAddress hl.lt).1 hx))
    · exact (hmarks _).2 (.inr (hs.held.tables table hold x hx))
  · rcases (htable table).1 hin with rfl | hold
    · exact physicalTable_frameAddress hs.aligned hl.lt hj
    · exact hs.words table hold j hj

/-! ## Looking an entry up -/

/-- `t` is `s` with a table for the page `k`. -/
structure Provided (s t : FlatState) (dir : Address) (k : Nat) : Prop where
  tidy : t.Tidy dir
  there : t.tableOf dir k ≠ 0
  kept : ∀ j < 2 ^ 20, s.tableOf dir j ≠ 0 → t.tableOf dir j = s.tableOf dir j
  others : ∀ j < 2 ^ 20, j / pageEntries ≠ k / pageEntries → t.tableOf dir j = s.tableOf dir j
  marks : ∀ frame, s.marked frame = true → t.marked frame = true
  spared : ∀ j < 2 ^ 20, s.tableOf dir j ≠ 0 → ¬ s.Strikes dir k j →
    t.wordOf dir j = s.wordOf dir j
  struck : ∀ j < 2 ^ 20, s.tableOf dir j ≠ 0 → s.Strikes dir k j →
    isPresent (t.wordOf dir j) ∧ s.marked (frameNumber (t.wordOf dir j)) = false
  fresh : ∀ j < 2 ^ 20, s.tableOf dir j = 0 → t.tableOf dir j ≠ 0 →
    t.wordOf dir j = 0 ∨ isPresent (t.wordOf dir j)
  apart : s.tableOf dir k = 0 → ∀ j < 2 ^ 20, s.tableOf dir j ≠ 0 →
    t.entryOf dir j ≠ t.entryOf dir k
  made : s.tableOf dir k = 0 → ∃ l < 2 ^ 20, t.tableOf dir k = frameAddress l ∧ s.marked l = false

namespace Filled

variable (h : Filled t u (t.entryOf dir k) l) (ht : t.Tidy dir) (hk : k < 2 ^ 20)
  (hthere : t.tableOf dir k ≠ 0)

include h ht hk hthere

theorem tableOf_eq (hj : j < 2 ^ 20) : u.tableOf dir j = t.tableOf dir j :=
  h.samePointers ht.laidOut (isTable_tableOf hk hthere) (index_lt k) dir (List.mem_singleton_self dir)
    _ (table_lt hj)

theorem entryOf_eq (hj : j < 2 ^ 20) : u.entryOf dir j = t.entryOf dir j := by
  unfold entryOf
  rw [h.tableOf_eq ht hk hthere hj]

theorem tidy : u.Tidy dir := by
  have hsame := h.samePointers ht.laidOut (isTable_tableOf hk hthere) (index_lt k)
  have hmarks : ∀ frame, u.marked frame = true ↔ frame = l ∨ t.marked frame = true :=
    marked_mark h.bitmap
  exact
    { laidOut := ht.laidOut.congr hsame
      held :=
        { directories := fun d hd => (hmarks _).2 (.inr (ht.held.directories d hd))
          tables := fun table htable x hx =>
            (hmarks _).2 (.inr (ht.held.tables table (hsame.isTable.1 htable) x hx)) }
      physical := (hmarks _).2 (.inr ht.physical)
      image := ht.image.mono fun frame hmarked => (hmarks frame).2 (.inr hmarked)
      zero := (hmarks 0).2 (.inr ht.zero)
      words := fun table htable => ht.words table (hsame.isTable.1 htable) }

theorem wordOf_self : isPresent (u.wordOf dir k) ∧ frameNumber (u.wordOf dir k) = l := by
  have hcells := (h.cells ht.laidOut (isTable_tableOf hk hthere) (index_lt k)).1
  unfold wordOf
  rw [h.entryOf_eq ht hk hthere hk]
  exact hcells

theorem wordOf_of_ne (hj : j < 2 ^ 20) (hused : t.tableOf dir j ≠ 0)
    (hne : t.entryOf dir j ≠ t.entryOf dir k) : u.wordOf dir j = t.wordOf dir j := by
  have hcells := (h.cells ht.laidOut (isTable_tableOf hk hthere) (index_lt k)).2
  unfold wordOf
  rw [h.entryOf_eq ht hk hthere hj]
  exact hcells _ (isTable_tableOf hj hused) _ (index_lt j) hne

end Filled

end FlatState

end Paging
end WhitexKernel
