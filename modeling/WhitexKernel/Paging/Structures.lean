import WhitexKernel.Lib.Outcome
import WhitexKernel.Paging.Flat

/-!
# Structures — directories and tables in one memory

A directory is looked at through its pointers, and a table through its entries: blocks of 4096 bytes,
which stores to other blocks leave alone.

* `LaidOut.cell_storeWord` — of the entries only the one changes that is stored;
* `allocateFrame_cases`, `getPageEntry_cases` — what the two functions do to the memory;
* `Made.cell_directory`, `Made.cell_table` — what is where after a table has been made.
-/

namespace WhitexKernel
namespace Paging

open Lib Machine FlatMemory

/-! ## Entries -/

/-- The entry is present. -/
def isPresent (w : BitVec 32) : Prop := EntryField.present.get w ≠ 0

instance (w : BitVec 32) : Decidable (isPresent w) := inferInstanceAs (Decidable (_ ≠ _))

/-- The frame that the entry maps. -/
def frameNumber (w : BitVec 32) : Nat := (EntryField.frame.get w).toNat

theorem frameNumber_lt (w : BitVec 32) : frameNumber w < 2 ^ 20 := (EntryField.frame.get w).isLt

theorem not_isPresent_zero : ¬ isPresent 0#32 := by decide

/-- The address of a frame. -/
def frameAddress (frame : Nat) : Address := BitVec.ofNat 32 (frame * pageSize)

theorem toNat_frameAddress {frame : Nat} (h : frame < 2 ^ 20) :
    (frameAddress frame).toNat = frame * pageSize := by
  unfold frameAddress pageSize
  rw [BitVec.toNat_ofNat, Nat.mod_eq_of_lt (by omega)]

theorem dvd_frameAddress {frame : Nat} (h : frame < 2 ^ 20) : pageSize ∣ (frameAddress frame).toNat := by
  rw [toNat_frameAddress h]
  exact Nat.dvd_mul_left pageSize frame

theorem frameAddress_eq_or_apart {frame : Nat} {a : Address} (h : frame < 2 ^ 20)
    (ha : pageSize ∣ a.toNat) :
    a = frameAddress frame ∨ Apart a pageSize (frameAddress frame) pageSize :=
  eq_or_apart (by decide) ha (dvd_frameAddress h)

/-! ## Blocks -/

/-- `table` is a table of one of the directories `known`. -/
def IsTable (m : Memory) (known : List Address) (table : Address) : Prop :=
  table ≠ 0 ∧ ∃ dir ∈ known, ∃ i < directoryEntries, cell m dir i = table

/-- The pointers of the directories and their tables are blocks that do not overlap. -/
structure LaidOut (m : Memory) (known : List Address) : Prop where
  aligned : ∀ dir ∈ known, pageSize ∣ dir.toNat
  fits : ∀ table, IsTable m known table → table.toNat + pageSize ≤ 2 ^ 32
  apart : ∀ dir ∈ known, ∀ table, IsTable m known table → Apart dir pageSize table pageSize
  tables : ∀ table other, IsTable m known table → IsTable m known other →
    table = other ∨ Apart table pageSize other pageSize

/-- The directories have the same pointers. -/
def SamePointers (known : List Address) (m m' : Memory) : Prop :=
  ∀ dir ∈ known, ∀ i < directoryEntries, cell m' dir i = cell m dir i

section Blocks

variable {m m' : Memory} {known : List Address} {table other : Address} {i j : Nat}

theorem SamePointers.isTable (h : SamePointers known m m') :
    IsTable m' known table ↔ IsTable m known table := by
  refine and_congr_right fun _ => exists_congr fun dir => and_congr_right fun hdir =>
    exists_congr fun i => and_congr_right fun hi => ?_
  rw [h dir hdir i hi]

theorem LaidOut.congr (hm : LaidOut m known) (h : SamePointers known m m') : LaidOut m' known where
  aligned := hm.aligned
  fits := fun table htable => hm.fits table (h.isTable.1 htable)
  apart := fun dir hdir table htable => hm.apart dir hdir table (h.isTable.1 htable)
  tables := fun table other htable hother =>
    hm.tables table other (h.isTable.1 htable) (h.isTable.1 hother)

/-- The entries of a table are at different addresses, none of which is `NULL`. -/
theorem entryAddress_ne_zero (hfits : table.toNat + pageSize ≤ 2 ^ 32) (hne : table ≠ 0)
    (hi : i < pageEntries) : entryAddress table i ≠ 0 := by
  intro hzero
  have hvalue : (entryAddress table i).toNat = 0 := by
    rw [hzero]
    rfl
  have hpos : table.toNat ≠ 0 := fun h => hne (BitVec.eq_of_toNat_eq h)
  unfold entryAddress offset at hvalue
  rw [BitVec.toNat_add, BitVec.toNat_ofNat] at hvalue
  unfold pageSize at hfits
  unfold pageEntries at hi
  omega

/-- The address of an entry is in its table. -/
theorem within_entryAddress (table : Address) (hi : i < pageEntries) :
    Within table pageSize (entryAddress table i) := by
  unfold entryAddress pageEntries pageSize at *
  exact (within_offset (by omega)).2 (by omega)

/-- Storing an entry leaves the pointers of the directories alone. -/
theorem LaidOut.samePointers_storeWord (hm : LaidOut m known) (htable : IsTable m known table)
    (hi : i < pageEntries) (w : BitVec 32) :
    SamePointers known m (storeWord m (entryAddress table i) w) := by
  intro dir hdir j hj
  exact cell_storeWord_of_apart (n := 1024) (k := 1024) (by decide) (by decide)
    (hm.apart dir hdir table htable) hj hi w

/-- Of the entries only the one changes that is stored. -/
theorem LaidOut.cell_storeWord (hm : LaidOut m known) (htable : IsTable m known table)
    (hother : IsTable m known other) (hi : i < pageEntries) (hj : j < pageEntries) (w : BitVec 32) :
    cell (storeWord m (entryAddress table i) w) other j =
      if entryAddress other j = entryAddress table i then w else cell m other j := by
  by_cases hsame : entryAddress other j = entryAddress table i
  · rw [if_pos hsame, ← hsame]
    exact cell_storeWord_same m other j w
  · rw [if_neg hsame]
    rcases hm.tables other table hother htable with rfl | hapart
    · have hne : j ≠ i := fun h => hsame (by rw [h])
      exact cell_storeWord_of_ne (n := 1024) (by decide) hj hi hne w
    · exact cell_storeWord_of_apart (n := 1024) (k := 1024) (by decide) (by decide) hapart hj hi w

end Blocks

namespace FlatState

variable {s t u : FlatState} {page : Address} {k : Nat}

/-! ## Stores -/

theorem store_store (s : FlatState) (p : Address) (v w : BitVec 32) :
    (s.store p v).store p w = s.store p w := by
  unfold store storeWord
  rw [write_write_self]

/-- The frame that `find_first_free_frame` finds. -/
def Free (s : FlatState) (frame : Nat) : Prop :=
  Bitmap.firstClear s.physicalMemoryBitmap bitmapSize = some frame

theorem Free.lt (h : s.Free k) : k < 2 ^ 20 := (Bitmap.firstClear_some h).1

theorem Free.not_marked (h : s.Free k) : s.marked k = false := (Bitmap.firstClear_some h).2.1

theorem Free.address (h : s.Free k) : s.findFirstFreeFrame = frameAddress k := by
  unfold Free at h
  unfold findFirstFreeFrame frameAddress
  rw [h]

/-- No frame has the address that stands for none. -/
theorem frameAddress_ne_noFrame (hk : k < 2 ^ 20) : frameAddress k ≠ BitVec.ofNat 32 noFrame := by
  intro h
  have hvalue := congrArg BitVec.toNat h
  rw [toNat_frameAddress hk] at hvalue
  unfold pageSize noFrame at hvalue
  rw [BitVec.toNat_ofNat] at hvalue
  omega

theorem findFirstFreeFrame_cases (s : FlatState) :
    (s.findFirstFreeFrame = BitVec.ofNat 32 noFrame ∧ ∀ frame < 2 ^ 20, s.marked frame = true) ∨
      ∃ k, s.Free k ∧ s.findFirstFreeFrame = frameAddress k := by
  cases hfound : Bitmap.firstClear s.physicalMemoryBitmap bitmapSize with
  | none =>
      left
      refine ⟨?_, fun frame hframe => Bitmap.firstClear_none hfound hframe⟩
      unfold findFirstFreeFrame
      rw [hfound]
  | some k => exact .inr ⟨k, hfound, Free.address hfound⟩

theorem free_of_ne_noFrame (h : s.findFirstFreeFrame ≠ BitVec.ofNat 32 noFrame) :
    ∃ k, s.Free k ∧ s.findFirstFreeFrame = frameAddress k :=
  s.findFirstFreeFrame_cases.resolve_left fun hnone => h hnone.1

/-- `t` is `s` with the entry at `page` set to a present one for the frame `k`, which is marked. -/
structure Filled (s t : FlatState) (page : Address) (k : Nat) : Prop where
  memory : ∃ w, isPresent w ∧ frameNumber w = k ∧ t.memory = storeWord s.memory page w
  bitmap : t.physicalMemoryBitmap = Bitmap.mark s.physicalMemoryBitmap k
  kernel : t.kernelPageDirectory = s.kernelPageDirectory
  current : t.currentPageDirectory = s.currentPageDirectory

/-- Setting the members one after the other is storing a word. -/
theorem setFields (s : FlatState) (page : Address) (rw : BitVec EntryField.rw.width)
    (user : BitVec EntryField.user.width) (frame : BitVec EntryField.frame.width) :
    ∃ w, isPresent w ∧ frameNumber w = frame.toNat ∧
      (((s.setField .present page 1).setField .rw page rw).setField .user page user).setField .frame
        page frame = s.store page w := by
  have hword : ∀ (s : FlatState) (w : BitVec 32), word (s.store page w).memory page = w :=
    fun s w => word_store_same s.memory page w
  have hset : ∀ (s : FlatState) (f : EntryField) (v : BitVec f.width),
      s.setField f page v = s.store page (f.set (word s.memory page) v) := fun _ _ _ => rfl
  have hrw : EntryField.present.Apart EntryField.rw := .inl (by decide)
  have huser : EntryField.present.Apart EntryField.user := .inl (by decide)
  have hframe : EntryField.present.Apart EntryField.frame := .inl (by decide)
  refine ⟨EntryField.frame.set (EntryField.user.set (EntryField.rw.set
    (EntryField.present.set (word s.memory page) 1) rw) user) frame, ?_, ?_, ?_⟩
  · unfold isPresent
    rw [BitField.get_set_of_apart hframe, BitField.get_set_of_apart huser,
      BitField.get_set_of_apart hrw, BitField.get_set_self]
    decide
  · unfold frameNumber
    rw [BitField.get_set_self]
  · rw [hset, hset, hset, hset, hword, store_store, hword, store_store, hword, store_store]

/-- An entry that has a frame is left alone; otherwise it is filled. -/
theorem allocateFrame_cases {isKernel isWritable : Int}
    (h : s.allocateFrame page isKernel isWritable = .ok t) :
    (frameNumber (word s.memory page) ≠ 0 ∧ t = s) ∨
      (frameNumber (word s.memory page) = 0 ∧ ∃ k, s.Free k ∧ Filled s t page k) := by
  have hfield : s.getField .frame page = 0 ↔ frameNumber (word s.memory page) = 0 := by
    unfold frameNumber getField
    exact BitVec.toNat_inj (y := 0#20) |>.symm
  unfold allocateFrame at h
  split at h
  case isTrue hframe =>
    cases h
    exact .inl ⟨fun hzero => hframe (hfield.2 hzero), rfl⟩
  case isFalse hframe =>
    rw [not_not] at hframe
    dsimp only at h
    split at h
    case isTrue => cases h
    case isFalse hfound =>
      rcases free_of_ne_noFrame hfound with ⟨k, hk, haddress⟩
      have hdiv : (frameAddress k).toNat / pageSize = k := by
        rw [toNat_frameAddress hk.lt, Nat.mul_div_cancel k (by decide)]
      rw [haddress, hdiv] at h
      have hnumber : (BitVec.ofNat EntryField.frame.width k).toNat = k := by
        rw [BitVec.toNat_ofNat]
        exact Nat.mod_eq_of_lt hk.lt
      rcases setFields (s.bitmapSetBit (frameAddress k)) page (flag (isWritable = 1))
        (flag (isKernel ≠ 1)) (BitVec.ofNat EntryField.frame.width k) with ⟨w, hpresent, hframe', hset⟩
      rw [hset] at h
      cases h
      exact .inr ⟨hfield.1 hframe, k, hk, ⟨w, hpresent, hframe'.trans hnumber, rfl⟩,
        congrArg (Bitmap.mark s.physicalMemoryBitmap) hdiv, rfl, rfl⟩

/-! ## Tables -/

/-- The table for an address among those of a directory, and the entry in the table. -/
def tableIdx (address : Address) : Nat := address.toNat / pageSize / pageEntries

def pageIdx (address : Address) : Nat := address.toNat / pageSize % pageEntries

theorem tableIdx_lt (address : Address) : tableIdx address < directoryEntries := by
  have hlt := address.isLt
  unfold tableIdx pageSize pageEntries directoryEntries
  omega

theorem pageIdx_lt (address : Address) : pageIdx address < pageEntries := Nat.mod_lt _ (by decide)

theorem tableIdx_frameAddress (hk : k < 2 ^ 20) : tableIdx (frameAddress k) = k / pageEntries := by
  unfold tableIdx
  rw [toNat_frameAddress hk, Nat.mul_div_cancel k (by decide)]

theorem pageIdx_frameAddress (hk : k < 2 ^ 20) : pageIdx (frameAddress k) = k % pageEntries := by
  unfold pageIdx
  rw [toNat_frameAddress hk, Nat.mul_div_cancel k (by decide)]

/-- `t` is `s` with a table in the frame `k`, as table `index` of a directory. -/
structure Made (s t : FlatState) (dir : Address) (index k : Nat) : Prop where
  memory : t.memory = storeWord (zeroed (storeWord s.memory (tablePointer dir index) (frameAddress k))
    (frameAddress k) (4 * pageEntries)) (physicalTable dir index) (frameAddress k ||| 0x07#32)
  bitmap : t.physicalMemoryBitmap = Bitmap.mark s.physicalMemoryBitmap k
  kernel : t.kernelPageDirectory = s.kernelPageDirectory
  current : t.currentPageDirectory = s.currentPageDirectory

theorem getPageEntry_cases {address dir : Address} {make : Bool}
    (h : s.getPageEntry address make dir = .ok (t, page)) :
    (cell s.memory dir (tableIdx address) ≠ 0 ∧ t = s ∧
        page = entryAddress (cell s.memory dir (tableIdx address)) (pageIdx address)) ∨
      (cell s.memory dir (tableIdx address) = 0 ∧ make = false ∧ t = s ∧ page = 0) ∨
      (cell s.memory dir (tableIdx address) = 0 ∧ make = true ∧ ∃ k, s.Free k ∧
        Made s t dir (tableIdx address) k ∧
          page = entryAddress (cell t.memory dir (tableIdx address)) (pageIdx address)) := by
  unfold getPageEntry at h
  dsimp only at h
  split at h
  case isTrue htable =>
    cases h
    exact .inl ⟨htable, rfl, rfl⟩
  case isFalse htable =>
    have hzero : cell s.memory dir (tableIdx address) = 0 := not_not.1 htable
    split at h
    case isFalse hmake =>
      cases h
      exact .inr (.inl ⟨hzero, Bool.eq_false_iff.2 hmake, rfl, rfl⟩)
    case isTrue hmake =>
      have hread : word (s.store (tablePointer dir (address.toNat / pageSize / pageEntries))
          s.findFirstFreeFrame).memory (tablePointer dir (address.toNat / pageSize / pageEntries)) =
            s.findFirstFreeFrame := word_store_same _ _ _
      have hread' : word ((s.store (tablePointer dir (address.toNat / pageSize / pageEntries))
          s.findFirstFreeFrame).bitmapSetBit s.findFirstFreeFrame).memory
            (tablePointer dir (address.toNat / pageSize / pageEntries)) =
            s.findFirstFreeFrame := hread
      rw [hread, hread'] at h
      split at h
      case isTrue => cases h
      case isFalse hfound =>
        rcases free_of_ne_noFrame hfound with ⟨k, hk, haddress⟩
        have hdiv : (frameAddress k).toNat / pageSize = k := by
          rw [toNat_frameAddress hk.lt, Nat.mul_div_cancel k (by decide)]
        rw [haddress] at h
        cases h
        exact .inr (.inr ⟨hzero, hmake, k, hk,
          ⟨rfl, congrArg (Bitmap.mark s.physicalMemoryBitmap) hdiv, rfl, rfl⟩, rfl⟩)

/-! ### What a table that is made changes -/

/-- The block behind the pointers of a directory, where its `physical_tables` are. -/
def behind (dir : Address) : Address := offset dir pageSize

theorem physicalTable_eq (dir : Address) (index : Nat) :
    physicalTable dir index = entryAddress (behind dir) index := by
  unfold physicalTable entryAddress behind pageSize
  rw [offset_offset]
  congr 1
  omega

theorem dvd_behind {dir : Address} (h : pageSize ∣ dir.toNat) : pageSize ∣ (behind dir).toNat := by
  have hlt := dir.isLt
  unfold behind offset pageSize at *
  rw [BitVec.toNat_add, BitVec.toNat_ofNat]
  omega

/-- In a table that is a frame the word of `physical_tables` is one entry, if it is in it. -/
theorem physicalTable_frameAddress {dir : Address} (hdir : pageSize ∣ dir.toNat) (hk : k < 2 ^ 20)
    {index : Nat} (hindex : index < directoryEntries) :
    Apart (frameAddress k) pageSize (physicalTable dir index) 4 ∨
      ∃ i < pageEntries, physicalTable dir index = entryAddress (frameAddress k) i := by
  rw [physicalTable_eq]
  rcases eq_or_apart (by decide) (dvd_frameAddress hk) (dvd_behind hdir) with heq | hapart
  · exact .inr ⟨index, hindex, by rw [heq]⟩
  · unfold directoryEntries at hindex
    refine .inl (hapart.symm.offset_left ?_ ?_).symm
    · omega
    · unfold pageSize
      omega

/-- The frame `k` has room for table `index` of a directory: nothing is there but perhaps a table that
begins with it, and the word of `physical_tables` is no pointer of a directory, and in a table just one
entry. -/
structure RoomFor (m : Memory) (known : List Address) (dir : Address) (index k : Nat) : Prop where
  directories : frameAddress k ∉ known
  tables : ∀ table, IsTable m known table →
    table = frameAddress k ∨ Apart table pageSize (frameAddress k) pageSize
  pointers : behind dir ∉ known
  entries : ∀ table, IsTable m known table →
    Apart table pageSize (physicalTable dir index) 4 ∨
      ∃ i < pageEntries, physicalTable dir index = entryAddress table i

namespace Made

variable {known : List Address} {dir : Address} {index : Nat}

section Room

variable (h : Made s t dir index k) (hs : LaidOut s.memory known) (hdir : dir ∈ known)
  (hindex : index < directoryEntries) (hk : k < 2 ^ 20)
  (hroom : RoomFor s.memory known dir index k)

include h hs hdir hindex hk hroom

/-- Of the pointers of the directories only the one is set. -/
theorem cell_directory {other : Address} (hother : other ∈ known) {j : Nat}
    (hj : j < directoryEntries) : cell t.memory other j =
      if other = dir ∧ j = index then frameAddress k else cell s.memory other j := by
  have hbehind : Apart other pageSize (behind dir) pageSize := by
    refine (eq_or_apart (by decide) (hs.aligned other hother)
      (dvd_behind (hs.aligned dir hdir))).resolve_left ?_
    rintro rfl
    exact hroom.pointers hother
  have hframe : Apart other pageSize (frameAddress k) pageSize := by
    refine (frameAddress_eq_or_apart hk (hs.aligned other hother)).resolve_left ?_
    rintro rfl
    exact hroom.directories hother
  -- the empty table and the word of `physical_tables` are no pointers
  have hphysical : cell t.memory other j =
      cell (storeWord s.memory (tablePointer dir index) (frameAddress k)) other j := by
    rw [h.memory, physicalTable_eq]
    refine (cell_storeWord_of_apart (n := 1024) (k := 1024) (by decide) (by decide) hbehind hj hindex
      _).trans ?_
    exact cell_write_of_apart (n := 1024) (by decide) hframe hj _
  rw [hphysical]
  by_cases hsame : other = dir ∧ j = index
  · rw [if_pos hsame, hsame.1, hsame.2]
    exact cell_storeWord_same s.memory dir index _
  · rw [if_neg hsame]
    rcases eq_or_apart (by decide) (hs.aligned other hother) (hs.aligned dir hdir) with rfl | hapart
    · exact cell_storeWord_of_ne (n := 1024) (by decide) hj hindex (fun hne => hsame ⟨rfl, hne⟩) _
    · exact cell_storeWord_of_apart (n := 1024) (k := 1024) (by decide) (by decide) hapart hj hindex _

/-- The tables are those from before and the new one. -/
theorem isTable_iff (hmissing : cell s.memory dir index = 0) (hne : frameAddress k ≠ 0)
    {table : Address} : IsTable t.memory known table ↔
      table = frameAddress k ∨ IsTable s.memory known table := by
  have hcell : ∀ other ∈ known, ∀ j < directoryEntries, cell t.memory other j =
      if other = dir ∧ j = index then frameAddress k else cell s.memory other j :=
    fun _ hother _ hj => h.cell_directory hs hdir hindex hk hroom hother hj
  constructor
  · rintro ⟨hused, other, hother, j, hj, rfl⟩
    rw [hcell other hother j hj] at hused ⊢
    split
    · exact .inl rfl
    case isFalse hother' =>
      rw [if_neg hother'] at hused
      exact .inr ⟨hused, other, hother, j, hj, rfl⟩
  · rintro (rfl | ⟨hused, other, hother, j, hj, rfl⟩)
    · exact ⟨hne, dir, hdir, index, hindex, by rw [hcell dir hdir index hindex, if_pos ⟨rfl, rfl⟩]⟩
    · refine ⟨hused, other, hother, j, hj, ?_⟩
      rw [hcell other hother j hj, if_neg]
      rintro ⟨rfl, rfl⟩
      exact hused hmissing

theorem laidOut (hmissing : cell s.memory dir index = 0) (hne : frameAddress k ≠ 0) :
    LaidOut t.memory known := by
  have htable : ∀ table, IsTable t.memory known table ↔
      table = frameAddress k ∨ IsTable s.memory known table :=
    fun _ => h.isTable_iff hs hdir hindex hk hroom hmissing hne
  have hdirectory : ∀ other ∈ known, Apart other pageSize (frameAddress k) pageSize := by
    intro other hother
    refine (frameAddress_eq_or_apart hk (hs.aligned other hother)).resolve_left ?_
    rintro rfl
    exact hroom.directories hother
  refine ⟨hs.aligned, fun table h => ?_, fun other hother table h => ?_, fun table other h h' => ?_⟩
  · rcases (htable table).1 h with rfl | h
    · rw [toNat_frameAddress hk]
      unfold pageSize
      omega
    · exact hs.fits table h
  · rcases (htable table).1 h with rfl | h
    · exact hdirectory other hother
    · exact hs.apart other hother table h
  · rcases (htable table).1 h with rfl | h
    · rcases (htable other).1 h' with rfl | h'
      · exact .inl rfl
      · exact (hroom.tables other h').imp Eq.symm Apart.symm
    · rcases (htable other).1 h' with rfl | h'
      · exact hroom.tables table h
      · exact hs.tables table other h h'

/-- The new table is empty but for the word of `physical_tables`, if that is in it. -/
theorem cell_table (hmissing : cell s.memory dir index = 0) (hne : frameAddress k ≠ 0)
    {table : Address} (htable : IsTable t.memory known table) {i : Nat} (hi : i < pageEntries) :
    cell t.memory table i =
      if entryAddress table i = physicalTable dir index then frameAddress k ||| 0x07#32
      else if table = frameAddress k then 0 else cell s.memory table i := by
  have hplace : Apart table pageSize (physicalTable dir index) 4 ∨
      ∃ j < pageEntries, physicalTable dir index = entryAddress table j := by
    rcases (h.isTable_iff hs hdir hindex hk hroom hmissing hne).1 htable with rfl | hold
    · exact physicalTable_frameAddress (hs.aligned dir hdir) hk hindex
    · exact hroom.entries table hold
  have hbefore : cell (zeroed (storeWord s.memory (tablePointer dir index) (frameAddress k))
      (frameAddress k) (4 * pageEntries)) table i =
        if table = frameAddress k then 0 else cell s.memory table i := by
    rcases (h.isTable_iff hs hdir hindex hk hroom hmissing hne).1 htable with rfl | hold
    · rw [if_pos rfl]
      exact cell_zeroed (n := 1024) (by decide) hi
    · by_cases hsame : table = frameAddress k
      · rw [if_pos hsame, ← hsame]
        exact cell_zeroed (n := 1024) (by decide) hi
      · rw [if_neg hsame]
        refine (cell_write_of_apart (n := 1024) (by decide)
          ((hroom.tables table hold).resolve_left hsame) hi _).trans ?_
        exact cell_storeWord_of_apart (n := 1024) (k := 1024) (by decide) (by decide)
          (hs.apart dir hdir table hold).symm hi hindex _
  -- the word of `physical_tables` is stored last
  rw [h.memory, ← hbefore]
  by_cases hhit : entryAddress table i = physicalTable dir index
  · rw [if_pos hhit, ← hhit]
    exact cell_storeWord_same _ table i _
  · rw [if_neg hhit]
    rcases hplace with hapart | ⟨j, hj, heq⟩
    · refine word_write_of_apart _ (hapart.offset_left ?_ ?_)
      · unfold pageEntries at hi
        omega
      · unfold pageEntries at hi
        unfold pageSize
        omega
    · rw [heq]
      have hne' : i ≠ j := fun hij => hhit (by rw [hij, heq])
      exact cell_storeWord_of_ne (n := 1024) (by decide) hi hj hne' _

end Room

end Made

end FlatState

end Paging
end WhitexKernel
