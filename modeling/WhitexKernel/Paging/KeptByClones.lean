import WhitexKernel.Paging.Kept

/-!
# KeptByClones — what a clone writes

`clone_page_table` writes to frames that were free, and `clone_page_directory` beyond that to the frames
behind the one it has taken for the directory.

* `clonePageTable_cases` — frames that were marked are as they were;
* `Sound.clonePageDirectory` — a clone that finds room keeps the frames of present entries marked.
-/

namespace WhitexKernel
namespace Paging

open Lib Machine FlatMemory

namespace FlatState

variable {s t u v : FlatState} {known : List Address} {dir src page : Address} {i j k : Nat}

/-! ## Tables -/

theorem memory_zero {len : Nat} {x : Address} (h : ¬ Within page len x) :
    (s.zero page len).memory x = s.memory x := by
  change write s.memory page len (fun _ => 0) x = s.memory x
  exact write_of_not_within h

theorem memory_copyPage {x : Address} (h : ¬ Within page pageSize x) :
    (s.copyPage page src).memory x = s.memory x := by
  change write s.memory page pageSize (fun i => s.memory (offset src i)) x = s.memory x
  exact write_of_not_within h

/-- The bytes of a frame. -/
theorem within_frameAddress (hk : k < 2 ^ 20) {x : Address} :
    Within (frameAddress k) pageSize x ↔ x.toNat / pageSize = k := by
  rw [within_iff_div (by decide) (by decide) (dvd_frameAddress hk), toNat_frameAddress hk,
    Nat.mul_div_cancel k (by decide)]

/-- `t` is `s` with the word `w` at `page`. -/
theorem copyField_eq (s : FlatState) {f : EntryField} (h : EntryField.frame.Apart f)
    (dest src : Address) : ∃ w, s.copyField f dest src = s.store dest w ∧
      frameNumber w = frameNumber (word s.memory dest) := by
  refine ⟨_, rfl, ?_⟩
  unfold frameNumber
  rw [BitField.get_set_of_apart h]

/-- The members that are copied leave the frame alone. -/
theorem copyFields_eq (s : FlatState) (dest src : Address) :
    ∃ w, frameNumber w = frameNumber (word s.memory dest) ∧
      ((((s.copyField .present dest src).copyField .rw dest src).copyField .user dest src).copyField
        .accessed dest src).copyField .dirty dest src = s.store dest w := by
  have hword : ∀ (s : FlatState) (w : BitVec 32), word (s.store dest w).memory dest = w :=
    fun s w => word_store_same s.memory dest w
  rcases s.copyField_eq (f := EntryField.present) (.inr (by decide)) dest src with ⟨w₁, h₁, hframe₁⟩
  rcases (s.store dest w₁).copyField_eq (f := EntryField.rw) (.inr (by decide)) dest src with
    ⟨w₂, h₂, hframe₂⟩
  rw [store_store] at h₂
  rcases (s.store dest w₂).copyField_eq (f := EntryField.user) (.inr (by decide)) dest src with
    ⟨w₃, h₃, hframe₃⟩
  rw [store_store] at h₃
  rcases (s.store dest w₃).copyField_eq (f := EntryField.accessed) (.inr (by decide)) dest src with
    ⟨w₄, h₄, hframe₄⟩
  rw [store_store] at h₄
  rcases (s.store dest w₄).copyField_eq (f := EntryField.dirty) (.inr (by decide)) dest src with
    ⟨w₅, h₅, hframe₅⟩
  rw [store_store] at h₅
  rw [hword] at hframe₂ hframe₃ hframe₄ hframe₅
  refine ⟨w₅, ?_, by rw [h₁, h₂, h₃, h₄, h₅]⟩
  rw [hframe₅, hframe₄, hframe₃, hframe₂, hframe₁]

/-- What has become of the copy of a table in the frame `k` before round `i`: frames that were marked
are as they were, and the entries from `i` on are still empty. -/
structure Copying (s u : FlatState) (k i : Nat) : Prop where
  marks : ∀ frame, s.marked frame = true → u.marked frame = true
  taken : u.marked k = true
  kept : ∀ x : Address, s.marked (x.toNat / pageSize) = true → u.memory x = s.memory x
  present : ∀ j < pageEntries, isPresent (cell u.memory (frameAddress k) j) →
    u.marked (frameNumber (cell u.memory (frameAddress k) j)) = true
  empty : ∀ j < pageEntries, i ≤ j → cell u.memory (frameAddress k) j = 0
  kernel : u.kernelPageDirectory = s.kernelPageDirectory
  current : u.currentPageDirectory = s.currentPageDirectory

/-- One entry gets a frame, to which a page is copied. -/
theorem Copying.filled {w : FlatState} {l : Nat} {e e' : BitVec 32} (h : Copying s u k i)
    (hk : k < 2 ^ 20) (hfree : s.marked k = false) (hi : i < pageEntries) (hl : u.Free l)
    (hframe : frameNumber e' = l)
    (hbitmap : w.physicalMemoryBitmap = Bitmap.mark u.physicalMemoryBitmap l)
    (hkernel : w.kernelPageDirectory = u.kernelPageDirectory)
    (hcurrent : w.currentPageDirectory = u.currentPageDirectory)
    (hmemory : w.memory = storeWord u.memory (entryAddress (frameAddress k) i) e) :
    Copying s ((w.store (entryAddress (frameAddress k) i) e').copyPage (frameAddress l) page) k
      (i + 1) := by
  have hmarked := hl.not_marked
  have hother : k ≠ l := by
    rintro rfl
    rw [h.taken] at hmarked
    cases hmarked
  have hmarks : ∀ frame, w.marked frame = true ↔ frame = l ∨ u.marked frame = true :=
    marked_mark hbitmap
  have hstored : (w.store (entryAddress (frameAddress k) i) e').memory =
      storeWord u.memory (entryAddress (frameAddress k) i) e' := by
    have hmemory' := congrArg (fun m => storeWord m (entryAddress (frameAddress k) i) e') hmemory
    refine hmemory'.trans ?_
    unfold storeWord
    rw [write_write_self]
  -- the copy goes to the frame `l`
  have hcopied : ∀ x : Address, x.toNat / pageSize ≠ l →
      ((w.store (entryAddress (frameAddress k) i) e').copyPage (frameAddress l) page).memory x =
        storeWord u.memory (entryAddress (frameAddress k) i) e' x := by
    intro x hx
    rw [← hstored]
    exact memory_copyPage fun hin => hx ((within_frameAddress hl.lt).1 hin)
  have hcell : ∀ j < pageEntries,
      cell ((w.store (entryAddress (frameAddress k) i) e').copyPage (frameAddress l) page).memory
        (frameAddress k) j = if j = i then e' else cell u.memory (frameAddress k) j := by
    intro j hj
    have hblock : cell ((w.store (entryAddress (frameAddress k) i) e').copyPage (frameAddress l)
        page).memory (frameAddress k) j =
          cell (storeWord u.memory (entryAddress (frameAddress k) i) e') (frameAddress k) j :=
      cell_congr (n := 1024) (by decide)
        (fun x hx => hcopied x (by rw [(within_frameAddress hk).1 hx]; exact hother)) hj
    rw [hblock]
    split
    case isTrue heq =>
      rw [heq]
      exact cell_storeWord_same _ _ _ _
    case isFalse hne => exact cell_storeWord_of_ne (n := 1024) (by decide) hj hi hne _
  refine
    { marks := fun frame hframe => (hmarks frame).2 (.inr (h.marks frame hframe))
      taken := (hmarks k).2 (.inr h.taken)
      kept := fun x hx => ?_
      present := fun j hj hpresent => ?_
      empty := fun j hj hle => ?_
      kernel := hkernel.trans h.kernel
      current := hcurrent.trans h.current }
  · have hnot : x.toNat / pageSize ≠ l := by
      intro heq
      rw [heq] at hx
      rw [h.marks l hx] at hmarked
      cases hmarked
    have hout : ¬ Within (entryAddress (frameAddress k) i) 4 x := by
      intro hin
      unfold pageEntries at hi
      have hblock : Within (frameAddress k) pageSize x :=
        hin.of_offset (by omega) (by unfold pageSize; omega)
      rw [(within_frameAddress hk).1 hblock, hfree] at hx
      cases hx
    rw [hcopied x hnot]
    exact (write_of_not_within hout).trans (h.kept x hx)
  · rw [hcell j hj] at hpresent ⊢
    refine (hmarks _).2 ?_
    split
    case isTrue => exact .inl hframe
    case isFalse hne =>
      rw [if_neg hne] at hpresent
      exact .inr (h.present j hj hpresent)
  · rw [hcell j hj, if_neg (by omega)]
    exact h.empty j hj (by omega)

theorem Copying.cloneEntry (h : Copying s u k i) (hk : k < 2 ^ 20) (hfree : s.marked k = false)
    (hi : i < pageEntries) (hround : cloneEntry src (frameAddress k) u i = .ok v) :
    Copying s v k (i + 1) := by
  unfold FlatState.cloneEntry at hround
  split at hround
  case isFalse =>
    cases hround
    exact { h with empty := fun j hj hle => h.empty j hj (by omega) }
  case isTrue =>
    obtain ⟨w, hw, hrest⟩ := Outcome.bind_eq_ok.1 hround
    have hzero : word u.memory (entryAddress (frameAddress k) i) = 0 := h.empty i hi (Nat.le_refl i)
    rcases allocateFrame_cases hw with ⟨hne, _⟩ | ⟨_, l, hl, hfilled⟩
    · rw [hzero] at hne
      exact absurd rfl hne
    · rcases hfilled.memory with ⟨e, _, hframe, hmemory⟩
      rcases w.copyFields_eq (entryAddress (frameAddress k) i) (entryAddress src i) with
        ⟨e', hframe', hcopied⟩
      have hword : word w.memory (entryAddress (frameAddress k) i) = e := by
        rw [hmemory]
        exact word_store_same _ _ _
      rw [hword, hframe] at hframe'
      dsimp only at hrest
      rw [hcopied] at hrest
      have hpage : (w.store (entryAddress (frameAddress k) i) e').pageOf
          (entryAddress (frameAddress k) i) = frameAddress l := by
        have hstored : word (w.store (entryAddress (frameAddress k) i) e').memory
          (entryAddress (frameAddress k) i) = e' := word_store_same _ _ _
        change BitVec.ofNat 32 (frameNumber (word (w.store (entryAddress (frameAddress k) i) e').memory
          (entryAddress (frameAddress k) i)) * pageSize) = _
        rw [hstored, hframe']
        rfl
      rw [hpage] at hrest
      cases hrest
      exact h.filled hk hfree hi hl hframe' hfilled.bitmap hfilled.kernel hfilled.current
        (by rw [hmemory])

/-- A table that is cloned comes to a frame that was free; frames that were marked are as they were. -/
theorem clonePageTable_cases {phys table phys' : Address}
    (h : s.clonePageTable src phys = .ok (t, table, phys')) :
    (t = s ∧ table = 0 ∧ phys' = phys ∧ ∀ frame < 2 ^ 20, s.marked frame = true) ∨
      ∃ k, s.Free k ∧ table = frameAddress k ∧ phys' = frameAddress k ∧
        Copying s t k pageEntries := by
  unfold clonePageTable at h
  dsimp only at h
  rcases s.findFirstFreeFrame_cases with ⟨hnone, hall⟩ | ⟨k, hk, haddress⟩
  · rw [if_pos hnone] at h
    cases h
    exact .inl ⟨rfl, rfl, rfl, hall⟩
  · rw [if_neg (by rw [haddress]; exact frameAddress_ne_noFrame hk.lt), haddress] at h
    obtain ⟨u, hloop, hrest⟩ := Outcome.bind_eq_ok.1 h
    cases hrest
    have hdiv : (frameAddress k).toNat / pageSize = k := by
      rw [toNat_frameAddress hk.lt, Nat.mul_div_cancel k (by decide)]
    have hmarks : ∀ frame, (s.bitmapSetBit (frameAddress k)).marked frame = true ↔
        frame = k ∨ s.marked frame = true :=
      marked_mark (congrArg (Bitmap.mark s.physicalMemoryBitmap) hdiv)
    have hempty : ∀ j < pageEntries, cell ((s.bitmapSetBit (frameAddress k)).zero (frameAddress k)
        (4 * pageEntries)).memory (frameAddress k) j = 0 :=
      fun j hj => cell_zeroed (n := 1024) (by decide) hj
    have hstart : Copying s ((s.bitmapSetBit (frameAddress k)).zero (frameAddress k)
        (4 * pageEntries)) k 0 :=
      { marks := fun frame hframe => (hmarks frame).2 (.inr hframe)
        taken := (hmarks k).2 (.inl rfl)
        kept := by
          intro x hx
          refine memory_zero fun hin => ?_
          rw [(within_frameAddress hk.lt).1 hin, hk.not_marked] at hx
          cases hx
        present := by
          intro j hj hpresent
          rw [hempty j hj] at hpresent
          exact absurd hpresent not_isPresent_zero
        empty := fun j hj _ => hempty j hj
        kernel := rfl
        current := rfl }
    exact .inr ⟨k, hk, rfl, rfl, Outcome.foldlM_range_invariant (I := fun i u => Copying s u k i)
      hstart (fun i hi u v hu hround => hu.cloneEntry hk.lt hk.not_marked hi hround) hloop⟩

/-! ## Directories -/

theorem memory_newDirectory {x : Address} (h : ¬ Within dir directorySize x) :
    (s.newDirectory dir).memory x = s.memory x := by
  have hword : ¬ Within (physicalAddress dir) 4 x := fun hin =>
    h (hin.of_offset (by decide) (by decide))
  change write (s.zero dir directorySize).memory (physicalAddress dir) 4 (byte _) x = s.memory x
  rw [write_of_not_within hword]
  exact memory_zero h

/-- The pointers of a new directory are `NULL`. -/
theorem cell_newDirectory (s : FlatState) (dir : Address) (hj : j < directoryEntries) :
    cell (s.newDirectory dir).memory dir j = 0 := by
  unfold directoryEntries at hj
  have hlast : cell (s.newDirectory dir).memory dir j = cell (s.zero dir directorySize).memory dir j :=
    cell_storeWord_of_ne (n := 2049) (by decide) (by omega) (by decide) (by omega) _
  rw [hlast]
  exact cell_zeroed (n := 2049) (by decide) (by omega)

theorem marked_newDirectory (hk : k < 2 ^ 20) (frame : Nat) :
    (s.newDirectory (frameAddress k)).marked frame = true ↔ frame = k ∨ s.marked frame = true := by
  have hdiv : (frameAddress k).toNat / pageSize = k := by
    rw [toNat_frameAddress hk, Nat.mul_div_cancel k (by decide)]
  exact marked_mark (congrArg (Bitmap.mark s.physicalMemoryBitmap) hdiv) frame

/-- The frames of the directories' pointers and of the tables are marked. -/
structure Held (s : FlatState) (known : List Address) : Prop where
  directories : ∀ dir ∈ known, s.marked (dir.toNat / pageSize) = true
  tables : ∀ table, IsTable s.memory known table → ∀ x : Address, Within table pageSize x →
    s.marked (x.toNat / pageSize) = true

/-- There is room for a directory in the frame `k` and behind it. -/
structure Opened (s : FlatState) (known : List Address) (k : Nat) : Prop where
  laidOut : LaidOut s.memory known
  held : s.Held known
  lt : k < 2 ^ 20
  taken : s.marked k = true
  directories : ∀ dir ∈ known, Apart dir pageSize (frameAddress k) directorySize
  tables : ∀ table, IsTable s.memory known table →
    Apart table pageSize (frameAddress k) directorySize

/-- A table that has been made since `s`; the frames of its present entries are marked. -/
structure Fresh (s u : FlatState) (table : Address) : Prop where
  frame : ∃ l < 2 ^ 20, table = frameAddress l ∧ u.marked l = true ∧ s.marked l = false
  present : ∀ j < pageEntries, isPresent (cell u.memory table j) →
    u.marked (frameNumber (cell u.memory table j)) = true

/-- What a clone keeps that is made in the frame `k` from the state `s` on. -/
structure Cloning (s u : FlatState) (known : List Address) (k : Nat) : Prop where
  marks : ∀ frame, s.marked frame = true → u.marked frame = true
  pointers : SamePointers known s.memory u.memory
  tables : ∀ table, IsTable s.memory known table → ∀ j < pageEntries,
    cell u.memory table j = cell s.memory table j
  copied : ∀ j < directoryEntries, cell u.memory (frameAddress k) j = 0 ∨
    IsTable s.memory known (cell u.memory (frameAddress k) j) ∨
      Fresh s u (cell u.memory (frameAddress k) j)
  kernel : u.kernelPageDirectory = s.kernelPageDirectory
  current : u.currentPageDirectory = s.currentPageDirectory

theorem Cloning.start
    (hempty : ∀ j < directoryEntries, cell s.memory (frameAddress k) j = 0) :
    Cloning s s known k where
  marks := fun _ h => h
  pointers := fun _ _ _ _ => rfl
  tables := fun _ _ _ _ => rfl
  copied := fun j hj => .inl (hempty j hj)
  kernel := rfl
  current := rfl

/-- Nothing is lost while only frames are written to that were not marked. -/
theorem Cloning.kept (h : Cloning s u known k) (hs : s.Opened known k)
    (hmarks : ∀ frame, u.marked frame = true → v.marked frame = true)
    (hkept : ∀ x : Address, u.marked (x.toNat / pageSize) = true → v.memory x = u.memory x)
    (hkernel : v.kernelPageDirectory = u.kernelPageDirectory)
    (hcurrent : v.currentPageDirectory = u.currentPageDirectory) : Cloning s v known k := by
  -- the bytes of a frame that is marked
  have hframe : ∀ l < 2 ^ 20, u.marked l = true → ∀ j < 1024,
      cell v.memory (frameAddress l) j = cell u.memory (frameAddress l) j := by
    intro l hl hmarked j hj
    refine cell_congr (n := 1024) (by decide) (fun x hx => hkept x ?_) hj
    rw [(within_frameAddress hl).1 hx]
    exact hmarked
  refine
    { marks := fun frame hframe => hmarks frame (h.marks frame hframe)
      pointers := fun dir hdir j hj => ?_
      tables := fun table htable j hj => ?_
      copied := fun j hj => ?_
      kernel := hkernel.trans h.kernel
      current := hcurrent.trans h.current }
  · refine Eq.trans (cell_congr (n := 1024) (by decide) (fun x hx => hkept x (h.marks _ ?_)) hj)
      (h.pointers dir hdir j hj)
    rw [(within_iff_div (by decide) (by decide) (hs.laidOut.aligned dir hdir)).1 hx]
    exact hs.held.directories dir hdir
  · exact Eq.trans (cell_congr (n := 1024) (by decide)
      (fun x hx => hkept x (h.marks _ (hs.held.tables table htable x hx))) hj)
        (h.tables table htable j hj)
  · rw [hframe k hs.lt (h.marks k hs.taken) j hj]
    refine (h.copied j hj).imp_right (Or.imp_right fun hfresh => ?_)
    rcases hfresh.frame with ⟨l, hl, htable, hmarked, hnew⟩
    refine ⟨⟨l, hl, htable, hmarks l hmarked, hnew⟩, fun i hi hpresent => ?_⟩
    rw [htable, hframe l hl hmarked i hi, ← htable] at hpresent ⊢
    exact hmarks _ (hfresh.present i hi hpresent)

/-! ### One entry of the new directory -/

/-- The memory after table `i` of the directory in the frame `k` has been set, and its word of
`physical_tables`. -/
def entryStored (m : Memory) (k i : Nat) (table w : BitVec 32) : Memory :=
  storeWord (storeWord m (tablePointer (frameAddress k) i) table) (physicalTable (frameAddress k) i) w

section Stored

variable {m : Memory} {table w : BitVec 32} {e l : Nat}

/-- What is apart from the directory is left alone. -/
theorem entryStored_of_apart {block : Address}
    (h : Apart block pageSize (frameAddress k) directorySize) (hi : i < 1024) (hj : j < 1024) :
    cell (entryStored m k i table w) block j = cell m block j := by
  have hlast := cell_storeWord_of_apart (n := 1024) (k := 2049) (j := 1024 + i)
    (m := storeWord m (tablePointer (frameAddress k) i) table)
    (by decide) (by decide) h hj (by omega) w
  exact hlast.trans (cell_storeWord_of_apart (n := 1024) (k := 2049) (by decide) (by decide) h hj
    (by omega) table)

/-- Of the pointers one is set. -/
theorem entryStored_pointer (hi : i < 1024) (hj : j < 1024) :
    cell (entryStored m k i table w) (frameAddress k) j =
      if j = i then table else cell m (frameAddress k) j := by
  have hlast : cell (entryStored m k i table w) (frameAddress k) j =
      cell (storeWord m (tablePointer (frameAddress k) i) table) (frameAddress k) j :=
    cell_storeWord_of_ne (n := 2049) (by decide) (by omega) (by omega) (by omega) w
  rw [hlast]
  split
  case isTrue heq =>
    rw [heq]
    exact cell_storeWord_same _ _ _ _
  case isFalse hne => exact cell_storeWord_of_ne (n := 1024) (by decide) hj hi hne _

/-- In another frame nothing changes but the word of `physical_tables`, if the frame is the one behind
the directory. -/
theorem entryStored_frame (hk : k < 2 ^ 20) (hl : l < 2 ^ 20) (hne : l ≠ k) (hi : i < 1024)
    (he : e < 1024) : cell (entryStored m k i table w) (frameAddress l) e =
      if frameAddress l = behind (frameAddress k) ∧ e = i then w else cell m (frameAddress l) e := by
  have hother : frameAddress l ≠ frameAddress k := by
    intro heq
    have hnumber := congrArg BitVec.toNat heq
    rw [toNat_frameAddress hl, toNat_frameAddress hk] at hnumber
    exact hne (Nat.eq_of_mul_eq_mul_right (by decide) hnumber)
  have hframe := (frameAddress_eq_or_apart hk (dvd_frameAddress hl)).resolve_left hother
  have hfirst : cell (storeWord m (tablePointer (frameAddress k) i) table) (frameAddress l) e =
      cell m (frameAddress l) e :=
    cell_storeWord_of_apart (n := 1024) (k := 1024) (by decide) (by decide) hframe he hi _
  unfold entryStored
  rw [physicalTable_eq]
  split
  case isTrue hhit =>
    rw [hhit.2, ← hhit.1]
    exact cell_storeWord_same _ _ _ _
  case isFalse hmiss =>
    rw [← hfirst]
    rcases eq_or_apart (by decide) (dvd_frameAddress hl) (dvd_behind (dvd_frameAddress hk)) with
      heq | hapart
    · rw [← heq]
      exact cell_storeWord_of_ne (n := 1024) (by decide) he hi (fun hei => hmiss ⟨heq, hei⟩) _
    · exact cell_storeWord_of_apart (n := 1024) (k := 1024) (by decide) (by decide) hapart he hi _

end Stored

/-- A fresh table stays one, unless it lies behind the directory and the word of `physical_tables` is
present there without its frame being marked. -/
theorem Fresh.stored {table w : BitVec 32} {other : Address} (h : Fresh s u other)
    (hk : k < 2 ^ 20) (htaken : s.marked k = true) (hi : i < 1024)
    (hword : (isPresent w → u.marked (frameNumber w) = true) ∨ other ≠ behind (frameAddress k)) :
    Fresh s ((u.store (tablePointer (frameAddress k) i) table).store
      (physicalTable (frameAddress k) i) w) other := by
  rcases h.frame with ⟨l, hl, rfl, hmarked, hnew⟩
  have hne : l ≠ k := by
    rintro rfl
    rw [htaken] at hnew
    cases hnew
  refine ⟨⟨l, hl, rfl, hmarked, hnew⟩, fun e he hpresent => ?_⟩
  have hcell : cell ((u.store (tablePointer (frameAddress k) i) table).store
      (physicalTable (frameAddress k) i) w).memory (frameAddress l) e =
        if frameAddress l = behind (frameAddress k) ∧ e = i then w
        else cell u.memory (frameAddress l) e := entryStored_frame hk hl hne hi he
  change u.marked (frameNumber (cell ((u.store (tablePointer (frameAddress k) i) table).store
    (physicalTable (frameAddress k) i) w).memory (frameAddress l) e)) = true
  rw [hcell] at hpresent ⊢
  split at hpresent
  case isTrue hhit =>
    rw [if_pos hhit]
    exact (hword.resolve_right fun hout => hout hhit.1) hpresent
  case isFalse hmiss =>
    rw [if_neg hmiss]
    exact h.present e he hpresent

/-- One entry of the directory that is cloned is set. -/
theorem Cloning.store {table w : BitVec 32} (h : Cloning s u known k) (hs : s.Opened known k)
    (hi : i < directoryEntries)
    (htable : table = 0 ∨ IsTable s.memory known table ∨ Fresh s u table)
    (hword : (isPresent w → u.marked (frameNumber w) = true) ∨ ∀ j < directoryEntries,
      cell (storeWord u.memory (tablePointer (frameAddress k) i) table) (frameAddress k) j ≠
        behind (frameAddress k)) :
    Cloning s ((u.store (tablePointer (frameAddress k) i) table).store
      (physicalTable (frameAddress k) i) w) known k := by
  refine
    { marks := h.marks
      pointers := fun dir hdir j hj =>
        (entryStored_of_apart (hs.directories dir hdir) hi hj).trans (h.pointers dir hdir j hj)
      tables := fun other hother j hj =>
        (entryStored_of_apart (hs.tables other hother) hi hj).trans (h.tables other hother j hj)
      copied := fun j hj => ?_
      kernel := h.kernel
      current := h.current }
  have hvalue : cell ((u.store (tablePointer (frameAddress k) i) table).store
      (physicalTable (frameAddress k) i) w).memory (frameAddress k) j =
        if j = i then table else cell u.memory (frameAddress k) j := entryStored_pointer hi hj
  have hpointer : cell (storeWord u.memory (tablePointer (frameAddress k) i) table) (frameAddress k) j =
      if j = i then table else cell u.memory (frameAddress k) j := by
    split
    case isTrue heq =>
      rw [heq]
      exact cell_storeWord_same _ _ _ _
    case isFalse hne => exact cell_storeWord_of_ne (n := 1024) (by decide) hj hi hne _
  have hold : (if j = i then table else cell u.memory (frameAddress k) j) = 0 ∨
      IsTable s.memory known (if j = i then table else cell u.memory (frameAddress k) j) ∨
        Fresh s u (if j = i then table else cell u.memory (frameAddress k) j) := by
    split
    case isTrue => exact htable
    case isFalse => exact h.copied j hj
  rw [hvalue]
  refine hold.imp_right (Or.imp_right fun hfresh => hfresh.stored hs.lt hs.taken hi ?_)
  refine hword.imp_right fun hout => ?_
  rw [← hpointer]
  exact hout j hj

/-- A shared table brings its word of `physical_tables` along.  It can do harm where a table has been
made in the frame behind the new directory: as an entry of that one it is present without its frame
being marked. -/
def CopySound (src newDir : Address) (u : FlatState) (i : Nat) : Prop :=
  cell u.memory src i ≠ 0 → cell u.memory u.kernelPageDirectory i = cell u.memory src i →
    (isPresent (word (storeWord u.memory (tablePointer newDir i) (cell u.memory src i))
        (physicalTable src i)) →
      u.marked (frameNumber (word (storeWord u.memory (tablePointer newDir i) (cell u.memory src i))
        (physicalTable src i))) = true) ∨
    ∀ j < directoryEntries,
      cell (storeWord u.memory (tablePointer newDir i) (cell u.memory src i)) newDir j ≠ behind newDir

theorem Cloning.cloneDirectoryEntry {phys : Address} (h : Cloning s u known k)
    (hs : s.Opened known k) (hsrc : src ∈ known) (hi : i < directoryEntries)
    (hsound : CopySound src (frameAddress k) u i)
    (hround : cloneDirectoryEntry src (frameAddress k) phys u i = .ok v) : Cloning s v known k := by
  unfold FlatState.cloneDirectoryEntry at hround
  dsimp only at hround
  split at hround
  case isTrue =>
    cases hround
    exact h
  case isFalse hused =>
    have htable : IsTable s.memory known (cell u.memory src i) :=
      h.pointers.isTable.1 ⟨hused, src, hsrc, i, hi, rfl⟩
    split at hround
    case isTrue hshared =>
      cases hround
      exact h.store hs hi (.inr (.inl htable)) (hsound hused hshared)
    case isFalse =>
      obtain ⟨⟨w, newTable, phys'⟩, hclone, hrest⟩ := Outcome.bind_eq_ok.1 hround
      cases hrest
      rcases clonePageTable_cases hclone with ⟨rfl, rfl, rfl, hall⟩ | ⟨l, hl, rfl, rfl, hcopy⟩
      · exact h.store hs hi (.inl rfl) (.inl fun _ => hall _ (frameNumber_lt _))
      · have hnew : s.marked l = false := by
          rw [Bool.eq_false_iff]
          intro hmarked
          have hfree := hl.not_marked
          rw [h.marks l hmarked] at hfree
          cases hfree
        have hkept := h.kept hs hcopy.marks hcopy.kept hcopy.kernel hcopy.current
        refine hkept.store hs hi (.inr (.inr ⟨⟨l, hl.lt, rfl, hcopy.taken, hnew⟩, hcopy.present⟩))
          (.inl fun _ => ?_)
        rw [frameNumber_frameAddress hl.lt]
        exact hcopy.taken

/-- There is room for a clone in the frame `k`: nothing in use is where the directory comes to be, nor
in a frame that is free, and the words that it takes over do no harm. -/
structure RoomForClone (s : FlatState) (known : List Address) (src phys : Address) (k : Nat) :
    Prop where
  held : s.Held known
  directories : ∀ dir ∈ known, Apart dir pageSize (frameAddress k) directorySize
  tables : ∀ table, IsTable s.memory known table →
    Apart table pageSize (frameAddress k) directorySize
  image : OutsideImage (frameAddress k) directorySize
  copies : Outcome.AllRounds (cloneDirectoryEntry src (frameAddress k) phys)
    (CopySound src (frameAddress k)) (s.newDirectory (frameAddress k)) (List.range directoryEntries)

/-- What is apart from a new directory is as it was. -/
theorem cell_newDirectory_of_apart {block : Address} (h : Apart block pageSize dir directorySize)
    (hj : j < 1024) : cell (s.newDirectory dir).memory block j = cell s.memory block j :=
  cell_congr (n := 1024) (by decide) (fun x hx => memory_newDirectory (h x hx)) hj

theorem RoomForClone.opened {phys : Address} (h : s.RoomForClone known src phys k)
    (hs : LaidOut s.memory known) (hk : k < 2 ^ 20) :
    (s.newDirectory (frameAddress k)).Opened known k := by
  have hsame : SamePointers known s.memory (s.newDirectory (frameAddress k)).memory :=
    fun dir hdir j hj => cell_newDirectory_of_apart (h.directories dir hdir) hj
  have hmarks := marked_newDirectory (s := s) hk
  exact
    { laidOut := hs.congr hsame
      held :=
        { directories := fun dir hdir => (hmarks _).2 (.inr (h.held.directories dir hdir))
          tables := fun table htable x hx =>
            (hmarks _).2 (.inr (h.held.tables table (hsame.isTable.1 htable) x hx)) }
      lt := hk
      taken := (hmarks k).2 (.inl rfl)
      directories := h.directories
      tables := fun table htable => h.tables table (hsame.isTable.1 htable) }

/-- The tables of a clone are shared with the directories, or fresh. -/
theorem Cloning.isTable {table : Address} (h : Cloning s u known k)
    (htable : IsTable u.memory (frameAddress k :: known) table) :
    IsTable s.memory known table ∨ Fresh s u table := by
  rcases htable with ⟨hused, dir, hdir, j, hj, rfl⟩
  rcases List.mem_cons.1 hdir with rfl | hdir
  · exact (h.copied j hj).resolve_left hused
  · exact .inl (h.pointers.isTable.1 ⟨hused, dir, hdir, j, hj, rfl⟩)

/-- A fresh table is apart from all that has been there. -/
theorem Fresh.apart {table block : Address} (h : Fresh s u table)
    (hblock : ∀ x : Address, Within block pageSize x → s.marked (x.toNat / pageSize) = true) :
    Apart block pageSize table pageSize := by
  rcases h.frame with ⟨l, hl, rfl, _, hnew⟩
  intro x hx hx'
  have hmarked := hblock x hx
  rw [(within_frameAddress hl).1 hx', hnew] at hmarked
  cases hmarked

theorem Cloning.laidOut (h : Cloning s u known k) (hs : s.Opened known k) :
    LaidOut u.memory (frameAddress k :: known) := by
  have hdirectory : ∀ dir ∈ frameAddress k :: known, ∀ x : Address, Within dir pageSize x →
      s.marked (x.toNat / pageSize) = true := by
    intro dir hdir x hx
    rcases List.mem_cons.1 hdir with rfl | hdir
    · rw [(within_frameAddress hs.lt).1 hx]
      exact hs.taken
    · rw [(within_iff_div (by decide) (by decide) (hs.laidOut.aligned dir hdir)).1 hx]
      exact hs.held.directories dir hdir
  refine ⟨fun dir hdir => ?_, fun table htable => ?_, fun dir hdir table htable => ?_,
    fun table other htable hother => ?_⟩
  · rcases List.mem_cons.1 hdir with rfl | hdir
    · exact dvd_frameAddress hs.lt
    · exact hs.laidOut.aligned dir hdir
  · rcases h.isTable htable with hold | hfresh
    · exact hs.laidOut.fits table hold
    · rcases hfresh.frame with ⟨l, hl, rfl, _⟩
      rw [toNat_frameAddress hl]
      unfold pageSize
      omega
  · rcases h.isTable htable with hold | hfresh
    · rcases List.mem_cons.1 hdir with rfl | hdir
      · exact ((hs.tables table hold).mono (Nat.le_refl _) (by decide)).symm
      · exact hs.laidOut.apart dir hdir table hold
    · exact hfresh.apart (hdirectory dir hdir)
  · rcases h.isTable htable with hold | hfresh
    · rcases h.isTable hother with hold' | hfresh'
      · exact hs.laidOut.tables table other hold hold'
      · exact .inr (hfresh'.apart (hs.held.tables table hold))
    · rcases h.isTable hother with hold' | hfresh'
      · exact .inr (hfresh.apart (hs.held.tables other hold')).symm
      · rcases hfresh.frame with ⟨l, hl, rfl, _⟩
        rcases hfresh'.frame with ⟨l', hl', rfl, _⟩
        exact eq_or_apart (by decide) (dvd_frameAddress hl) (dvd_frameAddress hl')

/-- A clone that is made where there is room for it keeps the frames of present entries marked. -/
theorem Sound.clonePageDirectory {phys newDir : Address} (hs : s.Sound known) (hsrc : src ∈ known)
    (hroom : ∀ k, s.Free k → s.RoomForClone known src phys k)
    (h : s.clonePageDirectory src phys = .ok (t, newDir)) :
    t.Sound (if newDir = 0 then known else newDir :: known) := by
  unfold FlatState.clonePageDirectory at h
  dsimp only at h
  rcases s.findFirstFreeFrame_cases with ⟨hnone, _⟩ | ⟨k, hk, haddress⟩
  · rw [if_pos hnone] at h
    cases h
    rw [if_pos rfl]
    exact hs
  · rw [if_neg (by rw [haddress]; exact frameAddress_ne_noFrame hk.lt), haddress] at h
    obtain ⟨u, hloop, hrest⟩ := Outcome.bind_eq_ok.1 h
    cases hrest
    have hroom := hroom k hk
    have hopened := hroom.opened hs.laidOut hk.lt
    have hround : ∀ i ∈ List.range directoryEntries, ∀ u v : FlatState,
        Cloning (s.newDirectory (frameAddress k)) u known k → CopySound src (frameAddress k) u i →
          FlatState.cloneDirectoryEntry src (frameAddress k) phys u i = .ok v →
            Cloning (s.newDirectory (frameAddress k)) v known k := by
      intro i hi u v hu hsound hround
      exact hu.cloneDirectoryEntry hopened hsrc (List.mem_range.1 hi) hsound hround
    have hclone : Cloning (s.newDirectory (frameAddress k)) t known k :=
      hroom.copies.invariant hround (Cloning.start fun j hj => s.cell_newDirectory _ hj) hloop
    have hne : frameAddress k ≠ 0 := by
      intro hzero
      have hmarked := hroom.held.directories 0 hs.zero
      have hfree := hk.not_marked
      have hnumber := congrArg BitVec.toNat hzero
      rw [toNat_frameAddress hk.lt] at hnumber
      have hk0 : k = 0 := by
        unfold pageSize at hnumber
        change k * 4096 = 0 at hnumber
        omega
      rw [hk0] at hfree
      change s.marked 0 = true at hmarked
      rw [hmarked] at hfree
      cases hfree
    rw [if_neg hne]
    have hmarks : ∀ frame, s.marked frame = true → t.marked frame = true :=
      fun frame hmarked => hclone.marks _ ((marked_newDirectory hk.lt _).2 (.inr hmarked))
    refine ⟨hclone.laidOut hopened, fun table htable j hj hpresent => ?_,
      List.mem_cons_of_mem _ hs.zero, fun frame hframe => hmarks _ (hs.image.marked frame hframe),
      List.forall_mem_cons.2 ⟨hroom.image, hs.image.directories⟩⟩
    rcases hclone.isTable htable with hold | hfresh
    · have hbefore : IsTable s.memory known table := by
        refine SamePointers.isTable (fun dir hdir j hj => ?_) |>.1 hold
        exact cell_newDirectory_of_apart (hroom.directories dir hdir) hj
      rw [hclone.tables table hold j hj,
        cell_newDirectory_of_apart (hroom.tables table hbefore) hj] at hpresent ⊢
      exact hmarks _ (hs.marked table hbefore j hj hpresent)
    · exact hfresh.present j hj hpresent

end FlatState

end Paging
end WhitexKernel
