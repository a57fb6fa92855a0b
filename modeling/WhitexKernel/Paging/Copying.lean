import WhitexKernel.Paging.Taking

/-!
# Copying — the tables of a directory that is cloned

`clone_page_directory` takes a frame for the new directory, and for every table that is not shared
with the kernel one for the new table and one for each of its present pages, in this order.  As long
as it takes none that the source uses, the source stays as it is, and what has been copied is not
written again.

* `Progress` — the clone has taken so many frames, none of them one of the source;
* `Copying` — the invariant of the loop of `clone_page_table`;
* `Progress.clonePageTable` — a table is copied, or there is no frame for it, or it is spoilt.
-/

namespace WhitexKernel
namespace Paging

open Lib Machine

namespace PagingState

/-! ## The tables of the source -/

/-- The table at index `i` is one of the kernel directory, too. -/
def SharedAt (s : PagingState) (src i : Nat) : Prop :=
  (s.directories src).tables i ≠ 0 ∧
    (s.directories s.kernelPageDirectory).tables i = (s.directories src).tables i

/-- The table at index `i` is to be copied. -/
def CopiedAt (s : PagingState) (src i : Nat) : Prop :=
  (s.directories src).tables i ≠ 0 ∧
    (s.directories s.kernelPageDirectory).tables i ≠ (s.directories src).tables i

instance (s : PagingState) (src i : Nat) : Decidable (s.CopiedAt src i) := by
  unfold CopiedAt
  infer_instance

/-- The present ones of the first `k` entries of the table. -/
def presentBelow (s : PagingState) (table k : Nat) : Nat :=
  Nat.count (fun j => (s.tables table j).present = true) k

/-- The frames that the clones of the first `i` tables take. -/
def needBelow (s : PagingState) (src : Nat) : Nat → Nat
  | 0 => 0
  | i + 1 =>
      s.needBelow src i +
        if s.CopiedAt src i then 1 + s.presentBelow ((s.directories src).tables i) pageEntries
        else 0

/-- The frames that a clone of the directory takes, its own one included. -/
def framesForClone (s : PagingState) (src : Nat) : Nat := 1 + s.needBelow src directoryEntries

/-- The frames of the source: those of its directory and of that of the kernel, of its tables and of
its present pages. -/
inductive InUse (s : PagingState) (src : Nat) : Nat → Prop
  | directory : InUse s src (src / pageSize)
  | kernel : InUse s src (s.kernelPageDirectory / pageSize)
  | table {i : Nat} (hi : i < directoryEntries) (hused : (s.directories src).tables i ≠ 0) :
      InUse s src ((s.directories src).tables i / pageSize)
  | page {i k : Nat} (hi : i < directoryEntries) (hused : (s.directories src).tables i ≠ 0)
      (hk : k < pageEntries)
      (hpresent : (s.tables ((s.directories src).tables i) k).present = true) :
      InUse s src (s.tables ((s.directories src).tables i) k).frame

/-- There are frames enough for the clone, and the lowest ones, which it takes, are none that the
source uses. -/
structure FramesSuffice (s : PagingState) (src : Nat) : Prop where
  enough : s.framesForClone src ≤ Nat.count s.Free (2 ^ 20)
  unused : ∀ frame, s.Between frame 0 (s.framesForClone src) → ¬ s.InUse src frame

theorem needBelow_mono (s : PagingState) (src : Nat) {i j : Nat} (h : i ≤ j) :
    s.needBelow src i ≤ s.needBelow src j := by
  induction h with
  | refl => exact Nat.le_refl _
  | step _ ih => exact Nat.le_trans ih (Nat.le_add_right _ _)

theorem needBelow_succ_copied {s : PagingState} {src i : Nat} (h : s.CopiedAt src i) :
    s.needBelow src (i + 1) =
      s.needBelow src i + (1 + s.presentBelow ((s.directories src).tables i) pageEntries) := by
  rw [needBelow, if_pos h]

theorem needBelow_succ_other {s : PagingState} {src i : Nat} (h : ¬ s.CopiedAt src i) :
    s.needBelow src (i + 1) = s.needBelow src i := by
  rw [needBelow, if_neg h, Nat.add_zero]

/-- A table that is copied takes its frames before the tables behind it take theirs. -/
theorem needBelow_lt {s : PagingState} {src i j : Nat} (h : s.CopiedAt src i) (hij : i < j) :
    s.needBelow src i + 1 + s.presentBelow ((s.directories src).tables i) pageEntries ≤
      s.needBelow src j := by
  calc
    s.needBelow src i + 1 + s.presentBelow ((s.directories src).tables i) pageEntries
        = s.needBelow src (i + 1) := by rw [needBelow_succ_copied h, Nat.add_assoc]
    _ ≤ s.needBelow src j := s.needBelow_mono src (Nat.succ_le_of_lt hij)

theorem presentBelow_lt {s : PagingState} {table j k : Nat} (hjk : j < k)
    (hpresent : (s.tables table j).present = true) :
    s.presentBelow table j < s.presentBelow table k :=
  Nat.count_strict_mono (p := fun j => (s.tables table j).present = true) hpresent hjk

theorem presentBelow_succ_present {s : PagingState} {table k : Nat}
    (hpresent : (s.tables table k).present = true) :
    s.presentBelow table (k + 1) = s.presentBelow table k + 1 := by
  unfold presentBelow
  rw [Nat.count_succ, if_pos hpresent]

theorem presentBelow_succ_absent {s : PagingState} {table k : Nat}
    (habsent : (s.tables table k).present = false) :
    s.presentBelow table (k + 1) = s.presentBelow table k := by
  unfold presentBelow
  rw [Nat.count_succ, if_neg (Bool.eq_false_iff.1 habsent), Nat.add_zero]

theorem presentBelow_mono (s : PagingState) (table : Nat) {j k : Nat} (h : j ≤ k) :
    s.presentBelow table j ≤ s.presentBelow table k := Nat.count_monotone _ h

/-! ## Frame after frame -/

variable {s t u v w : PagingState} {src table newTable i k m n : Nat}

/-- The table of the source at index `i`. -/
structure SourceTable (s : PagingState) (src i table : Nat) : Prop where
  index : i < directoryEntries
  tables : (s.directories src).tables i = table
  used : table ≠ 0

namespace SourceTable

theorem inUse (h : SourceTable s src i table) {frame : Nat} (htable : table = frame * pageSize) :
    s.InUse src frame := by
  have huse := InUse.table h.index (h.tables ▸ h.used)
  rw [h.tables, htable, Nat.mul_div_cancel frame (by decide)] at huse
  exact huse

theorem page (h : SourceTable s src i table) (hk : k < pageEntries)
    (hpresent : (s.tables table k).present = true) : s.InUse src (s.tables table k).frame := by
  have huse := InUse.page h.index (h.tables ▸ h.used) hk (h.tables ▸ hpresent)
  rw [h.tables] at huse
  exact huse

end SourceTable

/-- The clone has taken its first `m` frames, none of which the source uses. -/
structure Progress (s v : PagingState) (src m : Nat) : Prop where
  taken : Taken s v m
  enough : m ≤ Nat.count s.Free (2 ^ 20)
  unused : ∀ frame, s.Between frame 0 m → ¬ s.InUse src frame
  grown : Grown s s v 0 m

namespace Progress

theorem start (s : PagingState) (src : Nat) : Progress s s src 0 where
  taken := Taken.start s
  enough := Nat.zero_le _
  unused := fun _ hbetween => absurd hbetween.2.2 (Nat.not_lt_zero _)
  grown := Grown.refl s s 0

/-- One more frame is taken. -/
theorem next (h : Progress s v src m) (hfound : v.findFirstFreeFrame ≠ noFrame)
    (hunused : ¬ s.InUse src (v.findFirstFreeFrame / pageSize))
    (hbitmap : w.physicalMemoryBitmap =
      (v.bitmapSetBit v.findFirstFreeFrame).physicalMemoryBitmap)
    (hgrown : Grown s v w 0 (m + 1)) : Progress s w src (m + 1) := by
  have hplaced := h.taken.placed hfound
  refine
    { taken := (h.taken.mark hfound).congr hbitmap
      enough := ?_
      unused := fun frame hbetween => ?_
      grown := (h.grown.mono (Nat.le_refl 0) (Nat.le_succ m)).trans hgrown }
  · calc
      m = Nat.count s.Free (v.findFirstFreeFrame / pageSize) := hplaced.2.symm
      _ < Nat.count s.Free (2 ^ 20) := Nat.count_strict_mono hplaced.1 hplaced.1.1
  · -- a frame of rank `m` is the one that has just been taken
    rcases Nat.lt_succ_iff_lt_or_eq.1 hbetween.2.2 with hbelow | heq
    · exact h.unused frame ⟨hbetween.1, hbetween.2.1, hbelow⟩
    · rw [Placed.unique ⟨hbetween.1, heq⟩ hplaced]
      exact hunused

theorem congr (h : Progress s v src m)
    (hbitmap : w.physicalMemoryBitmap = v.physicalMemoryBitmap)
    (hentries : ∀ page, w.entry page = v.entry page) (hcontents : w.contents = v.contents) :
    Progress s w src m :=
  { taken := h.taken.congr hbitmap
    enough := h.enough
    unused := h.unused
    grown := h.grown.congr hentries hcontents }

/-- The tables of the source are as they were. -/
theorem sourceTable (h : Progress s v src m) (htable : SourceTable s src i table) (k : Nat) :
    v.tables table k = s.tables table k := by
  rcases h.grown.entry ⟨table, k⟩ with hsame | ⟨frame, heq, hbetween⟩
  · exact hsame
  · exact absurd (htable.inUse heq) (h.unused frame hbetween)

/-- So are the bytes of its frames. -/
theorem sourceContents (h : Progress s v src m) {frame : Nat} (huse : s.InUse src frame) :
    v.contents frame = s.contents frame := by
  rcases h.grown.contents frame with hsame | hbetween
  · exact hsame
  · exact absurd huse (h.unused frame hbetween)

end Progress

/-! ## One entry -/

/-- Copying an entry leaves the others. -/
theorem cloneEntry_entry_of_ne (h : cloneEntry table newTable v k = .ok w) {page : EntryRef}
    (hne : page ≠ { table := newTable, index := k }) : w.entry page = v.entry page := by
  unfold cloneEntry at h
  split at h
  · rcases Outcome.bind_eq_ok.1 h with ⟨x, halloc, hrest⟩
    cases hrest
    rw [entry_copyFrame, entry_setEntry, if_neg hne]
    rcases allocateFrame_cases halloc with ⟨_, rfl⟩ | ⟨_, _, rfl⟩
    · rfl
    · rw [entry_withCount, entry_setEntry, if_neg hne]
      rfl
  · cases h
    rfl

theorem cloneEntry_absent (h : cloneEntry table newTable v k = .ok w)
    (habsent : (v.tables table k).present = false) : w = v := by
  unfold cloneEntry at h
  rw [habsent] at h
  cases h
  rfl

/-- What a present entry is copied to when the copy is vacant. -/
structure EntryMade (v w : PagingState) (table newTable k : Nat) : Prop where
  found : v.findFirstFreeFrame ≠ noFrame
  bitmap : w.physicalMemoryBitmap = (v.bitmapSetBit v.findFirstFreeFrame).physicalMemoryBitmap
  entry : w.entry { table := newTable, index := k } =
    { v.tables table k with frame := v.findFirstFreeFrame / pageSize }
  contents : w.contents = Function.update v.contents (v.findFirstFreeFrame / pageSize)
    (v.contents (v.tables table k).frame)

theorem cloneEntry_present (h : cloneEntry table newTable v k = .ok w) (hother : table ≠ newTable)
    (hpresent : (v.tables table k).present = true)
    (hvacant : (v.entry { table := newTable, index := k }).frame = 0) :
    EntryMade v w table newTable k := by
  unfold cloneEntry at h
  rw [if_pos hpresent] at h
  rcases Outcome.bind_eq_ok.1 h with ⟨x, halloc, hrest⟩
  cases hrest
  rcases allocateFrame_cases halloc with ⟨hframe, _⟩ | ⟨_, hfound, rfl⟩
  · exact absurd hvacant hframe
  have hne : (⟨table, k⟩ : EntryRef) ≠ ⟨newTable, k⟩ := fun heq => hother (EntryRef.mk.inj heq).1
  -- what `allocate_frame` leaves: a user page that is not writable, in the frame that was found
  generalize hset : PagingState.setEntry _ _ _ = x at *
  have hnew : x.entry { table := newTable, index := k } =
      { v.entry { table := newTable, index := k } with
        present := true
        rw := (0 : Int) == 1
        user := !((0 : Int) == 1)
        frame := v.findFirstFreeFrame / pageSize } := by
    rw [← hset]
    exact entry_setEntry_self _ _ _
  have hsource : x.tables table k = v.tables table k := by
    have hentry : x.entry ⟨table, k⟩ = v.entry ⟨table, k⟩ := by
      rw [← hset, entry_setEntry, if_neg hne]
      rfl
    exact hentry
  have hframe : (x.tables newTable k).frame = v.findFirstFreeFrame / pageSize :=
    congrArg PageTableEntry.frame hnew
  have hbytes : x.contents = v.contents := by
    rw [← hset]
    rfl
  -- then the bits of the source's entry replace those of `allocate_frame`
  generalize hcopy : PagingState.setEntry _ _ _ = y
  have hcopied : y.entry { table := newTable, index := k } =
      { v.tables table k with frame := v.findFirstFreeFrame / pageSize } := by
    rw [← hcopy, entry_setEntry_self]
    simp only [hsource]
    rw [← hframe]
  have hkept : y.tables table k = v.tables table k := by
    have hentry : y.entry ⟨table, k⟩ = x.entry ⟨table, k⟩ := by
      rw [← hcopy, entry_setEntry, if_neg hne]
      rfl
    exact hentry.trans hsource
  refine
    { found := hfound
      bitmap := ?_
      entry := hcopied
      contents := ?_ }
  · rw [← hcopy, ← hset]
    rfl
  · have hto : (y.tables newTable k).frame = v.findFirstFreeFrame / pageSize :=
      congrArg PageTableEntry.frame hcopied
    have hstored : y.contents = v.contents := by
      rw [← hcopy]
      exact hbytes
    unfold copyFrame
    rw [hto, hkept, hstored]

/-! ## One table -/

/-- The entry `k` of the copy of a table that was begun with the `m`-th frame. -/
structure EntryCopied (s v : PagingState) (table newTable m k : Nat) : Prop where
  present : (s.tables table k).present = true →
    ∃ frame, s.Placed frame (m + 1 + s.presentBelow table k) ∧
      v.entry { table := newTable, index := k } = { s.tables table k with frame := frame } ∧
      v.contents frame = s.contents (s.tables table k).frame
  absent : (s.tables table k).present = false →
    v.entry { table := newTable, index := k } = PageTableEntry.zero

/-- The copy of a present entry was made over a frame of the source. -/
def EntrySpoilt (s v : PagingState) (src table newTable k : Nat) : Prop :=
  (s.tables table k).present = true ∧
    s.InUse src (v.entry { table := newTable, index := k }).frame

theorem EntryCopied.frame (h : EntryCopied s v table newTable m k)
    (hentry : w.entry { table := newTable, index := k } =
      v.entry { table := newTable, index := k })
    (hcontents : ∀ frame, (s.tables table k).present = true →
      s.Placed frame (m + 1 + s.presentBelow table k) → w.contents frame = v.contents frame) :
    EntryCopied s w table newTable m k := by
  refine ⟨fun hpresent => ?_, fun habsent => ?_⟩
  · rcases h.present hpresent with ⟨frame, hplaced, hsame, hbytes⟩
    exact ⟨frame, hplaced, hentry.trans hsame, (hcontents frame hpresent hplaced).trans hbytes⟩
  · exact hentry.trans (h.absent habsent)

/-- The first `k` entries have been copied; `u` is the state before the table was begun. -/
structure Copying (s u v : PagingState) (src table newTable m k : Nat) : Prop where
  progress : Progress s v src (m + 1 + s.presentBelow table k)
  grown : Grown s u v m (m + 1 + s.presentBelow table k)
  copied : ∀ j < k, EntryCopied s v table newTable m j
  vacant : ∀ j ≥ k, v.entry { table := newTable, index := j } = PageTableEntry.zero

namespace Copying

/-- The table of the copy is another one than that of the source. -/
theorem table_ne (h : Copying s u v src table newTable m k) (htable : SourceTable s src i table)
    {frame : Nat} (hnew : newTable = frame * pageSize) (hplaced : s.Placed frame m) :
    table ≠ newTable := by
  intro heq
  have hbetween : s.Between frame m (m + 1 + s.presentBelow table k) := hplaced.between (by omega)
  exact h.progress.unused frame (hbetween.mono (Nat.zero_le m) (Nat.le_refl _))
    (htable.inUse (heq.trans hnew))

/-- An entry that is not present takes no frame, and stays as the table was zeroed. -/
theorem skip (h : Copying s u v src table newTable m k)
    (habsent : (s.tables table k).present = false) :
    Copying s u v src table newTable m (k + 1) := by
  have hbelow := presentBelow_succ_absent habsent
  refine
    { progress := ?_
      grown := ?_
      copied := fun j hj => ?_
      vacant := fun j hj => h.vacant j (Nat.le_of_succ_le hj) }
  · rw [hbelow]
    exact h.progress
  · rw [hbelow]
    exact h.grown
  · rcases Nat.lt_succ_iff_lt_or_eq.1 hj with hlt | rfl
    · exact h.copied j hlt
    · refine ⟨fun hpresent => ?_, fun _ => h.vacant j (Nat.le_refl j)⟩
      rw [habsent] at hpresent
      cases hpresent

/-- Copying an entry changes the table of the copy, which has rank `m`, and the frame that is taken. -/
theorem grown_step (h : Copying s u v src table newTable m k) {frame : Nat}
    (hnew : newTable = frame * pageSize) (hplaced : s.Placed frame m)
    (hround : cloneEntry table newTable v k = .ok w) (hmade : EntryMade v w table newTable k) :
    Grown s v w m (m + 1 + s.presentBelow table k + 1) := by
  refine ⟨fun page => ?_, fun frame' => ?_⟩
  · by_cases hpage : page = ⟨newTable, k⟩
    · right
      refine ⟨frame, ?_, hplaced.between (by omega)⟩
      rw [hpage]
      exact hnew
    · exact .inl (cloneEntry_entry_of_ne hround hpage)
  · by_cases hframe : frame' = v.findFirstFreeFrame / pageSize
    · right
      rw [hframe]
      have hnext := h.progress.taken.placed hmade.found
      exact (hnext.between (Nat.lt_succ_self _)).mono (by omega) (Nat.le_refl _)
    · left
      rw [hmade.contents, Function.update_of_ne hframe]

/-- A present entry is copied when the frame that is taken is none of the source. -/
theorem take (h : Copying s u v src table newTable m k) (htable : SourceTable s src i table)
    (hk : k < pageEntries) {frame : Nat} (hnew : newTable = frame * pageSize)
    (hplaced : s.Placed frame m) (hround : cloneEntry table newTable v k = .ok w)
    (hmade : EntryMade v w table newTable k) (hpresent : (s.tables table k).present = true)
    (hunused : ¬ s.InUse src (v.findFirstFreeFrame / pageSize)) :
    Copying s u w src table newTable m (k + 1) := by
  have hsource := h.progress.sourceTable htable k
  have hnext := h.progress.taken.placed hmade.found
  have hentry := hmade.entry
  rw [hsource] at hentry
  have hgrown := h.grown_step hnew hplaced hround hmade
  have hbelow : m + 1 + s.presentBelow table (k + 1) = m + 1 + s.presentBelow table k + 1 := by
    rw [presentBelow_succ_present hpresent, ← Nat.add_assoc]
  have hother : ∀ j, j ≠ k → w.entry { table := newTable, index := j } =
      v.entry { table := newTable, index := j } := fun j hj =>
    cloneEntry_entry_of_ne hround fun heq => hj (EntryRef.mk.inj heq).2
  refine
    { progress := ?_
      grown := ?_
      copied := fun j hj => ?_
      vacant := fun j hj => ?_ }
  · rw [hbelow]
    exact h.progress.next hmade.found hunused hmade.bitmap
      (hgrown.mono (Nat.zero_le m) (Nat.le_refl _))
  · rw [hbelow]
    exact (h.grown.mono (Nat.le_refl m) (Nat.le_succ _)).trans hgrown
  · rcases Nat.lt_succ_iff_lt_or_eq.1 hj with hlt | rfl
    · -- the frames of the entries before have smaller ranks
      refine (h.copied j hlt).frame (hother j (Nat.ne_of_lt hlt)) fun frame' hyes hframe' => ?_
      have hne : frame' ≠ v.findFirstFreeFrame / pageSize := by
        rintro rfl
        have hrank := hframe'.2.symm.trans hnext.2
        have hless := presentBelow_lt hlt hyes
        omega
      rw [hmade.contents, Function.update_of_ne hne]
    · refine ⟨fun _ => ⟨_, hnext, hentry, ?_⟩, fun habsent => ?_⟩
      · rw [hmade.contents, Function.update_self, hsource]
        exact h.progress.sourceContents (htable.page hk hpresent)
      · rw [hpresent] at habsent
        cases habsent
  · rw [hother j (Nat.ne_of_gt hj)]
    exact h.vacant j (Nat.le_of_succ_le hj)

/-- A round copies its entry, or spoils it. -/
theorem round (h : Copying s u v src table newTable m k) (htable : SourceTable s src i table)
    (hk : k < pageEntries) {frame : Nat} (hnew : newTable = frame * pageSize)
    (hplaced : s.Placed frame m) (hround : cloneEntry table newTable v k = .ok w) :
    Copying s u w src table newTable m (k + 1) ∨
      EntrySpoilt s w src table newTable k ∧
        s.Between (w.entry { table := newTable, index := k }).frame 0
          (m + 1 + s.presentBelow table (k + 1)) := by
  have hsource := h.progress.sourceTable htable k
  cases hpresent : (s.tables table k).present with
  | false =>
      have hsame : w = v := cloneEntry_absent hround (hsource ▸ hpresent)
      subst hsame
      exact .inl (h.skip hpresent)
  | true =>
      have hmade := cloneEntry_present hround (h.table_ne htable hnew hplaced) (hsource ▸ hpresent)
        (congrArg PageTableEntry.frame (h.vacant k (Nat.le_refl k)))
      have hnext := h.progress.taken.placed hmade.found
      have hbelow := presentBelow_succ_present hpresent
      -- the frame found may be one the source still reads from
      by_cases huse : s.InUse src (v.findFirstFreeFrame / pageSize)
      · right
        rw [EntrySpoilt, hmade.entry]
        exact ⟨⟨hpresent, huse⟩, (hnext.between (by omega)).mono (Nat.zero_le _) (Nat.le_refl _)⟩
      · exact .inl (h.take htable hk hnew hplaced hround hmade hpresent huse)

end Copying

/-- What a clone leaves alone whatever frames it takes: marked frames stay marked, and the tables in
them stay as they are. -/
structure Keeps (u v : PagingState) : Prop where
  marked : ∀ frame, u.marked frame = true → v.marked frame = true
  kernel : v.kernelPageDirectory = u.kernelPageDirectory
  entry : ∀ {page : EntryRef} {frame : Nat}, page.table = frame * pageSize →
    u.marked frame = true → v.entry page = u.entry page

theorem Keeps.refl (u : PagingState) : Keeps u u := ⟨fun _ hframe => hframe, rfl, fun _ _ => rfl⟩

theorem cloneEntry_kernelPageDirectory (h : cloneEntry table newTable v k = .ok w) :
    w.kernelPageDirectory = v.kernelPageDirectory := by
  unfold cloneEntry at h
  split at h
  · rcases Outcome.bind_eq_ok.1 h with ⟨x, halloc, hrest⟩
    cases hrest
    rcases allocateFrame_cases halloc with ⟨_, rfl⟩ | ⟨_, _, rfl⟩
    · rfl
    · rfl
  · cases h
    rfl

/-- The table is not copied, or it is copied into the frame that is handed out. -/
theorem clonePageTable_cases {phys phys' : Nat}
    (h : u.clonePageTable table phys = .ok (v, newTable, phys')) :
    (newTable = 0 ∧ v = u ∧ u.findFirstFreeFrame = noFrame) ∨
      newTable = u.findFirstFreeFrame ∧ u.findFirstFreeFrame ≠ noFrame ∧
        (List.range pageEntries).foldlM (cloneEntry table newTable)
          ((u.bitmapSetBit newTable).zeroTable newTable) = .ok v := by
  unfold clonePageTable at h
  by_cases hnone : u.findFirstFreeFrame = noFrame
  · rw [if_pos hnone] at h
    cases h
    exact .inl ⟨rfl, rfl, hnone⟩
  · rw [if_neg hnone] at h
    rcases Outcome.bind_eq_ok.1 h with ⟨x, hloop, hrest⟩
    simp only [Except.ok.injEq, Prod.mk.injEq] at hrest
    rcases hrest with ⟨rfl, rfl, _⟩
    exact .inr ⟨rfl, hnone, hloop⟩

theorem findFirstFreeFrame_eq (h : u.findFirstFreeFrame ≠ noFrame) :
    u.findFirstFreeFrame = u.findFirstFreeFrame / pageSize * pageSize := by
  rcases findFirstFreeFrame_cases u with ⟨hnone, _⟩ | ⟨frame, hframe, _⟩
  · exact absurd hnone h
  · rw [hframe, Nat.mul_div_cancel frame (by decide)]

theorem clonePageTable_keeps {phys phys' : Nat}
    (h : u.clonePageTable table phys = .ok (v, newTable, phys')) : Keeps u v := by
  rcases clonePageTable_cases h with ⟨_, rfl, _⟩ | ⟨hnew, hfound, hloop⟩
  · exact Keeps.refl v
  have hkernel : v.kernelPageDirectory = u.kernelPageDirectory :=
    Outcome.foldlM_invariant (I := fun x => x.kernelPageDirectory = u.kernelPageDirectory)
      (fun _ _ _ _ hx hround => (cloneEntry_kernelPageDirectory hround).trans hx) rfl hloop
  have hentries : ∀ page : EntryRef, page.table ≠ newTable → v.entry page = u.entry page := by
    intro page hpage
    refine Outcome.foldlM_invariant (I := fun x => x.entry page = u.entry page)
      (fun _ _ _ _ hx hround => (cloneEntry_entry_of_ne hround ?_).trans hx) ?_ hloop
    · exact fun heq => hpage (congrArg EntryRef.table heq)
    · rw [entry_zeroTable, if_neg hpage, entry_bitmapSetBit]
  refine ⟨(clonePageTable_onlyMarks h).1.marked, hkernel, fun htable hmarked => ?_⟩
  -- the frame of the new table was not marked
  refine hentries _ fun heq => ?_
  have hfree := not_marked_findFirstFreeFrame hfound
  rw [← hnew, ← heq, htable, Nat.mul_div_cancel _ (by decide), hmarked] at hfree
  cases hfree

/-- A copy that is not faithful: a frame of the source was taken for it, or for one of its pages. -/
def TableSpoilt (s v : PagingState) (src table frame : Nat) : Prop :=
  s.InUse src frame ∨ ∃ k < pageEntries, EntrySpoilt s v src table (frame * pageSize) k

/-- The empty table, in a frame that the source does not use. -/
theorem Progress.copying (hu : Progress s u src m) (hfound : u.findFirstFreeFrame ≠ noFrame)
    (hunused : ¬ s.InUse src (u.findFirstFreeFrame / pageSize))
    (hnew : newTable = u.findFirstFreeFrame) :
    Copying s u ((u.bitmapSetBit newTable).zeroTable newTable) src table newTable m 0 := by
  rw [hnew]
  have hplaced := hu.taken.placed hfound
  have hnone : m + 1 + s.presentBelow table 0 = m + 1 := by
    rw [presentBelow, Nat.count_zero, Nat.add_zero]
  have hgrown : Grown s u
      ((u.bitmapSetBit u.findFirstFreeFrame).zeroTable u.findFirstFreeFrame) m (m + 1) := by
    refine ⟨fun page => ?_, fun frame => .inl rfl⟩
    -- only the page of the new table has changed
    by_cases hpage : page.table = u.findFirstFreeFrame
    · right
      exact ⟨_, hpage.trans (findFirstFreeFrame_eq hfound), hplaced.between (Nat.lt_succ_self m)⟩
    · left
      rw [entry_zeroTable, if_neg hpage, entry_bitmapSetBit]
  refine
    { progress := ?_
      grown := ?_
      copied := fun j hj => absurd hj (Nat.not_lt_zero j)
      vacant := fun j _ => ?_ }
  · rw [hnone]
    exact hu.next hfound hunused rfl (hgrown.mono (Nat.zero_le m) (Nat.le_refl _))
  · rw [hnone]
    exact hgrown
  · rw [entry_zeroTable, if_pos rfl]

/-- The loop over the entries of a table. -/
theorem Copying.loop (h : Copying s u v src table newTable m 0) (htable : SourceTable s src i table)
    {frame : Nat} (hnew : newTable = frame * pageSize) (hplaced : s.Placed frame m)
    (hloop : (List.range pageEntries).foldlM (cloneEntry table newTable) v = .ok w) :
    Copying s u w src table newTable m pageEntries ∨
      ∃ k < pageEntries, EntrySpoilt s w src table newTable k ∧
        s.Between (w.entry { table := newTable, index := k }).frame 0
          (m + 1 + s.presentBelow table pageEntries) := by
  refine Outcome.foldlM_range_invariant (I := fun n x => Copying s u x src table newTable m n ∨
    ∃ k < n, EntrySpoilt s x src table newTable k ∧
      s.Between (x.entry { table := newTable, index := k }).frame 0
        (m + 1 + s.presentBelow table pageEntries)) (.inl h) (fun n hn x y hx hround => ?_) hloop
  rcases hx with hcopying | ⟨k, hk, hspoilt, hbetween⟩
  · rcases hcopying.round htable hn hnew hplaced hround with hnext | ⟨hspoilt, hbetween⟩
    · exact .inl hnext
    · have hmono : s.presentBelow table (n + 1) ≤ s.presentBelow table pageEntries :=
        s.presentBelow_mono table (Nat.succ_le_of_lt hn)
      right
      exact ⟨n, Nat.lt_succ_self n, hspoilt, hbetween.mono (Nat.le_refl 0) (by omega)⟩
  · -- what is spoilt stays so: every entry is written once
    have hkept : y.entry { table := newTable, index := k } =
        x.entry { table := newTable, index := k } := by
      refine cloneEntry_entry_of_ne hround fun heq => ?_
      have hindex := (EntryRef.mk.inj heq).2
      omega
    right
    refine ⟨k, Nat.lt_succ_of_lt hk, ⟨hspoilt.1, ?_⟩, ?_⟩
    · rw [hkept]
      exact hspoilt.2
    · rw [hkept]
      exact hbetween

/-- What becomes of a table of the source. -/
theorem Progress.clonePageTable (hu : Progress s u src m) (htable : SourceTable s src i table)
    {phys phys' : Nat} (h : u.clonePageTable table phys = .ok (v, newTable, phys')) :
    (newTable = 0 ∧ Nat.count s.Free (2 ^ 20) ≤ m) ∨
      ∃ frame, newTable = frame * pageSize ∧ s.Placed frame m ∧ v.marked frame = true ∧
        (Copying s u v src table newTable m pageEntries ∨
          TableSpoilt s v src table frame ∧ ∃ frame', s.InUse src frame' ∧
            s.Between frame' 0 (m + 1 + s.presentBelow table pageEntries)) := by
  rcases clonePageTable_cases h with ⟨hnull, rfl, hnone⟩ | ⟨hnew, hfound, hloop⟩
  · exact .inl ⟨hnull, hu.taken.count_le hnone⟩
  have hplaced := hu.taken.placed hfound
  have haddress : newTable = u.findFirstFreeFrame / pageSize * pageSize :=
    hnew.trans (findFirstFreeFrame_eq hfound)
  -- the loop over the entries never clears a bit
  have hmarked : v.marked (u.findFirstFreeFrame / pageSize) = true := by
    refine Outcome.foldlM_invariant
      (I := fun x => x.marked (u.findFirstFreeFrame / pageSize) = true)
      (fun _ _ _ _ hx hround => (cloneEntry_onlyMarks hround).marked _ hx) ?_ hloop
    rw [marked_zeroTable, marked_bitmapSetBit, hnew]
    exact .inl rfl
  refine .inr ⟨_, haddress, hplaced, hmarked, ?_⟩
  by_cases huse : s.InUse src (u.findFirstFreeFrame / pageSize)
  · right
    exact ⟨.inl huse, _, huse, (hplaced.between (by omega)).mono (Nat.zero_le m) (Nat.le_refl _)⟩
  rcases (hu.copying hfound huse hnew).loop htable haddress hplaced hloop with
    hcopied | ⟨k, hk, hspoilt, hbetween⟩
  · exact .inl hcopied
  · right
    refine ⟨.inr ⟨k, hk, ?_⟩, _, hspoilt.2, hbetween⟩
    rw [← haddress]
    exact hspoilt

end PagingState

end Paging
end WhitexKernel
