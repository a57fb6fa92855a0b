import WhitexKernel.Paging.Copying

/-!
# Clone — when `clone_page_directory` makes a faithful clone

When the frames run out at a table, the clone goes without it and is returned all the same; and when
a frame that is taken is one that the source uses, the clone is made over it.

* `FaithfulClone` — what is asked of the clone and of the source;
* `CloningTo` — the invariant of the loop over the tables;
* `faithfulClone_iff` — the clone is faithful exactly when there are frames enough for it.
-/

namespace WhitexKernel
namespace Paging

open Lib Machine

namespace PagingState

variable {s t u v w x : PagingState} {src newDir table newTable phys i j k m n : Nat}

/-! ## What is asked of the clone -/

/-- `x` with the pointer to a table written into the new directory. -/
structure Linked (x v : PagingState) (newDir i newTable : Nat) : Prop where
  bitmap : v.physicalMemoryBitmap = x.physicalMemoryBitmap
  kernel : v.kernelPageDirectory = x.kernelPageDirectory
  entry : ∀ page, v.entry page = x.entry page
  contents : v.contents = x.contents
  others : ∀ dir ≠ newDir, v.directories dir = x.directories dir
  tables : (v.directories newDir).tables = Function.update (x.directories newDir).tables i newTable

theorem linked_setDirectory (x : PagingState) (newDir i newTable : Nat) (physicalTables : Nat → Nat)
    (physicalAddress : Nat) :
    Linked x
      (x.setDirectory newDir
        { tables := Function.update (x.directories newDir).tables i newTable
          physicalTables := physicalTables
          physicalAddress := physicalAddress }) newDir i newTable where
  bitmap := rfl
  kernel := rfl
  entry := fun _ => rfl
  contents := rfl
  others := fun _ hdir => Function.update_of_ne hdir _ _
  tables := congrArg PageDirectory.tables (Function.update_self newDir _ x.directories)

/-- There is no table, or it is shared, or it is copied. -/
theorem cloneDirectoryEntry_cases (h : cloneDirectoryEntry src newDir phys u i = .ok v) :
    ((u.directories src).tables i = 0 ∧ v = u) ∨
      (u.SharedAt src i ∧ Linked u v newDir i ((u.directories src).tables i)) ∨
      u.CopiedAt src i ∧ ∃ x newTable phys',
        u.clonePageTable ((u.directories src).tables i) phys = .ok (x, newTable, phys') ∧
          Linked x v newDir i newTable := by
  unfold cloneDirectoryEntry at h
  by_cases hnull : (u.directories src).tables i = 0
  · rw [if_pos hnull] at h
    cases h
    exact .inl ⟨hnull, rfl⟩
  rw [if_neg hnull] at h
  by_cases hshared : (u.directories u.kernelPageDirectory).tables i = (u.directories src).tables i
  · rw [if_pos hshared] at h
    cases h
    exact .inr (.inl ⟨⟨hnull, hshared⟩, linked_setDirectory u newDir i _ _ _⟩)
  · rw [if_neg hshared] at h
    rcases Outcome.bind_eq_ok.1 h with ⟨⟨x, newTable, phys'⟩, hclone, hrest⟩
    cases hrest
    exact .inr (.inr ⟨⟨hnull, hshared⟩, x, newTable, phys', hclone,
      linked_setDirectory x newDir i _ _ _⟩)

theorem Linked.tables_self (h : Linked x v newDir i newTable) :
    (v.directories newDir).tables i = newTable := by
  rw [h.tables, Function.update_self]

theorem Linked.tables_of_ne (h : Linked x v newDir i newTable) (hne : j ≠ i) :
    (v.directories newDir).tables j = (x.directories newDir).tables j := by
  rw [h.tables, Function.update_of_ne hne]

theorem Linked.marked (h : Linked x v newDir i newTable) (frame : Nat) :
    v.marked frame = x.marked frame := by
  unfold PagingState.marked
  rw [h.bitmap]

theorem EntryCopied.linked (h : EntryCopied s x table newTable m k)
    (hlinked : Linked x v newDir i n) : EntryCopied s v table newTable m k :=
  h.frame (hlinked.entry _) fun frame _ _ => congrFun hlinked.contents frame

theorem EntrySpoilt.congr (h : EntrySpoilt s x src table newTable k)
    (hentry : v.entry { table := newTable, index := k } =
      x.entry { table := newTable, index := k }) : EntrySpoilt s v src table newTable k := by
  refine ⟨h.1, ?_⟩
  rw [hentry]
  exact h.2

/-- What is spoilt stays so. -/
theorem TableSpoilt.congr {frame : Nat} (h : TableSpoilt s x src table frame)
    (hentries : ∀ k, v.entry { table := frame * pageSize, index := k } =
      x.entry { table := frame * pageSize, index := k }) : TableSpoilt s v src table frame := by
  rcases h with huse | ⟨k, hk, hspoilt⟩
  · exact .inl huse
  · exact .inr ⟨k, hk, hspoilt.congr (hentries k)⟩

/-- The clone goes without the table at index `j`, or has a spoilt one. -/
def Spoilt (s v : PagingState) (src newDir j : Nat) : Prop :=
  s.CopiedAt src j ∧
    ((v.directories newDir).tables j = 0 ∨
      ∃ frame, (v.directories newDir).tables j = frame * pageSize ∧ v.marked frame = true ∧
        TableSpoilt s v src ((s.directories src).tables j) frame)

/-- A round for another index leaves it so. -/
theorem Spoilt.round (h : Spoilt s u src newDir j) (hne : j ≠ i)
    (hround : cloneDirectoryEntry src newDir phys u i = .ok v) : Spoilt s v src newDir j := by
  have hkeeps : (v.directories newDir).tables j = (u.directories newDir).tables j ∧ Keeps u v := by
    rcases cloneDirectoryEntry_cases hround with ⟨_, rfl⟩ | ⟨_, hlinked⟩ |
      ⟨_, x, newTable, phys', hclone, hlinked⟩
    · exact ⟨rfl, Keeps.refl v⟩
    · refine ⟨hlinked.tables_of_ne hne, fun frame hframe => ?_, hlinked.kernel,
        fun _ _ => hlinked.entry _⟩
      rw [hlinked.marked]
      exact hframe
    · have hkept := clonePageTable_keeps hclone
      have hsame := (clonePageTable_onlyMarks hclone).1.directories
      refine ⟨?_, fun frame hframe => ?_, hlinked.kernel.trans hkept.kernel,
        fun htable hmarked => (hlinked.entry _).trans (hkept.entry htable hmarked)⟩
      · rw [hlinked.tables_of_ne hne, hsame]
      · rw [hlinked.marked]
        exact hkept.marked frame hframe
  rcases h with ⟨hcopied, hnull | ⟨frame, htable, hmarked, hspoilt⟩⟩
  · exact ⟨hcopied, .inl (hkeeps.1.trans hnull)⟩
  · refine ⟨hcopied, .inr ⟨frame, hkeeps.1.trans htable, hkeeps.2.marked frame hmarked, ?_⟩⟩
    exact hspoilt.congr fun k => hkeeps.2.entry rfl hmarked

/-! ## The loop over the tables -/

/-- The table of the clone at index `j`, begun with the frame that is next when the tables before it
have theirs. -/
def CopiedInto (s u : PagingState) (src newDir j : Nat) : Prop :=
  ∃ frame, (u.directories newDir).tables j = frame * pageSize ∧
    s.Placed frame (1 + s.needBelow src j) ∧
    ∀ k < pageEntries, EntryCopied s u ((s.directories src).tables j) (frame * pageSize)
      (1 + s.needBelow src j) k

/-- The tables below index `i` have been shared or copied. -/
structure CloningTo (s u : PagingState) (src newDir i : Nat) : Prop where
  progress : Progress s u src (1 + s.needBelow src i)
  kernel : u.kernelPageDirectory = s.kernelPageDirectory
  directories : ∀ dir ≠ newDir, u.directories dir = s.directories dir
  shared : ∀ j < i, s.SharedAt src j →
    (u.directories newDir).tables j = (s.directories src).tables j
  copied : ∀ j < i, s.CopiedAt src j → CopiedInto s u src newDir j

/-- A table that has been copied is not written when others are. -/
theorem CopiedInto.grown (h : CopiedInto s u src newDir j) (hcopied : s.CopiedAt src j)
    (hji : j < i) (hgrown : Grown s u x (1 + s.needBelow src i) n)
    (hdirs : (x.directories newDir).tables j = (u.directories newDir).tables j) :
    CopiedInto s x src newDir j := by
  rcases h with ⟨frame, htable, hplaced, hentries⟩
  -- everything that was taken for the table has a rank below those that are taken now
  have hbefore := needBelow_lt hcopied hji
  refine ⟨frame, hdirs.trans htable, hplaced, fun k hk => ?_⟩
  refine (hentries k hk).frame (hgrown.entry_of_placed rfl hplaced (.inl (by omega)))
    fun frame' hpresent hplaced' => hgrown.contents_of_placed hplaced' (.inl ?_)
  have hless := presentBelow_lt hk hpresent
  omega

theorem CopiedInto.linked (h : CopiedInto s x src newDir j) (hlinked : Linked x v newDir i n)
    (hne : j ≠ i) : CopiedInto s v src newDir j := by
  rcases h with ⟨frame, htable, hplaced, hentries⟩
  exact ⟨frame, (hlinked.tables_of_ne hne).trans htable, hplaced,
    fun k hk => (hentries k hk).linked hlinked⟩

namespace CloningTo

/-- The next table has been dealt with: what is left to show is what became of it. -/
theorem next (h : CloningTo s u src newDir i)
    (hprogress : Progress s v src (1 + s.needBelow src (i + 1)))
    (hgrown : Grown s u x (1 + s.needBelow src i) n) (hdirs : x.directories = u.directories)
    (hkernel : x.kernelPageDirectory = u.kernelPageDirectory)
    (hlinked : Linked x v newDir i newTable)
    (hshared : s.SharedAt src i → newTable = (s.directories src).tables i)
    (hcopied : s.CopiedAt src i → CopiedInto s v src newDir i) :
    CloningTo s v src newDir (i + 1) := by
  refine
    { progress := hprogress
      kernel := (hlinked.kernel.trans hkernel).trans h.kernel
      directories := fun dir hdir => ?_
      shared := fun j hj hat => ?_
      copied := fun j hj hat => ?_ }
  · rw [hlinked.others dir hdir, hdirs]
    exact h.directories dir hdir
  -- the entries before keep what they have, the new one gets what the round gives
  · rcases Nat.lt_succ_iff_lt_or_eq.1 hj with hlt | rfl
    · rw [hlinked.tables_of_ne (Nat.ne_of_lt hlt), hdirs]
      exact h.shared j hlt hat
    · rw [hlinked.tables_self]
      exact hshared hat
  · rcases Nat.lt_succ_iff_lt_or_eq.1 hj with hlt | rfl
    · have hkept := (h.copied j hlt hat).grown hat hlt hgrown (by rw [hdirs])
      exact hkept.linked hlinked (Nat.ne_of_lt hlt)
    · exact hcopied hat

/-- A table is copied, or left out, or spoilt. -/
theorem copying (h : CloningTo s u src newDir i) (hi : i < directoryEntries)
    (hat : s.CopiedAt src i) {phys' : Nat}
    (hclone : u.clonePageTable ((s.directories src).tables i) phys = .ok (x, newTable, phys'))
    (hlinked : Linked x v newDir i newTable) :
    CloningTo s v src newDir (i + 1) ∨ Spoilt s v src newDir i ∧ ¬ s.FramesSuffice src := by
  have hneed : 1 + s.needBelow src i + 1 +
      s.presentBelow ((s.directories src).tables i) pageEntries = 1 + s.needBelow src (i + 1) := by
    rw [needBelow_succ_copied hat]
    omega
  have hall : 1 + s.needBelow src (i + 1) ≤ s.framesForClone src :=
    Nat.add_le_add_left (s.needBelow_mono src (Nat.succ_le_of_lt hi)) 1
  have hkept := (clonePageTable_onlyMarks hclone).1
  have htable : SourceTable s src i ((s.directories src).tables i) := ⟨hi, rfl, hat.1⟩
  rcases h.progress.clonePageTable htable hclone with ⟨hnull, hcount⟩ |
    ⟨frame, hframe, hplaced, hmarked, hcopying | ⟨hspoilt, frame', huse, hbetween⟩⟩
  · -- `clone_page_table` has returned `NULL`, which is stored
    right
    refine ⟨⟨hat, .inl (hlinked.tables_self.trans hnull)⟩, fun hsuffice => ?_⟩
    have henough := hsuffice.enough
    omega
  · left
    refine h.next ?_ hcopying.grown hkept.directories (clonePageTable_keeps hclone).kernel hlinked
      (fun hshared => absurd hshared.2 hat.2) fun _ => ?_
    · rw [← hneed]
      exact hcopying.progress.congr hlinked.bitmap hlinked.entry hlinked.contents
    · refine ⟨frame, hlinked.tables_self.trans hframe, hplaced, fun k hk => ?_⟩
      rw [← hframe]
      exact (hcopying.copied k hk).linked hlinked
  · right
    refine ⟨⟨hat, .inr ⟨frame, hlinked.tables_self.trans hframe, ?_, ?_⟩⟩, fun hsuffice => ?_⟩
    · rw [hlinked.marked]
      exact hmarked
    · exact hspoilt.congr fun k => hlinked.entry _
    · exact hsuffice.unused frame' (hbetween.mono (Nat.le_refl 0) (by omega)) huse

theorem round (h : CloningTo s u src newDir i) (hi : i < directoryEntries) (hsrc : src ≠ newDir)
    (hkernel : s.kernelPageDirectory ≠ newDir)
    (hround : cloneDirectoryEntry src newDir phys u i = .ok v) :
    CloningTo s v src newDir (i + 1) ∨ Spoilt s v src newDir i ∧ ¬ s.FramesSuffice src := by
  -- the source and the kernel directory are as they were when the clone began
  have hsource : u.directories src = s.directories src := h.directories src hsrc
  have hkernelDir : u.directories u.kernelPageDirectory = s.directories s.kernelPageDirectory := by
    rw [h.kernel]
    exact h.directories _ hkernel
  have hsharedAt : u.SharedAt src i ↔ s.SharedAt src i := by
    unfold SharedAt
    rw [hkernelDir, hsource]
  have hcopiedAt : u.CopiedAt src i ↔ s.CopiedAt src i := by
    unfold CopiedAt
    rw [hkernelDir, hsource]
  have hprogress := h.progress
  -- no table, a table of the kernel, or a table of its own
  rcases cloneDirectoryEntry_cases hround with ⟨hnull, rfl⟩ | ⟨hat, hlinked⟩ |
    ⟨hat, x, newTable, phys', hclone, hlinked⟩
  · left
    rw [hsource] at hnull
    have hother : ¬ s.CopiedAt src i := fun hat => hat.1 hnull
    refine
      { progress := ?_
        kernel := h.kernel
        directories := h.directories
        shared := fun j hj hat => ?_
        copied := fun j hj hat => ?_ }
    · rw [needBelow_succ_other hother]
      exact hprogress
    · rcases Nat.lt_succ_iff_lt_or_eq.1 hj with hlt | rfl
      · exact h.shared j hlt hat
      · exact absurd hnull hat.1
    · rcases Nat.lt_succ_iff_lt_or_eq.1 hj with hlt | rfl
      · exact h.copied j hlt hat
      · exact absurd hat hother
  · left
    have hother : ¬ s.CopiedAt src i := fun hcopied => hcopied.2 (hsharedAt.1 hat).2
    refine h.next ?_ (Grown.refl s u _) rfl rfl hlinked (fun _ => by rw [hsource])
      fun hcopied => absurd hcopied hother
    rw [needBelow_succ_other hother]
    exact hprogress.congr hlinked.bitmap hlinked.entry hlinked.contents
  · rw [hsource] at hclone
    exact h.copying hi (hcopiedAt.1 hat) hclone hlinked

end CloningTo

/-! ## The clone -/

/-- A present page of a table that has been copied. -/
theorem CopiedInto.page (h : CopiedInto s t src newDir j) (hk : k < pageEntries)
    (hpresent : (s.tables ((s.directories src).tables j) k).present = true) :
    ∃ frame,
      s.Placed frame
        (1 + s.needBelow src j + 1 + s.presentBelow ((s.directories src).tables j) k) ∧
      t.tables ((t.directories newDir).tables j) k =
        { s.tables ((s.directories src).tables j) k with frame := frame } ∧
      t.contents frame = s.contents (s.tables ((s.directories src).tables j) k).frame := by
  rcases h with ⟨start, htable, _, hentries⟩
  rcases (hentries k hk).present hpresent with ⟨frame, hplaced, hentry, hbytes⟩
  rw [htable]
  exact ⟨frame, hplaced, hentry, hbytes⟩

namespace CloningTo

variable (h : CloningTo s t src newDir directoryEntries)

include h

end CloningTo

/-- What the loop over the tables starts from. -/
def emptyClone (s : PagingState) (newDir : Nat) : PagingState :=
  (s.bitmapSetBit newDir).setDirectory newDir
    { PageDirectory.zero with physicalAddress := wrap32 (newDir + 4 * directoryEntries) }

theorem emptyClone_directories {dir : Nat} (hdir : dir ≠ newDir) :
    (s.emptyClone newDir).directories dir = s.directories dir := Function.update_of_ne hdir _ _

/-- The empty directory, in a frame that the source does not use. -/
theorem CloningTo.start (hfound : s.findFirstFreeFrame ≠ noFrame)
    (hunused : ¬ s.InUse src (s.findFirstFreeFrame / pageSize))
    (hnew : newDir = s.findFirstFreeFrame) :
    CloningTo s (s.emptyClone newDir) src newDir 0 where
  progress := by
    refine (Progress.start s src).next hfound hunused ?_ ?_
    · rw [hnew]
      rfl
    · exact ((Grown.refl s s 0).mono (Nat.le_refl 0) (Nat.zero_le 1)).congr (fun _ => rfl) rfl
  kernel := rfl
  directories := fun _ hdir => emptyClone_directories hdir
  shared := fun _ hj => absurd hj (Nat.not_lt_zero _)
  copied := fun _ hj => absurd hj (Nat.not_lt_zero _)

/-- The loop over the tables. -/
theorem CloningTo.loop (h : CloningTo s u src newDir 0) (hsrc : src ≠ newDir)
    (hkernel : s.kernelPageDirectory ≠ newDir)
    (hloop : (List.range directoryEntries).foldlM (cloneDirectoryEntry src newDir phys) u = .ok v) :
    CloningTo s v src newDir directoryEntries ∨
      ∃ j < directoryEntries, Spoilt s v src newDir j ∧ ¬ s.FramesSuffice src := by
  refine Outcome.foldlM_range_invariant (I := fun i x => CloningTo s x src newDir i ∨
    ∃ j < i, Spoilt s x src newDir j ∧ ¬ s.FramesSuffice src) (.inl h)
    (fun i hi x y hx hround => ?_) hloop
  rcases hx with hcloning | ⟨j, hj, hspoilt, hfew⟩
  · rcases hcloning.round hi hsrc hkernel hround with hnext | ⟨hspoilt, hfew⟩
    · exact .inl hnext
    · exact .inr ⟨i, Nat.lt_succ_self i, hspoilt, hfew⟩
  · exact .inr ⟨j, Nat.lt_succ_of_lt hj, hspoilt.round (Nat.ne_of_lt hj) hround, hfew⟩

/-- With no frame left, a table is not copied. -/
theorem clonePageTable_full (hnone : u.findFirstFreeFrame = noFrame) (table phys : Nat) :
    u.clonePageTable table phys = .ok (u, 0, phys) := by
  unfold clonePageTable
  exact if_pos hnone

/-- What the loop keeps when no frame is left. -/
structure Without (s u : PagingState) (src newDir : Nat) : Prop where
  full : u.findFirstFreeFrame = noFrame
  kernel : u.kernelPageDirectory = s.kernelPageDirectory
  directories : ∀ dir ≠ newDir, u.directories dir = s.directories dir
  tables : ∀ j, s.CopiedAt src j → (u.directories newDir).tables j = 0

theorem Without.round (h : Without s u src newDir) (hsrc : src ≠ newDir)
    (hkernel : s.kernelPageDirectory ≠ newDir)
    (hround : cloneDirectoryEntry src newDir phys u i = .ok v) : Without s v src newDir := by
  have hsource : u.directories src = s.directories src := h.directories src hsrc
  have hkernelDir : u.directories u.kernelPageDirectory = s.directories s.kernelPageDirectory := by
    rw [h.kernel]
    exact h.directories _ hkernel
  -- Whatever is written, it is not a table that was to be copied.
  have hlink : ∀ {newTable}, Linked u v newDir i newTable → (s.CopiedAt src i → newTable = 0) →
      Without s v src newDir := by
    intro newTable hlinked hnull
    refine
      { full := (findFirstFreeFrame_congr hlinked.bitmap).trans h.full
        kernel := hlinked.kernel.trans h.kernel
        directories := fun dir hdir => (hlinked.others dir hdir).trans (h.directories dir hdir)
        tables := fun j hat => ?_ }
    by_cases hj : j = i
    · rw [hj] at hat ⊢
      exact hlinked.tables_self.trans (hnull hat)
    · exact (hlinked.tables_of_ne hj).trans (h.tables j hat)
  rcases cloneDirectoryEntry_cases hround with ⟨_, rfl⟩ | ⟨hat, hlinked⟩ |
    ⟨_, x, newTable, phys', hclone, hlinked⟩
  · exact h
  · refine hlink hlinked fun hcopied => ?_
    have hshared := hat.2
    rw [hkernelDir, hsource] at hshared
    exact absurd hshared hcopied.2
  · rw [clonePageTable_full h.full] at hclone
    simp only [Except.ok.injEq, Prod.mk.injEq] at hclone
    rcases hclone with ⟨rfl, rfl, _⟩
    exact hlink hlinked fun _ => rfl

end PagingState

end Paging
end WhitexKernel
