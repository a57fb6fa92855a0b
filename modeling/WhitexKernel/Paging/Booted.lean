import WhitexKernel.Paging.KeptByClones

/-!
# Booted — the memory after `initialize_paging_system`

The kernel directory is at address `0`, and its first table in the next frame, where the directory's
own `physical_tables` are.  One more pointer is that of the page fault handler, so that the first
4096 bytes of its code are a table, too.

* `Booted` — what the memory holds then;
* `initializePagingSystem_booted` — initialisation returns, whatever it finds in memory.
-/

namespace WhitexKernel
namespace Paging

open Lib Machine FlatMemory

namespace FlatState

variable {s t u v : FlatState} {dir page : Address} {i j k : Nat}

/-! ## Calls that return -/

theorem getPageEntry_found {address : Address} {make : Bool}
    (h : cell s.memory dir (tableIdx address) ≠ 0) :
    s.getPageEntry address make dir =
      .ok (s, entryAddress (cell s.memory dir (tableIdx address)) (pageIdx address)) :=
  if_pos h

theorem getPageEntry_made {address : Address} (h : cell s.memory dir (tableIdx address) = 0)
    (hk : s.Free k) : ∃ t page, s.getPageEntry address true dir = .ok (t, page) := by
  have hmissing : ¬ word s.memory (tablePointer dir (address.toNat / pageSize / pageEntries)) ≠ 0 :=
    not_not.2 h
  have hfound : word (s.store (tablePointer dir (address.toNat / pageSize / pageEntries))
      s.findFirstFreeFrame).memory (tablePointer dir (address.toNat / pageSize / pageEntries)) ≠
        BitVec.ofNat 32 noFrame := by
    have hread : word (s.store (tablePointer dir (address.toNat / pageSize / pageEntries))
        s.findFirstFreeFrame).memory (tablePointer dir (address.toNat / pageSize / pageEntries)) =
          s.findFirstFreeFrame := word_store_same _ _ _
    rw [hread, hk.address]
    exact frameAddress_ne_noFrame hk.lt
  unfold getPageEntry
  dsimp only
  rw [if_neg hmissing, if_pos rfl, if_neg hfound]
  exact ⟨_, _, rfl⟩

theorem getPageEntry_missing {address : Address} (h : cell s.memory dir (tableIdx address) = 0) :
    s.getPageEntry address false dir = .ok (s, 0) := by
  have hmissing : ¬ word s.memory (tablePointer dir (address.toNat / pageSize / pageEntries)) ≠ 0 :=
    not_not.2 h
  unfold getPageEntry
  dsimp only
  rw [if_neg hmissing]
  rfl

theorem unmapVirtualPage_ok (s : FlatState) (virtualAddr dir : Address) :
    ∃ t, s.unmapVirtualPage virtualAddr dir = .ok t := by
  have hpage : ∃ page, s.getPageEntry virtualAddr false dir = .ok (s, page) := by
    by_cases hused : cell s.memory dir (tableIdx virtualAddr) = 0
    · exact ⟨_, getPageEntry_missing hused⟩
    · exact ⟨_, getPageEntry_found hused⟩
  rcases hpage with ⟨page, hpage⟩
  unfold unmapVirtualPage
  rw [hpage, Outcome.ok_bind]
  dsimp only
  split
  · exact ⟨_, rfl⟩
  · exact ⟨_, rfl⟩

theorem mapVirtualToPhysical_ok {virtualAddr : Address} (physicalAddr : Address)
    (isKernel isWritable : Int) (h : s.getPageEntry virtualAddr true dir = .ok (u, page)) (hne : page ≠ 0) :
    ∃ t, s.mapVirtualToPhysical virtualAddr physicalAddr isKernel isWritable dir = .ok t := by
  unfold mapVirtualToPhysical
  rw [h, Outcome.ok_bind]
  dsimp only
  rw [if_neg hne]
  exact ⟨_, rfl⟩

/-- A store to a block leaves the bytes outside it alone. -/
theorem storeWord_outside {m : Memory} {block x : Address} (h : ¬ Within block pageSize x)
    (hi : i < 1024) (w : BitVec 32) : storeWord m (offset block (4 * i)) w x = m x :=
  write_of_not_within fun hin => h (hin.of_offset (by omega) (by unfold pageSize; omega))

/-! ## The loop -/

/-- The kernel directory before the loop of `initialize_paging_system`, which finds the memory `m`. -/
structure Started (m : Memory) (u : FlatState) : Prop where
  pointers : ∀ j < directoryEntries, cell u.memory 0 j = 0
  marked : ∀ frame, u.marked frame = true ↔ frame = 0
  kept : ∀ x : Address, 3 * pageSize ≤ x.toNat → u.memory x = m x
  kernel : u.kernelPageDirectory = 0

/-- The first table is there, and its first `i` entries are filled. -/
structure Booting (m : Memory) (i : Nat) (u : FlatState) : Prop where
  first : cell u.memory 0 0 = frameAddress 1
  others : ∀ j < directoryEntries, j ≠ 0 → cell u.memory 0 j = 0
  entries : ∀ j < i, j < pageEntries → isPresent (cell u.memory (frameAddress 1) j) ∧
    frameNumber (cell u.memory (frameAddress 1) j) = j
  marked : ∀ frame, u.marked frame = true ↔ frame < i ∨ frame = 0 ∨ frame = 1
  kept : ∀ x : Address, 3 * pageSize ≤ x.toNat → u.memory x = m x
  kernel : u.kernelPageDirectory = 0

theorem laidOut_first {m : Memory} (h : ∀ table, IsTable m [0] table → table = frameAddress 1) :
    LaidOut m [0] where
  aligned := fun dir hdir => by
    rw [List.mem_singleton.1 hdir]
    exact Nat.dvd_zero _
  fits := fun table htable => by
    rw [h table htable]
    decide
  apart := fun dir hdir table htable => by
    rw [h table htable, List.mem_singleton.1 hdir]
    exact (frameAddress_eq_or_apart (by decide) (Nat.dvd_zero _)).resolve_left (by decide)
  tables := fun table other htable hother => .inl (by rw [h table htable, h other hother])

theorem free_of_lowest (hlt : k < 2 ^ 20) (hfree : s.marked k = false)
    (hbelow : ∀ j < k, s.marked j = true) : s.Free k := by
  rcases s.findFirstFreeFrame_cases with ⟨_, hall⟩ | ⟨l, hl, _⟩
  · rw [hall k hlt] at hfree
    cases hfree
  · have hlowest := Bitmap.firstClear_some hl
    rcases Nat.lt_trichotomy l k with hlt | rfl | hgt
    · have hmarked := hbelow l hlt
      rw [hl.not_marked] at hmarked
      cases hmarked
    · exact hl
    · have hmarked : s.marked k = true := hlowest.2.2 k hgt
      rw [hfree] at hmarked
      cases hmarked

/-- The bytes from frame 3 on are in neither of the blocks that are written to. -/
theorem not_within_low {x : Address} (hx : 3 * pageSize ≤ x.toNat) (hk : k < 3) :
    ¬ Within (frameAddress k) pageSize x := by
  intro hin
  have hframe := (within_frameAddress (by omega)).1 hin
  have hlow : 3 ≤ x.toNat / pageSize := (Nat.le_div_iff_mul_le (by decide)).2 hx
  omega

theorem Started.made {m : Memory} (h : Started m u) (hmade : Made u t 0 0 1) : Booting m 0 t := by
  have hnone : ∀ table, ¬ IsTable u.memory [0] table := by
    rintro table ⟨hused, dir, hdir, j, hj, rfl⟩
    rw [List.mem_singleton.1 hdir, h.pointers j hj] at hused
    exact hused rfl
  have hlaid : LaidOut u.memory [0] := laidOut_first fun table htable => absurd htable (hnone table)
  have hroom : RoomFor u.memory [0] 0 0 1 :=
    { directories := by decide
      tables := fun table htable => absurd htable (hnone table)
      pointers := by decide
      entries := fun table htable => absurd htable (hnone table) }
  have hcell := fun j hj => hmade.cell_directory hlaid (List.mem_singleton_self 0) (by decide)
    (by decide) hroom (List.mem_singleton_self 0) (j := j) hj
  -- the word of `physical_tables` goes to the first entry of the table, which is filled next
  refine
    { first := ?_
      others := fun j hj hne => ?_
      entries := fun j hj => absurd hj (Nat.not_lt_zero j)
      marked := fun frame => ?_
      kept := fun x hx => ?_
      kernel := hmade.kernel.trans h.kernel }
  · rw [hcell 0 (by decide), if_pos ⟨rfl, rfl⟩]
  · rw [hcell j hj, if_neg fun hsame => hne hsame.2, h.pointers j hj]
  · rw [marked_mark hmade.bitmap, or_comm]
    have hzero : Bitmap.marked u.physicalMemoryBitmap frame = true ↔ frame = 0 := h.marked frame
    rw [hzero]
    exact ⟨.inr, fun hframe => hframe.resolve_left (Nat.not_lt_zero frame)⟩
  · have hzeroed : ∀ m : Memory, zeroed m (frameAddress 1) (4 * pageEntries) x = m x :=
      fun m => write_of_not_within (not_within_low hx (by decide))
    have htop : ∀ (m : Memory) w, storeWord m (entryAddress (frameAddress 1) 0) w x = m x :=
      fun m w => storeWord_outside (not_within_low hx (by decide)) (by decide) w
    have hbottom : ∀ (m : Memory) w, storeWord m (tablePointer 0 0) w x = m x :=
      fun m w => storeWord_outside (not_within_low (k := 0) hx (by decide)) (by decide) w
    rw [hmade.memory]
    refine (htop _ _).trans ?_
    rw [hzeroed, hbottom]
    exact h.kept x hx

/-- The lookup of round `i` finds the entry in the first table. -/
theorem lookup {m : Memory} (hi : i < 1024) (h : (i = 0 ∧ Started m u) ∨ (0 < i ∧ Booting m i u)) :
    ∃ t, u.getPageEntry (frameAddress i) true 0 = .ok (t, entryAddress (frameAddress 1) i) ∧
      Booting m i t := by
  have htable : tableIdx (frameAddress i) = 0 := by
    rw [tableIdx_frameAddress (by omega)]
    exact Nat.div_eq_of_lt hi
  have hpage : pageIdx (frameAddress i) = i := by
    rw [pageIdx_frameAddress (by omega)]
    exact Nat.mod_eq_of_lt hi
  rcases h with ⟨rfl, hstarted⟩ | ⟨_, hbooting⟩
  · -- in round 0 the table is missing, and frame 1 is the first that is free
    have hmissing : cell u.memory 0 (tableIdx (frameAddress 0)) = 0 := by
      rw [htable]
      exact hstarted.pointers 0 (by decide)
    have hfree : u.Free 1 := by
      refine free_of_lowest (by decide) (Bool.eq_false_iff.2 fun hmarked => ?_) fun j hj => ?_
      · exact absurd ((hstarted.marked 1).1 hmarked) (by decide)
      · exact (hstarted.marked j).2 (by omega)
    rcases getPageEntry_made hmissing hfree with ⟨t, page, ht⟩
    rcases getPageEntry_cases ht with ⟨hused, _⟩ | ⟨_, hmake, _⟩ | ⟨_, _, k, hk, hmade, hpage'⟩
    · exact absurd hmissing hused
    · cases hmake
    · have hone : k = 1 := by
        have hsame := hk.symm.trans hfree
        cases hsame
        rfl
      rw [htable, hone] at hmade
      have hbooting := hstarted.made hmade
      rw [htable, hbooting.first, hpage] at hpage'
      rw [hpage'] at ht
      exact ⟨t, ht, hbooting⟩
  · have hused : cell u.memory 0 (tableIdx (frameAddress i)) ≠ 0 := by
      rw [htable, hbooting.first]
      decide
    refine ⟨u, ?_, hbooting⟩
    rw [getPageEntry_found hused, htable, hbooting.first, hpage]

theorem Booting.filled {m : Memory} (hi : i < 1024) (h : Booting m i t)
    (hfilled : Filled t v (entryAddress (frameAddress 1) i) i) : Booting m (i + 1) v := by
  rcases hfilled.memory with ⟨w, hpresent, hframe, hmemory⟩
  have hapart : Apart (frameAddress 0) pageSize (frameAddress 1) pageSize :=
    (frameAddress_eq_or_apart (by decide) (dvd_frameAddress (by decide))).resolve_left (by decide)
  have hpointer : ∀ j < 1024, cell v.memory 0 j = cell t.memory 0 j := by
    intro j hj
    rw [hmemory]
    exact cell_storeWord_of_apart (n := 1024) (k := 1024) (by decide) (by decide) hapart hj hi w
  refine
    { first := (hpointer 0 (by decide)).trans h.first
      others := fun j hj hne => (hpointer j hj).trans (h.others j hj hne)
      entries := fun j hj hin => ?_
      marked := fun frame => ?_
      kept := fun x hx => ?_
      kernel := hfilled.kernel.trans h.kernel }
  · rw [hmemory]
    by_cases hlast : j = i
    · have hcell : cell (storeWord t.memory (entryAddress (frameAddress 1) i) w) (frameAddress 1) i =
          w := cell_storeWord_same _ _ _ _
      rw [hlast, hcell]
      exact ⟨hpresent, hframe⟩
    · have hcell : cell (storeWord t.memory (entryAddress (frameAddress 1) i) w) (frameAddress 1) j =
          cell t.memory (frameAddress 1) j :=
        cell_storeWord_of_ne (n := 1024) (by decide) hin hi hlast w
      rw [hcell]
      exact h.entries j (by omega) hin
  · have hbefore : Bitmap.marked t.physicalMemoryBitmap frame = true ↔
        frame < i ∨ frame = 0 ∨ frame = 1 := h.marked frame
    rw [marked_mark hfilled.bitmap, hbefore]
    omega
  · rw [hmemory]
    exact (storeWord_outside (not_within_low hx (by decide)) hi w).trans (h.kept x hx)

/-- The loop returns, and has mapped the first 4 MiB to themselves. -/
theorem Started.loop {m : Memory} (h : Started m s) :
    ∃ t, (pagesOf (PagingState.regionPages 0 0x400000)).foldlM (identityRound 0) s = .ok t ∧
      Booting m 1024 t := by
  have hpages : (pagesOf (PagingState.regionPages 0 0x400000)).foldlM (identityRound 0) s =
      (List.range 1024).foldlM (fun s i => identityRound 0 s (frameAddress i)) s := by
    unfold pagesOf PagingState.regionPages
    rw [List.map_map, List.foldlM_map]
    have hcount : (0x400000 - 0) / pageSize = 1024 := rfl
    rw [hcount]
    congr 1
    funext s i
    change identityRound 0 s (BitVec.ofNat 32 (0 + i * pageSize)) = _
    rw [Nat.zero_add]
    rfl
  have hround : ∀ i < 1024, ∀ u, (i = 0 ∧ Started m u) ∨ (0 < i ∧ Booting m i u) →
      ∃ v, identityRound 0 u (frameAddress i) = .ok v ∧
        ((i + 1 = 0 ∧ Started m v) ∨ (0 < i + 1 ∧ Booting m (i + 1) v)) := by
    intro i hi u hu
    rcases lookup hi hu with ⟨t, ht, hbooting⟩
    have hne : entryAddress (frameAddress 1) i ≠ 0 :=
      entryAddress_ne_zero (by decide) (by decide) hi
    have hreturns : ∃ v, u.mapVirtualToPhysical (frameAddress i) (frameAddress i) 1 1 0 = .ok v :=
      mapVirtualToPhysical_ok _ 1 1 ht hne
    rcases hreturns with ⟨v, hv⟩
    rcases mapVirtualToPhysical_cases hv with ⟨t', page, ht', hfilled⟩
    rw [ht] at ht'
    cases ht'
    rw [toNat_frameAddress (by omega), Nat.mul_div_cancel i (by decide)] at hfilled
    exact ⟨v, hv, .inr ⟨Nat.succ_pos i, hbooting.filled hi hfilled⟩⟩
  rcases Outcome.foldlM_range_total (I := fun i u => (i = 0 ∧ Started m u) ∨ (0 < i ∧ Booting m i u))
    (.inl ⟨rfl, h⟩) hround with ⟨t, ht, hend⟩
  refine ⟨t, hpages.trans ht, ?_⟩
  exact (hend.resolve_left fun hzero => absurd hzero.1 (by decide)).2

/-! ## The state after it -/

/-- The state after initialisation with the handler's address, which has found the memory `m`. -/
structure Booted (m : Memory) (handler : Address) (t : FlatState) : Prop where
  first : cell t.memory 0 0 = frameAddress 1
  handler : cell t.memory 0 14 = handler
  others : ∀ j < directoryEntries, j ≠ 0 → j ≠ 14 → cell t.memory 0 j = 0
  entries : ∀ j < pageEntries, isPresent (cell t.memory (frameAddress 1) j) ∧
    frameNumber (cell t.memory (frameAddress 1) j) = j
  marked : ∀ frame, t.marked frame = true ↔ frame < 1024
  kept : ∀ x : Address, 3 * pageSize ≤ x.toNat → t.memory x = m x
  kernel : t.kernelPageDirectory = 0
  current : t.currentPageDirectory = 0

theorem started_newDirectory (hbitmap : s.physicalMemoryBitmap = fun _ => 0#32) :
    Started s.memory { s.newDirectory 0 with kernelPageDirectory := 0 } where
  pointers := fun _ hj => s.cell_newDirectory 0 hj
  marked := fun frame => by
    have hmarks := marked_newDirectory (s := s) (k := 0) (by decide) frame
    have hzero : s.marked frame = false := by
      unfold FlatState.marked
      rw [hbitmap]
      exact Bitmap.marked_zero frame
    rw [hzero] at hmarks
    exact hmarks.trans ⟨fun h => h.resolve_right (by decide), .inl⟩
  kept := fun x hx => by
    refine memory_newDirectory fun hin => ?_
    have hsub : x - 0 = x := BitVec.sub_zero x
    unfold Within directorySize at hin
    unfold pageSize at hx
    rw [hsub] at hin
    omega
  kernel := rfl

/-- Initialisation returns, whatever it finds in memory. -/
theorem initializePagingSystem_booted (s : FlatState) (handler : Address)
    (totalMemoryKb : BitVec 32) : ∃ t, s.initializePagingSystem handler totalMemoryKb = .ok t ∧
      Booted s.memory handler t := by
  unfold initializePagingSystem
  dsimp only
  generalize hempty : FlatState.mk s.memory (fun _ => 0#32) _ _ _ _ = u
  have hbitmap : u.physicalMemoryBitmap = fun _ => 0#32 := by rw [← hempty]
  have hmemory : s.memory = u.memory := by rw [← hempty]
  have hfree : u.Free 0 := by
    refine free_of_lowest (by decide) ?_ fun j hj => absurd hj (Nat.not_lt_zero j)
    unfold marked
    rw [hbitmap]
    exact Bitmap.marked_zero 0
  have hdir : u.findFirstFreeFrame = 0 := hfree.address
  rcases (started_newDirectory hbitmap).loop with ⟨v, hv, hbooting⟩
  -- the directory is at address 0, and so the handler's address goes among its pointers
  rw [hdir, if_neg (by decide), hv, Outcome.ok_bind, hmemory]
  refine ⟨_, rfl, ?_⟩
  have hcell : ∀ j < 1024, cell ((v.registerInterruptHandler 14 handler).switchPageDirectory 0).memory
      0 j = if j = 14 then handler else cell v.memory 0 j := by
    intro j hj
    split
    case isTrue heq =>
      rw [heq]
      exact cell_storeWord_same v.memory 0 14 handler
    case isFalse hne => exact cell_storeWord_of_ne (n := 1024) (by decide) hj (by decide) hne handler
  have hapart : Apart (frameAddress 1) pageSize (frameAddress 0) pageSize :=
    (frameAddress_eq_or_apart (by decide) (dvd_frameAddress (by decide))).resolve_left (by decide)
  exact
    { first := (hcell 0 (by decide)).trans hbooting.first
      handler := hcell 14 (by decide)
      others := fun j hj hne hne' => by rw [hcell j hj, if_neg hne', hbooting.others j hj hne]
      entries := fun j hj => by
        have hkept : cell (storeWord v.memory (offset 0 (4 * 14)) handler) (frameAddress 1) j =
            cell v.memory (frameAddress 1) j :=
          cell_storeWord_of_apart (n := 1024) (k := 1024) (by decide) (by decide) hapart hj (by decide)
            handler
        have hentry := hbooting.entries j hj hj
        rw [← hkept] at hentry
        exact hentry
      marked := fun frame => by
        refine (hbooting.marked frame).trans ?_
        omega
      kept := fun x hx =>
        (storeWord_outside (not_within_low (k := 0) hx (by decide)) (by decide) handler).trans
          (hbooting.kept x hx)
      kernel := hbooting.kernel
      current := rfl }

end FlatState

end Paging
end WhitexKernel
