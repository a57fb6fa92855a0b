import WhitexKernel.Heap.Runs

/-!
# Walk — the walks over the headers end

`whitex_malloc` and `get_free_ram` find the next header behind the block of the last one.  `Links`
says which blocks they come by.  Unlike in a `Chain`, the last block may run over the end of the
heap: a walk ends there as well.  What breaks a walk is a block reused at a smaller size, which
turns what its last client left there into a header, and a block so large that the offset behind it
wraps around.
-/

namespace WhitexKernel
namespace Heap

open Lib Machine

/-! ## Linked blocks -/

/-- The offset behind the blocks `bs` that start at an offset. -/
def after : Nat → List BlockHeader → Nat
  | o, [] => o
  | o, b :: bs => after (o + sizeofBlockHeader + b.size) bs

/-- The headers from `o` on are those of `bs`; the size of each lies in the heap, and no offset
wraps. -/
def Links (m : Memory) : Nat → List BlockHeader → Prop
  | _, [] => True
  | o, b :: bs =>
      readHeader m o = b ∧ 1 ≤ b.size ∧ o + 4 ≤ heapSize ∧
        o + sizeofBlockHeader + b.size < 2 ^ 32 ∧ Links m (o + sizeofBlockHeader + b.size) bs

/-- A walk that comes to `e` ends there: no header is left, or one whose size is zero. -/
structure EndsAt (m : Memory) (e : Nat) : Prop where
  apart : e + 4 ≤ heapSize ∨ heapSize ≤ e
  zero : ∀ i, e ≤ i → i < heapSize → i ≠ e + 4 → m i = 0

variable {m m' : Memory} {o : Nat} {b b' : BlockHeader} {bs xs ys : List BlockHeader}

theorem after_append (o : Nat) (xs ys : List BlockHeader) :
    after o (xs ++ ys) = after (after o xs) ys := by
  induction xs generalizing o with
  | nil => rfl
  | cons b xs ih => exact ih _

theorem le_after (o : Nat) (bs : List BlockHeader) : o ≤ after o bs := by
  induction bs generalizing o with
  | nil => exact Nat.le_refl o
  | cons b bs ih =>
      calc o ≤ o + sizeofBlockHeader + b.size := by omega
        _ ≤ after o (b :: bs) := ih _

/-- Links of a concatenation: both parts. -/
theorem links_append : Links m o (xs ++ ys) ↔ Links m o xs ∧ Links m (after o xs) ys := by
  induction xs generalizing o with
  | nil => simp [Links, after]
  | cons b xs ih =>
      simp only [List.cons_append, Links, after]
      rw [ih]
      simp only [and_assoc]

/-- Blocks depend on the bytes between their ends only. -/
theorem Links.congr (h : Links m o bs) (hm : ∀ i, o ≤ i → i < after o bs → m' i = m i) :
    Links m' o bs := by
  induction bs generalizing o with
  | nil => trivial
  | cons b bs ih =>
      obtain ⟨hhead, hsize, hin, hnext, hrest⟩ := h
      have hle : o + sizeofBlockHeader + b.size ≤ after o (b :: bs) := le_after _ bs
      refine ⟨?_, hsize, hin, hnext, ih hrest fun i hi hlt => hm i (by omega) hlt⟩
      rw [readHeader_congr fun i hi hlt => hm i hi (by omega)]
      exact hhead

/-- One block takes the place of another of its size. -/
theorem Links.replace (h : Links m o (xs ++ b :: ys)) (hsize : b'.size = b.size)
    (hhead : readHeader m' (after o xs) = b') (hbefore : ∀ i, i < after o xs → m' i = m i)
    (hbehind : ∀ i, after o xs + sizeofBlockHeader + b.size ≤ i → m' i = m i) :
    Links m' o (xs ++ b' :: ys) := by
  obtain ⟨hxs, _, hpos, hin, hnext, hys⟩ := links_append.1 h
  rw [← hsize] at hpos hnext hys hbehind
  exact links_append.2 ⟨hxs.congr fun i _ hlt => hbefore i hlt,
    hhead, hpos, hin, hnext, hys.congr fun i hi _ => hbehind i hi⟩

/-- A block is put behind the last one. -/
theorem Links.append (h : Links m o bs) (hsize : 1 ≤ b.size) (hin : after o bs + 4 ≤ heapSize)
    (hnext : after o bs + sizeofBlockHeader + b.size < 2 ^ 32)
    (hhead : readHeader m' (after o bs) = b) (hbefore : ∀ i, i < after o bs → m' i = m i) :
    Links m' o (bs ++ [b]) :=
  links_append.2 ⟨h.congr fun i _ hlt => hbefore i hlt, hhead, hsize, hin, hnext, trivial⟩

/-- Every block takes up room in the heap. -/
theorem Links.length_le (h : Links m o bs) : bs = [] ∨ o + bs.length ≤ heapSize := by
  induction bs generalizing o with
  | nil => exact .inl rfl
  | cons b bs ih =>
      obtain ⟨_, hsize, hin, _, hrest⟩ := h
      refine .inr ?_
      rcases ih hrest with rfl | hlen
      · simp only [List.length_singleton]
        omega
      · simp only [List.length_cons]
        omega

theorem Links.length_lt_walkFuel (h : Links m o bs) : bs.length < walkFuel := by
  unfold walkFuel
  rcases h.length_le with rfl | hlen
  · exact Nat.succ_pos _
  · omega

theorem nextOffset_of_links (h : Links m o (b :: bs)) :
    nextOffset m o = o + sizeofBlockHeader + b.size := by
  obtain ⟨hhead, _, _, hnext, _⟩ := h
  unfold nextOffset
  rw [hhead, wrap32_of_lt (by omega)]
  omega

theorem EndsAt.congr {e : Nat} (h : EndsAt m e) (hm : ∀ i, e ≤ i → i ≠ e + 4 → m' i = m i) :
    EndsAt m' e :=
  ⟨h.apart, fun i hi hlt hne => (hm i hi hne).trans (h.zero i hi hlt hne)⟩

theorem EndsAt.readHeader_size {e : Nat} (h : EndsAt m e) (hlt : e < heapSize) :
    (readHeader m e).size = 0 := by
  have hin : e + 4 ≤ heapSize := h.apart.resolve_right (by omega)
  have hzero : ∀ k, k < 4 → m (e + k) = 0 :=
    fun k hk => h.zero _ (by omega) (by omega) (by omega)
  simp only [readHeader]
  rw [show m e = 0 from hzero 0 (by decide), hzero 1 (by decide), hzero 2 (by decide),
    hzero 3 (by decide)]
  rfl

/-! ## The walks -/

/-- Where the loop of `whitex_malloc` comes to on linked blocks: behind them, where it leaves the
heap or finds the header whose size is zero, or at a free block that is large enough. -/
theorem Links.mallocLoop_cases (h : Links m o bs) (hend : EndsAt m (after o bs)) {fuel : Nat}
    (hfuel : bs.length < fuel) (size : Nat) :
    (mallocLoop m size fuel o = some none ∧ heapSize ≤ after o bs) ∨
    (mallocLoop m size fuel o = some (some (after o bs)) ∧ after o bs + 4 ≤ heapSize) ∨
    ∃ xs b ys, bs = xs ++ b :: ys ∧ b.status = blockFree ∧
      mallocLoop m size fuel o = some (some (after o xs)) := by
  induction bs generalizing o fuel with
  | nil =>
      obtain ⟨fuel, rfl⟩ : ∃ k, fuel = k + 1 := ⟨fuel - 1, by omega⟩
      by_cases hlt : o < heapSize
      · have hzero : (readHeader m o).size = 0 := hend.readHeader_size hlt
        have hserves : (readHeader m o).serves size = true := by
          simp [BlockHeader.serves, hzero]
        exact .inr (.inl ⟨mallocLoop_of_serves fuel hlt rfl hserves,
          hend.apart.resolve_right (Nat.not_le_of_lt hlt)⟩)
      · refine .inl ⟨?_, Nat.le_of_not_lt hlt⟩
        unfold mallocLoop
        exact if_neg hlt
  | cons b bs ih =>
      obtain ⟨fuel, rfl⟩ : ∃ k, fuel = k + 1 := ⟨fuel - 1, by omega⟩
      obtain ⟨hhead, hsize, hin, hnext, hrest⟩ := h
      have hlt : o < heapSize := by omega
      by_cases hserves : b.serves size = true
      · -- the first header serves; its size is not zero, so it is free
        have hfree : b.status = blockFree := by
          simp only [BlockHeader.serves, Bool.or_eq_true, Bool.and_eq_true, beq_iff_eq,
            decide_eq_true_eq] at hserves
          exact (hserves.resolve_left (by omega)).1
        exact .inr (.inr ⟨[], b, bs, rfl, hfree, mallocLoop_of_serves fuel hlt hhead hserves⟩)
      · rw [mallocLoop_of_not_serves fuel hlt hhead (Bool.eq_false_iff.2 hserves) hnext]
        have hlen : bs.length < fuel := by
          simp only [List.length_cons] at hfuel
          omega
        rcases ih hrest hend hlen with hnone | hlast | ⟨xs, b', ys, hbs, hfree, hloop⟩
        · exact .inl hnone
        · exact .inr (.inl hlast)
        · exact .inr (.inr ⟨b :: xs, b', ys, by rw [hbs]; rfl, hfree, hloop⟩)

/-- `free_ram` after the header of a block. -/
def subUsed (freeRam : Nat) (b : BlockHeader) : Nat :=
  if b.status = blockUsed then sub32 freeRam (wrap32 (b.size + sizeofBlockHeader)) else freeRam

theorem Links.freeRamLoop_eq (h : Links m o bs) (hend : EndsAt m (after o bs)) {fuel : Nat}
    (hfuel : bs.length < fuel) (freeRam : Nat) :
    freeRamLoop m fuel freeRam o = some (bs.foldl subUsed freeRam) := by
  induction bs generalizing o fuel freeRam with
  | nil =>
      obtain ⟨fuel, rfl⟩ : ∃ k, fuel = k + 1 := ⟨fuel - 1, by omega⟩
      unfold freeRamLoop
      split
      case isTrue hlt => exact if_pos (hend.readHeader_size hlt)
      case isFalse => rfl
  | cons b bs ih =>
      obtain ⟨fuel, rfl⟩ : ∃ k, fuel = k + 1 := ⟨fuel - 1, by omega⟩
      have hoffset := nextOffset_of_links h
      obtain ⟨hhead, hsize, hin, _, hrest⟩ := h
      have hlen : bs.length < fuel := by
        simp only [List.length_cons] at hfuel
        omega
      unfold freeRamLoop
      rw [if_pos (by omega), hhead, hoffset]
      dsimp only
      rw [if_neg (by omega), ih hrest hend hlen]
      rfl

/-- The offsets that a walk of `get_free_ram` comes to.  A walk of `whitex_malloc` comes to the
first of them. -/
inductive WalkOffset (m : Memory) : Nat → Prop
  | start : WalkOffset m 0
  | next {o : Nat} : WalkOffset m o → o < heapSize → (readHeader m o).size ≠ 0 →
      WalkOffset m (nextOffset m o)

theorem walkOffset_of_mem_headersRead {size fuel p : Nat} (ho : WalkOffset m o)
    (hp : p ∈ headersRead m size fuel o) : WalkOffset m p := by
  induction fuel generalizing o with
  | zero => cases hp
  | succ fuel ih =>
      unfold headersRead at hp
      split at hp
      case isFalse => cases hp
      case isTrue hlt =>
        rcases List.mem_cons.1 hp with rfl | hp
        · exact ho
        · split at hp
          · cases hp
          case isFalse hserves =>
            refine ih (.next ho hlt fun hzero => hserves ?_) hp
            simp [BlockHeader.serves, hzero]

/-- A walk over linked blocks is at one of them or behind them all. -/
theorem Links.walkOffset {p : Nat} (h : Links m 0 bs) (hend : EndsAt m (after 0 bs))
    (hp : WalkOffset m p) : ∃ ys, Links m p ys ∧ after p ys = after 0 bs := by
  induction hp with
  | start => exact ⟨bs, h, rfl⟩
  | @next p _ hlt hsize ih =>
      obtain ⟨ys, hys, hafter⟩ := ih
      cases ys with
      | nil =>
          -- behind the last block there is nothing to go on from
          rw [← hafter] at hend
          exact absurd (hend.readHeader_size hlt) hsize
      | cons b ys =>
          rw [nextOffset_of_links hys]
          exact ⟨ys, hys.2.2.2.2, hafter⟩

/-- Every walk ends, and the offset strictly increases until it does. -/
structure WalksEnd (m : Memory) : Prop where
  malloc : ∀ size, (whitexMalloc m size).isSome
  mallocIncreases : ∀ size fuel, ∀ o ∈ headersRead m size fuel 0,
    (readHeader m o).serves size = false → o < nextOffset m o
  freeRam : (getFreeRam m).isSome
  freeRamIncreases : ∀ o, WalkOffset m o → o < heapSize → (readHeader m o).size ≠ 0 →
    o < nextOffset m o

theorem lt_of_mem_headersRead {size fuel p : Nat} (hp : p ∈ headersRead m size fuel o) :
    p < heapSize := by
  induction fuel generalizing o with
  | zero => cases hp
  | succ fuel ih =>
      unfold headersRead at hp
      split at hp
      case isFalse => cases hp
      case isTrue hlt =>
        rcases List.mem_cons.1 hp with rfl | hp
        · exact hlt
        · split at hp
          · cases hp
          · exact ih hp

theorem Links.walksEnd (h : Links m 0 bs) (hend : EndsAt m (after 0 bs)) : WalksEnd m := by
  -- each walk moves by a header and a size, and a size of zero is only at the end
  have hincreases : ∀ p, WalkOffset m p → p < heapSize → (readHeader m p).size ≠ 0 →
      p < nextOffset m p := by
    intro p hp hlt hsize
    obtain ⟨ys, hys, hafter⟩ := h.walkOffset hend hp
    cases ys with
    | nil =>
        rw [← hafter] at hend
        exact absurd (hend.readHeader_size hlt) hsize
    | cons b ys =>
        rw [nextOffset_of_links hys]
        unfold sizeofBlockHeader
        omega
  refine
    { malloc := fun size => ?_
      mallocIncreases := fun size fuel p hp hserves => ?_
      freeRam := ?_
      freeRamIncreases := hincreases }
  -- whichever way the search ends, it ends within the fuel
  · unfold whitexMalloc
    rcases h.mallocLoop_cases hend h.length_lt_walkFuel size with ⟨hloop, _⟩ | ⟨hloop, _⟩ |
      ⟨_, _, _, _, _, hloop⟩
    · rw [hloop]
      rfl
    · rw [hloop]
      rfl
    · rw [hloop]
      rfl
  -- a header that serves a request has a size, so it is not the end
  · refine hincreases p (walkOffset_of_mem_headersRead .start hp) (lt_of_mem_headersRead hp) ?_
    intro hzero
    simp [BlockHeader.serves, hzero] at hserves
  · unfold getFreeRam
    rw [h.freeRamLoop_eq hend h.length_lt_walkFuel]
    rfl

/-! ## Calls on linked blocks -/

/-- The memory is linked blocks with the end of the walks behind them. -/
structure Linked (m : Memory) (bs : List BlockHeader) : Prop where
  links : Links m 0 bs
  ends : EndsAt m (after 0 bs)

/-- A change inside one block of the list that keeps its size. -/
theorem Linked.replace (h : Linked m (xs ++ b :: ys)) (hsize : b'.size = b.size)
    (hhead : readHeader m' (after 0 xs) = b') (hbefore : ∀ i, i < after 0 xs → m' i = m i)
    (hbehind : ∀ i, after 0 xs + sizeofBlockHeader + b.size ≤ i → m' i = m i) :
    Linked m' (xs ++ b' :: ys) := by
  have hafter : after 0 (xs ++ b' :: ys) = after 0 (xs ++ b :: ys) := by
    rw [after_append, after_append, after, after, hsize]
  refine ⟨h.links.replace hsize hhead hbefore hbehind, ?_⟩
  rw [hafter]
  refine h.ends.congr fun i hi _ => hbehind i (le_trans ?_ hi)
  rw [after_append]
  exact le_after _ ys

/-- A store into the data of a block. -/
theorem Linked.write (h : Linked m (xs ++ b :: ys)) {i : Nat}
    (hlow : after 0 xs + sizeofBlockHeader ≤ i)
    (hhigh : i < after 0 xs + sizeofBlockHeader + b.size) (v : UInt8) :
    Linked (Function.update m i v) (xs ++ b :: ys) := by
  refine h.replace rfl ?_ (fun j hj => Function.update_of_ne (by omega) _ _)
    fun j hj => Function.update_of_ne (by omega) _ _
  rw [readHeader_congr fun j _ hj => Function.update_of_ne (by omega) _ _]
  exact (links_append.1 h.links).2.1

theorem writeStatus_of_ne {i : Nat} (hne : i ≠ o + 4) (status : UInt8) :
    writeStatus m o status i = m i := if_neg hne

theorem whitexFree_some (m : Memory) (o : Nat) :
    whitexFree m (some (o + sizeofBlockHeader)) = writeStatus m o blockFree := rfl

/-- A block is freed. -/
theorem Linked.free (h : Linked m (xs ++ b :: ys)) :
    Linked (whitexFree m (some (after 0 xs + sizeofBlockHeader)))
      (xs ++ { b with status := blockFree } :: ys) := by
  rw [whitexFree_some]
  refine h.replace rfl ?_ (fun i hi => writeStatus_of_ne (by omega) _)
    fun i hi => writeStatus_of_ne (by unfold sizeofBlockHeader at hi; omega) _
  rw [readHeader_writeStatus, (links_append.1 h.links).2.1]

/-- A block is used again at its size. -/
theorem Linked.reuse (h : Linked m (xs ++ b :: ys)) :
    Linked (writeHeader m (after 0 xs) { size := b.size, status := blockUsed })
      (xs ++ { size := b.size, status := blockUsed } :: ys) := by
  have hnext := (links_append.1 h.links).2.2.2.2.1
  refine h.replace rfl (readHeader_writeHeader m _ (by simp only; omega))
    (fun i hi => writeHeader_of_lt m _ hi) fun i hi => writeHeader_of_le m _ (by omega)

/-- A block is put behind the last one, whose end the walks find. -/
theorem Linked.append (h : Linked m bs) {size : Nat} (hsize : 1 ≤ size)
    (hin : after 0 bs + 4 ≤ heapSize)
    (hnext : after 0 bs + sizeofBlockHeader + size < 2 ^ 32)
    (hclear : after 0 bs + sizeofBlockHeader + size + 4 ≤ heapSize ∨
      heapSize ≤ after 0 bs + sizeofBlockHeader + size) :
    Linked (writeHeader m (after 0 bs) { size := size, status := blockUsed })
      (bs ++ [{ size := size, status := blockUsed }]) := by
  refine ⟨h.links.append hsize hin hnext (readHeader_writeHeader m _ (by simp only; omega))
    fun i hi => writeHeader_of_lt m _ hi, ?_⟩
  rw [after_append]
  refine ⟨hclear, fun i hi hlt _ => ?_⟩
  change after 0 bs + sizeofBlockHeader + size ≤ i at hi
  unfold sizeofBlockHeader at hi
  rw [writeHeader_of_gt m _ (by omega)]
  exact h.ends.zero i (by omega) hlt (by omega)

/-- A header of size zero is written behind the last block: the walks still end there. -/
theorem Linked.append_zero (h : Linked m bs) (status : UInt8) :
    Linked (writeHeader m (after 0 bs) { size := 0, status := status }) bs := by
  refine ⟨h.links.congr fun i _ hlt => writeHeader_of_lt m _ hlt, h.ends.apart,
    fun i hi hlt hne => ?_⟩
  by_cases hbehind : after 0 bs + 4 < i
  · rw [writeHeader_of_gt m _ hbehind]
    exact h.ends.zero i hi hlt hne
  · have hbyte : i = after 0 bs ∨ i = after 0 bs + 1 ∨ i = after 0 bs + 2 ∨ i = after 0 bs + 3 := by
      omega
    rcases hbyte with rfl | rfl | rfl | rfl
    all_goals simp [writeHeader]

/-- The header behind the last block is freed. -/
theorem Linked.free_end (h : Linked m bs) :
    Linked (whitexFree m (some (after 0 bs + sizeofBlockHeader))) bs := by
  rw [whitexFree_some]
  exact ⟨h.links.congr fun i _ hlt => writeStatus_of_ne (by omega) _,
    h.ends.congr fun i _ hne => writeStatus_of_ne hne _⟩

/-! ## Runs -/

/-- The blocks as allocations, used or not. -/
def placed : Nat → List BlockHeader → List Allocation
  | _, [] => []
  | o, b :: bs =>
      { ptr := o + sizeofBlockHeader, size := b.size } ::
        placed (o + sizeofBlockHeader + b.size) bs

theorem placed_append (o : Nat) (xs ys : List BlockHeader) :
    placed o (xs ++ ys) = placed o xs ++ placed (after o xs) ys := by
  induction xs generalizing o with
  | nil => rfl
  | cons b xs ih =>
      simp only [List.cons_append, placed, after]
      rw [ih]

/-- Where blocks are does not depend on their status. -/
theorem placed_replace (o : Nat) (xs ys : List BlockHeader) (hsize : b'.size = b.size) :
    placed o (xs ++ b' :: ys) = placed o (xs ++ b :: ys) := by
  rw [placed_append, placed_append, placed, placed, hsize]

theorem exists_of_mem_placed {a : Allocation} (ha : a ∈ placed o bs) :
    ∃ xs b ys, bs = xs ++ b :: ys ∧
      a = { ptr := after o xs + sizeofBlockHeader, size := b.size } := by
  induction bs generalizing o with
  | nil => cases ha
  | cons b bs ih =>
      rcases List.mem_cons.1 ha with rfl | hmem
      · exact ⟨[], b, bs, rfl, rfl⟩
      · obtain ⟨xs, b', ys, hbs, ha⟩ := ih hmem
        exact ⟨b :: xs, b', ys, by rw [hbs]; rfl, ha⟩

/-- What a client holds is one of the blocks, or the empty one behind the last. -/
def HasRoom (bs : List BlockHeader) (a : Allocation) : Prop :=
  (∃ p ∈ placed 0 bs, p.ptr = a.ptr ∧ a.size ≤ p.size) ∨
    (a.size = 0 ∧ a.ptr = after 0 bs + sizeofBlockHeader)

theorem HasRoom.replace {a : Allocation} (h : HasRoom (xs ++ b :: ys) a)
    (hsize : b'.size = b.size) : HasRoom (xs ++ b' :: ys) a := by
  unfold HasRoom at h ⊢
  rw [after_append, after] at h ⊢
  rw [placed_replace 0 xs ys hsize, hsize]
  exact h

/-- The heap is linked blocks, and clients hold nothing but their data. -/
def Walkable (s : HeapState) : Prop :=
  ∃ bs, Linked s.memory bs ∧ ∀ a ∈ s.live, HasRoom bs a

/-- A request that is served finds a free block of exactly its size, or goes behind the last block:
without a wrap of the offset behind it, and either outside the heap or with room for a size there. -/
def LeavesWalkable (s : HeapState) : HeapAction → Prop
  | .malloc size => ∀ o ∈ (mallocLoop s.memory size walkFuel 0).join,
      (readHeader s.memory o).size = size ∨
      ((readHeader s.memory o).size = 0 ∧ o + sizeofBlockHeader + size < 2 ^ 32 ∧
        (o + sizeofBlockHeader + size + 4 ≤ heapSize ∨ heapSize ≤ o + sizeofBlockHeader + size))
  | _ => True

theorem walkable_zeroed (outside : Memory) : Walkable (HeapState.zeroed outside) := by
  refine ⟨[], ⟨trivial, .inl (by decide), fun i _ hi _ => ?_⟩, fun a ha => by cases ha⟩
  simp only [HeapState.zeroed]
  rw [if_pos hi]

namespace Walkable

variable {s t : HeapState}

theorem malloc (h : Walkable s) {size : Nat} (hserved : LeavesWalkable s (.malloc size))
    (hstep : s.step (.malloc size) = some t) : Walkable t := by
  obtain ⟨bs, hlinked, hroom⟩ := h
  have hserved' : ∀ o, mallocLoop s.memory size walkFuel 0 = some (some o) → _ :=
    fun o ho => hserved o (by rw [ho]; rfl)
  have hmalloc := step_malloc hstep
  rcases hlinked.links.mallocLoop_cases hlinked.ends hlinked.links.length_lt_walkFuel size with
    ⟨hloop, _⟩ | ⟨hloop, hin⟩ | ⟨xs, b, ys, rfl, _, hloop⟩
  · -- the heap is full
    simp only [whitexMalloc, hloop, Option.map_some, Option.some.injEq] at hmalloc
    subst hmalloc
    exact ⟨bs, hlinked, hroom⟩
  · -- behind the last block
    simp only [whitexMalloc, hloop, Option.map_some, Option.some.injEq] at hmalloc
    subst hmalloc
    have hzero := hlinked.ends.readHeader_size (by omega)
    rcases Nat.eq_zero_or_pos size with rfl | hpos
    · refine ⟨bs, hlinked.append_zero _, fun a ha => ?_⟩
      rcases List.mem_cons.1 ha with rfl | ha
      · exact .inr ⟨rfl, rfl⟩
      · exact hroom a ha
    · obtain ⟨_, hnext, hclear⟩ := (hserved' _ hloop).resolve_left (by omega)
      refine ⟨_, hlinked.append hpos hin hnext hclear, fun a ha => .inl ?_⟩
      rw [placed_append]
      rcases List.mem_cons.1 ha with rfl | ha
      · exact ⟨_, List.mem_append_right _ List.mem_cons_self, rfl, Nat.le_refl _⟩
      · rcases hroom a ha with ⟨p, hp, hptr⟩ | ⟨hempty, hptr⟩
        · exact ⟨p, List.mem_append_left _ hp, hptr⟩
        · exact ⟨_, List.mem_append_right _ List.mem_cons_self, hptr.symm,
            by rw [hempty]; exact Nat.zero_le _⟩
  · -- at a free block
    simp only [whitexMalloc, hloop, Option.map_some, Option.some.injEq] at hmalloc
    subst hmalloc
    obtain ⟨hhead, hpos, _⟩ := (links_append.1 hlinked.links).2
    have hsize : b.size = size := by
      rcases hserved' _ hloop with heq | ⟨hzero, _⟩
      · rw [← heq, hhead]
      · rw [hhead] at hzero
        omega
    subst hsize
    refine ⟨_, hlinked.reuse, fun a ha => ?_⟩
    rcases List.mem_cons.1 ha with rfl | ha
    · refine .inl ⟨_, ?_, rfl, Nat.le_refl _⟩
      rw [placed_append]
      exact List.mem_append_right _ List.mem_cons_self
    · exact (hroom a ha).replace rfl

theorem free (h : Walkable s) {ptr : Nat} (hstep : s.step (.free ptr) = some t) : Walkable t := by
  obtain ⟨bs, hlinked, hroom⟩ := h
  obtain ⟨a, hmem, rfl, rfl⟩ := step_free hstep
  have hrest : ∀ c ∈ s.live.erase a, HasRoom bs c :=
    fun c hc => hroom c (List.mem_of_mem_erase hc)
  rcases hroom a hmem with ⟨p, hp, hsame, _⟩ | ⟨_, hlast⟩
  · obtain ⟨xs, b, ys, rfl, rfl⟩ := exists_of_mem_placed hp
    rw [← hsame]
    exact ⟨_, hlinked.free, fun c hc => (hrest c hc).replace rfl⟩
  · rw [hlast]
    exact ⟨bs, hlinked.free_end, hrest⟩

theorem write (h : Walkable s) {address : Nat} {byte : UInt8}
    (hstep : s.step (.write address byte) = some t) : Walkable t := by
  obtain ⟨bs, hlinked, hroom⟩ := h
  obtain ⟨a, ha, hlow, hhigh, rfl⟩ := step_write hstep
  rcases hroom a ha with ⟨p, hp, hsame, hsize⟩ | ⟨hempty, _⟩
  · obtain ⟨xs, b, ys, rfl, rfl⟩ := exists_of_mem_placed hp
    simp only at hsame hsize
    exact ⟨_, hlinked.write (by omega) (by omega) byte, hroom⟩
  · omega

theorem step (h : Walkable s) {a : HeapAction} (ha : LeavesWalkable s a)
    (hstep : s.step a = some t) : Walkable t := by
  cases a with
  | malloc size => exact h.malloc ha hstep
  | free ptr => exact h.free hstep
  | write address byte => exact h.write hstep

end Walkable

instance (s : HeapState) : ∀ a, Decidable (LeavesWalkable s a)
  | .malloc size => by
      unfold LeavesWalkable
      infer_instance
  | .free _ => isTrue trivial
  | .write _ _ => isTrue trivial

/-- In a run whose requests all leave the heap walkable, every walk ends in every state. -/
theorem walksEnd_run (outside : Memory) (as : List HeapAction)
    (h : AllSteps HeapState.step LeavesWalkable (HeapState.zeroed outside) as) :
    AllStates HeapState.step (fun s => WalksEnd s.memory) (HeapState.zeroed outside) as := by
  refine (allStates_of_allSteps ?_ (walkable_zeroed outside) h).mono ?_
  · intro s a t hs ha hstep
    exact hs.step ha hstep
  · rintro s ⟨bs, hlinked, _⟩
    exact hlinked.links.walksEnd hlinked.ends

/-- An empty block, a block used again, and one that is larger than the heap. -/
theorem walksEnd_run_oversize :
    AllStates HeapState.step (fun s => WalksEnd s.memory) (HeapState.zeroed fun _ => 0xFF)
      [.malloc 0, .malloc 16, .write 23 0xFF, .free 8, .malloc 16, .malloc 70000,
        .write 65536 0xFF] :=
  walksEnd_run _ _ (by decide)

/-- A walk among headers that lead to one another and serve nobody never ends. -/
theorem mallocLoop_of_closed {S : Set Nat} {size : Nat}
    (hclosed : ∀ o ∈ S, o < heapSize ∧ (readHeader m o).serves size = false ∧ nextOffset m o ∈ S)
    (fuel : Nat) (ho : o ∈ S) : mallocLoop m size fuel o = none := by
  induction fuel generalizing o with
  | zero => rfl
  | succ fuel ih =>
      obtain ⟨hlt, hserves, hnext⟩ := hclosed o ho
      unfold mallocLoop
      rw [if_pos hlt, hserves, if_neg Bool.false_ne_true]
      exact ih hnext

theorem freeRamLoop_of_closed {S : Set Nat}
    (hclosed : ∀ o ∈ S, o < heapSize ∧ (readHeader m o).size ≠ 0 ∧ nextOffset m o ∈ S)
    (fuel freeRam : Nat) (ho : o ∈ S) : freeRamLoop m fuel freeRam o = none := by
  induction fuel generalizing o freeRam with
  | zero => rfl
  | succ fuel ih =>
      obtain ⟨hlt, hsize, hnext⟩ := hclosed o ho
      unfold freeRamLoop
      rw [if_pos hlt]
      dsimp only
      rw [if_neg hsize]
      exact ih _ hnext

/-- Sixteen bytes are freed and eight of them used again: what the client had stored in the others
is now a header, here one that leads back to the start. -/
theorem walksEnd_run_false :
    ∃ t, exec HeapState.step (HeapState.zeroed fun _ => 0)
        [.malloc 16, .write 16 0xE8, .write 17 0xFF, .write 18 0xFF, .write 19 0xFF,
          .write 20 0x01, .free 8, .malloc 8] = some t ∧
      (∀ size fuel, mallocLoop t.memory size fuel 0 = none) ∧
      (∀ fuel, freeRamLoop t.memory fuel heapSize 0 = none) ∧ ¬ WalksEnd t.memory := by
  have hrun : (exec HeapState.step (HeapState.zeroed fun _ => 0)
      [.malloc 16, .write 16 0xE8, .write 17 0xFF, .write 18 0xFF, .write 19 0xFF,
        .write 20 0x01, .free 8, .malloc 8]).any (fun t => decide
          (readHeader t.memory 0 = { size := 8, status := blockUsed } ∧
            readHeader t.memory 16 = { size := 0xFFFFFFE8, status := blockUsed })) = true := by
    decide
  obtain ⟨t, hexec, ht⟩ := exists_of_exec_any hrun
  obtain ⟨hfirst, hsecond⟩ := of_decide_eq_true ht
  have hcycle : nextOffset t.memory 0 = 16 ∧ nextOffset t.memory 16 = 0 := by
    unfold nextOffset
    rw [hfirst, hsecond]
    decide
  -- the offsets `0` and `16` lead to each other
  have hmalloc : ∀ size fuel, mallocLoop t.memory size fuel 0 = none := by
    intro size fuel
    refine mallocLoop_of_closed (S := {0, 16}) ?_ fuel (.inl rfl)
    rintro o (rfl | rfl)
    · exact ⟨by decide, by rw [hfirst]; rfl, by rw [hcycle.1]; exact .inr rfl⟩
    · exact ⟨by decide, by rw [hsecond]; rfl, by rw [hcycle.2]; exact .inl rfl⟩
  have hfree : ∀ fuel, freeRamLoop t.memory fuel heapSize 0 = none := by
    intro fuel
    refine freeRamLoop_of_closed (S := {0, 16}) ?_ fuel heapSize (.inl rfl)
    rintro o (rfl | rfl)
    · exact ⟨by decide, by rw [hfirst]; decide, by rw [hcycle.1]; exact .inr rfl⟩
    · exact ⟨by decide, by rw [hsecond]; decide, by rw [hcycle.2]; exact .inl rfl⟩
  refine ⟨t, hexec, hmalloc, hfree, fun hends => ?_⟩
  have hsome := hends.freeRam
  unfold getFreeRam at hsome
  rw [hfree] at hsome
  cases hsome

end Heap
end WhitexKernel
