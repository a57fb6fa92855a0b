import WhitexKernel.Vfs.Sync

/-!
# Disk — sectors that are written and read back (`sdd.h`)

`ata_write_sectors` and `ata_read_sectors` go through the same ports, sector by sector, and give up
when the disk is not ready in time.  The ports take 28 bits of a block number, so blocks are numbers
modulo `2 ^ 28`.  A write that gives up has written the sectors before the one it has waited for, and
what a write has stored is read back as long as nobody writes to its blocks (`ataReadSectors_written`).
-/

namespace WhitexKernel
namespace Vfs

open Lib.Bytes

/-! ## The disk -/

/-- The 512 bytes of each block. -/
abbrev Disk := Nat → List UInt8

/-- The blocks that the address ports can select. -/
abbrev diskBlocks : Nat := 2 ^ 28

def Disk.put (disk : Disk) (sectors : List Sector) : Disk :=
  sectors.foldl (fun disk sector => Function.update disk sector.block sector.contents) disk

/-- The words of a sector, as `inw` reads them. -/
def ataInWords (contents : List UInt8) : List UInt8 :=
  (List.range 256).flatMap fun j => [contents.getD (2 * j) 0, contents.getD (2 * j + 1) 0]

/-- The loop of `ata_read_sectors` from sector `i` on; `status` is what each poll reads. -/
def ataReadLoop (status : Nat → Nat → UInt8) (disk : Disk) :
    Nat → Nat → Nat → (Nat → UInt8) → (Nat → UInt8) × Int
  | 0, _, _, buffer => (buffer, 0)
  | count + 1, i, lba, buffer =>
      if ataWait (status lba) 1000001 0 then
        ataReadLoop status disk count (i + 1) (lba + 1)
          (overwrite buffer (i * 512) (ataInWords (disk (ataBlock lba))))
      else (buffer, -1)

/-- The buffer afterwards, and what is returned. -/
def ataReadSectors (status : Nat → Nat → UInt8) (disk : Disk) (lba count : Nat)
    (buffer : Nat → UInt8) : (Nat → UInt8) × Int := ataReadLoop status disk count 0 lba buffer

/-! ## Both loops -/

/-- The sectors before the first one that the disk is not ready for in time. -/
def readySectors (status : Nat → Nat → UInt8) : Nat → Nat → Nat
  | _, 0 => 0
  | lba, count + 1 =>
      if ataWait (status lba) 1000001 0 then readySectors status (lba + 1) count + 1 else 0

variable {status : Nat → Nat → UInt8} {lba count : Nat}

theorem readySectors_le : readySectors status lba count ≤ count := by
  induction count generalizing lba with
  | zero => exact Nat.le_refl 0
  | succ count ih =>
      unfold readySectors
      split
      · exact Nat.succ_le_succ ih
      · exact Nat.zero_le _

theorem readySectors_of_ready (hready : ∀ lba, ataWait (status lba) 1000001 0 = true) :
    readySectors status lba count = count := by
  induction count generalizing lba with
  | zero => rfl
  | succ count ih => rw [readySectors, if_pos (hready lba), ih]

/-- The address ports take the block number modulo the size of the disk. -/
theorem ataBlock_eq (lba : Nat) : ataBlock lba = lba % diskBlocks := by
  unfold ataBlock diskBlocks
  omega

theorem ataInWords_of_length {contents : List UInt8} (h : contents.length = 512) :
    ataInWords contents = contents := by
  have hwords := ataWords_eq (fun i => contents.getD i 0) 0
  have hall : slice (fun i => contents.getD i 0) (0 * 512) 512 = contents := by
    refine List.ext_getElem? fun i => ?_
    rw [slice_getElem?, Nat.zero_mul, Nat.zero_add]
    split
    case isTrue hi =>
      have hlt : i < contents.length := h ▸ hi
      rw [List.getD_eq_getElem _ _ hlt, List.getElem?_eq_getElem hlt]
    case isFalse hi =>
      exact (List.getElem?_eq_none (h ▸ Nat.le_of_not_lt hi)).symm
  unfold ataWords at hwords
  rw [hall] at hwords
  simpa [ataInWords] using hwords

/-- Sector `n` of a transfer that starts at block `lba`. -/
def sectorAt (buffer : Nat → UInt8) (lba i n : Nat) : Sector :=
  { block := (lba + n) % diskBlocks
    contents := slice buffer ((i + n) * 512) 512 }

theorem ataWriteLoop_eq (status : Nat → Nat → UInt8) (buffer : Nat → UInt8) (count i lba : Nat) :
    ataWriteLoop status buffer count i lba =
      ((List.range (readySectors status lba count)).map (sectorAt buffer lba i),
        if readySectors status lba count = count then 0 else -1) := by
  induction count generalizing i lba with
  | zero => rfl
  | succ count ih =>
      rw [ataWriteLoop, readySectors]
      split
      case isTrue hready =>
        have hnext : sectorAt buffer (lba + 1) (i + 1) = sectorAt buffer lba i ∘ Nat.succ := by
          funext n
          unfold sectorAt Function.comp
          rw [Nat.succ_eq_add_one, Nat.add_assoc, Nat.add_assoc, Nat.add_comm 1 n]
        have hfirst : ({ block := ataBlock lba, contents := ataWords buffer i } : Sector) =
            sectorAt buffer lba i 0 := by
          rw [ataBlock_eq, ataWords_eq]
          rfl
        rw [ih, List.range_succ_eq_map, List.map_cons, List.map_map, hnext, hfirst]
        simp only [Nat.add_right_cancel_iff]
      case isFalse hlate => simp

theorem ataReadLoop_eq (status : Nat → Nat → UInt8) (disk : Disk)
    (hdisk : ∀ block, (disk block).length = 512) (count i lba : Nat) (buffer : Nat → UInt8) :
    ataReadLoop status disk count i lba buffer =
      (overwrite buffer (i * 512) ((List.range (readySectors status lba count)).flatMap
          fun n => disk ((lba + n) % diskBlocks)),
        if readySectors status lba count = count then 0 else -1) := by
  induction count generalizing i lba buffer with
  | zero => rw [ataReadLoop, readySectors]; simp
  | succ count ih =>
      rw [ataReadLoop, readySectors]
      split
      case isTrue hready =>
        have hplace : (i + 1) * 512 = i * 512 + (disk (lba % diskBlocks)).length := by
          rw [hdisk]
          omega
        have hnext : ∀ n, lba + 1 + n = lba + (n + 1) := by
          intro n
          omega
        rw [ih, ataBlock_eq, ataInWords_of_length (hdisk _), hplace, overwrite_append,
          List.range_succ_eq_map, List.flatMap_cons, List.flatMap_map]
        simp only [hnext, Nat.add_zero, Nat.succ_eq_add_one, Nat.add_right_cancel_iff]
      case isFalse hlate => simp

/-! ## Writes -/

/-- A call of `ata_write_sectors`. -/
structure DiskWrite where
  status : Nat → Nat → UInt8
  lba : Nat
  count : Nat
  buffer : Nat → UInt8

namespace DiskWrite

/-- The disk after the call, and what the call returns. -/
def run (w : DiskWrite) (disk : Disk) : Disk × Int :=
  (disk.put (ataWriteSectors w.status w.lba w.count w.buffer).1,
    (ataWriteSectors w.status w.lba w.count w.buffer).2)

/-- The call may write to the block. -/
def Touches (w : DiskWrite) (block : Nat) : Prop :=
  ∃ n < w.count, (w.lba + n) % diskBlocks = block

/-- The sectors that are written. -/
def written (w : DiskWrite) : Nat := readySectors w.status w.lba w.count

theorem run_eq (w : DiskWrite) (disk : Disk) :
    w.run disk = ((List.range w.written).foldl (fun disk n =>
        Function.update disk ((w.lba + n) % diskBlocks) (slice w.buffer (n * 512) 512)) disk,
      if w.written = w.count then 0 else -1) := by
  have hloop := ataWriteLoop_eq w.status w.buffer w.count 0 w.lba
  unfold run ataWriteSectors Disk.put
  rw [hloop, List.foldl_map]
  simp only [sectorAt, Nat.zero_add]
  rfl

variable {w : DiskWrite} {disk : Disk} {block : Nat}

/-- Other blocks keep their contents. -/
theorem run_untouched (h : ¬ w.Touches block) : (w.run disk).1 block = disk block := by
  rw [run_eq]
  refine foldl_update_of_ne disk _ fun n hn hblock => h ⟨n, ?_, hblock⟩
  exact Nat.lt_of_lt_of_le hn readySectors_le

/-- Fewer sectors than the disk has blocks go to different blocks. -/
theorem block_injective (lba : Nat) {m n k : Nat} (hk : k ≤ diskBlocks) (hm : m < k) (hn : n < k)
    (h : (lba + m) % diskBlocks = (lba + n) % diskBlocks) : m = n := by
  unfold diskBlocks at hk h
  omega

/-- The sectors before the first late one are on the disk. -/
theorem run_written (hcount : w.count ≤ diskBlocks) {n : Nat} (hn : n < w.written) :
    (w.run disk).1 ((w.lba + n) % diskBlocks) = slice w.buffer (n * 512) 512 := by
  have hfew : w.written ≤ diskBlocks := Nat.le_trans readySectors_le hcount
  rw [run_eq]
  exact foldl_update_apply disk (fun n => (w.lba + n) % diskBlocks)
    (fun n => slice w.buffer (n * 512) 512)
    (fun m hm n hn h => block_injective w.lba hfew hm hn h) hn

theorem run_length (h : ∀ block, (disk block).length = 512) (block : Nat) :
    ((w.run disk).1 block).length = 512 := by
  have hrounds : ∀ k, (((List.range k).foldl (fun disk n =>
      Function.update disk ((w.lba + n) % diskBlocks) (slice w.buffer (n * 512) 512)) disk)
        block).length = 512 := by
    intro k
    induction k with
    | zero => exact h block
    | succ k ih =>
        rw [List.range_succ, List.foldl_append, List.foldl_cons, List.foldl_nil,
          Function.update_apply]
        split
        · exact slice_length _ _ _
        · exact ih
  rw [run_eq]
  exact hrounds _

/-- Several calls, one after the other. -/
def runAll (ws : List DiskWrite) (disk : Disk) : Disk := ws.foldl (fun disk w => (w.run disk).1) disk

theorem runAll_length {ws : List DiskWrite} (h : ∀ block, (disk block).length = 512) (block : Nat) :
    (runAll ws disk block).length = 512 := by
  induction ws generalizing disk with
  | nil => exact h block
  | cons w ws ih => exact ih fun block => run_length h block

theorem runAll_untouched {ws : List DiskWrite} (h : ∀ w ∈ ws, ¬ w.Touches block) :
    runAll ws disk block = disk block := by
  induction ws generalizing disk with
  | nil => rfl
  | cons w ws ih =>
      have hrest : runAll ws (w.run disk).1 block = (w.run disk).1 block :=
        ih fun v hv => h v (List.mem_cons_of_mem w hv)
      exact hrest.trans (run_untouched (h w List.mem_cons_self))

end DiskWrite

/-! ## Reading back -/

/-- What has been written is read back, whatever is written to other blocks in between: of the
sectors that a call has written, a later call reads as many as the disk is ready for in time. -/
theorem ataReadSectors_written {w : DiskWrite} {ws : List DiskWrite} {disk : Disk} {n : Nat}
    (hdisk : ∀ block, (disk block).length = 512) (hcount : w.count * 512 ≤ 2 ^ 32)
    (hn : n ≤ w.written) (hws : ∀ v ∈ ws, ∀ block, w.Touches block → ¬ v.Touches block)
    (status : Nat → Nat → UInt8) (buffer : Nat → UInt8) :
    ataReadSectors status (DiskWrite.runAll ws (w.run disk).1) w.lba n buffer =
      (overwrite buffer 0 (slice w.buffer 0 (readySectors status w.lba n * 512)),
        if readySectors status w.lba n = n then 0 else -1) := by
  have hlengths : ∀ block, (DiskWrite.runAll ws (w.run disk).1 block).length = 512 :=
    DiskWrite.runAll_length (DiskWrite.run_length hdisk)
  have hsector : ∀ k < n, DiskWrite.runAll ws (w.run disk).1 ((w.lba + k) % diskBlocks) =
      slice w.buffer (0 + k * 512) 512 := by
    intro k hk
    have hwritten : k < w.written := Nat.lt_of_lt_of_le hk hn
    have htouched : w.Touches ((w.lba + k) % diskBlocks) :=
      ⟨k, Nat.lt_of_lt_of_le hwritten readySectors_le, rfl⟩
    have hfew : w.count ≤ diskBlocks := by
      unfold diskBlocks
      omega
    rw [DiskWrite.runAll_untouched fun v hv => hws v hv _ htouched,
      DiskWrite.run_written hfew hwritten, Nat.zero_add]
  have hread : (List.range (readySectors status w.lba n)).flatMap (fun k =>
      DiskWrite.runAll ws (w.run disk).1 ((w.lba + k) % diskBlocks)) =
        slice w.buffer 0 (readySectors status w.lba n * 512) := by
    rw [← slices_flatten]
    refine List.flatMap_congr fun k hk => hsector k ?_
    exact Nat.lt_of_lt_of_le (List.mem_range.1 hk) readySectors_le
  rw [ataReadSectors, ataReadLoop_eq status _ hlengths, hread, Nat.zero_mul]

/-- The last block of the disk and the first one, which follows it. -/
def lastTwo : DiskWrite where
  status := fun _ _ => 0x58
  lba := 2 ^ 28 - 1
  count := 2
  buffer := fun _ => 7

/-- Another write in between. -/
theorem ataReadSectors_written_lastTwo :
    ataReadSectors (fun _ _ => 0x58)
        (DiskWrite.runAll [{ lastTwo with lba := 5 }]
          (lastTwo.run fun _ => List.replicate 512 0).1) lastTwo.lba 2 (fun _ => 0) =
      (overwrite (fun _ => 0) 0
          (slice lastTwo.buffer 0 (readySectors (fun _ _ => 0x58) lastTwo.lba 2 * 512)),
        if readySectors (fun _ _ => 0x58) lastTwo.lba 2 = 2 then 0 else -1) := by
  have hready : ∀ lba : Nat, ataWait (fun _ => 0x58) 1000001 0 = true := fun _ =>
    if_pos (by decide)
  refine ataReadSectors_written (fun _ => List.length_replicate) (by decide)
    (readySectors_of_ready hready).ge ?_ _ _
  rintro v hv block ⟨m, hm, rfl⟩ ⟨n, hn, hblock⟩
  obtain rfl : v = { lastTwo with lba := 5 } := List.mem_singleton.1 hv
  have hm' : m < 2 := hm
  have hn' : n < 2 := hn
  have hsame : (5 + n) % diskBlocks = (2 ^ 28 - 1 + m) % diskBlocks := hblock
  unfold diskBlocks at hsame
  omega

end Vfs
end WhitexKernel
