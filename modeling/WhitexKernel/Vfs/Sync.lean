import WhitexKernel.Lib.Bytes
import WhitexKernel.Vfs.Model

/-!
# Sync — the node table on the disk (`fssdd.h`, `sdd.h`)

Two commands write the node table to the disk, in sectors from block 100 on.  The number of sectors
is that of the whole sectors in the table, and one more for the rest.  But there is no rest: the table
is 11 sectors long, and the last sector written is what lies behind it in memory.

* `writtenSectors_eq` — the sectors that a device which accepts writes is given;
* `syncsTable_iff` — what else they depend on.
-/

namespace WhitexKernel
namespace Vfs

open Lib.Bytes

/-! ## Devices -/

/-- What a write leaves on the disk. -/
structure Sector where
  block : Nat
  contents : List UInt8
  deriving DecidableEq, Repr

/-- A function behind `primary_dev.write`: given the first block, the number of sectors and what the
pointer leads to, the sectors it writes, and what it returns. -/
abbrev WriteFunction := Nat → Nat → (Nat → UInt8) → List Sector × Int

/-- `storage_device_t`, as far as it writes. -/
structure StorageDevice where
  write : Option WriteFunction

/-- `while (!(inb(ATA_STATUS) & 0x08))`: the disk is ready at one of the next polls. -/
def ataWait (status : Nat → UInt8) : Nat → Nat → Bool
  | 0, _ => false
  | polls + 1, k => if status k &&& 0x08 ≠ 0 then true else ataWait status polls (k + 1)

/-- The block that the four address ports select: they take 28 bits. -/
def ataBlock (lba : Nat) : Nat :=
  lba % 256 + 256 * (lba / 256 % 256) + 65536 * (lba / 65536 % 256) + 16777216 * (lba / 16777216 % 16)

/-- The data words of sector `i`, as the disk stores them. -/
def ataWords (buffer : Nat → UInt8) (i : Nat) : List UInt8 :=
  (List.range 256).flatMap fun j => [buffer (2 * (j + i * 256)), buffer (2 * (j + i * 256) + 1)]

/-- The loop of `ata_write_sectors` from sector `i` on; `status` is what each poll reads. -/
def ataWriteLoop (status : Nat → Nat → UInt8) (buffer : Nat → UInt8) :
    Nat → Nat → Nat → List Sector × Int
  | 0, _, _ => ([], 0)
  | count + 1, i, lba =>
      if ataWait (status lba) 1000001 0 then
        let rest := ataWriteLoop status buffer count (i + 1) (lba + 1)
        ({ block := ataBlock lba, contents := ataWords buffer i } :: rest.1, rest.2)
      else ([], -1)

def ataWriteSectors (status : Nat → Nat → UInt8) : WriteFunction := fun lba count buffer =>
  ataWriteLoop status buffer count 0 lba

def writeBlock (dev : StorageDevice) (blockId : Nat) (buffer : Nat → UInt8) : List Sector × Int :=
  match dev.write with
  | some write => write blockId 1 buffer
  | none => ([], -1)

/-! ## The commands -/

/-- `sizeof(VFSNode)`: a name and three words. -/
abbrev sizeofVfsNode : Nat := nameLen + 3 * 4

/-- `sizeof(storage)` -/
abbrev sizeofStorage : Nat := maxNodes * sizeofVfsNode

/-- The table is 11 sectors long. -/
theorem sizeofStorage_eq : sizeofStorage = 5632 := by decide

/-- The sectors that `fs_sync` writes and what it prints; `storage` is the address of the table. -/
def fsSync (dev : StorageDevice) (memory : Nat → UInt8) (storage : Nat) :
    List Sector × List String :=
  let sectors := sizeofStorage / 512 + 1
  ((List.range sectors).flatMap fun i =>
    (writeBlock dev (100 + i) fun j => memory (storage + i * 512 + j)).1, ["Disk Synced.\n"])

def sddSync (dev : StorageDevice) (memory : Nat → UInt8) (storage : Nat) :
    List Sector × List String :=
  ((List.range (sizeofStorage / 512 + 1)).flatMap fun i =>
    (writeBlock dev (100 + i) fun j => memory (storage + i * 512 + j)).1,
    ["FS Synced to Disk.\n"])

/-! ## Devices that accept writes -/

/-- The device writes the sectors it is given, as far as it can address them. -/
def Accepts (dev : StorageDevice) : Prop :=
  ∃ write, dev.write = some write ∧ ∀ lba count buffer, lba + count ≤ 2 ^ 28 →
    write lba count buffer = ((List.range count).map fun i =>
      { block := lba + i, contents := slice buffer (i * 512) 512 }, 0)

theorem ataWords_eq (buffer : Nat → UInt8) (i : Nat) :
    ataWords buffer i = slice buffer (i * 512) 512 := by
  have hword : ∀ j, [buffer (2 * (j + i * 256)), buffer (2 * (j + i * 256) + 1)] =
      slice buffer (i * 512 + j * 2) 2 := by
    intro j
    have haddress : 2 * (j + i * 256) = i * 512 + j * 2 := by omega
    rw [haddress]
    simp [slice, List.range_succ]
  unfold ataWords
  simp only [hword]
  exact slices_flatten buffer (i * 512) 2 256

theorem ataWriteLoop_ready {status : Nat → Nat → UInt8} (hready : ∀ lba, status lba 0 &&& 0x08 ≠ 0)
    (buffer : Nat → UInt8) {count lba : Nat} (i : Nat) (hlba : lba + count ≤ 2 ^ 28) :
    ataWriteLoop status buffer count i lba = ((List.range count).map fun k =>
      { block := lba + k, contents := slice buffer ((i + k) * 512) 512 }, 0) := by
  induction count generalizing i lba with
  | zero => rfl
  | succ count ih =>
      have hwait : ataWait (status lba) 1000001 0 = true := if_pos (hready lba)
      have hblock : ataBlock lba = lba := by
        unfold ataBlock
        omega
      have hrest := ih (i + 1) (show lba + 1 + count ≤ 2 ^ 28 by omega)
      rw [ataWriteLoop, if_pos hwait, hrest, hblock, ataWords_eq, List.range_succ_eq_map,
        List.map_cons, List.map_map]
      have hnext : ∀ k, lba + 1 + k = lba + (k + 1) ∧ (i + 1 + k) * 512 = (i + (k + 1)) * 512 := by
        intro k
        omega
      simp [Function.comp_def, hnext]

/-- A disk that is ready at once accepts writes. -/
theorem accepts_ata {status : Nat → Nat → UInt8} (hready : ∀ lba, status lba 0 &&& 0x08 ≠ 0) :
    Accepts { write := some (ataWriteSectors status) } := by
  refine ⟨_, rfl, fun lba count buffer hlba => ?_⟩
  have hloop := ataWriteLoop_ready hready buffer 0 hlba
  simpa [ataWriteSectors] using hloop

/-! ## What is written -/

section Sectors

variable {dev : StorageDevice} {memory memory' : Nat → UInt8} {storage : Nat}

/-- One sector more than the table has. -/
def tableSectors (memory : Nat → UInt8) (storage : Nat) : List Sector :=
  (List.range 12).map fun i =>
    { block := 100 + i, contents := slice memory (storage + i * 512) 512 }

theorem writeBlock_accepts (h : Accepts dev) {block : Nat} (hblock : block + 1 ≤ 2 ^ 28)
    (memory : Nat → UInt8) (address : Nat) :
    (writeBlock dev block fun j => memory (address + j)).1 =
      [{ block := block, contents := slice memory address 512 }] := by
  rcases h with ⟨write, hwrite, haccepts⟩
  unfold writeBlock
  rw [hwrite]
  dsimp only
  rw [haccepts block 1 _ hblock]
  simp [slice]

/-- The sectors that a device which accepts writes is given. -/
theorem writtenSectors_eq (h : Accepts dev) (memory : Nat → UInt8) (storage : Nat) :
    (fsSync dev memory storage).1 = tableSectors memory storage ∧
      (sddSync dev memory storage).1 = tableSectors memory storage := by
  have hloop : (List.range 12).flatMap (fun i =>
      (writeBlock dev (100 + i) fun j => memory (storage + i * 512 + j)).1) =
        tableSectors memory storage := by
    rw [tableSectors, List.map_eq_flatMap]
    refine List.flatMap_congr fun i hi => ?_
    have hlt := List.mem_range.1 hi
    exact writeBlock_accepts h (by omega) memory (storage + i * 512)
  have hsectors : sizeofStorage / 512 + 1 = 12 := by decide
  unfold fsSync sddSync
  dsimp only
  rw [hsectors]
  exact ⟨hloop, hloop⟩

/-- The sectors together are a piece of the memory. -/
theorem contents_tableSectors (memory : Nat → UInt8) (storage : Nat) :
    (tableSectors memory storage).flatMap Sector.contents = slice memory storage (12 * 512) := by
  unfold tableSectors
  rw [List.flatMap_map]
  dsimp only
  exact slices_flatten memory storage 512 12

theorem tableSectors_eq_iff : tableSectors memory storage = tableSectors memory' storage ↔
    ∀ i < 12 * 512, memory (storage + i) = memory' (storage + i) := by
  constructor
  · intro h
    have hcontents := congrArg (List.flatMap Sector.contents) h
    rw [contents_tableSectors, contents_tableSectors] at hcontents
    exact slice_eq_iff.1 hcontents
  · intro h
    unfold tableSectors
    refine List.map_congr_left fun i hi => ?_
    have hlt := List.mem_range.1 hi
    have hcontents : slice memory (storage + i * 512) 512 =
        slice memory' (storage + i * 512) 512 := by
      refine slice_congr fun j hj => ?_
      rw [Nat.add_assoc]
      exact h (i * 512 + j) (by omega)
    rw [hcontents]

/-- The two commands write the same, and what they write depends on the table only and begins with
it. -/
structure SyncsTable (dev : StorageDevice) (storage : Nat) (memory memory' : Nat → UInt8) : Prop where
  fsSync : (fsSync dev memory storage).1 = (fsSync dev memory' storage).1
  sddSync : (sddSync dev memory storage).1 = (sddSync dev memory' storage).1
  same : (Vfs.fsSync dev memory storage).1 = (Vfs.sddSync dev memory storage).1
  /-- The sectors lie one behind the other from block 100 on. -/
  blocks : ∃ n, (Vfs.fsSync dev memory storage).1.map Sector.block = List.range' 100 n
  begins : slice memory storage sizeofStorage <+:
    (Vfs.fsSync dev memory storage).1.flatMap Sector.contents

/-- If two memories have the same table, the commands write the same for them exactly when they also
agree on the 512 bytes behind it. -/
theorem syncsTable_iff (haccepts : Accepts dev)
    (hagree : ∀ i < sizeofStorage, memory (storage + i) = memory' (storage + i)) :
    SyncsTable dev storage memory memory' ↔
      ∀ i < 512, memory (storage + sizeofStorage + i) = memory' (storage + sizeofStorage + i) := by
  have hwritten := writtenSectors_eq haccepts memory storage
  have hwritten' := writtenSectors_eq haccepts memory' storage
  constructor
  · intro h i hi
    have hsame := h.fsSync
    -- twelve sectors go out, and the table ends in the twelfth: the rest of it is read too
    rw [hwritten.1, hwritten'.1, tableSectors_eq_iff] at hsame
    rw [Nat.add_assoc]
    refine hsame (sizeofStorage + i) ?_
    rw [sizeofStorage_eq]
    omega
  · intro hbehind
    have hall : ∀ i < 12 * 512, memory (storage + i) = memory' (storage + i) := by
      intro i hi
      -- the table itself is the same in both, what is behind it by hypothesis
      by_cases htable : i < sizeofStorage
      · exact hagree i htable
      · have hlast : i - sizeofStorage < 512 := by
          rw [sizeofStorage_eq]
          omega
        have hrest := hbehind (i - sizeofStorage) hlast
        rwa [Nat.add_assoc, Nat.add_sub_cancel' (Nat.le_of_not_lt htable)] at hrest
    have hsame := tableSectors_eq_iff.2 hall
    refine ⟨?_, ?_, ?_, ⟨12, ?_⟩, ?_⟩
    · rw [hwritten.1, hwritten'.1, hsame]
    · rw [hwritten.2, hwritten'.2, hsame]
    · rw [hwritten.1, hwritten.2]
    · rw [hwritten.1]
      rfl
    · rw [hwritten.1, contents_tableSectors]
      have hsplit : 12 * 512 = sizeofStorage + 512 := by decide
      rw [hsplit, slice_append]
      exact List.prefix_append _ _

end Sectors

/-- A disk that is always ready. -/
def readyDisk : StorageDevice := { write := some (ataWriteSectors fun _ _ => 0x58) }

/-- A memory with a byte set behind a table at 4096. -/
def byteBehind : Nat → UInt8 := Function.update (fun _ => 0) (4096 + sizeofStorage) 1

theorem byteBehind_table : ∀ i < sizeofStorage, (0 : UInt8) = byteBehind (4096 + i) := by
  intro i hi
  unfold byteBehind
  rw [Function.update_of_ne (by omega)]

/-- That memory and one that is zero. -/
theorem syncsTable_iff_behind :
    SyncsTable readyDisk 4096 (fun _ => 0) byteBehind ↔
      ∀ i < 512, (0 : UInt8) = byteBehind (4096 + sizeofStorage + i) :=
  syncsTable_iff (accepts_ata fun _ => by decide) byteBehind_table

/-- The byte is written to the disk. -/
theorem syncsTable_false :
    ¬ ∀ (dev : StorageDevice) (storage : Nat) (memory memory' : Nat → UInt8), Accepts dev →
      (∀ i < sizeofStorage, memory (storage + i) = memory' (storage + i)) →
      SyncsTable dev storage memory memory' := by
  intro h
  have haccepts : Accepts readyDisk := accepts_ata fun _ => by decide
  have hsync := (h readyDisk 4096 (fun _ => 0) byteBehind haccepts byteBehind_table).fsSync
  rw [(writtenSectors_eq haccepts _ _).1, (writtenSectors_eq haccepts _ _).1,
    tableSectors_eq_iff] at hsync
  have hbehind : (0 : UInt8) = byteBehind (4096 + sizeofStorage) := hsync sizeofStorage (by decide)
  unfold byteBehind at hbehind
  rw [Function.update_self] at hbehind
  exact absurd hbehind (by decide)

end Vfs
end WhitexKernel
