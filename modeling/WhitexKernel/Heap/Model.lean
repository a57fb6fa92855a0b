import WhitexKernel.Machine.Word

/-!
# Heap — the first-fit allocator (`malloc.h`)

Memory is a function from offsets, counted from `memory_heap[0]`, to bytes; the heap is its first
`heapSize` bytes.  A block is a header (`size` in four bytes, least significant first, and `status`
in the fifth) followed by its data; the next header is found behind the data.  A pointer is the
offset of the data it points to, and `none` is `NULL`.
-/

namespace WhitexKernel
namespace Heap

open Machine

/-- `HEAP_SIZE` -/
abbrev heapSize : Nat := 65536

/-- `BLOCK_FREE` -/
def blockFree : UInt8 := 0

/-- `BLOCK_USED` -/
def blockUsed : UInt8 := 1

/-- `sizeof(block_header_t)`: four bytes of size, one of status, three of padding. -/
abbrev sizeofBlockHeader : Nat := 8

abbrev Memory := Nat → UInt8

/-- `block_header_t` -/
structure BlockHeader where
  size : Nat
  status : UInt8
  deriving DecidableEq, Repr

/-- The header at `offset`. -/
def readHeader (m : Memory) (offset : Nat) : BlockHeader :=
  { size := (m offset).toNat + 256 * (m (offset + 1)).toNat + 65536 * (m (offset + 2)).toNat +
      16777216 * (m (offset + 3)).toNat
    status := m (offset + 4) }

/-- Store both fields of a header. -/
def writeHeader (m : Memory) (offset : Nat) (h : BlockHeader) : Memory :=
  fun i =>
    if i = offset then UInt8.ofNat h.size
    else if i = offset + 1 then UInt8.ofNat (h.size / 256)
    else if i = offset + 2 then UInt8.ofNat (h.size / 65536)
    else if i = offset + 3 then UInt8.ofNat (h.size / 16777216)
    else if i = offset + 4 then h.status
    else m i

/-- Store the status of the header at `offset`. -/
def writeStatus (m : Memory) (offset : Nat) (status : UInt8) : Memory :=
  fun i => if i = offset + 4 then status else m i

/-- `offset + sizeof(block_header_t) + header->size` in `size_t` arithmetic. -/
def nextOffset (m : Memory) (offset : Nat) : Nat :=
  wrap32 (offset + (sizeofBlockHeader + (readHeader m offset).size))

/-- Rounds enough for every walk that ends: one that reads more headers than the heap has offsets
has come to one of them twice. -/
def walkFuel : Nat := heapSize + 1

/-- The loop of `get_free_ram`, for at most `fuel` rounds; no result when the rounds run out. -/
def freeRamLoop (m : Memory) : Nat → Nat → Nat → Option Nat
  | 0, _, _ => none
  | fuel + 1, freeRam, offset =>
      if offset < heapSize then
        let header := readHeader m offset
        if header.size = 0 then some freeRam
        else
          freeRamLoop m fuel
            (if header.status = blockUsed then
              sub32 freeRam (wrap32 (header.size + sizeofBlockHeader))
            else freeRam)
            (nextOffset m offset)
      else some freeRam

/-- What `get_free_ram` returns; no result when its loop never ends. -/
def getFreeRam (m : Memory) : Option Nat := freeRamLoop m walkFuel heapSize 0

/-- The header serves a request for `size` bytes: it is the end of the chain, or free and large
enough. -/
def BlockHeader.serves (h : BlockHeader) (size : Nat) : Bool :=
  h.size == 0 || (h.status == blockFree && decide (h.size ≥ size))

/-- The loop of `whitex_malloc`, for at most `fuel` rounds: the offset of the header that serves the
request, or `none` when the offset has left the heap; no result when the rounds run out. -/
def mallocLoop (m : Memory) (size : Nat) : Nat → Nat → Option (Option Nat)
  | 0, _ => none
  | fuel + 1, offset =>
      if offset < heapSize then
        if (readHeader m offset).serves size then some (some offset)
        else mallocLoop m size fuel (nextOffset m offset)
      else some none

/-- The offsets of the headers that the loop of `whitex_malloc` reads. -/
def headersRead (m : Memory) (size : Nat) : Nat → Nat → List Nat
  | 0, _ => []
  | fuel + 1, offset =>
      if offset < heapSize then
        offset ::
          if (readHeader m offset).serves size then []
          else headersRead m size fuel (nextOffset m offset)
      else []

/-- The memory and the pointer after `whitex_malloc`; no result when its loop never ends. -/
def whitexMalloc (m : Memory) (size : Nat) : Option (Memory × Option Nat) :=
  match mallocLoop m size walkFuel 0 with
  | none => none
  | some none => some (m, none)
  | some (some offset) =>
      some (writeHeader m offset { size := size, status := blockUsed },
        some (offset + sizeofBlockHeader))

def whitexFree (m : Memory) : Option Nat → Memory
  | none => m
  | some ptr => writeStatus m (ptr - sizeofBlockHeader) blockFree

/-! ## Printing -/

/-- `while (n > 0) { buf[i++] = (n % 10) + '0'; n /= 10; }` -/
def ramDigitLoop (n : Nat) (buf : Nat → Char) (i : Nat) : (Nat → Char) × Nat :=
  if n > 0 then
    ramDigitLoop (n / 10) (fun j => if j = i then Char.ofNat (n % 10 + '0'.toNat) else buf j) (i + 1)
  else (buf, i)

/-- `while (--i >= 0) putchar(buf[i])` -/
def putBackwards (buf : Nat → Char) : Nat → List Char
  | 0 => []
  | i + 1 => buf i :: putBackwards buf i

/-- The characters that `ram_print_number` puts out, with the contents of `buf` before. -/
def ramPrintNumber (n : Nat) (buf : Nat → Char) : List Char :=
  if n = 0 then ['0']
  else
    let (buf, i) := ramDigitLoop n buf 0
    putBackwards buf i

end Heap
end WhitexKernel
