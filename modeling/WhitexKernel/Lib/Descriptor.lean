import WhitexKernel.Lib.FlatMemory

/-!
# Descriptor — segments and gates of the i386

A descriptor is eight bytes, over which the parts of a segment or of a gate are scattered.  Privileges
are left out.

* `load`, `Segment.translate` — what a selector stands for, and where an offset in it leads;
* `Tables.deliver` — what an interrupt leads to, if need be over the exceptions that its gate raises.
-/

namespace WhitexKernel
namespace Lib
namespace Descriptor

open FlatMemory

/-- The bytes of a descriptor, the first one at 0. -/
abbrev Bytes := Nat → BitVec 8

/-- A word is put together from its bytes. -/
theorem bytes_append (w : BitVec 32) : byte w 3 ++ byte w 2 ++ byte w 1 ++ byte w 0 = w := by
  have hword := word_store_same (fun _ => 0) 0 w
  unfold word storeWord at hword
  rwa [write_offset (by decide) (by decide), write_offset (by decide) (by decide),
    write_offset (by decide) (by decide), write_offset (by decide) (by decide)] at hword

/-- Nothing is lost by a mask that has all bits which are kept. -/
theorem setWidth_and {v n : Nat} {mask : BitVec v} (hmask : ∀ i < n, mask.getLsbD i = true)
    (x : BitVec v) : (x &&& mask).setWidth n = x.setWidth n := by
  refine BitVec.eq_of_getLsbD_eq fun i hi => ?_
  rw [BitVec.getLsbD_setWidth, BitVec.getLsbD_setWidth, BitVec.getLsbD_and, hmask i hi,
    Bool.and_true]

theorem setWidth_shift_and {v n : Nat} {mask : BitVec v} (hmask : ∀ i < n, mask.getLsbD i = true)
    (x : BitVec v) (s : Nat) : ((x >>> s) &&& mask).setWidth n = x.extractLsb' s n :=
  (setWidth_and hmask _).trans BitVec.setWidth_ushiftRight_eq_extractLsb

theorem extractLsb'_extractLsb' {v : Nat} (x : BitVec v) (s n : Nat) {t k : Nat} (h : t + k ≤ n) :
    (x.extractLsb' s n).extractLsb' t k = x.extractLsb' (s + t) k := by
  refine BitVec.eq_of_getLsbD_eq fun i hi => ?_
  have hin : t + i < n := by omega
  simp [hi, hin, Nat.add_assoc]

/-! ## Segments -/

/-- A segment that grows upwards. -/
@[ext] structure Segment where
  base : BitVec 32
  limit : BitVec 20
  access : BitVec 8
  flags : BitVec 4

namespace Segment

def ofBytes (e : Bytes) : Segment where
  base := e 7 ++ e 4 ++ e 3 ++ e 2
  limit := (e 6).extractLsb' 0 4 ++ e 1 ++ e 0
  access := e 5
  flags := (e 6).extractLsb' 4 4

def present (s : Segment) : Bool := s.access.getLsbD 7

/-- The limit counts bytes, or pages of 4 KiB. -/
def lastOffset (s : Segment) : BitVec 32 :=
  if s.flags.getLsbD 3 then s.limit ++ 0xFFF#12 else s.limit.setWidth 32

def translate (s : Segment) (offset : BitVec 32) : Option (BitVec 32) :=
  if offset ≤ s.lastOffset then some (s.base + offset) else none

end Segment

/-- The segment of a selector of the global table; the first entry of the table is never one. -/
def load (tableLimit : BitVec 16) (table : Nat → Bytes) (selector : BitVec 16) :
    Option Segment :=
  if selector.toNat / 8 ≠ 0 ∧ 8 * (selector.toNat / 8) + 7 ≤ tableLimit.toNat ∧
      selector.getLsbD 2 = false ∧
        (Segment.ofBytes (table (selector.toNat / 8))).present = true then
    some (Segment.ofBytes (table (selector.toNat / 8)))
  else none

/-- The processor's tables: the limit of the global table, its descriptors, and the gates.  There is a
gate for every vector. -/
structure Tables where
  limit : BitVec 16
  global : Nat → Bytes
  gates : Nat → Bytes

namespace Segment

def isCode (s : Segment) : Bool := s.access.getLsbD 4 && s.access.getLsbD 3

/-- A task state that is not in use. -/
def isTask (s : Segment) : Bool := s.access.setWidth 5 = 0x01#5 || s.access.setWidth 5 = 0x09#5

end Segment

/-- The descriptor of a selector, present or not.  There is no local table. -/
def Tables.descriptor (t : Tables) (selector : BitVec 16) : Option Segment :=
  if selector.toNat / 8 ≠ 0 ∧ 8 * (selector.toNat / 8) + 7 ≤ t.limit.toNat ∧
      selector.getLsbD 2 = false then
    some (Segment.ofBytes (t.global (selector.toNat / 8)))
  else none

/-! ## Gates -/

@[ext] structure Gate where
  offset : BitVec 32
  selector : BitVec 16
  flags : BitVec 8

namespace Gate

def ofBytes (e : Bytes) : Gate where
  offset := e 7 ++ e 6 ++ e 1 ++ e 0
  selector := e 3 ++ e 2
  flags := e 5

def present (g : Gate) : Bool := g.flags.getLsbD 7

/-- The bit for system descriptors and the type. -/
def kind (g : Gate) : BitVec 5 := g.flags.setWidth 5

/-- Tasks, interrupts and traps; the latter two of 16 and of 32 bits. -/
def kinds : List (BitVec 5) := [0x05, 0x06, 0x07, 0x0E, 0x0F]

/-- It is a gate at all. -/
def Valid (g : Gate) : Prop := g.kind ∈ kinds

instance (g : Gate) : Decidable g.Valid := inferInstanceAs (Decidable (_ ∈ _))

/-- A gate of 16 bits has half an offset. -/
def entry (g : Gate) : BitVec 32 :=
  if g.kind = 0x06 ∨ g.kind = 0x07 then (g.offset.setWidth 16).setWidth 32 else g.offset

end Gate

/-- What a gate leads to. -/
inductive Target
  /-- The address of a routine; `masked` tells whether further interrupts have to wait. -/
  | routine (address : BitVec 32) (masked : Bool)
  | task (selector : BitVec 16)
  deriving DecidableEq

/-- The exceptions that a gate can raise. -/
abbrev notPresent : Nat := 11
abbrev generalProtection : Nat := 13

abbrev doubleFault : Nat := 8

/-- An interrupt or trap gate leads into the code segment of its selector. -/
def Tables.routine (t : Tables) (g : Gate) : Except Nat Target :=
  match t.descriptor g.selector with
  | none => .error generalProtection
  | some segment =>
      if segment.isCode = false then .error generalProtection
      else if segment.present = false then .error notPresent
      else
        match segment.translate g.entry with
        | none => .error generalProtection
        | some address => .ok (.routine address (g.kind.getLsbD 0 = false))

/-- A task gate leads to the task state of its selector. -/
def Tables.task (t : Tables) (g : Gate) : Except Nat Target :=
  match t.descriptor g.selector with
  | none => .error generalProtection
  | some segment =>
      if segment.isTask = false then .error generalProtection
      else if segment.present = false then .error notPresent
      else .ok (.task g.selector)

/-- What a gate leads to, or else the exception that it raises.  The type is looked at first. -/
def Tables.through (t : Tables) (g : Gate) : Except Nat Target :=
  if ¬ g.Valid then .error generalProtection
  else if g.present = false then .error notPresent
  else if g.kind = 0x05 then t.task g
  else t.routine g

def Tables.enter (t : Tables) (vector : Nat) : Except Nat Target :=
  t.through (Gate.ofBytes (t.gates vector))

/-- What an interrupt or exception ends in. -/
inductive Delivery
  | handler (vector : Nat) (target : Target)
  | shutdown
  deriving DecidableEq

/-- The exceptions after which one more is a double fault; exception 9 has been one of them only as
long as the coprocessor was a chip of its own. -/
def contributory : List Nat := [0, 10, 11, 12, 13, 14]

/-- The first of the vectors that can be entered. -/
def Tables.firstTarget (t : Tables) : List Nat → Delivery
  | [] => .shutdown
  | vector :: vectors =>
      match t.enter vector with
      | .ok target => .handler vector target
      | .error _ => t.firstTarget vectors

/-- A vector that cannot be entered causes an exception, this one a double fault, and that one the
end. -/
def causes (vector raised : Nat) : List Nat :=
  if vector = doubleFault then [doubleFault]
  else if vector ∈ contributory then [vector, doubleFault]
  else [vector, raised, doubleFault]

/-- An interrupt, or an exception of the processor for the vectors below 32. -/
def Tables.deliver (t : Tables) (vector : Nat) : Delivery :=
  match t.enter vector with
  | .ok target => .handler vector target
  | .error raised => t.firstTarget (causes vector raised)

namespace Tables

variable {t : Tables}

theorem firstTarget_eq_shutdown_iff {vectors : List Nat} :
    t.firstTarget vectors = .shutdown ↔ ∀ v ∈ vectors, ∃ raised, t.enter v = .error raised := by
  induction vectors with
  | nil => exact iff_of_true rfl nofun
  | cons vector vectors ih =>
      rw [List.forall_mem_cons, ← ih, firstTarget]
      cases t.enter vector with
      | ok target => simp
      | error raised => simp

theorem mem_of_firstTarget {vectors : List Nat} {vector : Nat} {target : Target}
    (h : t.firstTarget vectors = .handler vector target) :
    vector ∈ vectors ∧ t.enter vector = .ok target := by
  induction vectors with
  | nil => cases h
  | cons v vectors ih =>
      rw [firstTarget] at h
      cases hv : t.enter v with
      | ok other =>
          rw [hv] at h
          cases h
          exact ⟨List.mem_cons_self, hv⟩
      | error raised =>
          rw [hv] at h
          rcases ih h with ⟨hmem, henter⟩
          exact ⟨List.mem_cons_of_mem v hmem, henter⟩

/-- A vector is handled by itself exactly if it can be entered. -/
theorem deliver_eq_handler_self_iff {vector : Nat} {target : Target} :
    t.deliver vector = .handler vector target ↔ t.enter vector = .ok target := by
  unfold deliver
  cases hself : t.enter vector with
  | ok other => simp
  | error raised =>
      refine iff_of_false (fun h => ?_) nofun
      rw [(mem_of_firstTarget h).2] at hself
      cases hself

theorem deliver_eq_shutdown_iff {vector : Nat} :
    t.deliver vector = .shutdown ↔ ∃ raised, t.enter vector = .error raised ∧
      ∀ v ∈ causes vector raised, ∃ e, t.enter v = .error e := by
  unfold deliver
  cases hself : t.enter vector with
  | ok target => simp
  | error raised => simp [firstTarget_eq_shutdown_iff]

end Tables

end Descriptor
end Lib
end WhitexKernel
