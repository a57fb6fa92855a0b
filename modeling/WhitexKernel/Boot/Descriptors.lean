import WhitexKernel.Lib.Descriptor

/-!
# Descriptors — the tables of the processor (`gdt.h`, `idt.h`)

`init_gdt` fills three entries and loads them; `init_idt` clears all 256 gates, and `idt_set_gate`
fills one.

* `initGdt_flat` — every segment is all of memory, and no other selector is a segment;
* `deliver_run` — an interrupt leads to the gate that has been set last for its vector, if that can be
  entered.

The kernel never sets a gate after `init_idt`, and so any exception is its end (`deliver_initIdt`).
-/

namespace WhitexKernel
namespace Boot

open Lib FlatMemory Descriptor

/-- The two bytes of `x & 0xFFFF`. -/
theorem bytes_lowWord (x : BitVec 32) :
    ((x &&& 0xFFFF#32).setWidth 16).extractLsb' 0 8 = byte x 0 ∧
      ((x &&& 0xFFFF#32).setWidth 16).extractLsb' 8 8 = byte x 1 := by
  have hmask : ∀ i < 16, (0xFFFF#32).getLsbD i = true := by decide
  rw [setWidth_and hmask, BitVec.setWidth_eq_extractLsb' (by decide)]
  exact ⟨extractLsb'_extractLsb' x 0 16 (by decide), extractLsb'_extractLsb' x 0 16 (by decide)⟩

/-! ## `gdt.h` -/

/-- `gdt_entry_t` -/
structure GdtEntry where
  limitLow : BitVec 16
  baseLow : BitVec 16
  baseMiddle : BitVec 8
  access : BitVec 8
  granularity : BitVec 8
  baseHigh : BitVec 8

/-- The packed structure. -/
def GdtEntry.bytes (e : GdtEntry) : Bytes
  | 0 => e.limitLow.extractLsb' 0 8
  | 1 => e.limitLow.extractLsb' 8 8
  | 2 => e.baseLow.extractLsb' 0 8
  | 3 => e.baseLow.extractLsb' 8 8
  | 4 => e.baseMiddle
  | 5 => e.access
  | 6 => e.granularity
  | _ => e.baseHigh

inductive SegmentRegister
  | cs
  | ds
  | es
  | fs
  | gs
  | ss
  deriving DecidableEq, Repr

/-- `gdt`, the limit that `lgdt` has loaded, and the selectors. -/
structure GdtState where
  gdt : Nat → GdtEntry
  tableLimit : BitVec 16
  selector : SegmentRegister → BitVec 16

namespace GdtState

def gdtSetGate (s : GdtState) (num : Nat) (base limit : BitVec 32) (access gran : BitVec 8) :
    GdtState :=
  { s with
    gdt := Function.update s.gdt num
      { baseLow := (base &&& 0xFFFF#32).setWidth 16
        baseMiddle := ((base >>> 16) &&& 0xFF#32).setWidth 8
        baseHigh := ((base >>> 24) &&& 0xFF#32).setWidth 8
        limitLow := (limit &&& 0xFFFF#32).setWidth 16
        granularity := ((limit >>> 16) &&& 0x0F#32).setWidth 8 ||| (gran &&& 0xF0#8)
        access := access } }

/-- `lgdt`, the five moves from `ax`, and the far jump. -/
def loadSegments (s : GdtState) : GdtState :=
  { s with
    tableLimit := BitVec.ofNat 16 (8 * 3 - 1)
    selector := fun r => if r = .cs then 0x08 else 0x10 }

def initGdt (s : GdtState) : GdtState :=
  (((s.gdtSetGate 0 0 0 0 0).gdtSetGate 1 0 0xFFFFFFFF 0x9A 0xCF).gdtSetGate 2 0 0xFFFFFFFF 0x92
    0xCF).loadSegments

/-- What the processor reads in the table. -/
def table (s : GdtState) (index : Nat) : Bytes := (s.gdt index).bytes

/-- The segment of a selector. -/
def segment (s : GdtState) (selector : BitVec 16) : Option Segment :=
  load s.tableLimit s.table selector

/-! ## What the processor reads -/

/-- The upper four bits of the limit and those of `gran` share a byte. -/
theorem nibbles_granularity (limit : BitVec 32) (gran : BitVec 8) :
    (((limit >>> 16) &&& 0x0F#32).setWidth 8 ||| (gran &&& 0xF0#8)).extractLsb' 0 4 =
        limit.extractLsb' 16 4 ∧
      (((limit >>> 16) &&& 0x0F#32).setWidth 8 ||| (gran &&& 0xF0#8)).extractLsb' 4 4 =
        gran.extractLsb' 4 4 := by
  have hmask : ∀ i < 4, (0x0F#32).getLsbD i = true ∧ (0x0F#32).getLsbD (4 + i) = false ∧
      (0xF0#8).getLsbD i = false ∧ (0xF0#8).getLsbD (4 + i) = true := by decide
  constructor
  · refine BitVec.eq_of_getLsbD_eq fun i hi => ?_
    rcases hmask i hi with ⟨hin, _, hout, _⟩
    have hi8 : i < 8 := by omega
    rw [BitVec.getLsbD_extractLsb', BitVec.getLsbD_extractLsb', BitVec.getLsbD_or,
      BitVec.getLsbD_setWidth, BitVec.getLsbD_and, BitVec.getLsbD_and, BitVec.getLsbD_ushiftRight,
      Nat.zero_add, hin, hout]
    simp [hi, hi8]
  · refine BitVec.eq_of_getLsbD_eq fun i hi => ?_
    rcases hmask i hi with ⟨_, hout, _, hin⟩
    rw [BitVec.getLsbD_extractLsb', BitVec.getLsbD_extractLsb', BitVec.getLsbD_or,
      BitVec.getLsbD_setWidth, BitVec.getLsbD_and, BitVec.getLsbD_and, hin, hout]
    simp [hi]

/-- Of the parts of a segment the processor finds the whole base, 20 bits of the limit and the upper
half of `gran`. -/
theorem ofBytes_gdtSetGate (s : GdtState) (num : Nat) (base limit : BitVec 32)
    (access gran : BitVec 8) :
    Segment.ofBytes ((s.gdtSetGate num base limit access gran).table num) =
      { base := base
        limit := limit.setWidth 20
        access := access
        flags := gran.extractLsb' 4 4 } := by
  have hmask : ∀ i < 8, (0xFF#32).getLsbD i = true := by decide
  have hnibbles := nibbles_granularity limit gran
  change Segment.ofBytes (GdtEntry.bytes (Function.update s.gdt num _ num)) = _
  rw [Function.update_self]
  refine Segment.ext ?_ ?_ rfl hnibbles.2
  · have hjoined : ((base >>> 24) &&& 0xFF#32).setWidth 8 ++
        ((base >>> 16) &&& 0xFF#32).setWidth 8 ++
          ((base &&& 0xFFFF#32).setWidth 16).extractLsb' 8 8 ++
            ((base &&& 0xFFFF#32).setWidth 16).extractLsb' 0 8 =
        byte base 3 ++ byte base 2 ++ byte base 1 ++ byte base 0 := by
      rw [setWidth_shift_and hmask, setWidth_shift_and hmask, (bytes_lowWord base).1,
        (bytes_lowWord base).2]
      rfl
    exact hjoined.trans (bytes_append base)
  · have hjoined : limit.extractLsb' 16 4 ++ byte limit 1 ++ byte limit 0 = limit.setWidth 20 := by
      have hupper : limit.extractLsb' 16 4 ++ byte limit 1 = limit.extractLsb' 8 (4 + 8) :=
        BitVec.extractLsb'_append_extractLsb'_eq_extractLsb' rfl
      rw [hupper]
      exact (BitVec.extractLsb'_append_extractLsb'_eq_extractLsb' rfl).trans
        (BitVec.setWidth_eq_extractLsb' (by decide)).symm
    refine Eq.trans ?_ hjoined
    rw [← hnibbles.1, ← (bytes_lowWord limit).1, ← (bytes_lowWord limit).2]
    rfl

theorem table_gdtSetGate_of_ne (s : GdtState) {num index : Nat} (h : index ≠ num)
    (base limit : BitVec 32) (access gran : BitVec 8) :
    (s.gdtSetGate num base limit access gran).table index = s.table index :=
  congrArg GdtEntry.bytes (Function.update_of_ne h _ _)

/-- All of memory, in pages. -/
def flatSegment (access : BitVec 8) : Segment where
  base := 0
  limit := 0xFFFFF
  access := access
  flags := 0xC

theorem translate_flatSegment (access : BitVec 8) (offset : BitVec 32) :
    (flatSegment access).translate offset = some offset := by
  have hjoined : (0xFFFFF : BitVec 20) ++ 0xFFF#12 = 0xFFFFFFFF#32 := by decide
  have hpages : (flatSegment access).flags.getLsbD 3 = true := by
    change (0xC : BitVec 4).getLsbD 3 = true
    decide
  have hlast : (flatSegment access).lastOffset = 0xFFFFFFFF#32 := by
    unfold Segment.lastOffset
    rw [if_pos hpages]
    exact hjoined
  unfold Segment.translate
  rw [hlast, if_pos (BitVec.le_def.2 (Nat.le_of_lt_succ offset.isLt))]
  exact congrArg some (BitVec.zero_add offset)

theorem ofBytes_flat (s : GdtState) (num : Nat) (access : BitVec 8) :
    Segment.ofBytes ((s.gdtSetGate num 0 0xFFFFFFFF access 0xCF).table num) =
      flatSegment access := by
  have hlimit : (0xFFFFFFFF : BitVec 32).setWidth 20 = 0xFFFFF := by decide
  have hflags : (0xCF : BitVec 8).extractLsb' 4 4 = 0xC := by decide
  rw [ofBytes_gdtSetGate, hlimit, hflags, flatSegment]

theorem table_loadSegments (s : GdtState) : s.loadSegments.table = s.table := rfl

theorem ofBytes_initGdt_data (s : GdtState) :
    Segment.ofBytes (s.initGdt.table 2) = flatSegment 0x92 := by
  rw [initGdt, table_loadSegments, ofBytes_flat]

theorem ofBytes_initGdt_code (s : GdtState) :
    Segment.ofBytes (s.initGdt.table 1) = flatSegment 0x9A := by
  rw [initGdt, table_loadSegments, table_gdtSetGate_of_ne _ (by decide : 1 ≠ 2), ofBytes_flat]

/-- Each register holds a segment that is all of memory, and no selector stands for another one. -/
structure Flat (s : GdtState) : Prop where
  registers : ∀ r, ∃ segment, s.segment (s.selector r) = some segment ∧
    ∀ offset, segment.translate offset = some offset
  others : ∀ selector segment, s.segment selector = some segment →
    ∃ r, s.segment (s.selector r) = some segment

/-- `init_gdt` gives the kernel one flat memory. -/
theorem initGdt_flat (s : GdtState) : s.initGdt.Flat := by
  have hlimit : s.initGdt.tableLimit = 23 := rfl
  have hcode : s.initGdt.segment 0x08 = some (flatSegment 0x9A) := by
    have hindex : (0x08 : BitVec 16).toNat / 8 = 1 := by decide
    unfold segment load
    rw [hlimit, hindex, ofBytes_initGdt_code]
    exact if_pos (by decide)
  have hdata : s.initGdt.segment 0x10 = some (flatSegment 0x92) := by
    have hindex : (0x10 : BitVec 16).toNat / 8 = 2 := by decide
    unfold segment load
    rw [hlimit, hindex, ofBytes_initGdt_data]
    exact if_pos (by decide)
  constructor
  · intro r
    by_cases hr : r = .cs
    · rw [hr]
      exact ⟨_, hcode, translate_flatSegment _⟩
    · have hselector : s.initGdt.selector r = 0x10 := if_neg hr
      rw [hselector]
      exact ⟨_, hdata, translate_flatSegment _⟩
  · intro selector segment h
    unfold GdtState.segment load at h
    split at h
    case isFalse => cases h
    case isTrue hindex =>
      rcases hindex with ⟨hzero, hlimit, _, _⟩
      change 8 * (selector.toNat / 8) + 7 ≤ 23 at hlimit
      cases h
      rcases (by omega : selector.toNat / 8 = 1 ∨ selector.toNat / 8 = 2) with hone | htwo
      · rw [hone, ofBytes_initGdt_code]
        exact ⟨.cs, hcode⟩
      · rw [htwo, ofBytes_initGdt_data]
        exact ⟨.ds, hdata⟩

end GdtState

/-! ## `idt.h` -/

/-- `idt_entry_t` -/
structure IdtEntry where
  baseLo : BitVec 16
  sel : BitVec 16
  always0 : BitVec 8
  flags : BitVec 8
  baseHi : BitVec 16

/-- The packed structure. -/
def IdtEntry.bytes (e : IdtEntry) : Bytes
  | 0 => e.baseLo.extractLsb' 0 8
  | 1 => e.baseLo.extractLsb' 8 8
  | 2 => e.sel.extractLsb' 0 8
  | 3 => e.sel.extractLsb' 8 8
  | 4 => e.always0
  | 5 => e.flags
  | 6 => e.baseHi.extractLsb' 0 8
  | _ => e.baseHi.extractLsb' 8 8

abbrev IdtState := Nat → IdtEntry

/-- A call of `idt_set_gate`. -/
structure IdtCall where
  num : BitVec 8
  base : BitVec 32
  sel : BitVec 16
  flags : BitVec 8

/-- The gate that it sets. -/
def IdtCall.gate (call : IdtCall) : Gate := ⟨call.base, call.sel, call.flags⟩

namespace IdtState

def idtSetGate (idt : IdtState) (call : IdtCall) : IdtState :=
  Function.update idt call.num.toNat
    { baseLo := (call.base &&& 0xFFFF#32).setWidth 16
      baseHi := ((call.base >>> 16) &&& 0xFFFF#32).setWidth 16
      sel := call.sel
      always0 := 0
      flags := call.flags }

/-- The loop of `init_idt`. -/
def initIdt (idt : IdtState) : IdtState :=
  (List.range 256).foldl (fun idt i => idt.idtSetGate ⟨BitVec.ofNat 8 i, 0, 0, 0⟩) idt

def table (idt : IdtState) (vector : Nat) : Bytes := (idt vector).bytes

/-! ## What the processor reads -/

theorem ofBytes_idtSetGate (idt : IdtState) (call : IdtCall) :
    Gate.ofBytes ((idt.idtSetGate call).table call.num.toNat) = call.gate := by
  have hmask : ∀ i < 16, (0xFFFF#32).getLsbD i = true := by decide
  have hhigh : ∀ t, t + 8 ≤ 16 →
      (((call.base >>> 16) &&& 0xFFFF#32).setWidth 16).extractLsb' t 8 =
        call.base.extractLsb' (16 + t) 8 := by
    intro t ht
    rw [setWidth_shift_and hmask]
    exact extractLsb'_extractLsb' call.base 16 16 ht
  change Gate.ofBytes (IdtEntry.bytes (Function.update idt call.num.toNat _ call.num.toNat)) = _
  rw [Function.update_self]
  refine Gate.ext ?_ (@BitVec.extractLsb'_append_extractLsb' 8 8 call.sel) rfl
  have hjoined : (((call.base >>> 16) &&& 0xFFFF#32).setWidth 16).extractLsb' 8 8 ++
      (((call.base >>> 16) &&& 0xFFFF#32).setWidth 16).extractLsb' 0 8 ++
        ((call.base &&& 0xFFFF#32).setWidth 16).extractLsb' 8 8 ++
          ((call.base &&& 0xFFFF#32).setWidth 16).extractLsb' 0 8 =
      byte call.base 3 ++ byte call.base 2 ++ byte call.base 1 ++ byte call.base 0 := by
    rw [hhigh 8 (by decide), hhigh 0 (by decide), (bytes_lowWord call.base).1,
      (bytes_lowWord call.base).2]
    rfl
  exact hjoined.trans (bytes_append call.base)

theorem table_idtSetGate_of_ne (idt : IdtState) (call : IdtCall) {vector : Nat}
    (h : vector ≠ call.num.toNat) : (idt.idtSetGate call).table vector = idt.table vector :=
  congrArg IdtEntry.bytes (Function.update_of_ne h _ _)

/-- The gate that `init_idt` leaves for a vector. -/
def emptyGate : Gate := ⟨0, 0, 0⟩

theorem ofBytes_initIdt (idt : IdtState) {vector : Nat} (h : vector < 256) :
    Gate.ofBytes (idt.initIdt.table vector) = emptyGate := by
  have hloop : ∀ n ≤ 256, vector < n →
      Gate.ofBytes (((List.range n).foldl
        (fun idt i => idt.idtSetGate ⟨BitVec.ofNat 8 i, 0, 0, 0⟩) idt).table vector) = emptyGate := by
    intro n hn hvector
    induction n with
    | zero => exact absurd hvector (Nat.not_lt_zero _)
    | succ n ih =>
        have hnum : (BitVec.ofNat 8 n).toNat = n := by
          rw [BitVec.toNat_ofNat, Nat.mod_eq_of_lt (by omega)]
        rw [List.range_succ, List.foldl_append, List.foldl_cons, List.foldl_nil]
        by_cases hlast : vector = n
        · have hgate := ofBytes_idtSetGate ((List.range n).foldl
            (fun idt i => idt.idtSetGate ⟨BitVec.ofNat 8 i, 0, 0, 0⟩) idt)
              ⟨BitVec.ofNat 8 n, 0, 0, 0⟩
          rw [hnum] at hgate
          rw [hlast, hgate]
          rfl
        · have hne : vector ≠ (BitVec.ofNat 8 n).toNat := by
            rw [hnum]
            exact hlast
          rw [table_idtSetGate_of_ne _ _ hne]
          exact ih (by omega) (by omega)
  exact hloop 256 (Nat.le_refl _) h

/-- The gate that the last call for a vector has set. -/
def lastGate (calls : List IdtCall) (vector : Nat) : Gate :=
  (calls.reverse.find? fun call => call.num.toNat = vector).elim emptyGate IdtCall.gate

theorem ofBytes_foldl (calls : List IdtCall) (idt : IdtState) (vector : Nat) :
    Gate.ofBytes ((calls.foldl idtSetGate idt).table vector) =
      (calls.reverse.find? fun call => call.num.toNat = vector).elim
        (Gate.ofBytes (idt.table vector)) IdtCall.gate := by
  induction calls generalizing idt with
  | nil => rfl
  | cons call calls ih =>
      -- a later call for the vector is found before this one
      rw [List.foldl_cons, ih, List.reverse_cons, List.find?_append]
      cases calls.reverse.find? fun call => call.num.toNat = vector with
      | some last => rfl
      | none =>
          by_cases hnum : call.num.toNat = vector
          · simp [hnum, ← ofBytes_idtSetGate idt call]
          · have hkept := table_idtSetGate_of_ne idt call (Ne.symm hnum)
            simp [hnum, hkept]

theorem ofBytes_run (idt : IdtState) (calls : List IdtCall) {vector : Nat} (h : vector < 256) :
    Gate.ofBytes ((calls.foldl idtSetGate idt.initIdt).table vector) = lastGate calls vector := by
  rw [ofBytes_foldl, ofBytes_initIdt idt h, lastGate]

end IdtState

/-! ## What interrupts lead to -/

/-- The tables after `init_gdt` and `init_idt`, and calls of `idt_set_gate`. -/
def tables (gdt : GdtState) (idt : IdtState) (calls : List IdtCall) : Tables where
  limit := gdt.initGdt.tableLimit
  global := gdt.initGdt.table
  gates := (calls.foldl IdtState.idtSetGate idt.initIdt).table

/-- The selector stands for the code segment of `init_gdt`. -/
def SelectsCode (selector : BitVec 16) : Prop :=
  selector.toNat / 8 = 1 ∧ selector.getLsbD 2 = false

instance (selector : BitVec 16) : Decidable (SelectsCode selector) :=
  inferInstanceAs (Decidable (_ ∧ _))

/-- The gate leads to a routine: it is a present one of an interrupt or a trap, and its selector is
that of the code. -/
def Accepted (g : Gate) : Prop :=
  g.Valid ∧ g.kind ≠ 0x05 ∧ g.present = true ∧ SelectsCode g.selector

instance (g : Gate) : Decidable (Accepted g) := inferInstanceAs (Decidable (_ ∧ _))

/-- What a gate raises that is not accepted. -/
def raisedBy (g : Gate) : Nat :=
  if g.Valid ∧ g.present = false then notPresent else generalProtection

section Interrupts

variable {gdt : GdtState} {idt : IdtState} {calls : List IdtCall}

/-- The only descriptors are those of the code and of the data. -/
theorem descriptor_tables (selector : BitVec 16) :
    (tables gdt idt calls).descriptor selector =
      if SelectsCode selector then some (GdtState.flatSegment 0x9A)
      else if selector.toNat / 8 = 2 ∧ selector.getLsbD 2 = false then
        some (GdtState.flatSegment 0x92)
      else none := by
  have hlimit : (tables gdt idt calls).limit.toNat = 23 := rfl
  have hcode : Segment.ofBytes ((tables gdt idt calls).global 1) = GdtState.flatSegment 0x9A :=
    GdtState.ofBytes_initGdt_code gdt
  have hdata : Segment.ofBytes ((tables gdt idt calls).global 2) = GdtState.flatSegment 0x92 :=
    GdtState.ofBytes_initGdt_data gdt
  unfold Tables.descriptor
  rw [hlimit]
  split
  case isTrue hin =>
    rcases hin with ⟨hzero, hlast, hlocal⟩
    rcases (by omega : selector.toNat / 8 = 1 ∨ selector.toNat / 8 = 2) with hone | htwo
    · have hselects : SelectsCode selector := ⟨hone, hlocal⟩
      rw [hone, hcode, if_pos hselects]
    · have hnot : ¬ SelectsCode selector := by
        rintro ⟨hone, _⟩
        omega
      rw [if_neg hnot, if_pos ⟨htwo, hlocal⟩, htwo, hdata]
  case isFalse hout =>
    have hnotCode : ¬ SelectsCode selector := by
      rintro ⟨hone, hlocal⟩
      exact hout ⟨by omega, by omega, hlocal⟩
    have hnotData : ¬ (selector.toNat / 8 = 2 ∧ selector.getLsbD 2 = false) := by
      rintro ⟨htwo, hlocal⟩
      exact hout ⟨by omega, by omega, hlocal⟩
    rw [if_neg hnotCode, if_neg hnotData]

/-- Code is entered where the gate says. -/
theorem routine_tables (g : Gate) :
    (tables gdt idt calls).routine g =
      if SelectsCode g.selector then .ok (.routine g.entry (g.kind.getLsbD 0 = false))
      else .error generalProtection := by
  have hcode : (GdtState.flatSegment 0x9A).isCode = true := by decide
  have hdata : (GdtState.flatSegment 0x92).isCode = false := by decide
  have hpresent : (GdtState.flatSegment 0x9A).present = true := by decide
  unfold Tables.routine
  rw [descriptor_tables]
  by_cases hselects : SelectsCode g.selector
  · simp only [if_pos hselects, hcode, hpresent, GdtState.translate_flatSegment]
    rfl
  · rw [if_neg hselects, if_neg hselects]
    split
    case h_1 => rfl
    case h_2 segment hsegment =>
      split at hsegment
      · cases hsegment
        rw [if_pos hdata]
      · cases hsegment

/-- There is no task. -/
theorem task_tables (g : Gate) :
    (tables gdt idt calls).task g = .error generalProtection := by
  have hcode : (GdtState.flatSegment 0x9A).isTask = false := by decide
  have hdata : (GdtState.flatSegment 0x92).isTask = false := by decide
  unfold Tables.task
  rw [descriptor_tables]
  split
  case h_1 => rfl
  case h_2 segment hsegment =>
    split at hsegment
    · cases hsegment
      rw [if_pos hcode]
    · split at hsegment
      · cases hsegment
        rw [if_pos hdata]
      · cases hsegment

theorem through_tables (g : Gate) :
    (tables gdt idt calls).through g =
      if Accepted g then .ok (.routine g.entry (g.kind.getLsbD 0 = false))
      else .error (raisedBy g) := by
  unfold Tables.through raisedBy
  rw [routine_tables, task_tables]
  by_cases hkind : g.Valid
  · rw [if_neg (not_not.2 hkind)]
    by_cases hpresent : g.present = true
    · have hin : ¬ (g.Valid ∧ g.present = false) := fun h =>
        absurd (hpresent.symm.trans h.2) (by decide)
      rw [if_neg (by rw [hpresent]; decide), if_neg hin]
      by_cases htask : g.kind = 0x05
      · have hnot : ¬ Accepted g := fun h => h.2.1 htask
        rw [if_pos htask, if_neg hnot]
      · rw [if_neg htask]
        by_cases hselects : SelectsCode g.selector
        · have haccepted : Accepted g := ⟨hkind, htask, hpresent, hselects⟩
          rw [if_pos hselects, if_pos haccepted]
        · have hnot : ¬ Accepted g := fun h => hselects h.2.2.2
          rw [if_neg hselects, if_neg hnot]
    · have hnot : ¬ Accepted g := fun h => hpresent h.2.2.1
      rw [Bool.not_eq_true] at hpresent
      rw [if_pos hpresent, if_neg hnot, if_pos ⟨hkind, hpresent⟩]
  · have hnot : ¬ Accepted g := fun h => hkind h.1
    rw [if_pos hkind, if_neg hnot, if_neg fun h => hkind h.1]

theorem enter_tables {vector : Nat} (h : vector < 256) :
    (tables gdt idt calls).enter vector =
      if Accepted (IdtState.lastGate calls vector) then
        .ok (.routine (IdtState.lastGate calls vector).entry
          ((IdtState.lastGate calls vector).kind.getLsbD 0 = false))
      else .error (raisedBy (IdtState.lastGate calls vector)) := by
  rw [← @through_tables gdt idt calls, ← IdtState.ofBytes_run idt calls h]
  rfl

end Interrupts

/-- The vectors that an interrupt can come to are all in the table. -/
theorem causes_lt {raised vector : Nat} (h : vector < 256) (hraised : raised < 256) :
    ∀ v ∈ causes vector raised, v < 256 := by
  unfold causes doubleFault
  intro v hv
  split at hv
  · rw [List.mem_singleton] at hv
    omega
  · split at hv
    · simp only [List.mem_cons, List.not_mem_nil, or_false] at hv
      omega
    · simp only [List.mem_cons, List.not_mem_nil, or_false] at hv
      omega

theorem raisedBy_lt (g : Gate) : raisedBy g < 256 := by
  unfold raisedBy
  split
  · decide
  · decide

theorem self_mem_causes (vector raised : Nat) : vector ∈ causes vector raised := by
  unfold causes
  split
  case isTrue h =>
    rw [h]
    exact List.mem_singleton_self _
  case isFalse =>
    split
    · exact List.mem_cons_self
    · exact List.mem_cons_self

/-- An interrupt is handled by the gate that has been set last for its vector, if this gate is
accepted; otherwise by that of an exception which this causes, and if none of them is accepted the
processor shuts down. -/
theorem deliver_run (gdt : GdtState) (idt : IdtState) (calls : List IdtCall) (vector : Fin 256) :
    (∀ target, (tables gdt idt calls).deliver vector = .handler vector target ↔
        Accepted (IdtState.lastGate calls vector) ∧
          target = .routine (IdtState.lastGate calls vector).entry
            ((IdtState.lastGate calls vector).kind.getLsbD 0 = false)) ∧
      ((tables gdt idt calls).deliver vector = .shutdown ↔
        ∀ v ∈ causes vector (raisedBy (IdtState.lastGate calls vector)),
          ¬ Accepted (IdtState.lastGate calls v)) := by
  have hself := @enter_tables gdt idt calls vector vector.isLt
  have hrefused : ∀ v < 256, (∃ raised, (tables gdt idt calls).enter v = .error raised) ↔
      ¬ Accepted (IdtState.lastGate calls v) := by
    intro v hv
    rw [enter_tables hv]
    split
    case isTrue haccepted =>
      refine iff_of_false ?_ (not_not.2 haccepted)
      rintro ⟨raised, hraised⟩
      cases hraised
    case isFalse hnot => exact iff_of_true ⟨_, rfl⟩ hnot
  constructor
  · intro target
    rw [Tables.deliver_eq_handler_self_iff, hself]
    split
    case isTrue haccepted =>
      exact ⟨fun h => ⟨haccepted, (Except.ok.inj h).symm⟩, fun h => congrArg Except.ok h.2.symm⟩
    case isFalse hnot =>
      refine iff_of_false ?_ fun h => hnot h.1
      intro h
      cases h
  · -- no gate on the way is accepted
    rw [Tables.deliver_eq_shutdown_iff]
    have hlt : ∀ v ∈ causes vector (raisedBy (IdtState.lastGate calls vector)), v < 256 :=
      causes_lt vector.isLt (raisedBy_lt _)
    constructor
    · rintro ⟨raised, henter, hall⟩
      rw [hself] at henter
      split at henter
      case isTrue => cases henter
      case isFalse =>
        cases henter
        exact fun v hv => (hrefused v (hlt v hv)).1 (hall v hv)
    · intro hall
      refine ⟨raisedBy (IdtState.lastGate calls vector), ?_,
        fun v hv => (hrefused v (hlt v hv)).2 (hall v hv)⟩
      rw [hself, if_neg (hall vector (self_mem_causes _ _))]

/-- Before a gate is set, nothing is handled. -/
theorem deliver_initIdt (gdt : GdtState) (idt : IdtState) (vector : Fin 256) :
    (tables gdt idt []).deliver vector = .shutdown := by
  rw [(deliver_run gdt idt [] vector).2]
  intro v _
  have hempty : ¬ Accepted IdtState.emptyGate := by decide
  exact hempty

end Boot
end WhitexKernel
