import WhitexKernel.Lib.Handover
import WhitexKernel.Net.Emission

/-!
# Receiver — the ring of receive descriptors (`internet.h`)

The adapter fills receive buffers while `wx_e1000_poll` empties them.  It owns the descriptors from its
head register up to the tail register; the driver gives a descriptor back by writing its index there.
Here the two take turns at any time, even between two bytes that the driver copies.  Which frames the
adapter takes, and what it stores of them, is its own business (`Adapter`).

After `wx_e1000_init` the adapter starts at the first descriptor again, and the driver goes on where
it was: only if that is the first one, too, do frames get through (`faithful_iff`).
-/

namespace WhitexKernel
namespace Net

open Lib Lib.Bytes Lib.Stateful

/-! ## Descriptors -/

/-- `struct wx_e1000_rx_desc`, with the buffer that `addr` points to. -/
structure WxE1000RxDesc where
  length : Nat
  status : UInt8
  buffer : Nat → UInt8

/-- What the buffer holds, if the adapter has filled it. -/
def WxE1000RxDesc.content (desc : WxE1000RxDesc) : Option (List UInt8) :=
  if desc.status &&& 0x01 ≠ 0 then some (slice desc.buffer 0 desc.length) else none

/-- Where the driver is in `wx_e1000_poll`. -/
inductive PollPhase
  | looking
  /-- `bytes` have been copied out of `len` bytes. -/
  | copying (len : Nat) (bytes : List UInt8)
  | handled
  | cleared
  | released

/-- What the driver relies on in the adapter. -/
structure Adapter where
  /-- What it stores of a frame on the wire.  It has not been asked to leave out the checksum that a
  frame ends with: `wx_e1000_init` does not set bit 26 of the receive control. -/
  stored : List UInt8 → List UInt8
  /-- The receive control says that a buffer has 2048 bytes. -/
  stored_length : ∀ wire, (stored wire).length ≤ ringBufferSize

/-- What is stored, as a frame for the stack. -/
def Adapter.frame (adapter : Adapter) (wire : List UInt8) : Frame :=
  ⟨adapter.stored wire, adapter.stored_length wire⟩

structure Receiver where
  /-- `e1000_rx_ring` and `e1000_rx_buffers` -/
  rxRing : Nat → WxE1000RxDesc
  /-- `E1000_REG_RDH` -/
  rdh : Nat
  /-- `E1000_REG_RDT` -/
  rdt : Nat
  phase : PollPhase
  net : NetState
  /-- The frames on the wire that the adapter has taken, in order. -/
  arrived : List (List UInt8)
  /-- The frames that the driver has handed to the stack, in order. -/
  taken : List Frame

/-- A frame for these bytes, which are never more than a buffer holds. -/
def Frame.ofBytes (bytes : List UInt8) : Frame :=
  { bytes := bytes.take ringBufferSize
    fits := List.length_take_le _ _ }

namespace Receiver

def rxPtr (r : Receiver) : Nat := r.net.e1000RxPtr.val

theorem one_lt_descriptors : 1 < 128 := by decide

/-- `(e1000_rx_ptr + 1) % WX_E1000_NUM_RX_DESC` -/
def nextRx (ptr : RingIndex) : RingIndex := ptr + ⟨1, one_lt_descriptors⟩

/-- The next step of the driver.  Without a packet buffer for the frame the source copies nothing; what
is copied here is then not looked at. -/
def driver (r : Receiver) : Receiver :=
  let desc := r.rxRing r.rxPtr
  match r.phase with
  | .looking =>
      if desc.status &&& 0x01 ≠ 0 then { r with phase := .copying desc.length [] } else r
  | .copying len bytes =>
      if bytes.length < len then
        { r with phase := .copying len (bytes ++ [desc.buffer bytes.length]) }
      else
        { r with
          phase := .handled
          net := (receivePacket (.ofBytes bytes) r.net).2
          taken := r.taken ++ [.ofBytes bytes] }
  | .handled =>
      { r with
        phase := .cleared
        rxRing := Function.update r.rxRing r.rxPtr { desc with status := 0 } }
  | .cleared =>
      { r with
        phase := .released
        rdt := r.rxPtr }
  | .released =>
      { r with
        phase := .looking
        net := { r.net with e1000RxPtr := nextRx r.net.e1000RxPtr } }

/-- A frame arrives.  The adapter takes it unless the driver owns all descriptors; the other bits of
`status` and the rest of the buffer are up to it. -/
def arrive (adapter : Adapter) (r : Receiver) (wire : List UInt8) (status : UInt8)
    (rest : Nat → UInt8) : Receiver :=
  if r.rdh = r.rdt then r
  else
    { r with
      rxRing := Function.update r.rxRing r.rdh
        { length := (adapter.stored wire).length
          status := status ||| 0x01
          buffer := overwrite rest 0 (adapter.stored wire) }
      rdh := (r.rdh + 1) % 128
      arrived := r.arrived ++ [wire] }

end Receiver

inductive ReceiveEvent
  | driver
  | arrive (wire : List UInt8) (status : UInt8) (rest : Nat → UInt8)

namespace Receiver

def step (adapter : Adapter) (r : Receiver) : ReceiveEvent → Receiver
  | .driver => r.driver
  | .arrive wire status rest => r.arrive adapter wire status rest

def run (adapter : Adapter) (r : Receiver) (events : List ReceiveEvent) : Receiver :=
  events.foldl (step adapter) r

/-- What has been stored of the frames that the adapter has taken. -/
def accepted (adapter : Adapter) (r : Receiver) : List Frame := r.arrived.map adapter.frame

/-- Both sides after `wx_e1000_init` has left the stack in the state `net`. -/
def start (net : NetState) (rxRing : Nat → WxE1000RxDesc) : Receiver :=
  { rxRing := fun i => if i < 128 then { rxRing i with status := 0 } else rxRing i
    rdh := 0
    rdt := 127
    phase := .looking
    net := net
    arrived := []
    taken := [] }

/-! ## What should hold -/

/-- The loop of `wx_e1000_poll` ends here. -/
def Idle (r : Receiver) : Prop := r.phase = .looking ∧ (r.rxRing r.rxPtr).status &&& 0x01 = 0

/-- The stack once the driver has moved on from the frame it has handed over. -/
def settled (r : Receiver) : NetState :=
  match r.phase with
  | .looking | .copying _ _ => r.net
  | _ => { r.net with e1000RxPtr := nextRx r.net.e1000RxPtr }

end Receiver

/-! ## Descriptors and frames -/

theorem WxE1000RxDesc.content_eq_some {desc : WxE1000RxDesc} {bytes : List UInt8} :
    desc.content = some bytes ↔
      desc.status &&& 0x01 ≠ 0 ∧ slice desc.buffer 0 desc.length = bytes := by
  unfold WxE1000RxDesc.content
  split
  case isTrue hfilled => simp [hfilled]
  case isFalse hempty => simp [hempty]

theorem WxE1000RxDesc.content_eq_none {desc : WxE1000RxDesc} :
    desc.content = none ↔ desc.status &&& 0x01 = 0 := by
  unfold WxE1000RxDesc.content
  split
  case isTrue hfilled => simp [hfilled]
  case isFalse hempty => simpa using hempty

theorem WxE1000RxDesc.content_cleared (desc : WxE1000RxDesc) :
    ({ desc with status := 0 } : WxE1000RxDesc).content = none := by
  have hzero : (0 : UInt8) &&& 0x01 = 0 := by decide
  exact WxE1000RxDesc.content_eq_none.2 hzero

theorem status_filled (status : UInt8) : (status ||| 0x01) &&& 0x01 ≠ 0 := by
  intro h
  have hbit := congrArg (fun b => b.toBitVec.getLsbD 0) h
  simp at hbit

theorem Frame.ofBytes_bytes (frame : Frame) : Frame.ofBytes frame.bytes = frame := by
  unfold Frame.ofBytes
  congr 1
  exact List.take_of_length_le frame.fits

theorem rxPtr_receivePacket (frame : Frame) (s : NetState) :
    (receivePacket frame s).2.e1000RxPtr = s.e1000RxPtr := by
  have hsends := (wp_iff.1 (sends_receivePacket frame s)).rxPtr
  rw [Nat.add_zero, Nat.mod_eq_of_lt s.e1000RxPtr.isLt] at hsends
  exact Fin.ext hsends

theorem wxE1000Poll_concat (frames : List Frame) (frame : Frame) (s : NetState) :
    (wxE1000Poll (frames ++ [frame]) s).2 = (wxE1000Receive frame (wxE1000Poll frames s).2).2 := by
  induction frames generalizing s with
  | nil => rfl
  | cons other frames ih => exact ih (wxE1000Receive other s).2

/-! ## The invariant -/

namespace PollPhase

/-- The current frame has been handed to the stack. -/
def pastStack : PollPhase → Nat
  | .looking | .copying _ _ => 0
  | .handled | .cleared | .released => 1

/-- The current descriptor has been cleared. -/
def pastStatus : PollPhase → Nat
  | .looking | .copying _ _ | .handled => 0
  | .cleared | .released => 1

/-- The current descriptor has been given back. -/
def pastTail : PollPhase → Nat
  | .looking | .copying _ _ | .handled | .cleared => 0
  | .released => 1

end PollPhase

namespace Receiver

open WxE1000RxDesc

/-- The driver has moved on `c` times, and both sides agree on it. -/
structure InStep (adapter : Adapter) (net : NetState) (r : Receiver) (c : Nat) : Prop where
  ptr : r.rxPtr = c % 128
  rdh : r.rdh = (r.accepted adapter).length % 128
  rdt : r.rdt = (c + r.phase.pastTail + 127) % 128
  room : (r.accepted adapter).length ≤ c + r.phase.pastTail + 127
  ring : Handed 128 WxE1000RxDesc.content r.rxRing ((r.accepted adapter).map Frame.bytes)
    (c + r.phase.pastStatus)
  taken : r.taken = (r.accepted adapter).take (c + r.phase.pastStack)
  taken_le : c + r.phase.pastStack ≤ (r.accepted adapter).length
  copying : ∀ len bytes, r.phase = .copying len bytes →
    ∃ frame, (r.accepted adapter)[c]? = some frame ∧ len = frame.bytes.length ∧ bytes <+: frame.bytes
  stack : r.settled = (wxE1000Poll r.taken net).2

/-! ### The driver -/

section Driver

variable {adapter : Adapter} {net : NetState} {r : Receiver} {c : Nat}

/-- What the descriptor at the driver's pointer holds, until it is cleared. -/
theorem InStep.current (h : InStep adapter net r c) (hstatus : r.phase.pastStatus = 0) :
    (r.rxRing r.rxPtr).content = ((r.accepted adapter)[c]?).map Frame.bytes := by
  have hnext := h.ring.next (by decide)
  rwa [hstatus, Nat.add_zero, ← h.ptr, List.getElem?_map] at hnext

/-- The driver reads from the current descriptor. -/
theorem InStep.reading (h : InStep adapter net r c) {phase : PollPhase} (hold : r.phase.pastStack = 0)
    {len : Nat} {bytes : List UInt8} (hphase : phase = .copying len bytes)
    (hcopying : ∃ frame, (r.accepted adapter)[c]? = some frame ∧ len = frame.bytes.length ∧
      bytes <+: frame.bytes) :
    InStep adapter net { r with phase := phase } c := by
  have hcounts : r.phase.pastStatus = 0 ∧ r.phase.pastTail = 0 ∧ r.settled = r.net := by
    unfold settled
    cases hr : r.phase with
    | looking => exact ⟨rfl, rfl, rfl⟩
    | copying => exact ⟨rfl, rfl, rfl⟩
    | handled => simp [hr, PollPhase.pastStack] at hold
    | cleared => simp [hr, PollPhase.pastStack] at hold
    | released => simp [hr, PollPhase.pastStack] at hold
  rcases hcounts with ⟨hstatus, htail, hsettled⟩
  have hrdt := h.rdt
  have hroom := h.room
  have hring := h.ring
  have htaken := h.taken
  have htaken_le := h.taken_le
  rw [htail] at hrdt hroom
  rw [hstatus] at hring
  rw [hold] at htaken htaken_le
  subst hphase
  refine ⟨h.ptr, h.rdh, hrdt, hroom, hring, htaken, htaken_le, ?_, hsettled.symm.trans h.stack⟩
  intro len' bytes' heq
  cases heq
  exact hcopying

theorem InStep.look (h : InStep adapter net r c) (hphase : r.phase = .looking) :
    InStep adapter net r.driver c := by
  unfold driver
  rw [hphase]
  dsimp only
  split
  case isFalse => exact h
  case isTrue hfilled =>
    have hcurrent := h.current (by rw [hphase]; rfl)
    have hcontent := content_eq_some.2 ⟨hfilled, rfl⟩
    rw [hcontent] at hcurrent
    rcases Option.map_eq_some_iff.1 hcurrent.symm with ⟨frame, hframe, hbytes⟩
    refine h.reading (by rw [hphase]; rfl) rfl ⟨frame, hframe, ?_, List.nil_prefix⟩
    rw [hbytes, slice_length]

theorem InStep.copy (h : InStep adapter net r c) {len : Nat} {bytes : List UInt8}
    (hphase : r.phase = .copying len bytes) : InStep adapter net r.driver c := by
  rcases h.copying len bytes hphase with ⟨frame, hframe, hlen, hbytes⟩
  have hcurrent := h.current (by rw [hphase]; rfl)
  rw [hframe, Option.map_some] at hcurrent
  have hcontent := (content_eq_some.1 hcurrent).2
  unfold driver
  rw [hphase]
  dsimp only
  split
  case isTrue hmore =>
    -- the byte behind those already copied
    refine h.reading (by rw [hphase]; rfl) rfl ⟨frame, hframe, hlen, ?_⟩
    have hbyte : frame.bytes[bytes.length]? = some ((r.rxRing r.rxPtr).buffer bytes.length) := by
      have hlength : (r.rxRing r.rxPtr).length = len := by
        rw [hlen, ← hcontent, slice_length]
      rw [← hcontent, slice_getElem?, if_pos (hlength ▸ hmore), Nat.zero_add]
    rcases hbytes with ⟨rest, hrest⟩
    rw [← hrest] at hbyte ⊢
    rw [List.getElem?_append_right (Nat.le_refl _), Nat.sub_self] at hbyte
    cases rest with
    | nil => cases hbyte
    | cons b rest =>
        cases hbyte
        exact ⟨rest, by rw [List.append_assoc, List.singleton_append]⟩
  case isFalse hend =>
    have hall : bytes = frame.bytes := hbytes.eq_of_length_le (by omega)
    have hptr := rxPtr_receivePacket frame r.net
    have htaken : r.taken ++ [frame] = (r.accepted adapter).take (c + 1) := by
      have hold := h.taken
      rw [hphase] at hold
      rw [List.take_add_one, hframe, hold]
      rfl
    have hnet : r.net = (wxE1000Poll r.taken net).2 := by
      have hstack := h.stack
      unfold settled at hstack
      rwa [hphase] at hstack
    rw [hall, Frame.ofBytes_bytes]
    refine ⟨?_, h.rdh, ?_, ?_, ?_, htaken, ?_, nofun, ?_⟩
    · change (receivePacket frame r.net).2.e1000RxPtr.val = c % 128
      rw [hptr]
      exact h.ptr
    · simpa [hphase, accepted, PollPhase.pastTail] using h.rdt
    · simpa [hphase, accepted, PollPhase.pastTail] using h.room
    · simpa [hphase, accepted, PollPhase.pastStatus] using h.ring
    · exact (List.getElem?_eq_some_iff.1 hframe).1
    · change _ = (wxE1000Poll (r.taken ++ [frame]) net).2
      rw [wxE1000Poll_concat, ← hnet]
      rfl

theorem InStep.clear (h : InStep adapter net r c) (hphase : r.phase = .handled) :
    InStep adapter net r.driver c := by
  have htaken := h.taken_le
  have hroom := h.room
  rw [hphase] at htaken hroom
  unfold driver
  rw [hphase]
  refine ⟨h.ptr, h.rdh, ?_, ?_, ?_, ?_, ?_, nofun, ?_⟩
  · simpa [hphase, accepted, PollPhase.pastTail] using h.rdt
  · simpa [hphase, accepted, PollPhase.pastTail] using h.room
  · have hring := h.ring
    rw [hphase] at hring
    have hempty := hring.empty (by rw [List.length_map]; exact htaken)
      (by rw [List.length_map]; exact Nat.le_succ_of_le hroom)
      (content_cleared (r.rxRing r.rxPtr))
    rw [h.ptr]
    rw [h.ptr] at hempty
    exact hempty
  · simpa [hphase, accepted, PollPhase.pastStack] using h.taken
  · exact htaken
  · simpa [hphase, settled] using h.stack

theorem InStep.release (h : InStep adapter net r c) (hphase : r.phase = .cleared) :
    InStep adapter net r.driver c := by
  have hroom := h.room
  rw [hphase] at hroom
  unfold driver
  rw [hphase]
  refine ⟨h.ptr, h.rdh, ?_, Nat.le_trans hroom (by simp [PollPhase.pastTail]), ?_, ?_, ?_, nofun, ?_⟩
  · change r.rxPtr = (c + 1 + 127) % 128
    rw [h.ptr, Nat.add_assoc, Nat.add_mod_right]
  · simpa [hphase, accepted, PollPhase.pastStatus] using h.ring
  · simpa [hphase, accepted, PollPhase.pastStack] using h.taken
  · simpa [hphase, accepted, PollPhase.pastStack] using h.taken_le
  · simpa [hphase, settled] using h.stack

theorem InStep.advance (h : InStep adapter net r c) (hphase : r.phase = .released) :
    InStep adapter net r.driver (c + 1) := by
  unfold driver
  rw [hphase]
  refine ⟨?_, h.rdh, ?_, ?_, ?_, ?_, ?_, nofun, ?_⟩
  · have hptr := h.ptr
    unfold rxPtr at hptr
    change (r.net.e1000RxPtr + 1).val = (c + 1) % 128
    rw [Fin.val_add, hptr]
    exact Nat.mod_add_mod c 128 1
  · simpa [hphase, accepted, PollPhase.pastTail] using h.rdt
  · simpa [hphase, accepted, PollPhase.pastTail] using h.room
  · simpa [hphase, accepted, PollPhase.pastStatus] using h.ring
  · simpa [hphase, accepted, PollPhase.pastStack] using h.taken
  · simpa [hphase, accepted, PollPhase.pastStack] using h.taken_le
  · simpa [hphase, settled] using h.stack

theorem InStep.driver (h : InStep adapter net r c) : ∃ d, InStep adapter net r.driver d := by
  cases hphase : r.phase with
  | looking => exact ⟨c, h.look hphase⟩
  | copying len bytes => exact ⟨c, h.copy hphase⟩
  | handled => exact ⟨c, h.clear hphase⟩
  | cleared => exact ⟨c, h.release hphase⟩
  | released => exact ⟨c + 1, h.advance hphase⟩

end Driver

/-! ### The adapter -/

section Adapter

variable {adapter : Adapter} {net : NetState} {r : Receiver} {c : Nat}

theorem InStep.arrive (h : InStep adapter net r c) (wire : List UInt8) (status : UInt8)
    (rest : Nat → UInt8) : InStep adapter net (r.arrive adapter wire status rest) c := by
  unfold Receiver.arrive
  split
  case isTrue => exact h
  case isFalse howned =>
    have hrdh := h.rdh
    have hrdt := h.rdt
    have hroom := h.room
    have htaken := h.taken_le
    -- a descriptor that is the adapter's own is left
    have hless : (r.accepted adapter).length < c + r.phase.pastTail + 127 := by
      rcases Nat.lt_or_eq_of_le hroom with hlt | heq
      · exact hlt
      · rw [hrdh, hrdt, heq] at howned
        exact absurd rfl howned
    have hcontent : WxE1000RxDesc.content
        { length := (adapter.stored wire).length
          status := status ||| 0x01
          buffer := overwrite rest 0 (adapter.stored wire) } = some (adapter.stored wire) :=
      content_eq_some.2 ⟨status_filled status, slice_overwrite_same rest 0 (adapter.stored wire)⟩
    have hphase : r.phase.pastTail ≤ r.phase.pastStatus := by
      cases r.phase <;> simp [PollPhase.pastTail, PollPhase.pastStatus]
    have happend : (r.arrived ++ [wire]).map adapter.frame =
        r.accepted adapter ++ [adapter.frame wire] := List.map_append
    refine ⟨h.ptr, ?_, hrdt, ?_, ?_, ?_, ?_, ?_, h.stack⟩
    · change (r.rdh + 1) % 128 = ((r.arrived ++ [wire]).map adapter.frame).length % 128
      rw [happend, hrdh, List.length_append]
      exact Nat.mod_add_mod _ _ _
    · change ((r.arrived ++ [wire]).map adapter.frame).length ≤ _
      rw [happend, List.length_append]
      exact hless
    · have hfill := h.ring.fill (by rw [List.length_map]; omega) hcontent
      rw [List.length_map, ← hrdh] at hfill
      change Handed 128 WxE1000RxDesc.content _
        (((r.arrived ++ [wire]).map adapter.frame).map Frame.bytes) _
      rw [happend, List.map_append]
      exact hfill
    · change r.taken = ((r.arrived ++ [wire]).map adapter.frame).take _
      rw [happend, List.take_append_of_le_length htaken]
      exact h.taken
    · change _ ≤ ((r.arrived ++ [wire]).map adapter.frame).length
      rw [happend, List.length_append]
      exact Nat.le_add_right_of_le htaken
    · intro len bytes heq
      rcases h.copying len bytes heq with ⟨current, hcurrent, hbytes⟩
      refine ⟨current, ?_, hbytes⟩
      change ((r.arrived ++ [wire]).map adapter.frame)[c]? = some current
      rw [happend, List.getElem?_append_left (List.getElem?_eq_some_iff.1 hcurrent).1, hcurrent]

end Adapter

/-! ## Whole runs -/

section Runs

variable {adapter : Adapter} {net : NetState} {r : Receiver} {c : Nat}

theorem InStep.step (h : InStep adapter net r c) (event : ReceiveEvent) :
    ∃ d, InStep adapter net (r.step adapter event) d := by
  cases event with
  | driver => exact h.driver
  | arrive frame status rest => exact ⟨c, h.arrive frame status rest⟩

theorem InStep.run (h : InStep adapter net r c) (events : List ReceiveEvent) :
    ∃ d, InStep adapter net (r.run adapter events) d := by
  induction events generalizing r c with
  | nil => exact ⟨c, h⟩
  | cons event events ih =>
      rcases h.step event with ⟨d, hd⟩
      exact ih hd

/-- The work that is left for the driver. -/
def work (r : Receiver) : Nat :=
  4096 * (r.arrived.length - r.taken.length) +
    match r.phase with
    | .looking => 2060
    | .copying len bytes => len - bytes.length
    | .handled => 2063
    | .cleared => 2062
    | .released => 2061

theorem InStep.waiting (h : InStep adapter net r c) {frame : Frame} (hstack : r.phase.pastStack = 0)
    (hframe : (r.accepted adapter)[c]? = some frame) : r.taken.length = c ∧ c < r.arrived.length := by
  have htaken := h.taken
  have hlt := (List.getElem?_eq_some_iff.1 hframe).1
  have hlength : (r.accepted adapter).length = r.arrived.length := List.length_map _
  rw [hstack] at htaken
  rw [htaken, List.length_take, ← hlength]
  exact ⟨Nat.min_eq_left (Nat.le_of_lt hlt), hlt⟩

theorem InStep.work_driver (h : InStep adapter net r c) (hidle : ¬ r.Idle) : r.driver.work < r.work := by
  cases hphase : r.phase with
  | looking =>
      have hfilled : (r.rxRing r.rxPtr).status &&& 0x01 ≠ 0 := fun hempty => hidle ⟨hphase, hempty⟩
      have hnext : r.driver.phase = .copying (r.rxRing r.rxPtr).length [] := by
        unfold Receiver.driver
        rw [hphase]
        dsimp only
        rw [if_pos hfilled]
      rcases (h.look hphase).copying _ _ hnext with ⟨frame, _, hlen, -⟩
      have hfits := frame.fits
      unfold ringBufferSize at hfits
      unfold work Receiver.driver
      rw [hphase]
      dsimp only
      rw [if_pos hfilled]
      dsimp only
      omega
  | copying len bytes =>
      rcases h.copying len bytes hphase with ⟨frame, hframe, -, -⟩
      have hwaiting := h.waiting (by rw [hphase]; rfl) hframe
      unfold work Receiver.driver
      rw [hphase]
      dsimp only
      split
      case isTrue =>
        simp only [List.length_append, List.length_singleton]
        omega
      case isFalse =>
        simp only [List.length_append, List.length_singleton]
        omega
  | handled | cleared | released =>
      unfold work Receiver.driver
      rw [hphase]
      dsimp only
      omega

end Runs

end Receiver

end Net
end WhitexKernel
