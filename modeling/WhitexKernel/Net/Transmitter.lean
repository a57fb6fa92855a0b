import WhitexKernel.Net.Receiver

/-!
# Transmitter — the ring of transmit descriptors (`internet.h`)

`wx_e1000_tx_raw` fills in a descriptor, hands it over by the tail register and waits until the adapter
has marked it.  The adapter works through the descriptors from its head register to the tail register
and fetches what belongs to one packet; it may act between any two stores of the driver.  What it adds
to a packet before that goes onto the wire is its own business: `wx_e1000_init` has it fill up short
packets, and `wx_e1000_tx_raw` asks for a checksum.

`wx_e1000_init` sends the adapter back to the first descriptor, and the driver goes on where it was.  The
descriptors in between are then handed over with the next frame: what is left in them is fetched in
front of it, and with all others in between nothing is fetched at all (`verbatim_iff`).
-/

namespace WhitexKernel
namespace Net

open Lib Lib.Bytes

/-! ## Descriptors -/

/-- `struct wx_e1000_tx_desc`, with the buffer that `addr` points to. -/
structure WxE1000TxDesc where
  length : Nat
  cmd : UInt8
  sta : UInt8
  buffer : Nat → UInt8

def WxE1000TxDesc.content (desc : WxE1000TxDesc) : List UInt8 := slice desc.buffer 0 desc.length

/-- Where the driver is in `wx_e1000_tx_raw`. -/
inductive SendPhase
  | returned
  /-- `n` bytes of the frame have been copied. -/
  | copying (frame : Frame) (n : Nat)
  | sized
  | commanded
  | pending
  | advanced
  | waiting

structure Transmitter where
  /-- `e1000_tx_ring` and `e1000_tx_buffers` -/
  txRing : Nat → WxE1000TxDesc
  /-- `e1000_tx_ptr` -/
  txPtr : Nat
  /-- `E1000_REG_TDH` -/
  tdh : Nat
  /-- `E1000_REG_TDT` -/
  tdt : Nat
  phase : SendPhase
  /-- What the adapter has fetched of a packet that has no end yet. -/
  packet : List UInt8
  /-- The packets that the adapter has fetched to send them, in order. -/
  sent : List (List UInt8)
  /-- The frames that the driver has been called with and does not turn away, in order. -/
  requested : List Frame

namespace Transmitter

/-- The state with another descriptor at the driver's pointer. -/
def setDesc (t : Transmitter) (desc : WxE1000TxDesc) (phase : SendPhase) : Transmitter :=
  { t with
    txRing := Function.update t.txRing t.txPtr desc
    phase := phase }

/-- `wx_e1000_tx_raw` is called; it returns at once if the packet is too long.  It is not called while
it runs. -/
def call (t : Transmitter) (bytes : List UInt8) : Transmitter :=
  match t.phase with
  | .returned =>
      if h : bytes.length ≤ ringBufferSize then
        { t with
          phase := .copying ⟨bytes, h⟩ 0
          requested := t.requested ++ [⟨bytes, h⟩] }
      else t
  | _ => t

/-- The next step of the driver. -/
def driver (t : Transmitter) : Transmitter :=
  let desc := t.txRing t.txPtr
  match t.phase with
  | .returned => t
  | .copying frame n =>
      if n < frame.bytes.length then
        t.setDesc { desc with buffer := Function.update desc.buffer n (frame.bytes.getD n 0) }
          (.copying frame (n + 1))
      else t.setDesc { desc with length := frame.bytes.length } .sized
  -- `(1 << 3) | (1 << 1) | (1 << 0)`
  | .sized => t.setDesc { desc with cmd := 0x0B } .commanded
  | .commanded => t.setDesc { desc with sta := 0 } .pending
  | .pending =>
      { t with
        txPtr := (t.txPtr + 1) % 128
        phase := .advanced }
  | .advanced =>
      { t with
        tdt := t.txPtr
        phase := .waiting }
  | .waiting =>
      if (t.txRing ((t.txPtr + 127) % 128)).sta &&& 0x0F ≠ 0 then { t with phase := .returned } else t

/-- The adapter fetches a descriptor, if there is one for it.  Bit 0 of the command ends the packet, and
bit 3 asks for a mark. -/
def adapter (t : Transmitter) : Transmitter :=
  let desc := t.txRing t.tdh
  if t.tdh = t.tdt then t
  else
    let t :=
      { t with
        txRing := Function.update t.txRing t.tdh
          { desc with sta := if desc.cmd &&& 0x08 ≠ 0 then desc.sta ||| 0x01 else desc.sta }
        tdh := (t.tdh + 1) % 128 }
    if desc.cmd &&& 0x01 ≠ 0 then
      { t with
        packet := []
        sent := t.sent ++ [t.packet ++ desc.content] }
    else { t with packet := t.packet ++ desc.content }

end Transmitter

inductive SendEvent
  | call (bytes : List UInt8)
  | driver
  | adapter

namespace Transmitter

def step (t : Transmitter) : SendEvent → Transmitter
  | .call bytes => t.call bytes
  | .driver => t.driver
  | .adapter => t.adapter

def run (t : Transmitter) (events : List SendEvent) : Transmitter := events.foldl step t

/-- Both sides after `wx_e1000_init` has left the stack in the state `net`. -/
def start (net : NetState) (txRing : Nat → WxE1000TxDesc) : Transmitter :=
  { txRing := fun i =>
      if i < 128 then
        { txRing i with
          cmd := 0
          sta := 1 }
      else txRing i
    txPtr := net.e1000TxPtr.val
    tdh := 0
    tdt := 0
    phase := .returned
    packet := []
    sent := []
    requested := [] }

/-! ## What should hold -/

/-- What the adapter fetches is what the driver has been called with. -/
structure Verbatim (net : NetState) (t : Transmitter) : Prop where
  order : t.sent <+: t.requested.map Frame.bytes
  /-- When a call returns, its frame has left, and the stack is right to count it as sent. -/
  complete : t.phase = .returned →
    t.sent = t.requested.map Frame.bytes ∧
      ((t.requested.map Frame.bytes).foldl NetState.sent net).e1000TxPtr.val = t.txPtr
  /-- A call can return, if the adapter goes on. -/
  progress : ∃ events, (∀ event ∈ events, event = .driver ∨ event = .adapter) ∧
    (t.run events).phase = .returned

end Transmitter

/-! ## The invariant -/

/-- The contents of `n` descriptors of the ring, from `base` on. -/
def contents (txRing : Nat → WxE1000TxDesc) (base n : Nat) : List UInt8 :=
  (List.range n).flatMap fun i => (txRing ((base + i) % 128)).content

/-- The packets sent for these frames when `stale` goes in front of the first one. -/
def behindStale (stale : List UInt8) : List (List UInt8) → List (List UInt8)
  | [] => []
  | frame :: frames => (stale ++ frame) :: frames

namespace Transmitter

/-- The adapter has nothing to do, and `old` descriptors that it has not come by lie between it and
descriptor `base + old`, the next one to be used. -/
structure AtRest (stale : List UInt8) (t : Transmitter) (base old : Nat) (done : List Frame) :
    Prop where
  tdh : t.tdh = base % 128
  tdt : t.tdt = base % 128
  packet : t.packet = []
  old_le : old ≤ 126
  unused : ∀ i < old, (t.txRing ((base + i) % 128)).cmd = 0
  sent : t.sent = behindStale stale (done.map Frame.bytes)
  left : contents t.txRing base old = if done = [] then stale else []

/-- How far the descriptor for `frame` has been filled in. -/
def Prepared (t : Transmitter) (frame : Frame) (current : Nat) : Prop :=
  match t.phase with
  | .returned | .waiting => False
  | .copying frame' n =>
      frame' = frame ∧ t.txPtr = current ∧ n ≤ frame.bytes.length ∧
        slice (t.txRing current).buffer 0 n = frame.bytes.take n
  | .sized => t.txPtr = current ∧ (t.txRing current).content = frame.bytes
  | .commanded => t.txPtr = current ∧ (t.txRing current).content = frame.bytes ∧
      (t.txRing current).cmd = 0x0B
  | .pending => t.txPtr = current ∧ (t.txRing current).content = frame.bytes ∧
      (t.txRing current).cmd = 0x0B ∧ (t.txRing current).sta = 0
  | .advanced => t.txPtr = (current + 1) % 128 ∧ (t.txRing current).content = frame.bytes ∧
      (t.txRing current).cmd = 0x0B ∧ (t.txRing current).sta = 0

/-- The driver waits for the adapter, which has fetched `n` descriptors. -/
structure Fetching (stale : List UInt8) (t : Transmitter) (base old : Nat) (done : List Frame)
    (frame : Frame) (n : Nat) : Prop where
  tdh : t.tdh = (base + n) % 128
  tdt : t.tdt = (base + old + 1) % 128
  ptr : t.txPtr = (base + old + 1) % 128
  n_le : n ≤ old
  old_le : old ≤ 126
  unused : ∀ i, n ≤ i → i < old → (t.txRing ((base + i) % 128)).cmd = 0
  sent : t.sent = behindStale stale (done.map Frame.bytes)
  left : t.packet ++ contents t.txRing (base + n) (old - n) = if done = [] then stale else []
  content : (t.txRing ((base + old) % 128)).content = frame.bytes
  cmd : (t.txRing ((base + old) % 128)).cmd = 0x0B
  sta : (t.txRing ((base + old) % 128)).sta = 0

/-- `start` is the driver's pointer at first. -/
inductive InTurn (start : Nat) (stale : List UInt8) (t : Transmitter) : Prop
  | returned (base old : Nat) (hphase : t.phase = .returned)
      (hrest : t.AtRest stale base old t.requested) (hptr : t.txPtr = (base + old) % 128)
      (hcount : (base + old) % 128 = (start + t.requested.length) % 128)
  | preparing (base old : Nat) (done : List Frame) (frame : Frame)
      (hrequested : t.requested = done ++ [frame]) (hrest : t.AtRest stale base old done)
      (hprepared : t.Prepared frame ((base + old) % 128))
      (hcount : (base + old) % 128 = (start + done.length) % 128)
  | fetching (base old : Nat) (done : List Frame) (frame : Frame) (n : Nat)
      (hphase : t.phase = .waiting) (hrequested : t.requested = done ++ [frame])
      (hfetching : t.Fetching stale base old done frame n)
      (hcount : (base + old) % 128 = (start + done.length) % 128)
  | fetched (base : Nat) (hphase : t.phase = .waiting)
      (hrest : t.AtRest stale base 0 t.requested) (hptr : t.txPtr = base % 128)
      (hmark : (t.txRing ((base + 127) % 128)).sta &&& 0x0F ≠ 0)
      (hcount : base % 128 = (start + t.requested.length) % 128)

/-! ### The driver -/

section Driver

variable {start base old : Nat} {stale : List UInt8} {t : Transmitter} {done : List Frame}
  {frame : Frame}

/-- Slots of one round of the ring that are not the last one. -/
theorem slot_ne (base : Nat) {i : Nat} (hi : i < old) (hold : old ≤ 127) :
    (base + i) % 128 ≠ (base + old) % 128 :=
  mod_ne_of_window (N := 128) (n := base) (by omega) (by omega) (by omega) (by omega) (by omega)

theorem contents_congr {ring ring' : Nat → WxE1000TxDesc}
    (h : ∀ i < old, ring ((base + i) % 128) = ring' ((base + i) % 128)) :
    contents ring base old = contents ring' base old := by
  unfold contents
  refine List.flatMap_congr fun i hi => ?_
  rw [h i (List.mem_range.1 hi)]

theorem AtRest.congr {t' : Transmitter} (h : t.AtRest stale base old done)
    (hring : ∀ i < old, t'.txRing ((base + i) % 128) = t.txRing ((base + i) % 128))
    (htdh : t'.tdh = t.tdh) (htdt : t'.tdt = t.tdt) (hpacket : t'.packet = t.packet)
    (hsent : t'.sent = t.sent) : t'.AtRest stale base old done where
  tdh := htdh.trans h.tdh
  tdt := htdt.trans h.tdt
  packet := hpacket.trans h.packet
  old_le := h.old_le
  unused i hi := by
    rw [hring i hi]
    exact h.unused i hi
  sent := hsent.trans h.sent
  left := (contents_congr hring).trans h.left

/-- The descriptor that is filled in is none of those that the adapter has to come by before it. -/
theorem AtRest.setDesc (h : t.AtRest stale base old done) (hptr : t.txPtr = (base + old) % 128)
    (desc : WxE1000TxDesc) (phase : SendPhase) : (t.setDesc desc phase).AtRest stale base old done := by
  refine h.congr (fun i hi => ?_) rfl rfl rfl rfl
  have hne := slot_ne base hi (Nat.le_succ_of_le h.old_le)
  rw [← hptr] at hne
  exact Function.update_of_ne hne _ _

theorem setDesc_current (t : Transmitter) (desc : WxE1000TxDesc) (phase : SendPhase) {current : Nat}
    (hptr : t.txPtr = current) : (t.setDesc desc phase).txRing current = desc := by
  rw [← hptr]
  exact Function.update_self _ _ _

/-- One more byte has been copied. -/
theorem slice_update {buffer : Nat → UInt8} {bytes : List UInt8} {n : Nat} (hn : n < bytes.length)
    (h : slice buffer 0 n = bytes.take n) :
    slice (Function.update buffer n (bytes.getD n 0)) 0 (n + 1) = bytes.take (n + 1) := by
  have hlast : slice (Function.update buffer n (bytes.getD n 0)) n 1 = [bytes.getD n 0] := by
    simp [slice]
  have hfirst : slice (Function.update buffer n (bytes.getD n 0)) 0 n = slice buffer 0 n := by
    refine slice_congr fun i hi => ?_
    rw [Nat.zero_add]
    exact Function.update_of_ne (Nat.ne_of_lt hi) _ _
  rw [slice_append, hfirst, Nat.zero_add, hlast, h, List.take_add_one,
    List.getElem?_eq_getElem hn, List.getD_eq_getElem _ _ hn]
  rfl

theorem InTurn.call (h : InTurn start stale t) (bytes : List UInt8) :
    InTurn start stale (t.call bytes) := by
  unfold Transmitter.call
  split
  case h_2 => exact h
  case h_1 hphase =>
    split
    case isFalse => exact h
    case isTrue hshort =>
      cases h with
      | returned base old _ hrest hptr hcount =>
          refine .preparing base old t.requested ⟨bytes, hshort⟩ rfl
            (hrest.congr (fun _ _ => rfl) rfl rfl rfl rfl) ⟨rfl, hptr, Nat.zero_le _, ?_⟩ hcount
          rw [List.take_zero]
          rfl
      | preparing base old done frame' hrequested hrest hprepared hcount =>
          unfold Prepared at hprepared
          rw [hphase] at hprepared
          exact hprepared.elim
      | fetching base old done frame' n hwaiting => rw [hphase] at hwaiting; cases hwaiting
      | fetched base hwaiting => rw [hphase] at hwaiting; cases hwaiting

/-- The driver works on a descriptor that the adapter does not look at. -/
theorem InTurn.prepare (hrequested : t.requested = done ++ [frame])
    (hrest : t.AtRest stale base old done) (hprepared : t.Prepared frame ((base + old) % 128))
    (hcount : (base + old) % 128 = (start + done.length) % 128) :
    InTurn start stale t.driver := by
  unfold Prepared at hprepared
  unfold Transmitter.driver
  cases hphase : t.phase with
  | returned | waiting =>
      rw [hphase] at hprepared
      exact hprepared.elim
  | copying frame' n =>
      rw [hphase] at hprepared
      rcases hprepared with ⟨rfl, hptr, hn, hcopied⟩
      dsimp only
      split
      case isTrue hless =>
        refine .preparing base old done frame' hrequested (hrest.setDesc hptr _ _)
          ⟨rfl, hptr, hless, ?_⟩ hcount
        rw [setDesc_current t _ _ hptr, hptr]
        exact slice_update hless hcopied
      case isFalse hend =>
        have hall : n = frame'.bytes.length := Nat.le_antisymm hn (Nat.le_of_not_lt hend)
        refine .preparing base old done frame' hrequested (hrest.setDesc hptr _ _) ⟨hptr, ?_⟩ hcount
        rw [setDesc_current t _ _ hptr, hptr]
        rw [hall, List.take_length] at hcopied
        exact hcopied
  | sized =>
      rw [hphase] at hprepared
      rcases hprepared with ⟨hptr, hcontent⟩
      refine .preparing base old done frame hrequested (hrest.setDesc hptr _ _) ⟨hptr, ?_⟩ hcount
      rw [setDesc_current t _ _ hptr, hptr]
      exact ⟨hcontent, rfl⟩
  | commanded =>
      rw [hphase] at hprepared
      rcases hprepared with ⟨hptr, hcontent, hcmd⟩
      refine .preparing base old done frame hrequested (hrest.setDesc hptr _ _) ⟨hptr, ?_⟩ hcount
      rw [setDesc_current t _ _ hptr, hptr]
      exact ⟨hcontent, hcmd, rfl⟩
  | pending =>
      rw [hphase] at hprepared
      rcases hprepared with ⟨hptr, hcontent, hcmd, hsta⟩
      refine .preparing base old done frame hrequested
        (hrest.congr (fun _ _ => rfl) rfl rfl rfl rfl) ⟨?_, hcontent, hcmd, hsta⟩ hcount
      rw [hptr]
  | advanced =>
      rw [hphase] at hprepared
      rcases hprepared with ⟨hptr, hcontent, hcmd, hsta⟩
      have hnext : t.txPtr = (base + old + 1) % 128 := by
        rw [hptr, Nat.mod_add_mod]
      refine .fetching base old done frame 0 rfl hrequested ?_ hcount
      exact
        { tdh := hrest.tdh
          tdt := hnext
          ptr := hnext
          n_le := Nat.zero_le _
          old_le := hrest.old_le
          unused := fun i _ hi => hrest.unused i hi
          sent := hrest.sent
          left := by
            rw [hrest.packet]
            exact hrest.left
          content := hcontent
          cmd := hcmd
          sta := hsta }

theorem InTurn.driver (h : InTurn start stale t) : InTurn start stale t.driver := by
  cases h with
  | returned base old hphase hrest hptr hcount =>
      unfold Transmitter.driver
      rw [hphase]
      exact .returned base old hphase hrest hptr hcount
  | preparing base old done frame hrequested hrest hprepared hcount =>
      exact .prepare hrequested hrest hprepared hcount
  | fetching base old done frame n hphase hrequested hfetching hcount =>
      -- no mark yet
      have hcurrent : (t.txPtr + 127) % 128 = (base + old) % 128 := by
        rw [hfetching.ptr]
        omega
      unfold Transmitter.driver
      rw [hphase, hcurrent, hfetching.sta]
      exact .fetching base old done frame n hphase hrequested hfetching hcount
  | fetched base hphase hrest hptr hmark hcount =>
      have hlast : (t.txPtr + 127) % 128 = (base + 127) % 128 := by
        rw [hptr]
        omega
      unfold Transmitter.driver
      rw [hphase, hlast]
      dsimp only
      rw [if_pos hmark]
      exact .returned base 0 rfl (hrest.congr (fun _ _ => rfl) rfl rfl rfl rfl) hptr hcount

end Driver

/-! ### The adapter -/

section Adapter

variable {start base old n : Nat} {stale : List UInt8} {t : Transmitter} {done : List Frame}
  {frame : Frame}

theorem contents_succ (txRing : Nat → WxE1000TxDesc) (base n : Nat) :
    contents txRing base (n + 1) =
      (txRing (base % 128)).content ++ contents txRing (base + 1) n := by
  unfold contents
  rw [List.range_succ_eq_map, List.flatMap_cons, List.flatMap_map]
  refine congrArg _ (List.flatMap_congr fun i _ => ?_)
  rw [Nat.succ_eq_add_one, Nat.add_assoc, Nat.add_comm 1 i]

theorem behindStale_concat (stale : List UInt8) (frames : List (List UInt8)) (last : List UInt8) :
    behindStale stale (frames ++ [last]) =
      behindStale stale frames ++ [(if frames = [] then stale else []) ++ last] := by
  cases frames with
  | nil => rfl
  | cons frame frames => rfl

/-- Without a descriptor the adapter does nothing. -/
theorem AtRest.adapter (h : t.AtRest stale base old done) : t.adapter = t := by
  unfold Transmitter.adapter
  exact if_pos (h.tdh.trans h.tdt.symm)

theorem Fetching.owned (h : t.Fetching stale base old done frame n) : t.tdh ≠ t.tdt := by
  have hn := h.n_le
  have hold := h.old_le
  rw [h.tdh, h.tdt]
  exact mod_ne_of_window (N := 128) (n := base) (by omega) (by omega) (by omega) (by omega) (by omega)

/-- A descriptor that has no end of a packet in it. -/
theorem Fetching.fetch_old (h : t.Fetching stale base old done frame n) (hlt : n < old) :
    t.adapter.Fetching stale base old done frame (n + 1) ∧ t.adapter.phase = t.phase ∧
      t.adapter.requested = t.requested := by
  have hcmd := h.unused n (Nat.le_refl n) hlt
  rw [← h.tdh] at hcmd
  have hend : ¬ (0 : UInt8) &&& 0x01 ≠ 0 := by decide
  have hmark : ¬ (0 : UInt8) &&& 0x08 ≠ 0 := by decide
  have hsame : t.adapter =
      { t with
        tdh := (t.tdh + 1) % 128
        packet := t.packet ++ (t.txRing t.tdh).content } := by
    unfold Transmitter.adapter
    dsimp only
    rw [if_neg h.owned, hcmd, if_neg hend, if_neg hmark]
    congr 1
    rw [← hcmd]
    exact Function.update_eq_self _ _
  rw [hsame]
  refine ⟨?_, rfl, rfl⟩
  exact
    { tdh := by
        change (t.tdh + 1) % 128 = _
        rw [h.tdh, Nat.mod_add_mod, Nat.add_assoc]
      tdt := h.tdt
      ptr := h.ptr
      n_le := hlt
      old_le := h.old_le
      unused := fun i hi => h.unused i (Nat.le_of_succ_le hi)
      sent := h.sent
      left := by
        have hrest : old - n = (old - (n + 1)) + 1 := by omega
        have hleft := h.left
        rw [hrest, contents_succ, ← h.tdh, ← List.append_assoc] at hleft
        exact hleft
      content := h.content
      cmd := h.cmd
      sta := h.sta }

/-- The descriptor of the frame. -/
theorem Fetching.fetch_last (h : t.Fetching stale base old done frame old)
    (hrequested : t.requested = done ++ [frame]) :
    t.adapter.AtRest stale (base + old + 1) 0 t.adapter.requested ∧
      (t.adapter.txRing ((base + old + 1 + 127) % 128)).sta &&& 0x0F ≠ 0 ∧
      t.adapter.phase = t.phase ∧ t.adapter.requested = t.requested ∧ t.adapter.txPtr = t.txPtr := by
  have hcmd := h.cmd
  have hsta := h.sta
  have hcontent := h.content
  have hleft := h.left
  rw [← h.tdh] at hcmd hsta hcontent
  rw [Nat.sub_self] at hleft
  have hnone : contents t.txRing (base + old) 0 = [] := rfl
  rw [hnone, List.append_nil] at hleft
  have hend : (0x0B : UInt8) &&& 0x01 ≠ 0 := by decide
  have hmark : (0x0B : UInt8) &&& 0x08 ≠ 0 := by decide
  have hsame : t.adapter =
      { t with
        txRing := Function.update t.txRing t.tdh { t.txRing t.tdh with sta := 0x01 }
        tdh := (t.tdh + 1) % 128
        packet := []
        sent := t.sent ++ [t.packet ++ frame.bytes] } := by
    unfold Transmitter.adapter
    dsimp only
    rw [if_neg h.owned, hcmd, if_pos hend, if_pos hmark, hsta, hcontent]
    rfl
  rw [hsame]
  refine ⟨?_, ?_, rfl, rfl, rfl⟩
  · exact
      { tdh := by
          change (t.tdh + 1) % 128 = _
          rw [h.tdh, Nat.mod_add_mod]
        tdt := h.tdt
        packet := rfl
        old_le := Nat.zero_le _
        unused := fun i hi => absurd hi (Nat.not_lt_zero i)
        sent := by
          change t.sent ++ [t.packet ++ frame.bytes] = behindStale stale (t.requested.map Frame.bytes)
          rw [hrequested, List.map_append, List.map_singleton, behindStale_concat, ← h.sent, hleft]
          simp only [List.map_eq_nil_iff]
        left := by
          change [] = if t.requested = [] then stale else []
          rw [hrequested, if_neg (List.append_ne_nil_of_right_ne_nil _ (List.cons_ne_nil _ _))] }
  · have hslot : (base + old + 1 + 127) % 128 = t.tdh := by
      rw [h.tdh, Nat.add_assoc, Nat.add_mod_right]
    have hbit : (0x01 : UInt8) &&& 0x0F ≠ 0 := by decide
    dsimp only
    rw [hslot, Function.update_self]
    exact hbit

theorem InTurn.adapter (h : InTurn start stale t) : InTurn start stale t.adapter := by
  cases h with
  | returned base old hphase hrest hptr hcount =>
      rw [hrest.adapter]
      exact .returned base old hphase hrest hptr hcount
  | preparing base old done frame hrequested hrest hprepared hcount =>
      rw [hrest.adapter]
      exact .preparing base old done frame hrequested hrest hprepared hcount
  | fetching base old done frame n hphase hrequested hfetching hcount =>
      rcases Nat.lt_or_eq_of_le hfetching.n_le with hlt | rfl
      · rcases hfetching.fetch_old hlt with ⟨hnext, hphase', hrequested'⟩
        exact .fetching base old done frame (n + 1) (hphase'.trans hphase)
          (hrequested'.trans hrequested) hnext hcount
      · rcases hfetching.fetch_last hrequested with ⟨hrest, hmark, hphase', hrequested', hptr⟩
        refine .fetched (base + n + 1) (hphase'.trans hphase) hrest (hptr.trans hfetching.ptr) hmark ?_
        rw [hrequested', hrequested, List.length_append, List.length_singleton, ← Nat.add_assoc]
        rw [Nat.add_mod, hcount, ← Nat.add_mod]
  | fetched base hphase hrest hptr hmark hcount =>
      rw [hrest.adapter]
      exact .fetched base hphase hrest hptr hmark hcount

end Adapter

/-! ## Whole runs -/

section Runs

variable {start : Nat} {stale : List UInt8} {t : Transmitter}

theorem InTurn.step (h : InTurn start stale t) (event : SendEvent) :
    InTurn start stale (t.step event) := by
  cases event with
  | call bytes => exact h.call bytes
  | driver => exact h.driver
  | adapter => exact h.adapter

theorem InTurn.run (h : InTurn start stale t) (events : List SendEvent) :
    InTurn start stale (t.run events) := by
  induction events generalizing t with
  | nil => exact h
  | cons event events ih => exact ih (h.step event)

/-- The work that is left before the driver returns. -/
def work (t : Transmitter) : Nat :=
  match t.phase with
  | .returned => 0
  | .waiting => 1 + (t.tdt + 128 - t.tdh) % 128
  | .advanced => 200
  | .pending => 201
  | .commanded => 202
  | .sized => 203
  | .copying frame n => 204 + (frame.bytes.length - n)

theorem Prepared.work_driver {frame : Frame} {current : Nat} (h : t.Prepared frame current) :
    t.driver.work < t.work := by
  unfold Prepared at h
  cases hphase : t.phase with
  | returned | waiting =>
      rw [hphase] at h
      exact h.elim
  | copying frame' n =>
      unfold work Transmitter.driver
      rw [hphase]
      dsimp only
      by_cases hless : n < frame'.bytes.length
      · rw [if_pos hless]
        change 204 + (frame'.bytes.length - (n + 1)) < 204 + (frame'.bytes.length - n)
        omega
      · rw [if_neg hless]
        change 203 < 204 + (frame'.bytes.length - n)
        omega
  | sized =>
      unfold work Transmitter.driver
      rw [hphase]
      exact Nat.lt_succ_self 202
  | commanded =>
      unfold work Transmitter.driver
      rw [hphase]
      exact Nat.lt_succ_self 201
  | pending =>
      unfold work Transmitter.driver
      rw [hphase]
      exact Nat.lt_succ_self 200
  | advanced =>
      unfold work Transmitter.driver
      rw [hphase]
      change 1 + (t.txPtr + 128 - t.tdh) % 128 < 200
      omega

/-- Either the driver or the adapter can do something. -/
theorem InTurn.closer (h : InTurn start stale t) (hrunning : t.phase ≠ .returned) :
    ∃ event, (event = .driver ∨ event = .adapter) ∧ InTurn start stale (t.step event) ∧
      (t.step event).work < t.work := by
  cases h with
  | returned base old hphase => exact absurd hphase hrunning
  | preparing base old done frame hrequested hrest hprepared hcount =>
      refine ⟨.driver, .inl rfl, .prepare hrequested hrest hprepared hcount, ?_⟩
      exact hprepared.work_driver
  | fetching base old done frame n hphase hrequested hfetching hcount =>
      refine ⟨.adapter, .inr rfl, (InTurn.fetching base old done frame n hphase hrequested hfetching
        hcount).adapter, ?_⟩
      have howned := hfetching.owned
      have htdh := hfetching.tdh
      have htdt := hfetching.tdt
      change t.adapter.work < t.work
      have hafter : t.adapter.phase = t.phase ∧ t.adapter.tdt = t.tdt ∧
          t.adapter.tdh = (t.tdh + 1) % 128 := by
        unfold Transmitter.adapter
        dsimp only
        rw [if_neg howned]
        split <;> exact ⟨rfl, rfl, rfl⟩
      unfold work
      rw [hafter.1, hafter.2.1, hafter.2.2, hphase]
      dsimp only
      omega
  | fetched base hphase hrest hptr hmark hcount =>
      refine ⟨.driver, .inl rfl, (InTurn.fetched base hphase hrest hptr hmark hcount).driver, ?_⟩
      have hlast : (t.txPtr + 127) % 128 = (base + 127) % 128 := by
        rw [hptr]
        omega
      change t.driver.work < t.work
      unfold work Transmitter.driver
      rw [hphase, hlast]
      dsimp only
      rw [if_pos hmark]
      exact Nat.lt_of_lt_of_le Nat.zero_lt_one (Nat.le_add_right _ _)

theorem InTurn.returns (h : InTurn start stale t) :
    ∃ events, (∀ event ∈ events, event = .driver ∨ event = .adapter) ∧
      (t.run events).phase = .returned := by
  refine exists_foldl_of_decreasing (I := InTurn start stale)
    (P := fun t => t.phase = .returned) work (fun s hs hrunning => ?_) h
  exact hs.closer hrunning

end Runs

/-! ## From the start -/

section Start

variable {net : NetState} {txRing : Nat → WxE1000TxDesc} {t : Transmitter}

theorem start_inTurn (txRing : Nat → WxE1000TxDesc) (hptr : net.e1000TxPtr.val ≠ 127) :
    InTurn net.e1000TxPtr.val (contents (start net txRing).txRing 0 net.e1000TxPtr.val)
      (start net txRing) := by
  have hlt := net.e1000TxPtr.isLt
  refine .returned 0 net.e1000TxPtr.val rfl ?_ ?_ ?_
  · exact
      { tdh := rfl
        tdt := rfl
        packet := rfl
        old_le := by omega
        unused := fun i hi => by
          rw [Nat.zero_add, Nat.mod_eq_of_lt (hi.trans hlt)]
          exact congrArg WxE1000TxDesc.cmd (if_pos (hi.trans hlt))
        sent := rfl
        left := rfl }
  · rw [Nat.zero_add, Nat.mod_eq_of_lt hlt]
    rfl
  · rw [Nat.zero_add]
    rfl

/-- What has been left in the descriptors is nothing exactly when they are all empty. -/
theorem contents_start_eq_nil_iff :
    contents (start net txRing).txRing 0 net.e1000TxPtr.val = [] ↔
      ∀ i < net.e1000TxPtr.val, (txRing i).length = 0 := by
  have hlt := net.e1000TxPtr.isLt
  unfold contents
  rw [List.flatMap_eq_nil_iff]
  refine forall_congr' fun i => ?_
  rw [List.mem_range]
  refine imp_congr_right fun hi => ?_
  have hdesc : (start net txRing).txRing ((0 + i) % 128) =
      { txRing i with
        cmd := 0
        sta := 1 } := by
    rw [Nat.zero_add, Nat.mod_eq_of_lt (hi.trans hlt)]
    exact if_pos (hi.trans hlt)
  rw [hdesc, ← List.length_eq_zero_iff, WxE1000TxDesc.content, slice_length]

theorem behindStale_nil (frames : List (List UInt8)) : behindStale [] frames = frames := by
  cases frames with
  | nil => rfl
  | cons frame frames => rfl

theorem e1000TxPtr_foldl_sent (net : NetState) (frames : List (List UInt8)) :
    (frames.foldl NetState.sent net).e1000TxPtr.val =
      (net.e1000TxPtr.val + frames.length) % 128 := by
  induction frames generalizing net with
  | nil => exact (Nat.mod_eq_of_lt net.e1000TxPtr.isLt).symm
  | cons frame frames ih =>
      have hone : (net.sent frame).e1000TxPtr.val = (net.e1000TxPtr.val + 1) % 128 :=
        Fin.val_add net.e1000TxPtr 1
      rw [List.foldl_cons, ih, hone, Nat.mod_add_mod, List.length_cons, Nat.add_assoc,
        Nat.add_comm 1]

/-- What has been sent when no call is going on. -/
theorem InTurn.sent_of_returned {first : Nat} {stale : List UInt8} (h : InTurn first stale t)
    (hreturned : t.phase = .returned) :
    t.sent = behindStale stale (t.requested.map Frame.bytes) ∧
      t.txPtr = (first + t.requested.length) % 128 := by
  cases h with
  | returned base old hphase hrest hptr hcount => exact ⟨hrest.sent, hptr.trans hcount⟩
  | preparing base old done frame hrequested hrest hprepared hcount =>
      unfold Prepared at hprepared
      rw [hreturned] at hprepared
      exact hprepared.elim
  | fetching base old done frame n hphase => rw [hreturned] at hphase; cases hphase
  | fetched base hphase => rw [hreturned] at hphase; cases hphase

theorem InTurn.verbatim (h : InTurn net.e1000TxPtr.val [] t) : Verbatim net t where
  order := by
    cases h with
    | returned base old hphase hrest =>
        rw [hrest.sent, behindStale_nil]
    | preparing base old done frame hrequested hrest =>
        rw [hrest.sent, behindStale_nil, hrequested, List.map_append]
        exact List.prefix_append _ _
    | fetching base old done frame n hphase hrequested hfetching =>
        rw [hfetching.sent, behindStale_nil, hrequested, List.map_append]
        exact List.prefix_append _ _
    | fetched base hphase hrest =>
        rw [hrest.sent, behindStale_nil]
  complete hreturned := by
    rcases h.sent_of_returned hreturned with ⟨hsent, hptr⟩
    rw [behindStale_nil] at hsent
    refine ⟨hsent, ?_⟩
    rw [e1000TxPtr_foldl_sent, List.length_map, hptr]
  progress := h.returns

/-- Only a call adds to what has been asked for. -/
theorem requested_run {events : List SendEvent}
    (hevents : ∀ event ∈ events, event = .driver ∨ event = .adapter) :
    (t.run events).requested = t.requested := by
  induction events generalizing t with
  | nil => rfl
  | cons event events ih =>
      have hone : (t.step event).requested = t.requested := by
        rcases hevents event List.mem_cons_self with rfl | rfl
        · change t.driver.requested = t.requested
          unfold Transmitter.driver
          dsimp only
          split <;> first | rfl | (split <;> rfl)
        · change t.adapter.requested = t.requested
          unfold Transmitter.adapter
          dsimp only
          split <;> first | rfl | (split <;> rfl)
      exact (ih fun other hother => hevents other (List.mem_cons_of_mem _ hother)).trans hone

/-! ### The last descriptor -/

/-- The driver waits for the descriptor at the end of the ring, and both registers are zero. -/
structure Stuck (t : Transmitter) : Prop where
  tdh : t.tdh = 0
  tdt : t.tdt = 0
  phase :
    match t.phase with
    | .returned => False
    | .copying _ _ | .sized | .commanded => t.txPtr = 127
    | .pending => t.txPtr = 127 ∧ (t.txRing 127).sta = 0
    | .advanced | .waiting => t.txPtr = 0 ∧ (t.txRing 127).sta = 0

theorem Stuck.adapter (h : t.Stuck) : t.adapter = t := by
  unfold Transmitter.adapter
  exact if_pos (h.tdh.trans h.tdt.symm)

theorem Stuck.driver (h : t.Stuck) : t.driver.Stuck := by
  have hturn := h.phase
  unfold Transmitter.driver
  cases hphase : t.phase with
  | returned =>
      rw [hphase] at hturn
      exact hturn.elim
  | copying frame n =>
      rw [hphase] at hturn
      dsimp only
      split <;> exact ⟨h.tdh, h.tdt, hturn⟩
  | sized =>
      rw [hphase] at hturn
      exact ⟨h.tdh, h.tdt, hturn⟩
  | commanded =>
      rw [hphase] at hturn
      refine ⟨h.tdh, h.tdt, hturn, ?_⟩
      rw [setDesc_current t _ _ hturn]
  | pending =>
      rw [hphase] at hturn
      refine ⟨h.tdh, h.tdt, ?_, hturn.2⟩
      change (t.txPtr + 1) % 128 = 0
      rw [hturn.1]
  | advanced =>
      rw [hphase] at hturn
      exact ⟨h.tdh, hturn.1, hturn⟩
  | waiting =>
      rw [hphase] at hturn
      have hnone : ¬ (0 : UInt8) &&& 0x0F ≠ 0 := by decide
      have hlast : (t.txPtr + 127) % 128 = 127 := by rw [hturn.1]
      dsimp only
      rw [hlast, hturn.2, if_neg hnone]
      exact ⟨h.tdh, h.tdt, by rw [hphase]; exact hturn⟩

theorem Stuck.run (h : t.Stuck) {events : List SendEvent}
    (hevents : ∀ event ∈ events, event = .driver ∨ event = .adapter) : (t.run events).Stuck := by
  induction events generalizing t with
  | nil => exact h
  | cons event events ih =>
      have hone : (t.step event).Stuck := by
        rcases hevents event List.mem_cons_self with rfl | rfl
        · exact h.driver
        · change t.adapter.Stuck
          rw [h.adapter]
          exact h
      exact ih hone fun other hother => hevents other (List.mem_cons_of_mem _ hother)

end Start

/-- In whatever order the driver and the adapter take their turns after `wx_e1000_init`, the adapter
fetches the frames as they are, one for each call that is not too long, if nothing has been left in the
descriptors in front of the driver's pointer and that pointer is not the last one; otherwise not
even the first one. -/
theorem verbatim_iff (macLow macHigh : UInt32) (s : NetState) (txRing : Nat → WxE1000TxDesc) :
    (∀ events, Verbatim (wxE1000Init macLow macHigh s).2
      ((start (wxE1000Init macLow macHigh s).2 txRing).run events)) ↔
        s.e1000TxPtr.val ≠ 127 ∧ ∀ i < s.e1000TxPtr.val, (txRing i).length = 0 := by
  have hsame : (wxE1000Init macLow macHigh s).2.e1000TxPtr = s.e1000TxPtr := rfl
  rw [← hsame]
  generalize (wxE1000Init macLow macHigh s).2 = net
  constructor
  · intro h
    rcases (h [.call []]).progress with ⟨events, hevents, hreturned⟩
    have hptr : net.e1000TxPtr.val ≠ 127 := by
      intro hlast
      have hstuck : ((start net txRing).run [.call []]).Stuck := ⟨rfl, rfl, hlast⟩
      have hend := (hstuck.run hevents).phase
      rw [hreturned] at hend
      exact hend
    refine ⟨hptr, contents_start_eq_nil_iff.1 ?_⟩
    -- the only frame has left behind what was in the other descriptors
    have hturn := ((start_inTurn txRing hptr).run [.call []]).run events
    have hrequested := requested_run (t := (start net txRing).run [.call []]) hevents
    have hsent := (hturn.sent_of_returned hreturned).1
    have hall : Verbatim net (((start net txRing).run [.call []]).run events) := by
      have hrun := h (.call [] :: events)
      exact hrun
    have hcomplete := (hall.complete hreturned).1
    rw [hsent, hrequested] at hcomplete
    simpa [behindStale, start, run, step, call] using hcomplete
  · rintro ⟨hptr, hempty⟩ events
    have hturn := (start_inTurn txRing hptr).run events
    rw [contents_start_eq_nil_iff.2 hempty] at hturn
    exact hturn.verbatim

end Transmitter

end Net
end WhitexKernel
