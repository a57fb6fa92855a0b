import WhitexKernel.Net.Model

/-!
# Rules — what the packet buffer operations do inside the buffer

While a packet is built, the state is the one before with another value in one slot of the pool:
`s.setBuf buf b`.  The rules below keep it in this form, so that straight-line code is followed by
looking at `b` alone.
-/

namespace WhitexKernel
namespace Net

open Lib Lib.Bytes Lib.Stateful Machine

/-! ## Buffers -/

@[simp] theorem setBuf_same (s : NetState) (buf : BufSlot) (b : WxNetBuf) :
    (s.setBuf buf b).bufPool buf = b := by
  simp [NetState.setBuf]

theorem setBuf_of_ne (s : NetState) {buf other : BufSlot} (h : other ≠ buf) (b : WxNetBuf) :
    (s.setBuf buf b).bufPool other = s.bufPool other := by
  simp [NetState.setBuf, h]

@[simp] theorem setBuf_setBuf (s : NetState) (buf : BufSlot) (b c : WxNetBuf) :
    (s.setBuf buf b).setBuf buf c = s.setBuf buf c := by
  simp [NetState.setBuf]

theorem setBuf_self (s : NetState) (buf : BufSlot) : s.setBuf buf (s.bufPool buf) = s := by
  simp [NetState.setBuf]

theorem takeSlot_eq (s : NetState) (i : BufSlot) :
    s.takeSlot i = (s.takeSlot i).setBuf i WxNetBuf.fresh := by
  simp [NetState.takeSlot, NetState.setBuf]

theorem takeSlot_of_ne (s : NetState) {i other : BufSlot} (h : other ≠ i) :
    (s.takeSlot i).bufPool other = s.bufPool other := by
  simp [NetState.takeSlot, NetState.setBuf, h]

@[simp] theorem bytes16_length (x : Nat) : (bytes16 x).length = 2 := rfl

@[simp] theorem bytes32_length (x : Nat) : (bytes32 x).length = 4 := rfl

@[simp] theorem ethHdr_length (h : WxEthHdr) : h.bytes.length = 14 := by
  simp [WxEthHdr.bytes]

@[simp] theorem arpHdr_length (h : WxArpHdr) : h.bytes.length = 28 := by
  simp [WxArpHdr.bytes]

@[simp] theorem ipv4Hdr_length (h : WxIpv4Hdr) : h.bytes.length = 20 := by
  simp [WxIpv4Hdr.bytes]

@[simp] theorem icmpHdr_length (h : WxIcmpHdr) : h.bytes.length = 8 := by
  simp [WxIcmpHdr.bytes]

@[simp] theorem tcpHdr_length (h : WxTcpHdr) : h.bytes.length = 20 := by
  simp [WxTcpHdr.bytes]

/-- The slot an allocation takes was free. -/
theorem freeSlot_some {s : NetState} {i : BufSlot} (h : s.freeSlot = some i) :
    s.bufPoolUsed i = false := by
  simpa using List.find?_some h

theorem freeSlot_ne_none {s : NetState} : s.freeSlot ≠ none ↔ ∃ i, s.bufPoolUsed i = false := by
  unfold NetState.freeSlot
  rw [Ne, List.find?_eq_none]
  simp

/-! ## Single operations -/

section Operations

variable {s : NetState} {buf : BufSlot} {offset len : Nat}

theorem wp_inside {ok : Prop} [Decidable ok] (hok : ok) (fault : Fault)
    (Q : PUnit → NetState → Prop) : wp (inside ok fault) Q s ↔ Q ⟨⟩ s := by
  unfold inside
  rw [if_pos hok, wp_pure]

@[simp] theorem wp_bufData (Q : Nat → NetState → Prop) :
    wp (bufData buf) Q s ↔ Q (s.bufPool buf).data s := by
  simp [bufData]

theorem wp_wxNetBufAlloc (Q : Option BufSlot → NetState → Prop) :
    wp wxNetBufAlloc Q s ↔
      (s.freeSlot = none → Q none { s with poolEvents := s.poolEvents ++ [.allocFailed] }) ∧
        ∀ i, s.freeSlot = some i → Q (some i) (s.takeSlot i) := by
  unfold wxNetBufAlloc
  rw [wp_bind, wp_get]
  cases h : s.freeSlot with
  | none => simp
  | some i => simp

theorem wp_wxNetBufAlloc_none (hslot : s.freeSlot = none) (Q : Option BufSlot → NetState → Prop) :
    wp wxNetBufAlloc Q s ↔ Q none { s with poolEvents := s.poolEvents ++ [.allocFailed] } := by
  rw [wp_wxNetBufAlloc]
  simp [hslot]

theorem wp_wxNetBufAlloc_some {i : BufSlot} (hslot : s.freeSlot = some i)
    (Q : Option BufSlot → NetState → Prop) : wp wxNetBufAlloc Q s ↔ Q (some i) (s.takeSlot i) := by
  rw [wp_wxNetBufAlloc]
  simp [hslot]

@[simp] theorem wp_wxNetBufFree (Q : PUnit → NetState → Prop) :
    wp (wxNetBufFree buf) Q s ↔ Q ⟨⟩ (s.giveSlot buf) := by
  unfold wxNetBufFree
  rw [wp_modify]

theorem wp_wxNetBufReserve (Q : PUnit → NetState → Prop) :
    wp (wxNetBufReserve buf len) Q s ↔
      Q ⟨⟩ (s.setBuf buf
        { s.bufPool buf with
          data := wrap16 ((s.bufPool buf).data + len)
          tail := wrap16 ((s.bufPool buf).tail + len) }) := by
  unfold wxNetBufReserve
  rw [wp_modify]

theorem wp_wxNetBufPush (Q : Nat → NetState → Prop) :
    wp (wxNetBufPush buf len) Q s ↔
      Q (sub16 (s.bufPool buf).data len) (s.setBuf buf
        { s.bufPool buf with data := sub16 (s.bufPool buf).data len }) := by
  simp [wxNetBufPush]

theorem wp_wxNetBufPut (Q : Nat → NetState → Prop) :
    wp (wxNetBufPut buf len) Q s ↔
      Q (s.bufPool buf).tail (s.setBuf buf
        { s.bufPool buf with tail := wrap16 ((s.bufPool buf).tail + len) }) := by
  simp [wxNetBufPut]

theorem wp_wxNetBufPull (Q : Nat → NetState → Prop) :
    wp (wxNetBufPull buf len) Q s ↔
      Q (s.bufPool buf).data (s.setBuf buf
        { s.bufPool buf with data := wrap16 ((s.bufPool buf).data + len) }) := by
  simp [wxNetBufPull]

theorem wp_view (hfit : offset + len ≤ bufferSize) (Q : (Nat → UInt8) → NetState → Prop) :
    wp (view buf offset len) Q s ↔ Q (fun i => (s.bufPool buf).buffer (offset + i)) s := by
  unfold view
  rw [wp_bind, wp_inside hfit]
  simp

end Operations

/-! ## Building a packet -/

section Building

variable {s : NetState} {buf : BufSlot} {f : Nat → UInt8} {data tail offset len : Nat}

/-- The buffer with the bytes `f` and the packet at `[data, tail)`. -/
abbrev packet (f : Nat → UInt8) (data tail : Nat) : WxNetBuf :=
  { buffer := f
    data := data
    tail := tail }

theorem wp_store_packet {bytes : List UInt8} (hfit : offset + bytes.length ≤ bufferSize)
    (Q : PUnit → NetState → Prop) :
    wp (store buf offset bytes) Q (s.setBuf buf (packet f data tail)) ↔
      Q ⟨⟩ (s.setBuf buf (packet (overwrite f offset bytes) data tail)) := by
  unfold store
  rw [wp_bind, wp_inside hfit, wp_modify, setBuf_same, setBuf_setBuf]
  rfl

theorem wp_copyIn_packet {src : List UInt8} (hfit : offset + src.length ≤ bufferSize)
    (Q : PUnit → NetState → Prop) :
    wp (copyIn buf offset src) Q (s.setBuf buf (packet f data tail)) ↔
      Q ⟨⟩ (s.setBuf buf (packet (overwrite f offset src) data tail)) := by
  unfold copyIn
  rw [wp_bind, wp_inside hfit, wp_modify, setBuf_same, setBuf_setBuf]
  rfl

theorem wp_bufferChecksum_packet (hfit : offset + len ≤ bufferSize)
    (Q : Nat → NetState → Prop) :
    wp (bufferChecksum buf offset len) Q (s.setBuf buf (packet f data tail)) ↔
      Q (wxChecksum (slice f offset len)) (s.setBuf buf (packet f data tail)) := by
  unfold bufferChecksum
  rw [wp_bind, wp_inside hfit]
  simp

theorem wp_copyBuf_packet {src : BufSlot} (hne : src ≠ buf) {srcOffset : Nat}
    (hsrc : srcOffset + len ≤ bufferSize) (hfit : offset + len ≤ bufferSize)
    (Q : PUnit → NetState → Prop) :
    wp (copyBuf buf offset src srcOffset len) Q (s.setBuf buf (packet f data tail)) ↔
      Q ⟨⟩ (s.setBuf buf
        (packet (overwrite f offset (slice (s.bufPool src).buffer srcOffset len)) data tail)) := by
  unfold copyBuf
  rw [wp_bind, wp_inside ⟨hsrc, hfit⟩, wp_modify, setBuf_same, setBuf_setBuf, setBuf_of_ne s hne]
  rfl

theorem wp_wxNetBufPush_packet (hlen : len ≤ data) (hdata : data ≤ bufferSize)
    (Q : Nat → NetState → Prop) :
    wp (wxNetBufPush buf len) Q (s.setBuf buf (packet f data tail)) ↔
      Q (data - len) (s.setBuf buf (packet f (data - len) tail)) := by
  unfold bufferSize at hdata
  have hsub : sub16 data len = data - len := sub16_of_le hlen (by omega)
  rw [wp_wxNetBufPush, setBuf_same, setBuf_setBuf, hsub]

theorem wp_wxNetBufPut_packet (htail : tail + len ≤ bufferSize) (Q : Nat → NetState → Prop) :
    wp (wxNetBufPut buf len) Q (s.setBuf buf (packet f data tail)) ↔
      Q tail (s.setBuf buf (packet f data (tail + len))) := by
  unfold bufferSize at htail
  have hwrap : wrap16 (tail + len) = tail + len := wrap16_of_lt (by omega)
  rw [wp_wxNetBufPut, setBuf_same, setBuf_setBuf, hwrap]

theorem wp_wxNetBufPull_packet (hdata : data + len ≤ bufferSize) (Q : Nat → NetState → Prop) :
    wp (wxNetBufPull buf len) Q (s.setBuf buf (packet f data tail)) ↔
      Q data (s.setBuf buf (packet f (data + len) tail)) := by
  unfold bufferSize at hdata
  have hwrap : wrap16 (data + len) = data + len := wrap16_of_lt (by omega)
  rw [wp_wxNetBufPull, setBuf_same, setBuf_setBuf, hwrap]

theorem wp_wxNetBufReserve_packet (hdata : data + len ≤ bufferSize) (htail : tail + len ≤ bufferSize)
    (Q : PUnit → NetState → Prop) :
    wp (wxNetBufReserve buf len) Q (s.setBuf buf (packet f data tail)) ↔
      Q ⟨⟩ (s.setBuf buf (packet f (data + len) (tail + len))) := by
  unfold bufferSize at hdata htail
  have hwrap : wrap16 (data + len) = data + len := wrap16_of_lt (by omega)
  have hwrap' : wrap16 (tail + len) = tail + len := wrap16_of_lt (by omega)
  rw [wp_wxNetBufReserve, setBuf_same, setBuf_setBuf, hwrap, hwrap']

end Building

/-! ## Reception -/

/-- The buffer a frame is copied to. -/
def framePacket (frame : Frame) : WxNetBuf :=
  packet (overwrite (fun _ => 0) 256 frame.bytes) 256 (256 + frame.bytes.length)

theorem wp_receivePacket {s : NetState} {buf : BufSlot} {frame : Frame}
    (hslot : s.freeSlot = some buf) (Q : PUnit → NetState → Prop) :
    wp (receivePacket frame) Q s ↔
      wp (wxEthProcess buf) Q
        (((s.takeSlot buf).received frame.bytes.length).setBuf buf (framePacket frame)) := by
  have hlen : frame.bytes.length ≤ 2048 := frame.fits
  have hfit : 256 + frame.bytes.length ≤ bufferSize := by
    unfold bufferSize
    omega
  generalize hend : ((s.takeSlot buf).received frame.bytes.length).setBuf buf (framePacket frame) = t
  unfold receivePacket
  dsimp only
  rw [wp_bind, wp_wxNetBufAlloc_some hslot]
  dsimp only
  rw [takeSlot_eq, WxNetBuf.fresh, wp_bind, wp_wxNetBufPut_packet hfit, wp_bind,
    wp_copyIn_packet hfit, wp_bind, wp_modify, ← hend]
  rfl

/-! ## Transmission -/

/-- The state after a frame has been handed to the adapter, which takes no more than 2048 bytes. -/
def NetState.transmit (s : NetState) (frame : List UInt8) : NetState :=
  if frame.length > ringBufferSize then s else s.sent frame

theorem wp_wxE1000TxRaw_packet {s : NetState} {buf : BufSlot} {f : Nat → UInt8} {data tail : Nat}
    (hdata : data ≤ tail) (htail : tail ≤ bufferSize) (Q : PUnit → NetState → Prop) :
    wp (wxE1000TxRaw buf) Q (s.setBuf buf (packet f data tail)) ↔
      Q ⟨⟩ (((s.setBuf buf (packet f data tail)).transmit (slice f data (tail - data))).giveSlot
        buf) := by
  have hlen : sub32 tail data = tail - data := by
    unfold bufferSize at htail
    exact sub32_of_le hdata (by omega)
  unfold wxE1000TxRaw NetState.transmit
  rw [wp_bind, wp_get, setBuf_same]
  dsimp only
  rw [hlen, slice_length]
  split
  case isTrue => rw [wp_wxNetBufFree]
  case isFalse hshort =>
    unfold copyOut
    rw [wp_bind, wp_bind, wp_inside ⟨by omega, by omega⟩, wp_bind, wp_get, setBuf_same, wp_pure,
      wp_bind, wp_modify, wp_wxNetBufFree]

/-- An ARP packet in its frame. -/
def arpFrame (dev : WxNetDevice) (opcode : Nat) (targetMac : WxMac) (targetIp : WxIpv4) :
    List UInt8 :=
  (ethHeader dev targetMac 0x0806).bytes ++ (arpHeader dev opcode targetMac targetIp).bytes

/-- An ARP packet takes a slot, is transmitted, and gives the slot back. -/
theorem wp_sendArp {s : NetState} {opcode : Nat} {targetMac : WxMac} {targetIp : WxIpv4}
    {Q : PUnit → NetState → Prop}
    (hnone : s.freeSlot = none → Q ⟨⟩ { s with poolEvents := s.poolEvents ++ [.allocFailed] })
    (hsome : ∀ i b, s.freeSlot = some i →
      Q ⟨⟩ ((((s.takeSlot i).setBuf i b).transmit
        (arpFrame s.coreNetDev opcode targetMac targetIp)).giveSlot i)) :
    wp (sendArp opcode targetMac targetIp) Q s := by
  unfold sendArp
  rw [wp_bind, wp_wxNetBufAlloc]
  refine ⟨fun h => ?_, fun i hi => ?_⟩
  · dsimp only
    rw [wp_pure]
    exact hnone h
  · dsimp only
    rw [wp_bind, wp_get]
    have hdev : (s.takeSlot i).coreNetDev = s.coreNetDev := rfl
    -- the two headers are pushed into the fresh buffer, the outer one last
    rw [hdev, takeSlot_eq, WxNetBuf.fresh, wp_bind,
      wp_wxNetBufReserve_packet (by decide) (by decide), wp_bind,
      wp_wxNetBufPush_packet (by decide) (by decide), wp_bind,
      wp_store_packet (by rw [arpHdr_length]; decide), wp_bind,
      wp_wxNetBufPush_packet (by decide) (by decide), wp_bind,
      wp_store_packet (by rw [ethHdr_length]; decide),
      wp_wxE1000TxRaw_packet (by decide) (by decide)]
    -- what is read back is the two headers and no payload
    have hframe := slice_headers (fun _ => 0) 278 0 (ethHeader s.coreNetDev targetMac 0x0806).bytes
      (arpHeader s.coreNetDev opcode targetMac targetIp).bytes
    rw [ethHdr_length, arpHdr_length, slice_zero, List.append_nil] at hframe
    rw [hframe]
    exact hsome i _ hi

/-- The header with its checksum. -/
def WxIpv4Hdr.sealed (h : WxIpv4Hdr) : WxIpv4Hdr := { h with checksum := wxChecksum h.bytes }

/-- A payload in its IP packet, in its frame. -/
def ipFrame (dev : WxNetDevice) (dmac : WxMac) (destIp : WxIpv4) (proto : UInt8)
    (payload : List UInt8) : List UInt8 :=
  (ethHeader dev dmac 0x0800).bytes ++
    ((ipHeader dev destIp proto (20 + payload.length)).sealed.bytes ++ payload)

theorem bytes_sealed (h : WxIpv4Hdr) :
    h.bytes.take 10 ++ bytes16 (wxChecksum h.bytes) ++ h.bytes.drop 12 = h.sealed.bytes := by
  simp [WxIpv4Hdr.bytes, WxIpv4Hdr.sealed, bytes16]

/-- What reads back of the headers written in front of a payload, the checksum last. -/
theorem slice_ipPacket {f : Nat → UInt8} {data tail : Nat} (hroom : 34 ≤ data) (hdata : data ≤ tail)
    {eth : WxEthHdr} {ip : WxIpv4Hdr} :
    slice (overwrite (overwrite (overwrite f (data - 20) ip.bytes) (data - 20 + 10)
        (bytes16 (wxChecksum (slice (overwrite f (data - 20) ip.bytes) (data - 20) 20))))
        (data - 20 - 14) eth.bytes) (data - 20 - 14) (tail - (data - 20 - 14)) =
      eth.bytes ++ (ip.sealed.bytes ++ slice f data (tail - data)) := by
  -- the checksum is taken over the header as it was first written
  have hsum : slice (overwrite f (data - 20) ip.bytes) (data - 20) 20 = ip.bytes := by
    have hsame := slice_overwrite_same f (data - 20) ip.bytes
    rw [ipv4Hdr_length] at hsame
    exact hsame
  -- writing it into the header gives the sealed header
  have hsealed : overwrite (overwrite f (data - 20) ip.bytes) (data - 20 + 10)
      (bytes16 (wxChecksum ip.bytes)) = overwrite f (data - 20) ip.sealed.bytes := by
    rw [overwrite_within f (data - 20) 10 (by rw [bytes16_length, ipv4Hdr_length]; omega)]
    exact congrArg _ (bytes_sealed ip)
  have hread := slice_headers f (data - 34) (tail - data) eth.bytes ip.sealed.bytes
  rw [ethHdr_length, ipv4Hdr_length] at hread
  have hip : data - 34 + 14 = data - 20 := by omega
  have hpayload : data - 20 + 20 = data := by omega
  have heth : data - 20 - 14 = data - 34 := by omega
  have htotal : tail - (data - 34) = 14 + (20 + (tail - data)) := by omega
  rw [hip, hpayload] at hread
  rw [hsum, hsealed, heth, htotal, hread]

/-- A packet whose addressee is known is transmitted, and its buffer given back; otherwise an ARP
request goes out instead. -/
theorem wp_wxIpSend_packet {s : NetState} {buf : BufSlot} {f : Nat → UInt8} {data tail : Nat}
    (hroom : 34 ≤ data) (hdata : data ≤ tail) (htail : tail ≤ bufferSize) {destIp : WxIpv4}
    {proto : UInt8} {Q : PUnit → NetState → Prop}
    (hmiss : destMac s destIp = none →
      wp (wxArpSendRequest destIp) (fun _ t => Q ⟨⟩ (t.giveSlot buf))
        (s.setBuf buf (packet f data tail)))
    (hhit : ∀ dmac b, destMac s destIp = some dmac →
      Q ⟨⟩ (((s.setBuf buf b).transmit
        (ipFrame s.coreNetDev dmac destIp proto (slice f data (tail - data)))).giveSlot buf)) :
    wp (wxIpSend buf destIp proto) Q (s.setBuf buf (packet f data tail)) := by
  have hsame : destMac (s.setBuf buf (packet f data tail)) destIp = destMac s destIp := rfl
  have hdev : (s.setBuf buf (packet f data tail)).coreNetDev = s.coreNetDev := rfl
  unfold bufferSize at htail
  unfold wxIpSend
  rw [wp_bind, wp_get, hsame]
  cases hmac : destMac s destIp with
  | none =>
      dsimp only
      rw [wp_bind]
      refine wp_mono (hmiss hmac) fun _ t ht => ?_
      rw [wp_wxNetBufFree]
      exact ht
  | some dmac =>
      -- `total_len` is taken when the header is in front already
      have hlen : sub32 tail (data - 20) = 20 + (tail - data) := by
        rw [sub32_of_le (by omega) (by omega)]
        omega
      dsimp only
      rw [wp_bind, wp_get, hdev, wp_bind,
        wp_wxNetBufPush_packet (by omega) (by unfold bufferSize; omega), wp_bind, wp_get,
        setBuf_same]
      dsimp only
      rw [hlen, wp_bind, wp_store_packet (by rw [ipv4Hdr_length]; unfold bufferSize; omega),
        wp_bind, wp_bufferChecksum_packet (by unfold bufferSize; omega), wp_bind,
        wp_store_packet (by rw [bytes16_length]; unfold bufferSize; omega), wp_bind,
        wp_wxNetBufPush_packet (by omega) (by unfold bufferSize; omega), wp_bind,
        wp_store_packet (by rw [ethHdr_length]; unfold bufferSize; omega),
        wp_wxE1000TxRaw_packet (by omega) htail, slice_ipPacket hroom hdata]
      have hsent := fun b => hhit dmac b hmac
      unfold ipFrame at hsent
      simp only [slice_length] at hsent
      exact hsent _

end Net
end WhitexKernel
