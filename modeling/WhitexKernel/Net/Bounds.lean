import WhitexKernel.Lib.Transition
import WhitexKernel.Net.Untouched

/-!
# Bounds — which frames are processed inside the buffers

Headers are built at fixed places behind the headroom, so only lengths taken from a packet can lead
out of a buffer, and only the echo reply uses one: `total_len`, less the header length, in 16 bits.
-/

namespace WhitexKernel
namespace Net

open Lib Lib.Bytes Lib.Stateful Machine

/-- No access of `m`, started in `s`, leaves its buffer. -/
def Within {α : Type} (m : NetM α) (s : NetState) : Prop := wp m (fun _ t => t.faults = s.faults) s

/-- Faults are only ever added. -/
def FaultsGrow (s t : NetState) : Prop := s.faults <+: t.faults

theorem receivingKeeps_faultsGrow : ReceivingKeeps FaultsGrow :=
  { refl := fun s => List.prefix_refl s.faults
    trans := fun _ _ _ hst htu => hst.trans htu
    fault := fun s _ => List.prefix_append s.faults _
    setBuf := fun s _ _ => List.prefix_refl s.faults
    noSlot := fun s => List.prefix_refl s.faults
    takeSlot := fun s _ => List.prefix_refl s.faults
    giveSlot := fun s _ => List.prefix_refl s.faults
    sent := fun s _ => List.prefix_refl s.faults
    arpCache := fun s _ => List.prefix_refl s.faults
    setTcb := fun s _ _ => List.prefix_refl s.faults
    received := fun s _ => List.prefix_refl s.faults
    rxPtr := fun s _ => List.prefix_refl s.faults }

@[simp] theorem faults_setBuf (s : NetState) (buf : BufSlot) (b : WxNetBuf) :
    (s.setBuf buf b).faults = s.faults := rfl

@[simp] theorem faults_takeSlot (s : NetState) (i : BufSlot) :
    (s.takeSlot i).faults = s.faults := rfl

@[simp] theorem faults_giveSlot (s : NetState) (i : BufSlot) :
    (s.giveSlot i).faults = s.faults := rfl

@[simp] theorem faults_transmit (s : NetState) (frame : List UInt8) :
    (s.transmit frame).faults = s.faults := by
  unfold NetState.transmit
  split
  · rfl
  · rfl

/-- What follows a fault does not take it back. -/
theorem not_within_of_fault {α : Type} {m : NetM α} (hm : Keeps FaultsGrow m) {faults : List Fault}
    {s : NetState} {fault : Fault} (hs : s.faults = faults ++ [fault]) :
    ¬ wp m (fun _ t => t.faults = faults) s := by
  intro h
  have hboth := wp_and (hm s) h
  rw [wp_iff] at hboth
  have hlen := hboth.1.length_le
  rw [hboth.2, hs, List.length_append, List.length_singleton] at hlen
  omega

/-! ## Sending -/

theorem within_sendArp (opcode : Nat) (targetMac : WxMac) (targetIp : WxIpv4) (s : NetState) :
    Within (sendArp opcode targetMac targetIp) s :=
  wp_sendArp (fun _ => rfl) fun i b _ => by simp

/-- A packet with room for the two headers in front of it is sent within its buffer. -/
theorem within_wxIpSend {s : NetState} {buf : BufSlot} {f : Nat → UInt8} {data tail : Nat}
    (hroom : 34 ≤ data) (hdata : data ≤ tail) (htail : tail ≤ bufferSize) (destIp : WxIpv4)
    (proto : UInt8) : Within (wxIpSend buf destIp proto) (s.setBuf buf (packet f data tail)) := by
  refine wp_wxIpSend_packet hroom hdata htail (fun _ => ?_) fun dmac b _ => ?_
  · exact wp_mono (within_sendArp _ _ _ _) fun _ t ht => ht
  · simp

/-- The answer to a `SYN` has the size of its header. -/
theorem within_wxTcpSendSynAck (i : Nat) (s : NetState) : Within (wxTcpSendSynAck i) s := by
  unfold wxTcpSendSynAck Within
  rw [wp_bind, wp_wxNetBufAlloc]
  refine ⟨fun _ => ?_, fun resp _ => ?_⟩
  · dsimp only
    rw [wp_pure]
  · dsimp only
    rw [wp_bind, wp_get]
    generalize hbytes : WxTcpHdr.bytes _ = bytes
    have hlen : bytes.length = 20 := by rw [← hbytes, tcpHdr_length]
    rw [takeSlot_eq, WxNetBuf.fresh, wp_bind,
      wp_wxNetBufReserve_packet (by decide) (by decide), wp_bind,
      wp_wxNetBufPush_packet (by decide) (by decide), wp_bind,
      wp_store_packet (by rw [hlen]; decide), wp_bind, wp_view (by decide), wp_bind,
      wp_store_packet (by rw [bytes16_length]; decide), wp_bind]
    refine wp_mono (within_wxIpSend (by decide) (by decide) (by decide) _ _) fun _ t ht => ?_
    rw [wp_modify]
    exact ht

/-! ## The echo reply -/

theorem icmpLen_lt (ipHdr : WxIpv4Hdr) : icmpLen ipHdr < 65536 := Nat.mod_lt _ (by decide)

/-- There is an echo header, and the echo fits behind the headroom of the reply and in the buffer it
is read from. -/
def EchoFits (ipHdr : WxIpv4Hdr) (data : Nat) : Prop :=
  8 ≤ icmpLen ipHdr ∧ icmpLen ipHdr ≤ 3720 ∧ data + icmpLen ipHdr ≤ bufferSize

/-- Without a buffer for it there is no answer. -/
theorem within_wxIcmpReply_of_noSlot {s : NetState} {buf : BufSlot} {ipHdr : WxIpv4Hdr}
    {icmp : WxIcmpHdr} (hslot : s.freeSlot = none) : Within (wxIcmpReply buf ipHdr icmp) s := by
  unfold wxIcmpReply Within
  rw [wp_bind, wp_wxNetBufAlloc]
  refine ⟨fun _ => ?_, fun rep hrep => ?_⟩
  · dsimp only
    rw [wp_pure]
  · rw [hslot] at hrep
    cases hrep

/-- An echo that fits is answered within the buffers. -/
theorem within_wxIcmpReply {s : NetState} {buf : BufSlot} {ipHdr : WxIpv4Hdr} {icmp : WxIcmpHdr}
    (hused : s.bufPoolUsed buf = true) (hfits : EchoFits ipHdr (s.bufPool buf).data) :
    Within (wxIcmpReply buf ipHdr icmp) s := by
  rcases hfits with ⟨hheader, hreply, hrequest⟩
  unfold bufferSize at hrequest
  unfold wxIcmpReply Within
  rw [wp_bind, wp_wxNetBufAlloc]
  refine ⟨fun _ => ?_, fun rep hrep => ?_⟩
  · dsimp only
    rw [wp_pure]
  -- the reply is built in another slot than the request
  · have hne : buf ≠ rep := by
      rintro rfl
      rw [freeSlot_some hrep] at hused
      cases hused
    have hlen : sub32 (icmpLen ipHdr) 8 = icmpLen ipHdr - 8 := sub32_of_le hheader (by omega)
    have hput : wrap16 (icmpLen ipHdr - 8) = icmpLen ipHdr - 8 := wrap16_of_lt (by omega)
    have hother : (s.takeSlot rep).bufPool buf = s.bufPool buf := takeSlot_of_ne s hne
    dsimp only
    rw [takeSlot_eq, WxNetBuf.fresh, wp_bind,
      wp_wxNetBufReserve_packet (by decide) (by decide), hlen, hput, wp_bind,
      wp_wxNetBufPut_packet (by unfold bufferSize; omega), wp_bind, wp_bufData,
      setBuf_of_ne _ hne, hother, wp_bind,
      wp_copyBuf_packet hne (by unfold bufferSize; omega) (by unfold bufferSize; omega), wp_bind,
      wp_wxNetBufPush_packet (by decide) (by decide), wp_bind,
      wp_store_packet (by rw [icmpHdr_length]; decide), wp_bind,
      wp_bufferChecksum_packet (by unfold bufferSize; omega), wp_bind,
      wp_store_packet (by rw [bytes16_length]; decide)]
    refine wp_mono (within_wxIpSend ?_ ?_ ?_ _ _) fun _ t ht => ht
    · decide
    · omega
    · unfold bufferSize
      omega

/-- An echo that does not fit is copied past the end of a buffer. -/
theorem not_within_wxIcmpReply {s : NetState} {buf : BufSlot} {ipHdr : WxIpv4Hdr}
    {icmp : WxIcmpHdr} (hused : s.bufPoolUsed buf = true) (hslot : s.freeSlot ≠ none)
    (hfits : ¬ EchoFits ipHdr (s.bufPool buf).data) : ¬ Within (wxIcmpReply buf ipHdr icmp) s := by
  have hb := receivingKeeps_faultsGrow.toBuildingKeeps
  rcases Option.ne_none_iff_exists'.1 hslot with ⟨rep, hrep⟩
  have hne : buf ≠ rep := by
    rintro rfl
    rw [freeSlot_some hrep] at hused
    cases hused
  have hother : (s.takeSlot rep).bufPool buf = s.bufPool buf := takeSlot_of_ne s hne
  unfold wxIcmpReply Within
  rw [wp_bind, wp_wxNetBufAlloc]
  intro h
  have hreply := h.2 rep hrep
  dsimp only at hreply
  rw [takeSlot_eq, WxNetBuf.fresh, wp_bind,
    wp_wxNetBufReserve_packet (by decide) (by decide), wp_bind, wp_wxNetBufPut, wp_bind,
    wp_bufData, setBuf_same, setBuf_setBuf, setBuf_of_ne _ hne, hother, wp_bind] at hreply
  -- The copy is the access that leaves its buffer; nothing later takes that back.
  have hcopy : ¬ ((s.bufPool buf).data + 8 + sub32 (icmpLen ipHdr) 8 ≤ bufferSize ∧
      256 + 128 + sub32 (icmpLen ipHdr) 8 ≤ bufferSize) := by
    intro hcopy
    apply hfits
    have hlt := icmpLen_lt ipHdr
    unfold bufferSize sub32 at hcopy
    unfold EchoFits bufferSize
    omega
  unfold copyBuf inside at hreply
  rw [if_neg hcopy, wp_bind, wp_modify, wp_modify] at hreply
  refine not_within_of_fault ?_ rfl hreply
  refine keeps_bind hb (keeps_wxNetBufPush hb _ _) fun _ => ?_
  refine keeps_bind hb (keeps_store hb _ _ _) fun _ => ?_
  refine keeps_bind hb (keeps_bufferChecksum hb _ _ _) fun _ => ?_
  refine keeps_bind hb (keeps_store hb _ _ _) fun _ => ?_
  exact keeps_wxIpSend receivingKeeps_faultsGrow.toSendingKeeps _ _ _

/-! ## Reception -/

/-- Giving a buffer back at the end accesses none. -/
theorem wp_free_iff {m : NetM PUnit} {buf : BufSlot} {s : NetState} {faults : List Fault} :
    wp m (fun _ t => wp (wxNetBufFree buf) (fun _ u => u.faults = faults) t) s ↔
      wp m (fun _ t => t.faults = faults) s := by
  have hfree : ∀ t : NetState, wp (wxNetBufFree buf) (fun _ u => u.faults = faults) t ↔
      t.faults = faults := by
    intro t
    rw [wp_wxNetBufFree, faults_giveSlot]
  simp only [hfree]

theorem within_wxNetBufFree (buf : BufSlot) (s : NetState) : Within (wxNetBufFree buf) s := by
  unfold Within
  rw [wp_wxNetBufFree, faults_giveSlot]

theorem within_wxArpProcess {s : NetState} {buf : BufSlot}
    (hdata : (s.bufPool buf).data + 28 ≤ bufferSize) : Within (wxArpProcess buf) s := by
  unfold wxArpProcess Within
  rw [wp_bind, wp_bufData, wp_bind, wp_view hdata]
  dsimp only
  split
  · exact within_wxNetBufFree buf s
  · rw [wp_bind, wp_modify, wp_bind, wp_get, wp_bind, wp_whenever]
    refine ⟨fun _ => ?_, fun _ => ?_⟩
    · rw [wp_free_iff]
      exact wp_mono (within_sendArp _ _ _ _) fun _ t ht => ht
    · rw [wp_wxNetBufFree]
      rfl

theorem within_wxTcpSegment (tcp : WxTcpHdr) (srcIp : WxIpv4) (s : NetState) :
    Within (wxTcpSegment tcp srcIp) s := by
  unfold wxTcpSegment Within
  rw [wp_bind, wp_get]
  dsimp only
  split
  · rw [wp_pure]
  · split
    · rw [wp_bind, wp_set]
      exact wp_mono (within_wxTcpSendSynAck _ _) fun _ t ht => ht
    · rw [wp_whenever]
      refine ⟨fun _ => ?_, fun _ => rfl⟩
      rw [wp_set]
      rfl

theorem within_wxTcpProcess {s : NetState} {buf : BufSlot} {ipHdr : WxIpv4Hdr}
    (hdata : (s.bufPool buf).data + 20 ≤ bufferSize) : Within (wxTcpProcess buf ipHdr) s := by
  unfold wxTcpProcess Within
  rw [wp_bind, wp_bufData, wp_bind, wp_view hdata]
  dsimp only
  rw [wp_bind, wp_free_iff]
  exact within_wxTcpSegment _ _ s

theorem within_wxUdpProcess {s : NetState} {buf : BufSlot}
    (hdata : (s.bufPool buf).data + 8 ≤ bufferSize) : Within (wxUdpProcess buf) s := by
  unfold wxUdpProcess Within
  rw [wp_bind, wp_bufData, wp_bind, wp_view hdata, wp_bind, wp_free_iff, wp_whenever]
  refine ⟨fun _ => ?_, fun _ => rfl⟩
  rw [wp_discard, wp_wxNetBufPull]
  rfl

/-- Whether the packet is an echo request that is answered. -/
def EchoHeader (icmp : WxIcmpHdr) : Prop := icmp.type = 8 ∧ icmp.code = 0

theorem within_wxIcmpProcess_iff {s : NetState} {buf : BufSlot} {ipHdr : WxIpv4Hdr}
    (hused : s.bufPoolUsed buf = true) (hdata : (s.bufPool buf).data + 8 ≤ bufferSize) :
    Within (wxIcmpProcess buf ipHdr) s ↔
      (EchoHeader (WxIcmpHdr.load fun i => (s.bufPool buf).buffer ((s.bufPool buf).data + i)) →
        s.freeSlot ≠ none → EchoFits ipHdr (s.bufPool buf).data) := by
  unfold wxIcmpProcess Within
  rw [wp_bind, wp_bufData, wp_bind, wp_view hdata]
  dsimp only
  rw [wp_bind, wp_free_iff]
  generalize WxIcmpHdr.load _ = icmp
  rw [wp_whenever]
  constructor
  · intro h hecho hslot
    by_contra hfits
    exact not_within_wxIcmpReply hused hslot hfits (h.1 hecho)
  · intro h
    refine ⟨fun hecho => ?_, fun _ => rfl⟩
    by_cases hslot : s.freeSlot = none
    · exact within_wxIcmpReply_of_noSlot hslot
    · exact within_wxIcmpReply hused (h hecho hslot)

/-- The IP packet is for this host and carries an echo request that is answered. -/
structure EchoPacket (localIp : WxIpv4) (ip : WxIpv4Hdr) (icmp : WxIcmpHdr) : Prop where
  version : ip.version = 4
  ihl : 5 ≤ ip.ihl
  dest : ip.destIp = localIp ∨ ip.destIp 3 = 255
  protocol : ip.protocol = 1
  echo : EchoHeader icmp

theorem ihl_lt (bytes : Nat → UInt8) : (WxIpv4Hdr.load bytes).ihl < 16 := Nat.mod_lt _ (by decide)

theorem within_wxIpProcess_iff {s : NetState} {buf : BufSlot} {f : Nat → UInt8} {data tail : Nat}
    (hused : s.bufPoolUsed buf = true) (hdata : data + 80 ≤ bufferSize) {ip : WxIpv4Hdr}
    (hip : WxIpv4Hdr.load (fun i => f (data + i)) = ip) :
    Within (wxIpProcess buf) (s.setBuf buf (packet f data tail)) ↔
      (EchoPacket s.coreNetDev.localIp ip (WxIcmpHdr.load fun i => f (data + ip.ihl * 4 + i)) →
        s.freeSlot ≠ none →
        EchoFits ip (data + ip.ihl * 4)) := by
  have hihl : ip.ihl < 16 := hip ▸ ihl_lt _
  have hview : ((s.setBuf buf (packet f data tail)).bufPool buf).data + 20 ≤ bufferSize := by
    rw [setBuf_same]
    exact Nat.le_trans (Nat.add_le_add_left (by decide) data) hdata
  unfold bufferSize at hdata
  unfold wxIpProcess Within
  rw [wp_bind, wp_bufData, wp_bind, wp_view hview, setBuf_same, hip]
  dsimp only
  split
  -- not a packet of this version
  case isTrue hbad =>
    rw [wp_wxNetBufFree]
    refine iff_of_true rfl fun hecho => ?_
    have hversion := hecho.version
    have hlen := hecho.ihl
    omega
  case isFalse hgood =>
    rw [wp_bind, wp_get]
    split
    -- a packet for somebody else
    case isTrue hforeign =>
      rw [wp_wxNetBufFree]
      refine iff_of_true rfl fun hecho => ?_
      rcases hecho.dest with hdest | hdest
      · exact absurd hdest hforeign.1
      · exact absurd hdest hforeign.2
    case isFalse hours =>
      have hdest : ip.destIp = s.coreNetDev.localIp ∨ ip.destIp 3 = 255 := by
        by_contra hnone
        exact hours ⟨fun h => hnone (.inl h), fun h => hnone (.inr h)⟩
      have hbound : data + ip.ihl * 4 + 20 ≤ bufferSize := by
        unfold bufferSize
        omega
      rw [wp_bind, wp_discard, wp_wxNetBufPull_packet (Nat.le_of_add_right_le hbound)]
      generalize hdata' : data + ip.ihl * 4 = data' at hbound ⊢
      -- behind the header there is room for that of every protocol
      have hat : ∀ len, len ≤ 20 →
          ((s.setBuf buf (packet f data' tail)).bufPool buf).data + len ≤ bufferSize := by
        intro len hlen
        rw [setBuf_same]
        exact Nat.le_trans (Nat.add_le_add_left hlen data') hbound
      split
      -- only the echo reply copies as much as the packet says
      case isTrue hicmp =>
        have hiff := @within_wxIcmpProcess_iff (s.setBuf buf (packet f data' tail)) buf ip hused
          (hat 8 (by decide))
        rw [setBuf_same] at hiff
        refine hiff.trans ⟨fun h hecho => h hecho.echo, fun h hecho => h ?_⟩
        exact ⟨by omega, by omega, hdest, hicmp, hecho⟩
      case isFalse hother =>
        refine iff_of_true ?_ fun hecho => absurd hecho.protocol hother
        split
        · exact within_wxTcpProcess (hat 20 (Nat.le_refl _))
        · split
          · exact within_wxUdpProcess (hat 8 (by decide))
          · rw [wp_wxNetBufFree]
            rfl

theorem within_wxEthProcess_iff {s : NetState} {buf : BufSlot} {f : Nat → UInt8} {tail : Nat}
    (hused : s.bufPoolUsed buf = true) {ip : WxIpv4Hdr}
    (hip : WxIpv4Hdr.load (fun i => f (270 + i)) = ip) :
    Within (wxEthProcess buf) (s.setBuf buf (packet f 256 tail)) ↔
      (wxHtons (load16 f 268) = 0x0800 →
        EchoPacket s.coreNetDev.localIp ip (WxIcmpHdr.load fun i => f (270 + ip.ihl * 4 + i)) →
          s.freeSlot ≠ none →
          EchoFits ip (270 + ip.ihl * 4)) := by
  have hview : ((s.setBuf buf (packet f 256 tail)).bufPool buf).data + 14 ≤ bufferSize := by
    rw [setBuf_same]
    exact (by decide : 256 + 14 ≤ bufferSize)
  unfold wxEthProcess Within
  rw [wp_bind, wp_bufData, wp_bind, wp_view hview, setBuf_same]
  dsimp only
  rw [wp_bind, wp_discard, wp_wxNetBufPull_packet (by decide)]
  -- the two bytes that decide on the protocol
  have htype : wxHtons (WxEthHdr.load fun i => f (256 + i)).ethertype = wxHtons (load16 f 268) := rfl
  rw [htype]
  generalize wxHtons (load16 f 268) = type
  split
  case isTrue harp =>
    refine iff_of_true ?_ fun h => ?_
    · refine wp_mono (within_wxArpProcess ?_) fun _ t ht => ht
      rw [setBuf_same]
      exact (by decide : 270 + 28 ≤ bufferSize)
    · rw [harp] at h
      exact absurd h (by decide)
  case isFalse =>
    split
    case isTrue hipType =>
      refine (within_wxIpProcess_iff hused (by decide) hip).trans ?_
      exact ⟨fun h _ => h, fun h => h hipType⟩
    case isFalse hother =>
      rw [wp_wxNetBufFree]
      exact iff_of_true rfl fun h => absurd h hother

/-! ## Frames -/

/-- The bytes of a frame, and the zeros behind them in the buffer. -/
def Frame.byte (frame : Frame) (i : Nat) : UInt8 := frame.bytes.getD i 0

/-- What is read as the IP header of a frame. -/
def Frame.ipHdr (frame : Frame) : WxIpv4Hdr := WxIpv4Hdr.load fun i => frame.byte (14 + i)

/-- What is read as the echo header of a frame. -/
def Frame.icmpHdr (frame : Frame) : WxIcmpHdr :=
  WxIcmpHdr.load fun i => frame.byte (14 + frame.ipHdr.ihl * 4 + i)

/-- A frame that is answered with an echo reply, as there is a buffer for it and one for the
answer. -/
structure EchoRequest (s : NetState) (frame : Frame) : Prop where
  ethertype : wxHtons (load16 frame.byte 12) = 0x0800
  packet : EchoPacket s.coreNetDev.localIp frame.ipHdr frame.icmpHdr
  slots : ∃ buf, s.freeSlot = some buf ∧ (s.takeSlot buf).freeSlot ≠ none

/-- If the frame asks for an echo, the echo fits. -/
def EchoInBounds (s : NetState) (frame : Frame) : Prop :=
  EchoRequest s frame → EchoFits frame.ipHdr (270 + frame.ipHdr.ihl * 4)

theorem overwrite_frame (frame : Frame) {i j : Nat} (h : j = 256 + i) :
    overwrite (fun _ => 0) 256 frame.bytes j = frame.byte i := by
  subst h
  exact overwrite_add _ _ _ _

theorem within_receivePacket_iff (s : NetState) (frame : Frame) :
    Within (receivePacket frame) s ↔ EchoInBounds s frame := by
  cases hslot : s.freeSlot with
  | none =>
      refine iff_of_true ?_ fun hecho => ?_
      · unfold receivePacket Within
        dsimp only
        rw [wp_bind, wp_wxNetBufAlloc_none hslot]
        dsimp only
        rw [wp_pure]
      · rcases hecho.slots with ⟨buf, hbuf, _⟩
        rw [hslot] at hbuf
        cases hbuf
  | some buf =>
      have hused : (s.takeSlot buf).bufPoolUsed buf = true := by simp [NetState.takeSlot]
      -- the headers are read in the buffer where they are in the frame
      have hip : WxIpv4Hdr.load (fun i => overwrite (fun _ => 0) 256 frame.bytes (270 + i)) =
          frame.ipHdr := by
        unfold Frame.ipHdr
        congr 1
        funext i
        exact overwrite_frame frame (by omega)
      have hicmp : WxIcmpHdr.load (fun i =>
          overwrite (fun _ => 0) 256 frame.bytes (270 + frame.ipHdr.ihl * 4 + i)) =
            frame.icmpHdr := by
        unfold Frame.icmpHdr
        congr 1
        funext i
        exact overwrite_frame frame (by omega)
      have heth : load16 (overwrite (fun _ => 0) 256 frame.bytes) 268 = load16 frame.byte 12 := by
        unfold load16
        rw [overwrite_frame frame (by rfl : 268 = 256 + 12),
          overwrite_frame frame (by rfl : 268 + 1 = 256 + 13)]
      have hiff := @within_wxEthProcess_iff ((s.takeSlot buf).received frame.bytes.length) buf _
        (256 + frame.bytes.length) hused _ hip
      rw [hicmp, heth] at hiff
      unfold Within
      rw [wp_receivePacket hslot]
      refine hiff.trans ⟨fun h hecho => ?_, fun h htype hpacket hfree => ?_⟩
      · rcases hecho.slots with ⟨buf', hbuf', hfree⟩
        rw [hslot, Option.some.injEq] at hbuf'
        subst hbuf'
        exact h hecho.ethertype hecho.packet hfree
      · exact h ⟨htype, hpacket, buf, hslot, hfree⟩

/-- One round of `wx_e1000_poll`. -/
theorem within_wxE1000Receive_iff (s : NetState) (frame : Frame) :
    Within (wxE1000Receive frame) s ↔ EchoInBounds s frame := by
  rw [← within_receivePacket_iff]
  unfold wxE1000Receive Within
  rw [wp_bind]
  simp only [wp_modify]

/-- A sequence stays within the buffers when both its parts do. -/
theorem within_bind_iff {m n : NetM PUnit} (hm : Keeps FaultsGrow m) (hn : Keeps FaultsGrow n)
    (s : NetState) : Within (m >>= fun _ => n) s ↔ Within m s ∧ Within n (m s).2 := by
  have hfirst := wp_iff.1 (hm s)
  have hsecond := wp_iff.1 (hn (m s).2)
  unfold FaultsGrow at hfirst hsecond
  unfold Within
  rw [wp_bind, wp_iff, wp_iff, wp_iff, wp_iff]
  constructor
  · intro h
    have hmiddle : (m s).2.faults = s.faults := by
      rw [h] at hsecond
      exact hsecond.eq_of_length_le hfirst.length_le
    exact ⟨hmiddle, h.trans hmiddle.symm⟩
  · rintro ⟨hmiddle, hend⟩
    exact hend.trans hmiddle

/-- One round of `wx_e1000_poll`, as a step. -/
def NetState.receive (s : NetState) (frame : Frame) : Option NetState :=
  some (wxE1000Receive frame s).2

/-- Whatever frames arrive and whatever state they arrive in: no access leaves its buffer exactly
when every echo that is asked for fits. -/
theorem wxE1000Poll_within_iff (s : NetState) (frames : List Frame) :
    (wxE1000Poll frames s).2.faults = s.faults ↔
      AllSteps NetState.receive EchoInBounds s frames := by
  have hkeeps := receivingKeeps_faultsGrow
  have hrun : Within (wxE1000Poll frames) s ↔ AllSteps NetState.receive EchoInBounds s frames := by
    induction frames generalizing s with
    | nil =>
        refine iff_of_true ?_ trivial
        exact (wp_pure _ _ _).2 rfl
    | cons frame frames ih =>
        -- a fault of one frame stays, whatever the later ones do
        have hbind := within_bind_iff (keeps_wxE1000Receive hkeeps.polling frame)
          (keeps_wxE1000Poll hkeeps.polling frames) s
        refine hbind.trans ?_
        rw [within_wxE1000Receive_iff, ih]
        constructor
        · intro h t ht
          cases ht
          exact h
        · intro h
          exact h _ rfl
  unfold Within at hrun
  rw [wp_iff] at hrun
  exact hrun

/-- With all buffers free there is one for a frame and one for the answer. -/
theorem twoSlots_of_unused {s : NetState} (h : ∀ i, s.bufPoolUsed i = false) :
    ∃ buf, s.freeSlot = some buf ∧ (s.takeSlot buf).freeSlot ≠ none := by
  rcases Option.ne_none_iff_exists'.1 (freeSlot_ne_none.2 ⟨0, h 0⟩) with ⟨buf, hbuf⟩
  rcases exists_ne buf with ⟨other, hother⟩
  refine ⟨buf, hbuf, freeSlot_ne_none.2 ⟨other, ?_⟩⟩
  exact (Function.update_of_ne hother _ _).trans (h other)

/-- An echo request to `192.168.1.100` whose `total_len` leaves four bytes for the echo: less than
its header. -/
def shortEcho : Frame :=
  { bytes :=
      [0, 0, 0, 0, 0, 0, 0, 0, 0, 0, 0, 0, 0x08, 0x00,
        0x45, 0, 0, 24, 0, 0, 0, 0, 64, 1, 0, 0, 10, 0, 0, 1, 192, 168, 1, 100,
        8, 0, 0, 0, 0, 0, 0, 0]
    fits := by decide }

/-- The first frame after `wx_e1000_init` can lead out of a buffer. -/
theorem wxE1000Poll_within_false :
    ¬ ∀ (macLow macHigh : UInt32) (frames : List Frame),
      (wxE1000Poll frames (NetState.boot macLow macHigh)).2.faults =
        (NetState.boot macLow macHigh).faults := by
  intro h
  have hkeeps := receivingKeeps_faultsGrow
  have hpoll : Within (wxE1000Poll [shortEcho]) (NetState.boot 0 0) := wp_iff.2 (h 0 0 [shortEcho])
  have hone := ((within_bind_iff (keeps_wxE1000Receive hkeeps.polling shortEcho)
    (keeps_wxE1000Poll hkeeps.polling []) _).1 hpoll).1
  -- the frame is an echo request for this host
  have hpacket : EchoPacket (NetState.boot 0 0).coreNetDev.localIp shortEcho.ipHdr
      shortEcho.icmpHdr :=
    { version := by decide
      ihl := by decide
      dest := .inl (by decide)
      protocol := by decide
      echo := ⟨by decide, by decide⟩ }
  have hslots := twoSlots_of_unused (s := NetState.boot 0 0) fun _ => rfl
  -- so it would have to have room for its own header
  have hfits := (within_wxE1000Receive_iff _ _).1 hone
    { ethertype := by decide
      packet := hpacket
      slots := hslots }
  have hheader : 8 ≤ icmpLen shortEcho.ipHdr := hfits.1
  revert hheader
  decide

end Net
end WhitexKernel
