import WhitexKernel.Net.Bounds
import WhitexKernel.Net.Delivery
import WhitexKernel.Net.Pool

/-!
# Echo — a ping is answered

An echo request is followed from the receive buffer to the frame that `wx_ip_send` transmits:
`echoReply` is the packet that `wx_icmp_process` builds, and `AnswersEcho` says what a host that reads
the frame finds in it.
-/

namespace WhitexKernel
namespace Net

open Lib Lib.Bytes Lib.Stateful Machine

/-! ## The reply -/

/-- The header of the reply, before its checksum is in it. -/
def echoHeader (icmp : WxIcmpHdr) : WxIcmpHdr :=
  { type := 0
    code := 0
    checksum := 0
    id := icmp.id
    seq := icmp.seq }

/-- It with the checksum, which is that of the header and the payload. -/
def sealedHeader (icmp : WxIcmpHdr) (payload : List UInt8) : WxIcmpHdr :=
  { echoHeader icmp with checksum := wxChecksum ((echoHeader icmp).bytes ++ payload) }

/-- The reply to a request with this payload. -/
def echoReply (icmp : WxIcmpHdr) (payload : List UInt8) : List UInt8 :=
  (sealedHeader icmp payload).bytes ++ payload

theorem echoReply_length (icmp : WxIcmpHdr) (payload : List UInt8) :
    (echoReply icmp payload).length = 8 + payload.length := by
  simp [echoReply]

/-- The checksum of a reply verifies. -/
theorem wxChecksum_echoReply (icmp : WxIcmpHdr) {payload : List UInt8}
    (hlength : 8 + payload.length ≤ 65535) : wxChecksum (echoReply icmp payload) = 0 := by
  have hinsert : wxChecksum ([0, 0] ++ (bytes16 (wxChecksum ([0, 0] ++ (bytes16 0 ++
      (bytes16 icmp.id ++ bytes16 icmp.seq ++ payload)))) ++
        (bytes16 icmp.id ++ bytes16 icmp.seq ++ payload))) = 0 := by
    refine wxChecksum_insert (by decide) ?_
    simp only [List.length_append, bytes16_length, List.length_cons, List.length_nil]
    omega
  simpa [echoReply, sealedHeader, echoHeader, WxIcmpHdr.bytes, bytes16] using hinsert

/-- What reads back of the header written in front of the payload, the checksum last. -/
theorem slice_echoReply (f : Nat → UInt8) (data : Nat) (icmp : WxIcmpHdr) (payload : List UInt8) :
    slice (overwrite (overwrite (overwrite f (data + 8) payload) data (echoHeader icmp).bytes)
        (data + 2) (bytes16 (wxChecksum (slice (overwrite (overwrite f (data + 8) payload) data
          (echoHeader icmp).bytes) data (8 + payload.length))))) data (8 + payload.length) =
      echoReply icmp payload := by
  -- a header in front of the payload
  have hread : ∀ h : WxIcmpHdr, slice (overwrite (overwrite f (data + 8) payload) data h.bytes) data
      (8 + payload.length) = h.bytes ++ payload := by
    intro h
    have hfront := slice_overwrite_front (overwrite f (data + 8) payload) data payload.length h.bytes
    rw [icmpHdr_length, slice_overwrite_same] at hfront
    exact hfront
  have hsealed : ∀ x, (echoHeader icmp).bytes.take 2 ++ bytes16 x ++
      (echoHeader icmp).bytes.drop 4 = WxIcmpHdr.bytes { echoHeader icmp with checksum := x } := by
    intro x
    simp [echoHeader, WxIcmpHdr.bytes, bytes16]
  rw [hread, overwrite_within _ data 2 (by rw [bytes16_length, icmpHdr_length]; omega)]
  rw [bytes16_length, hsealed, hread]
  rfl

/-! ## The way through the stack -/

section Stack

variable {s : NetState} {buf rep : BufSlot} {ipHdr : WxIpv4Hdr} {icmp : WxIcmpHdr} {dmac : WxMac}

/-- The frame that answers a request whose payload has `n` bytes at `offset` of `g`. -/
def replyFrame (s : NetState) (dmac : WxMac) (ipHdr : WxIpv4Hdr) (icmp : WxIcmpHdr)
    (payload : List UInt8) : List UInt8 :=
  ipFrame s.coreNetDev dmac ipHdr.srcIp 1 (echoReply icmp payload)

theorem replyFrame_length (s : NetState) (dmac : WxMac) (ipHdr : WxIpv4Hdr) (icmp : WxIcmpHdr)
    (payload : List UInt8) : (replyFrame s dmac ipHdr icmp payload).length = 42 + payload.length := by
  unfold replyFrame
  rw [ipFrame_length, echoReply_length]
  omega

/-- What is transmitted when a request is answered. -/
def Transmits (s : NetState) (frame : List UInt8) : PUnit → NetState → Prop :=
  fun _ t => t.transmitted = s.transmitted ++ [frame]

theorem transmits_wxIcmpReply (icmp : WxIcmpHdr) (hused : s.bufPoolUsed buf = true)
    (hslot : s.freeSlot = some rep)
    (hfits : EchoFits ipHdr (s.bufPool buf).data) (hmac : destMac s ipHdr.srcIp = some dmac)
    (hshort : 34 + icmpLen ipHdr ≤ ringBufferSize) :
    wp (wxIcmpReply buf ipHdr icmp) (Transmits s (replyFrame s dmac ipHdr icmp
      (slice (s.bufPool buf).buffer ((s.bufPool buf).data + 8) (icmpLen ipHdr - 8)))) s := by
  obtain ⟨hheader, hreply, hrequest⟩ := hfits
  unfold bufferSize at hrequest
  -- the reply is built in another slot than the request
  have hne : buf ≠ rep := by
    rintro rfl
    rw [freeSlot_some hslot] at hused
    cases hused
  have hother : (s.takeSlot rep).bufPool buf = s.bufPool buf := takeSlot_of_ne s hne
  have hlen : sub32 (icmpLen ipHdr) 8 = icmpLen ipHdr - 8 := sub32_of_le hheader (by omega)
  have hput : wrap16 (icmpLen ipHdr - 8) = icmpLen ipHdr - 8 := wrap16_of_lt (by omega)
  generalize hpayload : slice (s.bufPool buf).buffer ((s.bufPool buf).data + 8)
    (icmpLen ipHdr - 8) = payload
  have hcount : payload.length = icmpLen ipHdr - 8 := by rw [← hpayload, slice_length]
  have htotal : icmpLen ipHdr = 8 + payload.length := by omega
  unfold wxIcmpReply
  rw [wp_bind, wp_wxNetBufAlloc_some hslot]
  dsimp only
  rw [takeSlot_eq, WxNetBuf.fresh, wp_bind,
    wp_wxNetBufReserve_packet (by decide) (by decide), hlen, hput, wp_bind,
    wp_wxNetBufPut_packet (by unfold bufferSize; omega), wp_bind, wp_bufData,
    setBuf_of_ne _ hne, hother, wp_bind,
    wp_copyBuf_packet hne (by unfold bufferSize; omega) (by unfold bufferSize; omega), hother,
    hpayload, wp_bind, wp_wxNetBufPush_packet (by decide) (by decide), wp_bind,
    wp_store_packet (by rw [icmpHdr_length]; decide), wp_bind,
    wp_bufferChecksum_packet (by unfold bufferSize; omega), wp_bind,
    wp_store_packet (by rw [bytes16_length]; decide)]
  have hstart : destMac (s.takeSlot rep) ipHdr.srcIp = some dmac := hmac
  refine wp_wxIpSend_packet (by decide) (by omega) (by unfold bufferSize; omega)
    (fun hmiss => ?_) fun dmac' b hhit => ?_
  · rw [hstart] at hmiss
    cases hmiss
  · rw [hstart, Option.some.injEq] at hhit
    subst hhit
    -- what is sent is the reply, and the adapter takes it
    have htail : 256 + 128 + (icmpLen ipHdr - 8) - (256 + 128 - 8) = 8 + payload.length := by omega
    have hread := slice_echoReply (fun _ => 0) 376 icmp payload
    unfold echoHeader at hread
    rw [htail, htotal]
    simp only [Nat.reduceAdd, Nat.reduceSub] at hread ⊢
    have hframe : ipFrame (s.takeSlot rep).coreNetDev dmac ipHdr.srcIp 1 (echoReply icmp payload) =
        replyFrame s dmac ipHdr icmp payload := rfl
    rw [hread, hframe]
    have htaken : ¬ (replyFrame s dmac ipHdr icmp payload).length > ringBufferSize := by
      rw [replyFrame_length]
      omega
    unfold Transmits NetState.transmit
    rw [if_neg htaken]
    rfl

/-- The last part of `wx_ip_process` answers the packet, and gives its buffer back. -/
theorem transmits_protocolSwitch {g : Nat → UInt8} {data tail : Nat}
    (hused : s.bufPoolUsed buf = true) (hslot : s.freeSlot = some rep)
    (hprotocol : ipHdr.protocol = 1)
    (hicmp : WxIcmpHdr.load (fun i => g (data + i)) = icmp) (hecho : EchoHeader icmp)
    (hfits : EchoFits ipHdr data) (hmac : destMac s ipHdr.srcIp = some dmac)
    (hshort : 34 + icmpLen ipHdr ≤ ringBufferSize) :
    wp (protocolSwitch buf ipHdr) (Transmits s (replyFrame s dmac ipHdr icmp
      (slice g (data + 8) (icmpLen ipHdr - 8)))) (s.setBuf buf (packet g data tail)) := by
  have hheader := hfits.1
  have hrequest := hfits.2.2
  have hview : ((s.setBuf buf (packet g data tail)).bufPool buf).data + 8 ≤ bufferSize := by
    rw [setBuf_same]
    exact (Nat.add_le_add_left hheader data).trans hrequest
  unfold protocolSwitch wxIcmpProcess
  rw [if_pos hprotocol, wp_bind, wp_bufData, wp_bind, wp_view hview, setBuf_same]
  dsimp only
  rw [hicmp, wp_bind, wp_whenever]
  -- only an echo request is answered
  refine ⟨fun _ => ?_, fun hnot => absurd hecho hnot⟩
  have hreply := transmits_wxIcmpReply (s := s.setBuf buf (packet g data tail)) icmp hused hslot
    (by rw [setBuf_same]; exact hfits) hmac hshort
  rw [setBuf_same] at hreply
  -- the request is freed afterwards, which sends nothing
  refine wp_mono hreply fun _ t ht => ?_
  rw [wp_wxNetBufFree]
  exact ht

/-- A received packet is answered, with Ethernet and IP header taken off. -/
theorem transmits_wxEthProcess {g : Nat → UInt8} {data : Nat} (tail : Nat)
    (hused : s.bufPoolUsed buf = true) (hslot : s.freeSlot = some rep)
    (htype : wxHtons (load16 (fun i => g (data + i)) 12) = 0x0800)
    (hip : WxIpv4Hdr.load (fun i => g (data + 14 + i)) = ipHdr)
    (hicmp : WxIcmpHdr.load (fun i => g (data + 14 + ipHdr.ihl * 4 + i)) = icmp)
    (hpacket : EchoPacket s.coreNetDev.localIp ipHdr icmp)
    (hlocal : ipHdr.destIp = s.coreNetDev.localIp)
    (hfits : EchoFits ipHdr (data + 14 + ipHdr.ihl * 4)) (hmac : destMac s ipHdr.srcIp = some dmac)
    (hshort : 34 + icmpLen ipHdr ≤ ringBufferSize) :
    wp (wxEthProcess buf) (Transmits s (replyFrame s dmac ipHdr icmp
      (slice g (data + 14 + ipHdr.ihl * 4 + 8) (icmpLen ipHdr - 8))))
        (s.setBuf buf (packet g data tail)) := by
  have hheader := hfits.1
  have hrequest := hfits.2.2
  rw [wp_wxEthProcess_ip htype (by omega),
    wp_wxIpProcess_accepted hip hpacket.version hpacket.ihl hlocal (by omega)]
  exact transmits_protocolSwitch hused hslot hpacket.protocol hicmp hpacket.echo hfits hmac hshort

end Stack

/-! ## Frames read back -/

theorem load_icmpHdr {g : Nat → UInt8} {offset : Nat} {h : WxIcmpHdr}
    (hbytes : slice g offset 8 = h.bytes) (hchecksum : h.checksum < 2 ^ 16) (hid : h.id < 2 ^ 16)
    (hseq : h.seq < 2 ^ 16) : WxIcmpHdr.load (fun i => g (offset + i)) = h := by
  have hbyte : ∀ i, i < 8 → h.bytes[i]? = some (g (offset + i)) := fun i hi =>
    getElem?_of_slice hbytes hi
  have htype : g (offset + 0) = h.type := by
    simpa [WxIcmpHdr.bytes] using (hbyte 0 (by decide)).symm
  have hcode : g (offset + 1) = h.code := by
    simpa [WxIcmpHdr.bytes] using (hbyte 1 (by decide)).symm
  -- the words are stored low byte first, so each is read from two neighbours
  have hsum : load16 (fun i => g (offset + i)) 2 = h.checksum :=
    load16_eq hchecksum
      (by simpa [WxIcmpHdr.bytes, bytes16] using (hbyte 2 (by decide)).symm)
      (by simpa [WxIcmpHdr.bytes, bytes16] using (hbyte 3 (by decide)).symm)
  have hident : load16 (fun i => g (offset + i)) 4 = h.id :=
    load16_eq hid
      (by simpa [WxIcmpHdr.bytes, bytes16] using (hbyte 4 (by decide)).symm)
      (by simpa [WxIcmpHdr.bytes, bytes16] using (hbyte 5 (by decide)).symm)
  have hsequence : load16 (fun i => g (offset + i)) 6 = h.seq :=
    load16_eq hseq
      (by simpa [WxIcmpHdr.bytes, bytes16] using (hbyte 6 (by decide)).symm)
      (by simpa [WxIcmpHdr.bytes, bytes16] using (hbyte 7 (by decide)).symm)
  unfold WxIcmpHdr.load
  dsimp only
  rw [htype, hcode, hsum, hident, hsequence]

/-- The address a frame is sent to. -/
theorem load_ethDest {g : Nat → UInt8} {offset : Nat} {h : WxEthHdr}
    (hbytes : slice g offset 14 = h.bytes) : loadMac g offset = h.dest := by
  have hbyte : ∀ i, i < 14 → h.bytes[i]? = some (g (offset + i)) := fun i hi =>
    getElem?_of_slice hbytes hi
  funext i
  have hi := hbyte (0 + i) (by omega)
  fin_cases i <;> simpa [loadMac, WxEthHdr.bytes, bytes16] using hi.symm

/-- What is read as the Ethernet header of a frame. -/
def Frame.ethHdr (frame : Frame) : WxEthHdr := WxEthHdr.load frame.byte

/-- What the IP packet of a frame carries. -/
def Frame.ipPayload (frame : Frame) : List UInt8 :=
  (frame.bytes.drop (14 + frame.ipHdr.ihl * 4)).take
    (wxHtons frame.ipHdr.totalLen - frame.ipHdr.ihl * 4)

theorem slice_byte (frame : Frame) {offset n : Nat} (h : offset + n ≤ frame.bytes.length) :
    slice frame.byte offset n = (frame.bytes.drop offset).take n := by
  apply List.ext_getElem?
  intro i
  rw [slice_getElem?]
  split
  case isTrue hi =>
    rw [List.getElem?_take_of_lt hi, List.getElem?_drop, List.getElem?_eq_getElem (by omega)]
    unfold Frame.byte
    rw [List.getD_eq_getElem?_getD, List.getElem?_eq_getElem (by omega), Option.getD_some]
  case isFalse hi =>
    rw [List.getElem?_take_eq_none (by omega)]

/-! ## Request and answer -/

/-- The length that the IP header of a frame gives its packet. -/
def Frame.totalLen (frame : Frame) : Nat := wxHtons frame.ipHdr.totalLen

/-- `frame` holds all of an echo request for `localIp`. -/
structure WellFormedEcho (localIp : WxIpv4) (frame : Frame) : Prop where
  ethertype : wxHtons (load16 frame.byte 12) = 0x0800
  version : frame.ipHdr.version = 4
  ihl : 5 ≤ frame.ipHdr.ihl
  dest : frame.ipHdr.destIp = localIp
  protocol : frame.ipHdr.protocol = 1
  echo : EchoHeader frame.icmpHdr
  header : frame.ipHdr.ihl * 4 + 8 ≤ frame.totalLen
  whole : 14 + frame.totalLen ≤ frame.bytes.length

/-- `reply` answers the echo request in `frame`, and is sent to `mac`. -/
structure AnswersEcho (dev : WxNetDevice) (frame : Frame) (mac : WxMac) (reply : Frame) : Prop where
  mac : reply.ethHdr.dest = mac
  ethertype : wxHtons reply.ethHdr.ethertype = 0x0800
  version : reply.ipHdr.version = 4
  ihl : reply.ipHdr.ihl = 5
  protocol : reply.ipHdr.protocol = 1
  srcIp : reply.ipHdr.srcIp = dev.localIp
  destIp : reply.ipHdr.destIp = frame.ipHdr.srcIp
  length : 14 + reply.totalLen = reply.bytes.length
  type : reply.icmpHdr.type = 0
  code : reply.icmpHdr.code = 0
  id : reply.icmpHdr.id = frame.icmpHdr.id
  seq : reply.icmpHdr.seq = frame.icmpHdr.seq
  payload : reply.ipPayload.drop 8 = frame.ipPayload.drop 8
  ipChecksum : wxChecksum ((reply.bytes.drop 14).take 20) = 0
  icmpChecksum : wxChecksum reply.ipPayload = 0

theorem WellFormedEcho.icmpLen_eq {localIp : WxIpv4} {frame : Frame}
    (h : WellFormedEcho localIp frame) :
    icmpLen frame.ipHdr = frame.totalLen - frame.ipHdr.ihl * 4 := by
  have hheader := h.header
  exact sub16_of_le (by unfold Frame.totalLen at hheader; omega) (wxHtons_lt _)

/-- The payload of a request, as `wx_icmp_process` copies it. -/
theorem WellFormedEcho.slice_payload {localIp : WxIpv4} {frame : Frame}
    (h : WellFormedEcho localIp frame) :
    slice frame.byte (14 + frame.ipHdr.ihl * 4 + 8) (icmpLen frame.ipHdr - 8) =
      frame.ipPayload.drop 8 := by
  have hlen := h.icmpLen_eq
  have hheader := h.header
  have hwhole := h.whole
  unfold Frame.ipPayload
  rw [slice_byte frame (by omega), hlen, List.drop_take, List.drop_drop]
  rfl

/-- What reads back of a reply that is sent. -/
theorem answersEcho_replyFrame {s : NetState} {frame reply : Frame} {mac : WxMac}
    (hlength : (frame.ipPayload.drop 8).length + 8 ≤ 65535)
    (hreply : reply.bytes = replyFrame s mac frame.ipHdr frame.icmpHdr (frame.ipPayload.drop 8)) :
    AnswersEcho s.coreNetDev frame mac reply := by
  generalize hpayload : frame.ipPayload.drop 8 = payload at hlength hreply
  have hfits := reply.fits
  have hbytes : reply.bytes.length = 14 + (20 + (echoReply frame.icmpHdr payload).length) := by
    rw [hreply]
    exact ipFrame_length _ _ _ _ _
  unfold ringBufferSize at hfits
  have hcarries : Carries (packet reply.byte 0 reply.bytes.length) (ipFrame s.coreNetDev mac
      frame.ipHdr.srcIp 1 (echoReply frame.icmpHdr payload)) := by
    have hread : slice reply.byte 0 reply.bytes.length = reply.bytes := by
      rw [slice_byte reply (by omega), List.drop_zero, List.take_length]
    refine ⟨?_, ?_, ?_⟩
    · rw [hbytes, ipFrame_length, Nat.zero_add]
    · have hroom : reply.bytes.length ≤ bufferSize := by
        unfold bufferSize
        omega
      exact hroom
    · rw [ipFrame_length, ← hbytes, hread, hreply]
      rfl
  obtain ⟨heth, hip, hicmp⟩ := hcarries.parts
  have hheader : reply.ipHdr = (ipHeader s.coreNetDev frame.ipHdr.srcIp 1
      (20 + (echoReply frame.icmpHdr payload).length)).sealed :=
    load_ipv4Hdr hip (sealed_inRange _ _ _ _)
  have hihl : reply.ipHdr.ihl = 5 := by
    rw [hheader]
    rfl
  have htotal : reply.totalLen = 20 + (echoReply frame.icmpHdr payload).length := by
    unfold Frame.totalLen
    rw [hheader]
    exact wxHtons_wxHtons (by omega)
  -- the packet is the last part of the frame
  have hpacket : reply.ipPayload = echoReply frame.icmpHdr payload := by
    have hslice : slice reply.byte 34 (echoReply frame.icmpHdr payload).length =
        echoReply frame.icmpHdr payload := hicmp
    rw [slice_byte reply (by omega)] at hslice
    unfold Frame.totalLen at htotal
    unfold Frame.ipPayload
    rw [hihl, htotal, Nat.add_sub_cancel_left]
    exact hslice
  have hecho : reply.icmpHdr = sealedHeader frame.icmpHdr payload := by
    have hslice : slice reply.byte 34 (8 + payload.length) =
        (sealedHeader frame.icmpHdr payload).bytes ++ payload := by
      rw [← echoReply_length frame.icmpHdr payload]
      exact hicmp
    rw [slice_append] at hslice
    have hfront := (List.append_inj hslice (by simp)).1
    unfold Frame.icmpHdr
    rw [hihl]
    exact load_icmpHdr hfront (complement16_lt _) (load16_lt _ _) (load16_lt _ _)
  refine
    { mac := load_ethDest heth
      ethertype := ?_
      version := by rw [hheader]; rfl
      ihl := hihl
      protocol := by rw [hheader]; rfl
      srcIp := by rw [hheader]; rfl
      destIp := by rw [hheader]; rfl
      length := by rw [htotal, hbytes]
      type := by rw [hecho]; rfl
      code := by rw [hecho]; rfl
      id := by rw [hecho]; rfl
      seq := by rw [hecho]; rfl
      payload := ?_
      ipChecksum := ?_
      icmpChecksum := ?_ }
  · have htype : reply.ethHdr.ethertype = wxHtons 0x0800 := load_ethertype heth (wxHtons_lt _)
    rw [htype]
    exact wxHtons_wxHtons (by decide)
  · rw [hpacket, hpayload]
    exact List.drop_left' (icmpHdr_length _)
  · rw [← slice_byte reply (by omega), show slice reply.byte 14 20 = _ from hip]
    exact wxChecksum_sealed rfl
  · rw [hpacket]
    exact wxChecksum_echoReply _ (by omega)

/-! ## A received frame -/

/-- With two buffers free, an echo request is answered by one frame. -/
theorem receive_answersEcho {s : NetState} {frame : Frame} {buf : BufSlot}
    (hecho : WellFormedEcho s.coreNetDev.localIp frame) (hslot : s.freeSlot = some buf)
    (hfree : (s.takeSlot buf).freeSlot ≠ none) {mac : WxMac}
    (hmac : destMac s frame.ipHdr.srcIp = some mac) :
    ∃ reply : Frame, (wxE1000Receive frame s).2.transmitted = s.transmitted ++ [reply.bytes] ∧
      AnswersEcho s.coreNetDev frame mac reply := by
  obtain ⟨rep, hrep⟩ := Option.ne_none_iff_exists'.1 hfree
  have hused : (s.takeSlot buf).bufPoolUsed buf = true := by simp [NetState.takeSlot]
  have hlen := hecho.icmpLen_eq
  have hheader := hecho.header
  have hwhole := hecho.whole
  have hsize := frame.fits
  unfold ringBufferSize at hsize
  have hihl := hecho.ihl
  have hfits : EchoFits frame.ipHdr (256 + 14 + frame.ipHdr.ihl * 4) := by
    unfold EchoFits bufferSize
    omega
  -- the headers are read in the buffer where they are in the frame
  have hread : ∀ i, overwrite (fun _ => 0) 256 frame.bytes (256 + i) = frame.byte i := fun i =>
    overwrite_frame frame rfl
  have hip : WxIpv4Hdr.load (fun i => overwrite (fun _ => 0) 256 frame.bytes (256 + 14 + i)) =
      frame.ipHdr := by
    unfold Frame.ipHdr
    simp only [Nat.add_assoc, hread]
  have hicmp : WxIcmpHdr.load (fun i => overwrite (fun _ => 0) 256 frame.bytes
      (256 + 14 + frame.ipHdr.ihl * 4 + i)) = frame.icmpHdr := by
    unfold Frame.icmpHdr
    simp only [Nat.add_assoc, hread]
  have htype : wxHtons (load16 (fun i => overwrite (fun _ => 0) 256 frame.bytes (256 + i)) 12) =
      0x0800 := by
    simp only [hread]
    exact hecho.ethertype
  have hpayload : slice (overwrite (fun _ => 0) 256 frame.bytes)
      (256 + 14 + frame.ipHdr.ihl * 4 + 8) (icmpLen frame.ipHdr - 8) = frame.ipPayload.drop 8 := by
    rw [← hecho.slice_payload]
    refine slice_congr fun i _ => ?_
    rw [← hread]
    congr 1
    omega
  have hpacket : EchoPacket s.coreNetDev.localIp frame.ipHdr frame.icmpHdr :=
    ⟨hecho.version, hecho.ihl, .inl hecho.dest, hecho.protocol, hecho.echo⟩
  have hshort : 34 + icmpLen frame.ipHdr ≤ ringBufferSize := by
    unfold ringBufferSize
    omega
  have htransmits := transmits_wxEthProcess (s := (s.takeSlot buf).received frame.bytes.length)
    (256 + frame.bytes.length) hused hrep htype hip hicmp hpacket hecho.dest hfits hmac hshort
  rw [hpayload] at htransmits
  have hsent : wp (wxE1000Receive frame) (Transmits s (replyFrame s mac frame.ipHdr frame.icmpHdr
      (frame.ipPayload.drop 8))) s := by
    unfold wxE1000Receive
    rw [wp_bind, wp_receivePacket hslot]
    refine wp_mono htransmits fun _ t ht => ?_
    rw [wp_modify]
    exact ht
  have hcount : (frame.ipPayload.drop 8).length ≤ 2006 := by
    rw [← hecho.slice_payload, slice_length]
    omega
  have hfit : (replyFrame s mac frame.ipHdr frame.icmpHdr (frame.ipPayload.drop 8)).length ≤
      ringBufferSize := by
    unfold ringBufferSize
    rw [replyFrame_length]
    omega
  exact ⟨⟨_, hfit⟩, wp_iff.1 hsent, answersEcho_replyFrame (by omega) rfl⟩

/-! ## Whole runs -/

/-- `255.255.255.255` -/
def limitedBroadcast : WxIpv4 := fun _ => 255

theorem destMac_eq (s : NetState) (destIp : WxIpv4) :
    destMac s destIp =
      if destIp = limitedBroadcast then some broadcastMac else wxArpLookup s.arpCache destIp := by
  have hiff : (destIp 0 = 255 ∧ destIp 1 = 255 ∧ destIp 2 = 255 ∧ destIp 3 = 255) ↔
      destIp = limitedBroadcast := by
    constructor
    · rintro ⟨hzero, hone, htwo, hthree⟩
      funext i
      fin_cases i
      · exact hzero
      · exact hone
      · exact htwo
      · exact hthree
    · rintro rfl
      exact ⟨rfl, rfl, rfl, rfl⟩
  unfold destMac
  simp only [hiff]

/-- Between two calls no buffer is in use. -/
theorem unused_of_reachable {macLow macHigh : UInt32} {s : NetState}
    (hreach : Reachable netStep (NetState.boot macLow macHigh) s) (i : BufSlot) :
    s.bufPoolUsed i = false := by
  obtain ⟨calls, hexec⟩ := hreach
  have hconserved := (conserved_run (freeSlots_boot macLow macHigh) calls).last hexec
  rw [hconserved.used_eq]
  rfl

/-! ### Two frames -/

/-- An ARP reply to `192.168.1.100` that says where `ip` is. -/
def arpReplyFrom (ip : WxIpv4) : Frame :=
  { bytes :=
      [0, 0, 0, 0, 0, 0, 0, 0, 0, 0, 0, 0, 0x08, 0x06,
        0, 1, 0x08, 0x00, 6, 4, 0, 2, 2, 0, 0, 0, 0, 1] ++ List.ofFn ip ++
          [0, 0, 0, 0, 0, 0, 192, 168, 1, 100]
    fits := by simp [ringBufferSize] }

/-- An echo request from `ip` to `192.168.1.100` with a payload of one byte. -/
def echoFrom (ip : WxIpv4) : Frame :=
  { bytes :=
      [0, 0, 0, 0, 0, 0, 0, 0, 0, 0, 0, 0, 0x08, 0x00,
        0x45, 0, 0, 29, 0, 0, 0, 0, 64, 1, 0, 0] ++ List.ofFn ip ++
          [192, 168, 1, 100, 8, 0, 0, 0, 0, 1, 0, 2, 7]
    fits := by simp [ringBufferSize] }

/-- The state after the reply has been received. -/
def cachedFrom (ip : WxIpv4) : NetState := (wxE1000Poll [arpReplyFrom ip] (NetState.boot 0 0)).2

theorem wellFormed_echoFrom {localIp : WxIpv4} (hlocal : localIp = ![192, 168, 1, 100])
    (ip : WxIpv4) : WellFormedEcho localIp (echoFrom ip) := by
  -- the numbers the conditions speak of, before the conditions themselves
  have hihl : (echoFrom ip).ipHdr.ihl = 5 := by
    simp [Frame.ipHdr, WxIpv4Hdr.load, Frame.byte, echoFrom]
  have htotal : (echoFrom ip).totalLen = 29 := by
    simp [Frame.totalLen, Frame.ipHdr, WxIpv4Hdr.load, load16, wxHtons, Frame.byte, echoFrom]
  have hlength : (echoFrom ip).bytes.length = 43 := by simp [echoFrom]
  refine
    { ethertype := by simp [load16, wxHtons, Frame.byte, echoFrom]
      version := by simp [Frame.ipHdr, WxIpv4Hdr.load, Frame.byte, echoFrom]
      ihl := hihl.ge
      dest := ?_
      protocol := by simp [Frame.ipHdr, WxIpv4Hdr.load, Frame.byte, echoFrom]
      echo := ?_
      header := by omega
      whole := by omega }
  · rw [hlocal]
    funext i
    fin_cases i <;> simp [Frame.ipHdr, WxIpv4Hdr.load, loadIpv4, Frame.byte, echoFrom]
  · have hbytes : (echoFrom ip).byte 34 = 8 ∧ (echoFrom ip).byte 35 = 0 := by
      simp [Frame.byte, echoFrom]
    unfold Frame.icmpHdr
    rw [hihl]
    exact hbytes

theorem reachable_cachedFrom (ip : WxIpv4) :
    Reachable netStep (NetState.boot 0 0) (cachedFrom ip) :=
  ⟨[.poll [arpReplyFrom ip]], rfl⟩

/-- A ping is answered: in every state that is reached after initialisation, an echo request for this
host from a cached address is answered by exactly one frame, addressed to its sender, with its id,
its sequence number and its payload, and with checksums that verify. -/
theorem ping_answered {macLow macHigh : UInt32} {s : NetState}
    (hreach : Reachable netStep (NetState.boot macLow macHigh) s) {frame : Frame}
    (hecho : WellFormedEcho s.coreNetDev.localIp frame) {mac : WxMac}
    (hcached : wxArpLookup s.arpCache frame.ipHdr.srcIp = some mac) :
    ∃ reply : Frame, (wxE1000Receive frame s).2.transmitted = s.transmitted ++ [reply.bytes] ∧
      AnswersEcho s.coreNetDev frame
        (if frame.ipHdr.srcIp = limitedBroadcast then broadcastMac else mac) reply := by
  obtain ⟨buf, hslot, hfree⟩ := twoSlots_of_unused (unused_of_reachable hreach)
  refine receive_answersEcho hecho hslot hfree ?_
  rw [destMac_eq, hcached]
  split <;> rfl

/-- A ping from `10.0.0.1`, whose MAC address an ARP reply has told. -/
theorem ping_answered_cached :
    ∃ reply : Frame,
      (wxE1000Receive (echoFrom ![10, 0, 0, 1]) (cachedFrom ![10, 0, 0, 1])).2.transmitted =
        (cachedFrom ![10, 0, 0, 1]).transmitted ++ [reply.bytes] ∧
      AnswersEcho (cachedFrom ![10, 0, 0, 1]).coreNetDev (echoFrom ![10, 0, 0, 1])
        ![2, 0, 0, 0, 0, 1] reply := by
  have hcached : wxArpLookup (cachedFrom ![10, 0, 0, 1]).arpCache
      (echoFrom ![10, 0, 0, 1]).ipHdr.srcIp = some ![2, 0, 0, 0, 0, 1] := by decide +kernel
  have hanswered := ping_answered (reachable_cachedFrom ![10, 0, 0, 1])
    (wellFormed_echoFrom (by decide +kernel) ![10, 0, 0, 1]) hcached
  rwa [if_neg (by decide)] at hanswered

/-- An ARP reply can tell an address of `255.255.255.255`, but what is sent there is broadcast. -/
theorem ping_answered_false :
    ¬ ∀ (macLow macHigh : UInt32) (s : NetState) (frame : Frame) (mac : WxMac),
      Reachable netStep (NetState.boot macLow macHigh) s →
      WellFormedEcho s.coreNetDev.localIp frame →
      wxArpLookup s.arpCache frame.ipHdr.srcIp = some mac →
      ∃ reply : Frame, (wxE1000Receive frame s).2.transmitted = s.transmitted ++ [reply.bytes] ∧
        AnswersEcho s.coreNetDev frame mac reply := by
  intro hall
  have hreach := reachable_cachedFrom limitedBroadcast
  have hecho : WellFormedEcho (cachedFrom limitedBroadcast).coreNetDev.localIp
      (echoFrom limitedBroadcast) :=
    wellFormed_echoFrom (by decide +kernel) limitedBroadcast
  have hcached : wxArpLookup (cachedFrom limitedBroadcast).arpCache
      (echoFrom limitedBroadcast).ipHdr.srcIp = some ![2, 0, 0, 0, 0, 1] := by decide +kernel
  obtain ⟨reply, hreply, hanswers⟩ := hall _ _ _ _ _ hreach hecho hcached
  -- what is really sent
  obtain ⟨buf, hslot, hfree⟩ := twoSlots_of_unused (unused_of_reachable hreach)
  have hmac : destMac (cachedFrom limitedBroadcast) (echoFrom limitedBroadcast).ipHdr.srcIp =
      some broadcastMac := by
    rw [destMac_eq, if_pos (by decide)]
  obtain ⟨sent, hsent, hbroadcast⟩ := receive_answersEcho hecho hslot hfree hmac
  have hbytes : reply.bytes = sent.bytes := by
    have hlast := List.append_cancel_left (hreply.symm.trans hsent)
    exact List.head_eq_of_cons_eq hlast
  have hsame : reply.ethHdr.dest = sent.ethHdr.dest := by
    unfold Frame.ethHdr Frame.byte
    rw [hbytes]
  rw [hanswers.mac, hbroadcast.mac] at hsame
  exact absurd (congrFun hsame 0) (by decide)

end Net
end WhitexKernel
