import Mathlib.Tactic.FinCases
import WhitexKernel.Net.Checksum

/-!
# Delivery — what is sent is what is received

The frame that `wx_ip_send` builds around a payload, read by `wx_eth_process` and `wx_ip_process`.
`protocolSwitch` is the last part of `wx_ip_process`, which hands the packet on; `ipSend_delivers`
says that it is reached with the payload, whatever the payload is.
-/

namespace WhitexKernel
namespace Net

open Lib Lib.Bytes Lib.Stateful Machine

/-! ## Headers read back -/

section Load

variable {g : Nat → UInt8} {offset n i x : Nat} {bytes : List UInt8}

/-- A byte of a slice. -/
theorem getElem?_of_slice (h : slice g offset n = bytes) (hi : i < n) :
    bytes[i]? = some (g (offset + i)) := by
  rw [← h, slice_getElem?, if_pos hi]

theorem load16_eq (hx : x < 2 ^ 16) (hlow : g i = UInt8.ofNat x)
    (hhigh : g (i + 1) = UInt8.ofNat (x / 256)) : load16 g i = x := by
  unfold load16
  rw [hlow, hhigh, UInt8.toNat_ofNat', UInt8.toNat_ofNat']
  omega

theorem load16_lt (view : Nat → UInt8) (offset : Nat) : load16 view offset < 2 ^ 16 := by
  have hlow := (view offset).toNat_lt
  have hhigh := (view (offset + 1)).toNat_lt
  unfold load16
  omega

/-- The fields fit their bits. -/
structure WxIpv4Hdr.InRange (h : WxIpv4Hdr) : Prop where
  ihl : h.ihl < 16
  version : h.version < 16
  totalLen : h.totalLen < 2 ^ 16
  id : h.id < 2 ^ 16
  fragOffset : h.fragOffset < 2 ^ 16
  checksum : h.checksum < 2 ^ 16

/-- A header is read as it was written. -/
theorem load_ipv4Hdr {h : WxIpv4Hdr} (hbytes : slice g offset 20 = h.bytes) (hrange : h.InRange) :
    WxIpv4Hdr.load (fun i => g (offset + i)) = h := by
  have hbyte : ∀ i, i < 20 → h.bytes[i]? = some (g (offset + i)) := fun i hi =>
    getElem?_of_slice hbytes hi
  have hihl := hrange.ihl
  have hversion := hrange.version
  -- the two halves of the first byte
  have hfirst : (g (offset + 0)).toNat = h.ihl + 16 * h.version := by
    have hzero : g (offset + 0) = UInt8.ofNat (h.ihl + 16 * h.version) := by
      simpa [WxIpv4Hdr.bytes] using (hbyte 0 (by decide)).symm
    rw [hzero, UInt8.toNat_ofNat']
    omega
  have htotal : load16 (fun i => g (offset + i)) 2 = h.totalLen :=
    load16_eq hrange.totalLen
      (by simpa [WxIpv4Hdr.bytes, bytes16] using (hbyte 2 (by decide)).symm)
      (by simpa [WxIpv4Hdr.bytes, bytes16] using (hbyte 3 (by decide)).symm)
  have hid : load16 (fun i => g (offset + i)) 4 = h.id :=
    load16_eq hrange.id
      (by simpa [WxIpv4Hdr.bytes, bytes16] using (hbyte 4 (by decide)).symm)
      (by simpa [WxIpv4Hdr.bytes, bytes16] using (hbyte 5 (by decide)).symm)
  have hfrag : load16 (fun i => g (offset + i)) 6 = h.fragOffset :=
    load16_eq hrange.fragOffset
      (by simpa [WxIpv4Hdr.bytes, bytes16] using (hbyte 6 (by decide)).symm)
      (by simpa [WxIpv4Hdr.bytes, bytes16] using (hbyte 7 (by decide)).symm)
  have hsum : load16 (fun i => g (offset + i)) 10 = h.checksum :=
    load16_eq hrange.checksum
      (by simpa [WxIpv4Hdr.bytes, bytes16] using (hbyte 10 (by decide)).symm)
      (by simpa [WxIpv4Hdr.bytes, bytes16] using (hbyte 11 (by decide)).symm)
  have htos : g (offset + 1) = h.tos := by
    simpa [WxIpv4Hdr.bytes] using (hbyte 1 (by decide)).symm
  have httl : g (offset + 8) = h.ttl := by
    simpa [WxIpv4Hdr.bytes, bytes16] using (hbyte 8 (by decide)).symm
  have hproto : g (offset + 9) = h.protocol := by
    simpa [WxIpv4Hdr.bytes, bytes16] using (hbyte 9 (by decide)).symm
  have hsrc : loadIpv4 (fun i => g (offset + i)) 12 = h.srcIp := by
    funext i
    have hi := hbyte (12 + i) (by omega)
    fin_cases i <;> simpa [loadIpv4, WxIpv4Hdr.bytes, bytes16] using hi.symm
  have hdest : loadIpv4 (fun i => g (offset + i)) 16 = h.destIp := by
    funext i
    have hi := hbyte (16 + i) (by omega)
    fin_cases i <;> simpa [loadIpv4, WxIpv4Hdr.bytes, bytes16] using hi.symm
  calc WxIpv4Hdr.load (fun i => g (offset + i))
      = { ihl := (h.ihl + 16 * h.version) % 16
          version := (h.ihl + 16 * h.version) / 16
          tos := h.tos
          totalLen := h.totalLen
          id := h.id
          fragOffset := h.fragOffset
          ttl := h.ttl
          protocol := h.protocol
          checksum := h.checksum
          srcIp := h.srcIp
          destIp := h.destIp } := by
        unfold WxIpv4Hdr.load
        dsimp only
        rw [htotal, hid, hfrag, hsum, hsrc, hdest, htos, httl, hproto, hfirst]
    _ = h := by
        have hmod : (h.ihl + 16 * h.version) % 16 = h.ihl := by omega
        have hdiv : (h.ihl + 16 * h.version) / 16 = h.version := by omega
        rw [hmod, hdiv]

/-- What `wx_eth_process` looks at. -/
theorem load_ethertype {h : WxEthHdr} (hbytes : slice g offset 14 = h.bytes)
    (hrange : h.ethertype < 2 ^ 16) :
    (WxEthHdr.load fun i => g (offset + i)).ethertype = h.ethertype := by
  have hbyte : ∀ i, i < 14 → h.bytes[i]? = some (g (offset + i)) := fun i hi =>
    getElem?_of_slice hbytes hi
  exact load16_eq hrange
    (by simpa [WxEthHdr.bytes, bytes16] using (hbyte 12 (by decide)).symm)
    (by simpa [WxEthHdr.bytes, bytes16] using (hbyte 13 (by decide)).symm)

end Load

/-! ## The frame -/

theorem wxHtons_lt (x : Nat) : wxHtons x < 2 ^ 16 := by
  unfold wxHtons
  omega

/-- Swapping twice is no swap. -/
theorem wxHtons_wxHtons {x : Nat} (hx : x < 2 ^ 16) : wxHtons (wxHtons x) = x := by
  have hhigh : x / 256 % 256 = x / 256 := Nat.mod_eq_of_lt (by omega)
  have hzero : x / 256 / 256 = 0 := Nat.div_eq_of_lt (by omega)
  have hdiv : (x / 256 + x % 256 * 256) / 256 = x % 256 := by
    rw [Nat.add_mul_div_right _ _ (by decide), hzero, Nat.zero_add]
  have hmod : (x / 256 + x % 256 * 256) % 256 = x / 256 := by
    rw [Nat.add_mul_mod_self_right, hhigh]
  unfold wxHtons
  rw [hhigh, hdiv, hmod, Nat.mod_mod]
  omega

theorem complement16_lt (sum : Nat) : complement16 sum < 2 ^ 16 := by
  unfold complement16
  omega

theorem sealed_inRange (dev : WxNetDevice) (destIp : WxIpv4) (proto : UInt8) (len : Nat) :
    (ipHeader dev destIp proto len).sealed.InRange :=
  ⟨(by decide : 5 < 16), (by decide : 4 < 16), wxHtons_lt _, wxHtons_lt _, (by decide : 0 < 2 ^ 16),
    complement16_lt _⟩

/-- The last part of `wx_ip_process`, for a packet that it does not drop. -/
def protocolSwitch (buf : BufSlot) (ip : WxIpv4Hdr) : NetM Unit :=
  if ip.protocol = 1 then wxIcmpProcess buf ip
  else if ip.protocol = 6 then wxTcpProcess buf ip
  else if ip.protocol = 17 then wxUdpProcess buf
  else wxNetBufFree buf

/-- `wx_ip_process` drops a packet, or takes its header off and hands it on. -/
theorem wxIpProcess_eq (buf : BufSlot) : wxIpProcess buf = (do
    let ip := WxIpv4Hdr.load (← view buf (← bufData buf) 20)
    if ip.version ≠ 4 ∨ ip.ihl < 5 then wxNetBufFree buf
    else if ip.destIp ≠ (← get).coreNetDev.localIp ∧ ip.destIp 3 ≠ 255 then wxNetBufFree buf
    else do
      discard (wxNetBufPull buf (ip.ihl * 4))
      protocolSwitch buf ip) := rfl

section Receive

variable {r : NetState} {buf : BufSlot} {g : Nat → UInt8} {data tail : Nat}

/-- A packet for this host is handed on without its header. -/
theorem wp_wxIpProcess_accepted {ip : WxIpv4Hdr}
    (hload : WxIpv4Hdr.load (fun i => g (data + i)) = ip) (hversion : ip.version = 4)
    (hihl : 5 ≤ ip.ihl) (hlocal : ip.destIp = r.coreNetDev.localIp)
    (hfit : data + ip.ihl * 4 ≤ bufferSize) (Q : PUnit → NetState → Prop) :
    wp (wxIpProcess buf) Q (r.setBuf buf (packet g data tail)) ↔
      wp (protocolSwitch buf ip) Q (r.setBuf buf (packet g (data + ip.ihl * 4) tail)) := by
  have hgood : ¬(ip.version ≠ 4 ∨ ip.ihl < 5) := by omega
  have hmine : ¬(ip.destIp ≠ (r.setBuf buf (packet g data tail)).coreNetDev.localIp ∧
      ip.destIp 3 ≠ 255) := fun hother => hother.1 hlocal
  have hhead : data + 20 ≤ bufferSize := by omega
  rw [wxIpProcess_eq, wp_bind, wp_bufData, setBuf_same, wp_bind, wp_view hhead, setBuf_same]
  dsimp only
  rw [hload, if_neg hgood, wp_bind, wp_get, if_neg hmine, wp_bind, wp_discard,
    wp_wxNetBufPull_packet hfit]

theorem wp_wxIpProcess_packet {ip : WxIpv4Hdr} (hbytes : slice g data 20 = ip.bytes)
    (hrange : ip.InRange) (hversion : ip.version = 4) (hihl : ip.ihl = 5)
    (hlocal : r.coreNetDev.localIp = ip.destIp) (hfit : data + 20 ≤ bufferSize)
    (Q : PUnit → NetState → Prop) :
    wp (wxIpProcess buf) Q (r.setBuf buf (packet g data tail)) ↔
      wp (protocolSwitch buf ip) Q (r.setBuf buf (packet g (data + 20) tail)) := by
  have hload : WxIpv4Hdr.load (fun i => g (data + i)) = ip := load_ipv4Hdr hbytes hrange
  rw [wp_wxIpProcess_accepted hload hversion hihl.ge hlocal.symm (by rw [hihl]; exact hfit), hihl]

/-- An IP packet is handed on without its Ethernet header. -/
theorem wp_wxEthProcess_ip (htype : wxHtons (load16 (fun i => g (data + i)) 12) = 0x0800)
    (hfit : data + 14 ≤ bufferSize) (Q : PUnit → NetState → Prop) :
    wp (wxEthProcess buf) Q (r.setBuf buf (packet g data tail)) ↔
      wp (wxIpProcess buf) Q (r.setBuf buf (packet g (data + 14) tail)) := by
  have hload : wxHtons (WxEthHdr.load fun i => g (data + i)).ethertype = 0x0800 := htype
  unfold wxEthProcess
  rw [wp_bind, wp_bufData, setBuf_same, wp_bind, wp_view hfit, setBuf_same]
  dsimp only
  rw [hload, wp_bind, wp_discard, wp_wxNetBufPull_packet hfit, if_neg (by decide),
    if_pos rfl]

theorem wp_wxEthProcess_packet {eth : WxEthHdr} (hbytes : slice g data 14 = eth.bytes)
    (htype : eth.ethertype = wxHtons 0x0800) (hfit : data + 14 ≤ bufferSize)
    (Q : PUnit → NetState → Prop) :
    wp (wxEthProcess buf) Q (r.setBuf buf (packet g data tail)) ↔
      wp (wxIpProcess buf) Q (r.setBuf buf (packet g (data + 14) tail)) := by
  refine wp_wxEthProcess_ip ?_ hfit Q
  have hload := load_ethertype hbytes (htype ▸ wxHtons_lt _)
  calc wxHtons (load16 (fun i => g (data + i)) 12)
      = wxHtons (wxHtons 0x0800) := congrArg wxHtons (hload.trans htype)
    _ = 0x0800 := wxHtons_wxHtons (by decide)

end Receive

/-! ## From host to host -/

/-- The packet in a buffer is `payload`. -/
structure Carries (b : WxNetBuf) (payload : List UInt8) : Prop where
  tail_eq : b.tail = b.data + payload.length
  fits : b.tail ≤ bufferSize
  slice_eq : slice b.buffer b.data payload.length = payload

/-- The IP header of the frame in a buffer. -/
def receivedHeader (b : WxNetBuf) : WxIpv4Hdr :=
  WxIpv4Hdr.load fun i => b.buffer (b.data + 14 + i)

/-- A buffer whose frame has been taken off its packet's payload. -/
def withoutHeaders (b : WxNetBuf) : WxNetBuf := { b with data := b.data + 34 }

/-- `frame`, received on `r` in `buf`, reaches the protocol switch as a packet of protocol `proto`
from `srcIp` that holds `payload`. -/
structure Delivered (r : NetState) (buf : BufSlot) (proto : UInt8) (srcIp : WxIpv4)
    (payload : List UInt8) : Prop where
  reaches : wxEthProcess buf r =
    protocolSwitch buf (receivedHeader (r.bufPool buf))
      (r.setBuf buf (withoutHeaders (r.bufPool buf)))
  protocol : (receivedHeader (r.bufPool buf)).protocol = proto
  srcIp : (receivedHeader (r.bufPool buf)).srcIp = srcIp
  length : wxHtons (receivedHeader (r.bufPool buf)).totalLen -
    (receivedHeader (r.bufPool buf)).ihl * 4 = payload.length
  payload : slice (r.bufPool buf).buffer ((r.bufPool buf).data + 34) payload.length = payload

theorem ipFrame_length (dev : WxNetDevice) (dmac : WxMac) (destIp : WxIpv4) (proto : UInt8)
    (payload : List UInt8) :
    (ipFrame dev dmac destIp proto payload).length = 14 + (20 + payload.length) := by
  simp [ipFrame]

/-- The three parts of a frame in a buffer. -/
theorem Carries.parts {b : WxNetBuf} {dev : WxNetDevice} {dmac : WxMac} {destIp : WxIpv4}
    {proto : UInt8} {payload : List UInt8}
    (h : Carries b (ipFrame dev dmac destIp proto payload)) :
    slice b.buffer b.data 14 = (ethHeader dev dmac 0x0800).bytes ∧
      slice b.buffer (b.data + 14) 20 =
        (ipHeader dev destIp proto (20 + payload.length)).sealed.bytes ∧
      slice b.buffer (b.data + 34) payload.length = payload := by
  have hslice := h.slice_eq
  rw [ipFrame_length, slice_append, slice_append, ipFrame] at hslice
  rcases List.append_inj hslice (by simp) with ⟨heth, hrest⟩
  rcases List.append_inj hrest (by simp) with ⟨hip, hpayload⟩
  exact ⟨heth, hip, hpayload⟩

/-- A frame is delivered at the host it is addressed to. -/
theorem delivered_ipFrame {dev : WxNetDevice} {dmac : WxMac} {destIp : WxIpv4} {proto : UInt8}
    {payload : List UInt8} (hlength : 14 + (20 + payload.length) ≤ ringBufferSize) {r : NetState}
    {buf : BufSlot} (hlocal : r.coreNetDev.localIp = destIp)
    (hcarries : Carries (r.bufPool buf) (ipFrame dev dmac destIp proto payload)) :
    Delivered r buf proto dev.localIp payload := by
  rcases hcarries.parts with ⟨heth, hip, hpayload⟩
  have hfit := hcarries.fits
  rw [hcarries.tail_eq, ipFrame_length] at hfit
  have hheader : receivedHeader (r.bufPool buf) =
      (ipHeader dev destIp proto (20 + payload.length)).sealed :=
    load_ipv4Hdr hip (sealed_inRange _ _ _ _)
  unfold ringBufferSize at hlength
  refine ⟨?_, ?_, ?_, ?_, hpayload⟩
  -- both headers are as they were sent, so neither layer drops the packet
  · refine eq_of_wp fun Q => ?_
    have hstart : r = r.setBuf buf (packet (r.bufPool buf).buffer (r.bufPool buf).data
        (r.bufPool buf).tail) := (setBuf_self r buf).symm
    conv_lhs => rw [hstart]
    rw [hheader, wp_wxEthProcess_packet heth rfl (by omega),
      wp_wxIpProcess_packet hip (sealed_inRange _ _ _ _) rfl rfl hlocal (by omega)]
    rfl
  · rw [hheader]
    rfl
  · rw [hheader]
    rfl
  · rw [hheader]
    have htotal : wxHtons (wxHtons (20 + payload.length)) = 20 + payload.length :=
      wxHtons_wxHtons (by omega)
    calc wxHtons (wxHtons (20 + payload.length)) - 5 * 4
        = 20 + payload.length - 20 := by rw [htotal]
      _ = payload.length := Nat.add_sub_cancel_left _ _

/-- An address that is cached is sent to. -/
theorem destMac_of_cached {s : NetState} {destIp : WxIpv4}
    (h : wxArpLookup s.arpCache destIp ≠ none) : destMac s destIp ≠ none := by
  unfold destMac
  split
  · simp
  · exact h

/-- A payload that fits a frame is transmitted to an addressee that is known. -/
theorem transmitted_wxIpSend {s : NetState} {buf : BufSlot} {payload : List UInt8} {destIp : WxIpv4}
    {dmac : WxMac} (proto : UInt8) (hcarries : Carries (s.bufPool buf) payload)
    (hroom : 34 ≤ (s.bufPool buf).data) (hlength : 14 + (20 + payload.length) ≤ ringBufferSize)
    (hmac : destMac s destIp = some dmac) :
    (wxIpSend buf destIp proto s).2.transmitted =
      s.transmitted ++ [ipFrame s.coreNetDev dmac destIp proto payload] := by
  have hstart : s = s.setBuf buf (packet (s.bufPool buf).buffer (s.bufPool buf).data
      (s.bufPool buf).tail) := (setBuf_self s buf).symm
  have hpayload : slice (s.bufPool buf).buffer (s.bufPool buf).data
      ((s.bufPool buf).tail - (s.bufPool buf).data) = payload := by
    rw [hcarries.tail_eq, Nat.add_sub_cancel_left, hcarries.slice_eq]
  suffices hsend : wp (wxIpSend buf destIp proto) (fun _ t => t.transmitted =
      s.transmitted ++ [ipFrame s.coreNetDev dmac destIp proto payload]) s from wp_iff.1 hsend
  rw [hstart]
  refine wp_wxIpSend_packet hroom (by rw [hcarries.tail_eq]; exact Nat.le_add_right _ _)
    hcarries.fits (fun hmiss => ?_) fun found b hhit => ?_
  · rw [hmac] at hmiss
    cases hmiss
  · rw [hmac, Option.some.injEq] at hhit
    subst hhit
    -- the frame is not too long for the adapter
    have hshort : ¬(ipFrame s.coreNetDev dmac destIp proto payload).length > ringBufferSize := by
      rw [ipFrame_length]
      omega
    rw [hpayload, NetState.transmit, if_neg hshort]
    rfl

/-- What `wx_ip_send` transmits around a payload has a header that checks, and is delivered, payload
and all, at every host with the destination's address. -/
theorem ipSend_delivers {s : NetState} {buf : BufSlot} {payload : List UInt8} {destIp : WxIpv4}
    (proto : UInt8) (hcarries : Carries (s.bufPool buf) payload)
    (hroom : 34 ≤ (s.bufPool buf).data) (hlength : 14 + (20 + payload.length) ≤ ringBufferSize)
    (hcached : wxArpLookup s.arpCache destIp ≠ none) :
    ∃ frame, (wxIpSend buf destIp proto s).2.transmitted = s.transmitted ++ [frame] ∧
      wxChecksum ((frame.drop 14).take 20) = 0 ∧
      ∀ (r : NetState) (rbuf : BufSlot), r.coreNetDev.localIp = destIp →
        Carries (r.bufPool rbuf) frame → Delivered r rbuf proto s.coreNetDev.localIp payload := by
  obtain ⟨dmac, hmac⟩ := Option.ne_none_iff_exists'.1 (destMac_of_cached hcached)
  have hframe := transmitted_wxIpSend proto hcarries hroom hlength hmac
  refine ⟨_, hframe, ?_, fun r rbuf hlocal hheld => delivered_ipFrame hlength hlocal hheld⟩
  have hheader : ((ipFrame s.coreNetDev dmac destIp proto payload).drop 14).take 20 =
      (ipHeader s.coreNetDev destIp proto (20 + payload.length)).sealed.bytes := by
    unfold ipFrame
    rw [List.drop_left' (ethHdr_length _), List.take_left' (ipv4Hdr_length _)]
  rw [hheader]
  exact wxChecksum_sealed rfl

/-- Three bytes from one host to another. -/
theorem ipSend_delivers_three :
    ∃ frame, (wxIpSend 0 ![10, 0, 0, 2] 17 { NetState.zero with
        bufPool := fun _ => packet (fun _ => 7) 300 303
        arpCache := fun _ => { WxArpEntry.zero with ip := ![10, 0, 0, 2], state := 1 } }).2.transmitted =
          [frame] ∧
      wxChecksum ((frame.drop 14).take 20) = 0 ∧
      ∀ (r : NetState) (rbuf : BufSlot), r.coreNetDev.localIp = ![10, 0, 0, 2] →
        Carries (r.bufPool rbuf) frame → Delivered r rbuf 17 (fun _ => 0) [7, 7, 7] :=
  ipSend_delivers 17 ⟨rfl, by decide, rfl⟩ (by decide) (by decide) (by decide)

end Net
end WhitexKernel
