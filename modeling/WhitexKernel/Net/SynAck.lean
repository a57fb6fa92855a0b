import WhitexKernel.Net.Echo
import WhitexKernel.Net.Listening

/-!
# SynAck — the answer to a `SYN`, on the wire

The segment that `wx_tcp_process` transmits when a listening socket takes a `SYN`, read as its peer
reads it: numbers with their most significant byte first, and a checksum over the pseudo header and
the segment.

* `addWords_append` — adding up two parts one after the other is adding up the whole, so the checksum
  that is computed in line is `wx_checksum` of pseudo header and segment;
* `synAck_transmitted` — what is transmitted.
-/

namespace WhitexKernel
namespace Net

open Lib Lib.Bytes Lib.Stateful Machine

/-! ## Network order -/

/-- Two bytes in network order. -/
def netShort (view : Nat → UInt8) (offset : Nat) : Nat :=
  256 * (view offset).toNat + (view (offset + 1)).toNat

/-- Four bytes in network order. -/
def netLong (view : Nat → UInt8) (offset : Nat) : Nat :=
  16777216 * (view offset).toNat + 65536 * (view (offset + 1)).toNat +
    256 * (view (offset + 2)).toNat + (view (offset + 3)).toNat

/-- `WX_NTOHS` of what lies in memory. -/
theorem wxHtons_load16 (view : Nat → UInt8) (offset : Nat) :
    wxHtons (load16 view offset) = netShort view offset := by
  have hfirst := (view offset).toNat_lt
  have hsecond := (view (offset + 1)).toNat_lt
  unfold wxHtons load16 netShort
  omega

/-- `WX_NTOHL` of what lies in memory. -/
theorem wxHtonl_load32 (view : Nat → UInt8) (offset : Nat) :
    wxHtonl (load32 view offset) = netLong view offset := by
  have hfirst := (view offset).toNat_lt
  have hsecond := (view (offset + 1)).toNat_lt
  have hthird := (view (offset + 2)).toNat_lt
  have hfourth := (view (offset + 3)).toNat_lt
  unfold wxHtonl load32 netLong
  omega

/-- A number of 16 bits that has been swapped and stored. -/
theorem netShort_eq {view : Nat → UInt8} {offset x : Nat} (hx : x < 2 ^ 16)
    (hlow : view offset = UInt8.ofNat (wxHtons x))
    (hhigh : view (offset + 1) = UInt8.ofNat (wxHtons x / 256)) : netShort view offset = x := by
  -- the two digits of `x` change places
  have hdigits : x = 256 * (x / 256 % 256) + x % 256 := by omega
  have hfirst := Nat.mod_lt (x / 256) (show 256 > 0 by decide)
  have hsecond := Nat.mod_lt x (show 256 > 0 by decide)
  unfold netShort
  rw [hlow, hhigh, UInt8.toNat_ofNat', UInt8.toNat_ofNat']
  unfold wxHtons
  generalize x / 256 % 256 = a at hdigits hfirst ⊢
  generalize x % 256 = b at hdigits hsecond ⊢
  have hlow : (a + b * 256) % 2 ^ 8 = a := by omega
  have hhigh : (a + b * 256) / 256 % 2 ^ 8 = b := by omega
  rw [hlow, hhigh]
  exact hdigits.symm

/-- The four digits of a number, lowest first. -/
theorem digits_eq {a b c d : Nat} (ha : a < 256) (hb : b < 256) (hc : c < 256) (hd : d < 256) :
    let x := a + b * 256 + c * 65536 + d * 16777216
    x % 2 ^ 8 = a ∧ x / 256 % 2 ^ 8 = b ∧ x / 65536 % 2 ^ 8 = c ∧ x / 16777216 % 2 ^ 8 = d := by
  intro x
  -- what is left of `x` when its lowest digit is taken off, and again
  have hsecond : x / 256 = b + c * 256 + d * 65536 := by omega
  have hthird : x / 65536 = c + d * 256 := by omega
  have hfourth : x / 16777216 = d := by omega
  rw [hsecond, hthird, hfourth]
  refine ⟨?_, ?_, ?_, ?_⟩
  all_goals omega

/-- A number of 32 bits that has been swapped and stored. -/
theorem netLong_eq {view : Nat → UInt8} {offset x : Nat} (hx : x < 2 ^ 32)
    (h0 : view offset = UInt8.ofNat (wxHtonl x))
    (h1 : view (offset + 1) = UInt8.ofNat (wxHtonl x / 256))
    (h2 : view (offset + 2) = UInt8.ofNat (wxHtonl x / 65536))
    (h3 : view (offset + 3) = UInt8.ofNat (wxHtonl x / 16777216)) : netLong view offset = x := by
  have hdigits : x = 16777216 * (x / 16777216 % 256) + 65536 * (x / 65536 % 256) +
      256 * (x / 256 % 256) + x % 256 := by omega
  have hfirst := Nat.mod_lt (x / 16777216) (show 256 > 0 by decide)
  have hsecond := Nat.mod_lt (x / 65536) (show 256 > 0 by decide)
  have hthird := Nat.mod_lt (x / 256) (show 256 > 0 by decide)
  have hfourth := Nat.mod_lt x (show 256 > 0 by decide)
  unfold netLong
  rw [h0, h1, h2, h3, UInt8.toNat_ofNat', UInt8.toNat_ofNat', UInt8.toNat_ofNat',
    UInt8.toNat_ofNat']
  unfold wxHtonl
  generalize x / 16777216 % 256 = a at hdigits hfirst ⊢
  generalize x / 65536 % 256 = b at hdigits hsecond ⊢
  generalize x / 256 % 256 = c at hdigits hthird ⊢
  generalize x % 256 = d at hdigits hfourth ⊢
  obtain ⟨hlowest, hlow, hhigh, hhighest⟩ := digits_eq hfirst hsecond hthird hfourth
  rw [hlowest, hlow, hhigh, hhighest]
  exact hdigits.symm

/-! ## The two checksums -/

/-- Words are not torn apart at an even offset. -/
theorem addWords_append {front : List UInt8} (heven : front.length % 2 = 0) (sum : Nat)
    (rest : List UInt8) : addWords sum (front ++ rest) = addWords (addWords sum front) rest := by
  induction front using wordSum.induct generalizing sum with
  | case1 a b front ih =>
      have hfront : front.length % 2 = 0 := by
        simp only [List.length_cons] at heven
        omega
      simp only [List.cons_append, addWords]
      exact ih hfront _
  | case2 a => simp at heven
  | case3 => rfl

/-- The checksum of the answer is that of the pseudo header and the segment. -/
theorem checksum_synAck (dev : WxNetDevice) (tcb : WxTcpTcb) :
    (synAck dev tcb).checksum =
      wxChecksum ((synAckPseudo dev tcb).bytes ++ (synAckHeader tcb).bytes) := by
  unfold wxChecksum
  rw [addWords_append (by simp [WxPseudoHdr.bytes])]
  rfl

/-! ## The segment -/

/-- The pseudo header of a TCP segment of 20 bytes. -/
def tcpPseudoHeader (srcIp destIp : WxIpv4) : List UInt8 :=
  List.ofFn srcIp ++ List.ofFn destIp ++ [0, 6, 0, 20]

/-- The bytes of a segment. -/
def byteOf (segment : List UInt8) (i : Nat) : UInt8 := segment.getD i 0

/-- `segment` answers the segment that lies in `syn`, which came from `peerIp` to a socket on
`localPort`.  The data offset is in the upper half of its byte, with nothing beside it; of the flags,
`0x02` is `SYN` and `0x10` is `ACK`. -/
structure SynAnswer (localIp peerIp : WxIpv4) (localPort : Nat) (syn : Nat → UInt8)
    (segment : List UInt8) : Prop where
  length : segment.length = 20
  srcPort : netShort (byteOf segment) 0 = localPort
  destPort : netShort (byteOf segment) 2 = netShort syn 0
  seqNum : netLong (byteOf segment) 4 = 0x89ABCDEF
  ackNum : netLong (byteOf segment) 8 = (netLong syn 4 + 1) % 2 ^ 32
  dataOffset : byteOf segment 12 = 0x50
  flags : byteOf segment 13 = 0x02 ||| 0x10
  /-- The stored checksum is that of the segment before it was stored. -/
  inline : load16 (byteOf segment) 16 = wxChecksum (tcpPseudoHeader localIp peerIp ++
    (segment.take 16 ++ [0, 0] ++ segment.drop 18))
  verifies : wxChecksum (tcpPseudoHeader localIp peerIp ++ segment) = 0

theorem synAckPseudo_bytes (dev : WxNetDevice) (tcb : WxTcpTcb) :
    (synAckPseudo dev tcb).bytes = tcpPseudoHeader dev.localIp tcb.remoteIp := by
  have hlength : bytes16 (wxHtons 20) = [0, 20] := by decide
  unfold WxPseudoHdr.bytes tcpPseudoHeader synAckPseudo
  dsimp only
  rw [hlength, List.append_assoc, List.append_assoc, List.append_assoc]
  rfl

/-- The segment with its checksum taken out again. -/
theorem synAck_unsealed (dev : WxNetDevice) (tcb : WxTcpTcb) :
    (synAck dev tcb).bytes.take 16 ++ [0, 0] ++ (synAck dev tcb).bytes.drop 18 =
      (synAckHeader tcb).bytes := by
  simp [WxTcpHdr.bytes, synAckHeader, synAck, bytes16, bytes32]

/-- A socket that has taken a `SYN` answers it. -/
theorem synAnswer_synAck (dev : WxNetDevice) {tcb : WxTcpTcb} {syn : Nat → UInt8}
    (hlocal : tcb.localPort < 2 ^ 16) (hport : tcb.remotePort = netShort syn 0)
    (hsnd : tcb.sndNxt = 0x89ABCDEF) (hrcv : tcb.rcvNxt = (netLong syn 4 + 1) % 2 ^ 32) :
    SynAnswer dev.localIp tcb.remoteIp tcb.localPort syn (synAck dev tcb).bytes := by
  have hremote : tcb.remotePort < 2 ^ 16 := by
    have hfirst := (syn 0).toNat_lt
    have hsecond := (syn (0 + 1)).toNat_lt
    rw [hport]
    unfold netShort
    omega
  have hchecksum : (synAck dev tcb).checksum < 2 ^ 16 := complement16_lt _
  have hsum := checksum_synAck dev tcb
  rw [synAckPseudo_bytes] at hsum
  refine
    { length := tcpHdr_length _
      srcPort := netShort_eq hlocal rfl rfl
      destPort := ?_
      seqNum := ?_
      ackNum := ?_
      dataOffset := rfl
      flags := (rfl : _ = UInt8.ofNat (2 + 16)).trans (by decide)
      inline := ?_
      verifies := ?_ }
  · rw [← hport]
    exact netShort_eq hremote rfl rfl
  · rw [← hsnd]
    exact netLong_eq (by rw [hsnd]; decide) rfl rfl rfl rfl
  · rw [← hrcv]
    exact netLong_eq (by rw [hrcv]; exact Nat.mod_lt _ (by decide)) rfl rfl rfl rfl
  · rw [synAck_unsealed, ← hsum]
    exact load16_eq hchecksum rfl rfl
  · -- the checksum lies at an even offset, behind the pseudo header
    have hfront : (tcpPseudoHeader dev.localIp tcb.remoteIp ++
        (synAckHeader tcb).bytes.take 16).length = 28 := by
      simp [tcpPseudoHeader]
    have hfits : (tcpPseudoHeader dev.localIp tcb.remoteIp ++
        (synAckHeader tcb).bytes.take 16).length + 2 +
          ((synAckHeader tcb).bytes.drop 18).length ≤ 65535 := by
      rw [hfront, List.length_drop, tcpHdr_length]
      decide
    have hinsert := wxChecksum_insert (by rw [hfront]) hfits
    have hzero : (synAckHeader tcb).bytes.take 16 ++ (bytes16 0 ++
        (synAckHeader tcb).bytes.drop 18) = (synAckHeader tcb).bytes := by
      simp [WxTcpHdr.bytes, synAckHeader, bytes16, bytes32]
    have hsealed : (synAckHeader tcb).bytes.take 16 ++ (bytes16 (synAck dev tcb).checksum ++
        (synAckHeader tcb).bytes.drop 18) = (synAck dev tcb).bytes := by
      simp [WxTcpHdr.bytes, synAckHeader, synAck, bytes16, bytes32]
    simp only [List.append_assoc] at hinsert
    rw [hzero, ← hsum, hsealed] at hinsert
    exact hinsert

/-! ## What is transmitted -/

/-- With a buffer, the answer goes out in one frame. -/
theorem transmitted_wxTcpSendSynAck {s : NetState} {i : Nat} {resp : BufSlot}
    (hslot : s.freeSlot = some resp) {dmac : WxMac}
    (hmac : destMac s (s.tcpSockets i).remoteIp = some dmac) :
    (wxTcpSendSynAck i s).2.transmitted = s.transmitted ++
      [ipFrame s.coreNetDev dmac (s.tcpSockets i).remoteIp 6
        (synAck s.coreNetDev (s.tcpSockets i)).bytes] := by
  have hlength : (synAck s.coreNetDev (s.tcpSockets i)).bytes.length = 20 := tcpHdr_length _
  have hbuffer : (s.synAckBuilt i resp).bufPool resp =
      packet (overwrite (fun _ => 0) 364 (synAck s.coreNetDev (s.tcpSockets i)).bytes) 364 384 :=
    setBuf_same _ _ _
  have hcarries : Carries ((s.synAckBuilt i resp).bufPool resp)
      (synAck s.coreNetDev (s.tcpSockets i)).bytes := by
    rw [hbuffer]
    refine ⟨by rw [hlength], (by decide : 384 ≤ bufferSize), slice_overwrite_same _ _ _⟩
  have hsent := transmitted_wxIpSend 6 hcarries (by rw [hbuffer]; exact (by decide : 34 ≤ 364))
    (by rw [hlength]; decide) (show destMac (s.synAckBuilt i resp) _ = some dmac from hmac)
  rw [wxTcpSendSynAck_eq hslot, bind_apply]
  exact hsent

/-- Without a buffer, nothing is sent. -/
theorem transmitted_wxTcpSendSynAck_none {s : NetState} (i : Nat) (hslot : s.freeSlot = none) :
    (wxTcpSendSynAck i s).2.transmitted = s.transmitted := by
  suffices hwp : wp (wxTcpSendSynAck i) (fun _ t => t.transmitted = s.transmitted) s from
    wp_iff.1 hwp
  unfold wxTcpSendSynAck
  rw [wp_bind, wp_wxNetBufAlloc_none hslot]
  dsimp only
  rw [wp_pure]

/-- What a socket notes of a `SYN` is what its answer needs. -/
theorem synAnswer_halfOpen {s : NetState} {buf : BufSlot} {srcIp : WxIpv4} {i : Nat}
    (haccepts : acceptsSyn s.tcpSockets (s.tcpHeader buf) srcIp = some i) :
    SynAnswer s.coreNetDev.localIp srcIp (s.tcpSockets i).localPort
      (fun j => (s.bufPool buf).buffer ((s.bufPool buf).data + j))
      (synAck s.coreNetDev ((s.tcpSockets i).halfOpen (s.tcpHeader buf) srcIp)).bytes := by
  -- the socket found is the one of the segment's destination port
  have hmatch := tcbFor_eq_some (acceptsSyn_eq_some.1 haccepts).1
  have hlocal : ((s.tcpSockets i).halfOpen (s.tcpHeader buf) srcIp).localPort < 2 ^ 16 := by
    show (s.tcpSockets i).localPort < 2 ^ 16
    rw [hmatch.localPort]
    exact wxHtons_lt _
  generalize hview : (fun j => (s.bufPool buf).buffer ((s.bufPool buf).data + j)) = view
  have hhdr : s.tcpHeader buf = WxTcpHdr.load view := by
    rw [← hview]
    rfl
  have hport : ((s.tcpSockets i).halfOpen (s.tcpHeader buf) srcIp).remotePort =
      netShort view 0 := by
    rw [hhdr]
    exact wxHtons_load16 view 0
  have hnext : ((s.tcpSockets i).halfOpen (s.tcpHeader buf) srcIp).rcvNxt =
      (netLong view 4 + 1) % 2 ^ 32 := by
    rw [hhdr, ← wxHtonl_load32 view 4]
    rfl
  exact synAnswer_synAck s.coreNetDev hlocal hport rfl hnext

/-- A `SYN` that `wx_tcp_process` accepts on a listening socket from a peer whose MAC address is
cached is answered, if there is a buffer for it, by one frame to the peer, whose payload is the
answer to the `SYN`. -/
theorem synAck_transmitted {s : NetState} {buf : BufSlot} {ipHdr : WxIpv4Hdr} {i : Nat}
    (haccepts : acceptsSyn s.tcpSockets (s.tcpHeader buf) ipHdr.srcIp = some i) {mac : WxMac}
    (hcached : wxArpLookup s.arpCache ipHdr.srcIp = some mac) :
    (s.freeSlot = none ∧ (wxTcpProcess buf ipHdr s).2.transmitted = s.transmitted) ∨
      ∃ segment, (wxTcpProcess buf ipHdr s).2.transmitted = s.transmitted ++
          [ipFrame s.coreNetDev (if ipHdr.srcIp = limitedBroadcast then broadcastMac else mac)
            ipHdr.srcIp 6 segment] ∧
        SynAnswer s.coreNetDev.localIp ipHdr.srcIp (s.tcpSockets i).localPort
          (fun j => (s.bufPool buf).buffer ((s.bufPool buf).data + j)) segment := by
  rcases exists_synTaken haccepts with ⟨taken, htaken⟩
  -- everything before the reply leaves the sent frames as they are
  have htransmitted : (wxTcpProcess buf ipHdr s).2.transmitted =
      (wxTcpSendSynAck i taken).2.transmitted := by
    rw [htaken.process, bind_apply]
    rfl
  cases hfree : s.freeSlot with
  | none =>
      refine .inl ⟨rfl, ?_⟩
      have hslot : taken.freeSlot = none := htaken.freeSlot.trans hfree
      calc (wxTcpProcess buf ipHdr s).2.transmitted
          = (wxTcpSendSynAck i taken).2.transmitted := htransmitted
        _ = taken.transmitted := transmitted_wxTcpSendSynAck_none i hslot
        _ = s.transmitted := htaken.transmitted
  | some resp =>
      have hslot : taken.freeSlot = some resp := htaken.freeSlot.trans hfree
      -- the broadcast address has a MAC address of its own, the others come from the cache
      have hmac : destMac taken (taken.tcpSockets i).remoteIp =
          some (if ipHdr.srcIp = limitedBroadcast then broadcastMac else mac) := by
        rw [htaken.socket]
        show destMac taken ipHdr.srcIp = _
        rw [destMac_eq, htaken.arpCache, hcached]
        split
        · rfl
        · rfl
      refine .inr ⟨_, ?_, synAnswer_halfOpen haccepts⟩
      rw [htransmitted, transmitted_wxTcpSendSynAck hslot hmac, htaken.coreNetDev,
        htaken.transmitted, htaken.socket]
      rfl

/-- A socket listens on port 80, the peer `10.0.0.1` is cached, and its `SYN` is in the buffers. -/
def knownPeer : NetState := (listenOn 80 (cachedFrom ![10, 0, 0, 1])).2.withSyn 1024 80

/-- The header of the packet that brings it. -/
def knownPeerHdr : WxIpv4Hdr := { WxIpv4Hdr.load (fun _ => 0) with srcIp := ![10, 0, 0, 1] }

/-- The answer to that `SYN`. -/
theorem synAck_transmitted_knownPeer :
    ∃ segment, (wxTcpProcess 0 knownPeerHdr knownPeer).2.transmitted = knownPeer.transmitted ++
          [ipFrame knownPeer.coreNetDev ![2, 0, 0, 0, 0, 1] knownPeerHdr.srcIp 6 segment] ∧
      SynAnswer knownPeer.coreNetDev.localIp knownPeerHdr.srcIp (knownPeer.tcpSockets 0).localPort
        (fun j => (knownPeer.bufPool 0).buffer ((knownPeer.bufPool 0).data + j)) segment := by
  have haccepts : acceptsSyn knownPeer.tcpSockets (knownPeer.tcpHeader 0) knownPeerHdr.srcIp =
      some 0 := by decide +kernel
  have hcached : wxArpLookup knownPeer.arpCache knownPeerHdr.srcIp =
      some ![2, 0, 0, 0, 0, 1] := by decide +kernel
  have hfree : knownPeer.freeSlot ≠ none := by decide +kernel
  have hunicast : knownPeerHdr.srcIp ≠ limitedBroadcast := by decide +kernel
  rcases synAck_transmitted haccepts hcached with ⟨hnone, _⟩ | hsent
  · exact absurd hnone hfree
  · rwa [if_neg hunicast] at hsent

end Net
end WhitexKernel
