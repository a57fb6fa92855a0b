import WhitexKernel.Net.ArpTable
import WhitexKernel.Net.Echo

/-!
# Peers — which peers the stack learns

A received ARP packet tells where its sender is.  The sender is learned when the cache has it already
or has an entry left; entries are never given up, whatever their `ttl`, so a cache that is full of
others stays closed to it.
-/

namespace WhitexKernel
namespace Net

open Lib Lib.Bytes Lib.Stateful Machine

/-! ## ARP packets -/

/-- What is read as the ARP header of a frame. -/
def Frame.arpHdr (frame : Frame) : WxArpHdr := WxArpHdr.load fun i => frame.byte (14 + i)

/-- An ARP request or reply from `ip`, which says that its MAC address is `mac`. -/
structure WellFormedArp (frame : Frame) (ip : WxIpv4) (mac : WxMac) : Prop where
  whole : 42 ≤ frame.bytes.length
  ethertype : wxHtons (load16 frame.byte 12) = 0x0806
  hwType : wxHtons frame.arpHdr.hwType = 1
  protoType : wxHtons frame.arpHdr.protoType = 0x0800
  hwLen : frame.arpHdr.hwLen = 6
  protoLen : frame.arpHdr.protoLen = 4
  opcode : wxHtons frame.arpHdr.opcode = 1 ∨ wxHtons frame.arpHdr.opcode = 2
  senderIp : frame.arpHdr.senderIp = ip
  senderMac : frame.arpHdr.senderMac = mac

/-- A lookup of `ip` gives `mac`, and a packet to `ip` is transmitted. -/
structure Learned (ip : WxIpv4) (mac : WxMac) (t : NetState) : Prop where
  lookup : wxArpLookup t.arpCache ip = some mac
  transmits : ∀ (buf : BufSlot) (payload : List UInt8) (proto : UInt8),
    Carries (t.bufPool buf) payload → 34 ≤ (t.bufPool buf).data →
    14 + (20 + payload.length) ≤ ringBufferSize →
    (wxIpSend buf ip proto t).2.transmitted =
      t.transmitted ++ [ipFrame t.coreNetDev
        (if ip = limitedBroadcast then broadcastMac else mac) ip proto payload]

/-- A packet is sent where the lookup says. -/
theorem learned_of_lookup {ip : WxIpv4} {mac : WxMac} {t : NetState}
    (h : wxArpLookup t.arpCache ip = some mac) : Learned ip mac t := by
  refine ⟨h, fun buf payload proto hcarries hroom hlength => ?_⟩
  refine transmitted_wxIpSend proto hcarries hroom hlength ?_
  rw [destMac_eq, h]
  split
  · rfl
  · rfl

/-! ## The cache after one update -/

/-- The cache has `ip`, or an entry left for it. -/
def HasEntryFor (cache : Nat → WxArpEntry) (ip : WxIpv4) : Prop :=
  wxArpLookup cache ip ≠ none ∨ ∃ i < wxArpCacheSize, (cache i).state = 0

theorem HoldsPeers.hasEntryFor_iff {cache : Nat → WxArpEntry}
    {m : BoundedMap WxIpv4 WxMac wxArpCacheSize} (h : HoldsPeers cache m) (ip : WxIpv4) :
    HasEntryFor cache ip ↔ m.Accepts ip := by
  have hfree : (∃ i < wxArpCacheSize, (cache i).state = 0) ↔ m.size < wxArpCacheSize := by
    rw [← h.slots.freeIndex_ne_none_iff, Ne, Slots.freeIndex_eq_none]
    push Not
    refine exists_congr fun i => and_congr_right fun _ => ?_
    unfold arpSlots WxArpEntry.binding
    rcases h.states i with hstate | hstate
    · simp [hstate]
    · simp [hstate]
  unfold HasEntryFor BoundedMap.Accepts
  rw [hfree, h.lookup_eq, Option.ne_none_iff_isSome]

/-- The entry that an update changes is the one that is found afterwards. -/
theorem wxArpLookup_update {cache : Nat → WxArpEntry} {ip : WxIpv4} {i : Nat} {entry : WxArpEntry}
    (hi : i < wxArpCacheSize) (hstate : entry.state = 1) (hip : entry.ip = ip)
    (hfirst : ∀ j < i, ((cache j).state == 1 && decide ((cache j).ip = ip)) = false) :
    wxArpLookup (Function.update cache i entry) ip = some entry.mac := by
  have hindex : arpIndex (Function.update cache i entry) ip = some i := by
    unfold arpIndex
    rw [List.find?_range_eq_some]
    refine ⟨?_, List.mem_range.2 hi, fun j hj => ?_⟩
    · rw [Function.update_self, hstate, hip]
      simp
    · rw [Function.update_of_ne (Nat.ne_of_lt hj), hfirst j hj]
      rfl
  unfold wxArpLookup
  rw [hindex, Option.map_some, Function.update_self]

/-- An update is found exactly when there was an entry for it. -/
theorem lookup_wxArpUpdate_iff (cache : Nat → WxArpEntry) (ip : WxIpv4) (mac : WxMac) :
    wxArpLookup (wxArpUpdate cache ip mac) ip = some mac ↔ HasEntryFor cache ip := by
  unfold wxArpUpdate
  cases hindex : arpIndex cache ip with
  | some i =>
      -- the entry of the address
      obtain ⟨huses, hmem, hbefore⟩ := List.find?_range_eq_some.1 hindex
      have hentry : (cache i).state = 1 ∧ (cache i).ip = ip := by simpa using huses
      refine iff_of_true ?_ (.inl ?_)
      · exact wxArpLookup_update (List.mem_range.1 hmem) hentry.1 hentry.2 fun j hj =>
          Bool.not_eq_true' _ ▸ hbefore j hj
      · unfold wxArpLookup
        rw [hindex]
        exact nofun
  | none =>
      have hmissing := List.find?_eq_none.1 hindex
      dsimp only
      cases hfree : (List.range wxArpCacheSize).find? fun i => (cache i).state == 0 with
      | some i =>
          -- the first entry that is left
          have hlt := List.mem_range.1 (List.mem_of_find?_eq_some hfree)
          have hstate : (cache i).state = 0 := by simpa using List.find?_some hfree
          refine iff_of_true ?_ (.inr ⟨i, hlt, hstate⟩)
          exact wxArpLookup_update hlt rfl rfl fun j hj =>
            Bool.eq_false_iff.2 (hmissing j (List.mem_range.2 (hj.trans hlt)))
      | none =>
          have hnone : wxArpLookup cache ip = none := by
            unfold wxArpLookup
            rw [hindex]
            rfl
          refine iff_of_false (fun hfound => ?_) ?_
          · rw [hnone] at hfound
            cases hfound
          · rintro (hcached | ⟨i, hlt, hstate⟩)
            · exact hcached hnone
            · exact List.find?_eq_none.1 hfree i (List.mem_range.2 hlt) (by simpa using hstate)

/-! ## Received packets -/

/-- Sending does not touch the cache. -/
theorem sendingKeeps_arpCache : SendingKeeps fun s t => t.arpCache = s.arpCache where
  refl _ := rfl
  trans _ _ _ hst htu := htu.trans hst
  fault _ _ := rfl
  setBuf _ _ _ := rfl
  noSlot _ := rfl
  takeSlot _ _ := rfl
  giveSlot _ _ := rfl
  sent _ _ := rfl

/-- `wx_arp_process` takes in the sender of a packet for Ethernet and IP, request or not. -/
theorem arpCache_wxArpProcess {s : NetState} {buf : BufSlot} {arp : WxArpHdr}
    (hfit : (s.bufPool buf).data + 28 ≤ bufferSize)
    (hload : WxArpHdr.load (fun i => (s.bufPool buf).buffer ((s.bufPool buf).data + i)) = arp)
    (hhw : wxHtons arp.hwType = 1) (hproto : wxHtons arp.protoType = 0x0800) :
    wp (wxArpProcess buf)
      (fun _ t => t.arpCache = wxArpUpdate s.arpCache arp.senderIp arp.senderMac) s := by
  have hpass : ¬(wxHtons arp.hwType ≠ 1 ∨ wxHtons arp.protoType ≠ 0x0800) := by
    simp [hhw, hproto]
  unfold wxArpProcess
  rw [wp_bind, wp_bufData, wp_bind, wp_view hfit]
  dsimp only
  rw [hload, if_neg hpass, wp_bind, wp_modify, wp_bind, wp_get, wp_bind]
  -- an answer, if there is one, leaves the cache as it is
  have hanswer : Keeps (fun s t : NetState => t.arpCache = s.arpCache)
      (whenever (wxHtons arp.opcode = 1 ∧ arp.targetIp = s.coreNetDev.localIp) (wxArpReply arp)) :=
    Keeps.whenever sendingKeeps_arpCache.refl (keeps_sendArp sendingKeeps_arpCache _ _ _)
  refine wp_mono (hanswer _) fun _ t ht => ?_
  rw [wp_wxNetBufFree]
  exact ht

/-- A frame that is an ARP packet reaches `wx_arp_process`. -/
theorem wp_wxEthProcess_arp {r : NetState} {buf : BufSlot} {g : Nat → UInt8} {data tail : Nat}
    (htype : wxHtons (load16 (fun i => g (data + i)) 12) = 0x0806)
    (hfit : data + 14 ≤ bufferSize) (Q : PUnit → NetState → Prop) :
    wp (wxEthProcess buf) Q (r.setBuf buf (packet g data tail)) ↔
      wp (wxArpProcess buf) Q (r.setBuf buf (packet g (data + 14) tail)) := by
  have hload : wxHtons (WxEthHdr.load fun i => g (data + i)).ethertype = 0x0806 := htype
  unfold wxEthProcess
  rw [wp_bind, wp_bufData, setBuf_same, wp_bind, wp_view hfit, setBuf_same]
  dsimp only
  rw [hload, wp_bind, wp_discard, wp_wxNetBufPull_packet hfit, if_pos rfl]

/-- A received ARP packet is an update of the cache. -/
theorem arpCache_wxE1000Receive {s : NetState} {buf : BufSlot} (hslot : s.freeSlot = some buf)
    {frame : Frame} {ip : WxIpv4} {mac : WxMac} (harp : WellFormedArp frame ip mac) :
    (wxE1000Receive frame s).2.arpCache = wxArpUpdate s.arpCache ip mac := by
  have hsize := frame.fits
  unfold ringBufferSize at hsize
  have hread : ∀ i, overwrite (fun _ => 0) 256 frame.bytes (256 + i) = frame.byte i := fun i =>
    overwrite_frame frame rfl
  have htype : wxHtons (load16 (fun i => overwrite (fun _ => 0) 256 frame.bytes (256 + i)) 12) =
      0x0806 := by
    simp only [hread]
    exact harp.ethertype
  have hload : WxArpHdr.load (fun i => overwrite (fun _ => 0) 256 frame.bytes (256 + 14 + i)) =
      frame.arpHdr := by
    unfold Frame.arpHdr
    simp only [Nat.add_assoc, hread]
  suffices hwp : wp (wxE1000Receive frame)
      (fun _ t => t.arpCache = wxArpUpdate s.arpCache ip mac) s from wp_iff.1 hwp
  unfold wxE1000Receive
  rw [wp_bind, wp_receivePacket hslot, framePacket,
    wp_wxEthProcess_arp htype (by unfold bufferSize; omega)]
  -- the state that `wx_arp_process` is called in, with the Ethernet header taken off
  let received := ((s.takeSlot buf).received frame.bytes.length).setBuf buf
    (packet (overwrite (fun _ => 0) 256 frame.bytes) (256 + 14) (256 + frame.bytes.length))
  have hbuffer : received.bufPool buf =
      packet (overwrite (fun _ => 0) 256 frame.bytes) (256 + 14) (256 + frame.bytes.length) :=
    setBuf_same _ _ _
  have hfits : (received.bufPool buf).data + 28 ≤ bufferSize := by
    rw [hbuffer]
    exact (by decide : 256 + 14 + 28 ≤ bufferSize)
  have harpHdr : WxArpHdr.load
      (fun i => (received.bufPool buf).buffer ((received.bufPool buf).data + i)) =
        frame.arpHdr := by
    rw [hbuffer]
    exact hload
  refine wp_mono (arpCache_wxArpProcess hfits harpHdr harp.hwType harp.protoType) fun _ t ht => ?_
  rw [wp_modify]
  refine ht.trans ?_
  rw [harp.senderIp, harp.senderMac]
  rfl

/-! ## Whole runs -/

/-- A frame is received. -/
def receiveStep (s : NetState) (frame : Frame) : Option NetState := netStep s (.poll [frame])

/-- The frame, if it is an ARP packet, makes its sender known. -/
def LearnsPeer (s : NetState) (frame : Frame) : Prop :=
  ∀ ip mac, WellFormedArp frame ip mac → Learned ip mac (wxE1000Receive frame s).2

/-- The frame, if it is an ARP packet, comes from an address that is cached or that there is an entry
left for. -/
def FindsEntry (s : NetState) (frame : Frame) : Prop :=
  ∀ ip mac, WellFormedArp frame ip mac → HasEntryFor s.arpCache ip

/-- All buffers are free between two frames. -/
theorem exists_freeSlot {macLow macHigh : UInt32} {s : NetState}
    (hreach : Reachable netStep (NetState.boot macLow macHigh) s) :
    ∃ buf, s.freeSlot = some buf := by
  obtain ⟨buf, hslot, -⟩ := twoSlots_of_unused (unused_of_reachable hreach)
  exact ⟨buf, hslot⟩

/-- In every state that is reached, a peer is learned exactly when there is an entry for it. -/
theorem learnsPeer_iff {macLow macHigh : UInt32} {s : NetState}
    (hreach : Reachable netStep (NetState.boot macLow macHigh) s) (frame : Frame) :
    LearnsPeer s frame ↔ FindsEntry s frame := by
  obtain ⟨buf, hslot⟩ := exists_freeSlot hreach
  refine forall₃_congr fun ip mac harp => ?_
  have hcache := arpCache_wxE1000Receive hslot harp
  constructor
  · intro hlearned
    have hlookup := hlearned.lookup
    rw [hcache] at hlookup
    exact (lookup_wxArpUpdate_iff _ ip mac).1 hlookup
  · intro hentry
    refine learned_of_lookup ?_
    rw [hcache]
    exact (lookup_wxArpUpdate_iff _ ip mac).2 hentry

/-- Whatever frames are received after initialisation, at every one of them that is an ARP packet the
sender is learned exactly when its address is cached or an entry is left; so all peers of a run are
learned exactly when each finds an entry. -/
theorem peersLearned_run_iff (macLow macHigh : UInt32) (frames : List Frame) :
    AllSteps receiveStep (fun s frame => LearnsPeer s frame ↔ FindsEntry s frame)
        (NetState.boot macLow macHigh) frames ∧
      (AllSteps receiveStep LearnsPeer (NetState.boot macLow macHigh) frames ↔
        AllSteps receiveStep FindsEntry (NetState.boot macLow macHigh) frames) := by
  have hkeep : ∀ s frame t, Reachable netStep (NetState.boot macLow macHigh) s →
      receiveStep s frame = some t → Reachable netStep (NetState.boot macLow macHigh) t :=
    fun s frame t hreach hstep => hreach.tail hstep
  have hstart : Reachable netStep (NetState.boot macLow macHigh) (NetState.boot macLow macHigh) :=
    Reachable.refl _
  refine ⟨?_, ?_⟩
  · have hreached := (allStates_of_invariant hkeep hstart frames).allSteps
    exact hreached.mono fun s frame hreach => learnsPeer_iff hreach frame
  · constructor
    · intro h
      exact h.mono_of_invariant hkeep
        (fun s frame t hreach _ hlearns => (learnsPeer_iff hreach frame).1 hlearns) hstart
    · intro h
      exact h.mono_of_invariant hkeep
        (fun s frame t hreach _ hfinds => (learnsPeer_iff hreach frame).2 hfinds) hstart

/-! ### A full cache -/

/-- The address of the `n`-th of some peers. -/
def peerIp (n : Nat) : WxIpv4 := ![10, 0, UInt8.ofNat (n / 256), UInt8.ofNat n]

theorem peerIp_inj {m n : Nat} (hm : m < 65536) (hn : n < 65536) (h : peerIp m = peerIp n) :
    m = n := by
  have hhigh : UInt8.ofNat (m / 256) = UInt8.ofNat (n / 256) := congrFun h 2
  have hlow : UInt8.ofNat m = UInt8.ofNat n := congrFun h 3
  rw [← UInt8.toNat_inj, UInt8.toNat_ofNat', UInt8.toNat_ofNat'] at hhigh hlow
  omega

/-- The MAC address in the replies. -/
def peerMac : WxMac := ![2, 0, 0, 0, 0, 1]

theorem wellFormed_arpReplyFrom (ip : WxIpv4) : WellFormedArp (arpReplyFrom ip) ip peerMac := by
  refine
    { whole := by simp [arpReplyFrom]
      ethertype := by simp [load16, wxHtons, Frame.byte, arpReplyFrom]
      hwType := by simp [Frame.arpHdr, WxArpHdr.load, load16, wxHtons, Frame.byte, arpReplyFrom]
      protoType := by simp [Frame.arpHdr, WxArpHdr.load, load16, wxHtons, Frame.byte, arpReplyFrom]
      hwLen := by simp [Frame.arpHdr, WxArpHdr.load, Frame.byte, arpReplyFrom]
      protoLen := by simp [Frame.arpHdr, WxArpHdr.load, Frame.byte, arpReplyFrom]
      opcode := .inr (by
        simp [Frame.arpHdr, WxArpHdr.load, load16, wxHtons, Frame.byte, arpReplyFrom])
      senderIp := ?_
      senderMac := ?_ }
  · funext i
    fin_cases i <;> simp [Frame.arpHdr, WxArpHdr.load, loadIpv4, Frame.byte, arpReplyFrom]
  · funext i
    fin_cases i <;>
      simp [Frame.arpHdr, WxArpHdr.load, loadMac, Frame.byte, arpReplyFrom, peerMac]

/-- Replies from any addresses, one after the other. -/
theorem exec_arpReplies {macLow macHigh : UInt32} (ips : List WxIpv4) {s : NetState}
    (hreach : Reachable netStep (NetState.boot macLow macHigh) s) :
    ∃ t, exec receiveStep s (ips.map arpReplyFrom) = some t ∧
      t.arpCache = wxArpUpdates s.arpCache (ips.map fun ip => (ip, peerMac)) := by
  induction ips generalizing s with
  | nil => exact ⟨s, rfl, rfl⟩
  | cons ip ips ih =>
      obtain ⟨buf, hslot⟩ := exists_freeSlot hreach
      have hcache := arpCache_wxE1000Receive hslot (wellFormed_arpReplyFrom ip)
      have hnext : receiveStep s (arpReplyFrom ip) =
          some (wxE1000Receive (arpReplyFrom ip) s).2 := rfl
      obtain ⟨t, hexec, ht⟩ := ih (hreach.tail hnext)
      refine ⟨t, ?_, ?_⟩
      · rw [List.map_cons, exec_cons, hnext]
        exact hexec
      · rw [ht, hcache]
        rfl

/-- The 257th peer is not learned. -/
theorem peersLearned_run_false :
    ¬ ∀ (macLow macHigh : UInt32) (frames : List Frame),
      AllSteps receiveStep LearnsPeer (NetState.boot macLow macHigh) frames := by
  intro hall
  have hboot : Reachable netStep (NetState.boot 0 0) (NetState.boot 0 0) := Reachable.refl _
  obtain ⟨t, hexec, hcache⟩ := exec_arpReplies ((List.range 256).map peerIp) hboot
  have hreach : Reachable netStep (NetState.boot 0 0) t := by
    have hrun : Reachable receiveStep (NetState.boot 0 0) t := ⟨_, hexec⟩
    exact Reachable.invariant (fun s frame u hs hstep => hs.tail hstep) hboot hrun
  have hlast := (hall 0 0 (((List.range 256).map peerIp).map arpReplyFrom ++
    [arpReplyFrom (peerIp 256)])).of_exec hexec
  have hlearns : LearnsPeer t (arpReplyFrom (peerIp 256)) := (hlast _ rfl).1
  have hentry := (learnsPeer_iff hreach _).1 hlearns _ _ (wellFormed_arpReplyFrom _)
  -- the cache holds the other 256, and has no room
  generalize hupdates : ((List.range 256).map peerIp).map (fun ip => (ip, peerMac)) = updates
    at hcache
  have hmem : ∀ b ∈ updates, ∃ n < 256, b.1 = peerIp n := by
    intro b hb
    rw [← hupdates, List.map_map] at hb
    obtain ⟨n, hn, rfl⟩ := List.mem_map.1 hb
    exact ⟨n, List.mem_range.1 hn, rfl⟩
  have hnodup : (updates.map Prod.fst).Nodup := by
    rw [← hupdates, List.map_map, List.map_map]
    refine List.Nodup.map_on ?_ List.nodup_range
    intro m hm n hn heq
    have hm' := List.mem_range.1 hm
    have hn' := List.mem_range.1 hn
    exact peerIp_inj (by omega) (by omega) heq
  have hlength : updates.length = 256 := by rw [← hupdates]; simp
  have hholds : HoldsPeers t.arpCache (peerMap updates) := by
    rw [hcache]
    exact HoldsPeers.zero.updates updates
  have hempty : (BoundedMap.empty : BoundedMap WxIpv4 WxMac wxArpCacheSize).size = 0 := rfl
  have hsize : (peerMap updates).size = 256 := by
    unfold peerMap
    rw [BoundedMap.size_puts _ hnodup (fun _ _ => BoundedMap.lookup_empty _)
      (by rw [hempty, hlength]; decide), hempty, hlength]
  have hnew : (peerMap updates).lookup (peerIp 256) = none := by
    unfold peerMap
    rw [BoundedMap.lookup_puts_of_not_mem, BoundedMap.lookup_empty]
    intro b hb heq
    obtain ⟨n, hn, hb'⟩ := hmem b hb
    have hindex : 256 = n := peerIp_inj (by decide) (by omega) (heq.trans hb')
    omega
  rcases (hholds.hasEntryFor_iff _).1 hentry with hpresent | hroom
  · rw [hnew] at hpresent
    cases hpresent
  · rw [hsize] at hroom
    exact absurd hroom (by decide)

end Net
end WhitexKernel
