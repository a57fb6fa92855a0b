import WhitexKernel.Net.System
import WhitexKernel.Net.Untouched

/-!
# Sockets — what segments and socket calls do to `tcp_sockets`

`TcpAction` is one call of the socket functions or of `wx_tcp_process`; between two of them the rest
of the stack may do whatever leaves the sockets alone.  The theorems here say for each action which
socket it changes, and how:

* `sockets_wxTcpProcess` — a segment opens a listening socket, completes a half-open one, or changes
  none;
* `socketChange` — the same for all actions;
* `netStep_reaches` — every call of the stack is a run of such actions.
-/

namespace WhitexKernel
namespace Net

open Lib Lib.Bytes Lib.Stateful Machine

/-! ## Segments -/

/-- The header that `wx_tcp_process` reads in `buf`. -/
def NetState.tcpHeader (s : NetState) (buf : BufSlot) : WxTcpHdr :=
  WxTcpHdr.load fun i => (s.bufPool buf).buffer ((s.bufPool buf).data + i)

/-- The initial send sequence number. -/
def initialSeq : Nat := 0x89ABCDEF

/-- The listening socket that takes a `SYN` without `ACK`. -/
def acceptsSyn (sockets : Nat → WxTcpTcb) (tcp : WxTcpHdr) (srcIp : WxIpv4) : Option Nat :=
  (tcbFor sockets (wxHtons tcp.srcPort) (wxHtons tcp.destPort) srcIp).filter fun i =>
    (sockets i).state == 1 && tcp.syn && !tcp.ack

/-- The half-open socket that an `ACK` of its `snd_nxt` completes. -/
def acceptsAck (sockets : Nat → WxTcpTcb) (tcp : WxTcpHdr) (srcIp : WxIpv4) : Option Nat :=
  (tcbFor sockets (wxHtons tcp.srcPort) (wxHtons tcp.destPort) srcIp).filter fun i =>
    (sockets i).state == 2 && tcp.ack && wxHtonl tcp.ackNum == (sockets i).sndNxt

/-- A socket after a `SYN`, before its `SYN-ACK` has gone to `wx_ip_send`. -/
def WxTcpTcb.halfOpen (tcb : WxTcpTcb) (tcp : WxTcpHdr) (srcIp : WxIpv4) : WxTcpTcb :=
  { tcb with
    remotePort := wxHtons tcp.srcPort
    remoteIp := srcIp
    rcvNxt := wrap32 (wxHtonl tcp.seqNum + 1)
    sndNxt := initialSeq
    sndUna := initialSeq
    state := 2 }

/-- A socket after its `SYN-ACK` has gone to `wx_ip_send`. -/
def WxTcpTcb.advanced (tcb : WxTcpTcb) : WxTcpTcb := { tcb with sndNxt := wrap32 (tcb.sndNxt + 1) }

/-- The sockets after a segment; `room` says that there is a buffer for a `SYN-ACK`. -/
def segmentSockets (sockets : Nat → WxTcpTcb) (tcp : WxTcpHdr) (srcIp : WxIpv4) (room : Bool) :
    Nat → WxTcpTcb :=
  match acceptsSyn sockets tcp srcIp, acceptsAck sockets tcp srcIp with
  | some i, _ =>
      let tcb := (sockets i).halfOpen tcp srcIp
      Function.update sockets i (if room then tcb.advanced else tcb)
  | none, some i => Function.update sockets i { sockets i with state := 3 }
  | none, none => sockets

/-- Socket `i` has the connection, or listens. -/
structure TcbMatch (sockets : Nat → WxTcpTcb) (srcPort dstPort : Nat) (srcIp : WxIpv4) (i : Nat) :
    Prop where
  bound : i < wxTcpMaxSocks
  used : (sockets i).used = true
  localPort : (sockets i).localPort = dstPort
  peer : (sockets i).remotePort = srcPort ∧ (sockets i).remoteIp = srcIp ∨ (sockets i).state = 1

theorem tcbFor_eq_some {sockets : Nat → WxTcpTcb} {srcPort dstPort i : Nat} {srcIp : WxIpv4}
    (h : tcbFor sockets srcPort dstPort srcIp = some i) :
    TcbMatch sockets srcPort dstPort srcIp i := by
  unfold tcbFor at h
  split at h
  case h_1 j hfind =>
    cases h
    have hmatch := List.find?_some hfind
    simp only [Bool.and_eq_true, beq_iff_eq, decide_eq_true_eq] at hmatch
    rcases hmatch with ⟨⟨⟨hused, hlocal⟩, hport⟩, hip⟩
    exact ⟨List.mem_range.1 (List.mem_of_find?_eq_some hfind), hused, hlocal, .inl ⟨hport, hip⟩⟩
  case h_2 hfind =>
    have hmatch := List.find?_some h
    simp only [Bool.and_eq_true, beq_iff_eq] at hmatch
    rcases hmatch with ⟨⟨hused, hlocal⟩, hstate⟩
    exact ⟨List.mem_range.1 (List.mem_of_find?_eq_some h), hused, hlocal, .inr hstate⟩

/-! ## The answer to a `SYN` -/

/-- The header of the answer, before its checksum is in it. -/
def synAckHeader (tcb : WxTcpTcb) : WxTcpHdr :=
  { srcPort := wxHtons tcb.localPort
    destPort := wxHtons tcb.remotePort
    seqNum := wxHtonl tcb.sndNxt
    ackNum := wxHtonl tcb.rcvNxt
    dataOffset := 5
    syn := true
    ack := true
    windowSize := wxHtons 8192
    checksum := 0 }

/-- The pseudo header of the answer. -/
def synAckPseudo (dev : WxNetDevice) (tcb : WxTcpTcb) : WxPseudoHdr :=
  { srcIp := dev.localIp
    destIp := tcb.remoteIp
    zero := 0
    protocol := 6
    length := wxHtons 20 }

/-- The header of the answer. -/
def synAck (dev : WxNetDevice) (tcb : WxTcpTcb) : WxTcpHdr :=
  { synAckHeader tcb with
    checksum := complement16 (foldCarries
      (addWords (addWords 0 (synAckPseudo dev tcb).bytes) (synAckHeader tcb).bytes)) }

/-- The state in which `wx_ip_send` gets the answer for socket `i`, in `resp`. -/
def NetState.synAckBuilt (s : NetState) (i : Nat) (resp : BufSlot) : NetState :=
  (s.takeSlot resp).setBuf resp
    (packet (overwrite (fun _ => 0) 364 (synAck s.coreNetDev (s.tcpSockets i)).bytes) 364 384)

/-- `tcb->snd_nxt++` -/
def advance (i : Nat) : NetM Unit := modify fun s => s.setTcb i (s.tcpSockets i).advanced

/-- With a buffer, the answer is built and goes to `wx_ip_send`. -/
theorem wxTcpSendSynAck_eq {s : NetState} {resp : BufSlot} (hslot : s.freeSlot = some resp)
    (i : Nat) :
    wxTcpSendSynAck i s = (do
      wxIpSend resp (s.tcpSockets i).remoteIp 6
      advance i : NetM Unit) (s.synAckBuilt i resp) := by
  have hbytes : ∀ dev tcb, (synAckHeader tcb).bytes.take 16 ++
      bytes16 (synAck dev tcb).checksum ++ (synAckHeader tcb).bytes.drop 18 =
        (synAck dev tcb).bytes := by
    intro dev tcb
    simp [WxTcpHdr.bytes, synAckHeader, synAck, bytes16, bytes32]
  refine eq_of_wp fun Q => ?_
  unfold wxTcpSendSynAck
  rw [wp_bind, wp_wxNetBufAlloc_some hslot]
  dsimp only
  rw [wp_bind, wp_get]
  generalize hheader : WxTcpHdr.bytes _ = header
  obtain rfl : (synAckHeader (s.tcpSockets i)).bytes = header := hheader
  have hdev : (s.takeSlot resp).coreNetDev = s.coreNetDev := rfl
  have htcb : (s.takeSlot resp).tcpSockets = s.tcpSockets := rfl
  rw [hdev, htcb, takeSlot_eq, WxNetBuf.fresh, wp_bind,
    wp_wxNetBufReserve_packet (by decide) (by decide), wp_bind,
    wp_wxNetBufPush_packet (by decide) (by decide), wp_bind,
    wp_store_packet (by rw [tcpHdr_length]; decide), wp_bind, wp_view (by decide), setBuf_same]
  -- the header that was written is read back for its checksum
  have hsegment : slice (fun j => overwrite (fun _ => 0) 364
      (synAckHeader (s.tcpSockets i)).bytes (364 + j)) 0 20 =
        (synAckHeader (s.tcpSockets i)).bytes := by
    calc slice (fun j => overwrite (fun _ => 0) 364
          (synAckHeader (s.tcpSockets i)).bytes (364 + j)) 0 20
        = slice (overwrite (fun _ => 0) 364 (synAckHeader (s.tcpSockets i)).bytes) 364 20 :=
          slice_congr fun j _ => by rw [Nat.zero_add]
      _ = (synAckHeader (s.tcpSockets i)).bytes := slice_overwrite_same _ _ _
  dsimp only at hsegment ⊢
  rw [hsegment, wp_bind, wp_store_packet (by rw [bytes16_length]; decide),
    overwrite_within _ _ 16 (by rw [bytes16_length, tcpHdr_length]; decide), bytes16_length]
  have hsealed : (synAckHeader (s.tcpSockets i)).bytes.take 16 ++
      bytes16 (synAck s.coreNetDev (s.tcpSockets i)).checksum ++
      (synAckHeader (s.tcpSockets i)).bytes.drop (16 + 2) =
        (synAck s.coreNetDev (s.tcpSockets i)).bytes := hbytes _ _
  exact iff_of_eq (congrArg (fun b => wp _ Q ((s.takeSlot resp).setBuf resp
    (packet (overwrite (fun _ => 0) 364 b) 364 384))) hsealed)

/-! ## A segment -/

/-- Building and sending packets changes no socket. -/
def SameSockets (s t : NetState) : Prop := t.tcpSockets = s.tcpSockets

theorem sendingKeeps_sameSockets : SendingKeeps SameSockets where
  refl _ := rfl
  trans _ _ _ hst htu := htu.trans hst
  fault _ _ := rfl
  setBuf _ _ _ := rfl
  noSlot _ := rfl
  takeSlot _ _ := rfl
  giveSlot _ _ := rfl
  sent _ _ := rfl

theorem sockets_wxTcpSendSynAck (i : Nat) (s : NetState) :
    (wxTcpSendSynAck i s).2.tcpSockets =
      if s.freeSlot.isSome then Function.update s.tcpSockets i (s.tcpSockets i).advanced
      else s.tcpSockets := by
  cases hslot : s.freeSlot with
  | none =>
      have hskip : wp (wxTcpSendSynAck i) (fun _ t => t.tcpSockets = s.tcpSockets) s := by
        unfold wxTcpSendSynAck
        rw [wp_bind, wp_wxNetBufAlloc_none hslot]
        dsimp only
        rw [wp_pure]
      exact wp_iff.1 hskip
  | some resp =>
      -- sending leaves the sockets alone; the number is advanced afterwards
      have hsent : wp (wxIpSend resp (s.tcpSockets i).remoteIp 6)
          (fun _ t => SameSockets (s.synAckBuilt i resp) t) (s.synAckBuilt i resp) :=
        keeps_wxIpSend sendingKeeps_sameSockets _ _ _ _
      have hadvanced : wp (do
          wxIpSend resp (s.tcpSockets i).remoteIp 6
          advance i : NetM Unit)
          (fun _ t => t.tcpSockets = Function.update s.tcpSockets i (s.tcpSockets i).advanced)
          (s.synAckBuilt i resp) := by
        rw [wp_bind]
        refine wp_mono hsent fun _ t ht => ?_
        have hsame : t.tcpSockets = s.tcpSockets := ht
        unfold advance
        rw [wp_modify, ← hsame]
        rfl
      rw [wxTcpSendSynAck_eq hslot]
      exact wp_iff.1 hadvanced

section Segment

variable {s : NetState} {tcp : WxTcpHdr} {srcIp : WxIpv4} {i : Nat}

theorem acceptsSyn_eq_some {sockets : Nat → WxTcpTcb} :
    acceptsSyn sockets tcp srcIp = some i ↔
      tcbFor sockets (wxHtons tcp.srcPort) (wxHtons tcp.destPort) srcIp = some i ∧
        (sockets i).state = 1 ∧ tcp.syn = true ∧ tcp.ack = false := by
  simp [acceptsSyn, Option.filter_eq_some_iff, and_assoc]

theorem acceptsAck_eq_some {sockets : Nat → WxTcpTcb} :
    acceptsAck sockets tcp srcIp = some i ↔
      tcbFor sockets (wxHtons tcp.srcPort) (wxHtons tcp.destPort) srcIp = some i ∧
        (sockets i).state = 2 ∧ tcp.ack = true ∧ wxHtonl tcp.ackNum = (sockets i).sndNxt := by
  simp [acceptsAck, Option.filter_eq_some_iff, and_assoc]

/-- A listening socket takes the `SYN`. -/
theorem wxTcpSegment_syn (h : acceptsSyn s.tcpSockets tcp srcIp = some i) :
    wxTcpSegment tcp srcIp s =
      wxTcpSendSynAck i (s.setTcb i ((s.tcpSockets i).halfOpen tcp srcIp)) := by
  rcases acceptsSyn_eq_some.1 h with ⟨hfor, hstate, hsyn, hack⟩
  refine eq_of_wp fun Q => ?_
  unfold wxTcpSegment
  rw [wp_bind, wp_get]
  dsimp only
  rw [hfor]
  dsimp only
  rw [if_pos ⟨hstate, hsyn, hack⟩, wp_bind, wp_set]
  rfl

/-- No listening socket takes the segment: at most a half-open one is completed. -/
theorem wxTcpSegment_noSyn (h : acceptsSyn s.tcpSockets tcp srcIp = none) :
    wxTcpSegment tcp srcIp s =
      (⟨⟩, { s with tcpSockets := segmentSockets s.tcpSockets tcp srcIp s.freeSlot.isSome }) := by
  have hno : ∀ j, ¬ acceptsSyn s.tcpSockets tcp srcIp = some j := by simp [h]
  simp only [acceptsSyn_eq_some] at hno
  refine eq_of_wp (m := wxTcpSegment tcp srcIp) (n := set { s with
    tcpSockets := segmentSockets s.tcpSockets tcp srcIp s.freeSlot.isSome }) (t := s) fun Q => ?_
  unfold wxTcpSegment segmentSockets
  rw [wp_bind, wp_get, wp_set, h]
  dsimp only
  cases hfor : tcbFor s.tcpSockets (wxHtons tcp.srcPort) (wxHtons tcp.destPort) srcIp with
  | none => simp [acceptsAck, hfor]
  | some j =>
      -- the socket found does not listen, or the segment is no `SYN`
      have hsyn : ¬ ((s.tcpSockets j).state = 1 ∧ tcp.syn = true ∧ tcp.ack = false) :=
        fun hall => hno j ⟨hfor, hall⟩
      dsimp only
      rw [if_neg hsyn, wp_whenever, wp_set]
      by_cases hack : (s.tcpSockets j).state = 2 ∧ tcp.ack = true ∧
          wxHtonl tcp.ackNum = (s.tcpSockets j).sndNxt
      · have haccepts : acceptsAck s.tcpSockets tcp srcIp = some j :=
          acceptsAck_eq_some.2 ⟨hfor, hack⟩
        simp [hack, haccepts, NetState.setTcb]
      -- nor does it wait for this `ACK`, and no other socket is looked at
      · have hnone : acceptsAck s.tcpSockets tcp srcIp = none := by
          rw [Option.eq_none_iff_forall_ne_some]
          intro k hk
          rcases acceptsAck_eq_some.1 hk with ⟨hfor', hall⟩
          rw [hfor, Option.some.injEq] at hfor'
          exact hack (hfor' ▸ hall)
        simp [hack, hnone]

theorem sockets_wxTcpSegment (tcp : WxTcpHdr) (srcIp : WxIpv4) (s : NetState) :
    (wxTcpSegment tcp srcIp s).2.tcpSockets =
      segmentSockets s.tcpSockets tcp srcIp s.freeSlot.isSome := by
  cases hsyn : acceptsSyn s.tcpSockets tcp srcIp with
  | none => rw [wxTcpSegment_noSyn hsyn]
  | some i =>
      rw [wxTcpSegment_syn hsyn, sockets_wxTcpSendSynAck]
      have hroom : (s.setTcb i ((s.tcpSockets i).halfOpen tcp srcIp)).freeSlot = s.freeSlot := rfl
      unfold segmentSockets
      rw [hsyn, hroom]
      cases s.freeSlot with
      | none => rfl
      | some resp => simp [NetState.setTcb]

end Segment

/-- The state after an access that may have been recorded. -/
def NetState.faulted (s : NetState) (faults : List Fault) : NetState := { s with faults := faults }

theorem wp_view_faulted {s : NetState} {buf : BufSlot} {offset size : Nat}
    {Q : (Nat → UInt8) → NetState → Prop}
    (h : ∀ faults, Q (fun i => (s.bufPool buf).buffer (offset + i)) (s.faulted faults)) :
    wp (view buf offset size) Q s := by
  unfold view inside
  rw [wp_bind, wp_ite]
  refine ⟨fun _ => ?_, fun _ => ?_⟩
  · rw [wp_pure, wp_bind, wp_get, wp_pure]
    exact h s.faults
  · rw [wp_modify, wp_bind, wp_get, wp_pure]
    exact h (s.faults ++ [.bufferIndex])

/-- `wx_tcp_process` reads the header, acts on it and gives the packet back. -/
theorem wxTcpProcess_eq (s : NetState) (buf : BufSlot) (ipHdr : WxIpv4Hdr) :
    ∃ faults, wxTcpProcess buf ipHdr s = (do
      wxTcpSegment (s.tcpHeader buf) ipHdr.srcIp
      wxNetBufFree buf : NetM Unit) (s.faulted faults) := by
  have hread : wp (view buf (s.bufPool buf).data 20) (fun header t =>
      ∃ faults, header = (fun i => (s.bufPool buf).buffer ((s.bufPool buf).data + i)) ∧
        t = s.faulted faults) s :=
    wp_view_faulted fun faults => ⟨faults, rfl, rfl⟩
  rcases wp_iff.1 hread with ⟨faults, hheader, hstate⟩
  refine ⟨faults, ?_⟩
  have hdata : bufData buf s = ((s.bufPool buf).data, s) := rfl
  unfold wxTcpProcess
  rw [bind_apply, hdata, bind_apply]
  dsimp only
  rw [hheader, hstate, NetState.tcpHeader]

/-- In `taken`, socket `i` has taken the `SYN` in `buf` and has nothing to do but answer it; the rest
of the stack is as in `s`. -/
structure SynTaken (s : NetState) (buf : BufSlot) (ipHdr : WxIpv4Hdr) (i : Nat)
    (taken : NetState) : Prop where
  socket : taken.tcpSockets i = (s.tcpSockets i).halfOpen (s.tcpHeader buf) ipHdr.srcIp
  freeSlot : taken.freeSlot = s.freeSlot
  coreNetDev : taken.coreNetDev = s.coreNetDev
  arpCache : taken.arpCache = s.arpCache
  transmitted : taken.transmitted = s.transmitted
  poolEvents : taken.poolEvents = s.poolEvents
  process : wxTcpProcess buf ipHdr s = (do
    wxTcpSendSynAck i
    wxNetBufFree buf : NetM Unit) taken

theorem exists_synTaken {s : NetState} {buf : BufSlot} {ipHdr : WxIpv4Hdr} {i : Nat}
    (h : acceptsSyn s.tcpSockets (s.tcpHeader buf) ipHdr.srcIp = some i) :
    ∃ taken, SynTaken s buf ipHdr i taken := by
  rcases wxTcpProcess_eq s buf ipHdr with ⟨faults, heq⟩
  have hopen : wxTcpSegment (s.tcpHeader buf) ipHdr.srcIp (s.faulted faults) =
      wxTcpSendSynAck i ((s.faulted faults).setTcb i
        ((s.tcpSockets i).halfOpen (s.tcpHeader buf) ipHdr.srcIp)) := wxTcpSegment_syn h
  refine ⟨(s.faulted faults).setTcb i ((s.tcpSockets i).halfOpen (s.tcpHeader buf) ipHdr.srcIp),
    ?_, rfl, rfl, rfl, rfl, rfl, ?_⟩
  · exact Function.update_self i _ s.tcpSockets
  · rw [heq, bind_apply, hopen, bind_apply]

theorem sockets_wxTcpProcess (s : NetState) (buf : BufSlot) (ipHdr : WxIpv4Hdr) :
    (wxTcpProcess buf ipHdr s).2.tcpSockets =
      segmentSockets s.tcpSockets (s.tcpHeader buf) ipHdr.srcIp s.freeSlot.isSome := by
  rcases wxTcpProcess_eq s buf ipHdr with ⟨faults, heq⟩
  have hsegment : (wxTcpSegment (s.tcpHeader buf) ipHdr.srcIp (s.faulted faults)).2.tcpSockets =
      segmentSockets s.tcpSockets (s.tcpHeader buf) ipHdr.srcIp s.freeSlot.isSome :=
    sockets_wxTcpSegment _ _ _
  have hfree : ∀ t, (wxNetBufFree buf t).2.tcpSockets = t.tcpSockets := fun _ => rfl
  rw [heq, bind_apply, hfree, hsegment]

/-! ## Actions -/

inductive TcpAction
  | socket (domain type protocol : Int)
  | bind (sockfd : Int) (port : Nat)
  | listen (sockfd : Int)
  | pkgListen
  /-- `wx_tcp_process` gets the packet in `buf`. -/
  | segment (buf : BufSlot) (ipHdr : WxIpv4Hdr)
  /-- The rest of the stack, up to a state with the same sockets. -/
  | other (t : NetState)

def TcpAction.run (s : NetState) : TcpAction → NetState
  | .socket domain type protocol => (wxSocket domain type protocol s).2
  | .bind sockfd port => (wxBind sockfd port s).2
  | .listen sockfd => (wxListen sockfd s).2
  | .pkgListen => (wxPkgListen s).2
  | .segment buf ipHdr => (wxTcpProcess buf ipHdr s).2
  | .other t => { t with tcpSockets := s.tcpSockets }

/-- Every action returns. -/
def tcpStep (s : NetState) (a : TcpAction) : Option NetState := some (a.run s)

/-- The socket that `wx_listen` is called for. -/
def listened (s : NetState) : TcpAction → Option Nat
  | .listen sockfd => openSocket s sockfd
  | _ => none

/-- The socket that opens for a `SYN`. -/
def opened (s : NetState) : TcpAction → Option Nat
  | .segment buf ipHdr => acceptsSyn s.tcpSockets (s.tcpHeader buf) ipHdr.srcIp
  | _ => none

/-- The socket that an `ACK` completes. -/
def completed (s : NetState) : TcpAction → Option Nat
  | .segment buf ipHdr => acceptsAck s.tcpSockets (s.tcpHeader buf) ipHdr.srcIp
  | _ => none

/-- What an action does to the sockets. -/
inductive SocketChange (s : NetState) : TcpAction → (Nat → WxTcpTcb) → Prop
  | none (a : TcpAction) (hlisten : listened s a = none) (hopen : opened s a = none)
      (hcomplete : completed s a = none) : SocketChange s a s.tcpSockets
  | allocate (a : TcpAction) (i state : Nat) (hfree : (s.tcpSockets i).used = false)
      (ha : (∃ d t p, a = .socket d t p) ∧ state = 0 ∨ a = .pkgListen ∧ state = 2) :
      SocketChange s a (Function.update s.tcpSockets i
        { s.tcpSockets i with used := true, state := state })
  | bind (sockfd : Int) (port i : Nat) (hused : (s.tcpSockets i).used = true) :
      SocketChange s (.bind sockfd port) (Function.update s.tcpSockets i
        { s.tcpSockets i with localPort := port })
  | listen (sockfd : Int) (i : Nat) (hlisten : listened s (.listen sockfd) = some i)
      (hused : (s.tcpSockets i).used = true) :
      SocketChange s (.listen sockfd) (Function.update s.tcpSockets i
        { s.tcpSockets i with state := 1 })
  | halfOpen (buf : BufSlot) (ipHdr : WxIpv4Hdr) (i : Nat)
      (hopen : opened s (.segment buf ipHdr) = some i) :
      SocketChange s (.segment buf ipHdr) (Function.update s.tcpSockets i
        (if s.freeSlot.isSome then
          ((s.tcpSockets i).halfOpen (s.tcpHeader buf) ipHdr.srcIp).advanced
        else (s.tcpSockets i).halfOpen (s.tcpHeader buf) ipHdr.srcIp))
  | establish (buf : BufSlot) (ipHdr : WxIpv4Hdr) (i : Nat)
      (hopen : opened s (.segment buf ipHdr) = none)
      (hcomplete : completed s (.segment buf ipHdr) = some i) :
      SocketChange s (.segment buf ipHdr) (Function.update s.tcpSockets i
        { s.tcpSockets i with state := 3 })

theorem socketChange (s : NetState) (a : TcpAction) : SocketChange s a (a.run s).tcpSockets := by
  cases a with
  | socket domain type protocol =>
      rcases wxSocket_eq domain type protocol s with heq | ⟨i, _, hfree, heq⟩
      · simp only [TcpAction.run, heq]
        exact .none _ rfl rfl rfl
      · simp only [TcpAction.run, heq]
        exact .allocate _ i 0 hfree (.inl ⟨⟨_, _, _, rfl⟩, rfl⟩)
  | bind sockfd port =>
      simp only [TcpAction.run, wxBind_eq]
      cases hopen : openSocket s sockfd with
      | none => exact .none _ rfl rfl rfl
      | some i => exact .bind sockfd port i (openSocket_used hopen)
  | listen sockfd =>
      simp only [TcpAction.run, wxListen_eq]
      cases hopen : openSocket s sockfd with
      | none => exact .none _ hopen rfl rfl
      | some i => exact .listen sockfd i hopen (openSocket_used hopen)
  | pkgListen =>
      rcases wxPkgListen_eq s with heq | ⟨i, hfree, heq⟩
      · simp only [TcpAction.run, heq]
        exact .none _ rfl rfl rfl
      · simp only [TcpAction.run, heq]
        exact .allocate _ i 2 hfree (.inr ⟨rfl, rfl⟩)
  | segment buf ipHdr =>
      -- a segment opens a socket, or else completes one, or changes none
      rw [TcpAction.run, sockets_wxTcpProcess]
      unfold segmentSockets
      cases hopen : acceptsSyn s.tcpSockets (s.tcpHeader buf) ipHdr.srcIp with
      | some i => exact .halfOpen buf ipHdr i hopen
      | none =>
          cases hcomplete : acceptsAck s.tcpSockets (s.tcpHeader buf) ipHdr.srcIp with
          | some i => exact .establish buf ipHdr i hopen hcomplete
          | none => exact .none _ rfl hopen hcomplete
  | other t => exact .none _ rfl rfl rfl

/-- What an action does to socket `i`. -/
inductive TcbChange (s : NetState) (a : TcpAction) (i : Nat) : WxTcpTcb → Prop
  | same (hopen : opened s a ≠ some i) : TcbChange s a i (s.tcpSockets i)
  | allocate (state : Nat)
      (ha : (∃ d t p, a = .socket d t p) ∧ state = 0 ∨ a = .pkgListen ∧ state = 2) :
      TcbChange s a i { s.tcpSockets i with used := true, state := state }
  | bind (sockfd : Int) (port : Nat) (ha : a = .bind sockfd port) :
      TcbChange s a i { s.tcpSockets i with localPort := port }
  | listen (sockfd : Int) (ha : a = .listen sockfd) :
      TcbChange s a i { s.tcpSockets i with state := 1 }
  | halfOpen (tcp : WxTcpHdr) (srcIp : WxIpv4) (hopen : opened s a = some i) :
      TcbChange s a i (if s.freeSlot.isSome then ((s.tcpSockets i).halfOpen tcp srcIp).advanced
        else (s.tcpSockets i).halfOpen tcp srcIp)
  | establish (hopen : opened s a = none) (hcomplete : completed s a = some i) :
      TcbChange s a i { s.tcpSockets i with state := 3 }

/-- A change of socket `j` alone, by an action that opens no other one. -/
theorem TcbChange.of_update {s : NetState} {a : TcpAction} {j : Nat} {tcb : WxTcpTcb}
    (hj : TcbChange s a j tcb) (hopen : ∀ i, opened s a = some i → i = j) (i : Nat) :
    TcbChange s a i (Function.update s.tcpSockets j tcb i) := by
  by_cases hij : i = j
  · subst hij
    rw [Function.update_self]
    exact hj
  · rw [Function.update_of_ne hij]
    exact .same fun hi => hij (hopen i hi)

theorem SocketChange.tcb {s : NetState} {a : TcpAction} {sockets : Nat → WxTcpTcb}
    (h : SocketChange s a sockets) (i : Nat) : TcbChange s a i (sockets i) := by
  cases h with
  | none _ _ hopen _ => exact .same (by simp [hopen])
  | allocate _ j state _ ha =>
      refine TcbChange.of_update (.allocate state ha) (fun k hk => ?_) i
      rcases ha with ⟨⟨d, t, p, rfl⟩, _⟩ | ⟨rfl, _⟩ <;> cases hk
  | bind sockfd port j _ =>
      exact TcbChange.of_update (.bind sockfd port rfl) (fun k hk => by cases hk) i
  | listen sockfd j _ _ =>
      exact TcbChange.of_update (.listen sockfd rfl) (fun k hk => by cases hk) i
  | halfOpen buf ipHdr j hopen =>
      -- the socket that a `SYN` opens is the one that changes
      refine TcbChange.of_update (.halfOpen (s.tcpHeader buf) ipHdr.srcIp hopen) (fun k hk => ?_) i
      exact Option.some.inj (hk.symm.trans hopen)
  | establish buf ipHdr j hopen hcomplete =>
      refine TcbChange.of_update (.establish hopen hcomplete) (fun k hk => ?_) i
      rw [hopen] at hk
      cases hk

/-- What a run of the action does to socket `i`. -/
theorem tcbChange (s : NetState) (a : TcpAction) (i : Nat) :
    TcbChange s a i ((a.run s).tcpSockets i) :=
  (socketChange s a).tcb i

/-! ## The calls of the stack are made of these actions -/

theorem reachable_of_sameSockets {s t : NetState} (h : SameSockets s t) :
    Reachable tcpStep s t := by
  have hstep : tcpStep s (.other t) = some t :=
    congrArg some (show { t with tcpSockets := s.tcpSockets } = t by rw [← show _ = _ from h])
  exact (Reachable.refl s).tail hstep

theorem reachable_run (s : NetState) (a : TcpAction) : Reachable tcpStep s (a.run s) :=
  (Reachable.refl s).tail rfl

theorem pollingKeeps_reachable : PollingKeeps (Reachable tcpStep) where
  refl := Reachable.refl
  trans _ _ _ := Reachable.trans
  fault _ _ := reachable_of_sameSockets rfl
  setBuf _ _ _ := reachable_of_sameSockets rfl
  noSlot _ := reachable_of_sameSockets rfl
  takeSlot _ _ := reachable_of_sameSockets rfl
  giveSlot _ _ := reachable_of_sameSockets rfl
  sent _ _ := reachable_of_sameSockets rfl
  arpCache _ _ := reachable_of_sameSockets rfl
  received _ _ := reachable_of_sameSockets rfl
  rxPtr _ _ := reachable_of_sameSockets rfl
  tcpProcess buf ipHdr s := wp_iff.2 (reachable_run s (.segment buf ipHdr))

/-- Every call of the stack is a run of actions. -/
theorem netStep_reaches {s t : NetState} {call : NetCall} (h : netStep s call = some t) :
    Reachable tcpStep s t := by
  refine of_netStep (R := Reachable tcpStep) (fun s => ?_) h
  cases call with
  | poll frames => exact keeps_wxE1000Poll pollingKeeps_reachable frames s
  | pingSend targetIp id seq =>
      exact keeps_wxPingSend pollingKeeps_reachable.toSendingKeeps targetIp id seq s
  | socket domain type protocol =>
      exact wp_iff.2 (reachable_run s (.socket domain type protocol))
  | bind sockfd port => exact wp_iff.2 (reachable_run s (.bind sockfd port))
  | listen sockfd => exact wp_iff.2 (reachable_run s (.listen sockfd))
  | pkgListen => exact wp_iff.2 (reachable_run s .pkgListen)

end Net
end WhitexKernel
