import Mathlib.Data.Finset.Card
import WhitexKernel.Net.Delivery
import WhitexKernel.Net.Sockets

/-!
# Listening — how long a port stays open

`PortOpen port` says that the next peer without a connection gets its answer.  With a free buffer this
is so exactly when some socket listens on the port (`portOpen_iff`).  A `SYN` that is taken makes the
listening socket itself the connection, and no call makes it listen again, so the port is closed by
the `SYN` that the last socket listening on it takes.
-/

namespace WhitexKernel
namespace Net

open Lib Lib.Bytes Lib.Stateful Machine

/-! ## Peers and answers -/

/-- The packet in `buf` is a `SYN` without `ACK` to `port`. -/
structure SynTo (port : Nat) (s : NetState) (buf : BufSlot) : Prop where
  syn : (s.tcpHeader buf).syn = true
  ack : (s.tcpHeader buf).ack = false
  port : wxHtons (s.tcpHeader buf).destPort = port

/-- Only listening sockets record the peer for the port. -/
def Unconnected (port : Nat) (sockets : Nat → WxTcpTcb) (peerIp : WxIpv4) (peerPort : Nat) : Prop :=
  ∀ i < wxTcpMaxSocks, (sockets i).used = true → (sockets i).localPort = port →
    (sockets i).remoteIp = peerIp → (sockets i).remotePort = peerPort → (sockets i).state = 1

/-- `reply` is the `SYN-ACK` to the `SYN` `tcp`. -/
structure SynAckFor (tcp reply : WxTcpHdr) : Prop where
  syn : reply.syn = true
  ack : reply.ack = true
  srcPort : reply.srcPort = tcp.destPort
  destPort : reply.destPort = tcp.srcPort
  seqNum : reply.seqNum = wxHtonl initialSeq
  ackNum : reply.ackNum = wxHtonl (wrap32 (wxHtonl tcp.seqNum + 1))

/-- `wx_tcp_process` builds `reply` in `resp`, which it has just taken, and in the state `u` passes it
to `wx_ip_send`. -/
structure Answers (s : NetState) (buf : BufSlot) (ipHdr : WxIpv4Hdr) (i : Nat) (resp : BufSlot)
    (reply : WxTcpHdr) (u : NetState) : Prop where
  taken : u.poolEvents = s.poolEvents ++ [.alloc resp]
  packet : Carries (u.bufPool resp) reply.bytes
  reply : SynAckFor (s.tcpHeader buf) reply
  sent : wxTcpProcess buf ipHdr s = (do
    wxIpSend resp ipHdr.srcIp 6
    advance i
    wxNetBufFree buf : NetM Unit) u

def AnswersSyn (s : NetState) (buf : BufSlot) (ipHdr : WxIpv4Hdr) : Prop :=
  ∃ i resp reply u, Answers s buf ipHdr i resp reply u

/-- A socket that is not used. -/
def FreeTcb (sockets : Nat → WxTcpTcb) : Prop := ∃ i < wxTcpMaxSocks, (sockets i).used = false

/-- As long as a socket and a buffer are free, a `SYN` to the port from a peer without a connection
is answered. -/
def PortOpen (port : Nat) (s : NetState) : Prop :=
  ∀ u, SameSockets s u → FreeTcb u.tcpSockets → u.freeSlot.isSome → ∀ buf ipHdr,
    SynTo port u buf →
    Unconnected port u.tcpSockets ipHdr.srcIp (wxHtons (u.tcpHeader buf).srcPort) →
    AnswersSyn u buf ipHdr

/-- The socket listens on the port. -/
def WxTcpTcb.ListensOn (tcb : WxTcpTcb) (port : Nat) : Prop :=
  tcb.used = true ∧ tcb.localPort = port ∧ tcb.state = 1

instance (tcb : WxTcpTcb) (port : Nat) : Decidable (tcb.ListensOn port) :=
  inferInstanceAs (Decidable (_ ∧ _))

def HasListener (port : Nat) (sockets : Nat → WxTcpTcb) : Prop :=
  ∃ i < wxTcpMaxSocks, (sockets i).ListensOn port

/-! ## A listening socket answers -/

section Answer

variable {s : NetState} {buf : BufSlot} {ipHdr : WxIpv4Hdr} {port i : Nat}

theorem acceptsSyn_of_hasListener (hsyn : SynTo port s buf)
    (hpeer : Unconnected port s.tcpSockets ipHdr.srcIp (wxHtons (s.tcpHeader buf).srcPort))
    (hlistener : HasListener port s.tcpSockets) :
    ∃ i, acceptsSyn s.tcpSockets (s.tcpHeader buf) ipHdr.srcIp = some i := by
  cases hfor : tcbFor s.tcpSockets (wxHtons (s.tcpHeader buf).srcPort)
      (wxHtons (s.tcpHeader buf).destPort) ipHdr.srcIp with
  | some i =>
      have hmatch := tcbFor_eq_some hfor
      have hlocal : (s.tcpSockets i).localPort = port := hmatch.localPort.trans hsyn.port
      refine ⟨i, acceptsSyn_eq_some.2 ⟨hfor, ?_, hsyn.syn, hsyn.ack⟩⟩
      rcases hmatch.peer with ⟨hport, hip⟩ | hlisten
      · exact hpeer i hmatch.bound hmatch.used hlocal hip hport
      · exact hlisten
  | none =>
      rcases hlistener with ⟨j, hj, hused, hlocal, hstate⟩
      unfold tcbFor at hfor
      split at hfor
      · cases hfor
      · have hno := List.find?_eq_none.1 hfor j (List.mem_range.2 hj)
        simp [hused, hlocal, hstate, hsyn.port] at hno

theorem hasListener_of_acceptsSyn
    (h : acceptsSyn s.tcpSockets (s.tcpHeader buf) ipHdr.srcIp = some i) :
    i < wxTcpMaxSocks ∧
      (s.tcpSockets i).ListensOn (wxHtons (s.tcpHeader buf).destPort) := by
  rcases acceptsSyn_eq_some.1 h with ⟨hfor, hstate, _⟩
  have hmatch := tcbFor_eq_some hfor
  exact ⟨hmatch.bound, hmatch.used, hmatch.localPort, hstate⟩

/-- The answer to a `SYN` is for the peer that sent it. -/
theorem synAckFor (dev : WxNetDevice) {tcb : WxTcpTcb} (bytes : Nat → UInt8) (srcIp : WxIpv4)
    (hlocal : tcb.localPort = wxHtons (WxTcpHdr.load bytes).destPort) :
    SynAckFor (WxTcpHdr.load bytes)
      (synAck dev (tcb.halfOpen (WxTcpHdr.load bytes) srcIp)) where
  syn := rfl
  ack := rfl
  srcPort := by
    have hdest : wxHtons (wxHtons (WxTcpHdr.load bytes).destPort) =
        (WxTcpHdr.load bytes).destPort := wxHtons_wxHtons (load16_lt bytes 2)
    calc wxHtons tcb.localPort
        = wxHtons (wxHtons (WxTcpHdr.load bytes).destPort) := by rw [hlocal]
      _ = (WxTcpHdr.load bytes).destPort := hdest
  destPort := wxHtons_wxHtons (load16_lt bytes 0)
  seqNum := rfl
  ackNum := rfl

/-- A `SYN` that a listening socket takes is answered, if there is a buffer. -/
theorem answers_of_acceptsSyn {resp : BufSlot} (hslot : s.freeSlot = some resp)
    (h : acceptsSyn s.tcpSockets (s.tcpHeader buf) ipHdr.srcIp = some i) :
    AnswersSyn s buf ipHdr := by
  rcases exists_synTaken h with ⟨taken, htaken⟩
  have hlocal : (s.tcpSockets i).localPort = wxHtons (s.tcpHeader buf).destPort :=
    (hasListener_of_acceptsSyn h).2.2.1
  have hslot' : taken.freeSlot = some resp := htaken.freeSlot.trans hslot
  -- the answer is what was built, in the slot the pool gave for it
  refine ⟨i, resp, synAck taken.coreNetDev (taken.tcpSockets i), taken.synAckBuilt i resp,
    ?_, ?_, ?_, ?_⟩
  · rw [← htaken.poolEvents]
    rfl
  · refine ⟨?_, ?_, ?_⟩
    · rw [tcpHdr_length]
      simp [NetState.synAckBuilt]
    · simp [NetState.synAckBuilt, bufferSize]
    · rw [NetState.synAckBuilt, setBuf_same]
      exact slice_overwrite_same _ _ _
  · rw [htaken.socket]
    exact synAckFor taken.coreNetDev _ ipHdr.srcIp hlocal
  -- it goes to the peer whose `SYN` was taken
  · have hpeer : (taken.tcpSockets i).remoteIp = ipHdr.srcIp := by
      rw [htaken.socket]
      rfl
    rw [htaken.process, bind_apply, wxTcpSendSynAck_eq hslot', hpeer]
    simp only [bind_apply]

/-- What is recorded of the pool is never taken back. -/
theorem sendingKeeps_poolEvents :
    SendingKeeps fun s t => s.poolEvents <+: t.poolEvents where
  refl _ := List.prefix_refl _
  trans _ _ _ hst htu := hst.trans htu
  fault _ _ := List.prefix_refl _
  setBuf _ _ _ := List.prefix_refl _
  noSlot _ := List.prefix_append _ _
  takeSlot _ _ := List.prefix_append _ _
  giveSlot _ _ := List.prefix_append _ _
  sent _ _ := List.prefix_refl _

/-- A `SYN` that no listening socket takes is not answered. -/
theorem not_answersSyn (h : acceptsSyn s.tcpSockets (s.tcpHeader buf) ipHdr.srcIp = none) :
    ¬ AnswersSyn s buf ipHdr := by
  rintro ⟨i, resp, reply, u, hanswers⟩
  -- the packet is given back at once, so the first thing recorded is its return
  have hdropped : (wxTcpProcess buf ipHdr s).2.poolEvents = s.poolEvents ++ [.free buf] := by
    rcases wxTcpProcess_eq s buf ipHdr with ⟨faults, heq⟩
    have hnoSyn := wxTcpSegment_noSyn (s := s.faulted faults) h
    rw [heq, bind_apply, hnoSyn]
    rfl
  -- an answer begins with a buffer for it
  have hgrows : u.poolEvents <+: (wxTcpProcess buf ipHdr s).2.poolEvents := by
    have hsent : wp (do
        wxIpSend resp ipHdr.srcIp 6
        advance i
        wxNetBufFree buf : NetM Unit) (fun _ t => u.poolEvents <+: t.poolEvents) u := by
      rw [wp_bind]
      refine wp_mono (keeps_wxIpSend sendingKeeps_poolEvents resp ipHdr.srcIp 6 u) fun _ t ht => ?_
      unfold advance
      rw [wp_bind, wp_modify, wp_wxNetBufFree]
      exact ht.trans (List.prefix_append _ _)
    rw [hanswers.sent]
    exact wp_iff.1 hsent
  rw [hdropped, hanswers.taken] at hgrows
  have hevent : [PoolEvent.alloc resp] <+: [.free buf] := (List.prefix_append_right_inj _).1 hgrows
  simp at hevent

end Answer

/-! ## The next peer -/

/-- A port that no socket records as its peer's. -/
theorem exists_unrecordedPort (sockets : Nat → WxTcpTcb) :
    ∃ p < 65536, ∀ i < wxTcpMaxSocks, (sockets i).remotePort ≠ p := by
  have hcard : ((Finset.range wxTcpMaxSocks).image fun i => (sockets i).remotePort).card <
      (Finset.range 65536).card := by
    calc ((Finset.range wxTcpMaxSocks).image fun i => (sockets i).remotePort).card
        ≤ (Finset.range wxTcpMaxSocks).card := Finset.card_image_le
      _ = wxTcpMaxSocks := Finset.card_range _
      _ < 65536 := by decide
      _ = (Finset.range 65536).card := (Finset.card_range _).symm
  rcases Finset.exists_mem_notMem_of_card_lt_card hcard with ⟨p, hp, hnot⟩
  refine ⟨p, Finset.mem_range.1 hp, fun i hi heq => hnot ?_⟩
  exact Finset.mem_image.2 ⟨i, Finset.mem_range.2 hi, heq⟩

/-- The header of a `SYN` between two ports. -/
def synHeader (srcPort destPort : Nat) : WxTcpHdr :=
  { srcPort := wxHtons srcPort
    destPort := wxHtons destPort
    seqNum := 0
    ackNum := 0
    dataOffset := 5
    syn := true
    ack := false
    windowSize := 0
    checksum := 0 }

/-- The state with a `SYN` in every buffer. -/
def NetState.withSyn (s : NetState) (srcPort destPort : Nat) : NetState :=
  { s with
    bufPool := fun _ => packet (overwrite (fun _ => 0) 0 (synHeader srcPort destPort).bytes) 0 20 }

/-- The ports and flags of a header that was written. -/
theorem load_tcpHdr {g : Nat → UInt8} {offset : Nat} {h : WxTcpHdr}
    (hbytes : slice g offset 20 = h.bytes) (hsrc : h.srcPort < 2 ^ 16)
    (hdest : h.destPort < 2 ^ 16) :
    let header := WxTcpHdr.load fun i => g (offset + i)
    header.syn = h.syn ∧ header.ack = h.ack ∧ header.srcPort = h.srcPort ∧
      header.destPort = h.destPort := by
  have hbyte : ∀ i, i < 20 → h.bytes[i]? = some (g (offset + i)) := fun i hi =>
    getElem?_of_slice hbytes hi
  -- both flags are bits of one byte
  have hflags : g (offset + 13) =
      UInt8.ofNat ((if h.syn then 2 else 0) + (if h.ack then 16 else 0)) := by
    simpa [WxTcpHdr.bytes, bytes16, bytes32] using (hbyte 13 (by decide)).symm
  refine ⟨?_, ?_, ?_, ?_⟩
  · change (g (offset + 13)).toNat.testBit 1 = h.syn
    rw [hflags]
    cases h.syn <;> cases h.ack <;> decide
  · change (g (offset + 13)).toNat.testBit 4 = h.ack
    rw [hflags]
    cases h.syn <;> cases h.ack <;> decide
  · exact load16_eq hsrc
      (by simpa [WxTcpHdr.bytes, bytes16] using (hbyte 0 (by decide)).symm)
      (by simpa [WxTcpHdr.bytes, bytes16] using (hbyte 1 (by decide)).symm)
  · exact load16_eq hdest
      (by simpa [WxTcpHdr.bytes, bytes16] using (hbyte 2 (by decide)).symm)
      (by simpa [WxTcpHdr.bytes, bytes16] using (hbyte 3 (by decide)).symm)

theorem tcpHeader_withSyn (s : NetState) (buf : BufSlot) (srcPort destPort : Nat) :
    let header := (s.withSyn srcPort destPort).tcpHeader buf
    header.syn = true ∧ header.ack = false ∧ header.srcPort = wxHtons srcPort ∧
      header.destPort = wxHtons destPort :=
  load_tcpHdr (h := synHeader srcPort destPort) (slice_overwrite_same _ 0 _) (wxHtons_lt srcPort)
    (wxHtons_lt destPort)

/-- A port is open exactly when a socket listens on it. -/
theorem portOpen_iff {port : Nat} (hport : port < 65536) {s : NetState}
    (hfree : FreeTcb s.tcpSockets) : PortOpen port s ↔ HasListener port s.tcpSockets := by
  constructor
  · intro hopen
    rcases exists_unrecordedPort s.tcpSockets with ⟨p, hp, hunrecorded⟩
    -- a `SYN` from a port that nobody is connected from, in an otherwise empty stack
    let u : NetState :=
      { NetState.zero.withSyn p port with tcpSockets := s.tcpSockets }
    have hroom : u.freeSlot.isSome :=
      Option.isSome_iff_ne_none.2 (freeSlot_ne_none.2 ⟨0, rfl⟩)
    rcases tcpHeader_withSyn NetState.zero 0 p port with ⟨hsyn, hack, hsrc, hdest⟩
    have hto : SynTo port u 0 :=
      ⟨hsyn, hack, (congrArg wxHtons hdest).trans (wxHtons_wxHtons (by omega))⟩
    have hsrcPort : wxHtons (u.tcpHeader 0).srcPort = p :=
      (congrArg wxHtons hsrc).trans (wxHtons_wxHtons (by omega))
    let ipHdr : WxIpv4Hdr := WxIpv4Hdr.load fun _ => 0
    have hsame : SameSockets s u := rfl
    have hpeer : Unconnected port u.tcpSockets ipHdr.srcIp (wxHtons (u.tcpHeader 0).srcPort) := by
      intro i hi _ _ _ hrecorded
      exact absurd (hrecorded.trans hsrcPort) (hunrecorded i hi)
    have hanswers : AnswersSyn u 0 ipHdr := hopen u hsame hfree hroom 0 ipHdr hto hpeer
    cases haccepts : acceptsSyn u.tcpSockets (u.tcpHeader 0) ipHdr.srcIp with
    | none => exact absurd hanswers (not_answersSyn haccepts)
    | some i =>
        rcases hasListener_of_acceptsSyn haccepts with ⟨hi, hlistens⟩
        exact ⟨i, hi, hto.port ▸ hlistens⟩
  · intro hlistener u hsame _ hroom buf ipHdr hto hpeer
    rw [← show u.tcpSockets = s.tcpSockets from hsame] at hlistener
    rcases acceptsSyn_of_hasListener hto hpeer hlistener with ⟨i, haccepts⟩
    rcases Option.isSome_iff_exists.1 hroom with ⟨resp, hslot⟩
    exact answers_of_acceptsSyn hslot haccepts

/-! ## Traffic -/

/-- What happens after the port has been opened. -/
inductive Traffic
  | segment (buf : BufSlot) (ipHdr : WxIpv4Hdr)
  | other (t : NetState)

def Traffic.action : Traffic → TcpAction
  | .segment buf ipHdr => .segment buf ipHdr
  | .other t => .other t

def trafficStep (s : NetState) (x : Traffic) : Option NetState := tcpStep s x.action

/-- The last socket that listens on the port takes a `SYN` while other sockets are free. -/
def TakesLastListener (port : Nat) (s : NetState) (x : Traffic) : Prop :=
  FreeTcb s.tcpSockets ∧ ∃ i, opened s x.action = some i ∧
    (s.tcpSockets i).localPort = port ∧
    ∀ j < wxTcpMaxSocks, (s.tcpSockets j).ListensOn port → j = i

section Step

variable {s t : NetState} {x : Traffic} {port : Nat}

/-- A socket listens after a segment if it did before, and has not taken a `SYN`. -/
theorem traffic_change {tcb : WxTcpTcb} {i : Nat} (h : TcbChange s x.action i tcb) :
    tcb.used = (s.tcpSockets i).used ∧
      (tcb.ListensOn port ↔ (s.tcpSockets i).ListensOn port ∧ opened s x.action ≠ some i) := by
  cases h with
  | same hopen => exact ⟨rfl, (and_iff_left hopen).symm⟩
  | allocate state ha =>
      rcases ha with ⟨⟨d, t, p, ha⟩, _⟩ | ⟨ha, _⟩ <;> cases x <;> cases ha
  | bind _ _ ha => cases x <;> cases ha
  | listen _ ha => cases x <;> cases ha
  | halfOpen tcp srcIp hopen =>
      split <;> simp [WxTcpTcb.ListensOn, WxTcpTcb.halfOpen, WxTcpTcb.advanced, hopen]
  | establish _ hcomplete =>
      cases x with
      | segment buf ipHdr =>
          have hhalf : (s.tcpSockets i).state = 2 := (acceptsAck_eq_some.1 hcomplete).2.1
          simp [WxTcpTcb.ListensOn, hhalf]
      | other t => cases hcomplete

theorem freeTcb_step_iff (h : trafficStep s x = some t) :
    FreeTcb t.tcpSockets ↔ FreeTcb s.tcpSockets := by
  cases h
  have hused : ∀ i, ((x.action.run s).tcpSockets i).used = (s.tcpSockets i).used :=
    fun i => (@traffic_change s x 0 _ i (tcbChange s x.action i)).1
  exact exists_congr fun i => and_congr_right fun _ => by rw [hused i]

/-- The socket that takes a `SYN` listens on the port the `SYN` is for. -/
theorem opened_listener {i : Nat} (h : opened s x.action = some i) :
    i < wxTcpMaxSocks ∧ (s.tcpSockets i).ListensOn (s.tcpSockets i).localPort ∧
      (s.tcpSockets i).localPort < 65536 := by
  cases x with
  | segment buf ipHdr =>
      rcases hasListener_of_acceptsSyn h with ⟨hi, hlistens⟩
      have hlocal : (s.tcpSockets i).localPort = wxHtons (s.tcpHeader buf).destPort := hlistens.2.1
      exact ⟨hi, hlocal ▸ hlistens, hlocal ▸ wxHtons_lt _⟩
  | other t => cases h

/-- Some socket listens after the step exactly when it is not the last listening one that has taken a
`SYN`. -/
theorem hasListener_step_iff (h : trafficStep s x = some t)
    (hlistener : HasListener port s.tcpSockets) (hfree : FreeTcb s.tcpSockets) :
    HasListener port t.tcpSockets ↔ ¬ TakesLastListener port s x := by
  cases h
  have hafter : ∀ j, ((x.action.run s).tcpSockets j).ListensOn port ↔
      (s.tcpSockets j).ListensOn port ∧ opened s x.action ≠ some j :=
    fun j => (traffic_change (tcbChange s x.action j)).2
  constructor
  · rintro ⟨j, hj, hlistens⟩ ⟨_, i, hopen, _, hlast⟩
    rcases (hafter j).1 hlistens with ⟨hbefore, hother⟩
    exact hother ((hlast j hj hbefore) ▸ hopen)
  · intro hnot
    by_contra hnone
    -- without a listening socket after the step, the only one has taken the `SYN`
    have hgone : ∀ j < wxTcpMaxSocks, (s.tcpSockets j).ListensOn port →
        opened s x.action = some j := by
      intro j hj hbefore
      by_contra hother
      exact hnone ⟨j, hj, (hafter j).2 ⟨hbefore, hother⟩⟩
    rcases hlistener with ⟨i, hi, hlistens⟩
    have hopen : opened s x.action = some i := hgone i hi hlistens
    refine hnot ⟨hfree, i, hopen, hlistens.2.1, fun j hj hbefore => ?_⟩
    exact Option.some.inj ((hgone j hj hbefore).symm.trans hopen)

/-- A port number that no header can carry is open whatever happens. -/
theorem portOpen_of_large (hport : 65536 ≤ port) (s : NetState) : PortOpen port s := by
  intro u _ _ _ buf ipHdr hto _
  have hlt : wxHtons (u.tcpHeader buf).destPort < 65536 := wxHtons_lt _
  have hdest : wxHtons (u.tcpHeader buf).destPort = port := hto.port
  omega

/-- Without a free socket nothing is asked. -/
theorem portOpen_of_full (hfull : ¬ FreeTcb s.tcpSockets) : PortOpen port s := by
  intro u hsame hfree
  have hsockets : u.tcpSockets = s.tcpSockets := hsame
  exact absurd (hsockets ▸ hfree) hfull

/-- A step leaves an open port open exactly when it is not the last listening socket that takes a
`SYN`. -/
theorem portOpen_step_iff (hopen : PortOpen port s) (h : trafficStep s x = some t) :
    PortOpen port t ↔ ¬ TakesLastListener port s x := by
  by_cases hfree : FreeTcb s.tcpSockets
  · by_cases hport : port < 65536
    · rw [portOpen_iff hport hfree] at hopen
      rw [portOpen_iff hport ((freeTcb_step_iff h).2 hfree)]
      exact hasListener_step_iff h hopen hfree
    · refine iff_of_true (portOpen_of_large (by omega) t) ?_
      rintro ⟨_, i, htaken, hlocal, _⟩
      have hlt : (s.tcpSockets i).localPort < 65536 := (opened_listener htaken).2.2
      omega
  · refine iff_of_true (portOpen_of_full fun hafter => hfree ((freeTcb_step_iff h).1 hafter)) ?_
    exact fun htakes => hfree htakes.1

end Step

/-! ## Opening a port -/

/-- The calls with which `internetmain` opens its port. -/
def listenOn (port : Nat) : NetM Int := do
  let srvSock ← wxSocket 2 1 6
  discard (wxBind srvSock port)
  discard (wxListen srvSock)
  pure srvSock

/-- A socket was free, and now listens on the port. -/
theorem hasListener_listenOn {port : Nat} {s : NetState} (h : 0 ≤ (listenOn port s).1) :
    HasListener port (listenOn port s).2.tcpSockets := by
  rcases wxSocket_eq 2 1 6 s with heq | ⟨i, hi, _, heq⟩
  · -- without a socket the calls fail
    have hfailed : (listenOn port s).1 = -1 := by
      unfold listenOn
      simp only [bind_apply, heq]
      rfl
    omega
  · generalize hsocket : s.setTcb i { s.tcpSockets i with used := true, state := 0 } = t at heq
    have hused : (t.tcpSockets i).used = true := by
      rw [← hsocket]
      simp [NetState.setTcb]
    have hopen : ∀ u : NetState, (u.tcpSockets i).used = true → openSocket u i = some i := by
      intro u hu
      have hrange : ¬ ((i : Int) < 0 ∨ (i : Int) ≥ wxTcpMaxSocks ∨
          (u.tcpSockets (i : Int).toNat).used = false) := by
        rintro (hneg | hlarge | hunused)
        · omega
        · omega
        · rw [Int.toNat_natCast] at hunused
          exact absurd (hu.symm.trans hunused) (by decide)
      unfold openSocket
      rw [if_neg hrange, Int.toNat_natCast]
    -- the socket after each of the two calls
    let bound : NetState := t.setTcb i { t.tcpSockets i with localPort := port }
    have hbound : bound.tcpSockets i = { t.tcpSockets i with localPort := port } :=
      Function.update_self i _ t.tcpSockets
    have hbind : wxBind i port t = (0, bound) := by
      rw [wxBind_eq, hopen t hused]
    have hlisten : wxListen i bound =
        (0, bound.setTcb i { bound.tcpSockets i with state := 1 }) := by
      rw [wxListen_eq, hopen bound (by rw [hbound]; exact hused)]
    have hend : (listenOn port s).2 = bound.setTcb i { bound.tcpSockets i with state := 1 } := by
      unfold listenOn
      rw [bind_apply, heq]
      dsimp only
      rw [bind_apply, discard_apply, hbind]
      dsimp only
      rw [bind_apply, discard_apply, hlisten]
      rfl
    refine ⟨i, hi, ?_⟩
    rw [hend]
    simp [NetState.setTcb, WxTcpTcb.ListensOn, hbound, hused]

/-- After `wx_socket`, `wx_bind` and `wx_listen` the port stays open exactly as long as the last
socket that listens on it takes no `SYN`. -/
theorem portOpen_run_iff {port : Nat} {s : NetState} (hsock : 0 ≤ (listenOn port s).1)
    (xs : List Traffic) :
    AllStates trafficStep (PortOpen port) (listenOn port s).2 xs ↔
      AllSteps trafficStep (fun s x => ¬ TakesLastListener port s x) (listenOn port s).2 xs := by
  refine allStates_iff_allSteps (J := fun _ => True) (fun _ _ _ _ _ => trivial) ?_ trivial ?_
  · intro s x t _ hopen h
    exact portOpen_step_iff hopen h
  · by_cases hfree : FreeTcb (listenOn port s).2.tcpSockets
    · by_cases hport : port < 65536
      · exact (portOpen_iff hport hfree).2 (hasListener_listenOn hsock)
      · exact portOpen_of_large (by omega) _
    · exact portOpen_of_full hfree

/-- A `SYN` from port 1024 to port 80 gets into the buffers, and from there to `wx_tcp_process`. -/
def firstPeer : List Traffic :=
  [.other (NetState.zero.withSyn 1024 80),
    .segment 0 { WxIpv4Hdr.load (fun _ => 0) with srcIp := ![10, 0, 0, 1] }]

/-- Port 80 of a machine that has just started, and its first peer. -/
theorem portOpen_run_iff_web :
    0 ≤ (listenOn 80 (NetState.boot 0 0)).1 ∧
      (AllStates trafficStep (PortOpen 80) (listenOn 80 (NetState.boot 0 0)).2 firstPeer ↔
        AllSteps trafficStep (fun s x => ¬ TakesLastListener 80 s x)
          (listenOn 80 (NetState.boot 0 0)).2 firstPeer) := by
  have hsock : 0 ≤ (listenOn 80 (NetState.boot 0 0)).1 := by decide +kernel
  exact ⟨hsock, portOpen_run_iff hsock firstPeer⟩

/-- The first peer is the last: no socket listens on port 80 any more. -/
theorem portOpen_run_false :
    ¬ ∀ (port : Nat) (s : NetState), 0 ≤ (listenOn port s).1 → ∀ xs,
      AllStates trafficStep (PortOpen port) (listenOn port s).2 xs := by
  intro h
  have hsock : 0 ≤ (listenOn 80 (NetState.boot 0 0)).1 := by decide +kernel
  have hrun : (exec trafficStep (listenOn 80 (NetState.boot 0 0)).2 firstPeer).any
        (fun t => !(t.tcpSockets 1).used &&
          (List.range wxTcpMaxSocks).all fun i => !decide ((t.tcpSockets i).ListensOn 80)) =
        true := by
    decide +kernel
  rcases exists_of_exec_any hrun with ⟨t, hexec, ht⟩
  simp only [Bool.and_eq_true, Bool.not_eq_true', List.all_eq_true, decide_eq_false_iff_not] at ht
  have hfree : FreeTcb t.tcpSockets := ⟨1, by decide, ht.1⟩
  have hopen : PortOpen 80 t := (h 80 _ hsock _).last hexec
  rcases (portOpen_iff (by decide) hfree).1 hopen with ⟨i, hi, hlistens⟩
  exact ht.2 i (List.mem_range.2 hi) hlistens

end Net
end WhitexKernel
