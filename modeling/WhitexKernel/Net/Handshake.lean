import WhitexKernel.Net.Sockets

/-!
# Handshake — how a connection gets established

`Connections` adds to the stack what has happened to each socket since `wx_listen` was last called
for it; no step reads this history.  `Track` lists the histories that can lead to each state of a
socket, and is kept by every action.  Two of them bring a socket to state 3 without a handshake: one
starts in `wx_pkg_listen`, the other in a `SYN` for whose answer there was no buffer.
-/

namespace WhitexKernel
namespace Net

open Lib Lib.Stateful Machine

/-! ## History -/

inductive TcpEvent
  | listen
  /-- A `SYN` from this peer was taken. -/
  | syn (ip : WxIpv4) (port : Nat)
  /-- An `ACK` from this peer completed the connection. -/
  | ack (ip : WxIpv4) (port ackNum : Nat)

/-- What a segment is to the socket it opens or completes. -/
def segmentEvent (s : NetState) (buf : BufSlot) (ipHdr : WxIpv4Hdr) : Option (Nat × TcpEvent) :=
  let tcp := s.tcpHeader buf
  match opened s (.segment buf ipHdr), completed s (.segment buf ipHdr) with
  | some i, _ => some (i, .syn ipHdr.srcIp (wxHtons tcp.srcPort))
  | none, some i => some (i, .ack ipHdr.srcIp (wxHtons tcp.srcPort) (wxHtonl tcp.ackNum))
  | none, none => none

/-- The socket an action happens to, and what happens to it. -/
def tcpEvent (s : NetState) (a : TcpAction) : Option (Nat × TcpEvent) :=
  match a with
  | .listen _ => (listened s a).map fun i => (i, .listen)
  | .segment buf ipHdr => segmentEvent s buf ipHdr
  | _ => none

/-- A history begins again with `wx_listen`. -/
def noted (history : List TcpEvent) : TcpEvent → List TcpEvent
  | .listen => [.listen]
  | event => history ++ [event]

structure Connections where
  net : NetState
  history : Nat → List TcpEvent

namespace Connections

def record (s : Connections) (a : TcpAction) : Nat → List TcpEvent :=
  match tcpEvent s.net a with
  | none => s.history
  | some (i, event) => Function.update s.history i (noted (s.history i) event)

/-- Every action returns. -/
def step (s : Connections) (a : TcpAction) : Option Connections :=
  some { net := a.run s.net, history := s.record a }

/-- The state after `wx_tcp_init`. -/
def start (s : NetState) : Connections :=
  { net := (wxTcpInit s).2
    history := fun _ => [] }

end Connections

/-! ## Which socket a segment is for -/

section Segment

variable {s : NetState} {a : TcpAction} {i : Nat}

theorem opened_spec (h : opened s a = some i) :
    (s.tcpSockets i).used = true ∧ (s.tcpSockets i).state = 1 := by
  cases a with
  | segment buf ipHdr =>
      rcases acceptsSyn_eq_some.1 h with ⟨hfor, hstate, _⟩
      exact ⟨(tcbFor_eq_some hfor).used, hstate⟩
  | _ => cases h

/-- Only the recorded peer completes a connection. -/
theorem completed_spec {buf : BufSlot} {ipHdr : WxIpv4Hdr}
    (h : completed s (.segment buf ipHdr) = some i) :
    (s.tcpSockets i).used = true ∧ (s.tcpSockets i).state = 2 ∧
      (s.tcpSockets i).remoteIp = ipHdr.srcIp ∧
      (s.tcpSockets i).remotePort = wxHtons (s.tcpHeader buf).srcPort ∧
      (s.tcpSockets i).sndNxt = wxHtonl (s.tcpHeader buf).ackNum := by
  rcases acceptsAck_eq_some.1 h with ⟨hfor, hstate, _, hack⟩
  have hmatch := tcbFor_eq_some hfor
  rcases hmatch.peer with ⟨hport, hip⟩ | hlisten
  · exact ⟨hmatch.used, hstate, hip, hport, hack.symm⟩
  · omega

end Segment

/-- A segment does not both open a socket and complete one. -/
theorem completed_eq_none (h : opened s a = some i) : completed s a = none := by
  cases a with
  | segment buf ipHdr =>
      rw [Option.eq_none_iff_forall_ne_some]
      intro j hj
      rcases acceptsSyn_eq_some.1 h with ⟨hfor, hlistening, _⟩
      rcases acceptsAck_eq_some.1 hj with ⟨hfor', hhalf, _⟩
      have hsame : i = j := Option.some.inj (hfor.symm.trans hfor')
      subst hsame
      omega
  | _ => rfl

/-- A socket is established from the state before, or by the action. -/
theorem TcbChange.established {tcb : WxTcpTcb} (h : TcbChange s a i tcb) (hstate : tcb.state = 3) :
    ((s.tcpSockets i).state = 3 ∨ completed s a = some i) ∧
      tcb.sndNxt = (s.tcpSockets i).sndNxt := by
  cases h with
  | same _ => exact ⟨.inl hstate, rfl⟩
  | allocate state ha =>
      have hthree : state = 3 := hstate
      rcases ha with ⟨_, rfl⟩ | ⟨_, rfl⟩ <;> omega
  | bind _ _ _ => exact ⟨.inl hstate, rfl⟩
  | listen _ _ => cases hstate
  | halfOpen _ _ _ => split at hstate <;> cases hstate
  | establish _ hcomplete => exact ⟨.inr hcomplete, rfl⟩

theorem TcbChange.completes {tcb : WxTcpTcb} (h : TcbChange s a i tcb)
    (hcomplete : completed s a = some i) :
    tcb.sndNxt = (s.tcpSockets i).sndNxt := by
  cases h with
  | same _ => rfl
  | allocate _ _ => rfl
  | bind _ _ _ => rfl
  | listen _ _ => rfl
  | halfOpen _ _ hopen =>
      rw [completed_eq_none hopen] at hcomplete
      cases hcomplete
  | establish _ _ => rfl

/-- The socket that an `ACK` completes is established. -/
theorem completed_established (h : completed s a = some i) :
    ((a.run s).tcpSockets i).state = 3 := by
  cases a with
  | segment buf ipHdr =>
      have hopen : opened s (.segment buf ipHdr) = none := by
        rw [Option.eq_none_iff_forall_ne_some]
        intro j hj
        rw [completed_eq_none hj] at h
        cases h
      rw [TcpAction.run, sockets_wxTcpProcess]
      unfold segmentSockets
      rw [show acceptsSyn _ _ _ = none from hopen, show acceptsAck _ _ _ = some i from h]
      simp
  | _ => cases h

/-! ## The histories of a socket -/

/-- The histories of a socket in each state. -/
inductive Track (tcb : WxTcpTcb) : List TcpEvent → Prop
  | idle (hstate : tcb.state = 0) (hseq : tcb.sndNxt = 0) : Track tcb []
  | listening (hstate : tcb.state = 1) : Track tcb [.listen]
  /-- `snd_nxt` is still the initial number when there was no buffer for the answer. -/
  | halfOpen (hstate : tcb.state = 2)
      (hseq : tcb.sndNxt = initialSeq ∨ tcb.sndNxt = initialSeq + 1) :
      Track tcb [.listen, .syn tcb.remoteIp tcb.remotePort]
  | established (hstate : tcb.state = 3)
      (hseq : tcb.sndNxt = initialSeq ∨ tcb.sndNxt = initialSeq + 1) :
      Track tcb [.listen, .syn tcb.remoteIp tcb.remotePort,
        .ack tcb.remoteIp tcb.remotePort tcb.sndNxt]
  /-- `wx_pkg_listen` has put the socket in state 2. -/
  | pkgHalfOpen (hstate : tcb.state = 2) (hseq : tcb.sndNxt = 0) : Track tcb []
  | pkgEstablished (hstate : tcb.state = 3) (hseq : tcb.sndNxt = 0) :
      Track tcb [.ack tcb.remoteIp tcb.remotePort tcb.sndNxt]

namespace Track

variable {tcb : WxTcpTcb} {history : List TcpEvent}

theorem of_idle (h : Track tcb history) (hstate : tcb.state = 0) :
    history = [] ∧ tcb.sndNxt = 0 := by
  cases h with
  | idle _ hseq => exact ⟨rfl, hseq⟩
  | listening hother => omega
  | halfOpen hother _ => omega
  | established hother _ => omega
  | pkgHalfOpen hother _ => omega
  | pkgEstablished hother _ => omega

theorem of_listening (h : Track tcb history) (hstate : tcb.state = 1) : history = [.listen] := by
  cases h with
  | listening _ => rfl
  | idle hother _ => omega
  | halfOpen hother _ => omega
  | established hother _ => omega
  | pkgHalfOpen hother _ => omega
  | pkgEstablished hother _ => omega

/-- A half-open socket has taken a `SYN`, or comes from `wx_pkg_listen`. -/
theorem of_halfOpen (h : Track tcb history) (hstate : tcb.state = 2) :
    history = [.listen, .syn tcb.remoteIp tcb.remotePort] ∧
        (tcb.sndNxt = initialSeq ∨ tcb.sndNxt = initialSeq + 1) ∨
      history = [] ∧ tcb.sndNxt = 0 := by
  cases h with
  | halfOpen _ hseq => exact .inl ⟨rfl, hseq⟩
  | pkgHalfOpen _ hseq => exact .inr ⟨rfl, hseq⟩
  | idle hother _ => omega
  | listening hother => omega
  | established hother _ => omega
  | pkgEstablished hother _ => omega

/-- The local port has no part in it. -/
theorem bind (h : Track tcb history) (port : Nat) :
    Track { tcb with localPort := port } history := by
  cases h with
  | idle hstate hseq => exact .idle hstate hseq
  | listening hstate => exact .listening hstate
  | halfOpen hstate hseq => exact .halfOpen hstate hseq
  | established hstate hseq => exact .established hstate hseq
  | pkgHalfOpen hstate hseq => exact .pkgHalfOpen hstate hseq
  | pkgEstablished hstate hseq => exact .pkgEstablished hstate hseq

end Track

/-- The history of a handshake with the recorded peer. -/
def handshake (tcb : WxTcpTcb) : List TcpEvent :=
  [.listen, .syn tcb.remoteIp tcb.remotePort, .ack tcb.remoteIp tcb.remotePort (initialSeq + 1)]

/-- An established socket has had its handshake if its `SYN` was answered. -/
theorem Track.handshake_iff {tcb : WxTcpTcb} {history : List TcpEvent} (h : Track tcb history)
    (hstate : tcb.state = 3) :
    (handshake tcb).Sublist history ↔ tcb.sndNxt = initialSeq + 1 := by
  cases h with
  | established _ _ =>
      constructor
      · intro hsub
        -- sublists of the same length are equal, so the acknowledged numbers agree
        have heq := hsub.eq_of_length rfl
        simp only [handshake, List.cons.injEq, TcpEvent.ack.injEq] at heq
        exact heq.2.2.1.2.2.symm
      · intro hseq
        rw [handshake, hseq]
  | pkgEstablished _ hseq =>
      constructor
      · intro hsub
        -- without a `SYN` the history is too short
        have hlen := hsub.length_le
        simp [handshake] at hlen
      · intro hanswered
        simp [hseq, initialSeq] at hanswered
  | idle hother _ => omega
  | listening hother => omega
  | halfOpen hother _ => omega
  | pkgHalfOpen hother _ => omega

/-- The socket `tcb` has this history, and is idle as long as it is not used. -/
structure TrackedTcb (tcb : WxTcpTcb) (history : List TcpEvent) : Prop where
  track : Track tcb history
  unused : tcb.used = false → tcb.state = 0

def Tracked (s : Connections) : Prop := ∀ i, TrackedTcb (s.net.tcpSockets i) (s.history i)

theorem tracked_start (s : NetState) : Tracked (Connections.start s) :=
  fun _ => ⟨.idle rfl rfl, fun _ => rfl⟩

/-- A change of one socket and its history. -/
theorem Tracked.update {s : Connections} (hs : Tracked s) {i : Nat} {tcb : WxTcpTcb}
    {history : List TcpEvent} (h : TrackedTcb tcb history) (j : Nat) :
    TrackedTcb (Function.update s.net.tcpSockets i tcb j)
      (Function.update s.history i history j) := by
  by_cases hj : j = i
  · subst hj
    simpa using h
  · simpa [hj] using hs j

/-- An action without an event changes no history. -/
theorem record_none {s : Connections} {a : TcpAction} (h : tcpEvent s.net a = none) (i : Nat) :
    s.record a = Function.update s.history i (s.history i) := by
  simp [Connections.record, h]

theorem record_some {s : Connections} {a : TcpAction} {i : Nat} {event : TcpEvent}
    (h : tcpEvent s.net a = some (i, event)) :
    s.record a = Function.update s.history i (noted (s.history i) event) := by
  simp [Connections.record, h]

theorem tcpEvent_none {s : NetState} {a : TcpAction} (hlisten : listened s a = none)
    (hopen : opened s a = none) (hcomplete : completed s a = none) : tcpEvent s a = none := by
  cases a with
  | listen sockfd => simp only [tcpEvent, hlisten, Option.map_none]
  | segment buf ipHdr =>
      change segmentEvent s buf ipHdr = none
      unfold segmentEvent
      rw [hopen, hcomplete]
  | _ => rfl

/-- What the sockets become, tracked. -/
theorem Tracked.change {s : Connections} (hs : Tracked s) {a : TcpAction}
    {sockets : Nat → WxTcpTcb} (h : SocketChange s.net a sockets) (j : Nat) :
    TrackedTcb (sockets j) (s.record a j) := by
  cases h with
  | none _ hlisten hopen hcomplete =>
      rw [record_none (tcpEvent_none hlisten hopen hcomplete) j, Function.update_eq_self]
      exact hs j
  | allocate _ i state hfree ha =>
      have hevent : tcpEvent s.net a = none := by
        rcases ha with ⟨⟨d, t, p, rfl⟩, _⟩ | ⟨rfl, _⟩ <;> rfl
      rw [record_none hevent i]
      -- a socket that is not used has no history, and has never sent anything
      have hidle : (s.net.tcpSockets i).state = 0 := (hs i).unused hfree
      rcases (hs i).track.of_idle hidle with ⟨hhistory, hseq⟩
      refine hs.update ⟨?_, fun hunused => by cases hunused⟩ j
      rw [hhistory]
      rcases ha with ⟨_, rfl⟩ | ⟨_, rfl⟩
      · exact .idle rfl hseq
      · exact .pkgHalfOpen rfl hseq
  | bind sockfd port i hused =>
      have hevent : tcpEvent s.net (.bind sockfd port) = none := rfl
      have hbound : TrackedTcb { s.net.tcpSockets i with localPort := port } (s.history i) :=
        ⟨(hs i).track.bind port, (hs i).unused⟩
      rw [record_none hevent i]
      exact hs.update hbound j
  | listen sockfd i hlisten hused =>
      have hevent : tcpEvent s.net (.listen sockfd) = some (i, .listen) := by
        simp only [tcpEvent, hlisten, Option.map_some]
      rw [record_some hevent]
      refine hs.update ⟨.listening rfl, fun hunused => ?_⟩ j
      exact absurd (hused.symm.trans hunused) (by decide)
  | halfOpen buf ipHdr i hopen =>
      have hevent : tcpEvent s.net (.segment buf ipHdr) =
          some (i, .syn ipHdr.srcIp (wxHtons (s.net.tcpHeader buf).srcPort)) := by
        change segmentEvent s.net buf ipHdr = _
        unfold segmentEvent
        rw [hopen]
      rcases opened_spec hopen with ⟨hused, hlistening⟩
      have hstill : (s.net.tcpSockets i).used = false → 2 = 0 :=
        fun hunused => absurd (hused.symm.trans hunused) (by decide)
      rw [record_some hevent, (hs i).track.of_listening hlistening]
      refine hs.update ?_ j
      -- `snd_nxt` goes on only if there was a buffer for the answer
      split
      · exact ⟨.halfOpen rfl (.inr rfl), hstill⟩
      · exact ⟨.halfOpen rfl (.inl rfl), hstill⟩
  | establish buf ipHdr i hopen hcomplete =>
      have hevent : tcpEvent s.net (.segment buf ipHdr) = some (i, .ack ipHdr.srcIp
          (wxHtons (s.net.tcpHeader buf).srcPort) (wxHtonl (s.net.tcpHeader buf).ackNum)) := by
        change segmentEvent s.net buf ipHdr = _
        unfold segmentEvent
        rw [hopen, hcomplete]
      rcases completed_spec hcomplete with ⟨hused, hhalf, hip, hport, hack⟩
      rw [record_some hevent, ← hip, ← hport, ← hack]
      have hdone : TrackedTcb { s.net.tcpSockets i with state := 3 }
          (noted (s.history i) (.ack (s.net.tcpSockets i).remoteIp (s.net.tcpSockets i).remotePort
            (s.net.tcpSockets i).sndNxt)) := by
        refine ⟨?_, fun hunused => absurd (hused.symm.trans hunused) (by decide)⟩
        rcases (hs i).track.of_halfOpen hhalf with ⟨hhistory, hseq⟩ | ⟨hhistory, hseq⟩
        · rw [hhistory]
          exact .established rfl hseq
        · rw [hhistory]
          exact .pkgEstablished rfl hseq
      exact hs.update hdone j

theorem Tracked.step {s t : Connections} {a : TcpAction} (hs : Tracked s)
    (h : s.step a = some t) : Tracked t := by
  cases h
  exact hs.change (socketChange s.net a)

/-! ## Safety -/

/-- Every established socket has had a handshake with the peer it records since `wx_listen` was
last called for it. -/
def HandshakeSafe (s : Connections) : Prop :=
  ∀ i, (s.net.tcpSockets i).state = 3 →
    (handshake (s.net.tcpSockets i)).Sublist (s.history i)

/-- The peer of a half-open socket completes it although no `SYN-ACK` has gone out for it. -/
def CompletesUnanswered (s : Connections) (a : TcpAction) : Prop :=
  ∃ i, completed s.net a = some i ∧ (s.net.tcpSockets i).sndNxt ≠ initialSeq + 1

theorem Tracked.safe_iff {s : Connections} (hs : Tracked s) :
    HandshakeSafe s ↔
      ∀ i, (s.net.tcpSockets i).state = 3 → (s.net.tcpSockets i).sndNxt = initialSeq + 1 :=
  forall_congr' fun i => forall_congr' fun hstate => (hs i).track.handshake_iff hstate

/-- One action keeps the connections safe exactly when it does not complete an unanswered one. -/
theorem handshakeSafe_step_iff {s t : Connections} {a : TcpAction} (hs : Tracked s)
    (hsafe : HandshakeSafe s) (h : s.step a = some t) :
    HandshakeSafe t ↔ ¬ CompletesUnanswered s a := by
  have ht : Tracked t := hs.step h
  rw [hs.safe_iff] at hsafe
  rw [ht.safe_iff]
  cases h
  constructor
  · rintro hafter ⟨i, hcomplete, hunanswered⟩
    have hseq := (tcbChange s.net a i).completes hcomplete
    exact hunanswered (hseq.symm.trans (hafter i (completed_established hcomplete)))
  · intro hanswered i hstate
    -- a socket that is established now was so before, or has just been completed
    rcases (tcbChange s.net a i).established hstate with ⟨hbefore | hcomplete, hseq⟩
    · exact hseq.trans (hsafe i hbefore)
    · by_contra hne
      exact hanswered ⟨i, hcomplete, fun heq => hne (hseq.trans heq)⟩

/-- Every socket that is half open or established has sent its `SYN-ACK`. -/
def Answered (s : Connections) : Prop :=
  ∀ i, (s.net.tcpSockets i).state = 2 ∨ (s.net.tcpSockets i).state = 3 →
    (s.net.tcpSockets i).sndNxt = initialSeq + 1

/-- The action is not `wx_pkg_listen`, and a `SYN` it takes finds a buffer for its answer. -/
def AnswersSyns (s : Connections) (a : TcpAction) : Prop :=
  a ≠ .pkgListen ∧ ((opened s.net a).isSome → s.net.freeSlot.isSome)

theorem Answered.step {s t : Connections} {a : TcpAction} (hs : Answered s)
    (ha : AnswersSyns s a) (h : s.step a = some t) : Answered t := by
  cases h
  intro i hstate
  have hchange : TcbChange s.net a i ((a.run s.net).tcpSockets i) := tcbChange s.net a i
  change ((a.run s.net).tcpSockets i).state = 2 ∨ ((a.run s.net).tcpSockets i).state = 3 at hstate
  change ((a.run s.net).tcpSockets i).sndNxt = initialSeq + 1
  generalize (a.run s.net).tcpSockets i = tcb at hchange hstate
  -- only a `SYN` leads to state 2, and it draws the number while it is answered
  cases hchange with
  | same _ => exact hs i hstate
  | allocate state hkind =>
      rcases hkind with ⟨_, rfl⟩ | ⟨rfl, _⟩
      · rcases hstate with hstate | hstate <;> cases hstate
      · exact absurd rfl ha.1
  | bind _ _ _ => exact hs i hstate
  | listen _ _ => rcases hstate with hstate | hstate <;> cases hstate
  | halfOpen _ _ hopen =>
      have hroom : s.net.freeSlot.isSome := ha.2 (by rw [hopen]; rfl)
      rw [if_pos hroom]
      rfl
  | establish hopen hcomplete =>
      cases a with
      | segment buf ipHdr => exact hs i (.inl (completed_spec hcomplete).2.1)
      | _ => cases hcomplete

/-- Without `wx_pkg_listen`, and with a buffer for every answer, connections are safe. -/
theorem handshakeSafe_of_answersSyns {s : NetState} {as : List TcpAction}
    (h : AllSteps Connections.step AnswersSyns (Connections.start s) as) :
    AllStates Connections.step HandshakeSafe (Connections.start s) as := by
  have hboth : AllStates Connections.step (fun s => Tracked s ∧ Answered s)
      (Connections.start s) as := by
    refine allStates_of_allSteps ?_ ⟨tracked_start s, ?_⟩ h
    · rintro s a t ⟨htracked, hanswered⟩ ha hstep
      exact ⟨htracked.step hstep, hanswered.step ha hstep⟩
    · intro i hstate
      rcases hstate with hstate | hstate <;> cases hstate
  refine hboth.mono fun s hs => hs.1.safe_iff.2 fun i hstate => hs.2 i (.inr hstate)

/-- In every run after `wx_tcp_init`, established sockets have had their handshake exactly as long as
no peer completes a half-open socket that has sent no `SYN-ACK`. -/
theorem handshakeSafe_run_iff (s : NetState) (as : List TcpAction) :
    AllStates Connections.step HandshakeSafe (Connections.start s) as ↔
      AllSteps Connections.step (fun s a => ¬ CompletesUnanswered s a)
        (Connections.start s) as := by
  refine allStates_iff_allSteps (J := Tracked) ?_ ?_ (tracked_start s) ?_
  · intro s a t hs h
    exact hs.step h
  · intro s a t hs hsafe h
    exact handshakeSafe_step_iff hs hsafe h
  · intro i hstate
    cases hstate

/-- A packet of zero bytes, but for the `ACK` flag. -/
def bareAck : NetState :=
  { NetState.zero with
    bufPool := fun _ =>
      { WxNetBuf.zero with buffer := fun i => if i = 13 then 16 else 0 } }

/-- After `wx_pkg_listen`, an `ACK` of 0 from port 0 of the address 0.0.0.0 is all it takes. -/
theorem handshakeSafe_run_false :
    ¬ ∀ (s : NetState) (as : List TcpAction),
      AllStates Connections.step HandshakeSafe (Connections.start s) as := by
  intro h
  have hrun : (exec Connections.step (Connections.start NetState.zero)
      [.pkgListen, .other bareAck, .segment 0 (WxIpv4Hdr.load fun _ => 0)]).any
        (fun t => decide ((t.net.tcpSockets 0).state = 3) &&
          decide ((t.history 0).length = 1)) = true := by
    decide +kernel
  rcases exists_of_exec_any hrun with ⟨t, hexec, ht⟩
  simp only [Bool.and_eq_true, decide_eq_true_eq] at ht
  have hsub : (handshake (t.net.tcpSockets 0)).Sublist (t.history 0) :=
    (h _ _).last hexec 0 ht.1
  have hlength : 3 ≤ (t.history 0).length := hsub.length_le
  omega

end Net
end WhitexKernel
