import Mathlib.Data.Fintype.Card
import WhitexKernel.Lib.Loans
import WhitexKernel.Net.System
import WhitexKernel.Net.Untouched

/-!
# Pool — every buffer is given back

What a call does to the slots of `buf_pool` is a history of loans.  `Balanced n` says that a call
takes slots and gives them all back, in loans at most `n` deep; `Releases n buf` says the same of a
call that, last of all, gives back the buffer it was given.  Each function of the stack is one or
the other.
-/

namespace WhitexKernel
namespace Net

open Lib Lib.Stateful Machine

/-! ## Histories of slots -/

/-- What happens to a slot, as a loan. -/
def PoolEvent.loan : PoolEvent → Loan BufSlot
  | .alloc buf => .taken buf
  | .free buf => .returned buf
  | .allocFailed => .refused

/-- Slots are taken and all given back. -/
def Balanced (n : Nat) (s t : NetState) : Prop :=
  ∃ events, t.poolEvents = s.poolEvents ++ events ∧ t.bufPoolUsed = s.bufPoolUsed ∧
    Nested n s.bufPoolUsed (events.map PoolEvent.loan)

/-- Slots are taken and all given back, and then `buf` is given back. -/
def Releases (n : Nat) (buf : BufSlot) (s t : NetState) : Prop :=
  ∃ events, t.poolEvents = s.poolEvents ++ (events ++ [.free buf]) ∧
    t.bufPoolUsed = Function.update s.bufPoolUsed buf false ∧
    Nested n s.bufPoolUsed (events.map PoolEvent.loan)

/-- Nothing happens to the slots. -/
def SamePool (s t : NetState) : Prop :=
  t.poolEvents = s.poolEvents ∧ t.bufPoolUsed = s.bufPoolUsed

namespace Balanced

variable {n m : Nat} {buf : BufSlot} {s t u : NetState}

theorem of_same (h : SamePool s t) : Balanced n s t :=
  ⟨[], by simpa using h.1, h.2, .nil _ _⟩

theorem trans (h : Balanced n s t) (h' : Balanced n t u) : Balanced n s u := by
  rcases h with ⟨xs, hxs, hused, hnested⟩
  rcases h' with ⟨ys, hys, hused', hnested'⟩
  refine ⟨xs ++ ys, by rw [hys, hxs, List.append_assoc], hused'.trans hused, ?_⟩
  rw [hused] at hnested'
  simpa using hnested.append hnested'

theorem mono (h : Balanced n s t) (hle : n ≤ m) : Balanced m s t := by
  rcases h with ⟨xs, hxs, hused, hnested⟩
  exact ⟨xs, hxs, hused, hnested.mono hle⟩

theorem releases (h : Balanced n s t) (h' : Releases n buf t u) : Releases n buf s u := by
  rcases h with ⟨xs, hxs, hused, hnested⟩
  rcases h' with ⟨ys, hys, hused', hnested'⟩
  refine ⟨xs ++ ys, by simp [hys, hxs], by rw [hused', hused], ?_⟩
  rw [hused] at hnested'
  simpa using hnested.append hnested'

/-- A slot that is taken, used and given back. -/
theorem of_taken {i : BufSlot} (hfree : s.bufPoolUsed i = false)
    (h : Releases n i (s.takeSlot i) t) : Balanced (n + 1) s t := by
  rcases h with ⟨xs, hxs, hused, hnested⟩
  refine ⟨.alloc i :: (xs ++ [.free i]), ?_, ?_, ?_⟩
  · simpa [NetState.takeSlot] using hxs
  · calc t.bufPoolUsed
        = Function.update (Function.update s.bufPoolUsed i true) i false := hused
      _ = s.bufPoolUsed := by rw [Function.update_idem, ← hfree, Function.update_eq_self]
  · simpa [PoolEvent.loan] using Nested.single hfree hnested

end Balanced

namespace Releases

variable {n m : Nat} {buf : BufSlot} {s t u : NetState}

theorem mono (h : Releases n buf s t) (hle : n ≤ m) : Releases m buf s t := by
  rcases h with ⟨xs, hxs, hused, hnested⟩
  exact ⟨xs, hxs, hused, hnested.mono hle⟩

theorem then_same (h : Releases n buf s t) (h' : SamePool t u) : Releases n buf s u := by
  rcases h with ⟨xs, hxs, hused, hnested⟩
  exact ⟨xs, h'.1.trans hxs, h'.2.trans hused, hnested⟩

theorem of_giveSlot (n : Nat) (s : NetState) (buf : BufSlot) : Releases n buf s (s.giveSlot buf) :=
  ⟨[], rfl, rfl, .nil _ _⟩

end Releases

/-- No slot is free when the search finds none. -/
theorem full_of_freeSlot {s : NetState} (h : s.freeSlot = none) (i : BufSlot) :
    s.bufPoolUsed i = true := by
  by_contra hi
  exact absurd h (freeSlot_ne_none.2 ⟨i, by simpa using hi⟩)

theorem buildingKeeps_balanced (n : Nat) : BuildingKeeps (Balanced n) where
  refl _ := .of_same ⟨rfl, rfl⟩
  trans _ _ _ := Balanced.trans
  fault _ _ := .of_same ⟨rfl, rfl⟩
  setBuf _ _ _ := .of_same ⟨rfl, rfl⟩

/-! ## Rules -/

section Rules

variable {α : Type} {n m : Nat} {buf : BufSlot}

theorem balanced_mono {f : NetM α} (h : Keeps (Balanced n) f) (hle : n ≤ m) :
    Keeps (Balanced m) f := fun s => wp_mono (h s) fun _ _ ht => ht.mono hle

theorem releases_mono {f : NetM α} (h : Keeps (Releases n buf) f) (hle : n ≤ m) :
    Keeps (Releases m buf) f := fun s => wp_mono (h s) fun _ _ ht => ht.mono hle

theorem releases_bind {f : NetM α} {g : α → NetM Unit} (hf : Keeps (Balanced n) f)
    (hg : ∀ a, Keeps (Releases n buf) (g a)) : Keeps (Releases n buf) (f >>= g) := by
  intro s
  rw [wp_bind]
  refine wp_mono (hf s) fun a t ht => ?_
  exact wp_mono (hg a t) fun _ _ hu => ht.releases hu

theorem releases_free : Keeps (Releases n buf) (wxNetBufFree buf) := by
  intro s
  rw [wp_wxNetBufFree]
  exact .of_giveSlot n s buf

/-- A buffer is asked for; who gets one gives it back. -/
theorem balanced_alloc {f : Option BufSlot → NetM Unit} (hnone : Keeps (Balanced (n + 1)) (f none))
    (hsome : ∀ buf, Keeps (Releases n buf) (f (some buf))) :
    Keeps (Balanced (n + 1)) (wxNetBufAlloc >>= f) := by
  intro s
  rw [wp_bind, wp_wxNetBufAlloc]
  refine ⟨fun hslot => ?_, fun i hslot => ?_⟩
  · have hrefused : Balanced (n + 1) s { s with poolEvents := s.poolEvents ++ [.allocFailed] } :=
      ⟨[.allocFailed], rfl, rfl, .refused (full_of_freeSlot hslot) (.nil _ _)⟩
    exact wp_mono (hnone _) fun _ _ ht => hrefused.trans ht
  · exact wp_mono (hsome i _) fun _ _ ht => .of_taken (freeSlot_some hslot) ht

end Rules

/-! ## Sending -/

theorem releases_wxE1000TxRaw (buf : BufSlot) : Keeps (Releases 0 buf) (wxE1000TxRaw buf) := by
  have hb := buildingKeeps_balanced 0
  refine releases_bind (keeps_get hb) fun s => ?_
  refine Keeps.ite releases_free ?_
  refine releases_bind (keeps_copyOut hb _ _ _ _) fun frame => ?_
  exact releases_bind (Keeps.of_modify fun s => .of_same ⟨rfl, rfl⟩) fun _ => releases_free

theorem balanced_sendArp (opcode : Nat) (targetMac : WxMac) (targetIp : WxIpv4) :
    Keeps (Balanced 1) (sendArp opcode targetMac targetIp) := by
  have hb := buildingKeeps_balanced 0
  refine balanced_alloc (keeps_pure (buildingKeeps_balanced 1) _) fun buf => ?_
  refine releases_bind (keeps_get hb) fun s => ?_
  refine releases_bind (keeps_wxNetBufReserve hb _ _) fun _ => ?_
  refine releases_bind (keeps_wxNetBufPush hb _ _) fun _ => ?_
  refine releases_bind (keeps_store hb _ _ _) fun _ => ?_
  refine releases_bind (keeps_wxNetBufPush hb _ _) fun _ => ?_
  refine releases_bind (keeps_store hb _ _ _) fun _ => ?_
  exact releases_wxE1000TxRaw buf

theorem releases_wxIpSend (buf : BufSlot) (destIp : WxIpv4) (proto : UInt8) :
    Keeps (Releases 1 buf) (wxIpSend buf destIp proto) := by
  have hb := buildingKeeps_balanced 1
  refine releases_bind (keeps_get hb) fun s => ?_
  dsimp only
  cases destMac s destIp with
  | none =>
      -- the request has a buffer of its own
      exact releases_bind (balanced_sendArp _ _ _) fun _ => releases_free
  | some dmac =>
      refine releases_bind (keeps_get hb) fun s => ?_
      refine releases_bind (keeps_wxNetBufPush hb _ _) fun _ => ?_
      refine releases_bind (keeps_get hb) fun s => ?_
      refine releases_bind (keeps_store hb _ _ _) fun _ => ?_
      refine releases_bind (keeps_bufferChecksum hb _ _ _) fun _ => ?_
      refine releases_bind (keeps_store hb _ _ _) fun _ => ?_
      refine releases_bind (keeps_wxNetBufPush hb _ _) fun _ => ?_
      refine releases_bind (keeps_store hb _ _ _) fun _ => ?_
      exact releases_mono (releases_wxE1000TxRaw buf) (Nat.zero_le 1)

theorem balanced_wxPingSend (targetIp : WxIpv4) (id seq : Nat) :
    Keeps (Balanced 2) (wxPingSend targetIp id seq) := by
  have hb := buildingKeeps_balanced 1
  refine balanced_alloc (keeps_pure (buildingKeeps_balanced 2) _) fun buf => ?_
  refine releases_bind (keeps_wxNetBufReserve hb _ _) fun _ => ?_
  refine releases_bind (keeps_wxNetBufPut hb _ _) fun _ => ?_
  refine releases_bind (keeps_store hb _ _ _) fun _ => ?_
  refine releases_bind (keeps_wxNetBufPush hb _ _) fun _ => ?_
  refine releases_bind (keeps_store hb _ _ _) fun _ => ?_
  refine releases_bind (keeps_bufferChecksum hb _ _ _) fun _ => ?_
  refine releases_bind (keeps_store hb _ _ _) fun _ => ?_
  exact releases_wxIpSend buf _ _

/-! ## Receiving -/

theorem balanced_wxIcmpReply (buf : BufSlot) (ipHdr : WxIpv4Hdr) (icmp : WxIcmpHdr) :
    Keeps (Balanced 2) (wxIcmpReply buf ipHdr icmp) := by
  have hb := buildingKeeps_balanced 1
  refine balanced_alloc (keeps_pure (buildingKeeps_balanced 2) _) fun rep => ?_
  refine releases_bind (keeps_wxNetBufReserve hb _ _) fun _ => ?_
  refine releases_bind (keeps_wxNetBufPut hb _ _) fun _ => ?_
  refine releases_bind (keeps_bufData hb _) fun _ => ?_
  refine releases_bind (keeps_copyBuf hb _ _ _ _ _) fun _ => ?_
  refine releases_bind (keeps_wxNetBufPush hb _ _) fun _ => ?_
  refine releases_bind (keeps_store hb _ _ _) fun _ => ?_
  refine releases_bind (keeps_bufferChecksum hb _ _ _) fun _ => ?_
  refine releases_bind (keeps_store hb _ _ _) fun _ => ?_
  exact releases_wxIpSend rep _ _

theorem balanced_wxTcpSendSynAck (i : Nat) : Keeps (Balanced 2) (wxTcpSendSynAck i) := by
  have hb := buildingKeeps_balanced 1
  refine balanced_alloc (keeps_pure (buildingKeeps_balanced 2) _) fun resp => ?_
  refine releases_bind (keeps_get hb) fun _ => ?_
  refine releases_bind (keeps_wxNetBufReserve hb _ _) fun _ => ?_
  refine releases_bind (keeps_wxNetBufPush hb _ _) fun _ => ?_
  refine releases_bind (keeps_store hb _ _ _) fun _ => ?_
  refine releases_bind (keeps_view hb _ _ _) fun _ => ?_
  refine releases_bind (keeps_store hb _ _ _) fun _ => ?_
  -- the sequence number is counted up when the buffer is gone already
  intro s
  rw [wp_bind]
  refine wp_mono (releases_wxIpSend resp _ _ s) fun _ t ht => ?_
  rw [wp_modify]
  exact ht.then_same ⟨rfl, rfl⟩

theorem balanced_wxTcpSegment (tcp : WxTcpHdr) (srcIp : WxIpv4) :
    Keeps (Balanced 2) (wxTcpSegment tcp srcIp) := by
  intro s
  unfold wxTcpSegment
  rw [wp_bind, wp_get]
  dsimp only
  split
  · rw [wp_pure]
    exact .of_same ⟨rfl, rfl⟩
  · split
    · rw [wp_bind, wp_set]
      refine wp_mono (balanced_wxTcpSendSynAck _ _) fun _ t ht => ?_
      exact Balanced.trans (.of_same ⟨rfl, rfl⟩) ht
    · rw [wp_whenever]
      refine ⟨fun _ => ?_, fun _ => .of_same ⟨rfl, rfl⟩⟩
      rw [wp_set]
      exact .of_same ⟨rfl, rfl⟩

section Receive

variable (buf : BufSlot)

theorem releases_wxArpProcess : Keeps (Releases 2 buf) (wxArpProcess buf) := by
  have hb := buildingKeeps_balanced 2
  refine releases_bind (keeps_bufData hb _) fun _ => ?_
  refine releases_bind (keeps_view hb _ _ _) fun _ => ?_
  refine Keeps.ite releases_free ?_
  refine releases_bind (Keeps.of_modify fun s => .of_same ⟨rfl, rfl⟩) fun _ => ?_
  refine releases_bind (keeps_get hb) fun _ => ?_
  refine releases_bind (Keeps.whenever hb.refl ?_) fun _ => releases_free
  exact balanced_mono (balanced_sendArp _ _ _) (by decide)

theorem releases_wxTcpProcess (ipHdr : WxIpv4Hdr) :
    Keeps (Releases 2 buf) (wxTcpProcess buf ipHdr) := by
  have hb := buildingKeeps_balanced 2
  refine releases_bind (keeps_bufData hb _) fun _ => ?_
  refine releases_bind (keeps_view hb _ _ _) fun _ => ?_
  exact releases_bind (balanced_wxTcpSegment _ _) fun _ => releases_free

theorem balanced_discard_pull (n len : Nat) :
    Keeps (Balanced n) (discard (wxNetBufPull buf len)) := by
  intro s
  rw [wp_discard]
  exact keeps_wxNetBufPull (buildingKeeps_balanced n) buf len s

theorem releases_wxUdpProcess : Keeps (Releases 2 buf) (wxUdpProcess buf) := by
  have hb := buildingKeeps_balanced 2
  refine releases_bind (keeps_bufData hb _) fun _ => ?_
  refine releases_bind (keeps_view hb _ _ _) fun _ => ?_
  exact releases_bind (Keeps.whenever hb.refl (balanced_discard_pull buf 2 _)) fun _ =>
    releases_free

theorem releases_wxIcmpProcess (ipHdr : WxIpv4Hdr) :
    Keeps (Releases 2 buf) (wxIcmpProcess buf ipHdr) := by
  have hb := buildingKeeps_balanced 2
  refine releases_bind (keeps_bufData hb _) fun _ => ?_
  refine releases_bind (keeps_view hb _ _ _) fun _ => ?_
  exact releases_bind (Keeps.whenever hb.refl (balanced_wxIcmpReply _ _ _)) fun _ => releases_free

theorem releases_wxIpProcess : Keeps (Releases 2 buf) (wxIpProcess buf) := by
  have hb := buildingKeeps_balanced 2
  refine releases_bind (keeps_bufData hb _) fun _ => ?_
  refine releases_bind (keeps_view hb _ _ _) fun _ => ?_
  refine Keeps.ite releases_free ?_
  refine releases_bind (keeps_get hb) fun _ => ?_
  refine Keeps.ite releases_free ?_
  refine releases_bind (balanced_discard_pull buf 2 _) fun _ => ?_
  refine Keeps.ite (releases_wxIcmpProcess buf _) ?_
  exact Keeps.ite (releases_wxTcpProcess buf _)
    (Keeps.ite (releases_wxUdpProcess buf) releases_free)

theorem releases_wxEthProcess : Keeps (Releases 2 buf) (wxEthProcess buf) := by
  have hb := buildingKeeps_balanced 2
  refine releases_bind (keeps_bufData hb _) fun _ => ?_
  refine releases_bind (keeps_view hb _ _ _) fun _ => ?_
  refine releases_bind (balanced_discard_pull buf 2 _) fun _ => ?_
  exact Keeps.ite (releases_wxArpProcess buf)
    (Keeps.ite (releases_wxIpProcess buf) releases_free)

end Receive

/-! ## One frame -/

/-- What happens to the slots after `s`: the loans `events`, and then `buf` is given back, for the
first and only time. -/
structure PacketReturned (buf : BufSlot) (s t : NetState) (events : List PoolEvent) : Prop where
  history : t.poolEvents = s.poolEvents ++ (events ++ [.free buf])
  used_eq : t.bufPoolUsed = Function.update s.bufPoolUsed buf false
  nested : Nested 2 s.bufPoolUsed (events.map PoolEvent.loan)
  not_taken : .alloc buf ∉ events
  not_freed : .free buf ∉ events

theorem Releases.packetReturned {s t : NetState} {buf : BufSlot}
    (hused : s.bufPoolUsed buf = true) (h : Releases 2 buf s t) :
    ∃ events, PacketReturned buf s t events := by
  rcases h with ⟨events, hevents, hafter, hnested⟩
  have huntouched := hnested.untouched hused
  refine ⟨events, hevents, hafter, hnested, fun htaken => ?_, fun hfreed => ?_⟩
  · exact huntouched.1 (List.mem_map.2 ⟨_, htaken, rfl⟩)
  · exact huntouched.2 (List.mem_map.2 ⟨_, hfreed, rfl⟩)

/-- The buffer of a frame is taken first and given back last; without a free slot the frame is
dropped. -/
def FrameReturned (s t : NetState) : Prop :=
  t.bufPoolUsed = s.bufPoolUsed ∧
    ((∃ buf events, s.bufPoolUsed buf = false ∧ PacketReturned buf (s.takeSlot buf) t events) ∨
      (∀ i, s.bufPoolUsed i = true) ∧ t.poolEvents = s.poolEvents ++ [.allocFailed])

theorem takeSlot_used (s : NetState) (buf : BufSlot) :
    (s.takeSlot buf).bufPoolUsed = Function.update s.bufPoolUsed buf true := rfl

theorem frameReturned_of_releases {s t : NetState} {buf : BufSlot}
    (hfree : s.bufPoolUsed buf = false) (h : Releases 2 buf (s.takeSlot buf) t) :
    FrameReturned s t := by
  rcases h.packetReturned (by rw [takeSlot_used, Function.update_self]) with ⟨events, hreturned⟩
  refine ⟨?_, .inl ⟨buf, events, hfree, hreturned⟩⟩
  calc t.bufPoolUsed
      = Function.update (Function.update s.bufPoolUsed buf true) buf false := hreturned.used_eq
    _ = s.bufPoolUsed := by rw [Function.update_idem, ← hfree, Function.update_eq_self]

theorem frameReturned_wxE1000Receive (frame : Frame) :
    Keeps FrameReturned (wxE1000Receive frame) := by
  intro s
  have hb := buildingKeeps_balanced 2
  unfold wxE1000Receive receivePacket
  rw [wp_bind, wp_bind, wp_wxNetBufAlloc]
  -- without a slot the frame is dropped; otherwise the slot comes back with `wx_eth_process`
  refine ⟨fun hslot => ?_, fun buf hslot => ?_⟩
  · dsimp only
    rw [wp_pure, wp_modify]
    exact ⟨rfl, .inr ⟨full_of_freeSlot hslot, rfl⟩⟩
  · have hprocess : Keeps (Releases 2 buf) (do
        let data ← wxNetBufPut buf frame.bytes.length
        copyIn buf data frame.bytes
        modify fun s => s.received frame.bytes.length
        wxEthProcess buf) := by
      refine releases_bind (keeps_wxNetBufPut hb _ _) fun data => ?_
      refine releases_bind (keeps_copyIn hb _ _ _) fun _ => ?_
      refine releases_bind (Keeps.of_modify fun s => .of_same ⟨rfl, rfl⟩) fun _ => ?_
      exact releases_wxEthProcess buf
    refine wp_mono (hprocess _) fun _ t ht => ?_
    rw [wp_modify]
    exact frameReturned_of_releases (freeSlot_some hslot) (ht.then_same ⟨rfl, rfl⟩)

theorem FrameReturned.balanced {s t : NetState} (h : FrameReturned s t) : Balanced 3 s t := by
  rcases h with ⟨hused, ⟨buf, events, hfree, hreturned⟩ | ⟨hfull, hevents⟩⟩
  · exact .of_taken hfree ⟨events, hreturned.history, hreturned.used_eq, hreturned.nested⟩
  · exact ⟨_, hevents, hused, .refused hfull (.nil _ _)⟩

theorem balanced_wxE1000Poll (frames : List Frame) : Keeps (Balanced 3) (wxE1000Poll frames) := by
  have hb := buildingKeeps_balanced 3
  induction frames with
  | nil => exact keeps_pure hb _
  | cons frame frames ih =>
      refine keeps_bind hb (fun s => ?_) fun _ => ih
      exact wp_mono (frameReturned_wxE1000Receive frame s) fun _ _ ht => ht.balanced

/-! ## Runs -/

/-- No call keeps a slot, and none needs more than three at a time. -/
theorem balanced_run (call : NetCall) : Keeps (Balanced 3) call.run := by
  have hb := buildingKeeps_balanced 3
  have hset : ∀ s i tcb, Balanced 3 s (NetState.setTcb s i tcb) := fun _ _ _ =>
    .of_same ⟨rfl, rfl⟩
  cases call with
  | poll frames => exact balanced_wxE1000Poll frames
  | pingSend targetIp id seq => exact balanced_mono (balanced_wxPingSend _ _ _) (by decide)
  | socket domain type protocol =>
      intro s
      exact (wp_discard _ _ _).2 (keeps_wxSocket hb.refl hset _ _ _ s)
  | bind sockfd port =>
      intro s
      exact (wp_discard _ _ _).2 (keeps_wxBind hb.refl hset _ _ s)
  | listen sockfd =>
      intro s
      exact (wp_discard _ _ _).2 (keeps_wxListen hb.refl hset _ s)
  | pkgListen => exact keeps_wxPkgListen hb.refl hset

/-- What has happened to the slots since `s`: loans that have all been returned, and no refusal. -/
structure Conserved (s t : NetState) : Prop where
  used_eq : t.bufPoolUsed = s.bufPoolUsed
  history : ∃ events, t.poolEvents = s.poolEvents ++ events ∧
    Nested 3 s.bufPoolUsed (events.map PoolEvent.loan) ∧ .allocFailed ∉ events

theorem Balanced.conserved {s t : NetState} (h : Balanced 3 s t)
    (hroom : 3 ≤ (freeSlots s.bufPoolUsed).card) : Conserved s t := by
  rcases h with ⟨events, hevents, hused, hnested⟩
  refine ⟨hused, events, hevents, hnested, fun hfailed => ?_⟩
  exact hnested.not_refused hroom (List.mem_map.2 ⟨_, hfailed, rfl⟩)

/-- In every run from a state with three free slots, no buffer leaks, none is given back twice and
every request for one is met. -/
theorem conserved_run {s : NetState} (hroom : 3 ≤ (freeSlots s.bufPoolUsed).card)
    (calls : List NetCall) : AllStates netStep (Conserved s) s calls := by
  have hbalanced : AllStates netStep (Balanced 3 s) s calls := by
    refine allStates_of_invariant (fun t call u ht hstep => ?_)
      (.of_same ⟨rfl, rfl⟩) calls
    exact ht.trans (of_netStep (balanced_run call) hstep)
  exact hbalanced.mono fun t ht => ht.conserved hroom

/-- Nothing is used at the start. -/
theorem freeSlots_boot (macLow macHigh : UInt32) :
    3 ≤ (freeSlots (NetState.boot macLow macHigh).bufPoolUsed).card := by
  have hused : (NetState.boot macLow macHigh).bufPoolUsed = fun _ => false := rfl
  have hall : freeSlots (NetState.boot macLow macHigh).bufPoolUsed = Finset.univ := by
    simp [hused, freeSlots]
  rw [hall, Finset.card_univ, Fintype.card_fin]
  decide

/-- In every state, `wx_eth_process` gives the buffer of its packet back once, and every other
buffer it takes; so does a round of `wx_e1000_poll`, and a ping.  In every run from the start the
slots in use are the same after each call, nothing is given back twice, and no request fails. -/
theorem pool_conserved :
    (∀ s buf, s.bufPoolUsed buf = true →
      ∃ events, PacketReturned buf s (wxEthProcess buf s).2 events) ∧
      (∀ s frame, FrameReturned s (wxE1000Receive frame s).2) ∧
      (∀ s frames, Balanced 3 s (wxE1000Poll frames s).2) ∧
      (∀ s targetIp id seq, Balanced 2 s (wxPingSend targetIp id seq s).2) ∧
      ∀ macLow macHigh calls, AllStates netStep (Conserved (NetState.boot macLow macHigh))
        (NetState.boot macLow macHigh) calls := by
  refine ⟨fun s buf hused => ?_, fun s frame => ?_, fun s frames => ?_, fun s ip id seq => ?_,
    fun macLow macHigh calls => conserved_run (freeSlots_boot macLow macHigh) calls⟩
  · exact (wp_iff.1 (releases_wxEthProcess buf s)).packetReturned hused
  · exact wp_iff.1 (frameReturned_wxE1000Receive frame s)
  · exact wp_iff.1 (balanced_wxE1000Poll frames s)
  · exact wp_iff.1 (balanced_wxPingSend ip id seq s)

end Net
end WhitexKernel
