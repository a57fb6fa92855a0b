import WhitexKernel.Net.Rules

/-!
# Untouched — what building and sending packets leaves alone

A relation between states that survives the few primitive changes survives all code made of them.
`BuildingKeeps R` is about the operations on one buffer, `SendingKeeps R` about taking and giving back
slots and about transmission, too, and `ReceivingKeeps R` about all that a received frame can change.
`PollingKeeps R` leaves it to `R` what a segment may do.
-/

namespace WhitexKernel
namespace Net

open Lib Lib.Bytes Lib.Stateful Machine

/-- Work on a buffer keeps `R`. -/
structure BuildingKeeps (R : NetState → NetState → Prop) : Prop where
  refl : ∀ s, R s s
  trans : ∀ s t u, R s t → R t u → R s u
  fault : ∀ s fault, R s { s with faults := s.faults ++ [fault] }
  setBuf : ∀ s buf b, R s (s.setBuf buf b)

/-- Taking a buffer, sending it and giving it back keeps `R`. -/
structure SendingKeeps (R : NetState → NetState → Prop) : Prop extends BuildingKeeps R where
  noSlot : ∀ s, R s { s with poolEvents := s.poolEvents ++ [.allocFailed] }
  takeSlot : ∀ s i, R s (s.takeSlot i)
  giveSlot : ∀ s i, R s (s.giveSlot i)
  sent : ∀ s frame, R s (s.sent frame)

/-- Whatever a received frame changes keeps `R`. -/
structure ReceivingKeeps (R : NetState → NetState → Prop) : Prop extends SendingKeeps R where
  arpCache : ∀ s cache, R s { s with arpCache := cache }
  setTcb : ∀ s i tcb, R s (s.setTcb i tcb)
  received : ∀ s len, R s (s.received len)
  rxPtr : ∀ s ptr, R s { s with e1000RxPtr := ptr }

/-- What a received frame does, `wx_tcp_process` as a whole, keeps `R`. -/
structure PollingKeeps (R : NetState → NetState → Prop) : Prop extends SendingKeeps R where
  arpCache : ∀ s cache, R s { s with arpCache := cache }
  received : ∀ s len, R s (s.received len)
  rxPtr : ∀ s ptr, R s { s with e1000RxPtr := ptr }
  tcpProcess : ∀ buf ipHdr, Keeps R (wxTcpProcess buf ipHdr)

section Building

variable {R : NetState → NetState → Prop} (h : BuildingKeeps R)

include h

theorem keeps_pure {α : Type} (a : α) : Keeps R (pure a : NetM α) := Keeps.of_pure h.refl a

theorem keeps_bind {α β : Type} {m : NetM α} {f : α → NetM β} (hm : Keeps R m)
    (hf : ∀ a, Keeps R (f a)) : Keeps R (m >>= f) := Keeps.bind h.trans hm hf

theorem keeps_get : Keeps R (get : NetM NetState) := Keeps.of_get h.refl

theorem keeps_inside (ok : Prop) [Decidable ok] (fault : Fault) : Keeps R (inside ok fault) :=
  Keeps.ite (keeps_pure h _) (Keeps.of_modify fun s => h.fault s fault)

theorem keeps_view (buf : BufSlot) (offset size : Nat) : Keeps R (view buf offset size) :=
  keeps_bind h (keeps_inside h _ _) fun _ => keeps_bind h (keeps_get h) fun _ => keeps_pure h _

theorem keeps_store (buf : BufSlot) (offset : Nat) (bytes : List UInt8) :
    Keeps R (store buf offset bytes) :=
  keeps_bind h (keeps_inside h _ _) fun _ => Keeps.of_modify fun s => h.setBuf s buf _

theorem keeps_copyIn (buf : BufSlot) (offset : Nat) (src : List UInt8) :
    Keeps R (copyIn buf offset src) :=
  keeps_bind h (keeps_inside h _ _) fun _ => Keeps.of_modify fun s => h.setBuf s buf _

theorem keeps_copyBuf (dest : BufSlot) (destOffset : Nat) (src : BufSlot) (srcOffset len : Nat) :
    Keeps R (copyBuf dest destOffset src srcOffset len) :=
  keeps_bind h (keeps_inside h _ _) fun _ => Keeps.of_modify fun s => h.setBuf s dest _

theorem keeps_copyOut (size : Nat) (buf : BufSlot) (offset len : Nat) :
    Keeps R (copyOut size buf offset len) :=
  keeps_bind h (keeps_inside h _ _) fun _ => keeps_bind h (keeps_get h) fun _ => keeps_pure h _

theorem keeps_bufferChecksum (buf : BufSlot) (offset len : Nat) :
    Keeps R (bufferChecksum buf offset len) :=
  keeps_bind h (keeps_inside h _ _) fun _ => keeps_bind h (keeps_get h) fun _ => keeps_pure h _

theorem keeps_bufData (buf : BufSlot) : Keeps R (bufData buf) :=
  keeps_bind h (keeps_get h) fun _ => keeps_pure h _

theorem keeps_wxNetBufReserve (buf : BufSlot) (len : Nat) : Keeps R (wxNetBufReserve buf len) :=
  Keeps.of_modify fun s => h.setBuf s buf _

theorem keeps_wxNetBufPush (buf : BufSlot) (len : Nat) : Keeps R (wxNetBufPush buf len) := by
  intro s
  rw [wp_wxNetBufPush]
  exact h.setBuf s buf _

theorem keeps_wxNetBufPut (buf : BufSlot) (len : Nat) : Keeps R (wxNetBufPut buf len) := by
  intro s
  rw [wp_wxNetBufPut]
  exact h.setBuf s buf _

theorem keeps_wxNetBufPull (buf : BufSlot) (len : Nat) : Keeps R (wxNetBufPull buf len) := by
  intro s
  rw [wp_wxNetBufPull]
  exact h.setBuf s buf _

end Building

section Sending

variable {R : NetState → NetState → Prop} (h : SendingKeeps R)

include h

theorem keeps_wxNetBufAlloc : Keeps R wxNetBufAlloc := by
  intro s
  rw [wp_wxNetBufAlloc]
  exact ⟨fun _ => h.noSlot s, fun i _ => h.takeSlot s i⟩

theorem keeps_wxNetBufFree (buf : BufSlot) : Keeps R (wxNetBufFree buf) :=
  Keeps.of_modify fun s => h.giveSlot s buf

theorem keeps_wxE1000TxRaw (buf : BufSlot) : Keeps R (wxE1000TxRaw buf) := by
  have hb := h.toBuildingKeeps
  refine keeps_bind hb (keeps_get hb) fun s => ?_
  refine Keeps.ite (keeps_wxNetBufFree h buf) ?_
  refine keeps_bind hb (keeps_copyOut hb _ _ _ _) fun frame => ?_
  exact keeps_bind hb (Keeps.of_modify fun s => h.sent s frame) fun _ => keeps_wxNetBufFree h buf

theorem keeps_sendArp (opcode : Nat) (targetMac : WxMac) (targetIp : WxIpv4) :
    Keeps R (sendArp opcode targetMac targetIp) := by
  have hb := h.toBuildingKeeps
  refine keeps_bind hb (keeps_wxNetBufAlloc h) fun slot => ?_
  cases slot with
  | none => exact keeps_pure hb _
  | some buf =>
      refine keeps_bind hb (keeps_get hb) fun s => ?_
      refine keeps_bind hb (keeps_wxNetBufReserve hb _ _) fun _ => ?_
      refine keeps_bind hb (keeps_wxNetBufPush hb _ _) fun _ => ?_
      refine keeps_bind hb (keeps_store hb _ _ _) fun _ => ?_
      refine keeps_bind hb (keeps_wxNetBufPush hb _ _) fun _ => ?_
      refine keeps_bind hb (keeps_store hb _ _ _) fun _ => ?_
      exact keeps_wxE1000TxRaw h buf

theorem keeps_wxIpSend (buf : BufSlot) (destIp : WxIpv4) (proto : UInt8) :
    Keeps R (wxIpSend buf destIp proto) := by
  have hb := h.toBuildingKeeps
  refine keeps_bind hb (keeps_get hb) fun s => ?_
  dsimp only
  cases destMac s destIp with
  | none => exact keeps_bind hb (keeps_sendArp h _ _ _) fun _ => keeps_wxNetBufFree h buf
  | some dmac =>
      refine keeps_bind hb (keeps_get hb) fun s => ?_
      refine keeps_bind hb (keeps_wxNetBufPush hb _ _) fun _ => ?_
      refine keeps_bind hb (keeps_get hb) fun s => ?_
      refine keeps_bind hb (keeps_store hb _ _ _) fun _ => ?_
      refine keeps_bind hb (keeps_bufferChecksum hb _ _ _) fun _ => ?_
      refine keeps_bind hb (keeps_store hb _ _ _) fun _ => ?_
      refine keeps_bind hb (keeps_wxNetBufPush hb _ _) fun _ => ?_
      refine keeps_bind hb (keeps_store hb _ _ _) fun _ => ?_
      exact keeps_wxE1000TxRaw h buf

theorem keeps_wxIcmpReply (buf : BufSlot) (ipHdr : WxIpv4Hdr) (icmp : WxIcmpHdr) :
    Keeps R (wxIcmpReply buf ipHdr icmp) := by
  have hb := h.toBuildingKeeps
  refine keeps_bind hb (keeps_wxNetBufAlloc h) fun slot => ?_
  cases slot with
  | none => exact keeps_pure hb _
  | some rep =>
      refine keeps_bind hb (keeps_wxNetBufReserve hb _ _) fun _ => ?_
      refine keeps_bind hb (keeps_wxNetBufPut hb _ _) fun _ => ?_
      refine keeps_bind hb (keeps_bufData hb _) fun _ => ?_
      refine keeps_bind hb (keeps_copyBuf hb _ _ _ _ _) fun _ => ?_
      refine keeps_bind hb (keeps_wxNetBufPush hb _ _) fun _ => ?_
      refine keeps_bind hb (keeps_store hb _ _ _) fun _ => ?_
      refine keeps_bind hb (keeps_bufferChecksum hb _ _ _) fun _ => ?_
      refine keeps_bind hb (keeps_store hb _ _ _) fun _ => ?_
      exact keeps_wxIpSend h _ _ _

theorem keeps_wxPingSend (targetIp : WxIpv4) (id seq : Nat) :
    Keeps R (wxPingSend targetIp id seq) := by
  have hb := h.toBuildingKeeps
  refine keeps_bind hb (keeps_wxNetBufAlloc h) fun slot => ?_
  cases slot with
  | none => exact keeps_pure hb _
  | some buf =>
      refine keeps_bind hb (keeps_wxNetBufReserve hb _ _) fun _ => ?_
      refine keeps_bind hb (keeps_wxNetBufPut hb _ _) fun _ => ?_
      refine keeps_bind hb (keeps_store hb _ _ _) fun _ => ?_
      refine keeps_bind hb (keeps_wxNetBufPush hb _ _) fun _ => ?_
      refine keeps_bind hb (keeps_store hb _ _ _) fun _ => ?_
      refine keeps_bind hb (keeps_bufferChecksum hb _ _ _) fun _ => ?_
      refine keeps_bind hb (keeps_store hb _ _ _) fun _ => ?_
      exact keeps_wxIpSend h _ _ _

end Sending

section Receiving

variable {R : NetState → NetState → Prop} (h : ReceivingKeeps R)

include h

theorem keeps_wxTcpSendSynAck (i : Nat) : Keeps R (wxTcpSendSynAck i) := by
  have hs := h.toSendingKeeps
  have hb := hs.toBuildingKeeps
  refine keeps_bind hb (keeps_wxNetBufAlloc hs) fun slot => ?_
  cases slot with
  | none => exact keeps_pure hb _
  | some resp =>
      refine keeps_bind hb (keeps_get hb) fun _ => ?_
      refine keeps_bind hb (keeps_wxNetBufReserve hb _ _) fun _ => ?_
      refine keeps_bind hb (keeps_wxNetBufPush hb _ _) fun _ => ?_
      refine keeps_bind hb (keeps_store hb _ _ _) fun _ => ?_
      refine keeps_bind hb (keeps_view hb _ _ _) fun _ => ?_
      refine keeps_bind hb (keeps_store hb _ _ _) fun _ => ?_
      refine keeps_bind hb (keeps_wxIpSend hs _ _ _) fun _ => ?_
      exact Keeps.of_modify fun s => h.setTcb s i _

theorem keeps_wxTcpSegment (tcp : WxTcpHdr) (srcIp : WxIpv4) : Keeps R (wxTcpSegment tcp srcIp) := by
  intro s
  unfold wxTcpSegment
  rw [wp_bind, wp_get]
  dsimp only
  split
  · rw [wp_pure]
    exact h.refl s
  · split
    · rw [wp_bind, wp_set]
      exact wp_mono (keeps_wxTcpSendSynAck h _ _) fun _ t ht => h.trans _ _ _ (h.setTcb s _ _) ht
    · rw [wp_whenever]
      refine ⟨fun _ => ?_, fun _ => h.refl s⟩
      rw [wp_set]
      exact h.setTcb s _ _

theorem keeps_wxTcpProcess (buf : BufSlot) (ipHdr : WxIpv4Hdr) :
    Keeps R (wxTcpProcess buf ipHdr) := by
  have hs := h.toSendingKeeps
  have hb := hs.toBuildingKeeps
  refine keeps_bind hb (keeps_bufData hb _) fun _ => ?_
  refine keeps_bind hb (keeps_view hb _ _ _) fun _ => ?_
  exact keeps_bind hb (keeps_wxTcpSegment h _ _) fun _ => keeps_wxNetBufFree hs _

end Receiving

/-- A relation that survives every change of a socket survives a segment. -/
theorem ReceivingKeeps.polling {R : NetState → NetState → Prop}
    (h : ReceivingKeeps R) : PollingKeeps R where
  toSendingKeeps := h.toSendingKeeps
  arpCache := h.arpCache
  received := h.received
  rxPtr := h.rxPtr
  tcpProcess := keeps_wxTcpProcess h

section Polling

variable {R : NetState → NetState → Prop} (h : PollingKeeps R)

include h

theorem keeps_wxArpProcess (buf : BufSlot) : Keeps R (wxArpProcess buf) := by
  have hs := h.toSendingKeeps
  have hb := hs.toBuildingKeeps
  refine keeps_bind hb (keeps_bufData hb _) fun _ => ?_
  refine keeps_bind hb (keeps_view hb _ _ _) fun _ => ?_
  refine Keeps.ite (keeps_wxNetBufFree hs _) ?_
  refine keeps_bind hb (Keeps.of_modify fun s => h.arpCache s _) fun _ => ?_
  refine keeps_bind hb (keeps_get hb) fun _ => ?_
  refine keeps_bind hb (Keeps.whenever hb.refl (keeps_sendArp hs _ _ _)) fun _ => ?_
  exact keeps_wxNetBufFree hs _

theorem keeps_discard_pull (buf : BufSlot) (len : Nat) :
    Keeps R (discard (wxNetBufPull buf len)) := by
  intro s
  rw [wp_discard]
  exact keeps_wxNetBufPull h.toBuildingKeeps buf len s

theorem keeps_wxUdpProcess (buf : BufSlot) : Keeps R (wxUdpProcess buf) := by
  have hs := h.toSendingKeeps
  have hb := hs.toBuildingKeeps
  refine keeps_bind hb (keeps_bufData hb _) fun _ => ?_
  refine keeps_bind hb (keeps_view hb _ _ _) fun _ => ?_
  refine keeps_bind hb (Keeps.whenever hb.refl (keeps_discard_pull h _ _)) fun _ => ?_
  exact keeps_wxNetBufFree hs _

theorem keeps_wxIcmpProcess (buf : BufSlot) (ipHdr : WxIpv4Hdr) :
    Keeps R (wxIcmpProcess buf ipHdr) := by
  have hs := h.toSendingKeeps
  have hb := hs.toBuildingKeeps
  refine keeps_bind hb (keeps_bufData hb _) fun _ => ?_
  refine keeps_bind hb (keeps_view hb _ _ _) fun _ => ?_
  refine keeps_bind hb (Keeps.whenever hb.refl (keeps_wxIcmpReply hs _ _ _)) fun _ => ?_
  exact keeps_wxNetBufFree hs _

theorem keeps_wxIpProcess (buf : BufSlot) : Keeps R (wxIpProcess buf) := by
  have hs := h.toSendingKeeps
  have hb := hs.toBuildingKeeps
  refine keeps_bind hb (keeps_bufData hb _) fun _ => ?_
  refine keeps_bind hb (keeps_view hb _ _ _) fun _ => ?_
  refine Keeps.ite (keeps_wxNetBufFree hs _) ?_
  refine keeps_bind hb (keeps_get hb) fun _ => ?_
  refine Keeps.ite (keeps_wxNetBufFree hs _) ?_
  refine keeps_bind hb (keeps_discard_pull h _ _) fun _ => ?_
  refine Keeps.ite (keeps_wxIcmpProcess h _ _) ?_
  exact Keeps.ite (h.tcpProcess _ _)
    (Keeps.ite (keeps_wxUdpProcess h _) (keeps_wxNetBufFree hs _))

theorem keeps_wxEthProcess (buf : BufSlot) : Keeps R (wxEthProcess buf) := by
  have hs := h.toSendingKeeps
  have hb := hs.toBuildingKeeps
  refine keeps_bind hb (keeps_bufData hb _) fun _ => ?_
  refine keeps_bind hb (keeps_view hb _ _ _) fun _ => ?_
  refine keeps_bind hb (keeps_discard_pull h _ _) fun _ => ?_
  exact Keeps.ite (keeps_wxArpProcess h _)
    (Keeps.ite (keeps_wxIpProcess h _) (keeps_wxNetBufFree hs _))

theorem keeps_wxE1000Receive (frame : Frame) : Keeps R (wxE1000Receive frame) := by
  have hs := h.toSendingKeeps
  have hb := hs.toBuildingKeeps
  refine keeps_bind hb ?_ fun _ => Keeps.of_modify fun s => h.rxPtr s _
  refine keeps_bind hb (keeps_wxNetBufAlloc hs) fun slot => ?_
  cases slot with
  | none => exact keeps_pure hb _
  | some buf =>
      refine keeps_bind hb (keeps_wxNetBufPut hb _ _) fun _ => ?_
      refine keeps_bind hb (keeps_copyIn hb _ _ _) fun _ => ?_
      refine keeps_bind hb (Keeps.of_modify fun s => h.received s _) fun _ => ?_
      exact keeps_wxEthProcess h _

theorem keeps_wxE1000Poll (frames : List Frame) : Keeps R (wxE1000Poll frames) := by
  induction frames with
  | nil => exact keeps_pure h.toBuildingKeeps _
  | cons frame frames ih =>
      exact keeps_bind h.toBuildingKeeps (keeps_wxE1000Receive h frame) fun _ => ih

end Polling

end Net
end WhitexKernel
