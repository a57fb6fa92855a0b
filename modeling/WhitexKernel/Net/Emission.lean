import Mathlib.Algebra.GroupWithZero.Nat
import WhitexKernel.Net.System
import WhitexKernel.Net.Untouched

/-!
# Emission — what the stack puts on the wire

Whatever the stack is called for, it sends ARP packets and IP packets of its own, each under its own
addresses, and never more than one for each frame it receives and each ping it is asked for
(`emission_run`).  An echo request whose length makes the end of the answer wrap around can cut an
answer off within its headers; the copy has left its buffers by then.
-/

namespace WhitexKernel
namespace Net

open Lib Lib.Bytes Lib.Stateful Machine

/-! ## Frames -/

/-- A frame that the device sends. -/
inductive OnWire (dev : WxNetDevice) : List UInt8 → Prop
  | arp (opcode : Nat) (targetMac : WxMac) (targetIp : WxIpv4) (hopcode : opcode = 1 ∨ opcode = 2) :
      OnWire dev (arpFrame dev opcode targetMac targetIp)
  | ip (dmac : WxMac) (destIp : WxIpv4) (proto : UInt8) (payload : List UInt8)
      (hproto : proto = 1 ∨ proto = 6)
      (hlength : (ipFrame dev dmac destIp proto payload).length ≤ ringBufferSize) :
      OnWire dev (ipFrame dev dmac destIp proto payload)

/-- The beginning of the headers of an echo reply. -/
def CutOff (dev : WxNetDevice) (frame : List UInt8) : Prop :=
  ∃ dmac destIp len n, n < 34 ∧
    frame = ((ethHeader dev dmac 0x0800).bytes ++ (ipHeader dev destIp 1 len).sealed.bytes).take n

/-- From `s` to `t`, at most `n` frames have been sent and `r` frames have been received. -/
structure Emission (n r : Nat) (s t : NetState) : Prop where
  sent : ∃ frames, t.transmitted = s.transmitted ++ frames ∧ frames.length ≤ n ∧
    ∀ frame ∈ frames, OnWire s.coreNetDev frame ∨
      (CutOff s.coreNetDev frame ∧ t.faults ≠ s.faults)
  faults : s.faults <+: t.faults
  localMac : t.coreNetDev.localMac = s.coreNetDev.localMac
  localIp : t.coreNetDev.localIp = s.coreNetDev.localIp
  rxPtr : t.e1000RxPtr.val = (s.e1000RxPtr.val + r) % 128

section Frames

variable {dev dev' : WxNetDevice} (hmac : dev'.localMac = dev.localMac)
  (hip : dev'.localIp = dev.localIp)

include hmac hip

theorem OnWire.congr {frame : List UInt8} (h : OnWire dev' frame) : OnWire dev frame := by
  have heth : ∀ dest ethertype, ethHeader dev' dest ethertype = ethHeader dev dest ethertype := by
    intro dest ethertype
    unfold ethHeader
    rw [hmac]
  cases h with
  | arp opcode targetMac targetIp hopcode =>
      have hsame : arpFrame dev' opcode targetMac targetIp =
          arpFrame dev opcode targetMac targetIp := by
        unfold arpFrame arpHeader
        rw [heth, hmac, hip]
      rw [hsame]
      exact .arp opcode targetMac targetIp hopcode
  | ip dmac destIp proto payload hproto hlength =>
      have hsame : ipFrame dev' dmac destIp proto payload =
          ipFrame dev dmac destIp proto payload := by
        unfold ipFrame ipHeader
        rw [heth, hip]
      rw [hsame] at hlength ⊢
      exact .ip dmac destIp proto payload hproto hlength

theorem CutOff.congr {frame : List UInt8} (h : CutOff dev' frame) : CutOff dev frame := by
  rcases h with ⟨dmac, destIp, len, n, hn, rfl⟩
  refine ⟨dmac, destIp, len, n, hn, ?_⟩
  unfold ethHeader ipHeader
  rw [hmac, hip]

end Frames

namespace Emission

variable {m n q r : Nat} {s t u : NetState}

theorem sameRxPtr (h : t.e1000RxPtr = s.e1000RxPtr) :
    t.e1000RxPtr.val = (s.e1000RxPtr.val + 0) % 128 := by
  rw [h, Nat.add_zero, Nat.mod_eq_of_lt s.e1000RxPtr.isLt]

theorem refl (s : NetState) : Emission 0 0 s s :=
  ⟨⟨[], (List.append_nil _).symm, Nat.le_refl 0, nofun⟩, List.prefix_refl _, rfl, rfl,
    sameRxPtr rfl⟩

theorem mono (h : Emission m r s t) (hmn : m ≤ n) : Emission n r s t := by
  rcases h with ⟨⟨frames, hsent, hlength, hframes⟩, hfaults, hmac, hip, hptr⟩
  exact ⟨⟨frames, hsent, hlength.trans hmn, hframes⟩, hfaults, hmac, hip, hptr⟩

/-- Faults that have been added once are there for good. -/
theorem faults_ne {a b c : List Fault} (hab : a <+: b) (hbc : b <+: c) (h : b ≠ a ∨ c ≠ b) :
    c ≠ a := by
  rintro rfl
  have hsame : c = b := hab.eq_of_length_le hbc.length_le
  subst hsame
  rcases h with h | h
  · exact h rfl
  · exact h rfl

theorem trans (h : Emission m q s t) (h' : Emission n r t u) : Emission (m + n) (q + r) s u := by
  rcases h.sent with ⟨frames, hsent, hlength, hframes⟩
  rcases h'.sent with ⟨frames', hsent', hlength', hframes'⟩
  refine ⟨⟨frames ++ frames', ?_, ?_, fun frame hframe => ?_⟩, h.faults.trans h'.faults,
    h'.localMac.trans h.localMac, h'.localIp.trans h.localIp, ?_⟩
  · rw [hsent', hsent, List.append_assoc]
  · rw [List.length_append]
    exact Nat.add_le_add hlength hlength'
  · rcases List.mem_append.1 hframe with hframe | hframe
    · refine (hframes frame hframe).imp_right fun hcut => ⟨hcut.1, ?_⟩
      exact faults_ne h.faults h'.faults (.inl hcut.2)
    · refine (hframes' frame hframe).imp (OnWire.congr h.localMac h.localIp) fun hcut => ?_
      exact ⟨hcut.1.congr h.localMac h.localIp, faults_ne h.faults h'.faults (.inr hcut.2)⟩
  · rw [h'.rxPtr, h.rxPtr, Nat.mod_add_mod, Nat.add_assoc]

/-- Nothing is sent, and the device keeps its addresses. -/
theorem of_quiet (hsent : t.transmitted = s.transmitted) (hfaults : s.faults <+: t.faults)
    (hmac : t.coreNetDev.localMac = s.coreNetDev.localMac)
    (hip : t.coreNetDev.localIp = s.coreNetDev.localIp) (hptr : t.e1000RxPtr = s.e1000RxPtr) :
    Emission 0 0 s t :=
  ⟨⟨[], by rw [hsent, List.append_nil], Nat.le_refl 0, nofun⟩, hfaults, hmac, hip, sameRxPtr hptr⟩

theorem setBuf (s : NetState) (buf : BufSlot) (b : WxNetBuf) : Emission 0 0 s (s.setBuf buf b) :=
  of_quiet rfl (List.prefix_refl _) rfl rfl rfl

theorem giveSlot (s : NetState) (i : BufSlot) : Emission 0 0 s (s.giveSlot i) :=
  of_quiet rfl (List.prefix_refl _) rfl rfl rfl

theorem takeSlot (s : NetState) (i : BufSlot) : Emission 0 0 s (s.takeSlot i) :=
  of_quiet rfl (List.prefix_refl _) rfl rfl rfl

theorem setTcb (s : NetState) (i : Nat) (tcb : WxTcpTcb) : Emission 0 0 s (s.setTcb i tcb) :=
  of_quiet rfl (List.prefix_refl _) rfl rfl rfl

theorem arpCache (s : NetState) (cache : Nat → WxArpEntry) :
    Emission 0 0 s { s with arpCache := cache } := of_quiet rfl (List.prefix_refl _) rfl rfl rfl

theorem received (s : NetState) (len : Nat) : Emission 0 0 s (s.received len) :=
  of_quiet rfl (List.prefix_refl _) rfl rfl rfl

/-- A frame is behind. -/
theorem advanced (s : NetState) : Emission 0 1 s { s with e1000RxPtr := s.e1000RxPtr + 1 } :=
  ⟨⟨[], (List.append_nil _).symm, Nat.le_refl 0, nofun⟩, List.prefix_refl _, rfl, rfl,
    Fin.val_add s.e1000RxPtr 1⟩

theorem noSlot (s : NetState) :
    Emission 0 0 s { s with poolEvents := s.poolEvents ++ [.allocFailed] } :=
  of_quiet rfl (List.prefix_refl _) rfl rfl rfl

/-- One frame. -/
theorem of_sent {frame : List UInt8} (h : OnWire s.coreNetDev frame) :
    Emission 1 0 s (s.sent frame) := by
  refine ⟨⟨[frame], rfl, Nat.le_refl 1, fun other hother => .inl ?_⟩, List.prefix_refl _, rfl, rfl,
    sameRxPtr rfl⟩
  rw [List.mem_singleton.1 hother]
  exact h

/-- The beginning of a frame, once an access has left its buffer. -/
theorem of_cut {frame : List UInt8} (h : Emission 0 0 s t) (hcut : CutOff t.coreNetDev frame)
    (hfaults : t.faults ≠ s.faults) : Emission 1 0 s (t.sent frame) := by
  rcases h.sent with ⟨frames, hsent, hlength, -⟩
  have hnone : frames = [] := List.length_eq_zero_iff.1 (Nat.le_zero.1 hlength)
  rw [hnone, List.append_nil] at hsent
  refine ⟨⟨[frame], ?_, Nat.le_refl 1, fun other hother => .inr ⟨?_, hfaults⟩⟩, h.faults, h.localMac,
    h.localIp, h.rxPtr⟩
  · have happend : (t.sent frame).transmitted = t.transmitted ++ [frame] := rfl
    rw [happend, hsent]
  · rw [List.mem_singleton.1 hother]
    exact hcut.congr h.localMac h.localIp

end Emission

/-! ## Code that sends nothing -/

/-- `p` sends at most `n` frames, and receives none. -/
def Sends (n : Nat) {α : Type} (p : NetM α) : Prop := Keeps (Emission n 0) p

theorem buildingKeeps_emission : BuildingKeeps (Emission 0 0) where
  refl := Emission.refl
  trans _ _ _ hst htu := hst.trans htu
  fault _ _ := .of_quiet rfl (List.prefix_append _ _) rfl rfl rfl
  setBuf := Emission.setBuf

section Sends

variable {m n : Nat} {α β : Type} {p : NetM α} {f : α → NetM β}

theorem Sends.mono (h : Sends m p) (hmn : m ≤ n) : Sends n p := fun s =>
  wp_mono (h s) fun _ _ ht => ht.mono hmn

theorem emission_bind {q r : Nat} (hp : Keeps (Emission m q) p)
    (hf : ∀ a, Keeps (Emission n r) (f a)) : Keeps (Emission (m + n) (q + r)) (p >>= f) := by
  intro s
  rw [wp_bind]
  refine wp_mono (hp s) fun a t hst => ?_
  exact wp_mono (hf a t) fun _ _ htu => hst.trans htu

theorem Sends.bind (hp : Sends m p) (hf : ∀ a, Sends n (f a)) : Sends (m + n) (p >>= f) :=
  emission_bind hp hf

/-- A part that sends nothing. -/
theorem Sends.silent_bind (hp : Sends 0 p) (hf : ∀ a, Sends n (f a)) : Sends n (p >>= f) := by
  have hboth := Sends.bind hp hf
  rwa [Nat.zero_add] at hboth

theorem sends_pure (n : Nat) (a : α) : Sends n (pure a : NetM α) :=
  Sends.mono (Keeps.of_pure Emission.refl a) (Nat.zero_le n)

theorem sends_wxNetBufFree (n : Nat) (buf : BufSlot) : Sends n (wxNetBufFree buf) :=
  Sends.mono (Keeps.of_modify fun s => Emission.giveSlot s buf) (Nat.zero_le n)

theorem sends_wxNetBufAlloc : Sends 0 wxNetBufAlloc := by
  intro s
  rw [wp_wxNetBufAlloc]
  exact ⟨fun _ => Emission.noSlot s, fun i _ => Emission.takeSlot s i⟩

end Sends

/-! ## Sending a packet -/

theorem arpFrame_length (dev : WxNetDevice) (opcode : Nat) (targetMac : WxMac)
    (targetIp : WxIpv4) : (arpFrame dev opcode targetMac targetIp).length = 42 := by
  simp [arpFrame]

theorem sends_sendArp {opcode : Nat} (hopcode : opcode = 1 ∨ opcode = 2) (targetMac : WxMac)
    (targetIp : WxIpv4) : Sends 1 (sendArp opcode targetMac targetIp) := by
  intro s
  refine wp_sendArp (fun _ => ?_) fun i b _ => ?_
  · exact (Emission.noSlot s).mono (Nat.zero_le 1)
  · have hshort : ¬ (arpFrame s.coreNetDev opcode targetMac targetIp).length > ringBufferSize := by
      rw [arpFrame_length]
      decide
    have hsent : Emission 1 0 ((s.takeSlot i).setBuf i b) _ :=
      Emission.of_sent (.arp opcode targetMac targetIp hopcode)
    have hstart : Emission 0 0 s ((s.takeSlot i).setBuf i b) :=
      (Emission.takeSlot s i).trans (Emission.setBuf _ i b)
    rw [NetState.transmit, if_neg hshort]
    exact (hstart.trans hsent).trans (Emission.giveSlot _ i)

/-- The adapter takes as many bytes as there are between the two ends of the packet. -/
theorem wp_wxE1000TxRaw {s : NetState} {buf : BufSlot} {f : Nat → UInt8} {data tail : Nat}
    (hdata : data + ringBufferSize ≤ bufferSize) {Q : PUnit → NetState → Prop}
    (hdrop : Q ⟨⟩ ((s.setBuf buf (packet f data tail)).giveSlot buf))
    (hsent : sub32 tail data ≤ ringBufferSize →
      Q ⟨⟩ (((s.setBuf buf (packet f data tail)).sent (slice f data (sub32 tail data))).giveSlot
        buf)) :
    wp (wxE1000TxRaw buf) Q (s.setBuf buf (packet f data tail)) := by
  unfold wxE1000TxRaw
  rw [wp_bind, wp_get, setBuf_same]
  dsimp only
  split
  case isTrue =>
    rw [wp_wxNetBufFree]
    exact hdrop
  case isFalse hshort =>
    have hlen : sub32 tail data ≤ ringBufferSize := Nat.le_of_not_gt hshort
    unfold copyOut
    rw [wp_bind, wp_bind, wp_inside ⟨hlen, by omega⟩, wp_bind, wp_get, setBuf_same, wp_pure,
      wp_bind, wp_modify, wp_wxNetBufFree]
    exact hsent hlen

/-- A packet whose end need not be behind its beginning: what is sent is a whole frame, or the
beginning of the two headers. -/
theorem wp_wxIpSend_any {s : NetState} {buf : BufSlot} {f : Nat → UInt8} {data tail : Nat}
    (hroom : 34 ≤ data) (hdata : data ≤ 1024) (htail : tail < 2 ^ 16) {destIp : WxIpv4}
    {proto : UInt8} {Q : PUnit → NetState → Prop}
    (hmiss : wp (wxArpSendRequest destIp) (fun _ t => Q ⟨⟩ (t.giveSlot buf))
      (s.setBuf buf (packet f data tail)))
    (hdrop : ∀ b, Q ⟨⟩ ((s.setBuf buf b).giveSlot buf))
    (hwhole : ∀ dmac b, data ≤ tail →
      (ipFrame s.coreNetDev dmac destIp proto (slice f data (tail - data))).length ≤
        ringBufferSize →
      Q ⟨⟩ (((s.setBuf buf b).sent
        (ipFrame s.coreNetDev dmac destIp proto (slice f data (tail - data)))).giveSlot buf))
    (hcut : ∀ dmac b len n, tail < data → n < 34 →
      Q ⟨⟩ (((s.setBuf buf b).sent (((ethHeader s.coreNetDev dmac 0x0800).bytes ++
        (ipHeader s.coreNetDev destIp proto len).sealed.bytes).take n)).giveSlot buf)) :
    wp (wxIpSend buf destIp proto) Q (s.setBuf buf (packet f data tail)) := by
  have hsame : destMac (s.setBuf buf (packet f data tail)) destIp = destMac s destIp := rfl
  have hdev : (s.setBuf buf (packet f data tail)).coreNetDev = s.coreNetDev := rfl
  have hring : ringBufferSize = 2048 := rfl
  have hbuffer : bufferSize = 4096 := rfl
  unfold wxIpSend
  rw [wp_bind, wp_get, hsame]
  cases hmac : destMac s destIp with
  | none =>
      dsimp only
      rw [wp_bind]
      refine wp_mono hmiss fun _ t ht => ?_
      rw [wp_wxNetBufFree]
      exact ht
  | some dmac =>
      dsimp only
      rw [wp_bind, wp_get, hdev, wp_bind, wp_wxNetBufPush_packet (by omega) (by omega), wp_bind,
        wp_get, setBuf_same]
      dsimp only
      rw [wp_bind, wp_store_packet (by rw [ipv4Hdr_length]; omega),
        wp_bind, wp_bufferChecksum_packet (by omega), wp_bind,
        wp_store_packet (by rw [bytes16_length]; omega), wp_bind,
        wp_wxNetBufPush_packet (by omega) (by omega), wp_bind,
        wp_store_packet (by rw [ethHdr_length]; omega)]
      have hplace : data - 20 - 14 = data - 34 := by omega
      refine wp_wxE1000TxRaw (by omega) (hdrop _) fun hlen => ?_
      rw [hplace] at hlen ⊢
      -- the adapter is given a length that fits, so the end has not wrapped around
      have hend : tail = data - 34 + sub32 tail (data - 34) := by
        unfold sub32 at hlen ⊢
        omega
      by_cases hbehind : data ≤ tail
      · have hheader : sub32 tail (data - 20) = 20 + (tail - data) := by
          rw [sub32_of_le (by omega) (by omega)]
          omega
        have hread := @slice_ipPacket f data tail hroom hbehind (ethHeader s.coreNetDev dmac 0x0800)
          (ipHeader s.coreNetDev destIp proto (20 + (tail - data)))
        have hlength : tail - (data - 34) = sub32 tail (data - 34) := by omega
        rw [hplace, hlength] at hread
        have hframe : ipFrame s.coreNetDev dmac destIp proto (slice f data (tail - data)) =
            (ethHeader s.coreNetDev dmac 0x0800).bytes ++
              ((ipHeader s.coreNetDev destIp proto (20 + (tail - data))).sealed.bytes ++
                slice f data (tail - data)) := by
          rw [ipFrame, slice_length]
        have hshort : (ipFrame s.coreNetDev dmac destIp proto
            (slice f data (tail - data))).length ≤ ringBufferSize := by
          rw [hframe, ← hread, slice_length]
          exact hlen
        rw [hheader, hread, ← hframe]
        exact hwhole dmac _ hbehind hshort
      · have hread := @slice_ipPacket f data data hroom (Nat.le_refl _)
          (ethHeader s.coreNetDev dmac 0x0800)
          (ipHeader s.coreNetDev destIp proto (sub32 tail (data - 20)))
        have hfewer : sub32 tail (data - 34) < 34 := by omega
        have hheaders : data - (data - 34) = 34 := by omega
        rw [hplace, hheaders, Nat.sub_self, slice_zero, List.append_nil] at hread
        rw [← take_slice _ _ (Nat.le_of_lt hfewer), hread]
        exact hcut dmac _ _ _ (Nat.lt_of_not_le hbehind) hfewer

/-- A packet whose end has wrapped around is one that accesses have left their buffers for. -/
theorem emission_wxIpSend {s t : NetState} {buf : BufSlot} {f : Nat → UInt8} {data tail : Nat}
    (hstart : Emission 0 0 s t) (hroom : 34 ≤ data) (hdata : data ≤ 1024) (htail : tail < 2 ^ 16)
    (destIp : WxIpv4) {proto : UInt8} (hproto : proto = 1 ∨ proto = 6)
    (hwrap : data ≤ tail ∨ (proto = 1 ∧ t.faults ≠ s.faults)) :
    wp (wxIpSend buf destIp proto) (fun _ u => Emission 1 0 s u)
      (t.setBuf buf (packet f data tail)) := by
  have hat : ∀ b, Emission 0 0 s (t.setBuf buf b) := fun b => hstart.trans (Emission.setBuf t buf b)
  refine wp_wxIpSend_any hroom hdata htail ?_ (fun b => ?_) (fun dmac b _ hlength => ?_)
    fun dmac b len n hbefore hn => ?_
  · refine wp_mono (sends_sendArp (.inl rfl) _ _ _) fun _ u hu => ?_
    exact ((hat _).trans hu).trans (Emission.giveSlot u buf)
  · exact ((hat b).trans (Emission.giveSlot _ buf)).mono (Nat.zero_le 1)
  · have hsent : Emission 1 0 (t.setBuf buf b) _ :=
      Emission.of_sent (.ip dmac destIp proto _ hproto hlength)
    exact ((hat b).trans hsent).trans (Emission.giveSlot _ buf)
  · rcases hwrap with hbehind | ⟨rfl, hfaults⟩
    · exact absurd hbehind (Nat.not_le_of_lt hbefore)
    · exact (Emission.of_cut (hat b) ⟨dmac, destIp, len, n, hn, rfl⟩ hfaults).trans
        (Emission.giveSlot _ buf)

/-! ## The answers -/

section Answers

variable {s : NetState} {buf : BufSlot} {f : Nat → UInt8} {data tail offset len : Nat}

/-- A copy between buffers stays inside, or is recorded. -/
theorem wp_copyBuf_any {src : BufSlot} {srcOffset : Nat} {Q : PUnit → NetState → Prop}
    (hfits : ∀ g, offset + len ≤ bufferSize → Q ⟨⟩ (s.setBuf buf (packet g data tail)))
    (hfault : ∀ g fault, Q ⟨⟩
      (({ s with faults := s.faults ++ [fault] } : NetState).setBuf buf (packet g data tail))) :
    wp (copyBuf buf offset src srcOffset len) Q (s.setBuf buf (packet f data tail)) := by
  unfold copyBuf inside
  rw [wp_bind]
  split
  case isTrue hinside =>
    rw [wp_pure, wp_modify, setBuf_same, setBuf_setBuf]
    exact hfits _ hinside.2
  case isFalse =>
    rw [wp_modify, wp_modify]
    have hcopied := hfault (overwrite f offset
      (slice ((s.setBuf buf (packet f data tail)).bufPool src).buffer srcOffset len)) .copyLength
    have hsame : ({ s.setBuf buf (packet f data tail) with
        faults := (s.setBuf buf (packet f data tail)).faults ++ [.copyLength] } : NetState) =
        ({ s with faults := s.faults ++ [.copyLength] } : NetState).setBuf buf
          (packet f data tail) := rfl
    rw [hsame, setBuf_same, setBuf_setBuf]
    exact hcopied

/-- A checksum is taken inside the buffer, or the access is recorded. -/
theorem wp_bufferChecksum_any {Q : Nat → NetState → Prop}
    (h : ∀ sum faults, s.faults <+: faults → Q sum
      (({ s with faults := faults } : NetState).setBuf buf (packet f data tail))) :
    wp (bufferChecksum buf offset len) Q (s.setBuf buf (packet f data tail)) := by
  unfold bufferChecksum inside
  rw [wp_bind]
  split
  case isTrue =>
    rw [wp_pure, wp_bind, wp_get, wp_pure]
    exact h _ _ (List.prefix_refl _)
  case isFalse =>
    rw [wp_modify, wp_bind, wp_get, wp_pure]
    exact h _ _ (List.prefix_append _ _)

/-- What `wx_icmp_process` and `wx_ping_send` do with a packet behind its header. -/
theorem emission_echo {t : NetState} (icmp : WxIcmpHdr) {destIp : WxIpv4} {tail : Nat}
    (hstart : Emission 0 0 s t) (htail : tail < 2 ^ 16)
    (hwrap : 376 ≤ tail ∨ t.faults ≠ s.faults) :
    wp (do
        let header ← wxNetBufPush buf 8
        store buf header icmp.bytes
        store buf (header + 2) (bytes16 (← bufferChecksum buf header len))
        wxIpSend buf destIp 1)
      (fun _ u => Emission 1 0 s u) (t.setBuf buf (packet f 384 tail)) := by
  rw [wp_bind, wp_wxNetBufPush_packet (by decide) (by decide), wp_bind,
    wp_store_packet (by rw [icmpHdr_length]; decide), wp_bind]
  refine wp_bufferChecksum_any fun sum faults hfaults => ?_
  rw [wp_bind, wp_store_packet (by rw [bytes16_length]; decide)]
  have hchecked : Emission 0 0 t { t with faults := faults } := .of_quiet rfl hfaults rfl rfl rfl
  refine emission_wxIpSend (hstart.trans hchecked) (by decide) (by decide) htail _ (.inl rfl) ?_
  refine hwrap.imp_right fun hgrown => ⟨rfl, ?_⟩
  exact Emission.faults_ne hstart.faults hfaults (.inl hgrown)

end Answers

theorem sends_wxIcmpReply (buf : BufSlot) (ipHdr : WxIpv4Hdr) (icmp : WxIcmpHdr) :
    Sends 1 (wxIcmpReply buf ipHdr icmp) := by
  intro s
  unfold wxIcmpReply
  rw [wp_bind, wp_wxNetBufAlloc]
  refine ⟨fun _ => ?_, fun rep _ => ?_⟩
  · dsimp only
    rw [wp_pure]
    exact (Emission.noSlot s).mono (Nat.zero_le 1)
  · dsimp only
    rw [takeSlot_eq, WxNetBuf.fresh, wp_bind, wp_wxNetBufReserve_packet (by decide) (by decide),
      wp_bind, wp_wxNetBufPut, setBuf_same, setBuf_setBuf, wp_bind, wp_bufData, wp_bind]
    have htail := Nat.mod_lt (256 + 128 + wrap16 (sub32 (icmpLen ipHdr) 8)) (by decide : 0 < 2 ^ 16)
    refine wp_copyBuf_any (fun g hfits => ?_) fun g fault => ?_
    · -- the payload ends inside the buffer, so its end is behind its beginning
      have hshort : wrap16 (sub32 (icmpLen ipHdr) 8) = sub32 (icmpLen ipHdr) 8 := by
        unfold bufferSize at hfits
        exact wrap16_of_lt (by omega)
      have hbehind : 376 ≤ wrap16 (256 + 128 + wrap16 (sub32 (icmpLen ipHdr) 8)) := by
        unfold bufferSize at hfits
        rw [hshort, wrap16_of_lt (by omega)]
        omega
      exact emission_echo (WxIcmpHdr.mk 0 0 0 icmp.id icmp.seq) (Emission.takeSlot s rep) htail
        (.inl hbehind)
    · have hfaulted : Emission 0 0 (s.takeSlot rep)
          { s.takeSlot rep with faults := (s.takeSlot rep).faults ++ [fault] } :=
        .of_quiet rfl (List.prefix_append _ _) rfl rfl rfl
      have hmore : s.faults ++ [fault] ≠ s.faults := by simp
      exact emission_echo (WxIcmpHdr.mk 0 0 0 icmp.id icmp.seq)
        ((Emission.takeSlot s rep).trans hfaulted) htail (.inr hmore)

theorem sends_wxPingSend (targetIp : WxIpv4) (id seq : Nat) :
    Sends 1 (wxPingSend targetIp id seq) := by
  intro s
  unfold wxPingSend
  rw [wp_bind, wp_wxNetBufAlloc]
  refine ⟨fun _ => ?_, fun i _ => ?_⟩
  · dsimp only
    rw [wp_pure]
    exact (Emission.noSlot s).mono (Nat.zero_le 1)
  · dsimp only
    rw [takeSlot_eq, WxNetBuf.fresh, wp_bind, wp_wxNetBufReserve_packet (by decide) (by decide),
      wp_bind, wp_wxNetBufPut_packet (by decide), wp_bind, wp_store_packet (by decide)]
    exact emission_echo (WxIcmpHdr.mk 8 0 0 id seq) (Emission.takeSlot s i) (by decide)
      (.inl (by decide))

theorem sends_wxTcpSendSynAck (i : Nat) : Sends 1 (wxTcpSendSynAck i) := by
  intro s
  unfold wxTcpSendSynAck
  rw [wp_bind, wp_wxNetBufAlloc]
  refine ⟨fun _ => ?_, fun resp _ => ?_⟩
  · dsimp only
    rw [wp_pure]
    exact (Emission.noSlot s).mono (Nat.zero_le 1)
  · dsimp only
    rw [wp_bind, wp_get]
    generalize hbytes : WxTcpHdr.bytes _ = bytes
    have hlen : bytes.length = 20 := by rw [← hbytes, tcpHdr_length]
    rw [takeSlot_eq, WxNetBuf.fresh, wp_bind, wp_wxNetBufReserve_packet (by decide) (by decide),
      wp_bind, wp_wxNetBufPush_packet (by decide) (by decide), wp_bind,
      wp_store_packet (by rw [hlen]; decide), wp_bind, wp_view (by decide), wp_bind,
      wp_store_packet (by rw [bytes16_length]; decide), wp_bind]
    refine wp_mono (emission_wxIpSend (Emission.takeSlot s resp) (by decide) (by decide) (by decide)
      _ (.inr rfl) (.inl (by decide))) fun _ t ht => ?_
    rw [wp_modify]
    exact ht.trans (Emission.setTcb t i _)

theorem sends_wxTcpSegment (tcp : WxTcpHdr) (srcIp : WxIpv4) : Sends 1 (wxTcpSegment tcp srcIp) := by
  intro s
  unfold wxTcpSegment
  rw [wp_bind, wp_get]
  dsimp only
  split
  · rw [wp_pure]
    exact (Emission.refl s).mono (Nat.zero_le 1)
  · split
    · rw [wp_bind, wp_set]
      refine wp_mono (sends_wxTcpSendSynAck _ _) fun _ t ht => ?_
      exact (Emission.setTcb s _ _).trans ht
    · rw [wp_whenever]
      refine ⟨fun _ => ?_, fun _ => (Emission.refl s).mono (Nat.zero_le 1)⟩
      rw [wp_set]
      exact (Emission.setTcb s _ _).mono (Nat.zero_le 1)

/-! ## Reception -/

section Reception

variable {n : Nat} {c : Prop} [Decidable c]

theorem Sends.ite {α : Type} {p q : NetM α} (hp : Sends n p) (hq : Sends n q) :
    Sends n (if c then p else q) := Keeps.ite hp hq

theorem Sends.whenever {p : NetM PUnit} (hp : Sends n p) : Sends n (whenever c p) :=
  Sends.ite hp (sends_pure n _)

/-- Reading from a buffer, and what is done then. -/
theorem Sends.read {α : Type} {buf : BufSlot} {size : Nat} {f : (Nat → UInt8) → NetM α}
    (hf : ∀ bytes, Sends n (f bytes)) :
    Sends n (do f (← view buf (← bufData buf) size)) :=
  Sends.silent_bind (keeps_bufData buildingKeeps_emission buf) fun data =>
    Sends.silent_bind (keeps_view buildingKeeps_emission buf data size) hf

/-- The packet buffer is given back at the end. -/
theorem Sends.freed {p : NetM PUnit} (hp : Sends n p) (buf : BufSlot) :
    Sends n (do p; wxNetBufFree buf) := Sends.bind hp fun _ => sends_wxNetBufFree 0 buf

theorem sends_discard_pull (buf : BufSlot) (len : Nat) :
    Sends 0 (discard (wxNetBufPull buf len)) := by
  intro s
  rw [wp_discard, wp_wxNetBufPull]
  exact Emission.setBuf s buf _

theorem sends_wxIcmpProcess (buf : BufSlot) (ipHdr : WxIpv4Hdr) :
    Sends 1 (wxIcmpProcess buf ipHdr) :=
  Sends.read fun _ => Sends.freed (Sends.whenever (sends_wxIcmpReply _ _ _)) buf

theorem sends_wxTcpProcess (buf : BufSlot) (ipHdr : WxIpv4Hdr) : Sends 1 (wxTcpProcess buf ipHdr) :=
  Sends.read fun _ => Sends.freed (sends_wxTcpSegment _ _) buf

theorem sends_wxUdpProcess (buf : BufSlot) : Sends 1 (wxUdpProcess buf) :=
  Sends.read fun _ =>
    Sends.freed (Sends.whenever ((sends_discard_pull _ _).mono (Nat.zero_le 1))) buf

theorem sends_wxArpProcess (buf : BufSlot) : Sends 1 (wxArpProcess buf) := by
  refine Sends.read fun _ => Sends.ite (sends_wxNetBufFree 1 buf) ?_
  refine Sends.silent_bind (Keeps.of_modify fun s => Emission.arpCache s _) fun _ => ?_
  refine Sends.silent_bind (Keeps.of_get Emission.refl) fun s => ?_
  exact Sends.freed (Sends.whenever (sends_sendArp (.inr rfl) _ _)) buf

theorem sends_wxIpProcess (buf : BufSlot) : Sends 1 (wxIpProcess buf) := by
  refine Sends.read fun _ => Sends.ite (sends_wxNetBufFree 1 buf) ?_
  refine Sends.silent_bind (Keeps.of_get Emission.refl) fun s => ?_
  refine Sends.ite (sends_wxNetBufFree 1 buf) ?_
  refine Sends.silent_bind (sends_discard_pull buf _) fun _ => ?_
  refine Sends.ite (sends_wxIcmpProcess buf _) ?_
  exact Sends.ite (sends_wxTcpProcess buf _)
    (Sends.ite (sends_wxUdpProcess buf) (sends_wxNetBufFree 1 buf))

theorem sends_wxEthProcess (buf : BufSlot) : Sends 1 (wxEthProcess buf) := by
  refine Sends.read fun _ => ?_
  refine Sends.silent_bind (sends_discard_pull buf _) fun _ => ?_
  exact Sends.ite (sends_wxArpProcess buf)
    (Sends.ite (sends_wxIpProcess buf) (sends_wxNetBufFree 1 buf))

theorem sends_receivePacket (frame : Frame) : Sends 1 (receivePacket frame) := by
  refine Sends.silent_bind sends_wxNetBufAlloc fun slot => ?_
  cases slot with
  | none => exact sends_pure 1 _
  | some buf =>
      have hb := buildingKeeps_emission
      refine Sends.silent_bind (keeps_wxNetBufPut hb buf _) fun _ => ?_
      refine Sends.silent_bind (keeps_copyIn hb buf _ _) fun _ => ?_
      refine Sends.silent_bind (Keeps.of_modify fun s => Emission.received s _) fun _ => ?_
      exact sends_wxEthProcess buf

/-- One frame at most for each frame received. -/
theorem emission_wxE1000Poll (frames : List Frame) :
    Keeps (Emission frames.length frames.length) (wxE1000Poll frames) := by
  induction frames with
  | nil => exact sends_pure 0 _
  | cons frame frames ih =>
      have hround : Keeps (Emission 1 1) (wxE1000Receive frame) :=
        emission_bind (sends_receivePacket frame) fun _ =>
          Keeps.of_modify Emission.advanced
      rw [List.length_cons, Nat.add_comm]
      exact emission_bind hround fun _ => ih

end Reception

/-! ## Whole runs -/

/-- The frames received in a call. -/
def NetCall.arrivals : NetCall → Nat
  | .poll frames => frames.length
  | _ => 0

/-- The frames received in a call and the pings asked for. -/
def NetCall.requests : NetCall → Nat
  | .poll frames => frames.length
  | .pingSend _ _ _ => 1
  | _ => 0

theorem emission_call (call : NetCall) :
    Keeps (Emission call.requests call.arrivals) call.run := by
  cases call with
  | poll frames => exact emission_wxE1000Poll frames
  | pingSend targetIp id seq => exact sends_wxPingSend targetIp id seq
  | socket domain type protocol =>
      intro s
      unfold NetCall.run
      rw [wp_discard]
      exact keeps_wxSocket Emission.refl Emission.setTcb domain type protocol s
  | bind sockfd port =>
      intro s
      unfold NetCall.run
      rw [wp_discard]
      exact keeps_wxBind Emission.refl Emission.setTcb sockfd port s
  | listen sockfd =>
      intro s
      unfold NetCall.run
      rw [wp_discard]
      exact keeps_wxListen Emission.refl Emission.setTcb sockfd s
  | pkgListen => exact keeps_wxPkgListen Emission.refl Emission.setTcb

/-- In every run, from any state, the stack sends its own ARP and IP packets only, and no more of
them than it has received frames and been asked for pings; for each frame received it moves on to
the next descriptor. -/
theorem emission_run (s : NetState) (calls : List NetCall) :
    ∃ t, exec netStep s calls = some t ∧
      Emission (calls.map NetCall.requests).sum (calls.map NetCall.arrivals).sum s t := by
  induction calls generalizing s with
  | nil => exact ⟨s, rfl, Emission.refl s⟩
  | cons call calls ih =>
      rcases ih (call.run s).2 with ⟨t, hrest, hemission⟩
      have hfirst : Emission call.requests call.arrivals s (call.run s).2 :=
        wp_iff.1 (emission_call call s)
      refine ⟨t, ?_, ?_⟩
      · rw [exec_cons, netStep, Option.bind_some, hrest]
      · rw [List.map_cons, List.sum_cons, List.map_cons, List.sum_cons]
        exact hfirst.trans hemission

end Net
end WhitexKernel
