import Mathlib.Data.Fin.VecNotation
import Mathlib.Data.Fintype.Basic
import WhitexKernel.Lib.Bytes
import WhitexKernel.Lib.Stateful
import WhitexKernel.Net.Wire

/-!
# Net — the network stack (`internet.h`, `ping.h`)

A packet buffer is a slot of `buf_pool`; a pointer into its `buffer` is an offset.  Every access to a
buffer is compared with its 4096 bytes: one that leaves them, or a copy that does not fit, goes on
with bytes of the same buffer's own behind the array, and is recorded in `faults`.

Of `wx_net_buf_t` the model has the bytes and the two ends of the packet; `head`, `end` and the
header offsets are never read.  The adapter takes a frame as soon as its descriptor is handed over,
so the wait in `wx_e1000_tx_raw` ends; what it has taken is recorded in `transmitted`.  On the
receiving side it fills the ring in order, one frame for each round of `wx_e1000_poll`.
-/

namespace WhitexKernel
namespace Net

open Lib Lib.Bytes Lib.Stateful Machine

/-- `sizeof(buffer)` of `wx_net_buf_t` -/
def bufferSize : Nat := 4096

/-- The size of an entry of `e1000_rx_buffers` and `e1000_tx_buffers`. -/
def ringBufferSize : Nat := 2048

/-- `WX_ARP_CACHE_SIZE` -/
def wxArpCacheSize : Nat := 256

/-- `WX_TCP_MAX_SOCKS` -/
def wxTcpMaxSocks : Nat := 1024

/-- An address in `buf_pool`, which has `WX_NET_BUF_POOL_SIZE` slots. -/
abbrev BufSlot := Fin 256

/-- A value of `e1000_rx_ptr` or `e1000_tx_ptr`. -/
abbrev RingIndex := Fin 128

/-! ## Data -/

/-- `wx_net_buf_t` -/
structure WxNetBuf where
  buffer : Nat → UInt8
  data : Nat
  tail : Nat

/-- `wx_net_device_t` -/
structure WxNetDevice where
  localMac : WxMac
  localIp : WxIpv4
  rxPackets : Nat
  txPackets : Nat
  rxBytes : Nat
  txBytes : Nat

/-- `wx_arp_entry_t` -/
structure WxArpEntry where
  ip : WxIpv4
  mac : WxMac
  state : Nat
  ttl : Nat

/-- `wx_tcp_tcb_t` -/
structure WxTcpTcb where
  localPort : Nat
  remotePort : Nat
  remoteIp : WxIpv4
  state : Nat
  sndUna : Nat
  sndNxt : Nat
  rcvNxt : Nat
  used : Bool

inductive Fault
  /-- An index into a packet buffer, or the end of a range in one, past `bufferSize`. -/
  | bufferIndex
  /-- A copy longer than its source or its destination. -/
  | copyLength
  deriving DecidableEq, Repr

/-- What `wx_net_buf_alloc` and `wx_net_buf_free` do to a slot. -/
inductive PoolEvent
  | alloc (buf : BufSlot)
  | free (buf : BufSlot)
  /-- No slot was left. -/
  | allocFailed
  deriving DecidableEq, Repr

/-- The globals of the network stack. -/
structure NetState where
  bufPool : BufSlot → WxNetBuf
  bufPoolUsed : BufSlot → Bool
  coreNetDev : WxNetDevice
  arpCache : Nat → WxArpEntry
  tcpSockets : Nat → WxTcpTcb
  e1000RxPtr : RingIndex
  e1000TxPtr : RingIndex
  /-- The frames the adapter has taken, in order. -/
  transmitted : List (List UInt8)
  /-- What has happened to the slots of the pool, in order. -/
  poolEvents : List PoolEvent
  /-- The accesses that have left their buffer, in order. -/
  faults : List Fault

/-- A frame the adapter delivers. -/
structure Frame where
  bytes : List UInt8
  fits : bytes.length ≤ ringBufferSize

/-- Code of the network stack. -/
abbrev NetM := StateM NetState

/-! ## Packet buffers -/

/-- The state with another value in a slot of the pool. -/
def NetState.setBuf (s : NetState) (buf : BufSlot) (b : WxNetBuf) : NetState :=
  { s with bufPool := Function.update s.bufPool buf b }

/-- Record the access unless it stays inside. -/
def inside (ok : Prop) [Decidable ok] (fault : Fault) : NetM Unit :=
  if ok then pure () else modify fun s => { s with faults := s.faults ++ [fault] }

/-- The `size` bytes at `offset`. -/
def view (buf : BufSlot) (offset size : Nat) : NetM (Nat → UInt8) := do
  inside (offset + size ≤ bufferSize) .bufferIndex
  let b := (← get).bufPool buf
  pure fun i => b.buffer (offset + i)

/-- A buffer with other bytes from `offset` on. -/
def WxNetBuf.write (b : WxNetBuf) (offset : Nat) (bytes : List UInt8) : WxNetBuf :=
  { b with buffer := overwrite b.buffer offset bytes }

/-- Write bytes at `offset`. -/
def store (buf : BufSlot) (offset : Nat) (bytes : List UInt8) : NetM Unit := do
  inside (offset + bytes.length ≤ bufferSize) .bufferIndex
  modify fun s => s.setBuf buf ((s.bufPool buf).write offset bytes)

/-- `wx_memcpy` of all of `src`, which lies outside the pool, into a packet buffer. -/
def copyIn (buf : BufSlot) (offset : Nat) (src : List UInt8) : NetM Unit := do
  inside (offset + src.length ≤ bufferSize) .copyLength
  modify fun s => s.setBuf buf ((s.bufPool buf).write offset src)

/-- `wx_memcpy` from one packet buffer to another. -/
def copyBuf (dest : BufSlot) (destOffset : Nat) (src : BufSlot) (srcOffset len : Nat) :
    NetM Unit := do
  inside (srcOffset + len ≤ bufferSize ∧ destOffset + len ≤ bufferSize) .copyLength
  modify fun s =>
    s.setBuf dest ((s.bufPool dest).write destOffset (slice (s.bufPool src).buffer srcOffset len))

/-- `wx_memcpy` from a packet buffer to a buffer of `size` bytes outside the pool. -/
def copyOut (size : Nat) (buf : BufSlot) (offset len : Nat) : NetM (List UInt8) := do
  inside (len ≤ size ∧ offset + len ≤ bufferSize) .copyLength
  pure (slice ((← get).bufPool buf).buffer offset len)

/-- `wx_checksum` of bytes in a packet buffer. -/
def bufferChecksum (buf : BufSlot) (offset len : Nat) : NetM Nat := do
  inside (offset + len ≤ bufferSize) .bufferIndex
  pure (wxChecksum (slice ((← get).bufPool buf).buffer offset len))

/-- A cleared buffer with 256 bytes of headroom. -/
def WxNetBuf.fresh : WxNetBuf :=
  { buffer := fun _ => 0
    data := 256
    tail := 256 }

/-- The first slot that is not used. -/
def NetState.freeSlot (s : NetState) : Option BufSlot :=
  (List.finRange 256).find? fun i => !s.bufPoolUsed i

/-- The state with a slot taken and its buffer cleared. -/
def NetState.takeSlot (s : NetState) (i : BufSlot) : NetState :=
  { s.setBuf i WxNetBuf.fresh with
    bufPoolUsed := Function.update s.bufPoolUsed i true
    poolEvents := s.poolEvents ++ [.alloc i] }

/-- The state with a slot given back. -/
def NetState.giveSlot (s : NetState) (i : BufSlot) : NetState :=
  { s with
    bufPoolUsed := Function.update s.bufPoolUsed i false
    poolEvents := s.poolEvents ++ [.free i] }

/-- `none` is `NULL`. -/
def wxNetBufAlloc : NetM (Option BufSlot) := do
  let s ← get
  match s.freeSlot with
  | none => do
      modify fun s => { s with poolEvents := s.poolEvents ++ [.allocFailed] }
      pure none
  | some i => do
      set (s.takeSlot i)
      pure (some i)

def wxNetBufFree (buf : BufSlot) : NetM Unit := modify fun s => s.giveSlot buf

def wxNetBufReserve (buf : BufSlot) (len : Nat) : NetM Unit :=
  modify fun s =>
    s.setBuf buf
      { s.bufPool buf with
        data := wrap16 ((s.bufPool buf).data + len)
        tail := wrap16 ((s.bufPool buf).tail + len) }

def wxNetBufPush (buf : BufSlot) (len : Nat) : NetM Nat := do
  let b := (← get).bufPool buf
  let data := sub16 b.data len
  modify fun s => s.setBuf buf { b with data := data }
  pure data

def wxNetBufPut (buf : BufSlot) (len : Nat) : NetM Nat := do
  let b := (← get).bufPool buf
  modify fun s => s.setBuf buf { b with tail := wrap16 (b.tail + len) }
  pure b.tail

def wxNetBufPull (buf : BufSlot) (len : Nat) : NetM Nat := do
  let b := (← get).bufPool buf
  modify fun s => s.setBuf buf { b with data := wrap16 (b.data + len) }
  pure b.data

/-- `buf->data` -/
def bufData (buf : BufSlot) : NetM Nat := do
  pure ((← get).bufPool buf).data

/-! ## Transmission -/

/-- The state after the adapter has taken a frame. -/
def NetState.sent (s : NetState) (frame : List UInt8) : NetState :=
  { s with
    e1000TxPtr := s.e1000TxPtr + 1
    transmitted := s.transmitted ++ [frame]
    coreNetDev :=
      { s.coreNetDev with
        txPackets := wrap32 (s.coreNetDev.txPackets + 1)
        txBytes := wrap32 (s.coreNetDev.txBytes + frame.length) } }

def wxE1000TxRaw (buf : BufSlot) : NetM Unit := do
  let b := (← get).bufPool buf
  let len := sub32 b.tail b.data
  if len > ringBufferSize then wxNetBufFree buf
  else do
    let frame ← copyOut ringBufferSize buf b.data len
    modify fun s => s.sent frame
    wxNetBufFree buf

/-- The Ethernet header of what the device sends. -/
def ethHeader (dev : WxNetDevice) (dest : WxMac) (ethertype : Nat) : WxEthHdr :=
  { dest := dest
    src := dev.localMac
    ethertype := wxHtons ethertype }

/-! ## Address resolution -/

/-- The entry in use for `ip`. -/
def arpIndex (cache : Nat → WxArpEntry) (ip : WxIpv4) : Option Nat :=
  (List.range wxArpCacheSize).find? fun i => (cache i).state == 1 && decide ((cache i).ip = ip)

def wxArpLookup (cache : Nat → WxArpEntry) (ip : WxIpv4) : Option WxMac :=
  (arpIndex cache ip).map fun i => (cache i).mac

/-- A cache that is full and does not have `ip` stays as it is. -/
def wxArpUpdate (cache : Nat → WxArpEntry) (ip : WxIpv4) (mac : WxMac) : Nat → WxArpEntry :=
  match arpIndex cache ip with
  | some i =>
      Function.update cache i
        { cache i with
          mac := mac
          ttl := 3000 }
  | none =>
      match (List.range wxArpCacheSize).find? fun i => (cache i).state == 0 with
      | some i =>
          Function.update cache i
            { ip := ip
              mac := mac
              state := 1
              ttl := 3000 }
      | none => cache

/-- `FF:FF:FF:FF:FF:FF` -/
def broadcastMac : WxMac := fun _ => 0xFF

/-- The header of the ARP packets the device sends. -/
def arpHeader (dev : WxNetDevice) (opcode : Nat) (targetMac : WxMac) (targetIp : WxIpv4) :
    WxArpHdr :=
  { hwType := wxHtons 1
    protoType := wxHtons 0x0800
    hwLen := 6
    protoLen := 4
    opcode := wxHtons opcode
    senderMac := dev.localMac
    senderIp := dev.localIp
    targetMac := targetMac
    targetIp := targetIp }

/-- An ARP packet in a buffer of its own, if there is one. -/
def sendArp (opcode : Nat) (targetMac : WxMac) (targetIp : WxIpv4) : NetM Unit := do
  match ← wxNetBufAlloc with
  | none => pure ()
  | some buf => do
      let dev := (← get).coreNetDev
      wxNetBufReserve buf 64
      let arp ← wxNetBufPush buf 28
      store buf arp (arpHeader dev opcode targetMac targetIp).bytes
      let eth ← wxNetBufPush buf 14
      store buf eth (ethHeader dev targetMac 0x0806).bytes
      wxE1000TxRaw buf

def wxArpSendRequest (targetIp : WxIpv4) : NetM Unit := sendArp 1 broadcastMac targetIp

/-- The answer to a request. -/
def wxArpReply (arp : WxArpHdr) : NetM Unit := sendArp 2 arp.senderMac arp.senderIp

def wxArpProcess (buf : BufSlot) : NetM Unit := do
  let arp := WxArpHdr.load (← view buf (← bufData buf) 28)
  if wxHtons arp.hwType ≠ 1 ∨ wxHtons arp.protoType ≠ 0x0800 then wxNetBufFree buf
  else do
    modify fun s => { s with arpCache := wxArpUpdate s.arpCache arp.senderIp arp.senderMac }
    let dev := (← get).coreNetDev
    whenever (wxHtons arp.opcode = 1 ∧ arp.targetIp = dev.localIp) (wxArpReply arp)
    wxNetBufFree buf

/-! ## Internet protocol, sending -/

/-- The MAC address to send to: all ones for `255.255.255.255`. -/
def destMac (s : NetState) (destIp : WxIpv4) : Option WxMac :=
  if destIp 0 = 255 ∧ destIp 1 = 255 ∧ destIp 2 = 255 ∧ destIp 3 = 255 then some broadcastMac
  else wxArpLookup s.arpCache destIp

/-- The header of a packet of `len` bytes, before its checksum is in it. -/
def ipHeader (dev : WxNetDevice) (destIp : WxIpv4) (proto : UInt8) (len : Nat) : WxIpv4Hdr :=
  { ihl := 5
    version := 4
    tos := 0
    totalLen := wxHtons len
    id := wxHtons 0x1337
    fragOffset := 0
    ttl := 64
    protocol := proto
    checksum := 0
    srcIp := dev.localIp
    destIp := destIp }

def wxIpSend (buf : BufSlot) (destIp : WxIpv4) (proto : UInt8) : NetM Unit := do
  match destMac (← get) destIp with
  | none => do
      wxArpSendRequest destIp
      wxNetBufFree buf
  | some dmac => do
      let dev := (← get).coreNetDev
      let ip ← wxNetBufPush buf 20
      let b := (← get).bufPool buf
      store buf ip (ipHeader dev destIp proto (sub32 b.tail b.data)).bytes
      store buf (ip + 10) (bytes16 (← bufferChecksum buf ip 20))
      let eth ← wxNetBufPush buf 14
      store buf eth (ethHeader dev dmac 0x0800).bytes
      wxE1000TxRaw buf

/-! ## Echo -/

/-- `icmp_len` -/
def icmpLen (ipHdr : WxIpv4Hdr) : Nat := sub16 (wxHtons ipHdr.totalLen) (ipHdr.ihl * 4)

/-- The answer to an echo request: its payload, from behind the header at the data of `buf`. -/
def wxIcmpReply (buf : BufSlot) (ipHdr : WxIpv4Hdr) (icmp : WxIcmpHdr) : NetM Unit := do
  match ← wxNetBufAlloc with
  | none => pure ()
  | some rep => do
      wxNetBufReserve rep 128
      -- `icmp_len - sizeof(wx_icmp_hdr_t)` is a `size_t`; `wx_net_buf_put` takes its low 16 bits.
      let len := sub32 (icmpLen ipHdr) 8
      let payload ← wxNetBufPut rep (wrap16 len)
      copyBuf rep payload buf ((← bufData buf) + 8) len
      let rIcmp ← wxNetBufPush rep 8
      store rep rIcmp (WxIcmpHdr.bytes
        { type := 0
          code := 0
          checksum := 0
          id := icmp.id
          seq := icmp.seq })
      store rep (rIcmp + 2) (bytes16 (← bufferChecksum rep rIcmp (icmpLen ipHdr)))
      wxIpSend rep ipHdr.srcIp 1

def wxIcmpProcess (buf : BufSlot) (ipHdr : WxIpv4Hdr) : NetM Unit := do
  let icmp := WxIcmpHdr.load (← view buf (← bufData buf) 8)
  whenever (icmp.type = 8 ∧ icmp.code = 0) (wxIcmpReply buf ipHdr icmp)
  wxNetBufFree buf

/-! ## Connections -/

/-- The connection from this peer to this port, or else a socket that listens on the port. -/
def tcbFor (sockets : Nat → WxTcpTcb) (srcPort dstPort : Nat) (srcIp : WxIpv4) : Option Nat :=
  match (List.range wxTcpMaxSocks).find? fun i =>
      (sockets i).used && (sockets i).localPort == dstPort && (sockets i).remotePort == srcPort &&
        decide ((sockets i).remoteIp = srcIp) with
  | some i => some i
  | none =>
      (List.range wxTcpMaxSocks).find? fun i =>
        (sockets i).used && (sockets i).localPort == dstPort && (sockets i).state == 1

/-- `&tcp_sockets[i]` with another value. -/
def NetState.setTcb (s : NetState) (i : Nat) (tcb : WxTcpTcb) : NetState :=
  { s with tcpSockets := Function.update s.tcpSockets i tcb }

/-- The answer to a `SYN` on socket `i`. -/
def wxTcpSendSynAck (i : Nat) : NetM Unit := do
  match ← wxNetBufAlloc with
  | none => pure ()
  | some resp => do
      let s ← get
      let tcb := s.tcpSockets i
      wxNetBufReserve resp 128
      let rTcp ← wxNetBufPush resp 20
      store resp rTcp (WxTcpHdr.bytes
        { srcPort := wxHtons tcb.localPort
          destPort := wxHtons tcb.remotePort
          seqNum := wxHtonl tcb.sndNxt
          ackNum := wxHtonl tcb.rcvNxt
          dataOffset := 5
          syn := true
          ack := true
          windowSize := wxHtons 8192
          checksum := 0 })
      let psh := WxPseudoHdr.bytes
        { srcIp := s.coreNetDev.localIp
          destIp := tcb.remoteIp
          zero := 0
          protocol := 6
          length := wxHtons 20 }
      let segment ← view resp rTcp 20
      let csum := addWords (addWords 0 psh) (slice segment 0 20)
      store resp (rTcp + 16) (bytes16 (complement16 (foldCarries csum)))
      wxIpSend resp tcb.remoteIp 6
      modify fun s =>
        s.setTcb i { s.tcpSockets i with sndNxt := wrap32 ((s.tcpSockets i).sndNxt + 1) }

/-- What a segment from `srcIp` does to the connections. -/
def wxTcpSegment (tcp : WxTcpHdr) (srcIp : WxIpv4) : NetM Unit := do
  let srcPort := wxHtons tcp.srcPort
  let dstPort := wxHtons tcp.destPort
  let s ← get
  match tcbFor s.tcpSockets srcPort dstPort srcIp with
  | none => pure ()
  | some i => do
      let tcb := s.tcpSockets i
      if tcb.state = 1 ∧ tcp.syn = true ∧ tcp.ack = false then do
        set (s.setTcb i
          { tcb with
            remotePort := srcPort
            remoteIp := srcIp
            rcvNxt := wrap32 (wxHtonl tcp.seqNum + 1)
            sndNxt := 0x89ABCDEF
            sndUna := 0x89ABCDEF
            state := 2 })
        wxTcpSendSynAck i
      else
        whenever (tcb.state = 2 ∧ tcp.ack = true ∧ wxHtonl tcp.ackNum = tcb.sndNxt)
          (set (s.setTcb i { tcb with state := 3 }))

def wxTcpProcess (buf : BufSlot) (ipHdr : WxIpv4Hdr) : NetM Unit := do
  let tcp := WxTcpHdr.load (← view buf (← bufData buf) 20)
  wxTcpSegment tcp ipHdr.srcIp
  wxNetBufFree buf

def wxUdpProcess (buf : BufSlot) : NetM Unit := do
  let udp ← view buf (← bufData buf) 8
  whenever (wxHtons (load16 udp 4) ≥ 8) (discard (wxNetBufPull buf 8))
  wxNetBufFree buf

/-! ## Reception -/

def wxIpProcess (buf : BufSlot) : NetM Unit := do
  let ip := WxIpv4Hdr.load (← view buf (← bufData buf) 20)
  if ip.version ≠ 4 ∨ ip.ihl < 5 then wxNetBufFree buf
  else if ip.destIp ≠ (← get).coreNetDev.localIp ∧ ip.destIp 3 ≠ 255 then wxNetBufFree buf
  else do
    discard (wxNetBufPull buf (ip.ihl * 4))
    if ip.protocol = 1 then wxIcmpProcess buf ip
    else if ip.protocol = 6 then wxTcpProcess buf ip
    else if ip.protocol = 17 then wxUdpProcess buf
    else wxNetBufFree buf

def wxEthProcess (buf : BufSlot) : NetM Unit := do
  let eth := WxEthHdr.load (← view buf (← bufData buf) 14)
  let type := wxHtons eth.ethertype
  discard (wxNetBufPull buf 14)
  if type = 0x0806 then wxArpProcess buf
  else if type = 0x0800 then wxIpProcess buf
  else wxNetBufFree buf

/-- The state after a frame of `len` bytes has been counted. -/
def NetState.received (s : NetState) (len : Nat) : NetState :=
  { s with
    coreNetDev :=
      { s.coreNetDev with
        rxPackets := wrap32 (s.coreNetDev.rxPackets + 1)
        rxBytes := wrap32 (s.coreNetDev.rxBytes + len) } }

/-- The packet of a received frame, if there is a buffer for it. -/
def receivePacket (frame : Frame) : NetM Unit := do
  let len := frame.bytes.length
  match ← wxNetBufAlloc with
  | none => pure ()
  | some buf => do
      let data ← wxNetBufPut buf len
      copyIn buf data frame.bytes
      modify fun s => s.received len
      wxEthProcess buf

/-- One round of the loop of `wx_e1000_poll`, for the frame in the current receive buffer. -/
def wxE1000Receive (frame : Frame) : NetM Unit := do
  receivePacket frame
  modify fun s => { s with e1000RxPtr := s.e1000RxPtr + 1 }

/-- The frames the adapter delivers while `wx_e1000_poll` runs. -/
def wxE1000Poll : List Frame → NetM Unit
  | [] => pure ()
  | frame :: frames => do
      wxE1000Receive frame
      wxE1000Poll frames

/-! ## Sockets -/

/-- The index of the socket, or `-1`. -/
def wxSocket (domain type protocol : Int) : NetM Int := do
  if domain ≠ 2 ∨ type ≠ 1 ∨ protocol ≠ 6 then pure (-1)
  else do
    let s ← get
    match (List.range wxTcpMaxSocks).find? fun i => !(s.tcpSockets i).used with
    | none => pure (-1)
    | some i => do
        set (s.setTcb i
          { s.tcpSockets i with
            used := true
            state := 0 })
        pure i

/-- `sockfd` is the index of a socket in use. -/
def openSocket (s : NetState) (sockfd : Int) : Option Nat :=
  if sockfd < 0 ∨ sockfd ≥ wxTcpMaxSocks ∨ (s.tcpSockets sockfd.toNat).used = false then none
  else some sockfd.toNat

def wxBind (sockfd : Int) (port : Nat) : NetM Int := do
  let s ← get
  match openSocket s sockfd with
  | none => pure (-1)
  | some i => do
      set (s.setTcb i { s.tcpSockets i with localPort := port })
      pure 0

def wxListen (sockfd : Int) : NetM Int := do
  let s ← get
  match openSocket s sockfd with
  | none => pure (-1)
  | some i => do
      set (s.setTcb i { s.tcpSockets i with state := 1 })
      pure 0

/-- `pkg.h`; it prints, too. -/
def wxPkgListen : NetM Unit := do
  let sockfd ← wxSocket 2 1 6
  if sockfd < 0 then pure ()
  else modify fun s =>
    s.setTcb sockfd.toNat { s.tcpSockets sockfd.toNat with state := 2 }

/-! ## Start -/

/-- `wx_net_buf_t` with all bytes zero -/
def WxNetBuf.zero : WxNetBuf :=
  { buffer := fun _ => 0
    data := 0
    tail := 0 }

/-- `wx_arp_entry_t` with all bytes zero -/
def WxArpEntry.zero : WxArpEntry :=
  { ip := fun _ => 0
    mac := fun _ => 0
    state := 0
    ttl := 0 }

/-- `wx_tcp_tcb_t` with all bytes zero -/
def WxTcpTcb.zero : WxTcpTcb :=
  { localPort := 0
    remotePort := 0
    remoteIp := fun _ => 0
    state := 0
    sndUna := 0
    sndNxt := 0
    rcvNxt := 0
    used := false }

/-- The globals before any code has run. -/
def NetState.zero : NetState :=
  { bufPool := fun _ => WxNetBuf.zero
    bufPoolUsed := fun _ => false
    coreNetDev :=
      { localMac := fun _ => 0
        localIp := fun _ => 0
        rxPackets := 0
        txPackets := 0
        rxBytes := 0
        txBytes := 0 }
    arpCache := fun _ => WxArpEntry.zero
    tcpSockets := fun _ => WxTcpTcb.zero
    e1000RxPtr := 0
    e1000TxPtr := 0
    transmitted := []
    poolEvents := []
    faults := [] }

def wxArpInit : NetM Unit := modify fun s => { s with arpCache := fun _ => WxArpEntry.zero }

def wxTcpInit : NetM Unit := modify fun s => { s with tcpSockets := fun _ => WxTcpTcb.zero }

/-- The address the adapter gives in its two registers, or else a fixed one. -/
def wxE1000Mac (macLow macHigh : UInt32) : WxMac :=
  if macLow ≠ 0 ∨ macHigh ≠ 0 then
    ![macLow.toUInt8, (macLow >>> 8).toUInt8, (macLow >>> 16).toUInt8, (macLow >>> 24).toUInt8,
      macHigh.toUInt8, (macHigh >>> 8).toUInt8]
  else ![0x52, 0x54, 0x00, 0x12, 0x34, 0x56]

/-- `wx_e1000_init`, for an adapter with these two registers; of its work on the adapter itself
nothing is left here. -/
def wxE1000Init (macLow macHigh : UInt32) : NetM Unit := do
  modify fun s =>
    { s with
      coreNetDev :=
        { s.coreNetDev with
          localMac := wxE1000Mac macLow macHigh
          localIp := ![192, 168, 1, 100] } }
  wxArpInit
  wxTcpInit

/-- The state `wx_e1000_init` leaves. -/
def NetState.boot (macLow macHigh : UInt32) : NetState :=
  (wxE1000Init macLow macHigh NetState.zero).2

/-! ## Ping -/

/-- `ping.h` -/
def wxPingSend (targetIp : WxIpv4) (id seq : Nat) : NetM Unit := do
  match ← wxNetBufAlloc with
  | none => pure ()
  | some buf => do
      wxNetBufReserve buf 128
      let payload ← wxNetBufPut buf 4
      store buf payload [0xDE, 0xAD, 0xBE, 0xEF]
      let icmp ← wxNetBufPush buf 8
      store buf icmp (WxIcmpHdr.bytes
        { type := 8
          code := 0
          checksum := 0
          id := id
          seq := seq })
      store buf (icmp + 2) (bytes16 (← bufferChecksum buf icmp 12))
      wxIpSend buf targetIp 1

end Net
end WhitexKernel
