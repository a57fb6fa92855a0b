import WhitexKernel.Machine.Word

/-!
# Wire — the headers of the network protocols, as bytes

The packed header structs of `internet.h`, and how their fields lie in memory.  A field of 16 or 32
bits holds the number the processor sees, least significant byte first; `wxHtons` and `wxHtonl`
swap it into network order.  A header is read from a view: the bytes from its address on.
-/

namespace WhitexKernel
namespace Net

open Machine

/-- `wx_mac_t` -/
abbrev WxMac := Fin 6 → UInt8

/-- `wx_ipv4_t` -/
abbrev WxIpv4 := Fin 4 → UInt8

/-! ## Numbers -/

/-- `WX_HTONS` and `WX_NTOHS`: `((x & 0xff00) >> 8) | ((x & 0x00ff) << 8)` -/
def wxHtons (x : Nat) : Nat := x / 256 % 256 + x % 256 * 256

/-- `WX_HTONL` and `WX_NTOHL` -/
def wxHtonl (x : Nat) : Nat :=
  x / 16777216 % 256 + x / 65536 % 256 * 256 + x / 256 % 256 * 65536 + x % 256 * 16777216

/-- A `uint16_t` in memory. -/
def bytes16 (x : Nat) : List UInt8 := [UInt8.ofNat x, UInt8.ofNat (x / 256)]

/-- A `uint32_t` in memory. -/
def bytes32 (x : Nat) : List UInt8 :=
  [UInt8.ofNat x, UInt8.ofNat (x / 256), UInt8.ofNat (x / 65536), UInt8.ofNat (x / 16777216)]

/-- The `uint16_t` at an offset. -/
def load16 (view : Nat → UInt8) (offset : Nat) : Nat :=
  (view offset).toNat + 256 * (view (offset + 1)).toNat

/-- The `uint32_t` at an offset. -/
def load32 (view : Nat → UInt8) (offset : Nat) : Nat :=
  (view offset).toNat + 256 * (view (offset + 1)).toNat + 65536 * (view (offset + 2)).toNat +
    16777216 * (view (offset + 3)).toNat

/-- The `wx_mac_t` at an offset. -/
def loadMac (view : Nat → UInt8) (offset : Nat) : WxMac := fun i => view (offset + i)

/-- The `wx_ipv4_t` at an offset. -/
def loadIpv4 (view : Nat → UInt8) (offset : Nat) : WxIpv4 := fun i => view (offset + i)

/-! ## Headers -/

/-- `wx_eth_hdr_t`, 14 bytes. -/
structure WxEthHdr where
  dest : WxMac
  src : WxMac
  ethertype : Nat

def WxEthHdr.bytes (h : WxEthHdr) : List UInt8 :=
  List.ofFn h.dest ++ List.ofFn h.src ++ bytes16 h.ethertype

def WxEthHdr.load (view : Nat → UInt8) : WxEthHdr :=
  { dest := loadMac view 0
    src := loadMac view 6
    ethertype := load16 view 12 }

/-- `wx_arp_hdr_t`, 28 bytes. -/
structure WxArpHdr where
  hwType : Nat
  protoType : Nat
  hwLen : UInt8
  protoLen : UInt8
  opcode : Nat
  senderMac : WxMac
  senderIp : WxIpv4
  targetMac : WxMac
  targetIp : WxIpv4

def WxArpHdr.bytes (h : WxArpHdr) : List UInt8 :=
  bytes16 h.hwType ++ bytes16 h.protoType ++ [h.hwLen, h.protoLen] ++ bytes16 h.opcode ++
    List.ofFn h.senderMac ++ List.ofFn h.senderIp ++ List.ofFn h.targetMac ++ List.ofFn h.targetIp

def WxArpHdr.load (view : Nat → UInt8) : WxArpHdr :=
  { hwType := load16 view 0
    protoType := load16 view 2
    hwLen := view 4
    protoLen := view 5
    opcode := load16 view 6
    senderMac := loadMac view 8
    senderIp := loadIpv4 view 14
    targetMac := loadMac view 18
    targetIp := loadIpv4 view 24 }

/-- `wx_ipv4_hdr_t`, 20 bytes; `ihl` is the low half of the first byte, `version` the high one. -/
structure WxIpv4Hdr where
  ihl : Nat
  version : Nat
  tos : UInt8
  totalLen : Nat
  id : Nat
  fragOffset : Nat
  ttl : UInt8
  protocol : UInt8
  checksum : Nat
  srcIp : WxIpv4
  destIp : WxIpv4

def WxIpv4Hdr.bytes (h : WxIpv4Hdr) : List UInt8 :=
  [UInt8.ofNat (h.ihl + 16 * h.version), h.tos] ++ bytes16 h.totalLen ++ bytes16 h.id ++
    bytes16 h.fragOffset ++ [h.ttl, h.protocol] ++ bytes16 h.checksum ++ List.ofFn h.srcIp ++
    List.ofFn h.destIp

def WxIpv4Hdr.load (view : Nat → UInt8) : WxIpv4Hdr :=
  { ihl := (view 0).toNat % 16
    version := (view 0).toNat / 16
    tos := view 1
    totalLen := load16 view 2
    id := load16 view 4
    fragOffset := load16 view 6
    ttl := view 8
    protocol := view 9
    checksum := load16 view 10
    srcIp := loadIpv4 view 12
    destIp := loadIpv4 view 16 }

/-- `wx_icmp_hdr_t`, 8 bytes. -/
structure WxIcmpHdr where
  type : UInt8
  code : UInt8
  checksum : Nat
  id : Nat
  seq : Nat

def WxIcmpHdr.bytes (h : WxIcmpHdr) : List UInt8 :=
  [h.type, h.code] ++ bytes16 h.checksum ++ bytes16 h.id ++ bytes16 h.seq

def WxIcmpHdr.load (view : Nat → UInt8) : WxIcmpHdr :=
  { type := view 0
    code := view 1
    checksum := load16 view 2
    id := load16 view 4
    seq := load16 view 6 }

/-- `wx_tcp_hdr_t`, 20 bytes; of the flags, those the code reads or sets. -/
structure WxTcpHdr where
  srcPort : Nat
  destPort : Nat
  seqNum : Nat
  ackNum : Nat
  dataOffset : Nat
  syn : Bool
  ack : Bool
  windowSize : Nat
  checksum : Nat

/-- The reserved bits, the other flags and the urgent pointer are zero. -/
def WxTcpHdr.bytes (h : WxTcpHdr) : List UInt8 :=
  bytes16 h.srcPort ++ bytes16 h.destPort ++ bytes32 h.seqNum ++ bytes32 h.ackNum ++
    [UInt8.ofNat (16 * h.dataOffset),
      UInt8.ofNat ((if h.syn then 2 else 0) + (if h.ack then 16 else 0))] ++
    bytes16 h.windowSize ++ bytes16 h.checksum ++ bytes16 0

def WxTcpHdr.load (view : Nat → UInt8) : WxTcpHdr :=
  { srcPort := load16 view 0
    destPort := load16 view 2
    seqNum := load32 view 4
    ackNum := load32 view 8
    dataOffset := (view 12).toNat / 16
    syn := (view 13).toNat.testBit 1
    ack := (view 13).toNat.testBit 4
    windowSize := load16 view 14
    checksum := load16 view 16 }

/-- `wx_pseudo_hdr_t`, 12 bytes. -/
structure WxPseudoHdr where
  srcIp : WxIpv4
  destIp : WxIpv4
  zero : UInt8
  protocol : UInt8
  length : Nat

def WxPseudoHdr.bytes (h : WxPseudoHdr) : List UInt8 :=
  List.ofFn h.srcIp ++ List.ofFn h.destIp ++ [h.zero, h.protocol] ++ bytes16 h.length

/-! ## Checksums -/

/-- `sum += *p++` over the 16-bit words, and over the byte that is left. -/
def addWords : Nat → List UInt8 → Nat
  | sum, a :: b :: rest => addWords (wrap32 (sum + (a.toNat + 256 * b.toNat))) rest
  | sum, [a] => wrap32 (sum + a.toNat)
  | sum, [] => sum

/-- `while (sum >> 16) sum = (sum & 0xFFFF) + (sum >> 16)` -/
def foldCarries (sum : Nat) : Nat :=
  if sum / 65536 = 0 then sum else foldCarries (sum % 65536 + sum / 65536)
termination_by sum
decreasing_by omega

/-- `~sum`, as a `uint16_t`. -/
def complement16 (sum : Nat) : Nat := 65535 - wrap16 sum

def wxChecksum (data : List UInt8) : Nat := complement16 (foldCarries (addWords 0 data))

end Net
end WhitexKernel
