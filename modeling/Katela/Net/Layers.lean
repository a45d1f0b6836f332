import Katela.Foundation.Checked
import Katela.Net.Checksum

/-! # Ethernet, IPv4, UDP and ICMP

A model of `net/ethernet.c`, `net/ipv4.c`, `net/udp.c` and `net/icmp.c`. A pointer
with a size is the list of the bytes there. The parsers check each index and each
payload against that list. The builders give the bytes that they write, or nothing
where they return 0. -/

namespace Katela.Net

/-! ## Numbers and addresses -/

def be16Read {ε : Type} (bytes : List UInt8) (offset : Nat) : Checked ε UInt16 := do
  let high ← Checked.get bytes offset
  let low ← Checked.get bytes (offset + 1)
  .done (UInt16.ofNat (256 * high.toNat + low.toNat))

def be16Write (value : UInt16) : List UInt8 :=
  [UInt8.ofNat (value.toNat / 256), UInt8.ofNat value.toNat]

/-- The bytes of a `struct mac_addr` or `struct ipv4_addr`. -/
abbrev Address (size : Nat) : Type := { bytes : List UInt8 // bytes.length = size }

abbrev MacAddr : Type := Address 6

abbrev Ipv4Addr : Type := Address 4

/-- The address with the given bytes. -/
def ipv4 (first second third fourth : UInt8) : Ipv4Addr :=
  ⟨[first, second, third, fourth], rfl⟩

/-- `memcpy` from the bytes at an offset. -/
def copyAddress {ε : Type} {size : Nat} (bytes : List UInt8) (offset : Nat) :
    Checked ε (Address size) :=
  if inside : offset + size ≤ bytes.length then
    .done ⟨(bytes.drop offset).take size, by
      rw [List.length_take, List.length_drop]
      omega⟩
  else .outside

/-! ## Ethernet -/

def ethernetHeaderSize : Nat := 14

def ethernetMtu : Nat := 1500

def ethernetFrameMin : Nat := 60

def ethernetFrameMax : Nat := ethernetHeaderSize + ethernetMtu

structure EthernetHeader where
  destination : MacAddr
  source : MacAddr
  type : UInt16
  deriving DecidableEq

def ethernetParse (frame : List UInt8) :
    Checked Unit (EthernetHeader × List UInt8) :=
  if frame.length < ethernetHeaderSize ∨ frame.length > ethernetFrameMax then
    .failed ()
  else do
    let destination ← copyAddress frame 0
    let source ← copyAddress frame 6
    let type ← be16Read frame 12
    let payload ← Checked.slice frame ethernetHeaderSize
      (frame.length - ethernetHeaderSize)
    .done (⟨destination, source, type⟩, payload)

def ethernetBuild (capacity : Nat) (header : EthernetHeader) (payload : List UInt8) :
    Option (List UInt8) :=
  let size := ethernetHeaderSize + payload.length
  if payload.length > ethernetMtu then none
  else
    let size := if size < ethernetFrameMin then ethernetFrameMin else size
    if capacity < size then none
    else some (header.destination.val ++ header.source.val ++ be16Write header.type ++
      payload ++ List.replicate (size - ethernetHeaderSize - payload.length) 0)

def ethernetForUs (header : EthernetHeader) (own : MacAddr) : Bool :=
  header.destination = own ∨ header.destination.val = List.replicate 6 0xFF

/-! ## IPv4 -/

def ipv4HeaderSize : Nat := 20

def ipv4PacketMax : Nat := 65535

inductive Ipv4Error where
  | malformed
  | fragment
  deriving DecidableEq, Repr

structure Ipv4Header where
  headerLength : UInt8
  tos : UInt8
  totalLength : UInt16
  id : UInt16
  flagsFragment : UInt16
  ttl : UInt8
  protocol : UInt8
  source : Ipv4Addr
  destination : Ipv4Addr
  deriving DecidableEq

def ipv4HeaderInit (source destination : Ipv4Addr) (protocol : UInt8) :
    Ipv4Header where
  headerLength := 20
  tos := 0
  totalLength := 0
  id := 0
  flagsFragment := 0x4000
  ttl := 64
  protocol
  source
  destination

/-- The flag for more fragments, or an offset. -/
def isFragment (flagsFragment : UInt16) : Bool :=
  flagsFragment &&& (0x2000 ||| 0x1FFF) ≠ 0

def ipv4PacketParse (packet : List UInt8) :
    Checked Ipv4Error (Ipv4Header × List UInt8) :=
  if packet.length < ipv4HeaderSize then .failed .malformed
  else do
    let first ← Checked.get packet 0
    if first >>> 4 ≠ 4 then .failed .malformed
    else
      let headerLength := (first &&& 0x0F).toNat * 4
      if headerLength < ipv4HeaderSize ∨ headerLength > packet.length then
        .failed .malformed
      else do
        let total ← be16Read packet 2
        let totalLength := total.toNat
        if totalLength < headerLength ∨ totalLength > packet.length then
          .failed .malformed
        else do
          let headerBytes ← Checked.slice packet 0 headerLength
          if checksum headerBytes ≠ 0 then .failed .malformed
          else do
            let tos ← Checked.get packet 1
            let id ← be16Read packet 4
            let flagsFragment ← be16Read packet 6
            let ttl ← Checked.get packet 8
            let protocol ← Checked.get packet 9
            let source ← copyAddress packet 12
            let destination ← copyAddress packet 16
            if isFragment flagsFragment then .failed .fragment
            else do
              let payload ← Checked.slice packet headerLength
                (totalLength - headerLength)
              .done (⟨UInt8.ofNat headerLength, tos, total, id, flagsFragment, ttl,
                protocol, source, destination⟩, payload)

/-- The header as it is written, with the given checksum. -/
def ipv4HeaderBytes (header : Ipv4Header) (total : UInt16) (sum : UInt16) :
    List UInt8 :=
  [0x45, header.tos] ++ be16Write total ++ be16Write header.id ++
    be16Write header.flagsFragment ++ [header.ttl, header.protocol] ++
    be16Write sum ++ header.source.val ++ header.destination.val

def ipv4PacketBuild (capacity : Nat) (header : Ipv4Header) (payload : List UInt8) :
    Option (List UInt8) :=
  if payload.length > ipv4PacketMax - ipv4HeaderSize then none
  else
    let total := ipv4HeaderSize + payload.length
    if capacity < total then none
    else
      let sum := checksum (ipv4HeaderBytes header (UInt16.ofNat total) 0)
      some (ipv4HeaderBytes header (UInt16.ofNat total) sum ++ payload)

def ipv4PseudoSum (source destination : Ipv4Addr) (protocol : UInt8) (length : Nat) :
    Nat :=
  checksumAdd 0 (source.val ++ destination.val ++ [0, protocol] ++
    be16Write (UInt16.ofNat length))

/-! ## UDP -/

def udpHeaderSize : Nat := 8

inductive UdpError where
  | malformed
  | checksum
  deriving DecidableEq, Repr

structure UdpHeader where
  sourcePort : UInt16
  destinationPort : UInt16
  length : UInt16
  deriving DecidableEq, Repr

def udpParse (data : List UInt8) (source destination : Ipv4Addr) :
    Checked UdpError (UdpHeader × List UInt8) :=
  if data.length < udpHeaderSize then .failed .malformed
  else do
    let total ← be16Read data 4
    let length := total.toNat
    if length < udpHeaderSize ∨ length > data.length then .failed .malformed
    else do
      let stored ← be16Read data 6
      let datagram ← Checked.slice data 0 length
      if stored ≠ 0 ∧ checksumFinish (checksumAdd
          (ipv4PseudoSum source destination 17 length) datagram) ≠ 0 then
        .failed .checksum
      else do
        let sourcePort ← be16Read data 0
        let destinationPort ← be16Read data 2
        let payload ← Checked.slice data udpHeaderSize (length - udpHeaderSize)
        .done (⟨sourcePort, destinationPort, total⟩, payload)

/-- The header as it is written, with the given checksum. -/
def udpHeaderBytes (sourcePort destinationPort total sum : UInt16) : List UInt8 :=
  be16Write sourcePort ++ be16Write destinationPort ++ be16Write total ++ be16Write sum

def udpBuild (capacity : Nat) (source destination : Ipv4Addr)
    (sourcePort destinationPort : UInt16) (payload : List UInt8) :
    Option (List UInt8) :=
  if payload.length > ipv4PacketMax - ipv4HeaderSize - udpHeaderSize then none
  else
    let total := udpHeaderSize + payload.length
    if capacity < total then none
    else
      let header := udpHeaderBytes sourcePort destinationPort (UInt16.ofNat total)
      let sum := checksumFinish (checksumAdd (ipv4PseudoSum source destination 17 total)
        (header 0 ++ payload))
      let sum := if sum = 0 then 0xFFFF else sum
      some (header sum ++ payload)

/-! ## ICMP -/

def icmpHeaderSize : Nat := 8

structure IcmpMessage where
  type : UInt8
  code : UInt8
  id : UInt16
  sequence : UInt16
  payload : List UInt8
  deriving DecidableEq, Repr

def icmpParse (data : List UInt8) : Checked Unit IcmpMessage :=
  if data.length < icmpHeaderSize then .failed ()
  else if checksum data ≠ 0 then .failed ()
  else do
    let type ← Checked.get data 0
    let code ← Checked.get data 1
    let id ← be16Read data 4
    let sequence ← be16Read data 6
    let payload ← Checked.slice data icmpHeaderSize (data.length - icmpHeaderSize)
    .done ⟨type, code, id, sequence, payload⟩

/-- The header as it is written, with the given checksum. -/
def icmpHeaderBytes (type code : UInt8) (sum id sequence : UInt16) : List UInt8 :=
  [type, code] ++ be16Write sum ++ be16Write id ++ be16Write sequence

def icmpBuild (capacity : Nat) (type code : UInt8) (id sequence : UInt16)
    (payload : List UInt8) : Option (List UInt8) :=
  if payload.length > ipv4PacketMax - ipv4HeaderSize - icmpHeaderSize then none
  else
    let total := icmpHeaderSize + payload.length
    if capacity < total then none
    else
      let sum := checksum (icmpHeaderBytes type code 0 id sequence ++ payload)
      some (icmpHeaderBytes type code sum id sequence ++ payload)

def icmpEchoReply (capacity : Nat) (request : IcmpMessage) : Option (List UInt8) :=
  if request.type ≠ 8 then none
  else icmpBuild capacity 0 0 request.id request.sequence request.payload

end Katela.Net
