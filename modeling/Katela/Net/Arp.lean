import Mathlib.Logic.Function.Basic
import Katela.Net.Layers

/-! # ARP

A model of `net/arp.c`. Times are milliseconds in 32 bits. -/

namespace Katela.Net

def arpPacketSize : Nat := 28

def arpRequest : UInt16 := 1

def arpReply : UInt16 := 2

structure ArpPacket where
  operation : UInt16
  senderMac : MacAddr
  senderIp : Ipv4Addr
  targetMac : MacAddr
  targetIp : Ipv4Addr
  deriving DecidableEq

def arpParse (data : List UInt8) : Checked Unit ArpPacket :=
  if data.length < arpPacketSize then .failed ()
  else do
    let hardware ← be16Read data 0
    let protocol ← be16Read data 2
    let macSize ← Checked.get data 4
    let ipSize ← Checked.get data 5
    if hardware ≠ 1 ∨ protocol ≠ 0x0800 ∨ macSize ≠ 6 ∨ ipSize ≠ 4 then .failed ()
    else do
      let operation ← be16Read data 6
      if operation ≠ arpRequest ∧ operation ≠ arpReply then .failed ()
      else do
        let senderMac ← copyAddress data 8
        let senderIp ← copyAddress data 14
        let targetMac ← copyAddress data 18
        let targetIp ← copyAddress data 24
        .done ⟨operation, senderMac, senderIp, targetMac, targetIp⟩

def arpBuild (capacity : Nat) (packet : ArpPacket) : Option (List UInt8) :=
  if capacity < arpPacketSize then none
  else some (be16Write 1 ++ be16Write 0x0800 ++ [6, 4] ++ be16Write packet.operation ++
    packet.senderMac.val ++ packet.senderIp.val ++ packet.targetMac.val ++
    packet.targetIp.val)

def macBroadcast : MacAddr := ⟨List.replicate 6 0xFF, rfl⟩

def macZero : MacAddr := ⟨List.replicate 6 0, rfl⟩

def arpFrame (capacity : Nat) (packet : ArpPacket) : Option (List UInt8) :=
  match arpBuild arpPacketSize packet with
  | none => none
  | some body =>
      let destination :=
        if packet.operation = arpRequest then macBroadcast else packet.targetMac
      ethernetBuild capacity ⟨destination, packet.senderMac, 0x0806⟩ body

def arpMakeRequest (ownMac : MacAddr) (ownIp targetIp : Ipv4Addr) : ArpPacket :=
  ⟨arpRequest, ownMac, ownIp, macZero, targetIp⟩

def arpMakeReply (ownMac : MacAddr) (ownIp : Ipv4Addr) (request : ArpPacket) :
    ArpPacket :=
  ⟨arpReply, ownMac, ownIp, request.senderMac, request.senderIp⟩

/-! ## The table -/

def arpTableSize : Nat := 16

def arpEntryLifetime : UInt32 := 60000

structure ArpEntry where
  ip : Ipv4Addr
  mac : MacAddr
  updated : UInt32
  used : Bool
  deriving DecidableEq

abbrev ArpTable : Type := Fin arpTableSize → ArpEntry

def ipv4Zero : Ipv4Addr := ⟨List.replicate 4 0, rfl⟩

def ipv4Ones : Ipv4Addr := ⟨List.replicate 4 0xFF, rfl⟩

def arpTableInit : ArpTable := fun _ => ⟨ipv4Zero, macZero, 0, false⟩

/-- The first entry that a loop stops at. -/
def findEntry (table : ArpTable) (stops : ArpEntry → Bool) :
    Option (Fin arpTableSize) :=
  (List.finRange arpTableSize).find? fun index => stops (table index)

/-- One round of the loop that looks for the oldest entry. -/
def olderEntry (table : ArpTable) (now : UInt32)
    (target : Option (Fin arpTableSize × UInt32)) (index : Fin arpTableSize) :
    Option (Fin arpTableSize × UInt32) :=
  let age := now - (table index).updated
  match target with
  | none => some (index, age)
  | some (_, oldestAge) => if age > oldestAge then some (index, age) else target

def oldestEntry (table : ArpTable) (now : UInt32) : Option (Fin arpTableSize) :=
  ((List.finRange arpTableSize).foldl (olderEntry table now) none).map Prod.fst

/-- The entry that an update is written to. -/
def updateTarget (table : ArpTable) (ip : Ipv4Addr) (now : UInt32) :
    Option (Fin arpTableSize) :=
  match findEntry table fun entry => entry.used ∧ entry.ip = ip with
  | some index => some index
  | none =>
      match findEntry table fun entry => !entry.used with
      | some index => some index
      | none => oldestEntry table now

/-- There always is a target, so the table is never left as it was. -/
def arpTableUpdate (table : ArpTable) (ip : Ipv4Addr) (mac : MacAddr) (now : UInt32) :
    ArpTable :=
  match updateTarget table ip now with
  | none => table
  | some index => Function.update table index ⟨ip, mac, now, true⟩

def arpTableLookup (table : ArpTable) (ip : Ipv4Addr) (now : UInt32) :
    Option MacAddr × ArpTable :=
  match findEntry table fun entry => entry.used ∧ entry.ip = ip with
  | none => (none, table)
  | some index =>
      if now - (table index).updated ≥ arpEntryLifetime then
        (none, Function.update table index { table index with used := false })
      else (some (table index).mac, table)

def arpTableRemove (table : ArpTable) (ip : Ipv4Addr) : ArpTable :=
  fun index =>
    if (table index).used ∧ (table index).ip = ip then
      { table index with used := false }
    else table index

def arpTableExpire (table : ArpTable) (now : UInt32) : ArpTable :=
  fun index =>
    if (table index).used ∧ now - (table index).updated ≥ arpEntryLifetime then
      { table index with used := false }
    else table index

def macIsMulticast (mac : MacAddr) : Bool :=
  (mac.val.headD 0) &&& 1 ≠ 0

def senderIsValid (packet : ArpPacket) (ownIp : Ipv4Addr) : Bool :=
  ¬ (packet.senderIp = ipv4Zero ∨ packet.senderIp = ipv4Ones) ∧
    packet.senderIp ≠ ownIp ∧
    ¬ (packet.senderMac = macZero ∨ macIsMulticast packet.senderMac)

/-- The reply if there is one, and the table. -/
def arpHandle (table : ArpTable) (packet : ArpPacket) (ownMac : MacAddr)
    (ownIp : Ipv4Addr) (now : UInt32) : Option ArpPacket × ArpTable :=
  let forUs := packet.targetIp = ownIp
  let table :=
    if senderIsValid packet ownIp then
      if forUs then arpTableUpdate table packet.senderIp packet.senderMac now
      else
        match arpTableLookup table packet.senderIp now with
        | (some _, table) =>
            arpTableUpdate table packet.senderIp packet.senderMac now
        | (none, table) => table
    else table
  if packet.operation = arpRequest ∧ forUs ∧ packet.senderMac ≠ macZero ∧
      ¬ macIsMulticast packet.senderMac ∧ packet.senderIp ≠ ownIp then
    (some (arpMakeReply ownMac ownIp packet), table)
  else (none, table)

end Katela.Net
