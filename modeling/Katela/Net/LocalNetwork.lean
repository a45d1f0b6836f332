import Katela.Net.ArpTable
import Katela.Net.Receive
import Mathlib.Logic.Relation

/-! # Hosts on one cable

What `resolve`, `net_ping` and `net_resolve` of `src/kernel/net.c` send, and the receive
tasks of the hosts that it reaches. Each host is built with its own `own_ip`. A frame that
was sent can be delivered late, more than once, after a later one or never. -/

namespace Katela.Net

/-! ## What the callers send -/

def ipv4ToU32 (address : Ipv4Addr) : UInt32 :=
  (address.val.getD 0 0).toUInt32 <<< 24 ||| (address.val.getD 1 0).toUInt32 <<< 16 |||
    (address.val.getD 2 0).toUInt32 <<< 8 ||| (address.val.getD 3 0).toUInt32

def ipv4InSubnet (first second mask : Ipv4Addr) : Bool :=
  (ipv4ToU32 first ^^^ ipv4ToU32 second) &&& ipv4ToU32 mask = 0

def netmask : Ipv4Addr := ipv4 255 255 255 0

/-- The address that `net_ping` and `net_resolve` look up. -/
def nextHop (state : Network) (gateway target : Ipv4Addr) : Ipv4Addr :=
  if ipv4InSubnet target state.ownIp netmask then target else gateway

def tableLookup (state : Network) (ip : Ipv4Addr) (now : UInt32) :
    Option MacAddr × Network :=
  ((arpTableLookup state.table ip now).1,
    { state with table := (arpTableLookup state.table ip now).2 })

/-- The request that an attempt of `resolve` sends. -/
def askFor (state : Network) (ip : Ipv4Addr) : Network :=
  match arpFrame ethernetFrameMin (arpMakeRequest state.ownMac state.ownIp ip) with
  | none => state
  | some frame => { state with sent := state.sent ++ [frame] }

def pingPayloadSize : Nat := 32

def pingData : List UInt8 :=
  (List.range pingPayloadSize).map fun i => UInt8.ofNat (97 + i % 26)

/-- The variables of the request as `net_ping` sets them. -/
def armEcho (state : Network) (target : Ipv4Addr) : Network :=
  { state with
    echo := { state.echo with
      sequence := state.echo.sequence + 1
      target
      received := false
      waiting := true } }

/-- The request that `net_ping` sends. -/
def sendPing (state : Network) (destination : MacAddr) (target : Ipv4Addr) : Network :=
  match icmpBuild (icmpHeaderSize + pingPayloadSize) 8 0 pingId state.echo.sequence
      pingData with
  | none => state
  | some payload => sendIpv4 state destination target 1 payload
      (ipv4HeaderSize + icmpHeaderSize + pingPayloadSize)
      (ethernetHeaderSize + ipv4HeaderSize + icmpHeaderSize + pingPayloadSize)

def dnsMessageMax : Nat := 512

/-- The question that an attempt of `net_resolve` sends. -/
def sendQuery (state : Network) (destination : MacAddr) : Network :=
  match dnsQueryBuild dnsMessageMax state.dns.id state.dns.name with
  | .done query =>
      match udpBuild (udpHeaderSize + dnsMessageMax) state.ownIp state.dnsServer
          state.dns.localPort 53 query with
      | none => state
      | some datagram => sendIpv4 state destination state.dnsServer 17 datagram
          (ipv4HeaderSize + udpHeaderSize + dnsMessageMax)
          (ethernetHeaderSize + ipv4HeaderSize + udpHeaderSize + dnsMessageMax)
  | _ => state

/-! ## The hosts -/

/-- What one host can do while some frames are on the cable. The shell task can set its
variables between any two other steps. -/
inductive HostStep (wire : List UInt8 → Prop) (state : Network) : Network → Prop where
  | receive {frame : List UInt8} {state' : Network} (now : UInt32) (unset : Ipv4Addr)
      (onWire : wire frame) (handled : handleFrame state now unset frame = .done state') :
      HostStep wire state state'
  | lookup (ip : Ipv4Addr) (now : UInt32) :
      HostStep wire state (tableLookup state ip now).2
  | ask (ip : Ipv4Addr) : HostStep wire state (askFor state ip)
  | ping (destination : MacAddr) (target : Ipv4Addr) :
      HostStep wire state (sendPing state destination target)
  | query (destination : MacAddr) : HostStep wire state (sendQuery state destination)
  | shell (echo : EchoState) (dns : DnsState) :
      HostStep wire state { state with echo, dns }

section Hosts

variable {Host : Type} [DecidableEq Host]

def OnWire (hosts : Host → Network) (frame : List UInt8) : Prop :=
  ∃ host, frame ∈ (hosts host).sent

inductive LanStep (hosts : Host → Network) : (Host → Network) → Prop where
  | act (host : Host) {state' : Network}
      (step : HostStep (OnWire hosts) (hosts host) state') :
      LanStep hosts (Function.update hosts host state')

/-- Nothing was learned or sent, and no two hosts have the same address. -/
structure LanStarted (hosts : Host → Network) : Prop where
  table : ∀ host, (hosts host).table = arpTableInit
  sent : ∀ host, (hosts host).sent = []
  distinct : Function.Injective fun host => (hosts host).ownIp

abbrev LanReachable (start hosts : Host → Network) : Prop :=
  Relation.ReflTransGen LanStep start hosts

end Hosts

/-! ## What a frame carries -/

/-- The frame carries an ARP packet. -/
def ArpIn (frame : List UInt8) (packet : ArpPacket) : Prop :=
  ∃ header padded, ethernetParse frame = .done (header, padded) ∧ header.type = 0x0806 ∧
    arpParse padded = .done packet

/-- The frame carries data between two addresses. -/
def DataIn (frame : List UInt8) (source destination : Ipv4Addr) (protocol : UInt8)
    (data : List UInt8) : Prop :=
  ∃ header padded parsed, ethernetParse frame = .done (header, padded) ∧
    header.type = 0x0800 ∧ ipv4PacketParse padded = .done (parsed, data) ∧
    parsed.source = source ∧ parsed.destination = destination ∧ parsed.protocol = protocol

def EchoIn (frame : List UInt8) (source destination : Ipv4Addr) (message : IcmpMessage) :
    Prop :=
  ∃ data, DataIn frame source destination 1 data ∧ icmpParse data = .done message

/-- A frame that a host sends gives its own addresses, and a reply answers a request. -/
inductive Truthful (wire : List UInt8 → Prop) (state : Network) (frame : List UInt8) :
    Prop where
  | arp {packet : ArpPacket} (content : ArpIn frame packet)
      (mac : packet.senderMac = state.ownMac) (ip : packet.senderIp = state.ownIp)
  | request {destination : Ipv4Addr} {message : IcmpMessage}
      (content : EchoIn frame state.ownIp destination message) (isRequest : message.type = 8)
  | reply {destination : Ipv4Addr} {message : IcmpMessage} {request : List UInt8}
      (content : EchoIn frame state.ownIp destination
        ⟨0, 0, message.id, message.sequence, message.payload⟩)
      (onWire : wire request) (asked : EchoIn request destination state.ownIp message)
      (isRequest : message.type = 8)
  | datagram {destination : Ipv4Addr} {data : List UInt8}
      (content : DataIn frame state.ownIp destination 17 data)

section Frames

variable {frame data data' : List UInt8} {packet : ArpPacket}
variable {source source' destination destination' : Ipv4Addr} {protocol protocol' : UInt8}
variable {message message' : IcmpMessage} {state state' : Network}

theorem DataIn.unique (first : DataIn frame source destination protocol data)
    (second : DataIn frame source' destination' protocol' data') :
    source = source' ∧ destination = destination' ∧ protocol = protocol' ∧ data = data' := by
  rcases first with ⟨_, _, _, framed, _, parsed, rfl, rfl, rfl⟩
  rcases second with ⟨_, _, _, framed', _, parsed', rfl, rfl, rfl⟩
  rw [framed] at framed'
  cases framed'
  rw [parsed] at parsed'
  cases parsed'
  exact ⟨rfl, rfl, rfl, rfl⟩

theorem EchoIn.unique (first : EchoIn frame source destination message)
    (second : EchoIn frame source' destination' message') :
    source = source' ∧ destination = destination' ∧ message = message' := by
  rcases first with ⟨data, carries, isMessage⟩
  rcases second with ⟨data', carries', isMessage'⟩
  rcases carries.unique carries' with ⟨isSource, isDestination, -, rfl⟩
  rw [isMessage] at isMessage'
  cases isMessage'
  exact ⟨isSource, isDestination, rfl⟩

theorem ArpIn.not_dataIn (first : ArpIn frame packet) :
    ¬ DataIn frame source destination protocol data := by
  rintro ⟨_, _, _, framed', isIp, -⟩
  rcases first with ⟨_, _, framed, isArp, -⟩
  rw [framed] at framed'
  cases framed'
  rw [isArp] at isIp
  exact absurd isIp (by decide)

/-! ## What is built -/

theorem arpParse_build {packet : ArpPacket} {capacity : Nat} {body : List UInt8}
    (padding : List UInt8) (isKind : packet.operation = arpRequest ∨
      packet.operation = arpReply)
    (built : arpBuild capacity packet = some body) :
    body.length = arpPacketSize ∧ arpParse (body ++ padding) = .done packet := by
  rcases packet with ⟨operation, senderMac, senderIp, targetMac, targetIp⟩
  dsimp only at isKind
  have isSize : arpPacketSize = 28 := rfl
  unfold arpBuild at built
  split at built
  · cases built
  · cases built
    have mac := senderMac.property
    have ip := senderIp.property
    have mac' := targetMac.property
    have ip' := targetIp.property
    dsimp only
    have isLength : (be16Write 1 ++ be16Write 0x0800 ++ [6, 4] ++ be16Write operation ++
        senderMac.val ++ senderIp.val ++ targetMac.val ++ targetIp.val).length = 28 := by
      simp only [List.length_append, length_be16Write, List.length_cons, List.length_nil]
      omega
    refine ⟨isLength, ?_⟩
    generalize isData : be16Write 1 ++ be16Write 0x0800 ++ [6, 4] ++ be16Write operation ++
      senderMac.val ++ senderIp.val ++ targetMac.val ++ targetIp.val ++ padding = data
    have atLeast : 28 ≤ data.length := by
      rw [← isData, List.length_append, isLength]
      exact Nat.le_add_right ..
    simp only [List.append_assoc] at isData
    have at0 : data.drop 0 = be16Write 1 ++ _ := isData.symm
    have at2 : data.drop 2 = be16Write 0x0800 ++ _ := drop_next at0 rfl
    have at4 : data.drop 4 = 6 :: 4 :: _ := drop_next at2 rfl
    have at5 : data.drop 5 = 4 :: _ := (getElem?_of_drop at4).2
    have at6 : data.drop 6 = be16Write operation ++ _ := (getElem?_of_drop at5).2
    have at8 : data.drop 8 = senderMac.val ++ _ := drop_next at6 rfl
    have at14 : data.drop 14 = senderIp.val ++ _ := drop_next at8 mac
    have at18 : data.drop 18 = targetMac.val ++ _ := drop_next at14 ip
    have at24 : data.drop 24 = targetIp.val ++ padding := drop_next at18 mac'
    have known : ¬ (operation ≠ arpRequest ∧ operation ≠ arpReply) := by
      rintro ⟨notRequest, notReply⟩
      exact isKind.elim notRequest notReply
    rw [arpParse, if_neg (by omega), be16Read_of_drop at0, Checked.done_bind,
      be16Read_of_drop at2, Checked.done_bind, Checked.get_of_drop at4, Checked.done_bind,
      Checked.get_of_drop at5, Checked.done_bind, if_neg (by simp),
      be16Read_of_drop at6, Checked.done_bind, if_neg known,
      copyAddress_of_drop at8 (by omega), Checked.done_bind,
      copyAddress_of_drop at14 (by omega), Checked.done_bind,
      copyAddress_of_drop at18 (by omega), Checked.done_bind,
      copyAddress_of_drop at24 (by omega), Checked.done_bind]

theorem arpFrame_build {capacity : Nat} (packet : ArpPacket)
    (isKind : packet.operation = arpRequest ∨ packet.operation = arpReply)
    (room : ethernetFrameMin ≤ capacity) :
    ∃ frame padded, arpFrame capacity packet = some frame ∧
      ethernetParse frame = .done (⟨if packet.operation = arpRequest then macBroadcast
        else packet.targetMac, packet.senderMac, 0x0806⟩, padded) ∧
      arpParse padded = .done packet := by
  have isMin : ethernetFrameMin = 60 := rfl
  have isHeader : ethernetHeaderSize = 14 := rfl
  have isMtu : ethernetMtu = 1500 := rfl
  have isSize : arpPacketSize = 28 := rfl
  cases built : arpBuild arpPacketSize packet with
  | none =>
      unfold arpBuild at built
      rw [if_neg (Nat.lt_irrefl _)] at built
      cases built
  | some body =>
      have isLength := (arpParse_build [] isKind built).1
      rcases @ethernetParse_build capacity ⟨if packet.operation = arpRequest then macBroadcast
          else packet.targetMac, packet.senderMac, 0x0806⟩ body (by omega) room (by omega) with
        ⟨frame, padding, isFrame, parsed⟩
      refine ⟨frame, body ++ padding, ?_, parsed, (arpParse_build padding isKind built).2⟩
      rw [arpFrame, built]
      exact isFrame

theorem icmpParse_built {capacity : Nat} {type code : UInt8} {id sequence : UInt16}
    {payload : List UInt8} (built : icmpBuild capacity type code id sequence payload = some data) :
    icmpParse data = .done ⟨type, code, id, sequence, payload⟩ := by
  have isHeader : icmpHeaderSize = 8 := rfl
  have isIpHeader : ipv4HeaderSize = 20 := rfl
  have isMost : ipv4PacketMax = 65535 := rfl
  have sizes : ipv4HeaderSize + (icmpHeaderSize + payload.length) ≤ ipv4PacketMax ∧
      icmpHeaderSize + payload.length ≤ capacity := by
    unfold icmpBuild at built
    split at built
    · cases built
    · dsimp only at built
      split at built
      · cases built
      · omega
  rcases icmpParse_build type code id sequence sizes.1 sizes.2 with ⟨_, built', _, parsed⟩
  rw [built] at built'
  cases built'
  exact parsed

/-- `send_ipv4` sends nothing, or the data with the address of the host. -/
theorem sendIpv4_cases (state : Network) (mac : MacAddr) (target : Ipv4Addr)
    (protocol : UInt8) (data : List UInt8) (packetCapacity frameCapacity : Nat) :
    sendIpv4 state mac target protocol data packetCapacity frameCapacity = state ∨
      ∃ frame, sendIpv4 state mac target protocol data packetCapacity frameCapacity =
          { state with sent := state.sent ++ [frame] } ∧
        DataIn frame state.ownIp target protocol data := by
  have isMtu : ethernetMtu = 1500 := rfl
  have isHeader : ethernetHeaderSize = 14 := rfl
  have isIpHeader : ipv4HeaderSize = 20 := rfl
  have isMost : ipv4PacketMax = 65535 := rfl
  have isMin : ethernetFrameMin = 60 := rfl
  have notFragment : isFragment (ipv4HeaderInit state.ownIp target protocol).flagsFragment =
      false := (by decide : isFragment 0x4000 = false)
  unfold sendIpv4
  dsimp only
  split
  · exact Or.inl rfl
  · next packet isPacket =>
      split
      · exact Or.inl rfl
      · next frame isFrame =>
          refine Or.inr ⟨frame, rfl, ?_⟩
          have sizes : data.length ≤ ipv4PacketMax - ipv4HeaderSize ∧
              ipv4HeaderSize + data.length ≤ packetCapacity := by
            unfold ipv4PacketBuild at isPacket
            split at isPacket
            · cases isPacket
            · dsimp only at isPacket
              split at isPacket
              · cases isPacket
              · omega
          rcases ipv4PacketParse_build [] (by omega) sizes.2 with
            ⟨packet', built, isLength, _⟩
          rw [isPacket] at built
          cases built
          have framed : packet.length ≤ ethernetMtu ∧ ethernetFrameMin ≤ frameCapacity ∧
              ethernetHeaderSize + packet.length ≤ frameCapacity := by
            unfold ethernetBuild at isFrame
            dsimp only at isFrame
            split at isFrame
            · cases isFrame
            · split at isFrame
              all_goals
                split at isFrame
                · cases isFrame
                · omega
          rcases @delivered_build ⟨mac, state.ownMac, 0x0800⟩
            (ipv4HeaderInit state.ownIp target protocol) data packetCapacity frameCapacity
            notFragment (by omega) sizes.2 framed.2.1 (by omega) with
            ⟨packet', frame', built, built', padded, parsed, isEthernet, isIpv4, isSource,
              isDestination, isProtocol⟩
          rw [isPacket] at built
          cases built
          rw [isFrame] at built'
          cases built'
          exact ⟨_, padded, parsed, isEthernet, rfl, isIpv4, isSource, isDestination, isProtocol⟩

/-! ## What a frame does -/

/-- What `handle_arp` does with a packet. -/
def answered (state : Network) (packet : ArpPacket) (now : UInt32) : Network :=
  let result := arpHandle state.table packet state.ownMac state.ownIp now
  { state with
    table := result.2
    sent := state.sent ++ (result.1.bind (arpFrame ethernetFrameMax)).toList }

/-- The outcomes of `handle_frame`. -/
inductive Handled (state : Network) (now : UInt32) (frame : List UInt8) : Network → Prop where
  | ignored : Handled state now frame state
  | arp {packet : ArpPacket} (content : ArpIn frame packet) :
      Handled state now frame (answered state packet now)
  | request {source : Ipv4Addr} {message : IcmpMessage} (mac : MacAddr) {reply : List UInt8}
      (content : EchoIn frame source state.ownIp message) (isRequest : message.type = 8)
      (built : icmpEchoReply ethernetMtu message = some reply) :
      Handled state now frame
        (sendIpv4 state mac source 1 reply ethernetMtu ethernetFrameMax)
  | echo {source : Ipv4Addr} {message : IcmpMessage}
      (content : EchoIn frame source state.ownIp message)
      (accepts : acceptsEcho state.echo source message = true) :
      Handled state now frame { state with echo := publishEcho state.echo now }
  | dns (dns : DnsState) : Handled state now frame { state with dns }

theorem handleArp_eq {now : UInt32} (isPacket : arpParse data = .done packet) :
    handleArp state now data = .done (answered state packet now) := by
  unfold handleArp answered
  rw [isPacket, Checked.recover]
  dsimp only
  generalize arpHandle state.table packet state.ownMac state.ownIp now = result
  rcases result with ⟨reply, table⟩
  cases reply with
  | none => simp
  | some reply =>
      dsimp only [Option.bind_some]
      cases arpFrame ethernetFrameMax reply with
      | none => simp
      | some frame => rfl

theorem handleIcmp_handled {now : UInt32} {frameHeader : EthernetHeader} {ip : Ipv4Header}
    (carries : DataIn frame ip.source state.ownIp 1 data)
    (isDone : handleIcmp state now frameHeader ip data = .done state') :
    Handled state now frame state' := by
  unfold handleIcmp at isDone
  cases parsed : icmpParse data with
  | failed error =>
      rw [parsed] at isDone
      cases isDone
      exact .ignored
  | outside | endless =>
      rw [parsed] at isDone
      cases isDone
  | done message =>
      have content : EchoIn frame ip.source state.ownIp message := ⟨data, carries, parsed⟩
      rw [parsed] at isDone
      simp only [Checked.recover] at isDone
      split at isDone
      · next isRequest =>
          split at isDone
          · cases isDone
            exact .ignored
          · next reply built =>
              cases isDone
              exact .request frameHeader.source content isRequest built
      · split at isDone
        · next accepts =>
            cases isDone
            exact .echo content accepts
        · cases isDone
          exact .ignored

theorem handleUdp_handled {now : UInt32} {unset : Ipv4Addr} {ip : Ipv4Header}
    (isDone : handleUdp state unset ip data = .done state') :
    Handled state now frame state' := by
  unfold handleUdp at isDone
  cases parsed : udpParse data ip.source ip.destination with
  | failed error =>
      rw [parsed] at isDone
      cases isDone
      exact .ignored
  | outside | endless =>
      rw [parsed] at isDone
      cases isDone
  | done result =>
      rcases result with ⟨udp, payload⟩
      rw [parsed] at isDone
      simp only [Checked.recover] at isDone
      split at isDone
      · cases accepted : acceptedResult state.dns payload unset with
        | failed error | outside | endless =>
            rw [accepted] at isDone
            cases isDone
        | done result =>
            rw [accepted, Checked.done_bind] at isDone
            cases result with
            | none =>
                cases isDone
                exact .ignored
            | some result =>
                cases isDone
                exact .dns _
      · cases isDone
        exact .ignored

theorem handleIpv4_handled {now : UInt32} {unset : Ipv4Addr} {header : EthernetHeader}
    {padded : List UInt8} (framed : ethernetParse frame = .done (header, padded))
    (isIp : header.type = 0x0800)
    (isDone : handleIpv4 state now unset header padded = .done state') :
    Handled state now frame state' := by
  unfold handleIpv4 at isDone
  cases parsed : ipv4PacketParse padded with
  | failed error =>
      rw [parsed] at isDone
      cases isDone
      exact .ignored
  | outside | endless =>
      rw [parsed] at isDone
      cases isDone
  | done result =>
      rcases result with ⟨ip, data⟩
      rw [parsed] at isDone
      simp only [Checked.recover] at isDone
      split at isDone
      · cases isDone
        exact .ignored
      · next isOwn =>
          split at isDone
          · next isIcmp =>
              exact handleIcmp_handled ⟨header, padded, ip, framed, isIp, parsed, rfl,
                not_not.mp isOwn, isIcmp⟩ isDone
          · split at isDone
            · exact handleUdp_handled isDone
            · cases isDone
              exact .ignored

theorem handleFrame_handled {now : UInt32} {unset : Ipv4Addr}
    (isDone : handleFrame state now unset frame = .done state') :
    Handled state now frame state' := by
  unfold handleFrame at isDone
  cases framed : ethernetParse frame with
  | failed error =>
      rw [framed] at isDone
      cases isDone
      exact .ignored
  | outside | endless =>
      rw [framed] at isDone
      cases isDone
  | done result =>
      rcases result with ⟨header, padded⟩
      rw [framed] at isDone
      simp only [Checked.recover] at isDone
      split at isDone
      · split at isDone
        · next isArp =>
            cases parsed : arpParse padded with
            | failed error =>
                rw [handleArp, parsed] at isDone
                cases isDone
                exact .ignored
            | outside | endless =>
                rw [handleArp, parsed] at isDone
                cases isDone
            | done packet =>
                rw [handleArp_eq parsed] at isDone
                cases isDone
                exact .arp ⟨header, padded, framed, isArp, parsed⟩
        · split at isDone
          · next isIp =>
              exact handleIpv4_handled framed isIp isDone
          · cases isDone
            exact .ignored
      · cases isDone
        exact .ignored

end Frames

/-! ## What a step of a host adds -/

/-- The table has an entry in use. -/
def Known (table : ArpTable) (ip : Ipv4Addr) (mac : MacAddr) : Prop :=
  ∃ index, (table index).used = true ∧ (table index).ip = ip ∧ (table index).mac = mac

section Tables

variable {table : ArpTable} {ip ip' : Ipv4Addr} {mac mac' : MacAddr} {now : UInt32}

theorem Known.of_update {index : Fin arpTableSize} {entry : ArpEntry}
    (known : Known (Function.update table index entry) ip mac) :
    Known table ip mac ∨ (entry.used = true ∧ entry.ip = ip ∧ entry.mac = mac) := by
  rcases known with ⟨other, isUsed, isIp, isMac⟩
  by_cases same : other = index
  · rw [same, Function.update_self] at isUsed isIp isMac
    exact Or.inr ⟨isUsed, isIp, isMac⟩
  · rw [Function.update_of_ne same] at isUsed isIp isMac
    exact Or.inl ⟨other, isUsed, isIp, isMac⟩

theorem Known.of_tableUpdate (known : Known (arpTableUpdate table ip' mac' now) ip mac) :
    Known table ip mac ∨ (ip' = ip ∧ mac' = mac) := by
  rcases arpTableUpdate_cases table ip' mac' now with ⟨index, isUpdate, -⟩
  rw [isUpdate] at known
  exact known.of_update.imp_right fun entry => entry.2

theorem Known.of_tableLookup (known : Known (arpTableLookup table ip' now).2 ip mac) :
    Known table ip mac := by
  rcases arpTableLookup_cases table ip' now with ⟨-, -, isTable⟩ |
    ⟨index, -, -, ⟨-, -, isTable⟩ | ⟨-, -, isTable⟩⟩
  · rw [isTable] at known
    exact known
  · rw [isTable] at known
    rcases known.of_update with known | ⟨isUsed, -⟩
    · exact known
    · cases isUsed
  · rw [isTable] at known
    exact known

theorem known_of_lookup (found : (arpTableLookup table ip now).1 = some mac) :
    Known table ip mac := by
  rcases arpTableLookup_cases table ip now with ⟨-, isNone, -⟩ |
    ⟨index, isUsed, isIp, ⟨-, isNone, -⟩ | ⟨-, isSome, -⟩⟩
  · rw [isNone] at found
    cases found
  · rw [isNone] at found
    cases found
  · rw [isSome] at found
    cases found
    exact ⟨index, isUsed, isIp, rfl⟩

variable {packet : ArpPacket} {ownMac : MacAddr} {ownIp : Ipv4Addr}

theorem arpHandle_reply {reply : ArpPacket}
    (isReply : (arpHandle table packet ownMac ownIp now).1 = some reply) :
    reply = arpMakeReply ownMac ownIp packet := by
  unfold arpHandle at isReply
  dsimp only at isReply
  split at isReply
  · cases isReply
    rfl
  · cases isReply

/-- A packet adds at most the addresses of its sender. -/
theorem Known.of_arpHandle
    (known : Known (arpHandle table packet ownMac ownIp now).2 ip mac) :
    Known table ip mac ∨ (packet.senderIp = ip ∧ packet.senderMac = mac) := by
  unfold arpHandle at known
  dsimp only at known
  have isTable : ∀ (condition : Prop) [Decidable condition] (reply : ArpPacket)
      (table : ArpTable),
      (if condition then (some reply, table) else (none, table)).2 = table := by
    intro condition _ reply table
    split
    · rfl
    · rfl
  rw [isTable] at known
  split at known
  · split at known
    · exact known.of_tableUpdate
    · split at known
      · next table' isLookup =>
          have isTable' : (arpTableLookup table packet.senderIp now).2 = table' :=
            congrArg Prod.snd isLookup
          rcases known.of_tableUpdate with known | entry
          · rw [← isTable'] at known
            exact Or.inl known.of_tableLookup
          · exact Or.inr entry
      · next table' isLookup =>
          have isTable' : (arpTableLookup table packet.senderIp now).2 = table' :=
            congrArg Prod.snd isLookup
          rw [← isTable'] at known
          exact Or.inl known.of_tableLookup
  · exact Or.inl known

end Tables

/-- What a step of a host changes: it learns only from ARP packets on the cable, and what it
sends is truthful. -/
structure Progress (wire : List UInt8 → Prop) (state state' : Network) : Prop where
  mac : state'.ownMac = state.ownMac
  ip : state'.ownIp = state.ownIp
  known : ∀ ip mac, Known state'.table ip mac → Known state.table ip mac ∨
    ∃ frame packet, wire frame ∧ ArpIn frame packet ∧ packet.senderIp = ip ∧
      packet.senderMac = mac
  old : ∀ frame ∈ state.sent, frame ∈ state'.sent
  sent : ∀ frame ∈ state'.sent, frame ∈ state.sent ∨ Truthful wire state frame

section Steps

variable {wire : List UInt8 → Prop} {state state' : Network} {frame : List UInt8}

theorem Progress.refl (wire : List UInt8 → Prop) (state : Network) :
    Progress wire state state :=
  ⟨rfl, rfl, fun _ _ => Or.inl, fun _ => id, fun _ => Or.inl⟩

/-- Only the variables of a request change. -/
theorem Progress.requests (wire : List UInt8 → Prop) (state : Network) (echo : EchoState)
    (dns : DnsState) : Progress wire state { state with echo, dns } :=
  ⟨rfl, rfl, fun _ _ => Or.inl, fun _ => id, fun _ => Or.inl⟩

theorem Progress.send (truthful : Truthful wire state frame) :
    Progress wire state { state with sent := state.sent ++ [frame] } where
  mac := rfl
  ip := rfl
  known := fun _ _ => Or.inl
  old := fun _ => List.mem_append_left _
  sent := by
    intro other isSent
    rcases List.mem_append.mp isSent with old | isFrame
    · exact Or.inl old
    · rw [List.mem_singleton.mp isFrame]
      exact Or.inr truthful

theorem sendIpv4_progress {mac : MacAddr} {target : Ipv4Addr} {protocol : UInt8}
    {data : List UInt8} {packetCapacity frameCapacity : Nat}
    (truthful : ∀ frame, DataIn frame state.ownIp target protocol data →
      Truthful wire state frame) :
    Progress wire state
      (sendIpv4 state mac target protocol data packetCapacity frameCapacity) := by
  rcases sendIpv4_cases state mac target protocol data packetCapacity frameCapacity with
    same | ⟨frame, isSent, carries⟩
  · rw [same]
    exact .refl wire state
  · rw [isSent]
    exact .send (truthful frame carries)

theorem answered_progress {packet : ArpPacket} {now : UInt32} (onWire : wire frame)
    (content : ArpIn frame packet) : Progress wire state (answered state packet now) := by
  have learns : ∀ ip mac, Known (answered state packet now).table ip mac →
      Known state.table ip mac ∨ ∃ frame packet, wire frame ∧ ArpIn frame packet ∧
        packet.senderIp = ip ∧ packet.senderMac = mac := by
    intro ip mac known
    exact known.of_arpHandle.imp_right fun entry =>
      ⟨frame, packet, onWire, content, entry.1, entry.2⟩
  refine ⟨rfl, rfl, learns, fun _ => List.mem_append_left _, ?_⟩
  intro other isSent
  rcases List.mem_append.mp isSent with old | isNew
  · exact Or.inl old
  cases isResult : (arpHandle state.table packet state.ownMac state.ownIp now).1 with
  | none =>
      rw [isResult] at isNew
      cases isNew
  | some reply =>
      have isReply := arpHandle_reply isResult
      rcases arpFrame_build reply (Or.inr (by rw [isReply]; rfl))
        (by decide : ethernetFrameMin ≤ ethernetFrameMax) with
        ⟨sent, padded, isFrame, framed, parsed⟩
      rw [isResult, Option.bind_some, isFrame, Option.toList_some] at isNew
      rw [List.mem_singleton.mp isNew]
      exact Or.inr (.arp ⟨_, padded, framed, rfl, parsed⟩ (by rw [isReply]; rfl)
        (by rw [isReply]; rfl))

theorem Handled.progress {now : UInt32} (handled : Handled state now frame state')
    (onWire : wire frame) : Progress wire state state' := by
  cases handled with
  | ignored => exact .refl wire state
  | arp content => exact answered_progress onWire content
  | request mac content isRequest built =>
      apply sendIpv4_progress
      intro frame carries
      rw [icmpEchoReply, if_neg (not_not.mpr isRequest)] at built
      exact .reply ⟨_, carries, icmpParse_built built⟩ onWire content isRequest
  | echo content accepts => exact .requests wire state _ _
  | dns dns => exact .requests wire state _ _

theorem HostStep.progress (step : HostStep wire state state') :
    Progress wire state state' := by
  cases step with
  | receive now unset onWire handled => exact (handleFrame_handled handled).progress onWire
  | lookup ip now =>
      exact ⟨rfl, rfl, fun _ _ known => Or.inl known.of_tableLookup, fun _ => id,
        fun _ => Or.inl⟩
  | ask ip =>
      rcases arpFrame_build (arpMakeRequest state.ownMac state.ownIp ip) (Or.inl rfl)
        (Nat.le_refl _) with ⟨sent, padded, isFrame, framed, parsed⟩
      unfold askFor
      rw [isFrame]
      exact .send (.arp ⟨_, padded, framed, rfl, parsed⟩ rfl rfl)
  | ping destination target =>
      unfold sendPing
      split
      · exact .refl wire state
      · next payload built =>
          apply sendIpv4_progress
          intro frame carries
          exact .request ⟨payload, carries, icmpParse_built built⟩ rfl
  | query destination =>
      unfold sendQuery
      split
      · split
        · exact .refl wire state
        · exact sendIpv4_progress fun frame carries => .datagram carries
      · exact .refl wire state
  | shell echo dns => exact .requests wire state echo dns

end Steps

/-! ## Every run -/

section Runs

variable {Host : Type} [DecidableEq Host] {start hosts hosts' : Host → Network}
variable {wire wire' : List UInt8 → Prop} {state state' : Network} {frame : List UInt8}

theorem Truthful.mono (truthful : Truthful wire state frame)
    (more : ∀ frame, wire frame → wire' frame) (mac : state'.ownMac = state.ownMac)
    (ip : state'.ownIp = state.ownIp) : Truthful wire' state' frame := by
  cases truthful with
  | arp content isMac isIp => exact .arp content (by rw [mac, isMac]) (by rw [ip, isIp])
  | request content isRequest => exact .request (by rw [ip]; exact content) isRequest
  | reply content onWire asked isRequest =>
      exact .reply (by rw [ip]; exact content) (more _ onWire) (by rw [ip]; exact asked)
        isRequest
  | datagram content => exact .datagram (by rw [ip]; exact content)

theorem ArpIn.of_truthful {packet : ArpPacket} (content : ArpIn frame packet)
    (truthful : Truthful wire state frame) :
    packet.senderIp = state.ownIp ∧ packet.senderMac = state.ownMac := by
  cases truthful with
  | arp content' isMac isIp =>
      rcases content with ⟨_, _, framed, _, parsed⟩
      rcases content' with ⟨_, _, framed', _, parsed'⟩
      rw [framed] at framed'
      cases framed'
      rw [parsed] at parsed'
      cases parsed'
      exact ⟨isIp, isMac⟩
  | request content' =>
      rcases content' with ⟨_, carries, _⟩
      exact absurd carries content.not_dataIn
  | reply content' =>
      rcases content' with ⟨_, carries, _⟩
      exact absurd carries content.not_dataIn
  | datagram carries => exact absurd carries content.not_dataIn

/-- What the hosts know of each other, and what they sent. -/
structure Honest (hosts : Host → Network) : Prop where
  known : ∀ host ip mac, Known (hosts host).table ip mac →
    ∃ other, (hosts other).ownIp = ip ∧ (hosts other).ownMac = mac
  sent : ∀ host, ∀ frame ∈ (hosts host).sent, Truthful (OnWire hosts) (hosts host) frame
  distinct : Function.Injective fun host => (hosts host).ownIp

omit [DecidableEq Host] in
theorem LanStarted.honest (started : LanStarted start) : Honest start where
  known := by
    rintro host ip mac ⟨index, isUsed, -⟩
    rw [started.table host] at isUsed
    cases isUsed
  sent := by
    intro host frame isSent
    rw [started.sent host] at isSent
    cases isSent
  distinct := started.distinct

theorem Honest.step (honest : Honest hosts) (step : LanStep hosts hosts') :
    Honest hosts' := by
  rcases step with ⟨host, step⟩
  rename_i state'
  have progress := step.progress
  -- No host changes its addresses, and no frame leaves the cable.
  have same : ∀ other, (Function.update hosts host state' other).ownMac =
        (hosts other).ownMac ∧
      (Function.update hosts host state' other).ownIp = (hosts other).ownIp := by
    intro other
    by_cases isHost : other = host
    · rw [isHost, Function.update_self]
      exact ⟨progress.mac, progress.ip⟩
    · rw [Function.update_of_ne isHost]
      exact ⟨rfl, rfl⟩
  have more : ∀ frame, OnWire hosts frame → OnWire (Function.update hosts host state') frame := by
    rintro frame ⟨other, isSent⟩
    refine ⟨other, ?_⟩
    by_cases isHost : other = host
    · rw [isHost, Function.update_self]
      rw [isHost] at isSent
      exact progress.old frame isSent
    · rw [Function.update_of_ne isHost]
      exact isSent
  constructor
  case known =>
    intro other ip mac known
    have wasKnown : Known (hosts other).table ip mac ∨ ∃ frame packet, OnWire hosts frame ∧
        ArpIn frame packet ∧ packet.senderIp = ip ∧ packet.senderMac = mac := by
      by_cases isHost : other = host
      · rw [isHost, Function.update_self] at known
        rw [isHost]
        exact progress.known ip mac known
      · rw [Function.update_of_ne isHost] at known
        exact Or.inl known
    have owner : ∃ owner, (hosts owner).ownIp = ip ∧ (hosts owner).ownMac = mac := by
      rcases wasKnown with known | ⟨frame, packet, ⟨sender, isSent⟩, content, rfl, rfl⟩
      · exact honest.known other ip mac known
      · have addresses := content.of_truthful (honest.sent sender frame isSent)
        exact ⟨sender, addresses.1.symm, addresses.2.symm⟩
    rcases owner with ⟨owner, isIp, isMac⟩
    exact ⟨owner, (same owner).2.trans isIp, (same owner).1.trans isMac⟩
  case sent =>
    intro other frame isSent
    have truthful : Truthful (OnWire hosts) (hosts other) frame := by
      by_cases isHost : other = host
      · rw [isHost, Function.update_self] at isSent
        rw [isHost]
        exact (progress.sent frame isSent).elim (honest.sent host frame) id
      · rw [Function.update_of_ne isHost] at isSent
        exact honest.sent other frame isSent
    exact truthful.mono more (same other).1 (same other).2
  case distinct =>
    intro first second isSame
    apply honest.distinct
    dsimp only at isSame ⊢
    rw [← (same first).2, ← (same second).2, isSame]

theorem LanReachable.honest (reachable : LanReachable start hosts)
    (started : LanStarted start) : Honest hosts := by
  induction reachable with
  | refl => exact started.honest
  | tail _ step honest => exact honest.step step

omit [DecidableEq Host] in
/-- An echo request that is on the cable was sent by the host that has its source. -/
theorem Honest.asked (honest : Honest hosts) {host : Host} {destination : Ipv4Addr}
    {message : IcmpMessage} (onWire : OnWire hosts frame)
    (content : EchoIn frame (hosts host).ownIp destination message) :
    frame ∈ (hosts host).sent := by
  rcases onWire with ⟨sender, isSent⟩
  have isSource : (hosts sender).ownIp = (hosts host).ownIp := by
    cases honest.sent sender frame isSent with
    | arp content' =>
        rcases content with ⟨_, carries, _⟩
        exact absurd carries content'.not_dataIn
    | request content' => exact (content'.unique content).1
    | reply content' => exact (content'.unique content).1
    | datagram carries' =>
        rcases content with ⟨_, carries, _⟩
        exact (carries'.unique carries).1
  rw [honest.distinct isSource] at isSent
  exact isSent

end Runs

end Katela.Net
