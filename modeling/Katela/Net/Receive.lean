import Katela.Net.Arp
import Katela.Net.DnsAnswers

/-! # The receive task

A model of the functions of `src/kernel/net.c` that handle a frame. What they share
with the tasks that wait for an answer is in records of its own. -/

namespace Katela.Net

/-- The variables for the request that `net_ping` waits for. -/
structure EchoState where
  target : Ipv4Addr
  sequence : UInt16
  waiting : Bool
  received : Bool
  time : UInt32

/-- The variables for the request that `net_resolve` waits for. The status is the
result of the parser. -/
structure DnsState where
  name : CString
  address : Ipv4Addr
  id : UInt16
  localPort : UInt16
  waiting : Bool
  done : Bool
  status : Option DnsError

/-- The variables of the module, and the frames that were sent. -/
structure Network where
  ownMac : MacAddr
  ownIp : Ipv4Addr
  dnsServer : Ipv4Addr
  table : ArpTable
  echo : EchoState
  dns : DnsState
  sent : List (List UInt8)

def pingId : UInt16 := 0x4B54

/-- The check that `handle_icmp` makes of an echo reply. -/
def acceptsEcho (echo : EchoState) (source : Ipv4Addr) (message : IcmpMessage) : Bool :=
  message.type = 0 ∧ echo.waiting ∧ message.id = pingId ∧
    message.sequence = echo.sequence ∧ source = echo.target

def publishEcho (echo : EchoState) (now : UInt32) : EchoState :=
  { echo with time := now, received := true }

/-- The check that `handle_udp` makes before it looks at the message. -/
def acceptsPort (dns : DnsState) (dnsServer source : Ipv4Addr) (udp : UdpHeader) :
    Bool :=
  dns.waiting ∧ udp.destinationPort = dns.localPort ∧ udp.sourcePort = 53 ∧
    source = dnsServer

/-- The result of the parser that `handle_udp` publishes, if it does. The address is
not set where the parser finds an error. -/
def acceptedResult (dns : DnsState) (payload : List UInt8) (unset : Ipv4Addr) :
    Checked Unit (Option (Ipv4Addr × Option DnsError)) :=
  (dnsResponseParse payload dns.id dns.name).recover
    (fun error => .done
      (if error = .malformed ∨ error = .mismatch then none
      else some (unset, some error)))
    (fun address => .done (some (address, none)))

def publishDns (dns : DnsState) (address : Ipv4Addr) (status : Option DnsError) :
    DnsState :=
  { dns with address, status, done := true }

/-- The frame that `send_ipv4` gives to the device. -/
def sendIpv4 (state : Network) (destination : MacAddr) (target : Ipv4Addr)
    (protocol : UInt8) (payload : List UInt8) (packetCapacity frameCapacity : Nat) :
    Network :=
  let header := ipv4HeaderInit state.ownIp target protocol
  match ipv4PacketBuild packetCapacity header payload with
  | none => state
  | some packet =>
      match ethernetBuild frameCapacity ⟨destination, state.ownMac, 0x0800⟩ packet with
      | none => state
      | some frame => { state with sent := state.sent ++ [frame] }

def handleArp (state : Network) (now : UInt32) (data : List UInt8) :
    Checked Unit Network :=
  (arpParse data).recover (fun _ => .done state) fun packet =>
    let (reply, table) := arpHandle state.table packet state.ownMac state.ownIp now
    let state := { state with table }
    match reply with
    | none => .done state
    | some reply =>
        match arpFrame ethernetFrameMax reply with
        | none => .done state
        | some frame => .done { state with sent := state.sent ++ [frame] }

def handleIcmp (state : Network) (now : UInt32) (frameHeader : EthernetHeader)
    (ip : Ipv4Header) (data : List UInt8) : Checked Unit Network :=
  (icmpParse data).recover (fun _ => .done state) fun message =>
    if message.type = 8 then
      match icmpEchoReply ethernetMtu message with
      | none => .done state
      | some reply => .done (sendIpv4 state frameHeader.source ip.source 1 reply
          ethernetMtu ethernetFrameMax)
    else if acceptsEcho state.echo ip.source message then
      .done { state with echo := publishEcho state.echo now }
    else .done state

def handleUdp (state : Network) (unset : Ipv4Addr) (ip : Ipv4Header)
    (data : List UInt8) : Checked Unit Network :=
  (udpParse data ip.source ip.destination).recover (fun _ => .done state)
    fun (udp, payload) =>
      if acceptsPort state.dns state.dnsServer ip.source udp then do
        let result ← acceptedResult state.dns payload unset
        match result with
        | none => .done state
        | some (address, status) =>
            .done { state with dns := publishDns state.dns address status }
      else .done state

def handleIpv4 (state : Network) (now : UInt32) (unset : Ipv4Addr)
    (frameHeader : EthernetHeader) (data : List UInt8) : Checked Unit Network :=
  (ipv4PacketParse data).recover (fun _ => .done state) fun (ip, payload) =>
    if ip.destination ≠ state.ownIp then .done state
    else if ip.protocol = 1 then handleIcmp state now frameHeader ip payload
    else if ip.protocol = 17 then handleUdp state unset ip payload
    else .done state

def handleFrame (state : Network) (now : UInt32) (unset : Ipv4Addr)
    (frame : List UInt8) : Checked Unit Network :=
  (ethernetParse frame).recover (fun _ => .done state) fun (header, payload) =>
    if ethernetForUs header state.ownMac then
      if header.type = 0x0806 then handleArp state now payload
      else if header.type = 0x0800 then handleIpv4 state now unset header payload
      else .done state
    else .done state

/-! ## Reads inside of the slices -/

section Reads

variable {ε : Type} {bytes : List UInt8} {offset : Nat}

theorem get_safe (inside : offset < bytes.length) :
    (Checked.get bytes offset : Checked ε UInt8).Safe := by
  rw [Checked.get_of_lt inside]
  trivial

theorem be16Read_safe (inside : offset + 2 ≤ bytes.length) :
    (be16Read bytes offset : Checked ε UInt16).Safe := by
  rcases be16_exists inside with ⟨value, isDrop⟩
  rw [be16Read_of_drop isDrop]
  trivial

theorem copyAddress_safe {size : Nat} (inside : offset + size ≤ bytes.length) :
    (copyAddress bytes offset : Checked ε (Address size)).Safe := by
  unfold copyAddress
  rw [dif_pos inside]
  trivial

theorem slice_safe {size : Nat} (inside : offset + size ≤ bytes.length) :
    (Checked.slice bytes offset size : Checked ε (List UInt8)).Safe := by
  rw [Checked.slice_of_le inside]
  trivial

end Reads

open Checked (Safe)

theorem ethernetParse_safe (frame : List UInt8) : (ethernetParse frame).Safe := by
  have isHeader : ethernetHeaderSize = 14 := rfl
  unfold ethernetParse
  split
  · trivial
  · refine Safe.bind (copyAddress_safe (by omega)) fun destination _ => ?_
    refine Safe.bind (copyAddress_safe (by omega)) fun source _ => ?_
    refine Safe.bind (be16Read_safe (by omega)) fun type _ => ?_
    exact Safe.bind (slice_safe (by omega)) fun payload _ => trivial

theorem arpParse_safe (data : List UInt8) : (arpParse data).Safe := by
  have isSize : arpPacketSize = 28 := rfl
  unfold arpParse
  split
  · trivial
  · refine Safe.bind (be16Read_safe (by omega)) fun hardware _ => ?_
    refine Safe.bind (be16Read_safe (by omega)) fun protocol _ => ?_
    refine Safe.bind (get_safe (by omega)) fun macSize _ => ?_
    refine Safe.bind (get_safe (by omega)) fun ipSize _ => ?_
    split
    · trivial
    · refine Safe.bind (be16Read_safe (by omega)) fun operation _ => ?_
      split
      · trivial
      · refine Safe.bind (copyAddress_safe (by omega)) fun senderMac _ => ?_
        refine Safe.bind (copyAddress_safe (by omega)) fun senderIp _ => ?_
        refine Safe.bind (copyAddress_safe (by omega)) fun targetMac _ => ?_
        exact Safe.bind (copyAddress_safe (by omega)) fun targetIp _ => trivial

theorem ipv4PacketParse_safe (packet : List UInt8) : (ipv4PacketParse packet).Safe := by
  have isHeader : ipv4HeaderSize = 20 := rfl
  unfold ipv4PacketParse
  split
  · trivial
  · refine Safe.bind (get_safe (by omega)) fun first _ => ?_
    split
    · trivial
    · dsimp only
      split
      · trivial
      · refine Safe.bind (be16Read_safe (by omega)) fun total _ => ?_
        split
        · trivial
        · refine Safe.bind (slice_safe (by omega)) fun headerBytes _ => ?_
          split
          · trivial
          · refine Safe.bind (get_safe (by omega)) fun tos _ => ?_
            refine Safe.bind (be16Read_safe (by omega)) fun id _ => ?_
            refine Safe.bind (be16Read_safe (by omega)) fun flagsFragment _ => ?_
            refine Safe.bind (get_safe (by omega)) fun ttl _ => ?_
            refine Safe.bind (get_safe (by omega)) fun protocol _ => ?_
            refine Safe.bind (copyAddress_safe (by omega)) fun source _ => ?_
            refine Safe.bind (copyAddress_safe (by omega)) fun destination _ => ?_
            split
            · trivial
            · exact Safe.bind (slice_safe (by omega)) fun payload _ => trivial

theorem udpParse_safe (data : List UInt8) (source destination : Ipv4Addr) :
    (udpParse data source destination).Safe := by
  have isHeader : udpHeaderSize = 8 := rfl
  unfold udpParse
  split
  · trivial
  · refine Safe.bind (be16Read_safe (by omega)) fun total _ => ?_
    dsimp only
    split
    · trivial
    · refine Safe.bind (be16Read_safe (by omega)) fun stored _ => ?_
      refine Safe.bind (slice_safe (by omega)) fun datagram _ => ?_
      split
      · trivial
      · refine Safe.bind (be16Read_safe (by omega)) fun sourcePort _ => ?_
        refine Safe.bind (be16Read_safe (by omega)) fun destinationPort _ => ?_
        exact Safe.bind (slice_safe (by omega)) fun payload _ => trivial

theorem icmpParse_safe (data : List UInt8) : (icmpParse data).Safe := by
  have isHeader : icmpHeaderSize = 8 := rfl
  unfold icmpParse
  split
  · trivial
  · split
    · trivial
    · refine Safe.bind (get_safe (by omega)) fun type _ => ?_
      refine Safe.bind (get_safe (by omega)) fun code _ => ?_
      refine Safe.bind (be16Read_safe (by omega)) fun id _ => ?_
      refine Safe.bind (be16Read_safe (by omega)) fun sequence _ => ?_
      exact Safe.bind (slice_safe (by omega)) fun payload _ => trivial

/-! ## DNS messages -/

theorem length_of_scanLabel {characters label rest : List UInt8}
    (isScan : scanLabel characters = some (label, rest)) :
    characters.length = label.length + rest.length := by
  rw [(scanLabel_eq_some isScan).1, List.length_append]

theorem nameEncodeLoop_safe {limit : Nat} (rounds : Nat) {out rest : List UInt8}
    (enough : rest.length < rounds) : (nameEncodeLoop limit rounds out rest).Safe := by
  induction rounds generalizing out rest with
  | zero => omega
  | succ rounds induction =>
      unfold nameEncodeLoop
      split
      · trivial
      · next label after isScan =>
          have isLength := length_of_scanLabel isScan
          split
          · trivial
          · split
            · trivial
            · dsimp only
              split
              · trivial
              · trivial
              · apply induction
                simp only [List.length_cons] at isLength ⊢
                omega

theorem nameEncode_safe (limit : Nat) (name : CString) : (nameEncode limit name).Safe :=
  nameEncodeLoop_safe _ (Nat.lt_succ_self _)

theorem nameSkip_safe {bytes : List UInt8} (rounds : Nat) {offset : Nat}
    (enough : bytes.length < rounds + offset) (bound : offset ≤ bytes.length) :
    (nameSkip bytes rounds offset).Safe := by
  induction rounds generalizing offset with
  | zero => omega
  | succ rounds induction =>
      unfold nameSkip
      split
      · trivial
      · next inside =>
          refine Safe.bind (get_safe (by omega)) fun length _ => ?_
          split
          · trivial
          · split
            · split
              · trivial
              · trivial
            · split
              · trivial
              · dsimp only
                split
                · trivial
                · exact induction (by omega) (by omega)

theorem compareName_safe {bytes : List UInt8} (expected : List UInt8) {offset : Nat}
    (inside : offset + expected.length ≤ bytes.length) :
    (compareName bytes offset expected).Safe := by
  induction expected generalizing offset with
  | nil => trivial
  | cons character expected induction =>
      rw [List.length_cons] at inside
      unfold compareName
      refine Safe.bind (get_safe (by omega)) fun byte _ => ?_
      split
      · trivial
      · exact induction (by omega)

theorem answersLoop_safe {bytes : List UInt8} (answers : Nat) {offset : Nat}
    (bound : offset ≤ bytes.length) : (answersLoop bytes answers offset).Safe := by
  induction answers generalizing offset with
  | zero => trivial
  | succ answers induction =>
      unfold answersLoop
      refine Safe.bind (nameSkip_safe _ (by omega) bound) fun start _ => ?_
      split
      · trivial
      · refine Safe.bind (be16Read_safe (by omega)) fun type _ => ?_
        refine Safe.bind (be16Read_safe (by omega)) fun classCode _ => ?_
        refine Safe.bind (be16Read_safe (by omega)) fun total _ => ?_
        dsimp only
        split
        · trivial
        · split
          · exact copyAddress_safe (by omega)
          · exact induction (by omega)

theorem dnsResponseParse_safe (data : List UInt8) (id : UInt16) (name : CString) :
    (dnsResponseParse data id name).Safe := by
  have isHeader : dnsHeaderSize = 12 := rfl
  unfold dnsResponseParse
  split
  · trivial
  · refine Safe.bind (be16Read_safe (by omega)) fun found _ => ?_
    split
    · trivial
    · refine Safe.bind (be16Read_safe (by omega)) fun flags _ => ?_
      split
      · trivial
      · refine Safe.bind (be16Read_safe (by omega)) fun questions _ => ?_
        split
        · trivial
        · refine Safe.recover (nameEncode_safe _ name) (fun _ => trivial) fun expected _ => ?_
          split
          · trivial
          · refine Safe.bind (compareName_safe expected (by omega)) fun _ _ => ?_
            refine Safe.bind (be16Read_safe (by omega)) fun type _ => ?_
            refine Safe.bind (be16Read_safe (by omega)) fun classCode _ => ?_
            split
            · trivial
            · split
              · trivial
              · split
                · trivial
                · refine Safe.bind (be16Read_safe (by omega)) fun answers _ => ?_
                  exact answersLoop_safe _ (by omega)

/-! ## The whole chain -/

theorem handleArp_safe (state : Network) (now : UInt32) (data : List UInt8) :
    (handleArp state now data).Safe := by
  refine Safe.recover (arpParse_safe data) (fun _ => trivial) fun packet _ => ?_
  dsimp only
  split
  · trivial
  · split
    · trivial
    · trivial

theorem handleIcmp_safe (state : Network) (now : UInt32) (frameHeader : EthernetHeader)
    (ip : Ipv4Header) (data : List UInt8) :
    (handleIcmp state now frameHeader ip data).Safe := by
  refine Safe.recover (icmpParse_safe data) (fun _ => trivial) fun message _ => ?_
  split
  · split
    · trivial
    · trivial
  · split
    · trivial
    · trivial

theorem acceptedResult_safe (dns : DnsState) (payload : List UInt8) (unset : Ipv4Addr) :
    (acceptedResult dns payload unset).Safe :=
  Safe.recover (dnsResponseParse_safe payload dns.id dns.name) (fun _ => trivial)
    fun _ _ => trivial

theorem handleUdp_safe (state : Network) (unset : Ipv4Addr) (ip : Ipv4Header)
    (data : List UInt8) : (handleUdp state unset ip data).Safe := by
  refine Safe.recover (udpParse_safe data ip.source ip.destination) (fun _ => trivial)
    fun parsed _ => ?_
  dsimp only
  split
  · refine Safe.bind (acceptedResult_safe _ _ _) fun result _ => ?_
    split
    · trivial
    · trivial
  · trivial

theorem handleIpv4_safe (state : Network) (now : UInt32) (unset : Ipv4Addr)
    (frameHeader : EthernetHeader) (data : List UInt8) :
    (handleIpv4 state now unset frameHeader data).Safe := by
  refine Safe.recover (ipv4PacketParse_safe data) (fun _ => trivial) fun parsed _ => ?_
  dsimp only
  split
  · trivial
  · split
    · exact handleIcmp_safe _ _ _ _ _
    · split
      · exact handleUdp_safe _ _ _ _
      · trivial

theorem handleFrame_safe (state : Network) (now : UInt32) (unset : Ipv4Addr)
    (frame : List UInt8) : (handleFrame state now unset frame).Safe := by
  refine Safe.recover (ethernetParse_safe frame) (fun _ => trivial) fun parsed _ => ?_
  dsimp only
  split
  · split
    · exact handleArp_safe _ _ _
    · split
      · exact handleIpv4_safe _ _ _ _ _
      · trivial
  · trivial

/-! ## Payloads inside of their slices -/

theorem inside_of_slice {ε : Type} {bytes payload : List UInt8} {offset size : Nat}
    (isDone : (Checked.slice bytes offset size : Checked ε (List UInt8)) =
      .done payload) : payload <:+: bytes := by
  unfold Checked.slice at isDone
  split at isDone
  · cases isDone
    refine ⟨bytes.take offset, bytes.drop (offset + size), ?_⟩
    rw [List.append_assoc, ← drop_eq_take_append, List.take_append_drop]
  · cases isDone

/-- The payload of a frame is what follows its header. -/
theorem ethernetParse_slice {frame payload : List UInt8} {header : EthernetHeader}
    (isDone : ethernetParse frame = .done (header, payload)) :
    frame.length ≤ ethernetFrameMax ∧
      (Checked.slice frame ethernetHeaderSize (frame.length - ethernetHeaderSize) :
        Checked Unit (List UInt8)) = .done payload := by
  unfold ethernetParse at isDone
  split at isDone
  · cases isDone
  rcases Checked.bind_eq_done isDone with ⟨_, _, isDone⟩
  rcases Checked.bind_eq_done isDone with ⟨_, _, isDone⟩
  rcases Checked.bind_eq_done isDone with ⟨_, _, isDone⟩
  rcases Checked.bind_eq_done isDone with ⟨_, sliced, isDone⟩
  cases isDone
  exact ⟨by omega, sliced⟩

theorem ethernetParse_inside {frame payload : List UInt8} {header : EthernetHeader}
    (isDone : ethernetParse frame = .done (header, payload)) : payload <:+: frame :=
  inside_of_slice (ethernetParse_slice isDone).2

/-- The payload of a packet follows its header and its options. -/
theorem ipv4PacketParse_slice {packet payload : List UInt8} {header : Ipv4Header}
    (isDone : ipv4PacketParse packet = .done (header, payload)) :
    ∃ headerLength totalLength, ipv4HeaderSize ≤ headerLength ∧ totalLength ≤ packet.length ∧
      (Checked.slice packet headerLength (totalLength - headerLength) :
        Checked Ipv4Error (List UInt8)) = .done payload := by
  unfold ipv4PacketParse at isDone
  split at isDone
  · cases isDone
  rcases Checked.bind_eq_done isDone with ⟨_, _, isDone⟩
  split at isDone
  · cases isDone
  dsimp only at isDone
  split at isDone
  · cases isDone
  rcases Checked.bind_eq_done isDone with ⟨_, _, isDone⟩
  split at isDone
  · cases isDone
  rcases Checked.bind_eq_done isDone with ⟨_, _, isDone⟩
  split at isDone
  · cases isDone
  rcases Checked.bind_eq_done isDone with ⟨_, _, isDone⟩
  rcases Checked.bind_eq_done isDone with ⟨_, _, isDone⟩
  rcases Checked.bind_eq_done isDone with ⟨_, _, isDone⟩
  rcases Checked.bind_eq_done isDone with ⟨_, _, isDone⟩
  rcases Checked.bind_eq_done isDone with ⟨_, _, isDone⟩
  rcases Checked.bind_eq_done isDone with ⟨_, _, isDone⟩
  rcases Checked.bind_eq_done isDone with ⟨_, _, isDone⟩
  split at isDone
  · cases isDone
  rcases Checked.bind_eq_done isDone with ⟨_, sliced, isDone⟩
  cases isDone
  exact ⟨_, _, by omega, by omega, sliced⟩

theorem ipv4PacketParse_inside {packet payload : List UInt8} {header : Ipv4Header}
    (isDone : ipv4PacketParse packet = .done (header, payload)) : payload <:+: packet := by
  rcases ipv4PacketParse_slice isDone with ⟨_, _, _, _, sliced⟩
  exact inside_of_slice sliced

theorem udpParse_inside {data payload : List UInt8} {source destination : Ipv4Addr}
    {header : UdpHeader}
    (isDone : udpParse data source destination = .done (header, payload)) :
    payload <:+: data := by
  unfold udpParse at isDone
  split at isDone
  · cases isDone
  rcases Checked.bind_eq_done isDone with ⟨_, _, isDone⟩
  dsimp only at isDone
  split at isDone
  · cases isDone
  rcases Checked.bind_eq_done isDone with ⟨_, _, isDone⟩
  rcases Checked.bind_eq_done isDone with ⟨_, _, isDone⟩
  split at isDone
  · cases isDone
  rcases Checked.bind_eq_done isDone with ⟨_, _, isDone⟩
  rcases Checked.bind_eq_done isDone with ⟨_, _, isDone⟩
  rcases Checked.bind_eq_done isDone with ⟨_, sliced, isDone⟩
  cases isDone
  exact inside_of_slice sliced

/-- The payload of a message is what follows its header. -/
theorem icmpParse_slice {data : List UInt8} {message : IcmpMessage}
    (isDone : icmpParse data = .done message) :
    icmpHeaderSize ≤ data.length ∧
      (Checked.slice data icmpHeaderSize (data.length - icmpHeaderSize) :
        Checked Unit (List UInt8)) = .done message.payload := by
  unfold icmpParse at isDone
  split at isDone
  · cases isDone
  split at isDone
  · cases isDone
  rcases Checked.bind_eq_done isDone with ⟨_, _, isDone⟩
  rcases Checked.bind_eq_done isDone with ⟨_, _, isDone⟩
  rcases Checked.bind_eq_done isDone with ⟨_, _, isDone⟩
  rcases Checked.bind_eq_done isDone with ⟨_, _, isDone⟩
  rcases Checked.bind_eq_done isDone with ⟨_, sliced, isDone⟩
  cases isDone
  exact ⟨by omega, sliced⟩

theorem icmpParse_inside {data : List UInt8} {message : IcmpMessage}
    (isDone : icmpParse data = .done message) : message.payload <:+: data :=
  inside_of_slice (icmpParse_slice isDone).2

/-- Whatever is received, all reads are inside of the slice of their layer, all loops
end, and the slice that a layer hands on lies inside of its own. -/
theorem received_frames_inside (state : Network) (now : UInt32) (unset : Ipv4Addr)
    (frame : List UInt8) :
    (handleFrame state now unset frame).Safe ∧
    (∀ header payload, ethernetParse frame = .done (header, payload) →
      payload <:+: frame) ∧
    (∀ packet header payload, ipv4PacketParse packet = .done (header, payload) →
      payload <:+: packet) ∧
    (∀ data source destination header payload,
      udpParse data source destination = .done (header, payload) → payload <:+: data) ∧
    (∀ data message, icmpParse data = .done message → message.payload <:+: data) :=
  ⟨handleFrame_safe state now unset frame,
    fun _ _ isDone => ethernetParse_inside isDone,
    fun _ _ _ isDone => ipv4PacketParse_inside isDone,
    fun _ _ _ _ _ isDone => udpParse_inside isDone,
    fun _ _ isDone => icmpParse_inside isDone⟩

/-! ## Answered pings -/

/-- The frame is an echo request for us. -/
structure EchoRequest (state : Network) (frame : List UInt8) (header : EthernetHeader)
    (ip : Ipv4Header) (message : IcmpMessage) : Prop where
  decoded : ∃ payload data, ethernetParse frame = .done (header, payload) ∧
    ipv4PacketParse payload = .done (ip, data) ∧ icmpParse data = .done message
  forUs : ethernetForUs header state.ownMac = true
  type : header.type = 0x0800
  destination : ip.destination = state.ownIp
  protocol : ip.protocol = 1
  request : message.type = 8

section Pings

variable {bytes payload : List UInt8} {offset size : Nat}

theorem length_of_slice {ε : Type}
    (isDone : (Checked.slice bytes offset size : Checked ε (List UInt8)) = .done payload) :
    payload.length = size ∧ offset + size ≤ bytes.length := by
  unfold Checked.slice at isDone
  split at isDone
  · next inside =>
      cases isDone
      rw [List.length_take, List.length_drop]
      exact ⟨by omega, inside⟩
  · cases isDone

theorem ethernetParse_length {frame : List UInt8} {header : EthernetHeader}
    (isDone : ethernetParse frame = .done (header, payload)) :
    payload.length ≤ ethernetMtu := by
  have isMost : ethernetFrameMax = ethernetHeaderSize + ethernetMtu := rfl
  rcases ethernetParse_slice isDone with ⟨most, sliced⟩
  have isLength := (length_of_slice sliced).1
  omega

/-- Options and padding only make the payload shorter. -/
theorem ipv4PacketParse_length {packet : List UInt8} {header : Ipv4Header}
    (isDone : ipv4PacketParse packet = .done (header, payload)) :
    payload.length ≤ packet.length - ipv4HeaderSize := by
  rcases ipv4PacketParse_slice isDone with ⟨_, _, some, inside, sliced⟩
  have isLength := (length_of_slice sliced).1
  omega

theorem icmpParse_length {data : List UInt8} {message : IcmpMessage}
    (isDone : icmpParse data = .done message) :
    icmpHeaderSize + message.payload.length = data.length := by
  rcases icmpParse_slice isDone with ⟨some, sliced⟩
  have isLength := (length_of_slice sliced).1
  omega

end Pings

/-- Every echo request for us is answered with a frame that carries its identifier, its
sequence number and its payload back. -/
theorem echo_answered (state : Network) (now : UInt32) (unset : Ipv4Addr)
    (frame : List UInt8) (header : EthernetHeader) (ip : Ipv4Header)
    (message : IcmpMessage) (request : EchoRequest state frame header ip message) :
    ∃ reply padded parsed data,
      handleFrame state now unset frame = .done { state with sent := state.sent ++ [reply] } ∧
      ethernetParse reply = .done (⟨header.source, state.ownMac, 0x0800⟩, padded) ∧
      ipv4PacketParse padded = .done (parsed, data) ∧
      parsed.source = state.ownIp ∧ parsed.destination = ip.source ∧ parsed.protocol = 1 ∧
      icmpParse data = .done ⟨0, 0, message.id, message.sequence, message.payload⟩ := by
  rcases request.decoded with ⟨payload, data, framed, inside, isMessage⟩
  have isMtu : ethernetMtu = 1500 := rfl
  have isMost : ipv4PacketMax = 65535 := rfl
  have isFrame : ethernetFrameMax = ethernetHeaderSize + ethernetMtu := rfl
  have isHeader : ipv4HeaderSize = 20 := rfl
  have few := ethernetParse_length framed
  have fewer := ipv4PacketParse_length inside
  have fewest := icmpParse_length isMessage
  rcases icmpParse_build 0 0 message.id message.sequence (by omega)
    (by omega : icmpHeaderSize + message.payload.length ≤ ethernetMtu) with
    ⟨answer, built, isLength, parsed⟩
  have notFragment : isFragment (ipv4HeaderInit state.ownIp ip.source 1).flagsFragment = false :=
    (by decide : isFragment 0x4000 = false)
  rcases @delivered_build ⟨header.source, state.ownMac, 0x0800⟩
    (ipv4HeaderInit state.ownIp ip.source 1) answer ethernetMtu ethernetFrameMax notFragment
    (by omega) (by omega) (by decide) (by omega) with
    ⟨packet, reply, isPacket, isReply, padded, parsedIp, isEthernet, isIpv4, source,
      destination, protocol⟩
  refine ⟨reply, padded, parsedIp, answer, ?_, isEthernet, isIpv4, source, destination,
    protocol, parsed⟩
  have sent : sendIpv4 state header.source ip.source 1 answer ethernetMtu ethernetFrameMax =
      { state with sent := state.sent ++ [reply] } := by
    unfold sendIpv4
    dsimp only
    rw [isPacket]
    dsimp only
    rw [isReply]
  have answered : icmpEchoReply ethernetMtu message = some answer := by
    rw [icmpEchoReply, if_neg (not_not.mpr request.request), built]
  have notArp : ¬ header.type = 0x0806 := by
    rw [request.type]
    decide
  rw [handleFrame, framed, Checked.recover]
  dsimp only
  rw [if_pos request.forUs, if_neg notArp, if_pos request.type, handleIpv4, inside,
    Checked.recover]
  dsimp only
  rw [if_neg (not_not.mpr request.destination), if_pos request.protocol, handleIcmp, isMessage,
    Checked.recover]
  rw [if_pos request.request, answered]
  exact congrArg Checked.done sent

/-- A host that has just been started. -/
def startedHost : Network where
  ownMac := ⟨[0x52, 0x54, 0, 0x12, 0x34, 0x56], rfl⟩
  ownIp := ipv4 10 0 2 15
  dnsServer := ipv4 10 0 2 3
  table := arpTableInit
  echo := ⟨ipv4 0 0 0 0, 0, false, false, 0⟩
  dns := ⟨.empty, ipv4 0 0 0 0, 0, 0, false, false, none⟩
  sent := []

/-- A request without payload is answered. -/
theorem echo_answered_empty :
    ∃ frame reply, handleFrame startedHost 0 (ipv4 0 0 0 0) frame =
      .done { startedHost with sent := [reply] } := by
  have notFragment : isFragment (ipv4HeaderInit (ipv4 10 0 2 2) startedHost.ownIp
      1).flagsFragment = false := (by decide : isFragment 0x4000 = false)
  rcases @icmpParse_build ethernetMtu 8 0 7 1 [] (by decide) (by decide) with
    ⟨data, _, isLength, isMessage⟩
  have isSize : data.length = 8 := isLength
  have isMtu : ethernetMtu = 1500 := rfl
  have isHeader : ipv4HeaderSize = 20 := rfl
  have isFrame : ethernetFrameMax = 1514 := rfl
  have isEthernet : ethernetHeaderSize = 14 := rfl
  rcases @delivered_build ⟨startedHost.ownMac, ⟨[0x52, 0x55, 10, 0, 2, 2], rfl⟩, 0x0800⟩
    (ipv4HeaderInit (ipv4 10 0 2 2) startedHost.ownIp 1) data ethernetMtu
    ethernetFrameMax notFragment (by omega) (by omega) (by decide) (by omega) with
    ⟨packet, frame, _, _, padded, ip, framed, inside, _, isDestination, isProtocol⟩
  rcases echo_answered startedHost 0 (ipv4 0 0 0 0) frame _ ip _
    ⟨⟨padded, data, framed, inside, isMessage⟩, by decide, rfl, isDestination, isProtocol,
      rfl⟩ with ⟨reply, _, _, _, answered, _⟩
  exact ⟨frame, reply, answered⟩

end Katela.Net
