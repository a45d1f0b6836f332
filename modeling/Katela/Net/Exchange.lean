import Katela.Net.LocalNetwork

/-! # A ping from one host to another

The frames that two hosts exchange when one pings the other, whatever else they do between
them. -/

namespace Katela.Net

/-- The addresses of a host are ones that ARP accepts. -/
structure Addressed (state : Network) : Prop where
  notZero : state.ownIp ≠ ipv4Zero
  notOnes : state.ownIp ≠ ipv4Ones
  mac : state.ownMac ≠ macZero
  single : macIsMulticast state.ownMac = false

/-- A later state of a host. -/
structure SameHost (state state' : Network) : Prop where
  mac : state'.ownMac = state.ownMac
  ip : state'.ownIp = state.ownIp

/-- The host has learned an address, for as long as an entry lives. -/
def Learned (state : Network) (ip : Ipv4Addr) (mac : MacAddr) (now : UInt32) : Prop :=
  ∀ later, later - now < arpEntryLifetime → (tableLookup state ip later).1 = some mac

/-! ## Looking up what was stored -/

section Tables

variable {table : ArpTable} {ip : Ipv4Addr} {mac : MacAddr} {now later : UInt32}

/-- The entry that a loop stops at is still the first one when it is stored again. -/
theorem findEntry_update {stops : ArpEntry → Bool} {index : Fin arpTableSize}
    {entry : ArpEntry} (found : findEntry table stops = some index) (isStop : stops entry = true) :
    findEntry (Function.update table index entry) stops = some index := by
  unfold findEntry at found ⊢
  rw [List.find?_eq_some_iff_append] at found ⊢
  rcases found with ⟨wasStop, before, after, isList, passed⟩
  refine ⟨by rw [Function.update_self]; exact isStop, before, after, isList, ?_⟩
  intro other inside
  have notStop := passed other inside
  have different : other ≠ index := by
    rintro rfl
    rw [wasStop] at notStop
    cases notStop
  rw [Function.update_of_ne different]
  exact notStop

/-- Where there was no entry for an address, the one that is stored is found. -/
theorem findEntry_stored {index : Fin arpTableSize} {entry : ArpEntry}
    (notHeld : ¬ Held table ip) (isUsed : entry.used = true) (isIp : entry.ip = ip) :
    findEntry (Function.update table index entry) (fun entry => entry.used ∧ entry.ip = ip) =
      some index := by
  cases found : findEntry (Function.update table index entry)
      (fun entry => entry.used ∧ entry.ip = ip) with
  | none =>
      refine absurd ?_ (findEntry_ip_none found)
      exact ⟨index, by rw [Function.update_self]; exact ⟨isUsed, isIp⟩⟩
  | some other =>
      have isEntry := findEntry_ip found
      by_cases different : other = index
      · rw [different]
      · rw [Function.update_of_ne different] at isEntry
        exact absurd ⟨other, isEntry⟩ notHeld

theorem lookup_of_findEntry {index : Fin arpTableSize}
    (found : findEntry table (fun entry => entry.used ∧ entry.ip = ip) = some index)
    (young : ¬ later - (table index).updated ≥ arpEntryLifetime) :
    (arpTableLookup table ip later).1 = some (table index).mac := by
  unfold arpTableLookup
  rw [found]
  dsimp only
  rw [if_neg young]

theorem lookup_update (young : later - now < arpEntryLifetime) :
    (arpTableLookup (arpTableUpdate table ip mac now) ip later).1 = some mac := by
  have found : ∃ index, arpTableUpdate table ip mac now =
        Function.update table index ⟨ip, mac, now, true⟩ ∧
      findEntry (Function.update table index ⟨ip, mac, now, true⟩)
        (fun entry => entry.used ∧ entry.ip = ip) = some index := by
    cases isHeld : findEntry table fun entry => entry.used ∧ entry.ip = ip with
    | some index =>
        refine ⟨index, ?_, findEntry_update isHeld (by simp)⟩
        unfold arpTableUpdate updateTarget
        rw [isHeld]
    | none =>
        have notHeld := findEntry_ip_none isHeld
        rcases arpTableUpdate_cases table ip mac now with ⟨index, isUpdate, -⟩
        exact ⟨index, isUpdate, findEntry_stored notHeld rfl rfl⟩
  rcases found with ⟨index, isUpdate, found⟩
  rw [isUpdate, lookup_of_findEntry found, Function.update_self]
  rw [Function.update_self]
  exact UInt32.not_le.mpr young

end Tables

/-! ## Asking for an address -/

section Asking

variable {asker target state state' : Network} {table : ArpTable} {now : UInt32}

theorem Addressed.senderIsValid (addressed : Addressed state) {packet : ArpPacket}
    {ip : Ipv4Addr} (apart : state.ownIp ≠ ip) (isMac : packet.senderMac = state.ownMac)
    (isIp : packet.senderIp = state.ownIp) : senderIsValid packet ip = true := by
  unfold Net.senderIsValid
  rw [isMac, isIp]
  simp [addressed.notZero, addressed.notOnes, addressed.mac, addressed.single, apart]

/-- The request of one host for the address of another. -/
def requestFor (asker target : Network) : ArpPacket :=
  arpMakeRequest asker.ownMac asker.ownIp target.ownIp

def replyTo (asker target : Network) : ArpPacket :=
  arpMakeReply target.ownMac target.ownIp (requestFor asker target)

theorem arpHandle_request (addressed : Addressed asker) (apart : asker.ownIp ≠ target.ownIp) :
    (arpHandle table (requestFor asker target) target.ownMac target.ownIp now).1 =
      some (replyTo asker target) := by
  unfold arpHandle
  dsimp only
  rw [if_pos ⟨rfl, rfl, addressed.mac, by rw [Bool.not_eq_true]; exact addressed.single, apart⟩]
  rfl

theorem arpHandle_answer (addressed : Addressed target) (apart : asker.ownIp ≠ target.ownIp) :
    arpHandle table (replyTo asker target) asker.ownMac asker.ownIp now =
      (none, arpTableUpdate table target.ownIp target.ownMac now) := by
  have notRequest : ¬ arpReply = arpRequest := by decide
  have isTarget : (replyTo asker target).targetIp = asker.ownIp := rfl
  unfold arpHandle
  dsimp only
  rw [if_neg (fun asks => notRequest asks.1),
    if_pos (addressed.senderIsValid apart.symm rfl rfl), if_pos isTarget]
  rfl

/-- A frame with an ARP packet for a host. -/
theorem handleFrame_arp {frame padded : List UInt8} {header : EthernetHeader}
    {packet : ArpPacket} {unset : Ipv4Addr}
    (framed : ethernetParse frame = .done (header, padded)) (isArp : header.type = 0x0806)
    (forUs : ethernetForUs header state.ownMac = true)
    (isPacket : arpParse padded = .done packet) :
    handleFrame state now unset frame = .done (answered state packet now) := by
  unfold handleFrame
  rw [framed, Checked.recover]
  dsimp only
  rw [if_pos forUs, if_pos isArp, handleArp_eq isPacket]

/-- The target answers with one frame, whatever its table holds. -/
theorem handleFrame_request {frame padded reply : List UInt8} {unset : Ipv4Addr}
    (addressed : Addressed asker) (apart : asker.ownIp ≠ target.ownIp)
    (same : SameHost target state)
    (framed : ethernetParse frame = .done (⟨macBroadcast, asker.ownMac, 0x0806⟩, padded))
    (isPacket : arpParse padded = .done (requestFor asker target))
    (isReply : arpFrame ethernetFrameMax (replyTo asker target) = some reply) :
    ∃ state', handleFrame state now unset frame = .done state' ∧
      state'.sent = state.sent ++ [reply] ∧ SameHost target state' := by
  have handled := @handleFrame_arp state now frame padded _ _ unset framed rfl
    (by unfold ethernetForUs; simp [macBroadcast]) isPacket
  refine ⟨_, handled, ?_, ⟨same.mac, same.ip⟩⟩
  unfold answered
  dsimp only
  rw [same.mac, same.ip, arpHandle_request addressed apart, Option.bind_some, isReply]
  rfl

/-- The reply tells the host that asked. -/
theorem handleFrame_reply {frame padded : List UInt8} {unset : Ipv4Addr}
    (addressed : Addressed target) (apart : asker.ownIp ≠ target.ownIp)
    (same : SameHost asker state)
    (framed : ethernetParse frame = .done (⟨asker.ownMac, target.ownMac, 0x0806⟩, padded))
    (isPacket : arpParse padded = .done (replyTo asker target)) :
    ∃ state', handleFrame state now unset frame = .done state' ∧
      Learned state' target.ownIp target.ownMac now := by
  have handled := @handleFrame_arp state now frame padded _ _ unset framed rfl
    (by unfold ethernetForUs; simp [same.mac]) isPacket
  refine ⟨_, handled, ?_⟩
  intro later young
  unfold answered tableLookup
  dsimp only
  rw [same.mac, same.ip, arpHandle_answer addressed apart]
  exact lookup_update young

end Asking

/-! ## Pinging -/

section Pinging

variable {state : Network} {now : UInt32}

/-- What `send_ipv4` sends depends on the addresses of the host only. -/
theorem sendIpv4_sends (host : Network) (mac : MacAddr) (target : Ipv4Addr)
    (protocol : UInt8) {data : List UInt8} {packetCapacity frameCapacity : Nat}
    (fits : ipv4HeaderSize + data.length ≤ ethernetMtu)
    (room : ipv4HeaderSize + data.length ≤ packetCapacity)
    (fitsMin : ethernetFrameMin ≤ frameCapacity)
    (fitsFrame : ethernetHeaderSize + (ipv4HeaderSize + data.length) ≤ frameCapacity) :
    ∃ frame padded parsed, (∀ state, SameHost host state →
        sendIpv4 state mac target protocol data packetCapacity frameCapacity =
          { state with sent := state.sent ++ [frame] }) ∧
      ethernetParse frame = .done (⟨mac, host.ownMac, 0x0800⟩, padded) ∧
      ipv4PacketParse padded = .done (parsed, data) ∧
      parsed.source = host.ownIp ∧ parsed.destination = target ∧ parsed.protocol = protocol := by
  have notFragment : isFragment (ipv4HeaderInit host.ownIp target protocol).flagsFragment =
      false := (by decide : isFragment 0x4000 = false)
  rcases @delivered_build ⟨mac, host.ownMac, 0x0800⟩ (ipv4HeaderInit host.ownIp target protocol)
    data packetCapacity frameCapacity notFragment fits room fitsMin fitsFrame with
    ⟨packet, frame, isPacket, isFrame, padded, parsed, isEthernet, isIpv4, isSource,
      isDestination, isProtocol⟩
  refine ⟨frame, padded, parsed, ?_, isEthernet, isIpv4, isSource, isDestination, isProtocol⟩
  intro state same
  unfold sendIpv4
  dsimp only
  rw [same.mac, same.ip, isPacket]
  dsimp only
  rw [isFrame]

/-- A frame with an ICMP message for a host. -/
theorem handleFrame_icmp {frame padded data : List UInt8} {header : EthernetHeader}
    {ip : Ipv4Header} {unset : Ipv4Addr}
    (framed : ethernetParse frame = .done (header, padded)) (isIp : header.type = 0x0800)
    (forUs : header.destination = state.ownMac)
    (inside : ipv4PacketParse padded = .done (ip, data))
    (isOwn : ip.destination = state.ownIp) (isIcmp : ip.protocol = 1) :
    handleFrame state now unset frame = handleIcmp state now header ip data := by
  have notArp : ¬ header.type = 0x0806 := by
    rw [isIp]
    decide
  unfold handleFrame
  rw [framed, Checked.recover]
  dsimp only
  rw [if_pos (by unfold ethernetForUs; simp [forUs]), if_neg notArp, if_pos isIp, handleIpv4,
    inside, Checked.recover]
  dsimp only
  rw [if_neg (not_not.mpr isOwn), if_pos isIcmp]

theorem handleIcmp_request {header : EthernetHeader} {ip : Ipv4Header}
    {data answer : List UInt8} {message : IcmpMessage}
    (isMessage : icmpParse data = .done message) (isRequest : message.type = 8)
    (built : icmpBuild ethernetMtu 0 0 message.id message.sequence message.payload =
      some answer) :
    handleIcmp state now header ip data =
      .done (sendIpv4 state header.source ip.source 1 answer ethernetMtu ethernetFrameMax) := by
  unfold handleIcmp
  rw [isMessage, Checked.recover, if_pos isRequest, icmpEchoReply,
    if_neg (not_not.mpr isRequest), built]

theorem handleIcmp_echo {header : EthernetHeader} {ip : Ipv4Header} {data : List UInt8}
    {message : IcmpMessage} (isMessage : icmpParse data = .done message)
    (isReply : message.type = 0)
    (accepts : acceptsEcho state.echo ip.source message = true) :
    handleIcmp state now header ip data =
      .done { state with echo := publishEcho state.echo now } := by
  unfold handleIcmp
  rw [isMessage, Checked.recover, if_neg (by rw [isReply]; decide), if_pos accepts]

end Pinging

/-! ## The whole exchange -/

section Exchanges

variable {asker target : Network}

/-- Two frames tell the host that asks the address of the other one. -/
theorem address_exchange (addressed : Addressed asker) (addressed' : Addressed target)
    (apart : asker.ownIp ≠ target.ownIp) :
    ∃ request reply, (askFor asker target.ownIp).sent = asker.sent ++ [request] ∧
      (∀ state now unset, SameHost target state →
        ∃ state', handleFrame state now unset request = .done state' ∧
          state'.sent = state.sent ++ [reply] ∧ SameHost target state') ∧
      ∀ state now unset, SameHost asker state →
        ∃ state', handleFrame state now unset reply = .done state' ∧
          Learned state' target.ownIp target.ownMac now := by
  rcases arpFrame_build (requestFor asker target) (Or.inl rfl) (Nat.le_refl _) with
    ⟨request, padded, isRequest, framed, isPacket⟩
  rcases arpFrame_build (replyTo asker target) (Or.inr rfl)
    (by decide : ethernetFrameMin ≤ ethernetFrameMax) with
    ⟨reply, padded', isReply, framed', isPacket'⟩
  refine ⟨request, reply, ?_, ?_, ?_⟩
  · unfold requestFor at isRequest
    unfold askFor
    rw [isRequest]
  · intro state now unset same
    exact handleFrame_request addressed apart same framed isPacket isReply
  · intro state now unset same
    exact handleFrame_reply addressed' apart same framed' isPacket'

/-- Two more frames mark the echo as received while `net_ping` waits for it. -/
theorem echo_exchange (asker target : Network) :
    ∃ request reply, (sendPing asker target.ownMac target.ownIp).sent =
        asker.sent ++ [request] ∧
      (∀ state now unset, SameHost target state →
        ∃ state', handleFrame state now unset request = .done state' ∧
          state'.sent = state.sent ++ [reply] ∧ SameHost target state') ∧
      ∀ state now unset, SameHost asker state → state.echo.waiting = true →
        state.echo.target = target.ownIp → state.echo.sequence = asker.echo.sequence →
        ∃ state', handleFrame state now unset reply = .done state' ∧
          state'.echo.received = true ∧ state'.echo.time = now := by
  have isMtu : ethernetMtu = 1500 := rfl
  have isHeader : icmpHeaderSize = 8 := rfl
  have isIpHeader : ipv4HeaderSize = 20 := rfl
  have isEthernet : ethernetHeaderSize = 14 := rfl
  have isMin : ethernetFrameMin = 60 := rfl
  have isMax : ethernetFrameMax = 1514 := rfl
  have isMost : ipv4PacketMax = 65535 := rfl
  have isPayload : pingPayloadSize = 32 := rfl
  have isData : pingData.length = 32 := rfl
  rcases @icmpParse_build (icmpHeaderSize + pingPayloadSize) 8 0 pingId asker.echo.sequence
    pingData (by omega) (by omega) with ⟨data, built, isLength, isMessage⟩
  rcases @icmpParse_build ethernetMtu 0 0 pingId asker.echo.sequence pingData (by omega)
    (by omega) with ⟨data', built', isLength', isMessage'⟩
  rcases @sendIpv4_sends asker target.ownMac target.ownIp 1 data
    (ipv4HeaderSize + icmpHeaderSize + pingPayloadSize)
    (ethernetHeaderSize + ipv4HeaderSize + icmpHeaderSize + pingPayloadSize) (by omega)
    (by omega) (by omega) (by omega) with
    ⟨request, padded, parsed, sends, framed, inside, isSource, isDestination, isProtocol⟩
  rcases @sendIpv4_sends target asker.ownMac asker.ownIp 1 data' ethernetMtu ethernetFrameMax
    (by omega) (by omega) (by omega) (by omega) with
    ⟨reply, padded', parsed', sends', framed', inside', isSource', isDestination', isProtocol'⟩
  refine ⟨request, reply, ?_, ?_, ?_⟩
  · unfold sendPing
    rw [built]
    exact congrArg Network.sent (sends asker ⟨rfl, rfl⟩)
  · intro state now unset same
    refine ⟨{ state with sent := state.sent ++ [reply] }, ?_, rfl, ⟨same.mac, same.ip⟩⟩
    rw [handleFrame_icmp framed rfl same.mac.symm inside (isDestination.trans same.ip.symm)
      isProtocol, handleIcmp_request isMessage rfl built', isSource, sends' state same]
  · intro state now unset same waiting isTarget isSequence
    refine ⟨{ state with echo := publishEcho state.echo now }, ?_, rfl, rfl⟩
    rw [handleFrame_icmp framed' rfl same.mac.symm inside'
      (isDestination'.trans same.ip.symm) isProtocol']
    apply handleIcmp_echo isMessage' rfl
    unfold acceptsEcho
    simp [waiting, isTarget, isSequence, isSource']

end Exchanges

/-- A host pings another one of its network. The request for the address of the next hop is
answered with one frame, and that frame tells the address. The echo request is answered with
one frame, and that frame marks the echo as received. Each host handles a frame in any later
state, except that the last one comes while `net_ping` waits. -/
theorem ping_completes (asker target : Network) (gateway : Ipv4Addr)
    (addressed : Addressed asker) (addressed' : Addressed target)
    (apart : asker.ownIp ≠ target.ownIp)
    (near : ipv4InSubnet target.ownIp asker.ownIp netmask = true) :
    (∃ request reply, (askFor asker (nextHop asker gateway target.ownIp)).sent =
        asker.sent ++ [request] ∧
      (∀ state now unset, SameHost target state →
        ∃ state', handleFrame state now unset request = .done state' ∧
          state'.sent = state.sent ++ [reply] ∧ SameHost target state') ∧
      ∀ state now unset, SameHost asker state →
        ∃ state', handleFrame state now unset reply = .done state' ∧
          Learned state' (nextHop asker gateway target.ownIp) target.ownMac now) ∧
    ∃ request reply, (sendPing (armEcho asker target.ownIp) target.ownMac
        target.ownIp).sent = asker.sent ++ [request] ∧
      (∀ state now unset, SameHost target state →
        ∃ state', handleFrame state now unset request = .done state' ∧
          state'.sent = state.sent ++ [reply] ∧ SameHost target state') ∧
      ∀ state now unset, SameHost asker state →
        state.echo = (armEcho asker target.ownIp).echo →
        ∃ state', handleFrame state now unset reply = .done state' ∧
          state'.echo.received = true ∧ state'.echo.time = now := by
  constructor
  · have isHop : nextHop asker gateway target.ownIp = target.ownIp := if_pos near
    rw [isHop]
    exact address_exchange addressed addressed' apart
  · rcases echo_exchange (armEcho asker target.ownIp) target with
      ⟨request, reply, isRequest, answers, receives⟩
    refine ⟨request, reply, isRequest, answers, ?_⟩
    intro state now unset same isEcho
    exact receives state now unset ⟨same.mac, same.ip⟩ (by rw [isEcho]; rfl)
      (by rw [isEcho]; rfl) (by rw [isEcho])

def ipOf (last : UInt8) : Ipv4Addr := ipv4 10 0 2 last

/-- A host that has just been started, by the last byte of its addresses. -/
def freshHost (last : UInt8) : Network where
  ownMac := ⟨[0x52, 0x54, 0, 0x12, 0x34, last], rfl⟩
  ownIp := ipOf last
  dnsServer := ipOf 3
  table := arpTableInit
  echo := ⟨ipv4Zero, 0, false, false, 0⟩
  dns := ⟨.empty, ipv4Zero, 0, 0, false, false, none⟩
  sent := []

theorem freshHost_addressed (last : UInt8) : Addressed (freshHost last) := by
  have notZero : ¬ (10 : UInt8) = 0 := by decide
  have notOnes : ¬ (10 : UInt8) = 0xFF := by decide
  have notZero' : ¬ (0x52 : UInt8) = 0 := by decide
  refine ⟨?_, ?_, ?_, (by decide : decide ((0x52 : UInt8) &&& 1 ≠ 0) = false)⟩
  · intro same
    exact notZero (congrArg (fun address => address.val.getD 0 0) same)
  · intro same
    exact notOnes (congrArg (fun address => address.val.getD 0 0) same)
  · intro same
    exact notZero' (congrArg (fun address => address.val.getD 0 0) same)

theorem freshHost_pings :
    ∃ request reply, (sendPing (armEcho (freshHost 15) (ipOf 16)) (freshHost 16).ownMac
        (ipOf 16)).sent = [request] ∧
      ∃ state', handleFrame (freshHost 16) 0 ipv4Zero request = .done state' ∧
        state'.sent = [reply] := by
  rcases (ping_completes (freshHost 15) (freshHost 16) (ipOf 2)
    (freshHost_addressed 15) (freshHost_addressed 16) (by decide) (by decide)).2 with
    ⟨request, reply, isRequest, answers, -⟩
  rcases answers (freshHost 16) 0 ipv4Zero ⟨rfl, rfl⟩ with ⟨state', handled, isSent, -⟩
  exact ⟨request, reply, isRequest, state', handled, isSent⟩

/-! ## Every run -/

section Runs

variable {Host : Type} [DecidableEq Host] {start hosts : Host → Network}
variable {state' : Network} {frame : List UInt8}

/-- In every run, a lookup that succeeds gives the hardware address of the host that has the
protocol address. -/
theorem lookup_truthful (started : LanStarted start) (reachable : LanReachable start hosts)
    {host : Host} {ip : Ipv4Addr} {now : UInt32} {mac : MacAddr}
    (found : (tableLookup (hosts host) ip now).1 = some mac) :
    ∃ other, (hosts other).ownIp = ip ∧ (hosts other).ownMac = mac ∧
      ∀ another, (hosts another).ownIp = ip → another = other := by
  have honest := reachable.honest started
  rcases honest.known host ip mac (known_of_lookup found) with ⟨other, rfl, rfl⟩
  exact ⟨other, rfl, rfl, fun another isIp => honest.distinct isIp⟩

/-- Two hosts that have just been started. -/
def twoHosts : Bool → Network
  | true => freshHost 15
  | false => freshHost 16

theorem twoHosts_started : LanStarted twoHosts where
  table := by
    intro host
    cases host <;> rfl
  sent := by
    intro host
    cases host <;> rfl
  distinct := by
    intro first second same
    revert same
    revert first second
    decide

/-- A host handles a frame that another one has sent. -/
theorem LanReachable.receive (reachable : LanReachable start hosts) {host sender : Host}
    {state : Network} {now : UInt32} (isState : hosts host = state)
    (isSent : frame ∈ (hosts sender).sent)
    (handled : handleFrame state now ipv4Zero frame = .done state') :
    LanReachable start (Function.update hosts host state') := by
  rw [← isState] at handled
  exact reachable.tail (.act host (.receive now ipv4Zero ⟨sender, isSent⟩ handled))

/-- The first host asks for the address of the second, and both frames arrive. -/
theorem twoHosts_learn : ∃ hosts, LanReachable twoHosts hosts ∧
    (tableLookup (hosts true) (ipOf 16) 0).1 = some (freshHost 16).ownMac := by
  have apart : (twoHosts true).ownIp ≠ (twoHosts false).ownIp := by decide
  rcases address_exchange (freshHost_addressed 15) (freshHost_addressed 16) apart with
    ⟨request, reply, isRequest, answers, learns⟩
  rcases answers (twoHosts false) 0 ipv4Zero ⟨rfl, rfl⟩ with ⟨second, handled, isSent, -⟩
  rcases learns (askFor (twoHosts true) (ipOf 16)) 0 ipv4Zero ⟨rfl, rfl⟩ with
    ⟨first, handled', isLearned⟩
  have asked : LanReachable twoHosts (Function.update twoHosts true
      (askFor (twoHosts true) (ipOf 16))) := .single (.act true (.ask (ipOf 16)))
  have answered := @LanReachable.receive _ _ _ _ _ request asked false true _ 0 rfl
    (by
      rw [Function.update_self]
      exact isRequest ▸ List.mem_append_right _ (List.mem_singleton_self request)) handled
  have told := @LanReachable.receive _ _ _ _ _ reply answered true false _ 0 rfl
    (by
      rw [Function.update_self, isSent]
      exact List.mem_append_right _ (List.mem_singleton_self reply)) handled'
  refine ⟨_, told, ?_⟩
  rw [Function.update_self]
  exact isLearned 0 (by decide)

theorem twoHosts_truthful : ∃ hosts other, LanReachable twoHosts hosts ∧
    (hosts other).ownIp = ipOf 16 ∧ (hosts other).ownMac = (freshHost 16).ownMac := by
  rcases twoHosts_learn with ⟨hosts, reachable, found⟩
  rcases lookup_truthful twoHosts_started reachable found with ⟨other, isIp, isMac, -⟩
  exact ⟨hosts, other, reachable, isIp, isMac⟩

/-- In every run, a frame that marks the echo as received comes from the host that was
pinged, and answers a request with that number that this host sent to it. -/
theorem ping_authentic (started : LanStarted start) (reachable : LanReachable start hosts)
    {host : Host} {now : UInt32} {unset : Ipv4Addr} (onWire : OnWire hosts frame)
    (handled : handleFrame (hosts host) now unset frame = .done state')
    (notYet : (hosts host).echo.received = false) (received : state'.echo.received = true) :
    ∃ other, (hosts other).ownIp = (hosts host).echo.target ∧ frame ∈ (hosts other).sent ∧
      ∃ request ∈ (hosts host).sent, ∃ message,
        EchoIn request (hosts host).ownIp (hosts host).echo.target message ∧
        message.type = 8 ∧ message.id = pingId ∧
        message.sequence = (hosts host).echo.sequence := by
  have honest := reachable.honest started
  have unchanged : state'.echo = (hosts host).echo → False := by
    intro same
    rw [same, notYet] at received
    cases received
  cases handleFrame_handled handled with
  | ignored => exact absurd rfl unchanged
  | arp content => exact absurd rfl unchanged
  | request mac content isRequest built =>
      rename_i reply
      refine absurd ?_ unchanged
      rcases sendIpv4_cases (hosts host) mac _ 1 reply ethernetMtu ethernetFrameMax with
        same | ⟨_, isSent, _⟩
      · rw [same]
      · rw [isSent]
  | dns dns => exact absurd rfl unchanged
  | echo content accepts =>
      rename_i source message
      simp only [acceptsEcho, decide_eq_true_eq] at accepts
      rcases accepts with ⟨isReply, -, isId, isSequence, rfl⟩
      rcases onWire with ⟨other, isSent⟩
      cases honest.sent other frame isSent with
      | arp content' =>
          rcases content with ⟨_, carries, _⟩
          exact absurd carries content'.not_dataIn
      | request content' isRequest =>
          rw [(content'.unique content).2.2, isReply] at isRequest
          exact absurd isRequest (by decide)
      | datagram carries' =>
          rcases content with ⟨_, carries, _⟩
          exact absurd (carries'.unique carries).2.2.1 (by decide)
      | reply content' onWire asked isRequest =>
          rename_i destination message' request
          rcases content'.unique content with ⟨isSource, rfl, rfl⟩
          refine ⟨other, isSource, isSent, request, honest.asked onWire asked, message', ?_,
            isRequest, isId, isSequence⟩
          rw [← isSource]
          exact asked


theorem sendPing_same (state : Network) (destination : MacAddr) (target : Ipv4Addr) :
    (sendPing state destination target).echo = state.echo ∧
      SameHost state (sendPing state destination target) := by
  unfold sendPing
  split
  · exact ⟨rfl, rfl, rfl⟩
  · next payload _ =>
      rcases sendIpv4_cases state destination target 1 payload
        (ipv4HeaderSize + icmpHeaderSize + pingPayloadSize)
        (ethernetHeaderSize + ipv4HeaderSize + icmpHeaderSize + pingPayloadSize) with
        same | ⟨frame, isSent, -⟩
      · rw [same]
        exact ⟨rfl, rfl, rfl⟩
      · rw [isSent]
        exact ⟨rfl, rfl, rfl⟩

/-- The first host pings the second, which answers. -/
theorem twoHosts_ping : ∃ hosts frame state', LanReachable twoHosts hosts ∧
    OnWire hosts frame ∧ handleFrame (hosts true) 0 ipv4Zero frame = .done state' ∧
    (hosts true).echo.received = false ∧ state'.echo.received = true ∧
    (hosts true).echo.target = ipOf 16 := by
  let armed := armEcho (freshHost 15) (ipOf 16)
  rcases echo_exchange armed (freshHost 16) with ⟨request, reply, isRequest, answers, receives⟩
  rcases answers (twoHosts false) 0 ipv4Zero ⟨rfl, rfl⟩ with ⟨second, handled, isSent, -⟩
  have first : LanReachable twoHosts (Function.update twoHosts true armed) :=
    .single (.act true (.shell armed.echo armed.dns))
  have pinged : LanReachable twoHosts (Function.update (Function.update twoHosts true armed) true
      (sendPing armed (freshHost 16).ownMac (ipOf 16))) :=
    first.tail (.act true (.ping (freshHost 16).ownMac (ipOf 16)))
  have answered := @LanReachable.receive _ _ _ _ _ request pinged false true _ 0 rfl
    (by
      rw [Function.update_self]
      exact isRequest ▸ List.mem_append_right _ (List.mem_singleton_self request)) handled
  have same := sendPing_same armed (freshHost 16).ownMac (ipOf 16)
  generalize sendPing armed (freshHost 16).ownMac (ipOf 16) = waiting at same answered
  rcases receives waiting 0 ipv4Zero same.2 (by rw [same.1]; rfl) (by rw [same.1]; rfl)
    (by rw [same.1]) with ⟨state', handled', received, -⟩
  refine ⟨_, reply, state', answered, ⟨false, ?_⟩, handled', ?_, received, ?_⟩
  · rw [Function.update_self, isSent]
    exact List.mem_append_right _ (List.mem_singleton_self reply)
  · exact (congrArg EchoState.received same.1).trans rfl
  · exact (congrArg EchoState.target same.1).trans rfl

theorem twoHosts_authentic : ∃ hosts other, LanReachable twoHosts hosts ∧
    (hosts other).ownIp = ipOf 16 ∧ ∃ request ∈ (hosts true).sent, ∃ message,
      EchoIn request (hosts true).ownIp (ipOf 16) message := by
  rcases twoHosts_ping with ⟨hosts, frame, state', reachable, onWire, handled, notYet, received,
    isTarget⟩
  rcases ping_authentic twoHosts_started reachable onWire handled notYet received with
    ⟨other, isIp, -, request, isSent, message, content, -⟩
  rw [isTarget] at isIp content
  exact ⟨hosts, other, reachable, isIp, request, isSent, message, content⟩

end Runs

end Katela.Net
