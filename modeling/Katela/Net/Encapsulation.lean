import Katela.Net.Layers

/-! # Building and parsing

What is built by the layers, one inside the other, is parsed by them to what it
was built from. -/

namespace Katela.Net

/-! ## Numbers -/

@[simp] theorem length_be16Write (value : UInt16) : (be16Write value).length = 2 := rfl

theorem be16_of_bytes (value : UInt16) :
    UInt16.ofNat (256 * (UInt8.ofNat (value.toNat / 256)).toNat +
      (UInt8.ofNat value.toNat).toNat) = value := by
  have bound := value.toNat_lt
  apply UInt16.toNat_inj.mp
  rw [UInt16.toNat_ofNat', UInt8.toNat_ofNat', UInt8.toNat_ofNat']
  omega

theorem wordSum_be16Write (value : UInt16) : wordSum (be16Write value) = value.toNat := by
  have bound := value.toNat_lt
  rw [be16Write, wordSum, wordSum, UInt8.toNat_ofNat', UInt8.toNat_ofNat']
  omega

section Reads

variable {ε : Type} {bytes rest : List UInt8} {offset : Nat}

theorem be16Read_of_drop {value : UInt16}
    (isDrop : bytes.drop offset = be16Write value ++ rest) :
    (be16Read bytes offset : Checked ε UInt16) = .done value := by
  have isDrop' : bytes.drop offset = UInt8.ofNat (value.toNat / 256) ::
      UInt8.ofNat value.toNat :: rest := isDrop
  have next := (getElem?_of_drop isDrop').2
  rw [be16Read, Checked.get_of_drop isDrop', Checked.done_bind,
    Checked.get_of_drop next, Checked.done_bind, be16_of_bytes]

theorem copyAddress_of_drop {size : Nat} {address : Address size}
    (isDrop : bytes.drop offset = address.val ++ rest) (inside : offset ≤ bytes.length) :
    (copyAddress bytes offset : Checked ε (Address size)) = .done address := by
  have isSize := address.property
  have isLength := congrArg List.length isDrop
  rw [List.length_drop, List.length_append] at isLength
  unfold copyAddress
  rw [dif_pos (by omega)]
  congr 1
  apply Subtype.ext
  simp only
  rw [isDrop, List.take_left' isSize]

/-- The position after some bytes of a known number. -/
theorem drop_next {front : List UInt8} {size : Nat}
    (isDrop : bytes.drop offset = front ++ rest) (isSize : front.length = size) :
    bytes.drop (offset + size) = rest := by
  rw [← isSize]
  exact drop_of_drop isDrop

end Reads

/-! ## Checksums -/

section Checksums

variable {front back : List UInt8} {start total sum : Nat}

theorem total_add_checksumFinish_ne_zero (stands : StandsFor sum total) :
    total + (checksumFinish sum).toNat ≠ 0 := by
  rcases stands.foldCarries with ⟨⟨_, zero⟩, small⟩
  rw [toNat_checksumFinish small]
  omega

theorem wordSum_field (even : front.length % 2 = 0) (value : UInt16) :
    wordSum (front ++ (be16Write value ++ back)) =
      wordSum front + wordSum back + value.toNat := by
  have two : (be16Write value).length % 2 = 0 := by rw [length_be16Write]
  rw [wordSum_append even, wordSum_append two, wordSum_be16Write]
  omega

/-- The checksum that was computed over a zero field is accepted in that field. -/
theorem checksumFinish_stored (stands : StandsFor start total) (small : start < wordSize)
    (even : front.length % 2 = 0) {stored : UInt16}
    (isStored : stored.toNat % 65535 =
      (checksumFinish (checksumAdd start
        (front ++ (be16Write 0 ++ back)))).toNat % 65535)
    (nonzero : stored ≠ 0 ∨ stored = checksumFinish (checksumAdd start
      (front ++ (be16Write 0 ++ back)))) :
    checksumFinish (checksumAdd start (front ++ (be16Write stored ++ back))) = 0 := by
  have without := (stands.checksumAdd small (front ++ (be16Write 0 ++ back))).1
  have complete := (stands.checksumAdd small (front ++ (be16Write stored ++ back))).1
  rw [wordSum_field even] at without complete
  have isZero : (0 : UInt16).toNat = 0 := rfl
  rw [isZero, Nat.add_zero] at without
  rw [← Nat.add_assoc] at complete
  refine checksumFinish_eq_zero without isStored ?_ complete
  rcases nonzero with nonzero | isSum
  · intro impossible
    apply nonzero
    apply UInt16.toNat_inj.mp
    rw [isZero]
    omega
  · rw [isSum]
    exact total_add_checksumFinish_ne_zero without

theorem checksum_stored (even : front.length % 2 = 0) :
    checksum (front ++ (be16Write (checksum (front ++ (be16Write 0 ++ back))) ++ back)) =
      0 :=
  checksumFinish_stored standsFor_zero (by decide) even rfl (Or.inr rfl)

/-- The checksum of a string is that of RFC 1071, however it is cut into pieces, and a
string with its checksum in it is accepted. -/
theorem checksum_exact :
    (∀ pieces : List (List UInt8), (∀ piece ∈ pieces.dropLast, piece.length % 2 = 0) →
      checksumFinish (pieces.foldl checksumAdd 0) =
        ~~~ UInt16.ofNat (onesSum pieces.flatten)) ∧
      ∀ front back : List UInt8, front.length % 2 = 0 →
        checksum (front ++ (be16Write (checksum (front ++ (be16Write 0 ++ back))) ++ back)) =
          0 :=
  ⟨fun _ even => checksumFinish_pieces even, fun _ _ even => checksum_stored even⟩

/-- Two pieces, the second of which ends within a word. -/
theorem checksum_exact_two :
    checksumFinish (checksumAdd (checksumAdd 0 [0x45, 0x00]) [0x01, 0x02, 0x03]) =
      ~~~ UInt16.ofNat (onesSum [0x45, 0x00, 0x01, 0x02, 0x03]) :=
  checksum_exact.1 [[0x45, 0x00], [0x01, 0x02, 0x03]] (by decide)

end Checksums

/-! ## Ethernet -/

theorem ethernetParse_build {capacity : Nat} {header : EthernetHeader}
    {payload : List UInt8} (fits : payload.length ≤ ethernetMtu)
    (room : ethernetFrameMin ≤ capacity)
    (room' : ethernetHeaderSize + payload.length ≤ capacity) :
    ∃ frame padding, ethernetBuild capacity header payload = some frame ∧
      ethernetParse frame = .done (header, payload ++ padding) := by
  rcases header with ⟨destination, source, type⟩
  have first := destination.property
  have second := source.property
  have isHeader : ethernetHeaderSize = 14 := rfl
  have isMin : ethernetFrameMin = 60 := rfl
  have isMax : ethernetFrameMax = 1514 := rfl
  have isMtu : ethernetMtu = 1500 := rfl
  unfold ethernetBuild
  dsimp only
  rw [if_neg (by omega), if_neg (by split <;> omega)]
  generalize isPadding : List.replicate
    ((if ethernetHeaderSize + payload.length < ethernetFrameMin then ethernetFrameMin
      else ethernetHeaderSize + payload.length) - ethernetHeaderSize - payload.length)
    (0 : UInt8) = padding
  have few : padding.length ≤ 46 ∧ (46 < payload.length → padding.length = 0) := by
    rw [← isPadding, List.length_replicate]
    split <;> omega
  refine ⟨_, padding, rfl, ?_⟩
  simp only [List.append_assoc]
  generalize isFrame : destination.val ++ (source.val ++ (be16Write type ++
    (payload ++ padding))) = frame
  have isLength : frame.length = 14 + payload.length + padding.length := by
    rw [← isFrame]
    simp only [List.length_append, length_be16Write]
    omega
  have at0 : frame.drop 0 = destination.val ++ _ := isFrame.symm
  have at6 : frame.drop 6 = source.val ++ _ := drop_next at0 first
  have at12 : frame.drop 12 = be16Write type ++ _ := drop_next at6 second
  have at14 : frame.drop 14 = payload ++ padding := drop_next at12 rfl
  rw [ethernetParse, if_neg (by omega), copyAddress_of_drop at0 (by omega),
    Checked.done_bind, copyAddress_of_drop at6 (by omega), Checked.done_bind,
    be16Read_of_drop at12, Checked.done_bind, isHeader,
    Checked.slice_of_le (by omega), Checked.done_bind, at14, List.take_of_length_le]
  rw [List.length_append]
  omega

/-! ## IPv4 -/

/-- The header before its checksum. -/
def ipv4HeaderFront (header : Ipv4Header) (total : UInt16) : List UInt8 :=
  [0x45, header.tos] ++ be16Write total ++ be16Write header.id ++
    be16Write header.flagsFragment ++ [header.ttl, header.protocol]

theorem ipv4HeaderBytes_eq (header : Ipv4Header) (total sum : UInt16) :
    ipv4HeaderBytes header total sum = ipv4HeaderFront header total ++
      (be16Write sum ++ (header.source.val ++ header.destination.val)) := by
  simp [ipv4HeaderBytes, ipv4HeaderFront]

theorem length_ipv4HeaderBytes (header : Ipv4Header) (total sum : UInt16) :
    (ipv4HeaderBytes header total sum).length = ipv4HeaderSize := by
  have first := header.source.property
  have second := header.destination.property
  simp only [ipv4HeaderBytes, List.length_append, List.length_cons, List.length_nil,
    length_be16Write, ipv4HeaderSize]
  omega

/-- What is read from a packet that was built, and is followed by padding. -/
theorem ipv4PacketParse_build {capacity : Nat} {header : Ipv4Header}
    {payload : List UInt8} (padding : List UInt8)
    (fits : ipv4HeaderSize + payload.length ≤ ipv4PacketMax)
    (room : ipv4HeaderSize + payload.length ≤ capacity) :
    ∃ packet, ipv4PacketBuild capacity header payload = some packet ∧
      packet.length = ipv4HeaderSize + payload.length ∧
      ipv4PacketParse (packet ++ padding) =
        if isFragment header.flagsFragment then .failed .fragment
        else .done ({ header with
          headerLength := 20
          totalLength := UInt16.ofNat (ipv4HeaderSize + payload.length) }, payload) := by
  have isHeader : ipv4HeaderSize = 20 := rfl
  have isMost : ipv4PacketMax = 65535 := rfl
  unfold ipv4PacketBuild
  rw [if_neg (by omega), if_neg (by omega)]
  dsimp only
  have isTotal :
      (UInt16.ofNat (ipv4HeaderSize + payload.length)).toNat = 20 + payload.length := by
    rw [UInt16.toNat_ofNat', isHeader]
    omega
  generalize UInt16.ofNat (ipv4HeaderSize + payload.length) = total at *
  generalize isSum : checksum (ipv4HeaderBytes header total 0) = sum
  have accepted : checksum (ipv4HeaderBytes header total sum) = 0 := by
    have isFront : (ipv4HeaderFront header total).length = 10 := rfl
    rw [← isSum, ipv4HeaderBytes_eq, ipv4HeaderBytes_eq]
    exact checksum_stored (by rw [isFront])
  have isSize := length_ipv4HeaderBytes header total sum
  refine ⟨_, rfl, by rw [List.length_append, isSize], ?_⟩
  rw [List.append_assoc]
  generalize isPacket : ipv4HeaderBytes header total sum ++ (payload ++ padding) = packet
  have isLength : packet.length = 20 + payload.length + padding.length := by
    rw [← isPacket, List.length_append, isSize, List.length_append, isHeader]
    omega
  have whole : packet.drop 0 = ipv4HeaderBytes header total sum ++ (payload ++ padding) :=
    isPacket.symm
  have at0 : packet.drop 0 = 0x45 :: header.tos :: (be16Write total ++
      (be16Write header.id ++ (be16Write header.flagsFragment ++
      (header.ttl :: header.protocol :: (be16Write sum ++ (header.source.val ++
      (header.destination.val ++ (payload ++ padding)))))))) := by
    rw [whole]
    simp [ipv4HeaderBytes]
  have at1 : packet.drop 1 = header.tos :: _ := (getElem?_of_drop at0).2
  have at2 : packet.drop 2 = be16Write total ++ _ := (getElem?_of_drop at1).2
  have at4 : packet.drop 4 = be16Write header.id ++ _ := drop_next at2 rfl
  have at6 : packet.drop 6 = be16Write header.flagsFragment ++ _ := drop_next at4 rfl
  have at8 : packet.drop 8 = header.ttl :: _ := drop_next at6 rfl
  have at9 : packet.drop 9 = header.protocol :: _ := (getElem?_of_drop at8).2
  have at10 : packet.drop 10 = be16Write sum ++ _ := (getElem?_of_drop at9).2
  have at12 : packet.drop 12 = header.source.val ++ _ := drop_next at10 rfl
  have at16 : packet.drop 16 = header.destination.val ++ (payload ++ padding) :=
    drop_next at12 header.source.property
  have at20 : packet.drop 20 = payload ++ padding :=
    drop_next at16 header.destination.property
  have first : (Checked.get packet 0 : Checked Ipv4Error UInt8) = .done 0x45 :=
    Checked.get_of_drop at0
  have headerBytes : (Checked.slice packet 0 20 : Checked Ipv4Error (List UInt8)) =
      .done (ipv4HeaderBytes header total sum) :=
    Checked.slice_of_drop whole isSize (by omega)
  have nibbles : ¬ (0x45 : UInt8) >>> 4 ≠ 4 ∧ ((0x45 : UInt8) &&& 0x0F).toNat * 4 = 20 := by
    decide
  rw [ipv4PacketParse, if_neg (by omega), first, Checked.done_bind, if_neg nibbles.1]
  dsimp only
  rw [nibbles.2, if_neg (by omega), be16Read_of_drop at2, Checked.done_bind, isTotal,
    if_neg (by omega), headerBytes, Checked.done_bind, accepted, if_neg (by decide), Checked.get_of_drop at1, Checked.done_bind,
    be16Read_of_drop at4, Checked.done_bind, be16Read_of_drop at6, Checked.done_bind,
    Checked.get_of_drop at8, Checked.done_bind, Checked.get_of_drop at9,
    Checked.done_bind, copyAddress_of_drop at12 (by omega), Checked.done_bind,
    copyAddress_of_drop at16 (by omega), Checked.done_bind,
    Checked.slice_of_drop at20 (by omega) (by omega), Checked.done_bind]
  rfl

/-! ## UDP and ICMP -/

theorem udpParse_build {capacity : Nat} (source destination : Ipv4Addr)
    (sourcePort destinationPort : UInt16) {payload : List UInt8}
    (fits : ipv4HeaderSize + (udpHeaderSize + payload.length) ≤ ipv4PacketMax)
    (room : udpHeaderSize + payload.length ≤ capacity) :
    ∃ data, udpBuild capacity source destination sourcePort destinationPort payload =
        some data ∧ data.length = udpHeaderSize + payload.length ∧
      udpParse data source destination = .done (⟨sourcePort, destinationPort,
        UInt16.ofNat (udpHeaderSize + payload.length)⟩, payload) := by
  have isHeader : udpHeaderSize = 8 := rfl
  have isIpHeader : ipv4HeaderSize = 20 := rfl
  have isMost : ipv4PacketMax = 65535 := rfl
  unfold udpBuild
  rw [if_neg (by omega), if_neg (by omega)]
  dsimp only
  have isTotal :
      (UInt16.ofNat (udpHeaderSize + payload.length)).toNat = 8 + payload.length := by
    rw [UInt16.toNat_ofNat', isHeader]
    omega
  rw [isHeader] at isTotal ⊢
  generalize UInt16.ofNat (8 + payload.length) = total at isTotal ⊢
  have isBytes : ∀ sum, udpHeaderBytes sourcePort destinationPort total sum ++ payload =
      (be16Write sourcePort ++ be16Write destinationPort ++ be16Write total) ++
        (be16Write sum ++ payload) := by
    intro sum
    simp [udpHeaderBytes]
  simp only [isBytes]
  -- The sum over the pseudo header comes first in both directions.
  rcases standsFor_zero.checksumAdd (by decide) (source.val ++ destination.val ++
    [0, 17] ++ be16Write (UInt16.ofNat (8 + payload.length))) with ⟨stands, small⟩
  change StandsFor (ipv4PseudoSum source destination 17 (8 + payload.length)) _ at stands
  change ipv4PseudoSum source destination 17 (8 + payload.length) < _ at small
  have even : (be16Write sourcePort ++ be16Write destinationPort ++
      be16Write total).length % 2 = 0 := by
    simp only [List.length_append, length_be16Write]
  generalize isSum : checksumFinish (checksumAdd (ipv4PseudoSum source destination 17
    (8 + payload.length)) ((be16Write sourcePort ++ be16Write destinationPort ++
      be16Write total) ++ (be16Write 0 ++ payload))) = sum
  have accepted : checksumFinish (checksumAdd (ipv4PseudoSum source destination 17
      (8 + payload.length)) ((be16Write sourcePort ++ be16Write destinationPort ++
        be16Write total) ++ (be16Write (if sum = 0 then 0xFFFF else sum) ++ payload))) =
      0 := by
    apply checksumFinish_stored stands small even
    · rw [isSum]
      by_cases zero : sum = 0
      · rw [if_pos zero, zero]
        rfl
      · rw [if_neg zero]
    · rw [isSum]
      by_cases zero : sum = 0
      · rw [if_pos zero]
        exact Or.inl (by decide)
      · rw [if_neg zero]
        exact Or.inr rfl
  rw [← isBytes] at accepted
  generalize (if sum = 0 then 0xFFFF else sum) = stored at *
  generalize isData : udpHeaderBytes sourcePort destinationPort total stored ++ payload =
    data at *
  have at0 : data.drop 0 = be16Write sourcePort ++ (be16Write destinationPort ++
      (be16Write total ++ (be16Write stored ++ payload))) := by
    rw [← isData]
    simp [udpHeaderBytes]
  have at2 : data.drop 2 = be16Write destinationPort ++ _ := drop_next at0 rfl
  have at4 : data.drop 4 = be16Write total ++ _ := drop_next at2 rfl
  have at6 : data.drop 6 = be16Write stored ++ payload := drop_next at4 rfl
  have at8 : data.drop 8 = payload ++ [] := by
    rw [List.append_nil]
    exact drop_next at6 rfl
  have isLength : data.length = 8 + payload.length := by
    rw [← isData, List.length_append]
    rfl
  have whole : (Checked.slice data 0 (8 + payload.length) :
      Checked UdpError (List UInt8)) = .done data :=
    Checked.slice_of_drop (List.append_nil data).symm isLength (Nat.zero_le _)
  refine ⟨data, ?_, isLength, ?_⟩
  · rw [← isBytes, isData]
  · rw [udpParse, if_neg (by omega), be16Read_of_drop at4, Checked.done_bind]
    dsimp only
    rw [isTotal, if_neg (by omega), be16Read_of_drop at6, Checked.done_bind, whole,
      Checked.done_bind, accepted, if_neg (by simp), be16Read_of_drop at0,
      Checked.done_bind, be16Read_of_drop at2, Checked.done_bind, isHeader,
      Checked.slice_of_drop at8 (by omega) (by omega), Checked.done_bind]

theorem icmpParse_build {capacity : Nat} (type code : UInt8) (id sequence : UInt16)
    {payload : List UInt8}
    (fits : ipv4HeaderSize + (icmpHeaderSize + payload.length) ≤ ipv4PacketMax)
    (room : icmpHeaderSize + payload.length ≤ capacity) :
    ∃ data, icmpBuild capacity type code id sequence payload = some data ∧
      data.length = icmpHeaderSize + payload.length ∧
      icmpParse data = .done ⟨type, code, id, sequence, payload⟩ := by
  have isHeader : icmpHeaderSize = 8 := rfl
  have isIpHeader : ipv4HeaderSize = 20 := rfl
  have isMost : ipv4PacketMax = 65535 := rfl
  unfold icmpBuild
  rw [if_neg (by omega), if_neg (by omega)]
  dsimp only
  have isBytes : ∀ sum, icmpHeaderBytes type code sum id sequence ++ payload =
      [type, code] ++ (be16Write sum ++ (be16Write id ++ (be16Write sequence ++
        payload))) := by
    intro sum
    simp [icmpHeaderBytes]
  have even : [type, code].length % 2 = 0 := by simp
  have accepted := @checksum_stored [type, code]
    (be16Write id ++ (be16Write sequence ++ payload)) even
  rw [← isBytes, ← isBytes] at accepted
  generalize checksum (icmpHeaderBytes type code 0 id sequence ++ payload) = sum at *
  generalize isData : icmpHeaderBytes type code sum id sequence ++ payload = data at *
  have at0 : data.drop 0 = type :: code :: (be16Write sum ++ (be16Write id ++
      (be16Write sequence ++ payload))) := by
    rw [← isData, isBytes]
    rfl
  have at1 : data.drop 1 = code :: _ := (getElem?_of_drop at0).2
  have at2 : data.drop 2 = be16Write sum ++ _ := (getElem?_of_drop at1).2
  have at4 : data.drop 4 = be16Write id ++ _ := drop_next at2 rfl
  have at6 : data.drop 6 = be16Write sequence ++ payload := drop_next at4 rfl
  have at8 : data.drop 8 = payload ++ [] := by
    rw [List.append_nil]
    exact drop_next at6 rfl
  have isLength : data.length = 8 + payload.length := by
    rw [← isData, List.length_append]
    rfl
  refine ⟨data, rfl, isLength, ?_⟩
  rw [icmpParse, if_neg (by omega), accepted, if_neg (by simp),
    Checked.get_of_drop at0, Checked.done_bind, Checked.get_of_drop at1,
    Checked.done_bind, be16Read_of_drop at4, Checked.done_bind, be16Read_of_drop at6,
    Checked.done_bind, isHeader, Checked.slice_of_drop at8 (by omega) (by omega),
    Checked.done_bind]

/-! ## The whole stack -/

/-- Some data in an IP packet in a frame, read back layer by layer. -/
def Delivered (header : EthernetHeader) (ipHeader : Ipv4Header)
    (data frame : List UInt8) : Prop :=
  ∃ padded parsed, ethernetParse frame = .done (header, padded) ∧
    ipv4PacketParse padded = .done (parsed, data) ∧
    parsed.source = ipHeader.source ∧ parsed.destination = ipHeader.destination ∧
    parsed.protocol = ipHeader.protocol

section Stack

variable {header : EthernetHeader} {ipHeader : Ipv4Header} {data : List UInt8}
variable {packetCapacity frameCapacity : Nat}

theorem delivered_build (notFragment : isFragment ipHeader.flagsFragment = false)
    (fits : ipv4HeaderSize + data.length ≤ ethernetMtu)
    (room : ipv4HeaderSize + data.length ≤ packetCapacity)
    (fitsMin : ethernetFrameMin ≤ frameCapacity)
    (fitsFrame : ethernetHeaderSize + (ipv4HeaderSize + data.length) ≤ frameCapacity) :
    ∃ packet frame, ipv4PacketBuild packetCapacity ipHeader data = some packet ∧
      ethernetBuild frameCapacity header packet = some frame ∧
      Delivered header ipHeader data frame := by
  have isMtu : ethernetMtu = 1500 := rfl
  have isMost : ipv4PacketMax = 65535 := rfl
  have fits' : ipv4HeaderSize + data.length ≤ ipv4PacketMax := by omega
  rcases ipv4PacketParse_build [] fits' room with ⟨packet, built, isLength, _⟩
  rw [← isLength] at fits fitsFrame
  rcases ethernetParse_build fits fitsMin fitsFrame with ⟨frame, padding, framed, parsed⟩
  rcases ipv4PacketParse_build padding fits' room with ⟨packet', built', _, parsed'⟩
  rw [built] at built'
  cases built'
  rw [notFragment] at parsed'
  exact ⟨packet, frame, built, framed, packet ++ padding, _, parsed, parsed', rfl, rfl,
    rfl⟩

end Stack

theorem isFragment_iff (flagsFragment : UInt16) :
    isFragment flagsFragment = true ↔
      flagsFragment &&& 0x2000 ≠ 0 ∨ flagsFragment &&& 0x1FFF ≠ 0 := by
  have apart : flagsFragment &&& (0x2000 ||| 0x1FFF) =
      flagsFragment &&& 0x2000 ||| flagsFragment &&& 0x1FFF := by
    apply UInt16.toNat_inj.mp
    rw [UInt16.toNat_and, UInt16.toNat_or, UInt16.toNat_or, UInt16.toNat_and,
      UInt16.toNat_and, Nat.and_or_distrib_left]
  unfold isFragment
  rw [decide_eq_true_eq, apart, ne_eq, UInt16.or_eq_zero_iff, not_and_or]

/-- What UDP, ICMP and IP build for any addresses, ports and payloads comes back
through all layers. A packet that says it is a fragment is refused. -/
theorem encapsulation_roundTrip :
    (∀ (header : EthernetHeader) (source destination : Ipv4Addr)
      (sourcePort destinationPort : UInt16) (payload : List UInt8)
      (dataCapacity packetCapacity frameCapacity : Nat),
      ipv4HeaderSize + (udpHeaderSize + payload.length) ≤ ethernetMtu →
      udpHeaderSize + payload.length ≤ dataCapacity →
      ipv4HeaderSize + (udpHeaderSize + payload.length) ≤ packetCapacity →
      ethernetFrameMin ≤ frameCapacity →
      ethernetHeaderSize + (ipv4HeaderSize + (udpHeaderSize + payload.length)) ≤
        frameCapacity →
      ∃ data packet frame length,
        udpBuild dataCapacity source destination sourcePort destinationPort payload =
          some data ∧
        ipv4PacketBuild packetCapacity (ipv4HeaderInit source destination 17) data =
          some packet ∧
        ethernetBuild frameCapacity header packet = some frame ∧
        Delivered header (ipv4HeaderInit source destination 17) data frame ∧
        udpParse data source destination =
          .done (⟨sourcePort, destinationPort, length⟩, payload)) ∧
    (∀ (header : EthernetHeader) (source destination : Ipv4Addr)
      (type code : UInt8) (id sequence : UInt16) (payload : List UInt8)
      (dataCapacity packetCapacity frameCapacity : Nat),
      ipv4HeaderSize + (icmpHeaderSize + payload.length) ≤ ethernetMtu →
      icmpHeaderSize + payload.length ≤ dataCapacity →
      ipv4HeaderSize + (icmpHeaderSize + payload.length) ≤ packetCapacity →
      ethernetFrameMin ≤ frameCapacity →
      ethernetHeaderSize + (ipv4HeaderSize + (icmpHeaderSize + payload.length)) ≤
        frameCapacity →
      ∃ data packet frame,
        icmpBuild dataCapacity type code id sequence payload = some data ∧
        ipv4PacketBuild packetCapacity (ipv4HeaderInit source destination 1) data =
          some packet ∧
        ethernetBuild frameCapacity header packet = some frame ∧
        Delivered header (ipv4HeaderInit source destination 1) data frame ∧
        icmpParse data = .done ⟨type, code, id, sequence, payload⟩) ∧
    (∀ (ipHeader : Ipv4Header) (payload padding packet : List UInt8) (capacity : Nat),
      ipHeader.flagsFragment &&& 0x2000 ≠ 0 ∨ ipHeader.flagsFragment &&& 0x1FFF ≠ 0 →
      ipv4PacketBuild capacity ipHeader payload = some packet →
      ipv4PacketParse (packet ++ padding) = .failed .fragment) := by
  have isMtu : ethernetMtu = 1500 := rfl
  have isMost : ipv4PacketMax = 65535 := rfl
  have isHeader : ipv4HeaderSize = 20 := rfl
  have notFragment : ∀ source destination protocol, isFragment
      (ipv4HeaderInit source destination protocol).flagsFragment = false := by
    intro source destination protocol
    change isFragment 0x4000 = false
    decide
  refine ⟨?_, ?_, ?_⟩
  · intro header source destination sourcePort destinationPort payload dataCapacity
      packetCapacity frameCapacity fits room fitsPacket fitsMin fitsFrame
    rcases udpParse_build source destination sourcePort destinationPort (by omega) room
      with ⟨data, built, isLength, parsed⟩
    rw [← isLength] at fits fitsPacket fitsFrame
    rcases delivered_build (notFragment source destination _) fits fitsPacket fitsMin fitsFrame with
      ⟨packet, frame, built', framed, delivered⟩
    exact ⟨data, packet, frame, _, built, built', framed, delivered, parsed⟩
  · intro header source destination type code id sequence payload dataCapacity
      packetCapacity frameCapacity fits room fitsPacket fitsMin fitsFrame
    rcases icmpParse_build type code id sequence (by omega) room with
      ⟨data, built, isLength, parsed⟩
    rw [← isLength] at fits fitsPacket fitsFrame
    rcases delivered_build (notFragment source destination _) fits fitsPacket fitsMin fitsFrame with
      ⟨packet, frame, built', framed, delivered⟩
    exact ⟨data, packet, frame, built, built', framed, delivered, parsed⟩
  · intro ipHeader payload padding packet capacity fragment built
    have fits : ipv4HeaderSize + payload.length ≤ ipv4PacketMax ∧
        ipv4HeaderSize + payload.length ≤ capacity := by
      unfold ipv4PacketBuild at built
      dsimp only at built
      split at built
      · cases built
      · split at built
        · cases built
        · exact ⟨by omega, by omega⟩
    rcases ipv4PacketParse_build padding fits.1 fits.2 with ⟨packet', built', _, parsed⟩
    rw [built] at built'
    cases built'
    rw [parsed, if_pos ((isFragment_iff _).mpr fragment)]

/-- Three bytes from one port to another. -/
theorem encapsulation_roundTrip_datagram :
    let header : EthernetHeader :=
      ⟨⟨[1, 2, 3, 4, 5, 6], rfl⟩, ⟨[7, 8, 9, 10, 11, 12], rfl⟩, 0x0800⟩
    let source : Ipv4Addr := ⟨[10, 0, 2, 15], rfl⟩
    let destination : Ipv4Addr := ⟨[10, 0, 2, 3], rfl⟩
    ∃ data packet frame length,
      udpBuild 520 source destination 49152 53 [97, 98, 99] = some data ∧
      ipv4PacketBuild 540 (ipv4HeaderInit source destination 17) data = some packet ∧
      ethernetBuild 554 header packet = some frame ∧
      Delivered header (ipv4HeaderInit source destination 17) data frame ∧
      udpParse data source destination = .done (⟨49152, 53, length⟩, [97, 98, 99]) :=
  encapsulation_roundTrip.1 _ _ _ 49152 53 [97, 98, 99] 520 540 554 (by decide)
    (by decide) (by decide) (by decide) (by decide)

end Katela.Net
