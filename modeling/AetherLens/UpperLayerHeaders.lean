import AetherLens.PacketParsing

/-!
Where the internet protocols put the TCP or UDP header of a packet, compared
with where the parser looks for it. The parser looks behind the IP header only:
it takes the data of a later fragment for a header, and does not look behind the
extension headers of version 6.
-/
namespace AetherLens.UpperLayerHeaders

open AddressText Messages PacketHeaders PacketParsing ProcessMap

/-- The reader finds the fields where each header has them. -/
structure ReadsFields (reader : HeaderReader) : Prop where
  ethernet : reader.ethernet = readEthernet
  ipv4 : reader.ipv4 = readIpv4
  ipv6 : reader.ipv6 = readIpv6
  tcp : reader.tcp = readPorts 20
  udp : reader.udp = readPorts 8

theorem readsFields_rawBytes : ReadsFields rawBytes := ⟨rfl, rfl, rfl, rfl, rfl⟩

def protocolOf : Transport → UInt8
  | .tcp => protocolTcp
  | .udp => protocolUdp

/-- The length without options. -/
def headerLength : Transport → ℕ
  | .tcp => 20
  | .udp => 8

structure TransportHeader where
  transport : Transport
  source : UInt16
  destination : UInt16
deriving DecidableEq, Repr

/-- The data of an upper-layer protocol begin with a complete header. -/
structure BeginsWith (header : TransportHeader) (protocol : UInt8) (data : List UInt8) : Prop where
  protocol_eq : protocol = protocolOf header.transport
  complete : headerLength header.transport ≤ data.length
  source_eq : wordAt data 0 = header.source
  destination_eq : wordAt data 2 = header.destination

section Version4

variable (packet : List UInt8)

def ipv4HeaderLength : ℕ := 4 * (byteAt packet 0 &&& 0xf).toNat

def totalLength : ℕ := (wordAt packet 2).toNat

def fragmentOffset : UInt16 := wordAt packet 6 &&& 0x1fff

/-- A packet that may hold an upper-layer header: its own header has at least the
fixed fields, and it is no fragment or the first one. -/
def HoldsHeader : Prop := 20 ≤ ipv4HeaderLength packet ∧ fragmentOffset packet = 0

/-- The upper layer begins behind the options and ends at the total length. -/
structure Ipv4UpperLayer (protocol : UInt8) (data : List UInt8) : Prop where
  holds : HoldsHeader packet
  protocol_eq : protocol = byteAt packet 9
  data_eq : data = (packet.take (totalLength packet)).drop (ipv4HeaderLength packet)

/-- What the reader takes for the payload, whatever the header length. -/
def ipv4Payload : List UInt8 :=
  payloadAt packet (20 + (ipv4HeaderLength packet - 20))
    (totalLength packet - ipv4HeaderLength packet)

theorem ipv4Payload_eq (h : 20 ≤ ipv4HeaderLength packet) :
    ipv4Payload packet = (packet.take (totalLength packet)).drop (ipv4HeaderLength packet) := by
  unfold ipv4Payload payloadAt
  rw [Nat.add_sub_cancel' h, List.drop_take]

end Version4

section Version6

/-- Hop-by-hop options, routing, destination options, mobility, host identity and
shim headers give their length in units of eight bytes, without the first. -/
def optionHeaders : List UInt8 := [0, 43, 60, 135, 139, 140]

def fragmentHeader : UInt8 := 44

def authenticationHeader : UInt8 := 51

def extensionHeaders : List UInt8 := fragmentHeader :: authenticationHeader :: optionHeaders

/-- The length of an extension header that another header follows. Behind the
fragment header there is none but in the first fragment. -/
def extensionLength (header : UInt8) (data : List UInt8) : Option ℕ :=
  if header ∈ optionHeaders then some (8 * ((byteAt data 1).toNat + 1))
  else if header = authenticationHeader then some (4 * ((byteAt data 1).toNat + 2))
  else if header = fragmentHeader ∧ wordAt data 2 &&& 0xfff8 = 0 then some 8
  else none

/-- From a header and the data it begins, the chain of extension headers leads to
the upper-layer protocol and its data. -/
inductive Chain : UInt8 → List UInt8 → UInt8 → List UInt8 → Prop
  | upper {protocol : UInt8} (data : List UInt8) (h : protocol ∉ extensionHeaders) :
      Chain protocol data protocol data
  | extension {header protocol : UInt8} {data rest : List UInt8} (len : ℕ)
      (hlen : extensionLength header data = some len) (hcomplete : len ≤ data.length)
      (hrest : Chain (byteAt data 0) (data.drop len) protocol rest) :
      Chain header data protocol rest

def ipv6Payload (packet : List UInt8) : List UInt8 := payloadAt packet 40 (wordAt packet 4).toNat

def nextHeader (packet : List UInt8) : UInt8 := byteAt packet 6

theorem extensionLength_of_upper {header : UInt8} (data : List UInt8)
    (h : header ∉ extensionHeaders) : extensionLength header data = none := by
  simp only [extensionHeaders, List.mem_cons, not_or] at h
  obtain ⟨hfragment, hauthentication, hoptions⟩ := h
  simp [extensionLength, hfragment, hauthentication, hoptions]

theorem chain_upper_iff {header protocol : UInt8} {data rest : List UInt8}
    (h : header ∉ extensionHeaders) :
    Chain header data protocol rest ↔ protocol = header ∧ rest = data := by
  constructor
  · intro hchain
    cases hchain with
    | upper _ _ => exact ⟨rfl, rfl⟩
    | extension len hlen hcomplete hrest =>
      rw [extensionLength_of_upper data h] at hlen
      cases hlen
  · rintro ⟨rfl, rfl⟩
    exact .upper rest h

end Version6

/-- The TCP or UDP header of a frame, by the standards of both IP versions. -/
def UpperLayerHeader (frame : List UInt8) (header : TransportHeader) : Prop :=
  (wordAt frame 12 = etherTypeIpv4 ∧ ∃ protocol data,
    Ipv4UpperLayer (frame.drop 14) protocol data ∧ BeginsWith header protocol data) ∨
  (wordAt frame 12 = etherTypeIpv6 ∧ ∃ protocol data,
    Chain (nextHeader (frame.drop 14)) (ipv6Payload (frame.drop 14)) protocol data ∧
      BeginsWith header protocol data)

/-- The packet is reported as TCP or UDP with the ports of a header. -/
structure Reports (p : CapturedPacket) (ip : IpHeader) (header : TransportHeader) : Prop where
  protocol_eq : p.protocol = header.transport.label
  localAddr_eq : p.localAddr = String.ofList (endpoint ip.source header.source)
  remoteAddr_eq : p.remoteAddr = String.ofList (endpoint ip.destination header.destination)

section Reported

variable {reader : HeaderReader} {ip : IpHeader} {header : TransportHeader}

def flowWith (ip : IpHeader) (header : TransportHeader) : Flow :=
  ⟨header.transport, ⟨ip.source, header.source⟩, ⟨ip.destination, header.destination⟩⟩

theorem flowWith_injective (ip : IpHeader) : Function.Injective (flowWith ip) := by
  rintro ⟨transport, source, destination⟩ ⟨transport', source', destination'⟩ h
  cases h
  rfl

theorem readPorts_eq_some_iff {minimumSize : ℕ} {data : List UInt8} {ports : TransportPacket} :
    readPorts minimumSize data = some ports ↔
      minimumSize ≤ data.length ∧ wordAt data 0 = ports.source ∧
        wordAt data 2 = ports.destination := by
  obtain ⟨source, destination⟩ := ports
  simp [readPorts]

/-- The code finds a flow exactly where the payload begins with a header. -/
theorem flow_eq_flowWith_iff (h : ReadsFields reader) :
    ip.flow reader = some (flowWith ip header) ↔ BeginsWith header ip.protocol ip.payload := by
  obtain ⟨transport, source, destination⟩ := header
  have hne : protocolUdp ≠ protocolTcp := by decide
  unfold IpHeader.flow
  rw [h.tcp, h.udp]
  constructor
  · intro hflow
    split at hflow
    next htcp =>
      obtain ⟨ports, hports, heq⟩ := Option.map_eq_some_iff.mp hflow
      cases heq
      obtain ⟨hlen, hsource, hdestination⟩ := readPorts_eq_some_iff.mp hports
      exact ⟨htcp, hlen, hsource, hdestination⟩
    next =>
      obtain ⟨hudp, hread⟩ := Option.ite_none_right_eq_some.mp hflow
      obtain ⟨ports, hports, heq⟩ := Option.map_eq_some_iff.mp hread
      cases heq
      obtain ⟨hlen, hsource, hdestination⟩ := readPorts_eq_some_iff.mp hports
      exact ⟨hudp, hlen, hsource, hdestination⟩
  · rintro ⟨hprotocol, hlen, hsource, hdestination⟩
    cases transport with
    | tcp =>
      have hports : readPorts 20 ip.payload = some ⟨source, destination⟩ :=
        readPorts_eq_some_iff.mpr ⟨hlen, hsource, hdestination⟩
      change ip.protocol = protocolTcp at hprotocol
      rw [if_pos hprotocol, hports]
      rfl
    | udp =>
      have hports : readPorts 8 ip.payload = some ⟨source, destination⟩ :=
        readPorts_eq_some_iff.mpr ⟨hlen, hsource, hdestination⟩
      change ip.protocol = protocolUdp at hprotocol
      rw [hprotocol, if_neg hne, if_pos rfl, hports]
      rfl

theorem exists_flowWith {flow : Flow} (h : ip.flow reader = some flow) :
    ∃ header, flow = flowWith ip header := by
  unfold IpHeader.flow at h
  split at h
  · obtain ⟨ports, -, rfl⟩ := Option.map_eq_some_iff.mp h
    exact ⟨⟨.tcp, ports.source, ports.destination⟩, rfl⟩
  · obtain ⟨-, hread⟩ := Option.ite_none_right_eq_some.mp h
    obtain ⟨ports, -, rfl⟩ := Option.map_eq_some_iff.mp hread
    exact ⟨⟨.udp, ports.source, ports.destination⟩, rfl⟩

theorem label_injective : Function.Injective Transport.label := by
  intro a b h
  cases a <;> cases b <;> first | rfl | exact absurd h (by decide)

theorem endpoint_injective (addr : IpAddr) : Function.Injective (endpoint addr) := by
  intro p q h
  have hport := parseU16_lastPart_endpoint addr p
  rw [h, parseU16_lastPart_endpoint addr q] at hport
  exact (UInt16.toNat_inj.mp (Option.some.inj hport)).symm

theorem display_ne_endpoint (addr : IpAddr) (port : UInt16) :
    addr.display ≠ endpoint addr port := by
  intro h
  have hlen := congrArg List.length h
  cases addr with
  | v4 addr => simp [IpAddr.display, endpoint] at hlen
  | v6 addr =>
    simp only [IpAddr.display, endpoint, List.length_cons, List.length_append] at hlen
    omega

/-- A packet built from an IP header reports the header that its payload begins
with, and no other one. -/
theorem reports_iff (h : ReadsFields reader) {p : CapturedPacket}
    (hprotocol : p.protocol = (ip.details reader).protocol)
    (hlocal : p.localAddr = (ip.details reader).localAddr)
    (hremote : p.remoteAddr = (ip.details reader).remoteAddr) :
    Reports p ip header ↔ BeginsWith header ip.protocol ip.payload := by
  rw [← flow_eq_flowWith_iff h]
  cases hflow : ip.flow reader with
  | none =>
    refine iff_of_false (fun hreports => ?_) (fun hsome => by cases hsome)
    rw [IpHeader.details_of_no_flow reader hflow] at hlocal
    have htext := String.ofList_inj.mp (hlocal.symm.trans hreports.localAddr_eq)
    exact display_ne_endpoint ip.source header.source htext
  | some flow =>
    obtain ⟨read, rfl⟩ := exists_flowWith hflow
    rw [IpHeader.details_of_flow reader hflow] at hprotocol hlocal hremote
    constructor
    · intro hreports
      have htransport : read.transport = header.transport :=
        label_injective (hprotocol.symm.trans hreports.protocol_eq)
      have hsource : read.source = header.source := endpoint_injective ip.source
        (String.ofList_inj.mp (hlocal.symm.trans hreports.localAddr_eq))
      have hdestination : read.destination = header.destination := endpoint_injective ip.destination
        (String.ofList_inj.mp (hremote.symm.trans hreports.remoteAddr_eq))
      rw [flowWith, htransport, hsource, hdestination]
      rfl
    · intro heq
      obtain rfl := flowWith_injective ip (Option.some.inj heq)
      exact ⟨hprotocol, hlocal, hremote⟩

end Reported

section Frames

variable {reader : HeaderReader} {platform : Platform} {localIps : Finset IpAddr}
  {cache : ProcessCache} {now : Option ℕ} {frame : List UInt8} {ip : IpHeader} {p : CapturedPacket}

/-- The protocol and the payload that the parser takes from an IP header. -/
theorem ipHeader_cases (h : ReadsFields reader) (hip : ipHeader reader frame = some ip) :
    (wordAt frame 12 = etherTypeIpv4 ∧ ip.protocol = byteAt (frame.drop 14) 9 ∧
      ip.payload = ipv4Payload (frame.drop 14)) ∨
    (wordAt frame 12 = etherTypeIpv6 ∧ ip.protocol = nextHeader (frame.drop 14) ∧
      ip.payload = ipv6Payload (frame.drop 14)) := by
  unfold ipHeader at hip
  rw [h.ethernet, h.ipv4, h.ipv6] at hip
  obtain ⟨ethernet, hethernet, hread⟩ := Option.bind_eq_some_iff.mp hip
  obtain ⟨-, hethernet⟩ := Option.ite_none_left_eq_some.mp hethernet
  cases hethernet
  dsimp only at hread
  split at hread
  next h4 =>
    obtain ⟨ipv4, hipv4, rfl⟩ := Option.map_eq_some_iff.mp hread
    obtain ⟨-, hfields⟩ := Option.ite_none_left_eq_some.mp hipv4
    cases hfields
    exact Or.inl ⟨h4, rfl, rfl⟩
  next =>
    obtain ⟨h6, hread⟩ := Option.ite_none_right_eq_some.mp hread
    obtain ⟨ipv6, hipv6, rfl⟩ := Option.map_eq_some_iff.mp hread
    obtain ⟨-, hfields⟩ := Option.ite_none_left_eq_some.mp hipv6
    cases hfields
    exact Or.inr ⟨h6, rfl, rfl⟩

/-- What the packet reports is what the standards find, for every header. -/
def ReportsUpperLayer (reader : HeaderReader) (frame : List UInt8) (p : CapturedPacket) : Prop :=
  ∀ ip, ipHeader reader frame = some ip →
    ∀ header, Reports p ip header ↔ UpperLayerHeader frame header

/-- It is enough to look right behind the IP header. In version 4 the bytes there are
not taken for a header where there can be none, and in version 6 no complete TCP or
UDP header follows extension headers. -/
structure DecidedBehindIp (frame : List UInt8) : Prop where
  ipv4 : wordAt frame 12 = etherTypeIpv4 → ¬ HoldsHeader (frame.drop 14) →
    ∀ header, ¬ BeginsWith header (byteAt (frame.drop 14) 9) (ipv4Payload (frame.drop 14))
  ipv6 : wordAt frame 12 = etherTypeIpv6 → nextHeader (frame.drop 14) ∈ extensionHeaders →
    ∀ header protocol data,
      Chain (nextHeader (frame.drop 14)) (ipv6Payload (frame.drop 14)) protocol data →
        ¬ BeginsWith header protocol data

theorem not_beginsWith_extension {header : TransportHeader} {protocol : UInt8}
    {data : List UInt8} (h : protocol ∈ extensionHeaders) : ¬ BeginsWith header protocol data := by
  intro hbegins
  rw [hbegins.protocol_eq] at h
  revert h
  cases header.transport <;> decide

theorem not_ipv6_of_ipv4 (h4 : wordAt frame 12 = etherTypeIpv4) :
    wordAt frame 12 ≠ etherTypeIpv6 := by
  rw [h4]
  decide

theorem upperLayerHeader_ipv4 {header : TransportHeader} (h4 : wordAt frame 12 = etherTypeIpv4) :
    UpperLayerHeader frame header ↔ HoldsHeader (frame.drop 14) ∧
      BeginsWith header (byteAt (frame.drop 14) 9) (ipv4Payload (frame.drop 14)) := by
  constructor
  · rintro (⟨-, protocol, data, ⟨hholds, rfl, rfl⟩, hbegins⟩ | ⟨h6, -⟩)
    · refine ⟨hholds, ?_⟩
      rw [ipv4Payload_eq _ hholds.1]
      exact hbegins
    · exact absurd h6 (not_ipv6_of_ipv4 h4)
  · rintro ⟨hholds, hbegins⟩
    rw [ipv4Payload_eq _ hholds.1] at hbegins
    exact Or.inl ⟨h4, _, _, ⟨hholds, rfl, rfl⟩, hbegins⟩

theorem upperLayerHeader_ipv6 {header : TransportHeader} (h6 : wordAt frame 12 = etherTypeIpv6) :
    UpperLayerHeader frame header ↔ ∃ protocol data,
      Chain (nextHeader (frame.drop 14)) (ipv6Payload (frame.drop 14)) protocol data ∧
        BeginsWith header protocol data := by
  constructor
  · rintro (⟨h4, -⟩ | ⟨-, h⟩)
    · exact absurd h6 (not_ipv6_of_ipv4 h4)
    · exact h
  · intro h
    exact Or.inr ⟨h6, h⟩

theorem decidedBehindIp_ipv4 (h4 : wordAt frame 12 = etherTypeIpv4) :
    (∀ header, BeginsWith header (byteAt (frame.drop 14) 9) (ipv4Payload (frame.drop 14)) ↔
      UpperLayerHeader frame header) ↔ DecidedBehindIp frame := by
  simp only [upperLayerHeader_ipv4 h4]
  constructor
  · intro heq
    refine ⟨fun _ hnot header hbegins => ?_, fun h6 => absurd h6 (not_ipv6_of_ipv4 h4)⟩
    exact hnot ((heq header).mp hbegins).1
  · intro hdecided header
    constructor
    · intro hbegins
      refine ⟨?_, hbegins⟩
      by_contra hnot
      exact hdecided.ipv4 h4 hnot header hbegins
    · exact And.right

theorem decidedBehindIp_ipv6 (h6 : wordAt frame 12 = etherTypeIpv6) :
    (∀ header, BeginsWith header (nextHeader (frame.drop 14)) (ipv6Payload (frame.drop 14)) ↔
      UpperLayerHeader frame header) ↔ DecidedBehindIp frame := by
  simp only [upperLayerHeader_ipv6 h6]
  constructor
  · intro heq
    refine ⟨fun h4 => absurd h6 (not_ipv6_of_ipv4 h4), ?_⟩
    intro _ hext header protocol data hchain hbegins
    exact not_beginsWith_extension hext ((heq header).mpr ⟨protocol, data, hchain, hbegins⟩)
  · intro hdecided header
    by_cases hext : nextHeader (frame.drop 14) ∈ extensionHeaders
    · refine iff_of_false (not_beginsWith_extension hext) ?_
      rintro ⟨protocol, data, hchain, hbegins⟩
      exact hdecided.ipv6 h6 hext header protocol data hchain hbegins
    · constructor
      · intro hbegins
        exact ⟨_, _, .upper _ hext, hbegins⟩
      · rintro ⟨protocol, data, hchain, hbegins⟩
        obtain ⟨rfl, rfl⟩ := (chain_upper_iff hext).mp hchain
        exact hbegins

/-- A packet is reported with the ports of its upper-layer header, and with none where
there is no such header, exactly when it is enough to look right behind the IP header. -/
theorem reportsUpperLayer_iff (h : ReadsFields reader)
    (hp : (parsePacket reader platform localIps cache now frame).1 = some p) :
    ReportsUpperLayer reader frame p ↔ DecidedBehindIp frame := by
  rw [parsePacket_eq] at hp
  obtain ⟨ip, hip, hpacket⟩ := Option.bind_eq_some_iff.mp hp
  obtain ⟨ts, -, hbuilt⟩ := Option.map_eq_some_iff.mp hpacket
  have hreports : ∀ header, Reports p ip header ↔ BeginsWith header ip.protocol ip.payload := by
    subst hbuilt
    exact fun header => reports_iff h rfl rfl rfl
  have hheaders : ReportsUpperLayer reader frame p ↔
      ∀ header, BeginsWith header ip.protocol ip.payload ↔ UpperLayerHeader frame header := by
    simp only [ReportsUpperLayer, hip, Option.some.injEq, forall_eq', hreports]
  rw [hheaders]
  rcases ipHeader_cases h hip with ⟨h4, hprotocol, hpayload⟩ | ⟨h6, hprotocol, hpayload⟩
  · rw [hprotocol, hpayload]
    exact decidedBehindIp_ipv4 h4
  · rw [hprotocol, hpayload]
    exact decidedBehindIp_ipv6 h6

end Frames

/-- Twenty bytes for TCP from 192.168.1.10 to 1.2.3.4 at an offset, in units of eight
bytes. As a header they have the ports 50000 and 23. -/
def tcpFragment (offset : UInt8) : List UInt8 :=
  List.replicate 12 0 ++ [0x08, 0x00] ++ [0x45, 0, 0, 40, 0, 0, 0, offset, 64, 6, 0, 0] ++
    [192, 168, 1, 10] ++ [1, 2, 3, 4] ++ [0xc3, 0x50, 0, 23] ++ synFields

/-- A Telnet segment from fe80::1 to fe80::2 behind hop-by-hop options. -/
def telnetBehindOptions : List UInt8 :=
  List.replicate 12 0 ++ [0x86, 0xdd] ++ [0x60, 0, 0, 0, 0, 28, 0, 64] ++
    [0xfe, 0x80, 0, 0, 0, 0, 0, 0, 0, 0, 0, 0, 0, 0, 0, 1] ++
      [0xfe, 0x80, 0, 0, 0, 0, 0, 0, 0, 0, 0, 0, 0, 0, 0, 2] ++
        [6, 0, 1, 4, 0, 0, 0, 0] ++ [0xc3, 0x50, 0, 23] ++ synFields

def telnetHeader : TransportHeader := ⟨.tcp, 50000, 23⟩

def parsed (frame : List UInt8) : Option CapturedPacket :=
  (parsePacket rawBytes .other ∅ .new (some 1000) frame).1

theorem reportsUpperLayer_iff_whole : ∃ p, parsed (tcpFragment 0) = some p ∧
    p.remoteAddr = "1.2.3.4:23" ∧ ReportsUpperLayer rawBytes (tcpFragment 0) p := by
  have hp : parsed (tcpFragment 0) =
      some ⟨"system", "192.168.1.10:50000", "1.2.3.4:23", "TCP", 54, 1000, false⟩ := by decide
  refine ⟨_, hp, rfl, (reportsUpperLayer_iff readsFields_rawBytes hp).mpr ⟨?_, ?_⟩⟩
  · intro _ hnot
    exact absurd ⟨by decide, by decide⟩ hnot
  · intro h6
    exact absurd h6 (by decide)

/-- Data of a later fragment are reported as a header, and a header behind
extension headers is not reported. -/
theorem headers_misread :
    (∃ p, parsed (tcpFragment 185) = some p ∧ p.remoteAddr = "1.2.3.4:23" ∧
      ¬ ReportsUpperLayer rawBytes (tcpFragment 185) p) ∧
    (∃ p, parsed telnetBehindOptions = some p ∧ p.protocol = "IPV6" ∧ p.remoteAddr = "fe80::2" ∧
      UpperLayerHeader telnetBehindOptions telnetHeader ∧
      ¬ ReportsUpperLayer rawBytes telnetBehindOptions p) := by
  have hfragment : parsed (tcpFragment 185) =
      some ⟨"system", "192.168.1.10:50000", "1.2.3.4:23", "TCP", 54, 1000, false⟩ := by decide
  have hoptions : parsed telnetBehindOptions =
      some ⟨"system", "fe80::1", "fe80::2", "IPV6", 82, 1000, false⟩ := by decide
  have hheader : UpperLayerHeader telnetBehindOptions telnetHeader :=
    (upperLayerHeader_ipv6 (by decide)).mpr
      ⟨6, _, .extension 8 (by decide) (by decide) (.upper _ (by decide)),
        ⟨rfl, by decide, by decide, by decide⟩⟩
  refine ⟨⟨_, hfragment, rfl, fun h => ?_⟩, _, hoptions, rfl, rfl, hheader, fun h => ?_⟩
  · have hreports := (h _ rfl telnetHeader).mp ⟨rfl, by decide, by decide⟩
    have hholds := ((upperLayerHeader_ipv4 (by decide)).mp hreports).1
    have hoffset := hholds.2
    revert hoffset
    decide
  · have hreports := (h _ rfl telnetHeader).mpr hheader
    have hprotocol := hreports.protocol_eq
    revert hprotocol
    decide

end AetherLens.UpperLayerHeaders
