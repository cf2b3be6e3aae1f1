import AetherLens.Messages
import AetherLens.PacketHeaders
import AetherLens.ProcessMap
import Mathlib.Data.Finset.Basic

/-!
A frame is turned into a captured packet: the IP header gives the addresses,
the transport header the ports, and the cache the process. The packet's local
end is always the frame's source. What the parser returns is then stated in
terms of the headers alone, for both IP versions at once.
-/
namespace AetherLens.PacketParsing

open AddressText Messages NumberText PacketHeaders ProcessMap

structure TransportDetails where
  protocol : String
  localAddr : String
  remoteAddr : String
  localPort : Option UInt16
deriving DecidableEq, Repr

def withPorts (write : IpAddr → UInt16 → List Char) (protocol : String)
    (localIp remoteIp : IpAddr) (header : TransportPacket) : TransportDetails where
  protocol := protocol
  localAddr := String.ofList (write localIp header.source)
  remoteAddr := String.ofList (write remoteIp header.destination)
  localPort := some header.source

def withoutPorts (protocol : String) (localIp remoteIp : IpAddr) : TransportDetails where
  protocol := protocol
  localAddr := String.ofList localIp.display
  remoteAddr := String.ofList remoteIp.display
  localPort := none

/-- The two IP versions differ in how they write an endpoint and in what they
call any other protocol. -/
def transportDetails (reader : HeaderReader) (write : IpAddr → UInt16 → List Char)
    (otherProtocol : String) (protocol : UInt8) (payload : List UInt8)
    (localIp remoteIp : IpAddr) : TransportDetails :=
  if protocol = protocolTcp then
    match reader.tcp payload with
    | some tcp => withPorts write "TCP" localIp remoteIp tcp
    | none => withoutPorts "TCP" localIp remoteIp
  else if protocol = protocolUdp then
    match reader.udp payload with
    | some udp => withPorts write "UDP" localIp remoteIp udp
    | none => withoutPorts "UDP" localIp remoteIp
  else withoutPorts otherProtocol localIp remoteIp

def plainEndpoint (addr : IpAddr) (port : UInt16) : List Char :=
  addr.display ++ ':' :: decimal port.toNat

def bracketedEndpoint (addr : IpAddr) (port : UInt16) : List Char :=
  '[' :: (addr.display ++ ']' :: ':' :: decimal port.toNat)

def transportDetailsV4 (reader : HeaderReader) (ip : Ipv4Packet) (localIp remoteIp : IpAddr) :
    TransportDetails :=
  transportDetails reader plainEndpoint "IP" ip.nextLevelProtocol ip.payload localIp remoteIp

def transportDetailsV6 (reader : HeaderReader) (ip : Ipv6Packet) (localIp remoteIp : IpAddr) :
    TransportDetails :=
  transportDetails reader bracketedEndpoint "IPV6" ip.nextHeader ip.payload localIp remoteIp

def protocolNumber (protocol : String) : UInt8 :=
  if protocol = "TCP" then 6 else if protocol = "UDP" then 17 else 0

/-- The label of a packet whose process is not found. -/
def defaultLabel (platform : Platform) (localPort : Option UInt16) : String :=
  match platform, localPort with
  | .windows _, some _ => "Unknown"
  | .windows _, none => "System"
  | .other, _ => "system"

def resolveProcessLabel (platform : Platform) (protocol : String) (localPort : Option UInt16)
    (cache : ProcessCache) : String × ProcessCache :=
  match localPort with
  | none => (defaultLabel platform localPort, cache)
  | some port =>
    if 0 < protocolNumber protocol then
      match cache.getProcessName platform (protocolNumber protocol) port with
      | (some name, cache) => (name, cache)
      | (none, cache) => (defaultLabel platform localPort, cache)
    else (defaultLabel platform localPort, cache)

section Parser

variable (reader : HeaderReader) (platform : Platform) (localIps : Finset IpAddr)
  (cache : ProcessCache)

/-- Both IP versions build the packet from the details in the same way. -/
def buildPacket (frame : List UInt8) (ts : ℕ) (localIp : IpAddr)
    (details : TransportDetails) : CapturedPacket × ProcessCache :=
  let label := resolveProcessLabel platform details.protocol details.localPort cache
  ({ process := label.1
     localAddr := details.localAddr
     remoteAddr := details.remoteAddr
     protocol := details.protocol
     bytes := UInt64.ofNat frame.length
     timestamp := UInt64.ofNat ts
     outbound := decide (localIp ∈ localIps) }, label.2)

/-- The packet of a frame and the cache after its lookup. The clock gives
nothing when it stands before the epoch. -/
def parsePacket (now : Option ℕ) (frame : List UInt8) : Option CapturedPacket × ProcessCache :=
  match reader.ethernet frame, now with
  | some ethernet, some ts =>
    if ethernet.etherType = etherTypeIpv4 then
      match reader.ipv4 ethernet.payload with
      | none => (none, cache)
      | some ipv4 =>
        let details := transportDetailsV4 reader ipv4 (.v4 ipv4.source) (.v4 ipv4.destination)
        let built := buildPacket platform localIps cache frame ts (.v4 ipv4.source) details
        (some built.1, built.2)
    else if ethernet.etherType = etherTypeIpv6 then
      match reader.ipv6 ethernet.payload with
      | none => (none, cache)
      | some ipv6 =>
        let details := transportDetailsV6 reader ipv6 (.v6 ipv6.source) (.v6 ipv6.destination)
        let built := buildPacket platform localIps cache frame ts (.v6 ipv6.source) details
        (some built.1, built.2)
    else (none, cache)
  | _, _ => (none, cache)

end Parser

/-- What the parser uses of an IP header of either version. -/
structure IpHeader where
  source : IpAddr
  destination : IpAddr
  protocol : UInt8
  payload : List UInt8
deriving DecidableEq, Repr

inductive Transport
  | tcp
  | udp
deriving DecidableEq, Repr

def Transport.label : Transport → String
  | .tcp => "TCP"
  | .udp => "UDP"

structure Endpoint where
  addr : IpAddr
  port : UInt16
deriving DecidableEq, Repr

def Endpoint.text (e : Endpoint) : String := String.ofList (endpoint e.addr e.port)

/-- The two ends of a TCP or UDP frame. -/
structure Flow where
  transport : Transport
  source : Endpoint
  destination : Endpoint
deriving DecidableEq, Repr

section Headers

variable (reader : HeaderReader)

def ipHeader (frame : List UInt8) : Option IpHeader :=
  (reader.ethernet frame).bind fun ethernet =>
    if ethernet.etherType = etherTypeIpv4 then
      (reader.ipv4 ethernet.payload).map fun ip =>
        ⟨.v4 ip.source, .v4 ip.destination, ip.nextLevelProtocol, ip.payload⟩
    else if ethernet.etherType = etherTypeIpv6 then
      (reader.ipv6 ethernet.payload).map fun ip =>
        ⟨.v6 ip.source, .v6 ip.destination, ip.nextHeader, ip.payload⟩
    else none

/-- The flow of an IP payload that parses as the TCP or UDP header its protocol announces. -/
def IpHeader.flow (ip : IpHeader) : Option Flow :=
  if ip.protocol = protocolTcp then
    (reader.tcp ip.payload).map fun tcp =>
      ⟨.tcp, ⟨ip.source, tcp.source⟩, ⟨ip.destination, tcp.destination⟩⟩
  else if ip.protocol = protocolUdp then
    (reader.udp ip.payload).map fun udp =>
      ⟨.udp, ⟨ip.source, udp.source⟩, ⟨ip.destination, udp.destination⟩⟩
  else none

def flowOf (frame : List UInt8) : Option Flow := (ipHeader reader frame).bind (·.flow reader)

/-- The protocol text of a packet without ports. -/
def IpHeader.portlessProtocol (ip : IpHeader) : String :=
  if ip.protocol = protocolTcp then "TCP"
  else if ip.protocol = protocolUdp then "UDP"
  else match ip.source with
    | .v4 _ => "IP"
    | .v6 _ => "IPV6"

/-- The details of a packet by its headers. -/
def IpHeader.details (ip : IpHeader) : TransportDetails :=
  match ip.flow reader with
  | some flow => ⟨flow.transport.label, flow.source.text, flow.destination.text,
      some flow.source.port⟩
  | none => withoutPorts ip.portlessProtocol ip.source ip.destination

/-- Both functions write the endpoints and the other protocol as their IP version does. -/
theorem transportDetails_eq (write : IpAddr → UInt16 → List Char) (ip : IpHeader)
    (hsource : write ip.source = endpoint ip.source)
    (hdestination : write ip.destination = endpoint ip.destination) :
    transportDetails reader write (match ip.source with | .v4 _ => "IP" | .v6 _ => "IPV6")
      ip.protocol ip.payload ip.source ip.destination = ip.details reader := by
  unfold transportDetails IpHeader.details IpHeader.flow IpHeader.portlessProtocol withPorts
  rw [hsource, hdestination]
  by_cases htcp : ip.protocol = protocolTcp
  · cases reader.tcp ip.payload <;> simp [htcp, Transport.label, Endpoint.text]
  · by_cases hudp : ip.protocol = protocolUdp
    · have hne : protocolUdp ≠ protocolTcp := by decide
      cases reader.udp ip.payload <;> simp [hudp, hne, Transport.label, Endpoint.text]
    · simp [htcp, hudp]

/-- The parser returns a packet for every frame with an IP header. -/
theorem parsePacket_eq (platform : Platform) (localIps : Finset IpAddr) (cache : ProcessCache)
    (now : Option ℕ) (frame : List UInt8) :
    (parsePacket reader platform localIps cache now frame).1 =
      (ipHeader reader frame).bind fun ip => now.map fun ts =>
        (buildPacket platform localIps cache frame ts ip.source (ip.details reader)).1 := by
  unfold parsePacket ipHeader
  cases reader.ethernet frame with
  | none => rfl
  | some ethernet =>
    cases now with
    | none => simp
    | some ts =>
      by_cases h4 : ethernet.etherType = etherTypeIpv4
      · cases hip : reader.ipv4 ethernet.payload with
        | none => simp [h4, hip]
        | some ip =>
          have hdetails := transportDetails_eq reader plainEndpoint
            ⟨.v4 ip.source, .v4 ip.destination, ip.nextLevelProtocol, ip.payload⟩ rfl rfl
          simp [h4, hip, transportDetailsV4, ← hdetails]
      · by_cases h6 : ethernet.etherType = etherTypeIpv6
        · have hne : etherTypeIpv6 ≠ etherTypeIpv4 := by decide
          cases hip : reader.ipv6 ethernet.payload with
          | none => simp [h6, hne, hip]
          | some ip =>
            have hdetails := transportDetails_eq reader bracketedEndpoint
              ⟨.v6 ip.source, .v6 ip.destination, ip.nextHeader, ip.payload⟩ rfl rfl
            simp [h6, hne, hip, transportDetailsV6, ← hdetails]
        · simp [h4, h6]

theorem IpHeader.details_of_flow {ip : IpHeader} {flow : Flow} (h : ip.flow reader = some flow) :
    ip.details reader = ⟨flow.transport.label, flow.source.text, flow.destination.text,
      some flow.source.port⟩ := by
  simp only [details, h]

theorem IpHeader.details_of_no_flow {ip : IpHeader} (h : ip.flow reader = none) :
    ip.details reader = withoutPorts ip.portlessProtocol ip.source ip.destination := by
  simp only [details, h]

theorem IpHeader.source_of_flow {ip : IpHeader} {flow : Flow} (h : ip.flow reader = some flow) :
    ip.source = flow.source.addr := by
  unfold IpHeader.flow at h
  split at h
  · obtain ⟨tcp, _, rfl⟩ := Option.map_eq_some_iff.mp h
    rfl
  · split at h
    · obtain ⟨udp, _, rfl⟩ := Option.map_eq_some_iff.mp h
      rfl
    · cases h

end Headers

section Parsed

variable {reader : HeaderReader} {platform : Platform} {localIps : Finset IpAddr}
  {cache : ProcessCache} {now : Option ℕ} {frame : List UInt8} {flow : Flow} {p : CapturedPacket}

/-- The ends of a flow's packet are the source and the destination of its frame. -/
theorem parsePacket_of_flow (hflow : flowOf reader frame = some flow)
    (hp : (parsePacket reader platform localIps cache now frame).1 = some p) :
    p.localAddr = flow.source.text ∧ p.remoteAddr = flow.destination.text ∧
      p.process = (resolveProcessLabel platform flow.transport.label (some flow.source.port)
        cache).1 ∧
      p.outbound = decide (flow.source.addr ∈ localIps) := by
  rw [parsePacket_eq] at hp
  obtain ⟨ip, hip, hpacket⟩ := Option.bind_eq_some_iff.mp hp
  obtain ⟨ts, _, rfl⟩ := Option.map_eq_some_iff.mp hpacket
  rw [flowOf, hip, Option.bind_some] at hflow
  rw [IpHeader.details_of_flow reader hflow, IpHeader.source_of_flow reader hflow]
  exact ⟨rfl, rfl, rfl, rfl⟩

end Parsed

end AetherLens.PacketParsing
