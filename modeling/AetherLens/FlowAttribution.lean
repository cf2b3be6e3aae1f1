import AetherLens.PacketParsing

/-!
A frame and its reply. Since the parser takes the source of every frame as the
local end, the packets of the two directions name each other's ends. They differ
in direction, as they should, and never agree on the two ends.
-/
namespace AetherLens.FlowAttribution

open AddressText Messages PacketHeaders PacketParsing ProcessMap

/-- The flow of a reply. -/
def replyFlow (flow : Flow) : Flow := ⟨flow.transport, flow.destination, flow.source⟩

/-- The host's own end of a flow. -/
def ownEnd (localIps : Finset IpAddr) (flow : Flow) : Endpoint :=
  if flow.source.addr ∈ localIps then flow.source else flow.destination

/-- A TCP or UDP frame between a local address and a foreign one, and its reply. -/
structure FrameAndReply (reader : HeaderReader) (localIps : Finset IpAddr)
    (frame reply : List UInt8) (flow : Flow) : Prop where
  frame_flow : flowOf reader frame = some flow
  reply_flow : flowOf reader reply = some (replyFlow flow)
  one_local : ¬ (flow.source.addr ∈ localIps ↔ flow.destination.addr ∈ localIps)

/-- Both packets of a flow have one process, the host's own end as local end, one
remote end, and opposite directions. -/
structure AttributedAlike (localIps : Finset IpAddr) (flow : Flow) (p q : CapturedPacket) :
    Prop where
  process_eq : p.process = q.process
  localAddr_own : p.localAddr = (ownEnd localIps flow).text
  localAddr_eq : p.localAddr = q.localAddr
  remoteAddr_eq : p.remoteAddr = q.remoteAddr
  outbound_ne : p.outbound ≠ q.outbound

theorem text_ne_of_addr_ne {e f : Endpoint} (h : e.addr ≠ f.addr) : e.text ≠ f.text := by
  intro htext
  have hends : endpoint e.addr e.port = endpoint f.addr f.port := by
    rw [← String.toList_ofList (l := endpoint e.addr e.port),
      ← String.toList_ofList (l := endpoint f.addr f.port)]
    exact congrArg String.toList htext
  exact h (eq_of_endpoint_eq hends)

section Reply

variable {reader : HeaderReader} {platform : Platform} {localIps : Finset IpAddr}
  {cache : ProcessCache} {now now' : Option ℕ} {frame reply : List UInt8} {flow : Flow}
  {p q : CapturedPacket}

theorem source_ne_destination (h : FrameAndReply reader localIps frame reply flow) :
    flow.source.addr ≠ flow.destination.addr := by
  intro heq
  exact h.one_local (by rw [heq])

/-- The packets of the two directions name each other's ends. -/
theorem reply_mirrors (h : FrameAndReply reader localIps frame reply flow)
    (hp : (parsePacket reader platform localIps cache now frame).1 = some p)
    (hq : (parsePacket reader platform localIps cache now' reply).1 = some q) :
    q.localAddr = p.remoteAddr ∧ q.remoteAddr = p.localAddr ∧ p.outbound ≠ q.outbound := by
  obtain ⟨hlocal, hremote, _, hout⟩ := parsePacket_of_flow h.frame_flow hp
  obtain ⟨hlocal', hremote', _, hout'⟩ := parsePacket_of_flow h.reply_flow hq
  refine ⟨hlocal'.trans hremote.symm, hremote'.trans hlocal.symm, ?_⟩
  rw [hout, hout']
  intro hdirection
  exact h.one_local (decide_eq_decide.mp hdirection)

/-- No frame and reply are attributed alike. -/
theorem reply_not_attributed_alike (h : FrameAndReply reader localIps frame reply flow)
    (hp : (parsePacket reader platform localIps cache now frame).1 = some p)
    (hq : (parsePacket reader platform localIps cache now' reply).1 = some q) :
    ¬ AttributedAlike localIps flow p q := by
  intro halike
  have hmirrors := reply_mirrors h hp hq
  obtain ⟨hlocal, hremote, _, _⟩ := parsePacket_of_flow h.frame_flow hp
  apply text_ne_of_addr_ne (source_ne_destination h)
  calc flow.source.text = p.localAddr := hlocal.symm
    _ = q.localAddr := halike.localAddr_eq
    _ = p.remoteAddr := hmirrors.1
    _ = flow.destination.text := hremote

end Reply

/-- A TCP segment without data, which asks for a connection. -/
def tcpFrame (source destination : Ipv4Addr) (sourcePort destinationPort : List UInt8) :
    List UInt8 :=
  List.replicate 12 0 ++ [0x08, 0x00] ++ [0x45, 0, 0, 40, 0, 0, 0, 0, 64, 6, 0, 0] ++
    source.octets ++ destination.octets ++ sourcePort ++ destinationPort ++ synFields

def hostIp : Ipv4Addr := ⟨192, 168, 1, 10⟩

def webServerIp : Ipv4Addr := ⟨1, 2, 3, 4⟩

/-- From port 50000 of the host to port 443 of the server. -/
def requestFrame : List UInt8 := tcpFrame hostIp webServerIp [0xc3, 0x50] [0x01, 0xbb]

def responseFrame : List UInt8 := tcpFrame webServerIp hostIp [0x01, 0xbb] [0xc3, 0x50]

def requestFlow : Flow := ⟨.tcp, ⟨.v4 hostIp, 50000⟩, ⟨.v4 webServerIp, 443⟩⟩

/-- The process browser.exe owns the host's port, and its name has been asked for. -/
def hostCache : ProcessCache where
  portMap := fun key => if key = (6, 50000) then some 77 else none
  nameCache := fun pid => if pid = 77 then some "browser.exe" else none

def hostPacket (frame : List UInt8) : Option CapturedPacket :=
  (parsePacket rawBytes (.windows fun pid => if pid = 77 then some "browser.exe" else none)
    {.v4 hostIp} hostCache (some 1000) frame).1

def requestPacket : CapturedPacket :=
  ⟨"browser.exe", "192.168.1.10:50000", "1.2.3.4:443", "TCP", 54, 1000, true⟩

def responsePacket : CapturedPacket :=
  ⟨"Unknown", "1.2.3.4:443", "192.168.1.10:50000", "TCP", 54, 1000, false⟩

theorem request_and_response :
    FrameAndReply rawBytes {.v4 hostIp} requestFrame responseFrame requestFlow := by
  constructor <;> decide

theorem hostPacket_request : hostPacket requestFrame = some requestPacket := by decide

theorem hostPacket_response : hostPacket responseFrame = some responsePacket := by decide

/-- The same two frames with the inbound one first. -/
theorem reply_not_attributed_alike_inbound :
    FrameAndReply rawBytes {.v4 hostIp} responseFrame requestFrame (replyFlow requestFlow) ∧
      ¬ AttributedAlike {.v4 hostIp} (replyFlow requestFlow) responsePacket requestPacket := by
  have hframes : FrameAndReply rawBytes {.v4 hostIp} responseFrame requestFrame
      (replyFlow requestFlow) := by
    obtain ⟨hframe, hreply, _⟩ := request_and_response
    exact ⟨hreply, hframe, by decide⟩
  exact ⟨hframes, reply_not_attributed_alike hframes hostPacket_response hostPacket_request⟩

/-- The reply to a browser's request is shown as traffic of an unknown process whose
local end is the server's. -/
theorem response_misattributed :
    FrameAndReply rawBytes {.v4 hostIp} requestFrame responseFrame requestFlow ∧
      hostPacket requestFrame = some requestPacket ∧
      hostPacket responseFrame = some responsePacket ∧
      requestPacket.process ≠ responsePacket.process ∧
      ¬ AttributedAlike {.v4 hostIp} requestFlow requestPacket responsePacket := by
  refine ⟨request_and_response, hostPacket_request, hostPacket_response, by decide, ?_⟩
  intro halike
  have hlocal : requestPacket.localAddr ≠ responsePacket.localAddr := by decide
  exact hlocal halike.localAddr_eq

end AetherLens.FlowAttribution
