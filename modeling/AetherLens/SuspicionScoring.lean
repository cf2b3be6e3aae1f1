import AetherLens.PacketParsing

/-!
The alert rule reads the port back out of the remote text of a packet. An alert
is justified when the frame carries a TCP or UDP header with the port that the
alert names. Texts without a port give unjustified alerts for those IPv6
addresses whose last segment reads like one of the four ports.
-/
namespace AetherLens.SuspicionScoring

open AddressText Messages NumberText PacketHeaders PacketParsing ProcessMap SegmentText

/-- The port the rule sees: what follows the last colon, or zero. -/
def remotePort (remoteAddr : String) : ℕ :=
  (parseU16 (lastPart ':' remoteAddr.toList)).getD 0

def portRule (port : ℕ) : Option (String × ℚ) :=
  match port with
  | 23 => some ("Outbound Telnet attempt", 0.96)
  | 445 => some ("Outbound SMB connection", 0.92)
  | 3389 => some ("Outbound RDP session", 0.85)
  | 6667 => some ("Outbound IRC channel", 0.88)
  | _ => none

def scoreSuspicious (packet : CapturedPacket) : Option SuspiciousConnection :=
  if !packet.outbound then none
  else (portRule (remotePort packet.remoteAddr)).map fun rule =>
    { process := packet.process
      remoteAddr := packet.remoteAddr
      reason := rule.1
      score := rule.2
      timestamp := packet.timestamp }

def suspiciousPorts : List ℕ := [23, 445, 3389, 6667]

/-- The reason and the score of each port. -/
def suspiciousRules : List (ℕ × String × ℚ) :=
  [(23, "Outbound Telnet attempt", 0.96), (445, "Outbound SMB connection", 0.92),
    (3389, "Outbound RDP session", 0.85), (6667, "Outbound IRC channel", 0.88)]

theorem portRule_isSome_iff (port : ℕ) : (portRule port).isSome ↔ port ∈ suspiciousPorts := by
  unfold portRule suspiciousPorts
  split <;> simp_all

theorem mem_suspiciousRules_of_portRule {port : ℕ} {reason : String} {score : ℚ}
    (h : portRule port = some (reason, score)) : (port, reason, score) ∈ suspiciousRules := by
  unfold portRule at h
  split at h
  case h_5 => cases h
  all_goals
    cases h
    simp [suspiciousRules]

/-- The port of a header is read back. -/
theorem remotePort_text (e : Endpoint) : remotePort e.text = e.port.toNat := by
  unfold remotePort Endpoint.text
  rw [String.toList_ofList, parseU16_lastPart_endpoint, Option.getD_some]

/-- The segments that read like one of the four ports. -/
def lookalikeSegments : List UInt16 := [0x23, 0x445, 0x3389, 0x6667]

theorem hexSegment_port_iff (segment : UInt16) :
    (parseU16 (hexSegment segment)).getD 0 ∈ suspiciousPorts ↔ segment ∈ lookalikeSegments := by
  constructor
  · intro h
    cases hparse : parseU16 (hexSegment segment) with
    | none =>
      rw [hparse] at h
      simp [suspiciousPorts] at h
    | some port =>
      rw [hparse, Option.getD_some] at h
      have hdigits : hex segment.toNat = decimal port := parseU16_hex hparse
      have hsegment : ∀ n, decimal port = hex n → segment.toNat = n :=
        fun n hn => hex_injective (hdigits.trans hn)
      simp only [suspiciousPorts, List.mem_cons, List.not_mem_nil, or_false] at h
      simp only [lookalikeSegments, List.mem_cons, List.not_mem_nil, or_false,
        ← UInt16.toNat_inj]
      rcases h with rfl | rfl | rfl | rfl
      · exact Or.inl (hsegment 0x23 (by decide))
      · exact Or.inr (Or.inl (hsegment 0x445 (by decide)))
      · exact Or.inr (Or.inr (Or.inl (hsegment 0x3389 (by decide))))
      · exact Or.inr (Or.inr (Or.inr (hsegment 0x6667 (by decide))))
  · intro h
    simp only [lookalikeSegments, List.mem_cons, List.not_mem_nil, or_false] at h
    rcases h with rfl | rfl | rfl | rfl <;> decide

/-- A text without a port reads like one of the four ports. -/
def Lookalike : IpAddr → Prop
  | .v4 _ => False
  | .v6 addr => addr.toIpv4Mapped = none ∧ addr.lastSegment ∈ lookalikeSegments

theorem remotePort_display_iff (addr : IpAddr) :
    remotePort (String.ofList addr.display) ∈ suspiciousPorts ↔ Lookalike addr := by
  unfold remotePort
  rw [String.toList_ofList]
  cases addr with
  | v4 addr =>
    simp [IpAddr.display, parseU16_lastPart_v4, Lookalike, suspiciousPorts]
  | v6 addr =>
    rw [IpAddr.display, port_lastPart_v6, Lookalike]
    by_cases hmapped : addr.toIpv4Mapped = none
    · rw [if_pos hmapped, hexSegment_port_iff]
      simp [hmapped]
    · simp [hmapped, suspiciousPorts]

theorem scoreSuspicious_isSome_iff (packet : CapturedPacket) :
    (scoreSuspicious packet).isSome ↔
      packet.outbound = true ∧ remotePort packet.remoteAddr ∈ suspiciousPorts := by
  unfold scoreSuspicious
  rw [← portRule_isSome_iff]
  cases packet.outbound <;> simp

theorem portRule_of_scoreSuspicious {packet : CapturedPacket} {s : SuspiciousConnection}
    (h : scoreSuspicious packet = some s) :
    portRule (remotePort packet.remoteAddr) = some (s.reason, s.score) := by
  unfold scoreSuspicious at h
  split at h
  · cases h
  · obtain ⟨rule, hrule, rfl⟩ := Option.map_eq_some_iff.mp h
    exact hrule

theorem copied_of_scoreSuspicious {packet : CapturedPacket} {s : SuspiciousConnection}
    (h : scoreSuspicious packet = some s) : s.process = packet.process ∧
      s.remoteAddr = packet.remoteAddr ∧ s.timestamp = packet.timestamp := by
  unfold scoreSuspicious at h
  split at h
  · cases h
  · obtain ⟨rule, _, rfl⟩ := Option.map_eq_some_iff.mp h
    exact ⟨rfl, rfl, rfl⟩

/-- The frame carries a TCP or UDP header whose destination port is the one of
the four that the alert names. -/
def Justified (reader : HeaderReader) (frame : List UInt8) (s : SuspiciousConnection) : Prop :=
  ∃ flow, flowOf reader frame = some flow ∧ flow.destination.port.toNat ∈ suspiciousPorts ∧
    (portRule flow.destination.port.toNat).map Prod.fst = some s.reason

section Alerts

variable (reader : HeaderReader) (platform : Platform) (localIps : Finset IpAddr)
  (cache : ProcessCache) (now : Option ℕ) (frame : List UInt8)

/-- Every alert on the packet of the frame is justified. -/
def NoFalseAlarm : Prop :=
  ∀ p s, (parsePacket reader platform localIps cache now frame).1 = some p →
    scoreSuspicious p = some s → Justified reader frame s

/-- The frame is sent from a local address without a complete TCP or UDP header
to an address that reads like one of the four ports. -/
def SentToLookalike : Prop :=
  ∃ ip, ipHeader reader frame = some ip ∧ ip.flow reader = none ∧ ip.source ∈ localIps ∧
    Lookalike ip.destination

/-- False alarms are raised on frames to lookalike addresses and on no others. -/
theorem no_false_alarm_iff :
    NoFalseAlarm reader platform localIps cache now frame ↔
      ¬ (now.isSome ∧ SentToLookalike reader localIps frame) := by
  unfold NoFalseAlarm
  rw [parsePacket_eq]
  constructor
  · intro h ⟨hnow, ip, hip, hflow, hlocal, hlookalike⟩
    obtain ⟨ts, rfl⟩ := Option.isSome_iff_exists.mp hnow
    simp only [hip, Option.bind_some, Option.map_some] at h
    have hsome : (scoreSuspicious (buildPacket platform localIps cache frame ts ip.source
        (ip.details reader)).1).isSome := by
      rw [scoreSuspicious_isSome_iff, IpHeader.details_of_no_flow reader hflow]
      exact ⟨decide_eq_true hlocal, (remotePort_display_iff ip.destination).mpr hlookalike⟩
    obtain ⟨s, hs⟩ := Option.isSome_iff_exists.mp hsome
    obtain ⟨flow, hflow', _⟩ := h _ s rfl hs
    rw [flowOf, hip, Option.bind_some, hflow] at hflow'
    cases hflow'
  · intro h p s hp hs
    obtain ⟨ip, hip, hpacket⟩ := Option.bind_eq_some_iff.mp hp
    obtain ⟨ts, rfl, rfl⟩ := Option.map_eq_some_iff.mp hpacket
    have hscore := (scoreSuspicious_isSome_iff _).mp (Option.isSome_of_eq_some hs)
    have hrule := portRule_of_scoreSuspicious hs
    cases hflow : ip.flow reader with
    | some flow =>
      rw [IpHeader.details_of_flow reader hflow] at hscore hrule
      have hport := remotePort_text flow.destination
      simp only [buildPacket, hport] at hscore hrule
      refine ⟨flow, ?_, hscore.2, ?_⟩
      · rw [flowOf, hip, Option.bind_some, hflow]
      · rw [hrule]
        rfl
    | none =>
      rw [IpHeader.details_of_no_flow reader hflow] at hscore
      have hlookalike := (remotePort_display_iff ip.destination).mp hscore.2
      have hlocal : ip.source ∈ localIps := of_decide_eq_true hscore.1
      exact absurd ⟨rfl, ip, hip, hflow, hlocal, hlookalike⟩ h

end Alerts

/-- A neighbour solicitation's header: next header 58, no payload, sent to fe80::23. -/
def icmpv6ToLookalike : List UInt8 :=
  List.replicate 12 0 ++ [0x86, 0xdd] ++ [0x60, 0, 0, 0, 0, 0, 58, 255] ++
    [0xfe, 0x80, 0, 0, 0, 0, 0, 0, 0, 0, 0, 0, 0, 0, 0, 1] ++
      [0xfe, 0x80, 0, 0, 0, 0, 0, 0, 0, 0, 0, 0, 0, 0, 0, 0x23]

def linkLocalOne : Ipv6Addr := ⟨[0xfe80, 0, 0, 0, 0, 0, 0, 1], rfl⟩

def icmpv6Packet : Option CapturedPacket :=
  (parsePacket rawBytes .other {.v6 linkLocalOne} .new (some 1000) icmpv6ToLookalike).1

/-- An ICMPv6 frame to fe80::23 raises the Telnet alert. -/
theorem icmpv6_flagged_as_telnet :
    (icmpv6Packet.bind scoreSuspicious).map (·.reason) = some "Outbound Telnet attempt" ∧
      ¬ NoFalseAlarm rawBytes .other {.v6 linkLocalOne} .new (some 1000) icmpv6ToLookalike := by
  have hreason : (icmpv6Packet.bind scoreSuspicious).map (·.reason) =
      some "Outbound Telnet attempt" := by decide
  refine ⟨hreason, ?_⟩
  intro h
  obtain ⟨s, hs, _⟩ := Option.map_eq_some_iff.mp hreason
  obtain ⟨p, hp, hscore⟩ := Option.bind_eq_some_iff.mp hs
  obtain ⟨flow, hflow, _⟩ := h p s hp hscore
  have hnone : flowOf rawBytes icmpv6ToLookalike = none := by decide
  rw [hnone] at hflow
  cases hflow

section RoundTrip

variable {reader : HeaderReader} {platform : Platform} {localIps : Finset IpAddr}
  {cache : ProcessCache} {now : Option ℕ} {frame : List UInt8} {flow : Flow} {p : CapturedPacket}

/-- The packet of a frame with a complete TCP or UDP header is scored by the header's own
destination port, with the reason and the score that the table has for that port. -/
theorem port_round_trip (hflow : flowOf reader frame = some flow)
    (hp : (parsePacket reader platform localIps cache now frame).1 = some p) :
    ((scoreSuspicious p).isSome ↔
      flow.source.addr ∈ localIps ∧ flow.destination.port.toNat ∈ suspiciousPorts) ∧
    ∀ s, scoreSuspicious p = some s →
      portRule flow.destination.port.toNat = some (s.reason, s.score) ∧
      (flow.destination.port.toNat, s.reason, s.score) ∈ suspiciousRules ∧
      s.process = p.process ∧ s.remoteAddr = p.remoteAddr ∧ s.timestamp = p.timestamp := by
  obtain ⟨_, hremote, _, hout⟩ := parsePacket_of_flow hflow hp
  have hport : remotePort p.remoteAddr = flow.destination.port.toNat := by
    rw [hremote, remotePort_text]
  constructor
  · rw [scoreSuspicious_isSome_iff, hout, hport, decide_eq_true_eq]
  · intro s hs
    rw [← hport]
    have hrule := portRule_of_scoreSuspicious hs
    exact ⟨hrule, mem_suspiciousRules_of_portRule hrule, copied_of_scoreSuspicious hs⟩

end RoundTrip

/-- A TCP segment that asks for a connection from fe80::1 to port 3389 of fe80::23. -/
def rdpFrame : List UInt8 :=
  List.replicate 12 0 ++ [0x86, 0xdd] ++ [0x60, 0, 0, 0, 0, 20, 6, 255] ++
    [0xfe, 0x80, 0, 0, 0, 0, 0, 0, 0, 0, 0, 0, 0, 0, 0, 1] ++
      [0xfe, 0x80, 0, 0, 0, 0, 0, 0, 0, 0, 0, 0, 0, 0, 0, 0x23] ++
        [0xc3, 0x50, 0x0d, 0x3d] ++ synFields

def rdpFlow : Flow :=
  ⟨.tcp, ⟨.v6 linkLocalOne, 50000⟩, ⟨.v6 ⟨[0xfe80, 0, 0, 0, 0, 0, 0, 0x23], rfl⟩, 3389⟩⟩

theorem port_round_trip_rdp : ∃ p s,
    (parsePacket rawBytes .other {.v6 linkLocalOne} .new (some 1000) rdpFrame).1 = some p ∧
      p.remoteAddr = "[fe80::23]:3389" ∧ scoreSuspicious p = some s ∧
      s.reason = "Outbound RDP session" ∧ s.score = 0.85 ∧ s.remoteAddr = "[fe80::23]:3389" := by
  have hflow : flowOf rawBytes rdpFrame = some rdpFlow := by decide
  have hpacket : (parsePacket rawBytes .other {.v6 linkLocalOne} .new (some 1000) rdpFrame).1 =
      some ⟨"system", "[fe80::1]:50000", "[fe80::23]:3389", "TCP", 74, 1000, true⟩ := by decide
  obtain ⟨hscored, hcopied⟩ := port_round_trip hflow hpacket
  obtain ⟨s, hs⟩ := Option.isSome_iff_exists.mp (hscored.mpr ⟨by decide, by decide⟩)
  obtain ⟨-, hrule, -, hremote, -⟩ := hcopied s hs
  have hport : rdpFlow.destination.port.toNat = 3389 := rfl
  simp only [hport, suspiciousRules, List.mem_cons, List.not_mem_nil, Prod.mk.injEq] at hrule
  obtain ⟨hreason, hscore⟩ : s.reason = "Outbound RDP session" ∧ s.score = 0.85 := by
    simpa using hrule
  exact ⟨_, s, hpacket, rfl, hs, hreason, hscore, hremote⟩

end AetherLens.SuspicionScoring
