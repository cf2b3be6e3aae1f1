import AetherLens.CaptureThread
import AetherLens.DemoStream
import AetherLens.EndToEnd
import Mathlib.Tactic.NormNum

/-!
What the warnings of a dashboard are about. In live capture every anomaly on a screen
goes back to one captured packet that leaves the host for one of the four ports, as the
packet's own remote text names it, and its severity is that of the port. In demo mode it
goes back to a demo packet, and there is at most one for every ten packets.
-/
namespace AetherLens.Warnings

open AddressText CaptureThread DashboardReplay DashboardStore EndToEnd LossyQueues Messages
open NetworkMonitorHub PacketHeaders ProcessMap SuspicionScoring SuspiciousConsumer

/-- The severity of an alert on a port: Telnet and SMB are critical. -/
def portSeverity (port : ℕ) : String := if port ∈ [23, 445] then "CRITICAL" else "WARNING"

theorem severity_of_portRule {port : ℕ} {reason : String} {score : ℚ}
    (h : portRule port = some (reason, score)) : severity score = portSeverity port := by
  unfold portRule at h
  split at h
  · cases h
    norm_num [severity, portSeverity]
  · cases h
    norm_num [severity, portSeverity]
  · cases h
    norm_num [severity, portSeverity]
  · cases h
    norm_num [severity, portSeverity]
  · cases h

/-- The alert warns of the packet. -/
structure WarnsOf (alert : SuspiciousOutboundConnection) (packet : CapturedPacket) : Prop where
  outbound : packet.outbound = true
  rule_eq : portRule (remotePort packet.remoteAddr) = some (alert.reason, alert.score)
  severity_eq : alert.severity = portSeverity (remotePort packet.remoteAddr)
  process_eq : alert.process = packet.process
  remoteAddress_eq : alert.remoteAddress = packet.remoteAddr
  timestamp_eq : packet.timestamp.toNat < 2 ^ 63 → alert.timestamp = packet.timestamp.toNat

theorem warnsOf_of_shows {alert : SuspiciousOutboundConnection} {packet : CapturedPacket}
    {item : SuspiciousConnection} (hscore : scoreSuspicious packet = some item)
    (hshows : AlertDelivery.Shows alert item) : WarnsOf alert packet := by
  have hrule := portRule_of_scoreSuspicious hscore
  obtain ⟨hprocess, hremote, htimestamp⟩ := copied_of_scoreSuspicious hscore
  refine ⟨?_, ?_, ?_, ?_, ?_, ?_⟩
  · exact ((scoreSuspicious_isSome_iff packet).mp (Option.isSome_of_eq_some hscore)).1
  · rw [hshows.reason_eq, hshows.score_eq]
    exact hrule
  · rw [hshows.severity_eq]
    exact severity_of_portRule hrule
  · rw [hshows.process_eq, hprocess]
  · rw [hshows.remoteAddress_eq, hremote]
  · rw [← htimestamp]
    exact hshows.timestamp_eq

section Capture

variable {reader : HeaderReader} {platform : Platform} {localIps : Finset IpAddr}
  {db : AetherDb.Db} {es : List (LiveSystem.Event Read)} {s : LiveSystem.State Unit}

/-- The capture loop raises what the port rule says of each packet. -/
theorem raised_eq
    (hs : (LiveSystem.machine (capture reader platform localIps) db).run es = some s) :
    raised s = (captured s).filterMap scoreSuspicious := by
  have hturns : ∀ x ∈ s.engine.produced, x.2 = scoreSuspicious x.1 := by
    refine ((LiveSystem.engineOf _ db).of_run (P := Engine.FromTurns fun packet alert =>
      alert = scoreSuspicious packet) (fun _ _ h => Engine.fromTurns_run ?_ h) hs).1
    intro _ read _ packet alert hturn
    simp only [capture] at hturn
    split at hturn
    next f =>
      split at hturn
      · cases hturn
      · cases hturn
        rfl
    · cases hturn
    · cases hturn
  rw [raised, captured, List.filterMap_map]
  exact List.filterMap_congr hturns

/-- In every run of the system on captured frames, the anomalies that one connection has
delivered warn, in order and one for one, of captured packets. -/
theorem anomalies_warn_of_captured
    (hs : (LiveSystem.machine (capture reader platform localIps) db).run es = some s) (i : ℕ)
    (connection : Connection) (hi : s.hub.connections i = some connection) :
    List.SublistForall₂ WarnsOf (anomaliesOf connection.delivered) (captured s) := by
  have hshown := delivered_raised hs hi
  rw [raised_eq hs] at hshown
  refine sublistForall₂_imp ?_ (sublistForall₂_filterMap hshown)
  rintro alert packet ⟨item, hscore, hshows⟩
  exact warnsOf_of_shows hscore hshows

end Capture

/-- What follows the read of an outbound RDP segment: a dashboard joins, the alert service
subscribes, and the alert is shown. -/
def rdpShown : List (LiveSystem.Event Read) :=
  [.hub (.connect 0), .hub (.addToGroup 0), .alerts (.service .checkStop),
    .alerts (.service .subscribe), .alerts .accept, .engine .sendPacket, .engine .sendAlert,
    .alerts (.receive rdpAlert), .alerts .send, .alerts .pull, .alerts (.service .message),
    .alerts .write, .alerts (.consumer .waitToRead), .alerts (.consumer .tryRead),
    .hub (.deliver 0)]

def liveOnHost := LiveSystem.machine captureOnHost PersistenceWorker.emptyDb

/-- The system when the segment has been read. -/
def afterRead : LiveSystem.State Unit :=
  { LiveSystem.start captureOnHost PersistenceWorker.emptyDb with
    engine := (Engine.start captureOnHost).take (.produces () rdpPacket (some rdpAlert)) }

theorem shown_afterRead : ((rdpShown.foldlM liveOnHost.step afterRead).bind fun s =>
    (s.hub.connections 0).map fun connection =>
      (anomaliesOf connection.delivered).map (·.reason)) = some ["Outbound RDP session"] := by
  decide +kernel

theorem step_turn {σ ι : Type} (source : Engine.Source σ ι) (db : AetherDb.Db) (input : ι) :
    (LiveSystem.machine source db).step (LiveSystem.start source db) (.engine (.turn input)) =
      some { LiveSystem.start source db with
        engine := (Engine.start source).take (source.turn source.start input) } := rfl

theorem step_rdpRead :
    liveOnHost.step liveOnHost.start (.engine (.turn rdpRead)) = some afterRead := by
  have hturn := step_turn captureOnHost PersistenceWorker.emptyDb rdpRead
  rw [show captureOnHost.start = () from rfl, turn_rdpRead] at hturn
  exact hturn

theorem run_rdpShown : liveOnHost.run (.engine (.turn rdpRead) :: rdpShown) =
    rdpShown.foldlM liveOnHost.step afterRead := by
  rw [Runs.Machine.run, List.foldlM_cons, step_rdpRead]
  exact Option.bind_some _ _

theorem anomalies_warn_of_captured_rdp : ∃ s connection,
    liveOnHost.run (.engine (.turn rdpRead) :: rdpShown) = some s ∧
    s.hub.connections 0 = some connection ∧
    (anomaliesOf connection.delivered).map (·.reason) = ["Outbound RDP session"] ∧
    List.SublistForall₂ WarnsOf (anomaliesOf connection.delivered) (captured s) := by
  obtain ⟨s, hs, hshown⟩ := Option.bind_eq_some_iff.mp shown_afterRead
  obtain ⟨connection, hi, hreason⟩ := Option.map_eq_some_iff.mp hshown
  rw [← run_rdpShown] at hs
  have hwarn := anomalies_warn_of_captured hs 0 connection hi
  exact ⟨s, connection, hs, hi, hreason, hwarn⟩

section Demo

/-- The alert belongs to the demo packet. -/
structure DemoWarnsOf (alert : SuspiciousOutboundConnection) (packet : CapturedPacket) : Prop where
  kind :
    (DemoStream.isDangerous packet.process ∧ alert.process = packet.process ∧
      alert.severity = "CRITICAL") ∨
    (alert.process = "unknown_process.exe" ∧ alert.severity = "INFO")
  remoteAddress_eq : alert.remoteAddress = packet.remoteAddr
  timestamp_eq : packet.timestamp.toNat < 2 ^ 63 → alert.timestamp = packet.timestamp.toNat

theorem demoWarnsOf_of_shows {alert : SuspiciousOutboundConnection} {counter ts : UInt64}
    {item : SuspiciousConnection} (hitem : DemoStream.alertOf counter ts = some item)
    (hshows : AlertDelivery.Shows alert item) :
    DemoWarnsOf alert (DemoStream.packetOf counter ts) := by
  have hprocess := hshows.process_eq
  have hremote := hshows.remoteAddress_eq
  have hseverity := hshows.severity_eq
  have htimestamp := hshows.timestamp_eq
  simp only [DemoStream.alertOf] at hitem
  split at hitem
  next hdangerous =>
    cases hitem
    refine ⟨Or.inl ⟨(Bool.and_eq_true_iff.mp hdangerous).1, hprocess, ?_⟩, hremote, htimestamp⟩
    rw [hseverity]
    norm_num [severity]
  next =>
    split at hitem
    · cases hitem
      refine ⟨Or.inr ⟨hprocess, ?_⟩, hremote, htimestamp⟩
      rw [hseverity]
      norm_num [severity]
    · cases hitem

variable {db : AetherDb.Db} {es : List (LiveSystem.Event UInt64)} {s : LiveSystem.State UInt64}

theorem produced_demo (hs : (LiveSystem.machine DemoStream.demo db).run es = some s) :
    ∃ clocks : List UInt64, s.engine.produced =
      (clocks.zipIdx 1).map fun x => DemoStream.round x.2 x.1 :=
  (LiveSystem.engineOf _ db).of_run (P := fun engine => ∃ clocks : List UInt64,
    engine.produced = (clocks.zipIdx 1).map fun x => DemoStream.round x.2 x.1)
    (fun _ _ h => (DemoStream.produced_eq h).imp fun _ => And.right) hs

/-- In every run of the system in demo mode, the anomalies that one connection has
delivered belong, in order and one for one, to demo packets, at most one to every ten. -/
theorem anomalies_warn_of_demo
    (hs : (LiveSystem.machine DemoStream.demo db).run es = some s) (i : ℕ)
    (connection : Connection) (hi : s.hub.connections i = some connection) :
    List.SublistForall₂ DemoWarnsOf (anomaliesOf connection.delivered) (captured s) ∧
      ((captured s).length < 2 ^ 64 →
        10 * (anomaliesOf connection.delivered).length ≤ (captured s).length) := by
  obtain ⟨clocks, hproduced⟩ := produced_demo hs
  have hcaptured : captured s = (clocks.zipIdx 1).map fun x =>
      DemoStream.packetOf (UInt64.ofNat x.2) x.1 := by
    rw [captured, hproduced, List.map_map]
    rfl
  have hraised : raised s = (clocks.zipIdx 1).filterMap fun x =>
      DemoStream.alertOf (UInt64.ofNat x.2) x.1 := by
    rw [raised, hproduced, List.filterMap_map]
    rfl
  have hshown := delivered_raised hs hi
  constructor
  · rw [hraised] at hshown
    rw [hcaptured, List.sublistForall₂_map_right_iff]
    refine sublistForall₂_imp ?_ (sublistForall₂_filterMap hshown)
    rintro alert x ⟨item, hitem, hshows⟩
    exact demoWarnsOf_of_shows hitem hshows
  · intro hrounds
    have hlength : (captured s).length = clocks.length := by simp [hcaptured]
    have halerts := DemoStream.alerts_of_rounds 0 clocks (by omega)
    rw [← hproduced] at halerts
    obtain ⟨shown, hshows, hsublist⟩ := List.sublistForall₂_iff.mp hshown
    have hle := hshows.length_eq.trans_le hsublist.length_le
    have hraisedLength : (raised s).length = (s.engine.produced.filterMap Prod.snd).length := rfl
    omega

end Demo

def powershellAlert : SuspiciousConnection :=
  ⟨"powershell.exe", "142.250.185.78:81", "Suspicious Payload", 0.95, 1⟩

/-- A dashboard joins, the alert service subscribes, and the tenth round raises an alert. -/
def tenthRound : List (LiveSystem.Event UInt64) :=
  [.hub (.connect 0), .hub (.addToGroup 0), .alerts (.service .checkStop),
    .alerts (.service .subscribe), .alerts .accept] ++
  (List.replicate 9 [.engine (.turn 0), .engine .sendPacket]).flatten ++
  [.engine (.turn 1), .engine .sendPacket, .engine .sendAlert,
    .alerts (.receive powershellAlert), .alerts .send, .alerts .pull, .alerts (.service .message),
    .alerts .write, .alerts (.consumer .waitToRead), .alerts (.consumer .tryRead),
    .hub (.deliver 0)]

def liveDemo := LiveSystem.machine DemoStream.demo PersistenceWorker.emptyDb

theorem shown_tenthRound : ((liveDemo.run tenthRound).bind fun s =>
    (s.hub.connections 0).map fun connection =>
      (anomaliesOf connection.delivered).map (·.process)) = some ["powershell.exe"] := by
  decide +kernel

theorem anomalies_warn_of_demo_powershell : ∃ s connection,
    liveDemo.run tenthRound = some s ∧ s.hub.connections 0 = some connection ∧
    (anomaliesOf connection.delivered).map (·.process) = ["powershell.exe"] ∧
    List.SublistForall₂ DemoWarnsOf (anomaliesOf connection.delivered) (captured s) ∧
      ((captured s).length < 2 ^ 64 →
        10 * (anomaliesOf connection.delivered).length ≤ (captured s).length) := by
  obtain ⟨s, hs, hshown⟩ := Option.bind_eq_some_iff.mp shown_tenthRound
  obtain ⟨connection, hi, hprocess⟩ := Option.map_eq_some_iff.mp hshown
  have hwarn := anomalies_warn_of_demo hs 0 connection hi
  exact ⟨s, connection, hs, hi, hprocess, hwarn⟩

end AetherLens.Warnings
