import AetherLens.Warnings
import Mathlib.Data.Finset.Basic

/-!
The interface that is captured on. It is the one with a given address, or else the first
of the best candidates by name; the candidates are sorted stably. What is local are the
addresses of all interfaces of the host, so a warning is about a frame that the host itself
has sent, whichever interface it was captured on.
-/
namespace AetherLens.CaptureInterface

open AddressText CaptureThread DashboardReplay EndToEnd Messages NetworkMonitorHub PacketHeaders
open PacketParsing ProcessMap SuspicionScoring Warnings

section StableSort

variable {α : Type*} (key : α → ℕ)

end StableSort

/-- An interface, with the addresses of its networks. -/
structure NetworkInterface where
  name : String
  isLoopback : Bool
  ips : List IpAddr
deriving DecidableEq, Repr

section Selection

variable (lower : String → String)

def contains (text part : String) : Bool := decide (part.toList <:+: text.toList)

def nameScore (name : String) : ℕ :=
  if contains (lower name) "wi-fi" then 2
  else if contains (lower name) "ethernet" then 1
  else 0

def candidates (interfaces : List NetworkInterface) : List NetworkInterface :=
  interfaces.filter fun iface => !iface.isLoopback && !iface.ips.isEmpty

/-- `targetIp` is what `CAPTURE_INTERFACE_IP` is set to. -/
def selectInterface (targetIp : Option String) (interfaces : List NetworkInterface) :
    Option NetworkInterface :=
  match targetIp with
  | some targetIp =>
    interfaces.find? fun iface => iface.ips.any fun ip => String.ofList ip.display = targetIp
  | none =>
    ((candidates interfaces).mergeSort fun a b =>
      nameScore lower b.name ≤ nameScore lower a.name).head?

/-- The addresses of all interfaces. -/
def localIps (interfaces : List NetworkInterface) : Finset IpAddr :=
  (interfaces.flatMap (·.ips)).toFinset

/-- The loop that is run on the interface, if there is one and its channel opens. -/
def runSnifferLoop (opens : NetworkInterface → Bool) (reader : HeaderReader)
    (platform : Platform) (targetIp : Option String) (interfaces : List NetworkInterface) :
    Option (Engine.Source Unit Read) :=
  (selectInterface lower targetIp interfaces).bind fun iface =>
    if opens iface then some (capture reader platform (localIps interfaces)) else none

end Selection

section Warned

theorem exists_of_mem {α β : Type*} {R : α → β → Prop} {xs : List α} {ys : List β} {x : α}
    (h : List.SublistForall₂ R xs ys) (hx : x ∈ xs) : ∃ y ∈ ys, R x y := by
  induction h with
  | nil => cases hx
  | cons hxy _ ih =>
    rcases List.mem_cons.mp hx with rfl | hrest
    · exact ⟨_, List.mem_cons_self, hxy⟩
    · obtain ⟨y, hy, hR⟩ := ih hrest
      exact ⟨y, List.mem_cons_of_mem _ hy, hR⟩
  | cons_right _ ih =>
    obtain ⟨y, hy, hR⟩ := ih hx
    exact ⟨y, List.mem_cons_of_mem _ hy, hR⟩

variable {lower : String → String} {opens : NetworkInterface → Bool} {reader : HeaderReader}
  {platform : Platform} {targetIp : Option String} {interfaces : List NetworkInterface}

/-- The frame has a source that is an address of the host. -/
def OwnFrame (reader : HeaderReader) (interfaces : List NetworkInterface) (f : Frame) : Prop :=
  ∃ ip, ipHeader reader f.bytes = some ip ∧ ∃ iface ∈ interfaces, ip.source ∈ iface.ips

theorem source_eq {source : Engine.Source Unit Read}
    (h : runSnifferLoop lower opens reader platform targetIp interfaces = some source) :
    source = capture reader platform (localIps interfaces) := by
  obtain ⟨iface, _, hsource⟩ := Option.bind_eq_some_iff.mp h
  split at hsource
  · exact (Option.some.inj hsource).symm
  · cases hsource

theorem ownFrame_of_outbound {f : Frame} {packet : CapturedPacket}
    (h : parseFrame reader platform (localIps interfaces) f = some packet)
    (houtbound : packet.outbound = true) : OwnFrame reader interfaces f := by
  rw [parseFrame, parsePacket_eq] at h
  obtain ⟨ip, hip, hbuilt⟩ := Option.bind_eq_some_iff.mp h
  obtain ⟨ts, _, rfl⟩ := Option.map_eq_some_iff.mp hbuilt
  have hlocal : ip.source ∈ localIps interfaces := of_decide_eq_true houtbound
  rw [localIps, List.mem_toFinset, List.mem_flatMap] at hlocal
  exact ⟨ip, hip, hlocal⟩

/-- A pair that the loop produces is that of a frame among its inputs. -/
theorem frame_of_produced {localIps : Finset IpAddr} {reads : List Read}
    {x : CapturedPacket × Option Messages.SuspiciousConnection}
    (h : x ∈ Engine.produce (capture reader platform localIps) () reads) :
    ∃ f, .frame f ∈ reads ∧ parseFrame reader platform localIps f = some x.1 := by
  induction reads with
  | nil => cases h
  | cons read reads ih =>
    have hlater : x ∈ Engine.produce (capture reader platform localIps) () reads →
        ∃ f, .frame f ∈ read :: reads ∧ parseFrame reader platform localIps f = some x.1 := by
      intro hx
      obtain ⟨f, hf, hparse⟩ := ih hx
      exact ⟨f, List.mem_cons_of_mem read hf, hparse⟩
    cases read with
    | timedOut => cases h
    | failed => cases h
    | frame f =>
      cases hparse : parseFrame reader platform localIps f with
      | none =>
        have hturn : (capture reader platform localIps).turn () (.frame f) = .skips () := by
          simp only [capture, hparse]
        rw [Engine.produce, hturn] at h
        exact hlater h
      | some packet =>
        have hturn : (capture reader platform localIps).turn () (.frame f) =
            .produces () packet (SuspicionScoring.scoreSuspicious packet) := by
          simp only [capture, hparse]
        rw [Engine.produce, hturn] at h
        rcases List.mem_cons.mp h with rfl | hx
        · exact ⟨f, List.mem_cons_self, hparse⟩
        · exact hlater hx

theorem input_of_engine {source : Engine.Source Unit Read} {db : AetherDb.Db}
    {es : List (LiveSystem.Event Read)} {read : Read}
    (h : read ∈ Engine.inputsOf ((LiveSystem.engineOf source db).eventsOf es)) :
    .engine (.turn read) ∈ es := by
  obtain ⟨e, he, hread⟩ := List.mem_filterMap.mp h
  obtain ⟨⟨s, event⟩, hstep, hevent⟩ := List.mem_flatMap.mp he
  have hmem := (LiveSystem.machine source db).mem_of_mem_steps hstep
  change e ∈ LiveSystem.engineEvents event at hevent
  cases event with
  | engine e' =>
    obtain rfl := List.mem_singleton.mp hevent
    cases e with
    | turn input =>
      cases hread
      exact hmem
    | _ => cases hread
  | packets p =>
    cases p with
    | receive =>
      obtain rfl := List.mem_singleton.mp hevent
      cases hread
    | _ => cases hevent
  | alerts a =>
    cases a with
    | receive =>
      obtain rfl := List.mem_singleton.mp hevent
      cases hread
    | _ => cases hevent
  | _ => cases hevent

variable {source : Engine.Source Unit Read} {db : AetherDb.Db}
  {es : List (LiveSystem.Event Read)} {s : LiveSystem.State Unit}

/-- In every run of the system on an interface of the host, each anomaly that a dashboard
is shown warns of a packet whose frame the host itself has sent. -/
theorem warnings_are_own
    (hsource : runSnifferLoop lower opens reader platform targetIp interfaces = some source)
    (hs : (LiveSystem.machine source db).run es = some s) (i : ℕ) (connection : Connection)
    (hi : s.hub.connections i = some connection) :
    ∀ alert ∈ anomaliesOf connection.delivered, ∃ f packet,
      .engine (.turn (.frame f)) ∈ es ∧ OwnFrame reader interfaces f ∧
        parseFrame reader platform (localIps interfaces) f = some packet ∧
          WarnsOf alert packet := by
  obtain rfl := source_eq hsource
  intro alert halert
  obtain ⟨item, hitem, hshows⟩ := exists_of_mem (delivered_raised hs hi) halert
  rw [raised_eq hs] at hitem
  obtain ⟨packet, hpacket, hscore⟩ := List.mem_filterMap.mp hitem
  have hwarns := warnsOf_of_shows hscore hshows
  obtain ⟨x, hx, rfl⟩ := List.mem_map.mp hpacket
  have hproduced := (Engine.produced_prefix
    ((LiveSystem.engineOf _ db).run_eventsOf es s hs)).subset hx
  obtain ⟨f, hf, hparse⟩ := frame_of_produced hproduced
  exact ⟨f, x.1, input_of_engine hf, ownFrame_of_outbound hparse hwarns.outbound, hparse, hwarns⟩

end Warned

/-- A host with one address beside its loopback. -/
def host : List NetworkInterface :=
  [⟨"lo", true, []⟩, ⟨"Wi-Fi", false, [.v6 linkLocalOne]⟩]

theorem runSnifferLoop_host :
    runSnifferLoop (fun name => name.map Char.toLower) (fun _ => true) rawBytes .other none host =
      some captureOnHost := by
  have hcandidates : candidates host = [⟨"Wi-Fi", false, [.v6 linkLocalOne]⟩] := rfl
  have hips : localIps host = {.v6 linkLocalOne} := rfl
  rw [runSnifferLoop, selectInterface, hcandidates, List.mergeSort_singleton, hips]
  rfl

/-- The warning of the outbound RDP segment is about a frame of the host. -/
theorem warnings_are_own_rdp : ∃ s connection,
    liveOnHost.run (.engine (.turn rdpRead) :: rdpShown) = some s ∧
    s.hub.connections 0 = some connection ∧
    (anomaliesOf connection.delivered).map (·.reason) = ["Outbound RDP session"] ∧
    ∀ alert ∈ anomaliesOf connection.delivered, ∃ f packet,
      .engine (.turn (.frame f)) ∈ (.engine (.turn rdpRead) :: rdpShown) ∧
        OwnFrame rawBytes host f ∧ parseFrame rawBytes .other (localIps host) f = some packet ∧
          WarnsOf alert packet := by
  obtain ⟨s, hs, hshown⟩ := Option.bind_eq_some_iff.mp shown_afterRead
  obtain ⟨connection, hi, hreason⟩ := Option.map_eq_some_iff.mp hshown
  rw [← run_rdpShown] at hs
  exact ⟨s, connection, hs, hi, hreason,
    warnings_are_own runSnifferLoop_host hs 0 connection hi⟩

end AetherLens.CaptureInterface
