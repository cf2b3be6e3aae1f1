import AetherLens.DashboardReplay
import AetherLens.KeyedValues
import Mathlib.Data.Rat.Lemmas

/-!
The records of the hub on their way to a dashboard. The hub writes a record as an object
under the names of its properties, which start with capitals; the dashboard lowers the
first letter of every key and reads the fields by the names of its own types. So the store
gets the records that were sent, and what it shows is what the hub said.
-/
namespace AetherLens.HubWire

open DashboardReplay DashboardStore KeyedValues Messages NetworkMonitorHub

/-- What lower case comes to in the dashboard's language. Beyond ASCII one letter may
become several, but the first of them is lower case. -/
structure Lowercase where
  lower : Char → List Char
  lower_ascii : ∀ c, c.toNat < 128 → lower c = [c.toLower]
  lower_head : ∀ c, ∃ first more, lower c = first :: more ∧ lower first = [first]

/-- What an integer of the wire is to the dashboard, whose numbers are exact up to a bound. -/
structure Numbers where
  number : ℤ → ℚ
  number_safe : ∀ n : ℤ, n.natAbs ≤ 2 ^ 53 → number n = n

variable (L : Lowercase) (N : Numbers)

def camelizeKey (key : String) : String :=
  match key.toList with
  | [] => ""
  | c :: rest => String.ofList (L.lower c ++ rest)

def camelize (raw : Value) : Value := rename (camelizeKey L) raw

theorem camelizeKey_camelizeKey (key : String) :
    camelizeKey L (camelizeKey L key) = camelizeKey L key := by
  unfold camelizeKey
  cases key.toList with
  | nil => rfl
  | cons c rest =>
    obtain ⟨first, more, hlower, hfirst⟩ := L.lower_head c
    simp [hlower, hfirst]

/-- What the dashboard reads under a key of a camelized object is the last value whose key
is the given one but for its first letter, itself camelized. Camelizing again changes
nothing. -/
theorem camelize_spec (key : String) (entries : List (String × Value)) (raw : Value) :
    (∃ camelized, camelize L (.object entries) = .object camelized ∧
      valueAt key camelized = (lastNamed (camelizeKey L) key entries).map (camelize L)) ∧
    camelize L (camelize L raw) = camelize L raw := by
  refine ⟨⟨renameEntries (camelizeKey L) [] entries, by rw [camelize, rename], ?_⟩, ?_⟩
  · rw [valueAt_renameEntries]
    exact Option.or_none
  · exact rename_rename (camelizeKey_camelizeKey L) raw

section Fields

def text (key : String) (entries : List (String × Value)) : Option String :=
  match valueAt key entries with
  | some (.string s) => some s
  | _ => none

def flag (key : String) (entries : List (String × Value)) : Option Bool :=
  match valueAt key entries with
  | some (.bool b) => some b
  | _ => none

def number (key : String) (entries : List (String × Value)) : Option ℚ :=
  match valueAt key entries with
  | some (.number n) => some n
  | _ => none

def integer (key : String) (entries : List (String × Value)) : Option ℤ :=
  (number key entries).bind fun n => if n.den = 1 then some n.num else none

end Fields

/-! The records under the names of `Contracts.cs`, as the dashboard gets them. -/

def writePacket (p : PacketUpdate) : Value :=
  .object [("Process", .string p.process), ("LocalAddress", .string p.localAddress),
    ("RemoteAddress", .string p.remoteAddress), ("Protocol", .string p.protocol),
    ("Bytes", .number (N.number p.bytes.toInt)), ("Outbound", .bool p.outbound),
    ("Timestamp", .number (N.number p.timestamp.toInt)),
    ("LatencyMs", .number (N.number p.latencyMs.toInt))]

def writeProcess (u : ProcessBandwidthUpdate) : Value :=
  .object [("Process", .string u.process), ("BytesPerSecond", .number (N.number u.bytesPerSecond)),
    ("PacketsPerSecond", .number (N.number u.packetsPerSecond)), ("Protocol", .string u.protocol),
    ("Timestamp", .number (N.number u.timestamp)), ("Tier", .string u.tier)]

def writeAnomaly (a : SuspiciousOutboundConnection) : Value :=
  .object [("Process", .string a.process), ("RemoteAddress", .string a.remoteAddress),
    ("Reason", .string a.reason), ("Severity", .string a.severity), ("Score", .number a.score),
    ("Timestamp", .number (N.number a.timestamp))]

def writeHealth (h : SystemHealthData) : Value :=
  .object [("GrpcConnected", .bool h.grpcConnected),
    ("PacketsPerSecond", .number h.packetsPerSecond), ("AvgLatencyMs", .number h.avgLatencyMs),
    ("MaxLatencyMs", .number h.maxLatencyMs), ("Uptime", .string h.uptime)]

/-! The records under the names of `types/index.ts`. -/

def readPacket : Value → Option PacketUpdate
  | .object o => do
    return ⟨← text "process" o, ← text "localAddress" o, ← text "remoteAddress" o,
      ← text "protocol" o, .ofInt (← integer "bytes" o), ← flag "outbound" o,
      .ofInt (← integer "timestamp" o), .ofInt (← integer "latencyMs" o)⟩
  | _ => none

def readProcess : Value → Option ProcessBandwidthUpdate
  | .object o => do
    return ⟨← text "process" o, ← integer "bytesPerSecond" o, ← integer "packetsPerSecond" o,
      ← text "protocol" o, ← integer "timestamp" o, ← text "tier" o⟩
  | _ => none

def readAnomaly : Value → Option SuspiciousOutboundConnection
  | .object o => do
    return ⟨← text "process" o, ← text "remoteAddress" o, ← text "reason" o,
      ← text "severity" o, ← number "score" o, ← integer "timestamp" o⟩
  | _ => none

def readHealth : Value → Option SystemHealthData
  | .object o => do
    return ⟨← flag "grpcConnected" o, ← number "packetsPerSecond" o, ← number "avgLatencyMs" o,
      ← number "maxLatencyMs" o, ← text "uptime" o⟩
  | _ => none

/-- A message as it is sent: the name of the handler and its argument. -/
def send : HubMessage → String × Value
  | .receivePackets packets => ("ReceivePackets", .array (packets.map (writePacket N)))
  | .receiveProcessStats process => ("ReceiveProcessStats", writeProcess N process)
  | .receiveAnomaly anomaly => ("ReceiveAnomaly", writeAnomaly N anomaly)
  | .receiveHealth health => ("ReceiveHealth", writeHealth health)

/-- The message that a handler gets to see. -/
def receive : String × Value → Option HubMessage
  | ("ReceivePackets", raw) =>
    match camelize L raw with
    | .array items => (items.mapM readPacket).map .receivePackets
    | _ => none
  | ("ReceiveProcessStats", raw) => (readProcess (camelize L raw)).map .receiveProcessStats
  | ("ReceiveAnomaly", raw) => (readAnomaly (camelize L raw)).map .receiveAnomaly
  | ("ReceiveHealth", raw) => (readHealth (camelize L raw)).map .receiveHealth
  | _ => none

theorem toLower_toLower (c : Char) : c.toLower.toLower = c.toLower := by
  unfold Char.toLower
  split
  next hupper =>
    split
    next hagain =>
      simp only [ge_iff_le, UInt32.le_iff_toNat_le] at hupper hagain
      simp at hupper hagain
      omega
    next => rfl
  next => rfl

/-- A lower case that knows ASCII only. -/
def asciiLowercase : Lowercase where
  lower c := [c.toLower]
  lower_ascii _ _ := rfl
  lower_head c := ⟨c.toLower, [], rfl, by rw [toLower_toLower]⟩

def startsAscii (key : String) : Bool := key.toList.head?.all fun c => c.toNat < 128

theorem camelizeKey_of_ascii {key : String} (h : startsAscii key) :
    camelizeKey L key = camelizeKey asciiLowercase key := by
  unfold startsAscii at h
  unfold camelizeKey
  cases hkey : key.toList with
  | nil => rfl
  | cons c rest =>
    rw [hkey] at h
    simp only [L.lower_ascii c (by simpa using h)]
    rfl

def isScalar : Value → Bool
  | .array _ => false
  | .object _ => false
  | _ => true

/-- The entries of a record: no value is an array or an object itself. -/
def isRecord (entries : List (String × Value)) : Bool :=
  entries.all fun entry => startsAscii entry.1 && isScalar entry.2

/-- The keys of the records are ASCII, where there is one lower case. -/
theorem camelize_record {entries : List (String × Value)} (h : isRecord entries) :
    camelize L (.object entries) = camelize asciiLowercase (.object entries) := by
  rw [camelize, camelize, rename, rename]
  refine congrArg Value.object (renameEntries_congr ?_)
  intro entry hentry
  have hrecord := List.all_eq_true.mp h entry hentry
  obtain ⟨hkey, hscalar⟩ := Bool.and_eq_true_iff.mp hrecord
  refine ⟨camelizeKey_of_ascii L hkey, ?_⟩
  obtain ⟨key, value⟩ := entry
  cases value with
  | array => cases hscalar
  | object => cases hscalar
  | _ => rfl

def Safe (n : ℤ) : Prop := n.natAbs ≤ 2 ^ 53

/-- The integers of a message are numbers that the dashboard has. -/
def SafeMessage : HubMessage → Prop
  | .receivePackets packets =>
    ∀ p ∈ packets, Safe p.bytes.toInt ∧ Safe p.timestamp.toInt ∧ Safe p.latencyMs.toInt
  | .receiveProcessStats u => Safe u.bytesPerSecond ∧ Safe u.packetsPerSecond ∧ Safe u.timestamp
  | .receiveAnomaly a => Safe a.timestamp
  | .receiveHealth _ => True

theorem readPacket_writePacket {p : PacketUpdate} (hbytes : Safe p.bytes.toInt)
    (htimestamp : Safe p.timestamp.toInt) (hlatency : Safe p.latencyMs.toInt) :
    readPacket (camelize L (writePacket N p)) = some p := by
  have hcamelized : camelize L (writePacket N p) =
      .object [("process", .string p.process), ("localAddress", .string p.localAddress),
        ("remoteAddress", .string p.remoteAddress), ("protocol", .string p.protocol),
        ("bytes", .number (N.number p.bytes.toInt)), ("outbound", .bool p.outbound),
        ("timestamp", .number (N.number p.timestamp.toInt)),
        ("latencyMs", .number (N.number p.latencyMs.toInt))] :=
    camelize_record L (by simp [isRecord, startsAscii, isScalar])
  rw [hcamelized, N.number_safe _ hbytes, N.number_safe _ htimestamp, N.number_safe _ hlatency]
  simp [readPacket, text, flag, number, integer, valueAt]

theorem readProcess_writeProcess {u : ProcessBandwidthUpdate} (hbytes : Safe u.bytesPerSecond)
    (hpackets : Safe u.packetsPerSecond) (htimestamp : Safe u.timestamp) :
    readProcess (camelize L (writeProcess N u)) = some u := by
  have hcamelized : camelize L (writeProcess N u) =
      .object [("process", .string u.process),
        ("bytesPerSecond", .number (N.number u.bytesPerSecond)),
        ("packetsPerSecond", .number (N.number u.packetsPerSecond)),
        ("protocol", .string u.protocol), ("timestamp", .number (N.number u.timestamp)),
        ("tier", .string u.tier)] :=
    camelize_record L (by simp [isRecord, startsAscii, isScalar])
  rw [hcamelized, N.number_safe _ hbytes, N.number_safe _ hpackets, N.number_safe _ htimestamp]
  simp [readProcess, text, number, integer, valueAt]

theorem readAnomaly_writeAnomaly {a : SuspiciousOutboundConnection}
    (htimestamp : Safe a.timestamp) :
    readAnomaly (camelize L (writeAnomaly N a)) = some a := by
  have hcamelized : camelize L (writeAnomaly N a) =
      .object [("process", .string a.process), ("remoteAddress", .string a.remoteAddress),
        ("reason", .string a.reason), ("severity", .string a.severity),
        ("score", .number a.score), ("timestamp", .number (N.number a.timestamp))] :=
    camelize_record L (by simp [isRecord, startsAscii, isScalar])
  rw [hcamelized, N.number_safe _ htimestamp]
  simp [readAnomaly, text, number, integer, valueAt]

theorem readHealth_writeHealth (h : SystemHealthData) :
    readHealth (camelize L (writeHealth h)) = some h := by
  have hcamelized : camelize L (writeHealth h) =
      .object [("grpcConnected", .bool h.grpcConnected),
        ("packetsPerSecond", .number h.packetsPerSecond),
        ("avgLatencyMs", .number h.avgLatencyMs), ("maxLatencyMs", .number h.maxLatencyMs),
        ("uptime", .string h.uptime)] :=
    camelize_record L (by simp [isRecord, startsAscii, isScalar])
  rw [hcamelized]
  simp [readHealth, text, flag, number, valueAt]

theorem readPackets_writePackets {packets : List PacketUpdate}
    (h : SafeMessage (.receivePackets packets)) :
    (renameItems (camelizeKey L) (packets.map (writePacket N))).mapM readPacket = some packets := by
  rw [renameItems_eq_map]
  induction packets with
  | nil => rfl
  | cons p packets ih =>
    obtain ⟨hbytes, htimestamp, hlatency⟩ := h p List.mem_cons_self
    have hp := readPacket_writePacket L N hbytes htimestamp hlatency
    rw [camelize] at hp
    rw [List.map_cons, List.map_cons, List.mapM_cons, hp,
      ih fun q hq => h q (List.mem_cons_of_mem p hq)]
    rfl

/-- Every message of the hub reaches its handler as it was sent. -/
theorem receive_send {message : HubMessage} (h : SafeMessage message) :
    receive L (send N message) = some message := by
  cases message with
  | receivePackets packets =>
    simp only [send, receive, camelize, rename, readPackets_writePackets L N h, Option.map_some]
  | receiveProcessStats process =>
    obtain ⟨hbytes, hpackets, htimestamp⟩ := h
    simp only [send, receive, readProcess_writeProcess L N hbytes hpackets htimestamp,
      Option.map_some]
  | receiveAnomaly anomaly =>
    simp only [send, receive, readAnomaly_writeAnomaly L N h, Option.map_some]
  | receiveHealth health => simp only [send, receive, readHealth_writeHealth, Option.map_some]

/-- What a handler does with its argument. -/
def handle (store : AetherState) (raw : String × Value) : AetherState :=
  match receive L raw with
  | some message => (callback message).write store
  | none => store

theorem foldl_handle (store : AetherState) {messages : List HubMessage}
    (h : ∀ message ∈ messages, SafeMessage message) :
    (messages.map (send N)).foldl (handle L) store = replay store messages := by
  induction messages generalizing store with
  | nil => rfl
  | cons message messages ih =>
    rw [List.map_cons, List.foldl_cons, handle, receive_send L N (h message List.mem_cons_self),
      ih _ fun other hother => h other (List.mem_cons_of_mem message hother)]
    rfl

/-- A dashboard that opens empty shows, after any sequence of messages over the wire, of
each kind of record the newest that were sent, as many as its view holds. -/
theorem wire_shows_newest {messages : List HubMessage}
    (h : ∀ message ∈ messages, SafeMessage message) :
    (messages.map (send N)).foldl (handle L) .empty = view .empty messages := by
  rw [foldl_handle L N _ h, replay_eq_view valid_empty]

def exactNumbers : Numbers := ⟨fun n => n, fun _ _ => rfl⟩

/-- A batch of two packets, and the first word of a process. -/
def firstMessages : List HubMessage :=
  [.receivePackets [packetAt 2, packetAt 1],
    .receiveProcessStats ⟨"chrome.exe", 60, 1, "TCP", 2, "LOW"⟩]

theorem wire_shows_newest_first :
    (firstMessages.map (send exactNumbers)).foldl (handle asciiLowercase) .empty =
      view .empty firstMessages := by
  apply wire_shows_newest asciiLowercase exactNumbers
  intro message hmessage
  rcases List.mem_cons.mp hmessage with rfl | hrest
  · simp [SafeMessage, Safe, packetAt]
  · obtain rfl := List.mem_singleton.mp hrest
    simp [SafeMessage, Safe]

end AetherLens.HubWire
