import AetherLens.DashboardStore
import AetherLens.Runs
import Mathlib.Data.List.Chain

/-!
The live console: its subscriptions to the store and the lines they add. A setter of
the store makes the field it sets a new value, so every `addPackets` call runs the
packet subscription, which looks at the first packet of the list only. The store keeps
a batch oldest first, and the console skips a packet that has the time of the last one
it looked at.
-/
namespace AetherLens.LiveConsole

open Runs Messages DashboardStore

inductive Level
  | info
  | warn
  | error
  | debug
deriving DecidableEq, Repr

structure LogEntry where
  id : String
  timestamp : String
  level : Level
  message : String
deriving DecidableEq, Repr

/-- The random id and the local time of an entry. -/
structure Stamp where
  id : String
  timestamp : String
deriving DecidableEq, Repr

/-- `written` is history: every entry ever added, in order. -/
structure Console where
  lastPacketRef : Int64
  logs : List LogEntry
  written : List LogEntry
deriving DecidableEq, Repr

def maxLogs : ℕ := 50

/-- The last `maxLogs` entries. -/
def lastLogs (next : List LogEntry) : List LogEntry :=
  if maxLogs < next.length then next.drop (next.length - maxLogs) else next

def entry (stamp : Stamp) (level : Level) (message : String) : LogEntry :=
  ⟨stamp.id, stamp.timestamp, level, message⟩

/-- An empty string is falsy, and no received packet has the capitalised keys. -/
def orUnknown (address : String) : String := if address = "" then "Unknown" else address

def packetMessage (latest : PacketUpdate) : String :=
  "[PACKET] " ++ latest.protocol ++ " " ++ orUnknown latest.localAddress ++ " -> " ++
    orUnknown latest.remoteAddress ++ " (" ++ toString latest.bytes ++ "b)"

def anomalyMessage (latest : SuspiciousOutboundConnection) : String :=
  "[ANOMALY] " ++ latest.reason ++ " detected for " ++ latest.process

def connectionMessage (connected : Bool) : String :=
  "[SIGNALR] Connection " ++ if connected then "established" else "lost"

namespace Console

def addLog (stamp : Stamp) (level : Level) (message : String) (c : Console) : Console :=
  { c with
    logs := lastLogs (c.logs ++ [entry stamp level message])
    written := c.written ++ [entry stamp level message] }

def onPackets (stamp : Stamp) (packets : List PacketUpdate) (c : Console) : Console :=
  match packets with
  | [] => c
  | latest :: _ =>
    if latest.timestamp = c.lastPacketRef then c
    else addLog stamp .info (packetMessage latest) { c with lastPacketRef := latest.timestamp }

def onAnomalies (stamp : Stamp) (anomalies : List SuspiciousOutboundConnection) (c : Console) :
    Console :=
  match anomalies with
  | [] => c
  | latest :: _ => addLog stamp .warn (anomalyMessage latest) c

def onConnected (stamp : Stamp) (connected : Bool) (c : Console) : Console :=
  addLog stamp (if connected then .info else .error) (connectionMessage connected) c

end Console

structure State where
  store : AetherState
  console : Console
deriving DecidableEq, Repr

/-- The setters of the store, with the stamp of the line they may cause. -/
inductive Event
  | addPackets (packets : List PacketUpdate) (stamp : Stamp)
  | upsertProcess (process : ProcessBandwidthUpdate)
  | addAnomaly (a : SuspiciousOutboundConnection) (stamp : Stamp)
  | setHealth (health : SystemHealthData)
  | setConnected (connected : Bool) (stamp : Stamp)
deriving DecidableEq, Repr

/-- A setter and the subscription to its field. The subscription to `health` logs
nothing, and the one to `connected` runs only when the value changes. -/
def step (s : State) : Event → State
  | .addPackets packets stamp =>
    ⟨s.store.addPackets packets,
      s.console.onPackets stamp (s.store.addPackets packets).packets⟩
  | .upsertProcess process => { s with store := s.store.upsertProcess process }
  | .addAnomaly a stamp =>
    ⟨s.store.addAnomaly a, s.console.onAnomalies stamp (s.store.addAnomaly a).anomalies⟩
  | .setHealth health => { s with store := s.store.setHealth health }
  | .setConnected connected stamp =>
    ⟨s.store.setConnected connected,
      if connected = s.store.connected then s.console
      else s.console.onConnected stamp connected⟩

def machine : Machine State Event where
  start := ⟨.empty, ⟨0, [], []⟩⟩
  step s e := some (step s e)

/-- The line for the packet received last, and no other, is added in this step. -/
def ShowsNewest (s : State) : Event → Prop
  | .addPackets packets stamp => ∀ newest ∈ packets.getLast?,
    (step s (.addPackets packets stamp)).console.written =
      s.console.written ++ [entry stamp .info (packetMessage newest)]
  | _ => True

instance (s : State) : (e : Event) → Decidable (ShowsNewest s e)
  | .addPackets packets stamp => inferInstanceAs (Decidable (∀ newest ∈ packets.getLast?,
      (step s (.addPackets packets stamp)).console.written =
        s.console.written ++ [entry stamp .info (packetMessage newest)]))
  | .upsertProcess _ => inferInstanceAs (Decidable True)
  | .addAnomaly _ _ => inferInstanceAs (Decidable True)
  | .setHealth _ => inferInstanceAs (Decidable True)
  | .setConnected _ _ => inferInstanceAs (Decidable True)

def batches (es : List Event) : List (List PacketUpdate) :=
  es.filterMap fun e =>
    match e with
    | .addPackets packets _ => some packets
    | _ => none

/-- The times of the packets that stand first in their batch. -/
def firstTimes (batches : List (List PacketUpdate)) : List Int64 :=
  batches.filterMap fun packets => packets.head?.map PacketUpdate.timestamp

/-- No batch starts at the time at which the one before it started, the first one not at
0, and the first packet of a batch reads like its last. -/
def Distinguishable (batches : List (List PacketUpdate)) : Prop :=
  (0 :: firstTimes batches).IsChain (· ≠ ·) ∧
    ∀ packets ∈ batches, packets.head?.map packetMessage = packets.getLast?.map packetMessage

section Subscription

variable (stamp : Stamp) (c : Console) (latest : PacketUpdate) (rest : List PacketUpdate)

theorem lastPacketRef_onPackets :
    (c.onPackets stamp (latest :: rest)).lastPacketRef = latest.timestamp := by
  unfold Console.onPackets
  by_cases h : latest.timestamp = c.lastPacketRef
  · simp [h]
  · simp [h, Console.addLog]

theorem written_onPackets :
    (c.onPackets stamp (latest :: rest)).written =
      c.written ++ if latest.timestamp = c.lastPacketRef then []
        else [entry stamp .info (packetMessage latest)] := by
  unfold Console.onPackets
  by_cases h : latest.timestamp = c.lastPacketRef
  · simp [h]
  · simp [h, Console.addLog]

end Subscription

theorem lastPacketRef_onAnomalies (stamp : Stamp)
    (anomalies : List SuspiciousOutboundConnection) (c : Console) :
    (c.onAnomalies stamp anomalies).lastPacketRef = c.lastPacketRef := by
  cases anomalies <;> rfl

/-- A batch that is not empty comes in front of all others. -/
theorem packets_addPackets_cons (store : AetherState) (first : PacketUpdate)
    (more : List PacketUpdate) :
    (store.addPackets (first :: more)).packets =
      first :: (more ++ store.packets).take (maxPackets - 1) := rfl

theorem showsNewest_iff (s : State) (stamp : Stamp) {first newest : PacketUpdate}
    {more : List PacketUpdate} (hnewest : (first :: more).getLast? = some newest) :
    ShowsNewest s (.addPackets (first :: more) stamp) ↔
      first.timestamp ≠ s.console.lastPacketRef ∧ packetMessage first = packetMessage newest := by
  unfold ShowsNewest
  simp only [step, packets_addPackets_cons, written_onPackets, hnewest, Option.mem_def,
    Option.some.injEq, forall_eq', List.append_cancel_left_eq]
  by_cases hsame : first.timestamp = s.console.lastPacketRef
  · simp [hsame]
  · simp [hsame, entry]

theorem batches_snoc (es : List Event) (e : Event) :
    batches (es ++ [e]) = batches es ++ batches [e] := List.filterMap_append

theorem firstTimes_snoc_cons (bs : List (List PacketUpdate)) (first : PacketUpdate)
    (more : List PacketUpdate) :
    firstTimes (bs ++ [first :: more]) = firstTimes bs ++ [first.timestamp] := by
  simp [firstTimes, List.filterMap_append]

theorem firstTimes_snoc_nil (bs : List (List PacketUpdate)) :
    firstTimes (bs ++ [[]]) = firstTimes bs := by
  simp [firstTimes, List.filterMap_append]

theorem distinguishable_snoc_nil (bs : List (List PacketUpdate)) :
    Distinguishable (bs ++ [[]]) ↔ Distinguishable bs := by
  unfold Distinguishable
  rw [firstTimes_snoc_nil, List.forall_mem_append]
  simp

theorem distinguishable_snoc_cons {bs : List (List PacketUpdate)} {shown : Int64}
    (hshown : (0 :: firstTimes bs).getLast? = some shown) {first newest : PacketUpdate}
    {more : List PacketUpdate} (hnewest : (first :: more).getLast? = some newest) :
    Distinguishable (bs ++ [first :: more]) ↔
      Distinguishable bs ∧ first.timestamp ≠ shown ∧
        packetMessage first = packetMessage newest := by
  have hchain : (0 :: firstTimes (bs ++ [first :: more])).IsChain (· ≠ ·) ↔
      (0 :: firstTimes bs).IsChain (· ≠ ·) ∧ first.timestamp ≠ shown := by
    rw [firstTimes_snoc_cons, ← List.cons_append, List.isChain_append, hshown]
    simp [ne_comm]
  have htext : (∀ packets ∈ bs ++ [first :: more],
      packets.head?.map packetMessage = packets.getLast?.map packetMessage) ↔
      (∀ packets ∈ bs,
        packets.head?.map packetMessage = packets.getLast?.map packetMessage) ∧
        packetMessage first = packetMessage newest := by
    rw [List.forall_mem_append, List.forall_mem_singleton, hnewest]
    simp
  unfold Distinguishable
  rw [hchain, htext]
  constructor
  · rintro ⟨⟨htimes, hne⟩, hall, heq⟩
    exact ⟨⟨htimes, hall⟩, hne, heq⟩
  · rintro ⟨⟨htimes, hall⟩, hne, heq⟩
    exact ⟨⟨htimes, hne⟩, hall, heq⟩

/-- What the console compares with is the time of the packet in front of the store. -/
structure Inv (es : List Event) (s : State) : Prop where
  front : ∀ latest ∈ s.store.packets.head?, latest.timestamp = s.console.lastPacketRef
  shown : (0 :: firstTimes (batches es)).getLast? = some s.console.lastPacketRef

/-- Everything but a batch that is not empty leaves the front packet and the compared
time alone. -/
theorem Inv.frame {es : List Event} {s t : State} {e : Event} (h : Inv es s)
    (htimes : firstTimes (batches (es ++ [e])) = firstTimes (batches es))
    (hstore : t.store.packets.head? = s.store.packets.head?)
    (hlast : t.console.lastPacketRef = s.console.lastPacketRef) : Inv (es ++ [e]) t where
  front := by
    rw [hstore, hlast]
    exact h.front
  shown := by
    rw [htimes, hlast]
    exact h.shown

/-- An empty batch shows the console the packet that it has already looked at. -/
theorem Inv.addPackets_nil {es : List Event} {s : State} (h : Inv es s) (stamp : Stamp) :
    Inv (es ++ [.addPackets [] stamp]) (step s (.addPackets [] stamp)) := by
  have htimes : firstTimes (batches (es ++ [.addPackets [] stamp])) = firstTimes (batches es) := by
    rw [batches_snoc]
    exact firstTimes_snoc_nil _
  have hpackets : (s.store.addPackets []).packets = s.store.packets.take maxPackets := rfl
  have hhead : (s.store.addPackets []).packets.head? = s.store.packets.head? := by
    rw [hpackets]
    cases s.store.packets <;> rfl
  refine h.frame htimes hhead ?_
  cases hfront : (s.store.addPackets []).packets with
  | nil => simp only [step, hfront, Console.onPackets]
  | cons latest rest =>
    have hlatest : latest ∈ s.store.packets.head? := by
      rw [← hhead, hfront]
      rfl
    simp only [step, hfront, lastPacketRef_onPackets]
    exact h.front latest hlatest

theorem Inv.addPackets_cons {es : List Event} {s : State} (stamp : Stamp)
    (first : PacketUpdate) (more : List PacketUpdate) :
    Inv (es ++ [.addPackets (first :: more) stamp])
      (step s (.addPackets (first :: more) stamp)) := by
  have hlast : (step s (.addPackets (first :: more) stamp)).console.lastPacketRef =
      first.timestamp := by
    simp only [step, packets_addPackets_cons, lastPacketRef_onPackets]
  refine ⟨?_, ?_⟩
  · rw [hlast]
    intro latest hlatest
    cases hlatest
    rfl
  · rw [hlast, batches_snoc]
    change (0 :: firstTimes (batches es ++ [first :: more])).getLast? = _
    rw [firstTimes_snoc_cons, ← List.cons_append, List.getLast?_concat]

theorem inv_step {es : List Event} {s : State} (e : Event) (h : Inv es s) :
    Inv (es ++ [e]) (step s e) := by
  have hother : batches [e] = [] → firstTimes (batches (es ++ [e])) = firstTimes (batches es) := by
    intro he
    rw [batches_snoc, he, List.append_nil]
  cases e with
  | addPackets packets stamp =>
    cases packets with
    | nil => exact h.addPackets_nil stamp
    | cons first more => exact Inv.addPackets_cons stamp first more
  | upsertProcess process => exact h.frame (hother rfl) rfl rfl
  | addAnomaly a stamp => exact h.frame (hother rfl) rfl (lastPacketRef_onAnomalies _ _ _)
  | setHealth health => exact h.frame (hother rfl) rfl rfl
  | setConnected connected stamp =>
    refine h.frame (hother rfl) rfl ?_
    simp only [step]
    split <;> rfl

/-- The step of a batch adds the right line exactly when it keeps the batches
distinguishable. -/
theorem distinguishable_snoc {es : List Event} {s : State} (e : Event) (h : Inv es s) :
    Distinguishable (batches (es ++ [e])) ↔
      Distinguishable (batches es) ∧ ShowsNewest s e := by
  rw [batches_snoc]
  cases e with
  | addPackets packets stamp =>
    cases packets with
    | nil =>
      change Distinguishable (batches es ++ [[]]) ↔ _
      rw [distinguishable_snoc_nil]
      exact (and_iff_left (by simp [ShowsNewest])).symm
    | cons first more =>
      obtain ⟨newest, hnewest⟩ : ∃ newest, (first :: more).getLast? = some newest :=
        ⟨_, List.getLast?_cons⟩
      change Distinguishable (batches es ++ [first :: more]) ↔ _
      rw [distinguishable_snoc_cons h.shown hnewest, showsNewest_iff s stamp hnewest]
  | upsertProcess process => simp [batches, ShowsNewest]
  | addAnomaly a stamp => simp [batches, ShowsNewest]
  | setHealth health => simp [batches, ShowsNewest]
  | setConnected connected stamp => simp [batches, ShowsNewest]

theorem inv_run : ∀ es s, machine.run es = some s → Inv es s := by
  apply machine.run_induction Inv
  · refine ⟨?_, rfl⟩
    intro latest hlatest
    cases hlatest
  · intro es s e t _ hstep h
    cases hstep
    exact inv_step e h

theorem lastLogs_eq_drop (entries : List LogEntry) :
    lastLogs entries = entries.drop (entries.length - maxLogs) := by
  unfold lastLogs
  split
  next => rfl
  next hfits => rw [Nat.sub_eq_zero_of_le (Nat.not_lt.mp hfits), List.drop_zero]

/-- Cutting the entries before the next one comes makes no difference. -/
theorem lastLogs_append (entries : List LogEntry) (newLog : LogEntry) :
    lastLogs (lastLogs entries ++ [newLog]) = lastLogs (entries ++ [newLog]) := by
  have hpos : 0 < maxLogs := by decide
  rw [lastLogs_eq_drop, lastLogs_eq_drop, lastLogs_eq_drop, List.length_append, List.length_append,
    List.length_drop, List.length_singleton,
    List.drop_append_of_le_length (by rw [List.length_drop]; omega),
    List.drop_append_of_le_length (by omega), List.drop_drop]
  congr 2
  omega

/-- The console shows the last 50 entries ever added. -/
def Console.ShowsLast (c : Console) : Prop := c.logs = lastLogs c.written

theorem Console.ShowsLast.addLog {c : Console} (h : c.ShowsLast) (stamp : Stamp) (level : Level)
    (message : String) : (c.addLog stamp level message).ShowsLast := by
  change lastLogs (c.logs ++ [_]) = lastLogs (c.written ++ [_])
  rw [h, lastLogs_append]

/-- Every call adds the line of its newest packet in exactly the sequences whose batches
never start at the same time twice in a row and read alike at both ends. -/
theorem showsNewest_run_iff (es : List Event) :
    machine.Meets ShowsNewest es ↔ Distinguishable (batches es) := by
  obtain ⟨s, hs⟩ := machine.exists_run (fun _ _ => ⟨_, rfl⟩) es
  revert hs
  refine machine.run_induction
    (fun es _ => machine.Meets ShowsNewest es ↔ Distinguishable (batches es)) ?_ ?_ es s
  · exact iff_of_true (machine.meets_nil _) ⟨List.isChain_singleton 0, by simp [batches]⟩
  · intro es s e t hs _ ih
    rw [machine.meets_snoc hs, ih, distinguishable_snoc e (inv_run es s hs)]

def stamp : Stamp := ⟨"id", "12:00:00.000"⟩

def tcpPacket (timestamp : Int64) : PacketUpdate :=
  ⟨"curl.exe", "10.0.0.5:40000", "1.1.1.1:443", "TCP", 64, true, timestamp, 0⟩

def udpPacket (timestamp : Int64) : PacketUpdate :=
  ⟨"dns.exe", "10.0.0.5:40001", "8.8.8.8:53", "UDP", 40, true, timestamp, 0⟩

/-- Of a batch of two packets the older one is shown, and of two batches of the same
millisecond only the first. -/
theorem newest_not_shown :
    ((machine.run [.addPackets [tcpPacket 1, udpPacket 2] stamp]).map
        (fun s => s.console.written) = some [entry stamp .info (packetMessage (tcpPacket 1))] ∧
      ¬ machine.Meets ShowsNewest [.addPackets [tcpPacket 1, udpPacket 2] stamp]) ∧
    ((machine.run [.addPackets [tcpPacket 1] stamp, .addPackets [udpPacket 1] stamp]).map
        (fun s => s.console.written) = some [entry stamp .info (packetMessage (tcpPacket 1))] ∧
      ¬ machine.Meets ShowsNewest
        [.addPackets [tcpPacket 1] stamp, .addPackets [udpPacket 1] stamp]) := by
  decide

end AetherLens.LiveConsole
