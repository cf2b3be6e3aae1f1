import AetherLens.AlertDelivery
import AetherLens.BandwidthCounters
import AetherLens.DashboardReplay
import AetherLens.Engine
import AetherLens.PersistenceWorker

/-!
The whole of it: the engine, the two ways to the hub, the database worker, the process
counters and the dashboards, in any interleaving. An event of the system is a sequence
of events of each part, so a run of the system is a run of every part, and what is
known of the parts carries over. What remains is that each part hands on what the next
one gets.
-/
namespace AetherLens.LiveSystem

open AetherDb (Db Row row)
open DashboardReplay DashboardStore LossyQueues Messages NetworkMonitorHub Runs

section System

variable {σ ι : Type} (source : Engine.Source σ ι)

structure State (σ : Type) where
  engine : Engine.State σ
  packets : PacketDelivery.State
  alerts : AlertDelivery.State
  worker : PersistenceWorker.State
  counters : BandwidthCounters.State
  hub : NetworkMonitorHub.State

inductive Event (ι : Type)
  | engine (e : Engine.Event ι)
  | packets (e : PacketDelivery.Event)
  | alerts (e : AlertDelivery.Event)
  | worker (e : PersistenceWorker.Event)
  | counters (e : BandwidthCounters.Event)
  | health (health : SystemHealthData)
  | hub (e : NetworkMonitorHub.Event)

/-- Items pass from part to part only as the next part takes them. -/
def allowed (s : State σ) : Event ι → Bool
  | .engine .receivePacket => false
  | .engine .receiveAlert => false
  | .packets (.receive p) => s.engine.packets.items.head? = some p
  | .alerts (.receive item) => s.engine.suspicious.items.head? = some item
  | .worker (.write _) => false
  | .counters (.addOrUpdate _) => false
  | .hub (.send _) => false
  | _ => true

def engineEvents : Event ι → List (Engine.Event ι)
  | .engine e => [e]
  | .packets (.receive _) => [.receivePacket]
  | .alerts (.receive _) => [.receiveAlert]
  | _ => []

def packetEvents : Event ι → List PacketDelivery.Event
  | .packets e => [e]
  | _ => []

def alertEvents : Event ι → List AlertDelivery.Event
  | .alerts e => [e]
  | _ => []

/-- The packet loop offers its updates to the worker's channel. -/
def workerEvents (s : State σ) : Event ι → List PersistenceWorker.Event
  | .worker e => [e]
  | .packets e => (PacketDelivery.offers s.packets e).map .write
  | _ => []

/-- The packet loop adds what it takes to the counters. -/
def counterEvents (s : State σ) : Event ι → List BandwidthCounters.Event
  | .counters e => [e]
  | .packets e => (PacketDelivery.takes s.packets e).map .addOrUpdate
  | _ => []

/-- What is sent to the dashboards. -/
def hubSends (s : State σ) : Event ι → List HubMessage
  | .packets e => (PacketDelivery.sends s.packets e).map .receivePackets
  | .alerts e => (AlertDelivery.sends s.alerts e).map .receiveAnomaly
  | .counters e => (BandwidthCounters.builds s.counters e).map .receiveProcessStats
  | .health health => [.receiveHealth health]
  | _ => []

def hubEvents (s : State σ) : Event ι → List NetworkMonitorHub.Event
  | .hub e => [e]
  | e => (hubSends s e).map .send

/-- The parts take their steps together. -/
def step (s : State σ) (e : Event ι) : Option (State σ) :=
  if allowed s e then do
    let engine ← (engineEvents e).foldlM (Engine.step source) s.engine
    let packets ← (packetEvents e).foldlM PacketDelivery.step s.packets
    let alerts ← (alertEvents e).foldlM AlertDelivery.step s.alerts
    let worker ← (workerEvents s e).foldlM PersistenceWorker.step s.worker
    let counters ← (counterEvents s e).foldlM BandwidthCounters.step s.counters
    let hub ← (hubEvents s e).foldlM NetworkMonitorHub.step s.hub
    return ⟨engine, packets, alerts, worker, counters, hub⟩
  else none

def start (db : Db) : State σ where
  engine := Engine.start source
  packets := PacketDelivery.start
  alerts := AlertDelivery.start
  worker := (PersistenceWorker.machine db).start
  counters := BandwidthCounters.machine.start
  hub := Groupcasts.start

/-- The system over a database that may already hold rows. -/
def machine (db : Db) : Machine (State σ) (Event ι) := ⟨start source db, step source⟩

/-- A step of the system, part by part. -/
structure Steps (s : State σ) (e : Event ι) (t : State σ) : Prop where
  allowed : allowed s e = true
  engine : (engineEvents e).foldlM (Engine.step source) s.engine = some t.engine
  packets : (packetEvents e).foldlM PacketDelivery.step s.packets = some t.packets
  alerts : (alertEvents e).foldlM AlertDelivery.step s.alerts = some t.alerts
  worker : (workerEvents s e).foldlM PersistenceWorker.step s.worker = some t.worker
  counters : (counterEvents s e).foldlM BandwidthCounters.step s.counters = some t.counters
  hub : (hubEvents s e).foldlM NetworkMonitorHub.step s.hub = some t.hub

variable {source} {db : Db}

theorem steps_of_step {s t : State σ} {e : Event ι}
    (h : (machine source db).step s e = some t) : Steps source s e t := by
  obtain ⟨hallowed, hparts⟩ := Option.ite_none_right_eq_some.mp h
  obtain ⟨engine, hengine, hparts⟩ := Option.bind_eq_some_iff.mp hparts
  obtain ⟨packets, hpackets, hparts⟩ := Option.bind_eq_some_iff.mp hparts
  obtain ⟨alerts, halerts, hparts⟩ := Option.bind_eq_some_iff.mp hparts
  obtain ⟨worker, hworker, hparts⟩ := Option.bind_eq_some_iff.mp hparts
  obtain ⟨counters, hcounters, hparts⟩ := Option.bind_eq_some_iff.mp hparts
  obtain ⟨hub, hhub, hparts⟩ := Option.bind_eq_some_iff.mp hparts
  cases hparts
  exact ⟨hallowed, hengine, hpackets, halerts, hworker, hcounters, hhub⟩

variable (source db)

/-! A run of the system is a run of each of its parts. -/

def engineOf : (machine source db).Simulation (Engine.machine source) where
  state := State.engine
  events _ e := engineEvents e
  start_eq := rfl
  step_eq _ _ _ h := (steps_of_step h).engine

def packetsOf : (machine source db).Simulation PacketDelivery.machine where
  state := State.packets
  events _ e := packetEvents e
  start_eq := rfl
  step_eq _ _ _ h := (steps_of_step h).packets

def alertsOf : (machine source db).Simulation AlertDelivery.machine where
  state := State.alerts
  events _ e := alertEvents e
  start_eq := rfl
  step_eq _ _ _ h := (steps_of_step h).alerts

def workerOf : (machine source db).Simulation (PersistenceWorker.machine db) where
  state := State.worker
  events := workerEvents
  start_eq := rfl
  step_eq _ _ _ h := (steps_of_step h).worker

def countersOf : (machine source db).Simulation BandwidthCounters.machine where
  state := State.counters
  events := counterEvents
  start_eq := rfl
  step_eq _ _ _ h := (steps_of_step h).counters

def hubOf : (machine source db).Simulation NetworkMonitorHub.machine where
  state := State.hub
  events := hubEvents
  start_eq := rfl
  step_eq _ _ _ h := (steps_of_step h).hub

end System

section Glue

variable {σ ι : Type} {source : Engine.Source σ ι} {db : Db} {s t : State σ} {e : Event ι}

/-- Each part has been given what the part before it gave. -/
structure Glued (s : State σ) : Prop where
  packets : s.packets.received = s.engine.packets.received
  alerts : s.alerts.received = s.engine.suspicious.received
  channel : PersistenceWorker.ChannelKept s.packets.loop.offered s.worker
  batches : batchesOf s.hub.sent = s.packets.loop.batches
  processes : processesOf s.hub.sent = s.counters.built
  anomalies : anomaliesOf s.hub.sent = s.alerts.consumer.sent

theorem of_singleton {α β : Type} {f : α → β → Option α} {x y : α} {b : β}
    (h : [b].foldlM f x = some y) : f x b = some y := by
  simpa using h

theorem of_nil {α β : Type} {f : α → β → Option α} {x y : α} (h : [].foldlM f x = some y) :
    y = x := by
  simpa using h.symm

/-- The engine gives the two tasks what the tasks receive. -/
theorem engine_gives_step (h : Steps source s e t) :
    t.engine.packets.received =
        s.engine.packets.received ++ (packetEvents e).flatMap PacketDelivery.receives ∧
      t.engine.suspicious.received =
        s.engine.suspicious.received ++ (alertEvents e).flatMap AlertDelivery.receives := by
  have hallowed := h.allowed
  have hengine := h.engine
  cases e with
  | engine e =>
    obtain ⟨hpackets, halerts⟩ := Engine.received_step (of_singleton hengine)
    rw [hpackets, halerts]
    cases e <;> simp_all [allowed, packetEvents, alertEvents, Engine.givesPacket,
      Engine.givesAlert]
  | packets e =>
    cases e with
    | receive p =>
      obtain ⟨hpackets, halerts⟩ := Engine.received_step (of_singleton hengine)
      have hhead : s.engine.packets.items.head? = some p := by simpa [allowed] using hallowed
      rw [hpackets, halerts]
      simp [packetEvents, alertEvents, PacketDelivery.receives, Engine.givesPacket,
        Engine.givesAlert, hhead]
    | _ =>
      rw [of_nil hengine]
      simp [packetEvents, alertEvents, PacketDelivery.receives]
  | alerts e =>
    cases e with
    | receive item =>
      obtain ⟨hpackets, halerts⟩ := Engine.received_step (of_singleton hengine)
      have hhead : s.engine.suspicious.items.head? = some item := by
        simpa [allowed] using hallowed
      rw [hpackets, halerts]
      simp [packetEvents, alertEvents, AlertDelivery.receives, Engine.givesPacket,
        Engine.givesAlert, hhead]
    | _ =>
      rw [of_nil hengine]
      simp [packetEvents, alertEvents, AlertDelivery.receives]
  | _ =>
    rw [of_nil hengine]
    simp [packetEvents, alertEvents]

theorem packets_received_step (h : Steps source s e t) : t.packets.received =
    s.packets.received ++ (packetEvents e).flatMap PacketDelivery.receives :=
  PacketDelivery.machine.foldlM_history PacketDelivery.State.received PacketDelivery.receives
    (fun _ _ _ hstep => (PacketDelivery.histories_step hstep).1) _ _ _ h.packets

theorem alerts_received_step (h : Steps source s e t) : t.alerts.received =
    s.alerts.received ++ (alertEvents e).flatMap AlertDelivery.receives :=
  AlertDelivery.machine.foldlM_history AlertDelivery.State.received AlertDelivery.receives
    (fun _ _ _ hstep => (AlertDelivery.ends_step hstep).1) _ _ _ h.alerts

/-- What the hub has been given grows by what the parts send. -/
theorem hub_sent_step (h : Steps source s e t) : t.hub.sent = s.hub.sent ++ hubSends s e := by
  have hsent := NetworkMonitorHub.machine.foldlM_history Groupcasts.State.sent
    NetworkMonitorHub.sends (fun _ _ _ hstep => NetworkMonitorHub.sent_step hstep) _ _ _ h.hub
  have hallowed := h.allowed
  rw [hsent]
  cases e with
  | hub e => cases e <;> simp_all [allowed, hubEvents, hubSends, NetworkMonitorHub.sends]
  | _ => exact congrArg (s.hub.sent ++ ·) (sends_map_send _)

theorem batchesOf_append (xs ys : List HubMessage) :
    batchesOf (xs ++ ys) = batchesOf xs ++ batchesOf ys := List.filterMap_append

theorem processesOf_append (xs ys : List HubMessage) :
    processesOf (xs ++ ys) = processesOf xs ++ processesOf ys := List.filterMap_append

theorem anomaliesOf_append (xs ys : List HubMessage) :
    anomaliesOf (xs ++ ys) = anomaliesOf xs ++ anomaliesOf ys := List.filterMap_append

theorem batches_step (h : Steps source s e t) :
    t.packets.loop.batches = s.packets.loop.batches ++ batchesOf (hubSends s e) := by
  have hpackets := h.packets
  cases e with
  | packets e =>
    obtain ⟨-, -, -, hbatches⟩ := PacketDelivery.histories_step (of_singleton hpackets)
    rw [hbatches]
    simp [hubSends, batchesOf, List.filterMap_map]
  | _ =>
    rw [of_nil hpackets]
    simp [hubSends, batchesOf, List.filterMap_map]

theorem processes_step (h : Steps source s e t) :
    t.counters.built = s.counters.built ++ processesOf (hubSends s e) := by
  have hcounters := h.counters
  cases e with
  | counters e =>
    rw [BandwidthCounters.built_step (of_singleton hcounters)]
    simp [hubSends, processesOf, List.filterMap_map]
  | packets e =>
    rw [BandwidthCounters.built_of_adds hcounters]
    simp [hubSends, processesOf, List.filterMap_map]
  | _ =>
    rw [of_nil hcounters]
    simp [hubSends, processesOf, List.filterMap_map]

theorem anomalies_step (h : Steps source s e t) :
    t.alerts.consumer.sent = s.alerts.consumer.sent ++ anomaliesOf (hubSends s e) := by
  have halerts := h.alerts
  cases e with
  | alerts e =>
    obtain ⟨-, hsent, -⟩ := AlertDelivery.ends_step (of_singleton halerts)
    rw [hsent]
    simp [hubSends, anomaliesOf, List.filterMap_map]
  | _ =>
    rw [of_nil halerts]
    simp [hubSends, anomaliesOf, List.filterMap_map]

theorem channel_step (h : Steps source s e t)
    (hkept : PersistenceWorker.ChannelKept s.packets.loop.offered s.worker) :
    PersistenceWorker.ChannelKept t.packets.loop.offered t.worker := by
  have hallowed := h.allowed
  have hpackets := h.packets
  have hworker := h.worker
  cases e with
  | packets e =>
    obtain ⟨-, -, hoffered, -⟩ := PacketDelivery.histories_step (of_singleton hpackets)
    rw [hoffered]
    exact hkept.writes hworker
  | worker e =>
    rw [of_nil hpackets]
    refine hkept.other (of_singleton hworker) ?_
    rintro item rfl
    cases hallowed
  | _ =>
    rw [of_nil hpackets, of_nil hworker]
    exact hkept

theorem glued_start : Glued (start source db) where
  packets := rfl
  alerts := rfl
  channel := ⟨List.Sublist.refl _, Nat.zero_le _⟩
  batches := rfl
  processes := rfl
  anomalies := rfl

theorem glued_step (s : State σ) (e : Event ι) (t : State σ)
    (hstep : (machine source db).step s e = some t) (h : Glued s) : Glued t := by
  have hsteps := steps_of_step hstep
  obtain ⟨hpackets, halerts⟩ := engine_gives_step hsteps
  refine ⟨?_, ?_, channel_step hsteps h.channel, ?_, ?_, ?_⟩
  · rw [packets_received_step hsteps, hpackets, h.packets]
  · rw [alerts_received_step hsteps, halerts, h.alerts]
  · rw [hub_sent_step hsteps, batchesOf_append, h.batches, batches_step hsteps]
  · rw [hub_sent_step hsteps, processesOf_append, h.processes, processes_step hsteps]
  · rw [hub_sent_step hsteps, anomaliesOf_append, h.anomalies, anomalies_step hsteps]

theorem glued_run {es : List (Event ι)} (hs : (machine source db).run es = some s) : Glued s :=
  (machine source db).run_invariant Glued glued_start glued_step hs

end Glue

end AetherLens.LiveSystem
