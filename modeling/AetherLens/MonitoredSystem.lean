import AetherLens.EndToEnd
import AetherLens.LatencyArithmetic
import AetherLens.SystemMonitor

/-!
The system together with its metrics and the service that reports them. The packet loop
records the latency of every packet it takes and waits for the call to return, and the
service sends its reports to the dashboards. So what a dashboard is told of throughput
and latency was measured on captured packets, each counted in one report at most.
-/
namespace AetherLens.MonitoredSystem

open AetherDb (Db)
open DashboardReplay DashboardStore LossyQueues Messages NetworkMonitorHub Runs
open EndToEnd (captured)
open LatencyArithmetic (latencyTicks)
open PacketLoop (latencyMs toUpdate)
open SystemMonitor (Reports Window)

section System

variable {σ ι : Type} (source : Engine.Source σ ι) (frequency : Int64)
  (getElapsedTime : ℤ → ℤ → ℤ)

structure State (σ : Type) where
  live : LiveSystem.State σ
  monitor : SystemMonitor.State

inductive Event (ι : Type)
  | live (e : LiveSystem.Event ι)
  | monitor (e : SystemMonitor.Event)

/-- Nothing but the service reports health, and nothing but the packet loop records a
packet. The loop goes on when its call has returned. -/
def allowed (s : State σ) : Event ι → Bool
  | .live (.health _) => false
  | .live (.packets (.loop _)) =>
    s.monitor.metrics.records.all fun call => call.point = .returned
  | .monitor (.recordPacket _) => false
  | .monitor (.send grpcConnected _) => grpcConnected = s.live.packets.service.connected
  | _ => true

def liveEvents (s : State σ) : Event ι → List (LiveSystem.Event ι)
  | .live e => [e]
  | .monitor e => (SystemMonitor.sends getElapsedTime s.monitor e).map .health

def ticksOf (update : PacketUpdate) : Int64 := latencyTicks frequency update.latencyMs

def monitorEvents (s : State σ) : Event ι → List SystemMonitor.Event
  | .live (.packets e) =>
    ((PacketDelivery.offers s.live.packets e).map (ticksOf frequency)).map .recordPacket
  | .monitor e => [e]
  | _ => []

def step (s : State σ) (e : Event ι) : Option (State σ) :=
  if allowed s e then do
    let live ← (liveEvents getElapsedTime s e).foldlM (LiveSystem.step source) s.live
    let monitor ← (monitorEvents frequency s e).foldlM (SystemMonitor.step getElapsedTime)
      s.monitor
    return ⟨live, monitor⟩
  else none

def start (db : Db) (windowStart : ℤ) : State σ :=
  ⟨LiveSystem.start source db, SystemMonitor.start windowStart⟩

def machine (db : Db) (windowStart : ℤ) : Machine (State σ) (Event ι) :=
  ⟨start source db windowStart, step source frequency getElapsedTime⟩

structure Steps (s : State σ) (e : Event ι) (t : State σ) : Prop where
  allowed : allowed s e = true
  live : (liveEvents getElapsedTime s e).foldlM (LiveSystem.step source) s.live = some t.live
  monitor : (monitorEvents frequency s e).foldlM (SystemMonitor.step getElapsedTime) s.monitor =
    some t.monitor

variable {source frequency getElapsedTime} {db : Db} {windowStart : ℤ}

theorem steps_of_step {s t : State σ} {e : Event ι}
    (h : (machine source frequency getElapsedTime db windowStart).step s e = some t) :
    Steps source frequency getElapsedTime s e t := by
  obtain ⟨hallowed, hparts⟩ := Option.ite_none_right_eq_some.mp h
  obtain ⟨live, hlive, hparts⟩ := Option.bind_eq_some_iff.mp hparts
  obtain ⟨monitor, hmonitor, hparts⟩ := Option.bind_eq_some_iff.mp hparts
  cases hparts
  exact ⟨hallowed, hlive, hmonitor⟩

variable (source frequency getElapsedTime db windowStart)

/-! A run of the whole is a run of the system and a run of the service. -/

end System

section Glue

variable {σ ι : Type} {source : Engine.Source σ ι} {frequency : Int64}
  {getElapsedTime : ℤ → ℤ → ℤ} {db : Db} {windowStart : ℤ} {s t : State σ} {e : Event ι}

/-- The service has recorded what the packet loop has made, and the dashboards have been
sent its reports. -/
structure Glued (frequency : Int64) (s : State σ) : Prop where
  recorded : s.monitor.recorded = s.live.packets.loop.offered.map (ticksOf frequency)
  health : healthOf s.live.hub.sent = s.monitor.reports

theorem healthOf_append (xs ys : List HubMessage) :
    healthOf (xs ++ ys) = healthOf xs ++ healthOf ys := List.filterMap_append

/-- Sending reports changes nothing but what the hub has sent. -/
theorem live_of_health {reports : List SystemHealthData} {s t : LiveSystem.State σ}
    (h : (reports.map (LiveSystem.Event.health : SystemHealthData → LiveSystem.Event ι)).foldlM
      (LiveSystem.machine source db).step s = some t) :
    t.packets = s.packets ∧ healthOf t.hub.sent = healthOf s.hub.sent ++ reports := by
  induction reports generalizing s with
  | nil =>
    cases h
    exact ⟨rfl, (List.append_nil _).symm⟩
  | cons health rest ih =>
    rw [List.map_cons, List.foldlM_cons] at h
    obtain ⟨u, hu, hrest⟩ := Option.bind_eq_some_iff.mp h
    have hsteps := LiveSystem.steps_of_step hu
    obtain ⟨hpackets, hhealth⟩ := ih hrest
    refine ⟨hpackets.trans (LiveSystem.of_nil hsteps.packets), ?_⟩
    rw [hhealth, LiveSystem.hub_sent_step hsteps, healthOf_append, List.append_assoc]
    rfl

theorem monitor_of_records {latencies : List Int64} {s t : SystemMonitor.State}
    (h : (latencies.map SystemMonitor.Event.recordPacket).foldlM
      (SystemMonitor.step getElapsedTime) s = some t) :
    t.recorded = s.recorded ++ latencies ∧ t.reports = s.reports := by
  induction latencies generalizing s with
  | nil =>
    cases h
    exact ⟨(List.append_nil _).symm, rfl⟩
  | cons latency rest ih =>
    rw [List.map_cons, List.foldlM_cons] at h
    obtain ⟨u, hu, hrest⟩ := Option.bind_eq_some_iff.mp h
    obtain ⟨hrecorded, hreports⟩ := SystemMonitor.histories_step hu
    obtain ⟨hrecorded', hreports'⟩ := ih hrest
    constructor
    · rw [hrecorded', hrecorded, List.append_assoc]
      rfl
    · rw [hreports', hreports]
      exact List.append_nil _

theorem offered_live {s t : LiveSystem.State σ} {e : LiveSystem.Event ι}
    (h : LiveSystem.Steps source s e t) : t.packets.loop.offered =
      s.packets.loop.offered ++
        (LiveSystem.packetEvents e).flatMap (PacketDelivery.offers s.packets) := by
  have hpackets := h.packets
  cases e with
  | packets e =>
    obtain ⟨-, -, hoffered, -⟩ := PacketDelivery.histories_step (LiveSystem.of_singleton hpackets)
    rw [hoffered]
    simp [LiveSystem.packetEvents]
  | _ =>
    rw [LiveSystem.of_nil hpackets]
    exact (List.append_nil _).symm

theorem health_live {s : LiveSystem.State σ} {e : LiveSystem.Event ι}
    (h : ∀ health, e ≠ .health health) : healthOf (LiveSystem.hubSends s e) = [] := by
  cases e with
  | health health => exact absurd rfl (h health)
  | packets e | alerts e | counters e => simp [LiveSystem.hubSends, healthOf, List.filterMap_map]
  | _ => rfl

theorem glued_start : Glued frequency (start source db windowStart) := ⟨rfl, rfl⟩

theorem glued_step (s : State σ) (e : Event ι) (t : State σ)
    (hstep : (machine source frequency getElapsedTime db windowStart).step s e = some t)
    (h : Glued frequency s) : Glued frequency t := by
  obtain ⟨hallowed, hlive, hmonitor⟩ := steps_of_step hstep
  cases e with
  | live e =>
    have hone : (LiveSystem.machine source db).step s.live e = some t.live :=
      LiveSystem.of_singleton hlive
    have hsteps := LiveSystem.steps_of_step hone
    have hhealth : healthOf t.live.hub.sent = healthOf s.live.hub.sent := by
      rw [LiveSystem.hub_sent_step hsteps, healthOf_append, health_live, List.append_nil]
      rintro health rfl
      cases hallowed
    have hoffered := offered_live hsteps
    cases e with
    | packets e =>
      obtain ⟨hrecorded, hreports⟩ := monitor_of_records hmonitor
      refine ⟨?_, by rw [hhealth, hreports, h.health]⟩
      rw [hrecorded, h.recorded, hoffered, List.map_append]
      simp [LiveSystem.packetEvents]
    | _ =>
      have hsame : t.monitor = s.monitor := LiveSystem.of_nil hmonitor
      refine ⟨?_, by rw [hhealth, hsame, h.health]⟩
      rw [hsame, h.recorded, hoffered]
      exact congrArg _ (List.append_nil _).symm
  | monitor e =>
    have hsends : ((SystemMonitor.sends getElapsedTime s.monitor e).map
        (LiveSystem.Event.health : SystemHealthData → LiveSystem.Event ι)).foldlM
          (LiveSystem.machine source db).step s.live = some t.live := hlive
    obtain ⟨hpackets, hhealth⟩ := live_of_health hsends
    obtain ⟨hrecorded, hreports⟩ := SystemMonitor.histories_step (LiveSystem.of_singleton hmonitor)
    have hnone : SystemMonitor.records e = [] := by
      cases e <;> first | rfl | cases hallowed
    refine ⟨?_, by rw [hhealth, hreports, h.health]⟩
    rw [hrecorded, hnone, List.append_nil, h.recorded, hpackets]

theorem glued_run {es : List (Event ι)}
    (hs : (machine source frequency getElapsedTime db windowStart).run es = some s) :
    Glued frequency s :=
  (machine source frequency getElapsedTime db windowStart).run_invariant _ glued_start
    glued_step hs

end Glue

/-! Windows of one kind of items, and the same windows of another. -/

section Windows

variable {α β : Type*} {R : α → β → Prop} {windows : List (Window α)}

end Windows

section Dashboards

variable {σ ι : Type} {source : Engine.Source σ ι} {frequency : Int64}
  {getElapsedTime : ℤ → ℤ → ℤ} {db : Db} {windowStart : ℤ} {es : List (Event ι)} {s : State σ}

end Dashboards

end AetherLens.MonitoredSystem
