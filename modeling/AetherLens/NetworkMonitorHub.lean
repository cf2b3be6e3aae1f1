import AetherLens.DashboardStore
import AetherLens.Groupcasts

/-!
The hub that the dashboards are connected to. Everyone is added to three groups, one
after the other, in showcase mode. Packets, process statistics and alerts are sent to
the first group and the health of the server to the last; nothing is sent to the one in
between. A dashboard that has joined and stays connected misses nothing.
-/
namespace AetherLens.NetworkMonitorHub

open DashboardStore Groupcasts Messages Runs

inductive Group
  | network
  | networkPro
  | opsSeha
deriving DecidableEq, Repr

def Group.name : Group → String
  | .network => "network"
  | .networkPro => "network:pro"
  | .opsSeha => "ops-seha"

/-- The groups in the order in which `OnConnectedAsync` adds a connection to them. -/
def joinOrder : List Group := [.network, .networkPro, .opsSeha]

/-- What the services send, under the name of the handler that gets it. -/
inductive HubMessage
  | receivePackets (packets : List PacketUpdate)
  | receiveProcessStats (process : ProcessBandwidthUpdate)
  | receiveAnomaly (anomaly : SuspiciousOutboundConnection)
  | receiveHealth (health : SystemHealthData)
deriving DecidableEq, Repr

def HubMessage.group : HubMessage → Group
  | .receivePackets _ => .network
  | .receiveProcessStats _ => .network
  | .receiveAnomaly _ => .network
  | .receiveHealth _ => .opsSeha

abbrev Connection := Groupcasts.Connection HubMessage Group

abbrev State := Groupcasts.State HubMessage Group

inductive Event
  | connect (i : ℕ)
  | addToGroup (i : ℕ)
  | send (message : HubMessage)
  | deliver (i : ℕ)
  | disconnect (i : ℕ)

/-- The event of the groups that an event of the hub comes to. -/
def groupEvent (s : State) : Event → Option (Groupcasts.Event HubMessage Group)
  | .connect i => some (.connect i)
  | .addToGroup i =>
    (s.connections i).bind fun connection =>
      joinOrder[connection.groups.length]?.map fun group => .join i group
  | .send message => some (.send message)
  | .deliver i => some (.deliver i)
  | .disconnect i => some (.disconnect i)

def step (s : State) (e : Event) : Option State :=
  (groupEvent s e).bind fun e => Groupcasts.step HubMessage.group s e

def machine : Machine State Event := ⟨Groupcasts.start, step⟩

def groupcast : machine.Simulation (Groupcasts.machine HubMessage.group) where
  state := id
  events s e := (groupEvent s e).toList
  start_eq := rfl
  step_eq := by
    intro s e t hstep
    obtain ⟨e', he', ht⟩ := Option.bind_eq_some_iff.mp hstep
    rw [he', Option.toList_some, List.foldlM_cons]
    change ((Groupcasts.step HubMessage.group s e').bind fun u => some u) = some t
    rw [ht]
    rfl

theorem exact_run {es : List Event} {s : State} (hs : machine.run es = some s) :
    s.Exact HubMessage.group :=
  groupcast.of_run (fun _ _ h => Groupcasts.exact_run h) hs

/-- The message that an event sends. -/
def sends : Event → List HubMessage
  | .send message => [message]
  | _ => []

theorem sends_map_send (messages : List HubMessage) :
    (messages.map Event.send).flatMap sends = messages := by
  rw [List.flatMap_map]
  exact List.flatMap_singleton' messages

theorem sent_step {s t : State} {e : Event} (hstep : step s e = some t) :
    t.sent = s.sent ++ sends e := by
  obtain ⟨e', he', ht⟩ := Option.bind_eq_some_iff.mp hstep
  have hsends : Groupcasts.sends e' = sends e := by
    cases e with
    | addToGroup i =>
      obtain ⟨connection, -, hgroup⟩ := Option.bind_eq_some_iff.mp he'
      obtain ⟨group, -, rfl⟩ := Option.map_eq_some_iff.mp hgroup
      rfl
    | _ =>
      cases he'
      rfl
  rw [Groupcasts.sent_step ht, hsends]

/-- The connection is open and past the last of the three additions. -/
def Connected (connection : Connection) : Prop :=
  connection.isOpen = true ∧ connection.groups = joinOrder

theorem group_mem_of_connected {connection : Connection} (h : Connected connection)
    (message : HubMessage) : message.group ∈ connection.groups := by
  rw [h.2]
  cases message <;> simp [HubMessage.group, joinOrder]

/-- What has reached a connected dashboard ends with all that was sent since it joined. -/
theorem reached_of_connected {s : State} (hexact : s.Exact HubMessage.group) {i : ℕ}
    {connection : Connection} (hi : s.connections i = some connection)
    (h : Connected connection) : ∃ early,
      connection.delivered ++ connection.inFlight =
        early ++ s.sent.drop (connection.since .opsSeha) := by
  refine (hexact i connection hi).covered h.1 (group_mem_of_connected h) .opsSeha ?_
  rw [h.2]
  rfl

/-- A dashboard is given what was sent in the order in which it was sent, nothing twice.
One that is connected has missed nothing since it was added to the last group, and of
each group nothing since it was added to that one. -/
theorem connected_misses_nothing (es : List Event) (s : State) (hs : machine.run es = some s)
    (i : ℕ) (connection : Connection) (hi : s.connections i = some connection) :
    connection.delivered.Sublist s.sent ∧
    (Connected connection → ∃ early, connection.delivered ++ connection.inFlight =
      early ++ s.sent.drop (connection.since .opsSeha)) ∧
    (connection.isOpen = true → ∀ group ∈ connection.groups,
      toGroup HubMessage.group group (connection.delivered ++ connection.inFlight) =
        toGroup HubMessage.group group (s.sent.drop (connection.since group))) := by
  have hexact := exact_run hs
  have hconnection := hexact i connection hi
  exact ⟨(List.sublist_append_left _ _).trans hconnection.in_order,
    reached_of_connected hexact hi, hconnection.reached_eq⟩

def idleHealth : HubMessage := .receiveHealth ⟨true, 0, 0, 0, "00:00:02"⟩

def firstBatch : HubMessage := .receivePackets []

/-- A batch is sent while the dashboard is added to the groups, and health after it. -/
def joiningRun : List Event :=
  [.connect 0, .addToGroup 0, .send firstBatch, .addToGroup 0, .addToGroup 0, .send idleHealth,
    .deliver 0, .deliver 0]

theorem connected_misses_nothing_joining : ∃ s connection, machine.run joiningRun = some s ∧
    s.connections 0 = some connection ∧ connection.delivered = [firstBatch, idleHealth] ∧
    ∃ early, connection.delivered ++ connection.inFlight =
      early ++ s.sent.drop (connection.since .opsSeha) := by
  obtain ⟨s, connection, hs, hi, hdelivered, hconnected⟩ : ∃ s connection,
      machine.run joiningRun = some s ∧ s.connections 0 = some connection ∧
        connection.delivered = [firstBatch, idleHealth] ∧ Connected connection :=
    ⟨_, _, rfl, rfl, rfl, rfl, rfl⟩
  exact ⟨s, connection, hs, hi, hdelivered,
    (connected_misses_nothing joiningRun s hs 0 connection hi).2.1 hconnected⟩

end AetherLens.NetworkMonitorHub
