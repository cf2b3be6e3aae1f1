import AetherLens.DashboardConnection
import AetherLens.NetworkMonitorHub
import AetherLens.RecentlyUsed

/-!
What a dashboard shows is a function of the messages it was given: the handlers keep
four bounded views, and each of them forgets what is too old. So two dashboards agree
as soon as enough has been sent after both have joined, whatever they showed before.
-/
namespace AetherLens.DashboardReplay

open DashboardConnection (Callback)
open DashboardStore Messages NetworkMonitorHub RecentlyUsed

/-- The handler that a message of the hub calls. -/
def callback : HubMessage → Callback
  | .receivePackets packets => .receivePackets packets
  | .receiveProcessStats process => .receiveProcessStats process
  | .receiveAnomaly anomaly => .receiveAnomaly anomaly
  | .receiveHealth health => .receiveHealth health

/-- The store after a sequence of messages, first message first. -/
def replay (store : AetherState) (messages : List HubMessage) : AetherState :=
  messages.foldl (fun store message => (callback message).write store) store

/-- The bounds of a store, which all its setters keep. -/
structure Valid (store : AetherState) : Prop where
  packets_le : store.packets.length ≤ maxPackets
  processStats_le : store.processStats.length ≤ maxProcesses
  processStats_nodup : (store.processStats.map ProcessBandwidthUpdate.process).Nodup
  anomalies_le : store.anomalies.length ≤ maxAnomalies

theorem valid_empty : Valid .empty :=
  ⟨Nat.zero_le _, Nat.zero_le _, List.nodup_nil, Nat.zero_le _⟩

theorem nodup_upsertProcess {store : AetherState} (h : Valid store)
    (process : ProcessBandwidthUpdate) :
    ((store.upsertProcess process).processStats.map ProcessBandwidthUpdate.process).Nodup := by
  have hrest : ((store.processStats.filter fun p => p.process ≠ process.process).map
      ProcessBandwidthUpdate.process).Nodup :=
    h.processStats_nodup.sublist (List.filter_sublist.map _)
  refine List.Nodup.sublist ((List.take_sublist _ _).map _) ?_
  rw [List.map_cons, List.nodup_cons]
  exact ⟨by simp, hrest⟩

theorem Valid.write {store : AetherState} (h : Valid store) (c : Callback) :
    Valid (c.write store) := by
  cases c with
  | receivePackets packets =>
    exact ⟨List.length_take_le _ _, h.processStats_le, h.processStats_nodup, h.anomalies_le⟩
  | receiveProcessStats process =>
    exact ⟨h.packets_le, List.length_take_le _ _, nodup_upsertProcess h process, h.anomalies_le⟩
  | receiveHealth =>
    exact ⟨h.packets_le, h.processStats_le, h.processStats_nodup, h.anomalies_le⟩
  | receiveAnomaly =>
    exact ⟨h.packets_le, h.processStats_le, h.processStats_nodup, List.length_take_le _ _⟩
  | startCompletes =>
    exact ⟨h.packets_le, h.processStats_le, h.processStats_nodup, h.anomalies_le⟩
  | startFails => exact h
  | onreconnecting =>
    exact ⟨h.packets_le, h.processStats_le, h.processStats_nodup, h.anomalies_le⟩
  | onreconnected =>
    exact ⟨h.packets_le, h.processStats_le, h.processStats_nodup, h.anomalies_le⟩
  | onclose =>
    exact ⟨h.packets_le, h.processStats_le, h.processStats_nodup, h.anomalies_le⟩

def batchesOf (messages : List HubMessage) : List (List PacketUpdate) :=
  messages.filterMap fun
    | .receivePackets packets => some packets
    | _ => none

def processesOf (messages : List HubMessage) : List ProcessBandwidthUpdate :=
  messages.filterMap fun
    | .receiveProcessStats process => some process
    | _ => none

def anomaliesOf (messages : List HubMessage) : List SuspiciousOutboundConnection :=
  messages.filterMap fun
    | .receiveAnomaly anomaly => some anomaly
    | _ => none

def healthOf (messages : List HubMessage) : List SystemHealthData :=
  messages.filterMap fun
    | .receiveHealth health => some health
    | _ => none

/-- A list of entries with different keys is what it shows itself. -/
theorem firstPerKey_of_nodup {xs : List ProcessBandwidthUpdate}
    (h : (xs.map ProcessBandwidthUpdate.process).Nodup) :
    firstPerKey ProcessBandwidthUpdate.process xs = xs := by
  induction xs with
  | nil => exact firstPerKey_nil _
  | cons x xs ih =>
    obtain ⟨hx, hrest⟩ := List.nodup_cons.mp h
    rw [firstPerKey_cons, ih hrest, List.filter_eq_self.mpr]
    intro y hy
    have hne : y.process ≠ x.process := fun heq => hx (heq ▸ List.mem_map_of_mem hy)
    simpa using hne

/-- What the four views show of a history of messages, on top of an earlier store. -/
def view (store : AetherState) (messages : List HubMessage) : AetherState where
  packets := ((batchesOf messages).reverse.flatten ++ store.packets).take maxPackets
  processStats := (firstPerKey ProcessBandwidthUpdate.process
    ((processesOf messages).reverse ++ store.processStats)).take maxProcesses
  anomalies := ((anomaliesOf messages).reverse ++ store.anomalies).take maxAnomalies
  health := (healthOf messages).getLast?.or store.health
  connected := store.connected

theorem replay_snoc (store : AetherState) (messages : List HubMessage) (message : HubMessage) :
    replay store (messages ++ [message]) =
      (callback message).write (replay store messages) := by
  simp [replay]

/-- A dashboard shows of each kind of message the newest, as many as the view holds. -/
theorem replay_eq_view {store : AetherState} (h : Valid store) (messages : List HubMessage) :
    replay store messages = view store messages := by
  induction messages using List.reverseRecOn with
  | nil =>
    have hpackets : store.packets.take maxPackets = store.packets :=
      List.take_of_length_le h.packets_le
    have hprocesses : store.processStats.take maxProcesses = store.processStats :=
      List.take_of_length_le h.processStats_le
    have hanomalies : store.anomalies.take maxAnomalies = store.anomalies :=
      List.take_of_length_le h.anomalies_le
    simp [replay, view, batchesOf, processesOf, anomaliesOf, healthOf, hpackets, hprocesses,
      hanomalies, firstPerKey_of_nodup h.processStats_nodup]
  | append_singleton messages message ih =>
    rw [replay_snoc, ih]
    cases message with
    | receivePackets packets =>
      have htake := take_append_take maxPackets packets
        ((batchesOf messages).reverse.flatten ++ store.packets)
      simpa [callback, Callback.write, AetherState.addPackets, view, batchesOf, processesOf,
        anomaliesOf, healthOf] using htake
    | receiveProcessStats process =>
      have htouch := touch_take_firstPerKey ProcessBandwidthUpdate.process maxProcesses process
        ((processesOf messages).reverse ++ store.processStats)
      simpa [callback, Callback.write, AetherState.upsertProcess, view, batchesOf, processesOf,
        anomaliesOf, healthOf, touch] using htouch
    | receiveAnomaly anomaly =>
      have htake := take_append_take maxAnomalies [anomaly]
        ((anomaliesOf messages).reverse ++ store.anomalies)
      simpa [callback, Callback.write, AetherState.addAnomaly, view, batchesOf, processesOf,
        anomaliesOf, healthOf] using htake
    | receiveHealth health =>
      simp [callback, Callback.write, AetherState.setHealth, view, batchesOf, processesOf,
        anomaliesOf, healthOf]

/-- The recent messages fill each view of which there are enough. -/
structure AgreeOn (recent : List HubMessage) (a b : AetherState) : Prop where
  packets_eq : maxPackets ≤ (batchesOf recent).flatten.length → a.packets = b.packets
  processStats_eq :
    maxProcesses ≤ ((processesOf recent).map ProcessBandwidthUpdate.process).toFinset.card →
      a.processStats = b.processStats
  anomalies_eq : maxAnomalies ≤ (anomaliesOf recent).length → a.anomalies = b.anomalies
  health_eq : healthOf recent ≠ [] → a.health = b.health

theorem flatten_reverse_length (batches : List (List PacketUpdate)) :
    batches.reverse.flatten.length = batches.flatten.length :=
  ((List.reverse_perm batches).flatten).length_eq

/-- A list that is long enough decides the front part on its own. -/
theorem take_append_eq {α : Type*} {n : ℕ} {front : List α} (h : n ≤ front.length)
    (rest rest' : List α) : (front ++ rest).take n = (front ++ rest').take n := by
  rw [List.take_append_of_le_length h, List.take_append_of_le_length h]

/-- Views of the same recent messages agree as far as these fill them. -/
theorem agreeOn_view (a b : AetherState) (recent : List HubMessage) :
    AgreeOn recent (view a recent) (view b recent) where
  packets_eq := by
    intro hfull
    rw [← flatten_reverse_length] at hfull
    exact take_append_eq hfull _ _
  processStats_eq := by
    intro hfull
    have hlength : maxProcesses ≤ (firstPerKey ProcessBandwidthUpdate.process
        (processesOf recent).reverse).length := by
      rw [length_firstPerKey, List.map_reverse, List.toFinset_reverse]
      exact hfull
    change (firstPerKey _ (_ ++ _)).take _ = (firstPerKey _ (_ ++ _)).take _
    rw [firstPerKey_append, firstPerKey_append]
    exact take_append_eq hlength _ _
  anomalies_eq := by
    intro hfull
    rw [← List.length_reverse] at hfull
    exact take_append_eq hfull _ _
  health_eq := by
    intro hsome
    obtain ⟨last, hlast⟩ := Option.ne_none_iff_exists'.mp
      fun hnone => hsome (List.getLast?_eq_none_iff.mp hnone)
    simp [view, hlast]

theorem replay_append (store : AetherState) (early recent : List HubMessage) :
    replay store (early ++ recent) = replay (replay store early) recent :=
  List.foldl_append

theorem Valid.replay {store : AetherState} (h : Valid store) (messages : List HubMessage) :
    Valid (replay store messages) := by
  induction messages using List.reverseRecOn with
  | nil => exact h
  | append_singleton messages message ih =>
    rw [replay_snoc]
    exact ih.write (callback message)

/-- What two histories end with decides what the stores after them show. -/
theorem agreeOn_replay {a b : AetherState} (ha : Valid a) (hb : Valid b)
    (early early' recent : List HubMessage) :
    AgreeOn recent (replay a (early ++ recent)) (replay b (early' ++ recent)) := by
  rw [replay_append, replay_append, replay_eq_view (ha.replay early),
    replay_eq_view (hb.replay early')]
  exact agreeOn_view _ _ recent

/-- Dropping fewer messages leaves some more in front. -/
theorem exists_drop {α : Type*} {m n : ℕ} (h : m ≤ n) (xs : List α) :
    ∃ early, xs.drop m = early ++ xs.drop n := by
  refine ⟨(xs.drop m).take (n - m), ?_⟩
  have hdrop : (xs.drop m).drop (n - m) = xs.drop n := by
    rw [List.drop_drop]
    congr 1
    omega
  rw [← hdrop, List.take_append_drop]

/-- In every run of the hub, two connected dashboards that have handled all they were
given agree on each view that the messages sent since both joined are enough to fill,
whatever they showed before. -/
theorem dashboards_agree (es : List Event) (s : State) (hs : machine.run es = some s)
    {i j : ℕ} {ci cj : Connection} (hi : s.connections i = some ci)
    (hj : s.connections j = some cj) (hci : Connected ci) (hcj : Connected cj)
    (hni : ci.inFlight = []) (hnj : cj.inFlight = []) {a b : AetherState} (ha : Valid a)
    (hb : Valid b) :
    AgreeOn (s.sent.drop (max (ci.since .opsSeha) (cj.since .opsSeha)))
      (replay a ci.delivered) (replay b cj.delivered) := by
  have hexact := exact_run hs
  have hends : ∀ (k : ℕ) (c : Connection), s.connections k = some c → Connected c →
      c.inFlight = [] → c.since .opsSeha ≤ max (ci.since .opsSeha) (cj.since .opsSeha) →
        ∃ early, c.delivered =
          early ++ s.sent.drop (max (ci.since .opsSeha) (cj.since .opsSeha)) := by
    intro k c hk hc hn hle
    obtain ⟨early, hreached⟩ := reached_of_connected hexact hk hc
    obtain ⟨more, hmore⟩ := exists_drop hle s.sent
    rw [hn, List.append_nil, hmore, ← List.append_assoc] at hreached
    exact ⟨early ++ more, hreached⟩
  obtain ⟨early, hearly⟩ := hends i ci hi hci hni (le_max_left _ _)
  obtain ⟨early', hearly'⟩ := hends j cj hj hcj hnj (le_max_right _ _)
  rw [hearly, hearly']
  exact agreeOn_replay ha hb early early' _

/-- The second dashboard joins when the first has already been told of the health. -/
def secondJoins : List Event :=
  [.connect 0, .addToGroup 0, .addToGroup 0, .addToGroup 0, .send firstBatch, .connect 1,
    .addToGroup 1, .addToGroup 1, .addToGroup 1, .send idleHealth, .deliver 0, .deliver 0,
    .deliver 1]

theorem dashboards_agree_secondJoins : ∃ s ci cj, machine.run secondJoins = some s ∧
    s.connections 0 = some ci ∧ s.connections 1 = some cj ∧
    ci.delivered = [firstBatch, idleHealth] ∧ cj.delivered = [idleHealth] ∧
    AgreeOn (s.sent.drop (max (ci.since .opsSeha) (cj.since .opsSeha)))
      (replay .empty ci.delivered) (replay .empty cj.delivered) := by
  obtain ⟨s, ci, cj, hs, hi, hj, hdi, hdj, hci, hcj, hni, hnj⟩ : ∃ s ci cj,
      machine.run secondJoins = some s ∧ s.connections 0 = some ci ∧
        s.connections 1 = some cj ∧ ci.delivered = [firstBatch, idleHealth] ∧
          cj.delivered = [idleHealth] ∧ Connected ci ∧ Connected cj ∧ ci.inFlight = [] ∧
            cj.inFlight = [] :=
    ⟨_, _, _, rfl, rfl, rfl, rfl, rfl, ⟨rfl, rfl⟩, ⟨rfl, rfl⟩, rfl, rfl⟩
  exact ⟨s, ci, cj, hs, hi, hj, hdi, hdj,
    dashboards_agree secondJoins s hs hi hj hci hcj hni hnj valid_empty valid_empty⟩

end AetherLens.DashboardReplay
