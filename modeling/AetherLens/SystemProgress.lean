import AetherLens.DeliveryProgress
import AetherLens.EndToEnd

/-!
The system does not hold back what it can show. Whatever state it has come to, as long as
the stream is up and a dashboard is connected, its own next steps can bring every packet
that is on its way or waits in the engine's queue to that dashboard, whatever the other
parts are doing.
-/
namespace AetherLens.SystemProgress

open AetherDb (Db)
open DashboardReplay DeliveryProgress EndToEnd LiveSystem Messages NetworkMonitorHub Runs

section Hub

/-- The hub takes any message, and a connected dashboard gets it. -/
theorem hub_sends (messages : List HubMessage) (hub : NetworkMonitorHub.State) {i : ℕ}
    {connection : Connection} (hi : hub.connections i = some connection)
    (hconnected : Connected connection) :
    ∃ (hub' : NetworkMonitorHub.State) (connection' : Connection),
      (messages.map Event.send).foldlM NetworkMonitorHub.step hub = some hub' ∧
      hub'.connections i = some connection' ∧ Connected connection' ∧
      connection'.reached = connection.reached ++ messages := by
  induction messages generalizing hub connection with
  | nil => exact ⟨hub, connection, rfl, hi, hconnected, (List.append_nil _).symm⟩
  | cons message messages ih =>
    have hpush : connection.push HubMessage.group message =
        { connection with inFlight := connection.inFlight ++ [message] } :=
      if_pos ⟨hconnected.1, group_mem_of_connected hconnected message⟩
    let u : NetworkMonitorHub.State :=
      ⟨hub.sent ++ [message], fun j => (hub.connections j).map (.push HubMessage.group message)⟩
    have hu : u.connections i =
        some { connection with inFlight := connection.inFlight ++ [message] } := by
      simp only [u, hi, Option.map_some, hpush]
    obtain ⟨hub', connection', hrun, hi', hconnected', hreached⟩ := ih u hu hconnected
    refine ⟨hub', connection', hrun, hi', hconnected', ?_⟩
    rw [hreached]
    simp [Groupcasts.Connection.reached]

/-- What is in flight to a connection can be delivered, and nothing else changes. -/
theorem hub_delivers (hub : NetworkMonitorHub.State) {i : ℕ} {connection : Connection}
    (hi : hub.connections i = some connection) (hconnected : Connected connection) :
    ∃ (hub' : NetworkMonitorHub.State) (connection' : Connection),
      NetworkMonitorHub.machine.Leads (· = .deliver i) hub hub' ∧ hub'.sent = hub.sent ∧
      hub'.connections i = some connection' ∧ Connected connection' ∧
      connection'.inFlight = [] ∧ connection'.delivered = connection.reached := by
  induction hflight : connection.inFlight generalizing hub connection with
  | nil =>
    refine ⟨hub, connection, .refl hub, rfl, hi, hconnected, hflight, ?_⟩
    rw [Groupcasts.Connection.reached, hflight, List.append_nil]
  | cons message rest ih =>
    let next : Connection := { connection with
      inFlight := rest
      delivered := connection.delivered ++ [message] }
    have hstep : NetworkMonitorHub.machine.step hub (.deliver i) = some (hub.set i next) := by
      change (hub.connections i).bind _ = _
      rw [hi, Option.bind_some, hflight]
    obtain ⟨hub', connection', hleads, hsent, hi', hconnected', hempty, hdelivered⟩ :=
      ih (hub.set i next) (Function.update_self i _ _) hconnected rfl
    have hfirst : NetworkMonitorHub.machine.Leads (· = .deliver i) hub (hub.set i next) :=
      .of_step hstep rfl
    refine ⟨hub', connection', hfirst.trans hleads, hsent, hi', hconnected', hempty, ?_⟩
    rw [hdelivered]
    simp [Groupcasts.Connection.reached, next, hflight]

end Hub

section Lift

variable {σ ι : Type} {source : Engine.Source σ ι} {db : Db}

/-- The steps that bring packets to dashboard `i`. -/
def Forwards (i : ℕ) : LiveSystem.Event ι → Prop
  | .packets (.receive _) => True
  | .packets e => Passes e
  | .hub e => e = .deliver i
  | _ => False

theorem worker_writes (items : List PacketUpdate) (w : PersistenceWorker.State) :
    ∃ w', (items.map PersistenceWorker.Event.write).foldlM PersistenceWorker.step w = some w' := by
  induction items generalizing w with
  | nil => exact ⟨w, rfl⟩
  | cons item items ih =>
    obtain ⟨w', hw'⟩ := ih { w with
      channel := LossyQueues.writeDropOldest PersistenceWorker.channelCapacity w.channel item }
    exact ⟨w', hw'⟩

theorem counters_add (packets : List PacketMessage) (c : BandwidthCounters.State) :
    ∃ c', (packets.map BandwidthCounters.Event.addOrUpdate).foldlM BandwidthCounters.step c =
      some c' := by
  induction packets generalizing c with
  | nil => exact ⟨c, rfl⟩
  | cons packet packets ih =>
    obtain ⟨c', hc'⟩ := ih { c with counters := BandwidthCounters.addOrUpdate c.counters packet }
    exact ⟨c', hc'⟩

theorem forwards_of_passes {e : PacketDelivery.Event} (h : Passes e) (i : ℕ) :
    Forwards i (.packets e : LiveSystem.Event ι) := by
  cases e with
  | receive => trivial
  | _ => exact h

theorem allowed_of_passes {e : PacketDelivery.Event} (h : Passes e) (s : LiveSystem.State σ) :
    allowed s (.packets e : LiveSystem.Event ι) = true := by
  cases e <;> first | rfl | exact h.elim

theorem engineEvents_of_passes {e : PacketDelivery.Event} (h : Passes e) :
    engineEvents (.packets e : LiveSystem.Event ι) = [] := by
  cases e <;> first | rfl | exact h.elim

variable (source db) in
/-- No other part stands in the way of a step of the delivery. -/
theorem step_packets {s : LiveSystem.State σ} {e : PacketDelivery.Event}
    {p : PacketDelivery.State} (hpasses : Passes e)
    (hstep : PacketDelivery.step s.packets e = some p) {i : ℕ} {connection : Connection}
    (hi : s.hub.connections i = some connection) (hconnected : Connected connection) :
    ∃ (t : LiveSystem.State σ) (connection' : Connection),
      (LiveSystem.machine source db).step s (.packets e) = some t ∧ t.engine = s.engine ∧
      t.packets = p ∧ t.hub.connections i = some connection' ∧ Connected connection' ∧
      connection'.reached = connection.reached ++ hubSends s (.packets e : LiveSystem.Event ι) := by
  obtain ⟨w, hw⟩ := worker_writes (PacketDelivery.offers s.packets e) s.worker
  obtain ⟨c, hc⟩ := counters_add (PacketDelivery.takes s.packets e) s.counters
  obtain ⟨hub, connection', hhub, hi', hconnected', hreached⟩ :=
    hub_sends (hubSends s (.packets e : LiveSystem.Event ι)) s.hub hi hconnected
  refine ⟨⟨s.engine, p, s.alerts, w, c, hub⟩, connection', ?_, rfl, rfl, hi', hconnected',
    hreached⟩
  change LiveSystem.step source s (.packets e) = _
  have hpackets : [e].foldlM PacketDelivery.step s.packets = some p := by
    rw [List.foldlM_cons, hstep]
    rfl
  rw [LiveSystem.step, if_pos (allowed_of_passes hpasses s), engineEvents_of_passes hpasses]
  simp only [packetEvents, alertEvents, workerEvents, counterEvents, hubEvents, hpackets, hw, hc,
    hhub]
  rfl

/-- The delivery stands where it should, the engine where it was, and the connection has
been sent all that the hub has been given since. -/
structure Reaches (i : ℕ) (s : LiveSystem.State σ) (connection : Connection)
    (p : PacketDelivery.State) (t : LiveSystem.State σ) : Prop where
  packets_eq : t.packets = p
  engine_eq : t.engine = s.engine
  sent : ∃ connection' later, t.hub.connections i = some connection' ∧
    Connected connection' ∧ t.hub.sent = s.hub.sent ++ later ∧
      connection'.reached = connection.reached ++ later

theorem Reaches.step {i : ℕ} {s t : LiveSystem.State σ} {connection : Connection}
    {p q : PacketDelivery.State} {e : PacketDelivery.Event} (h : Reaches i s connection p t)
    (hpasses : Passes e) (hstep : PacketDelivery.step p e = some q) :
    ∃ u, (LiveSystem.machine source db).Leads (Forwards i) t u ∧ Reaches i s connection q u := by
  obtain ⟨hpackets, hengine, c, later, hi, hconnected, hsent, hreached⟩ := h
  rw [← hpackets] at hstep
  obtain ⟨u, c', hu, hengine', hq, hi', hconnected', hreached'⟩ :=
    step_packets source db hpasses hstep hi hconnected
  refine ⟨u, .of_step hu (forwards_of_passes hpasses i), hq, hengine'.trans hengine, c',
    later ++ hubSends t (.packets e : LiveSystem.Event ι), hi', hconnected', ?_, ?_⟩
  · rw [hub_sent_step (steps_of_step hu), hsent, List.append_assoc]
  · rw [hreached', hreached, List.append_assoc]

/-- Deliveries of the hub are steps of the system. -/
theorem leads_of_hub {s : LiveSystem.State σ} {i : ℕ} {hub : NetworkMonitorHub.State}
    (h : NetworkMonitorHub.machine.Leads (· = .deliver i) s.hub hub) :
    (LiveSystem.machine source db).Leads (Forwards i) s { s with hub := hub } := by
  have hfollow : ∀ (hub : NetworkMonitorHub.State) (e : NetworkMonitorHub.Event)
      (hub' : NetworkMonitorHub.State) (t : LiveSystem.State σ), e = .deliver i →
      NetworkMonitorHub.machine.step hub e = some hub' → t = { s with hub := hub } →
      ∃ u, (LiveSystem.machine source db).Leads (Forwards i) t u ∧
        u = { s with hub := hub' } := by
    rintro hub _ hub' _ rfl hstep rfl
    refine ⟨_, .of_step (e := .hub (.deliver i)) ?_ rfl, rfl⟩
    have hsingle : [NetworkMonitorHub.Event.deliver i].foldlM NetworkMonitorHub.step hub =
        some hub' := by
      rw [List.foldlM_cons, show NetworkMonitorHub.step hub (.deliver i) = some hub' from hstep]
      rfl
    have hallowed : allowed { s with hub := hub }
        (.hub (.deliver i) : LiveSystem.Event ι) = true := rfl
    change LiveSystem.step source _ (.hub (.deliver i)) = _
    rw [LiveSystem.step, if_pos hallowed]
    simp only [engineEvents, packetEvents, alertEvents, workerEvents, counterEvents, hubEvents,
      hsingle]
    rfl
  obtain ⟨t, hleads, rfl⟩ := h.follow _ hfollow rfl
  exact hleads

/-- What the system has come to when steps of the delivery and the hub have brought a
connected dashboard these messages, with this much left in the engine's queue. -/
structure Brought (i : ℕ) (s : LiveSystem.State σ) (connection : Connection)
    (messages : List PacketMessage) (queued : List CapturedPacket) (t : LiveSystem.State σ) :
    Prop where
  healthy : Healthy t.packets
  held_eq : t.packets.held = []
  waiting : t.packets.loop.point = .waiting
  taken_eq : t.packets.loop.taken = s.packets.loop.taken ++ messages
  queued_eq : t.engine.packets.items = queued
  sent : ∃ connection' later, t.hub.connections i = some connection' ∧
    Connected connection' ∧ t.hub.sent = s.hub.sent ++ later ∧ connection'.inFlight = [] ∧
      connection'.delivered = connection.reached ++ later

variable (source db) in
/-- From a healthy state on, steps of the delivery and of the hub alone bring a connected
dashboard all that is held. -/
theorem forwards_held {s : LiveSystem.State σ} (hhealthy : Healthy s.packets) {i : ℕ}
    {connection : Connection} (hi : s.hub.connections i = some connection)
    (hconnected : Connected connection) :
    ∃ t, (LiveSystem.machine source db).Leads (Forwards i) s t ∧
      Brought i s connection s.packets.held s.engine.packets.items t := by
  obtain ⟨p, hdelivery, hp, hheld, hpoint, htaken⟩ := delivery_catches_up hhealthy
  have hreaches : Reaches i s connection s.packets s :=
    ⟨rfl, rfl, connection, [], hi, hconnected, (List.append_nil _).symm, (List.append_nil _).symm⟩
  obtain ⟨u, hleads, rfl, hengine, c, later, hi', hconnected', hsent, hreached⟩ :
      ∃ u, (LiveSystem.machine source db).Leads (Forwards i) s u ∧
        Reaches i s connection p u :=
    hdelivery.follow (Reaches i s connection)
      (fun _ _ _ _ hpasses hstep h => h.step hpasses hstep) hreaches
  obtain ⟨hub, c', hhub, hsent', hi'', hconnected'', hempty, hdelivered⟩ :=
    hub_delivers u.hub hi' hconnected'
  refine ⟨{ u with hub := hub }, hleads.trans (leads_of_hub hhub), hp, hheld, hpoint, htaken,
    congrArg (·.packets.items) hengine, c', later, hi'', hconnected'', ?_, hempty, ?_⟩
  · change hub.sent = _
    rw [hsent', hsent]
  · rw [hdelivered, hreached]

variable (source db) in
/-- The task takes the first packet of the queue when nothing else is held. -/
theorem receives {s : LiveSystem.State σ} (hhealthy : Healthy s.packets)
    (hheld : s.packets.held = []) {packet : CapturedPacket} {queued : List CapturedPacket}
    (hqueue : s.engine.packets.items = packet :: queued) :
    ∃ t, (LiveSystem.machine source db).step s (.packets (.receive packet)) = some t ∧
      Healthy t.packets ∧ t.packets.held = [packet.toMessage] ∧
      t.packets.loop = s.packets.loop ∧ t.engine.packets.items = queued ∧ t.hub = s.hub := by
  obtain ⟨hstep, hhealthy', hheld'⟩ := healthy_receive hhealthy hheld packet
  refine ⟨⟨{ s.engine with packets := s.engine.packets.pop packet queued hqueue },
    { s.packets with received := s.packets.received ++ [packet], processing := some packet },
    s.alerts, s.worker, s.counters, s.hub⟩, ?_, hhealthy', hheld', rfl, rfl, rfl⟩
  have hallowed : allowed s (.packets (.receive packet) : LiveSystem.Event ι) = true := by
    simp [allowed, hqueue]
  have hengine : [Engine.Event.receivePacket].foldlM (Engine.step source) s.engine =
      some { s.engine with packets := s.engine.packets.pop packet queued hqueue } := by
    simp [Engine.step, BlockingQueues.BlockingQueue.receive_of_items hqueue]
  have hpackets : [PacketDelivery.Event.receive packet].foldlM PacketDelivery.step s.packets =
      some { s.packets with
        received := s.packets.received ++ [packet]
        processing := some packet } := by
    rw [List.foldlM_cons, hstep]
    rfl
  change LiveSystem.step source s (.packets (.receive packet)) = _
  rw [LiveSystem.step, if_pos hallowed]
  simp only [engineEvents, packetEvents, alertEvents, workerEvents, counterEvents, hubEvents,
    hengine, hpackets]
  rfl

variable (source db) in
/-- So the packets of the queue can be shown one after the other. -/
theorem forwards_queued (queued : List CapturedPacket) {s : LiveSystem.State σ}
    (hqueue : s.engine.packets.items = queued) (hhealthy : Healthy s.packets) {i : ℕ}
    {connection : Connection} (hi : s.hub.connections i = some connection)
    (hconnected : Connected connection) :
    ∃ t, (LiveSystem.machine source db).Leads (Forwards i) s t ∧
      Brought i s connection (s.packets.held ++ queued.map CapturedPacket.toMessage) [] t := by
  induction queued generalizing s connection with
  | nil =>
    obtain ⟨t, hleads, ht⟩ := forwards_held source db hhealthy hi hconnected
    rw [hqueue] at ht
    exact ⟨t, hleads, by simpa using ht⟩
  | cons packet queued ih =>
    obtain ⟨u, hfirst, hu⟩ := forwards_held source db hhealthy hi hconnected
    obtain ⟨c, later, hi', hconnected', hsent, hempty, hdelivered⟩ := hu.sent
    obtain ⟨v, hreceive, hv, hheld, hloop, hqueue', hhub⟩ :=
      receives source db hu.healthy hu.held_eq (hu.queued_eq.trans hqueue)
    rw [← hhub] at hi' hsent
    obtain ⟨t, hrest, ht⟩ := ih hqueue' hv hi' hconnected'
    obtain ⟨c', later', hi'', hconnected'', hsent', hempty', hdelivered'⟩ := ht.sent
    refine ⟨t, hfirst.trans ((Machine.Leads.of_step hreceive trivial).trans hrest), ht.healthy,
      ht.held_eq, ht.waiting, ?_, ht.queued_eq, c', later ++ later', hi'', hconnected'', ?_,
      hempty', ?_⟩
    · rw [ht.taken_eq, hloop, hu.taken_eq, hheld]
      simp
    · rw [hsent', hsent, List.append_assoc]
    · rw [hdelivered', Groupcasts.Connection.reached, hempty, List.append_nil, hdelivered,
        List.append_assoc]

/-- Updates made of two lists of messages are those of the first, and after as many of them
as there are messages, those of the second. -/
theorem split_made {xs ys : List PacketUpdate} {old new : List PacketMessage}
    (h : List.Forall₂ PacketLoop.MadeFrom (xs ++ ys) (old ++ new))
    (hlength : xs.length ≤ old.length) : ∃ early shown, xs ++ ys = xs ++ (early ++ shown) ∧
      List.Forall₂ PacketLoop.MadeFrom shown new := by
  refine ⟨ys.take (old.length - xs.length), ys.drop (old.length - xs.length), ?_, ?_⟩
  · rw [List.take_append_drop]
  · have hdrop := List.forall₂_drop_append (xs ++ ys) old new h
    rwa [List.drop_append, List.drop_eq_nil_of_le hlength, List.nil_append] at hdrop

/-- In every state that the system can come to, while the stream is up, what is on its way
fits the channel and the dashboard is connected, the system's own next steps can show the
dashboard every packet that is on its way or in the engine's queue, in order. -/
theorem waiting_packets_can_be_shown (es : List (LiveSystem.Event ι)) (s : LiveSystem.State σ)
    (hs : (LiveSystem.machine source db).run es = some s) (hhealthy : Healthy s.packets)
    (i : ℕ) (connection : Connection) (hi : s.hub.connections i = some connection)
    (hconnected : Connected connection) :
    ∃ (later : List (LiveSystem.Event ι)) (t : LiveSystem.State σ) (connection' : Connection),
      (∀ e ∈ later, Forwards i e) ∧
      (LiveSystem.machine source db).run (es ++ later) = some t ∧ t.packets.held = [] ∧
      t.engine.packets.items = [] ∧ t.hub.connections i = some connection' ∧
      ∃ early shown, (batchesOf connection'.delivered).flatten = early ++ shown ∧
        List.Forall₂ PacketLoop.MadeFrom shown
          (s.packets.held ++ s.engine.packets.items.map CapturedPacket.toMessage) := by
  obtain ⟨t, hleads, ht⟩ := forwards_queued source db _ rfl hhealthy hi hconnected
  obtain ⟨c, sent, hi', -, hsent, -, hdelivered⟩ := ht.sent
  obtain ⟨later, hforwards, hrun⟩ := hleads.run hs
  refine ⟨later, t, c, hforwards, hrun, ht.held_eq, ht.queued_eq, hi', ?_⟩
  have hvalid := (packets_run hrun).valid
  have hmade := hvalid.made_from
  have hpoint := ht.waiting
  rw [← hvalid.offered_eq, hvalid.offered_eq_batches (by simp [hpoint]) (by simp [hpoint]),
    ← (glued_run hrun).batches, hsent, batchesOf_append, List.flatten_append, ht.taken_eq] at hmade
  have hold : (batchesOf s.hub.sent).flatten.length ≤ s.packets.loop.taken.length := by
    have hbefore := (packets_run hs).valid
    rw [(glued_run hs).batches, ← hbefore.made_from.length_eq, ← hbefore.offered_eq]
    exact (batches_sublist_offered hs).length_le
  obtain ⟨early, shown, hsplit, hshown⟩ := split_made hmade hold
  refine ⟨(batchesOf connection.reached).flatten ++ early, shown, ?_, hshown⟩
  rw [hdelivered, batchesOf_append, List.flatten_append, List.append_cancel_left hsplit,
    List.append_assoc]

end Lift

/-- A dashboard is connected, a captured packet has just been received, and the next one is
in the queue. -/
def receivedRun : List (LiveSystem.Event (CapturedPacket × Option SuspiciousConnection)) :=
  [.hub (.connect 0), .hub (.addToGroup 0), .hub (.addToGroup 0), .hub (.addToGroup 0),
    .packets (.service .checkStop), .packets (.service .subscribe), .packets .accept,
    .engine (.turn (Engine.telnetPacket, none)), .engine .sendPacket,
    .packets (.receive Engine.telnetPacket), .engine (.turn (Engine.telnetPacket, none)),
    .engine .sendPacket]

theorem waiting_packets_can_be_shown_telnet : ∃ s connection,
    liveOverEmpty.run receivedRun = some s ∧ s.hub.connections 0 = some connection ∧
    s.packets.held = [Engine.telnetPacket.toMessage] ∧
    s.engine.packets.items = [Engine.telnetPacket] ∧
    ∃ later t connection', (∀ e ∈ later, Forwards 0 e) ∧
      liveOverEmpty.run (receivedRun ++ later) = some t ∧ t.packets.held = [] ∧
      t.engine.packets.items = [] ∧ t.hub.connections 0 = some connection' ∧
      ∃ early shown, (batchesOf connection'.delivered).flatten = early ++ shown ∧
        List.Forall₂ PacketLoop.MadeFrom shown
          (s.packets.held ++ s.engine.packets.items.map CapturedPacket.toMessage) := by
  obtain ⟨s, connection, hs, hi, hheld, hqueued, hconnected, hhealthy⟩ : ∃ s connection,
      liveOverEmpty.run receivedRun = some s ∧ s.hub.connections 0 = some connection ∧
      s.packets.held = [Engine.telnetPacket.toMessage] ∧
      s.engine.packets.items = [Engine.telnetPacket] ∧ Connected connection ∧
      Healthy s.packets := by
    refine ⟨_, _, rfl, rfl, rfl, rfl, ⟨rfl, rfl⟩, ⟨rfl, rfl, Nat.zero_le _, nofun, ?_⟩⟩
    exact (by decide : 1 ≤ PacketDelivery.channelCapacity)
  exact ⟨s, connection, hs, hi, hheld, hqueued,
    waiting_packets_can_be_shown receivedRun s hs hhealthy 0 connection hi hconnected⟩

end AetherLens.SystemProgress
