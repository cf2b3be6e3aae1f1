import AetherLens.PacketDelivery
import AetherLens.Subscriptions
import AetherLens.SuspiciousConsumer
import AetherLens.SuspiciousStream

/-!
The way of an alert from the engine to the hub: the broadcast, the subscribed stream,
the channel and the alert loop. As for packets, all queues together are one lossy
pipe. What the hub is given is made of the alerts that came out of it, each with the
severity of its score.
-/
namespace AetherLens.AlertDelivery

open DashboardStore LossyQueues Messages Runs Subscriptions SuspiciousConsumer

def broadcastCapacity : ℕ := 4096

def channelCapacity : ℕ := 4000

/-- `received` is the history of what `process_suspicious` received. -/
structure State where
  received : List SuspiciousConnection
  processing : Option SuspiciousConnection
  subscription : Subscription SuspiciousConnectionMessage
  service : SuspiciousStream.State
  channel : List SuspiciousConnectionMessage
  consumer : SuspiciousConsumer.State

inductive Event
  | receive (item : SuspiciousConnection)
  | send
  | accept
  | lag
  | pull
  | transportLoses (kept : List SuspiciousConnectionMessage)
  | service (e : GrpcStream.Event)
  | write
  | consumer (e : SuspiciousConsumer.Event)

/-- What a step of the stream service does to the call it reads. -/
def afterService (subscription : Subscription SuspiciousConnectionMessage) :
    GrpcStream.Event → Option (Subscription SuspiciousConnectionMessage)
  | .subscribe => some .closed
  | .streamEnds => some .closed
  | .fails _ => some .closed
  | .message => subscription.read
  | _ => some subscription

def step (s : State) : Event → Option State
  | .receive item =>
    if s.processing = none then
      some { s with received := s.received ++ [item], processing := some item }
    else none
  | .send => s.processing.map fun item =>
    { s with processing := none, subscription := s.subscription.publish item.toMessage }
  | .accept =>
    if s.service.point = .streaming then
      s.subscription.accept.map fun subscription => { s with subscription := subscription }
    else none
  | .lag => (s.subscription.lag broadcastCapacity).map fun subscription =>
    { s with subscription := subscription }
  | .pull => (s.subscription.pull broadcastCapacity).map fun subscription =>
    { s with subscription := subscription }
  | .transportLoses kept => (s.subscription.lose kept).map fun subscription =>
    { s with subscription := subscription }
  | .service e =>
    (SuspiciousStream.step s.service e).bind fun service =>
      (afterService s.subscription e).map fun subscription =>
        { s with service := service, subscription := subscription }
  | .write => s.subscription.current.map fun item =>
    { s with
      subscription := { s.subscription with current := none }
      channel := writeDropOldest channelCapacity s.channel item }
  | .consumer e =>
    (SuspiciousConsumer.step s.consumer s.channel e).map fun next =>
      { s with consumer := next.1, channel := next.2 }

def start : State where
  received := []
  processing := none
  subscription := .closed
  service := SuspiciousStream.start
  channel := []
  consumer := SuspiciousConsumer.start

def machine : Machine State Event := ⟨start, step⟩

/-- The messages on their way, those nearest to the loop first. -/
def State.held (s : State) : List SuspiciousConnectionMessage :=
  s.channel ++ (s.subscription.held ++ s.processing.toList.map SuspiciousConnection.toMessage)

/-- The stages before the loop as one pipe. -/
def State.pipe (s : State) : Pipe SuspiciousConnectionMessage :=
  ⟨s.received.map SuspiciousConnection.toMessage, s.held, s.consumer.taken⟩

/-- What a step does: an alert enters, the stages before the loop pass alerts on or lose
some, or the loop takes its step. -/
inductive Moves (s : State) : State → Prop
  | enters (item : SuspiciousConnection) (hprocessing : s.processing = none) :
      Moves s { s with received := s.received ++ [item], processing := some item }
  | loses (t : State) (hreceived : t.received = s.received) (hconsumer : t.consumer = s.consumer)
      (hheld : t.held.Sublist s.held) : Moves s t
  | consumes (consumer : SuspiciousConsumer.State) (channel : List SuspiciousConnectionMessage)
      (hconsumer : SuspiciousConsumer.Moves s.consumer s.channel consumer channel) :
      Moves s { s with consumer := consumer, channel := channel }

/-- A step of the subscription alone. -/
theorem moves_of_subscription {s : State} {subscription : Subscription SuspiciousConnectionMessage}
    (h : subscription.held.Sublist s.subscription.held) (service : SuspiciousStream.State) :
    Moves s { s with service := service, subscription := subscription } :=
  .loses _ rfl rfl ((List.Sublist.refl _).append (h.append (List.Sublist.refl _)))

theorem held_afterService {subscription t : Subscription SuspiciousConnectionMessage}
    {e : GrpcStream.Event} (h : afterService subscription e = some t) :
    t.held.Sublist subscription.held := by
  unfold afterService at h
  split at h
  · cases h
    exact List.nil_sublist _
  · cases h
    exact List.nil_sublist _
  · cases h
    exact List.nil_sublist _
  · rw [Subscription.held_read h]
  · cases h
    exact List.Sublist.refl _

theorem moves_of_step {s t : State} {e : Event} (hstep : machine.step s e = some t) :
    Moves s t := by
  cases e with
  | receive item =>
    obtain ⟨hprocessing, heq⟩ := Option.ite_none_right_eq_some.mp hstep
    cases heq
    exact .enters item hprocessing
  | send =>
    obtain ⟨item, hitem, rfl⟩ := Option.map_eq_some_iff.mp hstep
    refine .loses _ rfl rfl ?_
    have hpublish := Subscription.held_publish (s := s.subscription) item.toMessage
    simpa [State.held, hitem] using (List.Sublist.refl s.channel).append hpublish
  | accept =>
    obtain ⟨-, heq⟩ := Option.ite_none_right_eq_some.mp hstep
    obtain ⟨subscription, haccept, rfl⟩ := Option.map_eq_some_iff.mp heq
    exact moves_of_subscription (Subscription.held_accept haccept) s.service
  | lag =>
    obtain ⟨subscription, hlag, rfl⟩ := Option.map_eq_some_iff.mp hstep
    exact moves_of_subscription (Subscription.held_lag hlag) s.service
  | pull =>
    obtain ⟨subscription, hpull, rfl⟩ := Option.map_eq_some_iff.mp hstep
    refine moves_of_subscription ?_ s.service
    rw [Subscription.held_pull hpull]
  | transportLoses kept =>
    obtain ⟨subscription, hlose, rfl⟩ := Option.map_eq_some_iff.mp hstep
    exact moves_of_subscription (Subscription.held_lose hlose) s.service
  | service e =>
    obtain ⟨service, _, hafter⟩ := Option.bind_eq_some_iff.mp hstep
    obtain ⟨subscription, hsubscription, rfl⟩ := Option.map_eq_some_iff.mp hafter
    exact moves_of_subscription (held_afterService hsubscription) service
  | write =>
    obtain ⟨item, hitem, rfl⟩ := Option.map_eq_some_iff.mp hstep
    refine .loses _ rfl rfl ?_
    have hwrite := writeDropOldest_sublist channelCapacity s.channel item
    have hrest := List.Sublist.refl
      (Subscription.held { s.subscription with current := none } ++
        s.processing.toList.map SuspiciousConnection.toMessage)
    simpa [State.held, Subscription.held_of_current hitem] using hwrite.append hrest
  | consumer e =>
    obtain ⟨⟨consumer, channel⟩, hconsumer, rfl⟩ := Option.map_eq_some_iff.mp hstep
    exact .consumes consumer channel (SuspiciousConsumer.moves_of_step hconsumer)

/-- Every step of the system is a step of the pipe. -/
theorem pipe_step {s t : State} (h : Moves s t) : s.pipe.Step t.pipe := by
  cases h with
  | enters item hprocessing =>
    have hpipe : State.pipe { s with received := s.received ++ [item], processing := some item } =
        ⟨s.pipe.entered ++ [item.toMessage], s.pipe.held ++ [item.toMessage], s.pipe.left⟩ := by
      simp [State.pipe, State.held, hprocessing]
    rw [hpipe]
    exact .enter item.toMessage
  | loses _ hreceived hconsumer hheld =>
    have hpipe : t.pipe = ⟨s.pipe.entered, t.held, s.pipe.left⟩ := by
      rw [State.pipe, hreceived, hconsumer]
      rfl
    rw [hpipe]
    exact .lose t.held hheld
  | consumes consumer channel hconsumer =>
    cases hconsumer with
    | goTo point => exact .lose s.pipe.held (List.Sublist.refl _)
    | take item rest hchannel =>
      refine .leave item _ ?_
      simp [State.pipe, State.held, hchannel]

/-- The pipe keeps its order and the loop its books. -/
structure Inv (s : State) : Prop where
  inOrder : s.pipe.InOrder
  valid : s.consumer.Valid

theorem inv_start : Inv start := ⟨List.Sublist.refl _, rfl⟩

theorem inv_step (s : State) (e : Event) (t : State) (hstep : machine.step s e = some t)
    (h : Inv s) : Inv t := by
  have hmoves := moves_of_step hstep
  refine ⟨h.inOrder.step (pipe_step hmoves), ?_⟩
  cases hmoves with
  | enters => exact h.valid
  | loses _ _ hconsumer =>
    rw [hconsumer]
    exact h.valid
  | consumes consumer channel hconsumer => exact h.valid.moves hconsumer

theorem inv_run {es : List Event} {s : State} (hs : machine.run es = some s) : Inv s :=
  machine.run_invariant Inv inv_start inv_step hs

/-- The alert is shown as it was raised, with the severity of its score; the time is the
same up to the sign of large numbers. -/
structure Shows (alert : SuspiciousOutboundConnection) (item : SuspiciousConnection) : Prop where
  process_eq : alert.process = item.process
  remoteAddress_eq : alert.remoteAddress = item.remoteAddr
  reason_eq : alert.reason = item.reason
  score_eq : alert.score = item.score
  severity_eq : alert.severity = severity item.score
  timestamp_eq : item.timestamp.toNat < 2 ^ 63 → alert.timestamp = item.timestamp.toNat

theorem shows_toAlert (item : SuspiciousConnection) : Shows (toAlert item.toMessage) item :=
  ⟨rfl, rfl, rfl, rfl, rfl, PacketDelivery.toInt_toInt64⟩

/-- What the hub has been given is made, in order and one for one, of a subsequence of
the alerts that were received. -/
theorem Inv.shown {s : State} (h : Inv s) :
    ∃ shown, shown.Sublist s.received ∧ List.Forall₂ Shows s.consumer.sent shown := by
  obtain ⟨items, hitems, htaken⟩ := List.sublist_map_iff.mp h.inOrder.left_sublist
  have hsent : s.consumer.sent = items.map fun item => toAlert item.toMessage := by
    rw [h.valid, show s.consumer.taken = _ from htaken, List.map_map]
    rfl
  refine ⟨items, hitems, ?_⟩
  rw [hsent, List.forall₂_map_left_iff, List.forall₂_same]
  exact fun item _ => shows_toAlert item

/-- The alert that a step receives from the engine. -/
def receives : Event → List SuspiciousConnection
  | .receive item => [item]
  | _ => []

def sends (s : State) : Event → List SuspiciousOutboundConnection
  | .consumer e => SuspiciousConsumer.sends s.channel e
  | _ => []

/-- The histories at the two ends grow by what the steps give, and the channel drops its
oldest alert rather than hold more than its capacity. -/
theorem ends_step {s t : State} {e : Event} (hstep : machine.step s e = some t) :
    t.received = s.received ++ receives e ∧ t.consumer.sent = s.consumer.sent ++ sends s e ∧
      (s.channel.length ≤ channelCapacity → t.channel.length ≤ channelCapacity) := by
  cases e with
  | receive item =>
    obtain ⟨-, heq⟩ := Option.ite_none_right_eq_some.mp hstep
    cases heq
    simp [receives, sends]
  | write =>
    obtain ⟨item, -, rfl⟩ := Option.map_eq_some_iff.mp hstep
    refine ⟨(List.append_nil _).symm, (List.append_nil _).symm, fun h => ?_⟩
    exact length_writeDropOldest (by decide) h item
  | consumer e =>
    obtain ⟨⟨consumer, channel⟩, hconsumer, rfl⟩ := Option.map_eq_some_iff.mp hstep
    refine ⟨(List.append_nil _).symm, sent_step hconsumer, fun h => ?_⟩
    cases SuspiciousConsumer.moves_of_step hconsumer with
    | goTo point => exact h
    | take item rest hchannel =>
      rw [hchannel, List.length_cons] at h
      exact Nat.le_of_succ_le h
  | accept =>
    obtain ⟨-, heq⟩ := Option.ite_none_right_eq_some.mp hstep
    obtain ⟨subscription, -, rfl⟩ := Option.map_eq_some_iff.mp heq
    simp [receives, sends]
  | service e =>
    obtain ⟨service, -, hafter⟩ := Option.bind_eq_some_iff.mp hstep
    obtain ⟨subscription, -, rfl⟩ := Option.map_eq_some_iff.mp hafter
    simp [receives, sends]
  | _ =>
    obtain ⟨_, -, rfl⟩ := Option.map_eq_some_iff.mp hstep
    simp [receives, sends]

/-- In every run the alerts sent to the dashboards are, in order and at most once each,
alerts that the engine raised, with the severity of their score. -/
theorem alerts_in_order (es : List Event) (s : State) (hs : machine.run es = some s) :
    ∃ shown, shown.Sublist s.received ∧ List.Forall₂ Shows s.consumer.sent shown :=
  (inv_run hs).shown

def rdp : SuspiciousConnection :=
  ⟨"mstsc.exe", "192.0.2.7:3389", "Outbound RDP session", 0.85, 100⟩

def smb : SuspiciousConnection :=
  ⟨"explorer.exe", "192.0.2.7:445", "Outbound SMB connection", 0.92, 110⟩

/-- The first alert is raised before the server accepts the subscription and is lost. -/
def smbRun : List Event :=
  [.service .checkStop, .service .subscribe, .receive rdp, .send, .accept, .receive smb, .send,
    .pull, .service .message, .write, .consumer .waitToRead, .consumer .tryRead, .consumer .sent]

theorem alerts_in_order_smb : ∃ s, machine.run smbRun = some s ∧ s.received = [rdp, smb] ∧
    s.consumer.sent = [toAlert smb.toMessage] ∧
    ∃ shown, shown.Sublist s.received ∧ List.Forall₂ Shows s.consumer.sent shown := by
  obtain ⟨s, hs, hreceived, hsent⟩ : ∃ s, machine.run smbRun = some s ∧
      s.received = [rdp, smb] ∧ s.consumer.sent = [toAlert smb.toMessage] := ⟨_, rfl, rfl, rfl⟩
  exact ⟨s, hs, hreceived, hsent, alerts_in_order smbRun s hs⟩

end AetherLens.AlertDelivery
