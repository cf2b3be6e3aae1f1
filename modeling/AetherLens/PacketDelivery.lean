import AetherLens.GrpcStream
import AetherLens.LossyQueues
import AetherLens.PacketLoop
import Mathlib.Algebra.Group.Nat.Defs

/-!
The way of a live packet from the engine to the dashboard: the broadcast, the
subscribed stream, the channel of the hub and the packet loop. Up to the loop
all queues together are one lossy pipe of messages: every step of a stage lets
an item in, loses some or passes the oldest on. The loop neither drops nor
doubles what comes out, so its batches show the received packets in order.
-/
namespace AetherLens.PacketDelivery

open LossyQueues Messages PacketLoop Runs

def broadcastCapacity : ℕ := 8192

def channelCapacity : ℕ := 10000

/-- `received` is the history of what `process_packets` received. A subscription
that the server has accepted has its unread broadcasts and what is in flight. -/
structure State where
  received : List CapturedPacket
  processing : Option CapturedPacket
  accepted : Bool
  unread : List PacketMessage
  inFlight : List PacketMessage
  service : GrpcStream.State
  trade : Option PacketMessage
  channel : List PacketMessage
  loop : PacketLoop.State

inductive Event
  | receive (p : CapturedPacket)
  | send
  | accept
  | lag
  | pull
  | transportLoses (kept : List PacketMessage)
  | service (e : GrpcStream.Event)
  | write
  | loop (e : PacketLoop.Event)

/-- A call that is over takes its messages with it. -/
def State.closeStream (s : State) : State :=
  { s with accepted := false, unread := [], inFlight := [], trade := none }

/-- What a step of the stream service does to the call it reads. -/
def State.afterService (s : State) : GrpcStream.Event → Option State
  | .subscribe => some s.closeStream
  | .streamEnds => some s.closeStream
  | .fails _ => some s.closeStream
  | .message =>
    match s.trade, s.inFlight with
    | none, trade :: rest => some { s with inFlight := rest, trade := some trade }
    | _, _ => none
  | _ => some s

def step (s : State) : Event → Option State
  | .receive p =>
    if s.processing = none then
      some { s with received := s.received ++ [p], processing := some p }
    else none
  | .send => s.processing.map fun p =>
    if s.accepted then { s with processing := none, unread := s.unread ++ [p.toMessage] }
    else { s with processing := none }
  | .accept =>
    if s.service.point = .streaming ∧ s.accepted = false then
      some { s with accepted := true, unread := [] }
    else none
  | .lag =>
    if broadcastCapacity < s.unread.length then
      some { s with unread := s.unread.drop (s.unread.length - broadcastCapacity) }
    else none
  | .pull =>
    match s.unread with
    | [] => none
    | m :: rest =>
      if rest.length < broadcastCapacity then
        some { s with unread := rest, inFlight := s.inFlight ++ [m] }
      else none
  | .transportLoses kept =>
    if kept.Sublist s.inFlight then some { s with inFlight := kept } else none
  | .service e =>
    (GrpcStream.step s.service e).bind fun service =>
      (s.afterService e).map fun t => { t with service := service }
  | .write => s.trade.map fun trade =>
    { s with trade := none, channel := writeDropOldest channelCapacity s.channel trade }
  | .loop e =>
    (PacketLoop.step s.loop s.channel e).map fun next =>
      { s with loop := next.1, channel := next.2 }

def start : State where
  received := []
  processing := none
  accepted := false
  unread := []
  inFlight := []
  service := GrpcStream.start
  trade := none
  channel := []
  loop := PacketLoop.start

def machine : Machine State Event := ⟨start, step⟩

/-- The messages on their way, those nearest to the loop first. -/
def State.held (s : State) : List PacketMessage :=
  s.channel ++ (s.trade.toList ++ (s.inFlight ++ (s.unread ++
    s.processing.toList.map CapturedPacket.toMessage)))

/-- The stages before the loop as one pipe. -/
def State.pipe (s : State) : Pipe PacketMessage :=
  ⟨s.received.map CapturedPacket.toMessage, s.held, s.loop.taken⟩

/-- Stages that only lose messages shrink what is held. -/
theorem held_sublist {s t : State} (hchannel : t.channel.Sublist s.channel)
    (htrade : t.trade.toList.Sublist s.trade.toList) (hinFlight : t.inFlight.Sublist s.inFlight)
    (hunread : t.unread.Sublist s.unread) (hprocessing : t.processing = s.processing) :
    t.held.Sublist s.held := by
  unfold State.held
  rw [hprocessing]
  exact hchannel.append (htrade.append (hinFlight.append
    (hunread.append (List.Sublist.refl _))))

theorem held_closeStream (s : State) : s.closeStream.held.Sublist s.held :=
  held_sublist (List.Sublist.refl _) (List.nil_sublist _) (List.nil_sublist _)
    (List.nil_sublist _) rfl

theorem held_afterService {s t : State} {e : GrpcStream.Event}
    (h : s.afterService e = some t) : t.held.Sublist s.held := by
  unfold State.afterService at h
  split at h
  · cases h
    exact held_closeStream s
  · cases h
    exact held_closeStream s
  · cases h
    exact held_closeStream s
  · split at h
    next trade rest htrade hinFlight =>
      cases h
      have heq : State.held { s with inFlight := rest, trade := some trade } = s.held := by
        simp [State.held, htrade, hinFlight]
      rw [heq]
    next => cases h
  · cases h
    exact List.Sublist.refl _

theorem frame_afterService {s t : State} {e : GrpcStream.Event}
    (h : s.afterService e = some t) : t.received = s.received ∧ t.loop = s.loop := by
  unfold State.afterService at h
  split at h
  · cases h
    exact ⟨rfl, rfl⟩
  · cases h
    exact ⟨rfl, rfl⟩
  · cases h
    exact ⟨rfl, rfl⟩
  · split at h
    · cases h
      exact ⟨rfl, rfl⟩
    · cases h
  · cases h
    exact ⟨rfl, rfl⟩

theorem held_send {s : State} {p : CapturedPacket} (hp : s.processing = some p) :
    State.held { s with processing := none, unread := s.unread ++ [p.toMessage] } = s.held := by
  simp [State.held, hp]

/-- What a step does: a packet enters, the stages before the loop pass messages on or
lose some, or the loop takes its step. -/
inductive Moves (s : State) : State → Prop
  | enters (p : CapturedPacket) (hprocessing : s.processing = none) :
      Moves s { s with received := s.received ++ [p], processing := some p }
  | loses (t : State) (hreceived : t.received = s.received) (hloop : t.loop = s.loop)
      (hheld : t.held.Sublist s.held) : Moves s t
  | loop (e : PacketLoop.Event) (loop : PacketLoop.State) (channel : List PacketMessage)
      (hloop : PacketLoop.step s.loop s.channel e = some (loop, channel)) :
      Moves s { s with loop := loop, channel := channel }

theorem moves_of_step {s t : State} {e : Event} (hstep : step s e = some t) : Moves s t := by
  cases e with
  | receive p =>
    obtain ⟨hprocessing, heq⟩ := Option.ite_none_right_eq_some.mp hstep
    cases heq
    exact .enters p hprocessing
  | send =>
    obtain ⟨p, hp, heq⟩ := Option.map_eq_some_iff.mp hstep
    split at heq
    · cases heq
      refine .loses _ rfl rfl ?_
      rw [held_send hp]
    · cases heq
      refine .loses _ rfl rfl ?_
      rw [← held_send hp]
      simp [State.held]
  | accept =>
    obtain ⟨_, heq⟩ := Option.ite_none_right_eq_some.mp hstep
    cases heq
    refine .loses _ rfl rfl ?_
    refine held_sublist (List.Sublist.refl _) (List.Sublist.refl _) (List.Sublist.refl _) ?_ rfl
    exact List.nil_sublist _
  | lag =>
    obtain ⟨_, heq⟩ := Option.ite_none_right_eq_some.mp hstep
    cases heq
    refine .loses _ rfl rfl ?_
    refine held_sublist (List.Sublist.refl _) (List.Sublist.refl _) (List.Sublist.refl _) ?_ rfl
    apply List.drop_sublist
  | pull =>
    simp only [step] at hstep
    split at hstep
    next => cases hstep
    next m rest hunread =>
      obtain ⟨_, heq⟩ := Option.ite_none_right_eq_some.mp hstep
      cases heq
      refine .loses _ rfl rfl ?_
      simp [State.held, hunread]
  | transportLoses kept =>
    obtain ⟨hkept, heq⟩ := Option.ite_none_right_eq_some.mp hstep
    cases heq
    refine .loses _ rfl rfl ?_
    exact held_sublist (List.Sublist.refl _) (List.Sublist.refl _) hkept
      (List.Sublist.refl _) rfl
  | service e =>
    obtain ⟨service, _, hafter⟩ := Option.bind_eq_some_iff.mp hstep
    obtain ⟨u, hu, rfl⟩ := Option.map_eq_some_iff.mp hafter
    obtain ⟨hreceived, hloop⟩ := frame_afterService hu
    have hheld : u.held.Sublist s.held := held_afterService hu
    exact .loses _ hreceived hloop hheld
  | write =>
    obtain ⟨trade, htrade, rfl⟩ := Option.map_eq_some_iff.mp hstep
    refine .loses _ rfl rfl ?_
    have hheld : s.held = (s.channel ++ [trade]) ++ (s.inFlight ++ (s.unread ++
        s.processing.toList.map CapturedPacket.toMessage)) := by
      simp [State.held, htrade]
    rw [hheld]
    exact (writeDropOldest_sublist channelCapacity s.channel trade).append (List.Sublist.refl _)
  | loop e =>
    obtain ⟨⟨loop, channel⟩, hloop, rfl⟩ := Option.map_eq_some_iff.mp hstep
    exact .loop e loop channel hloop

/-- Every step of the system is a step of the pipe. -/
theorem pipe_step (s : State) (e : Event) (t : State) (hstep : machine.step s e = some t) :
    s.pipe.Step t.pipe := by
  cases moves_of_step hstep with
  | enters p hprocessing =>
    have hpipe : State.pipe { s with received := s.received ++ [p], processing := some p } =
        ⟨s.pipe.entered ++ [p.toMessage], s.pipe.held ++ [p.toMessage], s.pipe.left⟩ := by
      simp [State.pipe, State.held, hprocessing]
    rw [hpipe]
    exact .enter p.toMessage
  | loses _ hreceived hloop hheld =>
    have hpipe : t.pipe = ⟨s.pipe.entered, t.held, s.pipe.left⟩ := by
      rw [State.pipe, hreceived, hloop]
      rfl
    rw [hpipe]
    exact .lose t.held hheld
  | loop e loop channel hloop =>
    rcases taken_step hloop with ⟨htaken, hchannel⟩ | ⟨packet, htaken, hchannel⟩
    · have hpipe : State.pipe { s with loop := loop, channel := channel } = s.pipe := by
        simp [State.pipe, State.held, htaken, hchannel]
      rw [hpipe]
      exact .lose s.pipe.held (List.Sublist.refl _)
    · have hpipe : State.pipe { s with loop := loop, channel := channel } =
          ⟨s.pipe.entered, State.held { s with channel := channel },
            s.pipe.left ++ [packet]⟩ := by
        simp [State.pipe, State.held, htaken]
      rw [hpipe]
      refine .leave packet _ ?_
      simp [State.pipe, State.held, hchannel]

/-- Only its own steps change the loop. -/
theorem loop_step (s : State) (e : Event) (t : State) (hstep : machine.step s e = some t) :
    t.loop = s.loop ∨
      ∃ le channel, PacketLoop.step s.loop s.channel le = some (t.loop, channel) := by
  cases moves_of_step hstep with
  | enters p hprocessing => exact Or.inl rfl
  | loses _ hreceived hloop hheld => exact Or.inl hloop
  | loop e loop channel hloop => exact Or.inr ⟨e, channel, hloop⟩

/-- The pipe keeps its order and the loop its books. -/
structure Inv (s : State) : Prop where
  inOrder : s.pipe.InOrder
  valid : s.loop.Valid

theorem inv_start : Inv start := ⟨List.Sublist.refl _, start_valid⟩

theorem inv_step (s : State) (e : Event) (t : State) (hstep : machine.step s e = some t)
    (h : Inv s) : Inv t := by
  refine ⟨h.inOrder.step (pipe_step s e t hstep), ?_⟩
  rcases loop_step s e t hstep with hsame | ⟨le, channel, hloop⟩
  · rw [hsame]
    exact h.valid
  · exact valid_step hloop h.valid

theorem inv_run {es : List Event} {s : State} (hs : machine.run es = some s) : Inv s :=
  machine.run_invariant Inv inv_start inv_step hs

/-- The update shows the packet: nothing is changed, up to the sign of large numbers. -/
structure Shows (update : PacketUpdate) (packet : CapturedPacket) : Prop where
  process_eq : update.process = packet.process
  localAddress_eq : update.localAddress = packet.localAddr
  remoteAddress_eq : update.remoteAddress = packet.remoteAddr
  protocol_eq : update.protocol = packet.protocol
  outbound_eq : update.outbound = packet.outbound
  bytes_eq : packet.bytes.toNat < 2 ^ 63 → update.bytes.toInt = packet.bytes.toNat
  timestamp_eq : packet.timestamp.toNat < 2 ^ 63 →
    update.timestamp.toInt = packet.timestamp.toNat

theorem toInt_toInt64 {n : UInt64} (h : n.toNat < 2 ^ 63) : n.toInt64.toInt = n.toNat := by
  apply BitVec.toInt_eq_toNat_of_lt
  change 2 * n.toNat < 2 ^ 64
  omega

theorem shows_of_madeFrom {update : PacketUpdate} {packet : CapturedPacket}
    (h : MadeFrom update packet.toMessage) : Shows update packet := by
  obtain ⟨now, rfl⟩ := h
  exact ⟨rfl, rfl, rfl, rfl, rfl, toInt_toInt64, toInt_toInt64⟩

/-- In every run the packets shown in batches are a subsequence of those received,
and between two turns the loop has offered to the persistence channel exactly
the updates it has put into batches. -/
theorem delivered_in_order (es : List Event) (s : State) (hs : machine.run es = some s) :
    (∃ shown, shown.Sublist s.received ∧
      List.Forall₂ Shows s.loop.batches.flatten shown) ∧
    s.loop.offered = s.loop.batches.flatten ++ (s.loop.batch ++ s.loop.queue) ∧
    (s.loop.point ≠ .draining → s.loop.point ≠ .reading →
      s.loop.offered = s.loop.batches.flatten) := by
  have hinv : Inv s := machine.run_invariant Inv inv_start inv_step hs
  refine ⟨?_, hinv.valid.offered_eq, hinv.valid.offered_eq_batches⟩
  obtain ⟨packets, hpackets, htaken⟩ := List.sublist_map_iff.mp hinv.inOrder.left_sublist
  have hmade : List.Forall₂ (fun update packet => MadeFrom update packet.toMessage)
      s.loop.made packets := by
    rw [← List.forall₂_map_right_iff, ← htaken]
    exact hinv.valid.made_from
  refine ⟨packets.take s.loop.batches.flatten.length,
    (List.take_sublist _ _).trans hpackets, ?_⟩
  have hshown := List.forall₂_take s.loop.batches.flatten.length hmade
  rw [PacketLoop.State.made, List.take_left] at hshown
  exact hshown.imp fun _ _ => shows_of_madeFrom

def query : CapturedPacket :=
  ⟨"resolver", "10.0.0.2:5353", "10.0.0.1:53", "UDP", 80, 100, true⟩

def answer : CapturedPacket :=
  ⟨"resolver", "10.0.0.1:53", "10.0.0.2:5353", "UDP", 160, 110, false⟩

/-- The query is broadcast before the server accepts the subscription and is lost;
the answer reaches the dashboard. -/
def answeredRun : List Event :=
  [.service .checkStop, .service .subscribe, .receive query, .send, .accept, .receive answer,
    .send, .pull, .service .message, .write, .loop .waitToRead, .loop (.tryRead 130),
    .loop .tryReadFails, .loop .tryDequeue, .loop .sendBatch, .loop .sent]

theorem delivered_in_order_answered :
    ∃ s, machine.run answeredRun = some s ∧ s.received = [query, answer] ∧
      s.loop.batches = [[toUpdate 130 answer.toMessage]] ∧
      ∃ shown, shown.Sublist s.received ∧
        List.Forall₂ Shows s.loop.batches.flatten shown := by
  obtain ⟨s, hs, hreceived, hbatches⟩ : ∃ s, machine.run answeredRun = some s ∧
      s.received = [query, answer] ∧
      s.loop.batches = [[toUpdate 130 answer.toMessage]] := ⟨_, rfl, rfl, rfl⟩
  exact ⟨s, hs, hreceived, hbatches, (delivered_in_order answeredRun s hs).1⟩

/-- The events of the stages between `process_packets` and the channel. -/
def Event.IsBetween : Event → Prop
  | .receive _ => False
  | .write => False
  | .loop _ => False
  | _ => True

/-- What a step does at the two ends and to the channel. -/
inductive Effect (s : State) : Event → State → Prop
  | receive (p : CapturedPacket) :
      Effect s (.receive p) { s with received := s.received ++ [p], processing := some p }
  | between (e : Event) (t : State) (hevent : e.IsBetween) (hreceived : t.received = s.received)
      (hchannel : t.channel = s.channel) (hloop : t.loop = s.loop) : Effect s e t
  | write (trade : PacketMessage) :
      Effect s .write { s with
        trade := none
        channel := writeDropOldest channelCapacity s.channel trade }
  | loop (e : PacketLoop.Event) (loop : PacketLoop.State) (channel : List PacketMessage)
      (hloop : PacketLoop.step s.loop s.channel e = some (loop, channel)) :
      Effect s (.loop e) { s with loop := loop, channel := channel }

theorem channel_afterService {s t : State} {e : GrpcStream.Event}
    (h : s.afterService e = some t) : t.channel = s.channel := by
  unfold State.afterService at h
  split at h
  · cases h
    rfl
  · cases h
    rfl
  · cases h
    rfl
  · split at h
    · cases h
      rfl
    · cases h
  · cases h
    rfl

theorem effect_of_step {s t : State} {e : Event} (hstep : step s e = some t) : Effect s e t := by
  cases e with
  | receive p =>
    obtain ⟨-, heq⟩ := Option.ite_none_right_eq_some.mp hstep
    cases heq
    exact .receive p
  | send =>
    obtain ⟨p, -, heq⟩ := Option.map_eq_some_iff.mp hstep
    split at heq
    · cases heq
      exact .between _ _ trivial rfl rfl rfl
    · cases heq
      exact .between _ _ trivial rfl rfl rfl
  | accept =>
    obtain ⟨-, heq⟩ := Option.ite_none_right_eq_some.mp hstep
    cases heq
    exact .between _ _ trivial rfl rfl rfl
  | lag =>
    obtain ⟨-, heq⟩ := Option.ite_none_right_eq_some.mp hstep
    cases heq
    exact .between _ _ trivial rfl rfl rfl
  | pull =>
    simp only [step] at hstep
    split at hstep
    next => cases hstep
    next m rest hunread =>
      obtain ⟨-, heq⟩ := Option.ite_none_right_eq_some.mp hstep
      cases heq
      exact .between _ _ trivial rfl rfl rfl
  | transportLoses kept =>
    obtain ⟨-, heq⟩ := Option.ite_none_right_eq_some.mp hstep
    cases heq
    exact .between _ _ trivial rfl rfl rfl
  | service e =>
    obtain ⟨service, -, hafter⟩ := Option.bind_eq_some_iff.mp hstep
    obtain ⟨u, hu, rfl⟩ := Option.map_eq_some_iff.mp hafter
    obtain ⟨hreceived, hloop⟩ := frame_afterService hu
    have hchannel := channel_afterService hu
    exact .between _ _ trivial hreceived hchannel hloop
  | write =>
    obtain ⟨trade, -, rfl⟩ := Option.map_eq_some_iff.mp hstep
    exact .write trade
  | loop e =>
    obtain ⟨⟨loop, channel⟩, hloop, rfl⟩ := Option.map_eq_some_iff.mp hstep
    exact .loop e loop channel hloop

/-- The packet that a step receives from the engine. -/
def receives : Event → List CapturedPacket
  | .receive p => [p]
  | _ => []

def takes (s : State) : Event → List PacketMessage
  | .loop e => PacketLoop.takes s.channel e
  | _ => []

def offers (s : State) : Event → List PacketUpdate
  | .loop e => PacketLoop.offers s.channel e
  | _ => []

def sends (s : State) : Event → List (List PacketUpdate)
  | .loop e => PacketLoop.sends s.loop e
  | _ => []

/-- The histories at the two ends grow by what the steps give. -/
theorem histories_step {s t : State} {e : Event} (hstep : step s e = some t) :
    t.received = s.received ++ receives e ∧ t.loop.taken = s.loop.taken ++ takes s e ∧
      t.loop.offered = s.loop.offered ++ offers s e ∧
        t.loop.batches = s.loop.batches ++ sends s e := by
  cases effect_of_step hstep with
  | receive p => simp [receives, takes, offers, sends]
  | between _ _ hevent hreceived _ hloop =>
    rw [hreceived, hloop]
    cases e <;> simp_all [Event.IsBetween, receives, takes, offers, sends]
  | write trade => simp [receives, takes, offers, sends]
  | loop e loop channel hloop =>
    exact ⟨(List.append_nil _).symm, PacketLoop.histories_step hloop⟩

end AetherLens.PacketDelivery
