import AetherLens.PacketDelivery

/-!
Packets on their way to the hub do not get stuck. While the stream is up and what is held
fits the channel, the steps of the stages alone bring all of it to the hub: first into the
channel, stage by stage, and from there through the loop into batches.
-/
namespace AetherLens.DeliveryProgress

open LossyQueues Messages PacketDelivery Runs

section Loop

/-- The packet loop with the channel that it reads. -/
def reader : Machine (PacketLoop.State × List PacketMessage) PacketLoop.Event :=
  ⟨(PacketLoop.start, []), fun x e => PacketLoop.step x.1 x.2 e⟩

/-- No send fails and no wait is canceled. -/
def GoesOn : PacketLoop.Event → Prop
  | .sendFails => False
  | .waitCanceled => False
  | _ => True

variable {s : PacketLoop.State} (channel : List PacketMessage)

theorem leads_of_sending (hpoint : s.point = .sending) :
    reader.Leads GoesOn (s, channel) ({ s with point := .waiting }, channel) :=
  .of_step (e := .sent) (by simp [reader, PacketLoop.step, hpoint]) trivial

/-- A queue that is drained becomes a batch, and the batch is sent. -/
theorem leads_of_draining (hpoint : s.point = .draining) :
    ∃ t : PacketLoop.State, reader.Leads GoesOn (s, channel) (t, channel) ∧
      t.point = .waiting ∧ t.taken = s.taken := by
  induction hqueue : s.queue generalizing s with
  | nil =>
    by_cases hbatch : s.batch = []
    · refine ⟨{ s with point := .waiting }, .of_step (e := .sendBatch) ?_ trivial, rfl, rfl⟩
      simp [reader, PacketLoop.step, hpoint, hqueue, hbatch]
    · let u : PacketLoop.State :=
        { s with point := .sending, batch := [], batches := s.batches ++ [s.batch] }
      have hsend : reader.Leads GoesOn (s, channel) (u, channel) :=
        .of_step (e := .sendBatch)
          (by simp [reader, PacketLoop.step, hpoint, hqueue, hbatch, u]) trivial
      exact ⟨{ u with point := .waiting }, hsend.trans (leads_of_sending channel rfl), rfl, rfl⟩
  | cons item rest ih =>
    let u : PacketLoop.State := { s with queue := rest, batch := s.batch ++ [item] }
    have hdequeue : reader.Leads GoesOn (s, channel) (u, channel) :=
      .of_step (e := .tryDequeue) (by simp [reader, PacketLoop.step, hpoint, hqueue, u]) trivial
    obtain ⟨t, hleads, hwaiting, htaken⟩ := ih (s := u) hpoint rfl
    exact ⟨t, hdequeue.trans hleads, hwaiting, htaken⟩

/-- What is in the channel is read before anything is sent. -/
theorem leads_of_reading (hpoint : s.point = .reading) :
    ∃ t : PacketLoop.State, reader.Leads GoesOn (s, channel) (t, []) ∧
      t.point = .waiting ∧ t.taken = s.taken ++ channel := by
  induction channel generalizing s with
  | nil =>
    rw [List.append_nil]
    by_cases hqueue : s.queue = []
    · refine ⟨{ s with point := .waiting }, .of_step (e := .tryReadFails) ?_ trivial, rfl, rfl⟩
      simp [reader, PacketLoop.step, hpoint, hqueue]
    · let u : PacketLoop.State := { s with point := .draining, batch := [] }
      have hdrain : reader.Leads GoesOn (s, []) (u, []) :=
        .of_step (e := .tryReadFails) (by simp [reader, PacketLoop.step, hpoint, hqueue, u]) trivial
      obtain ⟨t, hleads, hwaiting, htaken⟩ := leads_of_draining [] (s := u) rfl
      exact ⟨t, hdrain.trans hleads, hwaiting, htaken⟩
  | cons packet rest ih =>
    have hread : reader.Leads GoesOn (s, packet :: rest) (s.take 0 packet, rest) :=
      .of_step (e := .tryRead 0) (by simp [reader, PacketLoop.step, hpoint]) trivial
    obtain ⟨t, hleads, hwaiting, htaken⟩ := ih (s := s.take 0 packet) hpoint
    refine ⟨t, hread.trans hleads, hwaiting, ?_⟩
    rw [htaken]
    simp [PacketLoop.State.take]

theorem leads_of_waiting (hpoint : s.point = .waiting) :
    ∃ t : PacketLoop.State, reader.Leads GoesOn (s, channel) (t, []) ∧
      t.point = .waiting ∧ t.taken = s.taken ++ channel := by
  cases channel with
  | nil => exact ⟨s, .refl _, hpoint, (List.append_nil _).symm⟩
  | cons packet rest =>
    let u : PacketLoop.State := { s with point := .reading }
    have hwait : reader.Leads GoesOn (s, packet :: rest) (u, packet :: rest) :=
      .of_step (e := .waitToRead) (by simp [reader, PacketLoop.step, hpoint, u]) trivial
    obtain ⟨t, hleads, hwaiting, htaken⟩ := leads_of_reading _ (s := u) rfl
    exact ⟨t, hwait.trans hleads, hwaiting, htaken⟩

/-- Wherever the loop stands, it can read all there is and hand it to the hub. -/
theorem loop_catches_up (hpoint : s.point ≠ .stopped) :
    ∃ t : PacketLoop.State, reader.Leads GoesOn (s, channel) (t, []) ∧
      t.point = .waiting ∧ t.taken = s.taken ++ channel := by
  cases h : s.point with
  | waiting => exact leads_of_waiting channel h
  | reading => exact leads_of_reading channel h
  | draining =>
    obtain ⟨u, hleads, hwaiting, htaken⟩ := leads_of_draining channel h
    obtain ⟨t, hleads', hwaiting', htaken'⟩ := leads_of_waiting channel hwaiting
    exact ⟨t, hleads.trans hleads', hwaiting', by rw [htaken', htaken]⟩
  | sending =>
    obtain ⟨t, hleads, hwaiting, htaken⟩ :=
      leads_of_waiting channel (s := { s with point := .waiting }) rfl
    exact ⟨t, (leads_of_sending channel h).trans hleads, hwaiting, htaken⟩
  | stopped => exact absurd h hpoint

end Loop

/-- The stream is up, its reader has not fallen behind, the loop has not been stopped, and
the channel has room for all that is on its way. -/
structure Healthy (s : State) : Prop where
  streaming : s.service.point = .streaming
  accepted : s.accepted = true
  unread_le : s.unread.length ≤ broadcastCapacity
  running : s.loop.point ≠ .stopped
  fits : s.held.length ≤ channelCapacity

/-- The steps that pass on what is held. -/
def Passes : Event → Prop
  | .send => True
  | .pull => True
  | .service e => e = .message
  | .write => True
  | .loop e => GoesOn e
  | _ => False

/-- How far what is held has still to go to the channel. -/
def distance (s : State) : ℕ :=
  4 * s.processing.toList.length + 3 * s.unread.length + 2 * s.inFlight.length +
    s.trade.toList.length

/-- The state differs only in where the messages are that the stages hold. -/
structure SameHeld (s t : State) : Prop where
  held_eq : t.held = s.held
  loop_eq : t.loop = s.loop
  received_eq : t.received = s.received

theorem SameHeld.trans {s t u : State} (h : SameHeld s t) (h' : SameHeld t u) : SameHeld s u where
  held_eq := h'.held_eq.trans h.held_eq
  loop_eq := h'.loop_eq.trans h.loop_eq
  received_eq := h'.received_eq.trans h.received_eq

theorem writes {s : State} {trade : PacketMessage} (htrade : s.trade = some trade)
    (h : s.held.length ≤ channelCapacity) :
    step s .write = some { s with trade := none, channel := s.channel ++ [trade] } := by
  have hroom : s.channel.length < channelCapacity := by
    have hlength : s.held.length = s.channel.length + (s.inFlight.length +
        (s.unread.length + s.processing.toList.length) + 1) := by simp [State.held, htrade]
    omega
  rw [step, htrade, Option.map_some, writeDropOldest, if_pos hroom]

/-- While something is not yet in the channel, some stage can pass it on. -/
theorem stage_passes {s : State} (h : Healthy s) : s.channel = s.held ∨
    ∃ e t, Passes e ∧ step s e = some t ∧ Healthy t ∧ SameHeld s t ∧
      distance t < distance s := by
  cases htrade : s.trade with
  | some trade =>
    have hheld : State.held { s with trade := none, channel := s.channel ++ [trade] } =
        s.held := by simp [State.held, htrade]
    refine Or.inr ⟨.write, _, trivial, writes htrade h.fits, ?_, ⟨hheld, rfl, rfl⟩, ?_⟩
    · exact ⟨h.streaming, h.accepted, h.unread_le, h.running, by rw [hheld]; exact h.fits⟩
    · simp [distance, htrade]
  | none =>
    cases hinFlight : s.inFlight with
    | cons m rest =>
      let t : State := { s with inFlight := rest, trade := some m }
      have hheld : t.held = s.held := by simp [State.held, htrade, hinFlight, t]
      refine Or.inr ⟨.service .message, t, rfl, ?_, ?_, ⟨hheld, rfl, rfl⟩, ?_⟩
      · simp [step, GrpcStream.step, h.streaming, State.afterService, htrade, hinFlight, t]
      · exact ⟨h.streaming, h.accepted, h.unread_le, h.running, by rw [hheld]; exact h.fits⟩
      · simp [distance, htrade, hinFlight, t]
        omega
    | nil =>
      cases hunread : s.unread with
      | cons m rest =>
        have hle := h.unread_le
        rw [hunread, List.length_cons] at hle
        let t : State := { s with unread := rest, inFlight := s.inFlight ++ [m] }
        have hheld : t.held = s.held := by simp [State.held, hunread, t]
        refine Or.inr ⟨.pull, t, trivial, ?_, ?_, ⟨hheld, rfl, rfl⟩, ?_⟩
        · simp only [step, hunread]
          exact if_pos hle
        · exact ⟨h.streaming, h.accepted, Nat.le_of_succ_le hle, h.running,
            by rw [hheld]; exact h.fits⟩
        · simp [distance, hinFlight, hunread, t]
          omega
      | nil =>
        cases hprocessing : s.processing with
        | some p =>
          let t : State := { s with processing := none, unread := s.unread ++ [p.toMessage] }
          have hheld : t.held = s.held := held_send hprocessing
          refine Or.inr ⟨.send, t, trivial, ?_, ?_, ⟨hheld, rfl, rfl⟩, ?_⟩
          · simp [step, hprocessing, h.accepted, t]
          · refine ⟨h.streaming, h.accepted, ?_, h.running, by rw [hheld]; exact h.fits⟩
            simp [hunread, broadcastCapacity, t]
          · simp [distance, hunread, hprocessing, t]
        | none =>
          exact Or.inl (by simp [State.held, htrade, hinFlight, hunread, hprocessing])

/-- All that is held can be brought into the channel. -/
theorem channel_fills {s : State} (h : Healthy s) : ∃ t, machine.Leads Passes s t ∧
    Healthy t ∧ SameHeld s t ∧ t.channel = s.held := by
  have hprogress : ∀ t, Healthy t ∧ SameHeld s t → t.channel = t.held ∨
      ∃ e u, Passes e ∧ machine.step t e = some u ∧ (Healthy u ∧ SameHeld s u) ∧
        distance u < distance t := by
    rintro t ⟨ht, hsame⟩
    rcases stage_passes ht with hdone | ⟨e, u, hpasses, hstep, hu, hsame', hless⟩
    · exact Or.inl hdone
    · exact Or.inr ⟨e, u, hpasses, hstep, ⟨hu, hsame.trans hsame'⟩, hless⟩
  obtain ⟨t, hleads, ⟨ht, hsame⟩, hdone⟩ :=
    Machine.leads_of_progress _ _ distance hprogress s ⟨h, rfl, rfl, rfl⟩
  exact ⟨t, hleads, ht, hsame, hdone.trans hsame.held_eq⟩

/-- The steps of the loop are steps of the delivery. -/
theorem leads_of_reader {s : State} {loop : PacketLoop.State} {channel : List PacketMessage}
    (h : reader.Leads GoesOn (s.loop, s.channel) (loop, channel)) :
    machine.Leads Passes s { s with loop := loop, channel := channel } := by
  have hfollow : ∀ x e y t, GoesOn e → reader.step x e = some y →
      t = { s with loop := x.1, channel := x.2 } →
      ∃ u, machine.Leads Passes t u ∧ u = { s with loop := y.1, channel := y.2 } := by
    rintro x e y _ hgoesOn hstep rfl
    refine ⟨_, .of_step (e := .loop e) ?_ hgoesOn, rfl⟩
    change (PacketLoop.step x.1 x.2 e).map _ = _
    rw [show PacketLoop.step x.1 x.2 e = some y from hstep]
    rfl
  obtain ⟨t, hleads, rfl⟩ := h.follow _ hfollow rfl
  exact hleads

/-- From every healthy state the stages can bring all they hold to the hub, and are healthy
afterwards. -/
theorem delivery_catches_up {s : State} (h : Healthy s) : ∃ t, machine.Leads Passes s t ∧
    Healthy t ∧ t.held = [] ∧ t.loop.point = .waiting ∧
      t.loop.taken = s.loop.taken ++ s.held := by
  obtain ⟨u, hleads, hu, hsame, hchannel⟩ := channel_fills h
  obtain ⟨loop, hloop, hpoint, htaken⟩ := loop_catches_up u.channel hu.running
  have hempty : State.held { u with loop := loop, channel := [] } = [] := by
    have hheld : u.held = u.channel := by rw [hsame.held_eq, hchannel]
    rw [State.held, List.append_right_eq_self] at hheld
    exact hheld
  refine ⟨{ u with loop := loop, channel := [] }, hleads.trans (leads_of_reader hloop), ?_,
    hempty, hpoint, ?_⟩
  · refine ⟨hu.streaming, hu.accepted, hu.unread_le, ?_, ?_⟩
    · simp [hpoint]
    · rw [hempty]
      exact Nat.zero_le _
  · rw [htaken, hsame.loop_eq, hchannel]

/-- The task takes a packet when nothing is held, and all is as healthy as before. -/
theorem healthy_receive {s : State} (h : Healthy s) (hheld : s.held = []) (p : CapturedPacket) :
    step s (.receive p) = some { s with received := s.received ++ [p], processing := some p } ∧
      Healthy { s with received := s.received ++ [p], processing := some p } ∧
      State.held { s with received := s.received ++ [p], processing := some p } =
        [p.toMessage] := by
  have hparts := hheld
  simp only [State.held, List.append_eq_nil_iff, List.map_eq_nil_iff,
    Option.toList_eq_nil_iff] at hparts
  obtain ⟨hchannel, htrade, hinFlight, hunread, hprocessing⟩ := hparts
  have hnew : State.held { s with received := s.received ++ [p], processing := some p } =
      [p.toMessage] := by simp [State.held, hchannel, htrade, hinFlight, hunread]
  refine ⟨by simp [step, hprocessing], ⟨h.streaming, h.accepted, h.unread_le, h.running, ?_⟩, hnew⟩
  rw [hnew]
  exact (by decide : 1 ≤ channelCapacity)

end AetherLens.DeliveryProgress
