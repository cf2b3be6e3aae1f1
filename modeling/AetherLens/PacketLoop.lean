import AetherLens.Messages
import Mathlib.Data.List.Forall2

/-!
The packet loop of the hub. It reads messages while there are any, offers an
update for each to the persistence channel and queues it, then drains the queue
into a batch and sends the batch. The counters and the metrics it feeds on the
way have modules of their own. Nothing it reads is dropped or doubled here.
-/
namespace AetherLens.PacketLoop

open Messages

def latencyMs (now : Int64) (timestamp : UInt64) : Int64 := max 0 (now - timestamp.toInt64)

/-- The update the loop builds from a message. -/
def toUpdate (now : Int64) (packet : PacketMessage) : PacketUpdate where
  process := packet.process
  localAddress := packet.localAddr
  remoteAddress := packet.remoteAddr
  protocol := packet.protocol
  bytes := packet.bytes.toInt64
  outbound := packet.outbound
  timestamp := packet.timestamp.toInt64
  latencyMs := latencyMs now packet.timestamp

inductive Point
  | waiting
  | reading
  | draining
  | sending
  | stopped
deriving DecidableEq, Repr

/-- `taken` and `offered` are the histories of what was read from the channel and
offered to the persistence channel; `batches` are those handed to the hub. -/
structure State where
  point : Point
  queue : List PacketUpdate
  batch : List PacketUpdate
  batches : List (List PacketUpdate)
  taken : List PacketMessage
  offered : List PacketUpdate
deriving DecidableEq, Repr

inductive Event
  | waitToRead
  | tryRead (now : Int64)
  | tryReadFails
  | tryDequeue
  | sendBatch
  | sent
  | sendFails
  | waitCanceled
deriving DecidableEq, Repr

def start : State := ⟨.waiting, [], [], [], [], []⟩

/-- The body of the inner loop after a successful read. -/
def State.take (s : State) (now : Int64) (packet : PacketMessage) : State :=
  let update := toUpdate now packet
  { s with
    taken := s.taken ++ [packet]
    offered := s.offered ++ [update]
    queue := s.queue ++ [update] }

/-- A step on the loop's state and the channel it reads. -/
def step (s : State) (channel : List PacketMessage) : Event → Option (State × List PacketMessage)
  | .waitToRead =>
    if s.point = .waiting ∧ channel ≠ [] then some ({ s with point := .reading }, channel)
    else none
  | .tryRead now =>
    match channel with
    | [] => none
    | packet :: rest => if s.point = .reading then some (s.take now packet, rest) else none
  | .tryReadFails =>
    if s.point = .reading ∧ channel = [] then
      if s.queue = [] then some ({ s with point := .waiting }, channel)
      else some ({ s with point := .draining, batch := [] }, channel)
    else none
  | .tryDequeue =>
    match s.queue with
    | [] => none
    | item :: rest =>
      if s.point = .draining then
        some ({ s with queue := rest, batch := s.batch ++ [item] }, channel)
      else none
  | .sendBatch =>
    if s.point = .draining ∧ s.queue = [] then
      if s.batch = [] then some ({ s with point := .waiting }, channel)
      else some ({ s with
        point := .sending, batch := [], batches := s.batches ++ [s.batch] }, channel)
    else none
  | .sent => if s.point = .sending then some ({ s with point := .waiting }, channel) else none
  | .sendFails => if s.point = .sending then some ({ s with point := .stopped }, channel) else none
  | .waitCanceled =>
    if s.point = .waiting then some ({ s with point := .stopped }, channel) else none

/-- The updates made so far, those in batches first. -/
def State.made (s : State) : List PacketUpdate := s.batches.flatten ++ (s.batch ++ s.queue)

/-- The update is made from the message at some time. -/
def MadeFrom (update : PacketUpdate) (packet : PacketMessage) : Prop :=
  ∃ now, update = toUpdate now packet

/-- Every message taken has become one update, every update has been offered, and
the batch and the queue are empty outside the parts of the loop that fill them. -/
structure State.Valid (s : State) : Prop where
  made_from : List.Forall₂ MadeFrom s.made s.taken
  offered_eq : s.offered = s.made
  batch_nil : s.point ≠ .draining → s.batch = []
  queue_nil : s.point ≠ .draining → s.point ≠ .reading → s.queue = []

theorem start_valid : start.Valid := ⟨List.Forall₂.nil, rfl, fun _ => rfl, fun _ _ => rfl⟩

theorem made_take (s : State) (now : Int64) (packet : PacketMessage) :
    (s.take now packet).made = s.made ++ [toUpdate now packet] := by
  simp [State.take, State.made]

theorem State.Valid.take {s : State} (h : s.Valid) (hpoint : s.point = .reading) (now : Int64)
    (packet : PacketMessage) : (s.take now packet).Valid := by
  refine ⟨?_, ?_, ?_, ?_⟩
  · rw [made_take]
    exact List.rel_append h.made_from (List.Forall₂.cons ⟨now, rfl⟩ List.Forall₂.nil)
  · rw [made_take, ← h.offered_eq]
    rfl
  · exact h.batch_nil
  · intro _ hreading
    exact absurd hpoint hreading

/-- Moving updates towards the batches, in order, keeps everything made. -/
theorem State.Valid.move {s t : State} (h : s.Valid) (hmade : t.made = s.made)
    (htaken : t.taken = s.taken) (hoffered : t.offered = s.offered)
    (hbatch : t.point ≠ .draining → t.batch = [])
    (hqueue : t.point ≠ .draining → t.point ≠ .reading → t.queue = []) : t.Valid := by
  refine ⟨?_, ?_, hbatch, hqueue⟩
  · rw [hmade, htaken]
    exact h.made_from
  · rw [hmade, hoffered]
    exact h.offered_eq

/-- Outside the parts that fill them the loop only moves on. -/
theorem State.Valid.goTo {s : State} (h : s.Valid) (hdraining : s.point ≠ .draining)
    (hreading : s.point ≠ .reading) (point : Point) : State.Valid { s with point := point } :=
  h.move rfl rfl rfl (fun _ => h.batch_nil hdraining) (fun _ _ => h.queue_nil hdraining hreading)

/-- A step takes the first message of the channel or leaves the channel alone. -/
inductive Moves (s : State) (channel : List PacketMessage) :
    Event → State → List PacketMessage → Prop
  | waitToRead (hpoint : s.point = .waiting) (hchannel : channel ≠ []) :
      Moves s channel .waitToRead { s with point := .reading } channel
  | tryRead (now : Int64) (packet : PacketMessage) (rest : List PacketMessage)
      (hchannel : channel = packet :: rest) (hpoint : s.point = .reading) :
      Moves s channel (.tryRead now) (s.take now packet) rest
  | wait (hpoint : s.point = .reading) (hchannel : channel = []) (hqueue : s.queue = []) :
      Moves s channel .tryReadFails { s with point := .waiting } channel
  | drain (hpoint : s.point = .reading) (hchannel : channel = []) (hqueue : s.queue ≠ []) :
      Moves s channel .tryReadFails { s with point := .draining, batch := [] } channel
  | tryDequeue (item : PacketUpdate) (rest : List PacketUpdate) (hqueue : s.queue = item :: rest)
      (hpoint : s.point = .draining) :
      Moves s channel .tryDequeue { s with queue := rest, batch := s.batch ++ [item] } channel
  | skip (hpoint : s.point = .draining) (hqueue : s.queue = []) (hbatch : s.batch = []) :
      Moves s channel .sendBatch { s with point := .waiting } channel
  | sendBatch (hpoint : s.point = .draining) (hqueue : s.queue = []) (hbatch : s.batch ≠ []) :
      Moves s channel .sendBatch
        { s with point := .sending, batch := [], batches := s.batches ++ [s.batch] } channel
  | sent (hpoint : s.point = .sending) : Moves s channel .sent { s with point := .waiting } channel
  | sendFails (hpoint : s.point = .sending) :
      Moves s channel .sendFails { s with point := .stopped } channel
  | waitCanceled (hpoint : s.point = .waiting) :
      Moves s channel .waitCanceled { s with point := .stopped } channel

theorem moves_of_step {s t : State} {channel channel' : List PacketMessage} {e : Event}
    (h : step s channel e = some (t, channel')) : Moves s channel e t channel' := by
  cases e with
  | waitToRead =>
    obtain ⟨⟨hpoint, hchannel⟩, heq⟩ := Option.ite_none_right_eq_some.mp h
    cases heq
    exact .waitToRead hpoint hchannel
  | tryRead now =>
    cases channel with
    | nil => cases h
    | cons packet rest =>
      obtain ⟨hpoint, heq⟩ := Option.ite_none_right_eq_some.mp h
      cases heq
      exact .tryRead now packet _ rfl hpoint
  | tryReadFails =>
    obtain ⟨⟨hpoint, hchannel⟩, heq⟩ := Option.ite_none_right_eq_some.mp h
    by_cases hqueue : s.queue = []
    · rw [if_pos hqueue] at heq
      cases heq
      exact .wait hpoint hchannel hqueue
    · rw [if_neg hqueue] at heq
      cases heq
      exact .drain hpoint hchannel hqueue
  | tryDequeue =>
    cases hqueue : s.queue with
    | nil =>
      rw [step, hqueue] at h
      cases h
    | cons item rest =>
      rw [step, hqueue] at h
      obtain ⟨hpoint, heq⟩ := Option.ite_none_right_eq_some.mp h
      cases heq
      exact .tryDequeue item rest hqueue hpoint
  | sendBatch =>
    obtain ⟨⟨hpoint, hqueue⟩, heq⟩ := Option.ite_none_right_eq_some.mp h
    by_cases hbatch : s.batch = []
    · rw [if_pos hbatch] at heq
      cases heq
      exact .skip hpoint hqueue hbatch
    · rw [if_neg hbatch] at heq
      cases heq
      exact .sendBatch hpoint hqueue hbatch
  | sent =>
    obtain ⟨hpoint, heq⟩ := Option.ite_none_right_eq_some.mp h
    cases heq
    exact .sent hpoint
  | sendFails =>
    obtain ⟨hpoint, heq⟩ := Option.ite_none_right_eq_some.mp h
    cases heq
    exact .sendFails hpoint
  | waitCanceled =>
    obtain ⟨hpoint, heq⟩ := Option.ite_none_right_eq_some.mp h
    cases heq
    exact .waitCanceled hpoint

theorem valid_step {s t : State} {channel channel' : List PacketMessage} {e : Event}
    (hstep : step s channel e = some (t, channel')) (h : s.Valid) : t.Valid := by
  cases moves_of_step hstep with
  | waitToRead hpoint => exact h.goTo (by simp [hpoint]) (by simp [hpoint]) .reading
  | tryRead now packet rest hchannel hpoint => exact h.take hpoint now packet
  | wait hpoint _ hqueue =>
    refine h.move rfl rfl rfl ?_ ?_
    · intro _
      exact h.batch_nil (by simp [hpoint])
    · intro _ _
      exact hqueue
  | drain hpoint =>
    have hbatch : s.batch = [] := h.batch_nil (by simp [hpoint])
    refine h.move ?_ rfl rfl ?_ ?_
    · simp [State.made, hbatch]
    · intro hdraining
      exact absurd rfl hdraining
    · intro hdraining
      exact absurd rfl hdraining
  | tryDequeue item rest hqueue hpoint =>
    refine h.move ?_ rfl rfl ?_ ?_
    · simp [State.made, hqueue]
    · intro hdraining
      exact absurd hpoint hdraining
    · intro hdraining
      exact absurd hpoint hdraining
  | skip _ hqueue hbatch => exact h.move rfl rfl rfl (fun _ => hbatch) (fun _ _ => hqueue)
  | sendBatch _ hqueue =>
    refine h.move ?_ rfl rfl (fun _ => rfl) (fun _ _ => hqueue)
    simp [State.made]
  | sent hpoint => exact h.goTo (by simp [hpoint]) (by simp [hpoint]) .waiting
  | sendFails hpoint => exact h.goTo (by simp [hpoint]) (by simp [hpoint]) .stopped
  | waitCanceled hpoint => exact h.goTo (by simp [hpoint]) (by simp [hpoint]) .stopped

/-- A message leaves the channel exactly when it is taken. -/
theorem taken_step {s t : State} {channel channel' : List PacketMessage} {e : Event}
    (hstep : step s channel e = some (t, channel')) :
    t.taken = s.taken ∧ channel' = channel ∨
      ∃ packet, t.taken = s.taken ++ [packet] ∧ channel = packet :: channel' := by
  cases moves_of_step hstep with
  | tryRead now packet rest hchannel => exact Or.inr ⟨packet, rfl, hchannel⟩
  | waitToRead => exact Or.inl ⟨rfl, rfl⟩
  | wait => exact Or.inl ⟨rfl, rfl⟩
  | drain => exact Or.inl ⟨rfl, rfl⟩
  | tryDequeue => exact Or.inl ⟨rfl, rfl⟩
  | skip => exact Or.inl ⟨rfl, rfl⟩
  | sendBatch => exact Or.inl ⟨rfl, rfl⟩
  | sent => exact Or.inl ⟨rfl, rfl⟩
  | sendFails => exact Or.inl ⟨rfl, rfl⟩
  | waitCanceled => exact Or.inl ⟨rfl, rfl⟩

/-- Between two turns of the loop all that was offered is in the batches. -/
theorem State.Valid.offered_eq_batches {s : State} (h : s.Valid) (hdraining : s.point ≠ .draining)
    (hreading : s.point ≠ .reading) : s.offered = s.batches.flatten := by
  rw [h.offered_eq, State.made, h.batch_nil hdraining, h.queue_nil hdraining hreading]
  simp

/-- The message that a step reads. -/
def takes (channel : List PacketMessage) : Event → List PacketMessage
  | .tryRead _ => channel.head?.toList
  | _ => []

/-- The update that a step offers to the persistence channel. -/
def offers (channel : List PacketMessage) : Event → List PacketUpdate
  | .tryRead now => channel.head?.toList.map (toUpdate now)
  | _ => []

/-- The batch that a step hands to the hub. -/
def sends (s : State) : Event → List (List PacketUpdate)
  | .sendBatch => if s.batch = [] then [] else [s.batch]
  | _ => []

/-- The histories grow by what the steps give. -/
theorem histories_step {s t : State} {channel channel' : List PacketMessage} {e : Event}
    (hstep : step s channel e = some (t, channel')) :
    t.taken = s.taken ++ takes channel e ∧ t.offered = s.offered ++ offers channel e ∧
      t.batches = s.batches ++ sends s e := by
  cases moves_of_step hstep with
  | tryRead now packet rest hchannel =>
    rw [hchannel]
    exact ⟨rfl, rfl, (List.append_nil _).symm⟩
  | skip _ _ hbatch => simp [takes, offers, sends, hbatch]
  | sendBatch _ _ hbatch => simp [takes, offers, sends, hbatch]
  | _ => simp [takes, offers, sends]

end AetherLens.PacketLoop
