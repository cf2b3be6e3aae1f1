import AetherLens.DashboardStore

/-!
The alert loop of the hub. It reads alerts while there are any and sends each on its
own, with a severity that it reads off the score. The next one is read when the hub has
taken the last, so what has been sent is what was read, one for one.
-/
namespace AetherLens.SuspiciousConsumer

open DashboardStore Messages

def severity (score : ℚ) : String :=
  if score ≥ 0.9 then "CRITICAL" else if score ≥ 0.8 then "WARNING" else "INFO"

def toAlert (item : SuspiciousConnectionMessage) : SuspiciousOutboundConnection where
  process := item.process
  remoteAddress := item.remoteAddr
  reason := item.reason
  severity := severity item.score
  score := item.score
  timestamp := item.timestamp.toInt64.toInt

inductive Point
  | waiting
  | reading
  | sending
  | stopped
deriving DecidableEq, Repr

/-- `taken` is the history of what was read from the channel, and `sent` of what was
handed to the hub. -/
structure State where
  point : Point
  taken : List SuspiciousConnectionMessage
  sent : List SuspiciousOutboundConnection
deriving DecidableEq, Repr

inductive Event
  | waitToRead
  | tryRead
  | tryReadFails
  | sent
  | sendFails
  | waitCanceled
deriving DecidableEq, Repr

def start : State := ⟨.waiting, [], []⟩

def State.take (s : State) (item : SuspiciousConnectionMessage) : State :=
  ⟨.sending, s.taken ++ [item], s.sent ++ [toAlert item]⟩

/-- A step on the loop's state and the channel it reads. -/
def step (s : State) (channel : List SuspiciousConnectionMessage) :
    Event → Option (State × List SuspiciousConnectionMessage)
  | .waitToRead =>
    if s.point = .waiting ∧ channel ≠ [] then some ({ s with point := .reading }, channel)
    else none
  | .tryRead =>
    match channel with
    | [] => none
    | item :: rest => if s.point = .reading then some (s.take item, rest) else none
  | .tryReadFails =>
    if s.point = .reading ∧ channel = [] then some ({ s with point := .waiting }, channel)
    else none
  | .sent => if s.point = .sending then some ({ s with point := .reading }, channel) else none
  | .sendFails =>
    if s.point = .sending then some ({ s with point := .stopped }, channel) else none
  | .waitCanceled =>
    if s.point = .waiting then some ({ s with point := .stopped }, channel) else none

/-- A step takes the first alert of the channel or leaves the channel alone. -/
inductive Moves (s : State) (channel : List SuspiciousConnectionMessage) :
    State → List SuspiciousConnectionMessage → Prop
  | goTo (point : Point) : Moves s channel { s with point := point } channel
  | take (item : SuspiciousConnectionMessage) (rest : List SuspiciousConnectionMessage)
      (hchannel : channel = item :: rest) : Moves s channel (s.take item) rest

theorem moves_of_step {s t : State} {channel channel' : List SuspiciousConnectionMessage}
    {e : Event} (h : step s channel e = some (t, channel')) : Moves s channel t channel' := by
  cases e with
  | waitToRead =>
    obtain ⟨-, heq⟩ := Option.ite_none_right_eq_some.mp h
    cases heq
    exact .goTo .reading
  | tryRead =>
    simp only [step] at h
    split at h
    next => cases h
    next item rest =>
      obtain ⟨-, heq⟩ := Option.ite_none_right_eq_some.mp h
      cases heq
      exact .take item _ rfl
  | tryReadFails =>
    obtain ⟨-, heq⟩ := Option.ite_none_right_eq_some.mp h
    cases heq
    exact .goTo .waiting
  | sent =>
    obtain ⟨-, heq⟩ := Option.ite_none_right_eq_some.mp h
    cases heq
    exact .goTo .reading
  | sendFails =>
    obtain ⟨-, heq⟩ := Option.ite_none_right_eq_some.mp h
    cases heq
    exact .goTo .stopped
  | waitCanceled =>
    obtain ⟨-, heq⟩ := Option.ite_none_right_eq_some.mp h
    cases heq
    exact .goTo .stopped

/-- Every alert read has been sent once, in order. -/
def State.Valid (s : State) : Prop := s.sent = s.taken.map toAlert

theorem State.Valid.moves {s t : State} {channel channel' : List SuspiciousConnectionMessage}
    (h : s.Valid) (hmoves : Moves s channel t channel') : t.Valid := by
  cases hmoves with
  | goTo point => exact h
  | take item rest =>
    unfold State.Valid at h ⊢
    rw [State.take, h, List.map_append]
    rfl

/-- The alert that a step hands to the hub. -/
def sends (channel : List SuspiciousConnectionMessage) :
    Event → List SuspiciousOutboundConnection
  | .tryRead => channel.head?.toList.map toAlert
  | _ => []

theorem sent_step {s t : State} {channel channel' : List SuspiciousConnectionMessage} {e : Event}
    (hstep : step s channel e = some (t, channel')) : t.sent = s.sent ++ sends channel e := by
  cases e with
  | tryRead =>
    cases channel with
    | nil => cases hstep
    | cons item rest =>
      obtain ⟨-, heq⟩ := Option.ite_none_right_eq_some.mp hstep
      cases heq
      rfl
  | _ =>
    obtain ⟨-, heq⟩ := Option.ite_none_right_eq_some.mp hstep
    cases heq
    simp [sends]

end AetherLens.SuspiciousConsumer
