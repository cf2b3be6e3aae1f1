import AetherLens.Runs

/-!
The subscription loop of the stream service and the flag it shows as connected.
A step runs to the next place where the loop waits, reads the stop token or
subscribes, so a handler's first statement belongs to the failure it handles.
The flag outlives a stream that ends by itself or fails in a way that no
handler matches, and no other.
-/
namespace AetherLens.GrpcStream

open Runs

inductive StatusCode
  | ok
  | cancelled
  | unknown
  | invalidArgument
  | deadlineExceeded
  | notFound
  | alreadyExists
  | permissionDenied
  | unauthenticated
  | resourceExhausted
  | failedPrecondition
  | aborted
  | outOfRange
  | unimplemented
  | internal
  | unavailable
  | dataLoss
deriving DecidableEq, Repr

/-- What may be thrown while a stream is subscribed to or read. -/
inductive Failure
  | rpc (status : StatusCode)
  | operationCanceled
  | other
deriving DecidableEq, Repr

inductive Point
  | loopHead
  | subscribing
  | streaming
  | delaying
  | finished (thrown : Option Failure)
deriving DecidableEq, Repr

/-- The delay is counted in ticks of a tenth of a microsecond. -/
structure State where
  point : Point
  connected : Bool
  delay : ℕ
  stopRequested : Bool
deriving DecidableEq, Repr

inductive Event
  | requestStop
  | checkStop
  | subscribe
  | message
  | streamEnds
  | fails (failure : Failure)
  | delayOver
  | delayCanceled
deriving DecidableEq, Repr

def ticksPerSecond : ℕ := 10000000

def initialDelay : ℕ := 2 * ticksPerSecond

def maxDelay : ℕ := 30 * ticksPerSecond

def setGrpcConnected (s : State) (connected : Bool) : State := { s with connected := connected }

/-- The two catch clauses. A failure that neither matches leaves the method. -/
def State.handle (s : State) : Failure → State
  | .rpc .unavailable => { setGrpcConnected s false with point := .delaying }
  | .rpc .internal => { setGrpcConnected s false with point := .delaying }
  | .operationCanceled =>
    if s.stopRequested then { setGrpcConnected s false with point := .finished none }
    else { s with point := .finished (some .operationCanceled) }
  | failure => { s with point := .finished (some failure) }

def step (s : State) : Event → Option State
  | .requestStop => some { s with stopRequested := true }
  | .checkStop =>
    if s.point = .loopHead then
      if s.stopRequested then some { setGrpcConnected s false with point := .finished none }
      else some { s with point := .subscribing }
    else none
  | .subscribe =>
    if s.point = .subscribing then
      some { setGrpcConnected s true with point := .streaming, delay := initialDelay }
    else none
  | .message => if s.point = .streaming then some s else none
  | .streamEnds => if s.point = .streaming then some { s with point := .loopHead } else none
  | .fails failure =>
    if s.point = .subscribing ∨ s.point = .streaming then some (s.handle failure) else none
  | .delayOver =>
    if s.point = .delaying then
      some { s with point := .loopHead, delay := min (2 * s.delay) maxDelay }
    else none
  | .delayCanceled =>
    if s.point = .delaying ∧ s.stopRequested = true then
      some { s with point := .finished (some .operationCanceled) }
    else none

def start : State := ⟨.loopHead, false, initialDelay, false⟩

def machine : Machine State Event := ⟨start, step⟩

/-- What a step does, with its guard. -/
inductive Moves (s : State) : Event → State → Prop
  | requestStop : Moves s .requestStop { s with stopRequested := true }
  | leave (hpoint : s.point = .loopHead) (hstop : s.stopRequested = true) :
      Moves s .checkStop { setGrpcConnected s false with point := .finished none }
  | enter (hpoint : s.point = .loopHead) (hstop : s.stopRequested = false) :
      Moves s .checkStop { s with point := .subscribing }
  | subscribe (hpoint : s.point = .subscribing) :
      Moves s .subscribe
        { setGrpcConnected s true with point := .streaming, delay := initialDelay }
  | message (hpoint : s.point = .streaming) : Moves s .message s
  | streamEnds (hpoint : s.point = .streaming) :
      Moves s .streamEnds { s with point := .loopHead }
  | fails (failure : Failure) (hpoint : s.point = .subscribing ∨ s.point = .streaming) :
      Moves s (.fails failure) (s.handle failure)
  | delayOver (hpoint : s.point = .delaying) :
      Moves s .delayOver { s with point := .loopHead, delay := min (2 * s.delay) maxDelay }
  | delayCanceled (hpoint : s.point = .delaying) (hstop : s.stopRequested = true) :
      Moves s .delayCanceled { s with point := .finished (some .operationCanceled) }

theorem moves_of_step {s t : State} {e : Event} (h : machine.step s e = some t) :
    Moves s e t := by
  cases e with
  | checkStop =>
    simp only [machine, step] at h
    split at h
    next hpoint =>
      split at h
      next hstop =>
        cases h
        exact .leave hpoint hstop
      next hstop =>
        cases h
        exact .enter hpoint (by simpa using hstop)
    next => cases h
  | requestStop =>
    cases h
    exact .requestStop
  | subscribe =>
    obtain ⟨hpoint, heq⟩ := Option.ite_none_right_eq_some.mp h
    cases heq
    exact .subscribe hpoint
  | message =>
    obtain ⟨hpoint, heq⟩ := Option.ite_none_right_eq_some.mp h
    cases heq
    exact .message hpoint
  | streamEnds =>
    obtain ⟨hpoint, heq⟩ := Option.ite_none_right_eq_some.mp h
    cases heq
    exact .streamEnds hpoint
  | fails failure =>
    obtain ⟨hpoint, heq⟩ := Option.ite_none_right_eq_some.mp h
    cases heq
    exact .fails failure hpoint
  | delayOver =>
    obtain ⟨hpoint, heq⟩ := Option.ite_none_right_eq_some.mp h
    cases heq
    exact .delayOver hpoint
  | delayCanceled =>
    obtain ⟨⟨hpoint, hstop⟩, heq⟩ := Option.ite_none_right_eq_some.mp h
    cases heq
    exact .delayCanceled hpoint hstop

theorem point_handle_ne_streaming (s : State) (failure : Failure) :
    (s.handle failure).point ≠ .streaming := by
  unfold State.handle
  split
  · simp
  · simp
  · split <;> simp
  · simp

/-- A subscribed stream shows as connected. -/
def StreamingIsConnected (s : State) : Prop := s.point = .streaming → s.connected = true

theorem streamingIsConnected_step (s : State) (e : Event) (t : State)
    (hstep : machine.step s e = some t) (h : StreamingIsConnected s) :
    StreamingIsConnected t := by
  intro ht
  cases moves_of_step hstep with
  | requestStop => exact h ht
  | leave => cases ht
  | enter => cases ht
  | subscribe => rfl
  | message hpoint => exact h hpoint
  | streamEnds => cases ht
  | fails failure => exact absurd ht (point_handle_ne_streaming s failure)
  | delayOver => cases ht
  | delayCanceled => cases ht

/-- The flag is set only while a stream is subscribed to. -/
def ConnectedOnlyWhileStreaming (s : State) : Prop := s.point = .streaming ∨ s.connected = false

/-- The failures for which a handler clears the flag. -/
def Failure.Handled (stopRequested : Bool) : Failure → Prop
  | .rpc status => status = .unavailable ∨ status = .internal
  | .operationCanceled => stopRequested = true
  | .other => False

/-- In this step no subscribed stream ends by itself or fails unhandled. -/
def ClearsFlag (s : State) (e : Event) : Prop :=
  s.point = .streaming → e ≠ .streamEnds ∧ ∀ failure, e = .fails failure →
    failure.Handled s.stopRequested

theorem clearsFlag_of_ne {s : State} {e : Event} (hends : e ≠ .streamEnds)
    (hfails : ∀ failure, e ≠ .fails failure) : ClearsFlag s e :=
  fun _ => ⟨hends, fun failure hfailure => absurd hfailure (hfails failure)⟩

instance (stopRequested : Bool) : (failure : Failure) → Decidable (failure.Handled stopRequested)
  | .rpc _ => inferInstanceAs (Decidable (_ ∨ _))
  | .operationCanceled => inferInstanceAs (Decidable (_ = _))
  | .other => inferInstanceAs (Decidable False)

instance (s : State) : (e : Event) → Decidable (ClearsFlag s e)
  | .streamEnds => decidable_of_iff (s.point ≠ .streaming) (by simp [ClearsFlag])
  | .fails failure => decidable_of_iff
      (s.point = .streaming → failure.Handled s.stopRequested) (by simp [ClearsFlag])
  | .requestStop | .checkStop | .subscribe | .message | .delayOver | .delayCanceled =>
    isTrue (clearsFlag_of_ne (by simp) (by simp))

theorem clearsFlag_of_not_streaming {s : State} {e : Event} (h : s.point ≠ .streaming) :
    ClearsFlag s e := fun hstreaming => absurd hstreaming h

theorem connected_handle_of_connected {s : State} (failure : Failure) (h : s.connected = true) :
    (s.handle failure).connected = false ↔ failure.Handled s.stopRequested := by
  cases failure with
  | rpc status => cases status <;> simp [State.handle, Failure.Handled, setGrpcConnected, h]
  | operationCanceled =>
    by_cases hstop : s.stopRequested = true
    · simp [State.handle, Failure.Handled, setGrpcConnected, hstop]
    · simp [State.handle, Failure.Handled, hstop, h]
  | other => simp [State.handle, Failure.Handled, h]

theorem connected_handle_of_not_connected {s : State} (failure : Failure)
    (h : s.connected = false) : (s.handle failure).connected = false := by
  unfold State.handle
  split
  · rfl
  · rfl
  · split
    · rfl
    · exact h
  · exact h

/-- A step keeps the flag in accord with the stream exactly if it clears the flag of
the stream that it ends. -/
theorem connectedOnlyWhileStreaming_step (s : State) (e : Event) (t : State)
    (hstep : machine.step s e = some t) (hstreaming : StreamingIsConnected s)
    (h : ConnectedOnlyWhileStreaming s) : ConnectedOnlyWhileStreaming t ↔ ClearsFlag s e := by
  cases moves_of_step hstep with
  | requestStop => exact iff_of_true h (clearsFlag_of_ne (by simp) (by simp))
  | leave => exact iff_of_true (Or.inr rfl) (clearsFlag_of_ne (by simp) (by simp))
  | enter hpoint =>
    rcases h with hother | hfalse
    · rw [hpoint] at hother
      cases hother
    · exact iff_of_true (Or.inr hfalse) (clearsFlag_of_ne (by simp) (by simp))
  | subscribe => exact iff_of_true (Or.inl rfl) (clearsFlag_of_ne (by simp) (by simp))
  | message => exact iff_of_true h (clearsFlag_of_ne (by simp) (by simp))
  | streamEnds hpoint =>
    refine iff_of_false ?_ fun hclears => (hclears hpoint).1 rfl
    intro hgood
    rcases hgood with hother | hfalse
    · cases hother
    · rw [hstreaming hpoint] at hfalse
      cases hfalse
  | fails failure hpoint =>
    have hgood : ConnectedOnlyWhileStreaming (s.handle failure) ↔
        (s.handle failure).connected = false :=
      or_iff_right (point_handle_ne_streaming s failure)
    rw [hgood]
    rcases hpoint with hsubscribing | hpoint
    · have hne : s.point ≠ .streaming := by simp [hsubscribing]
      exact iff_of_true (connected_handle_of_not_connected failure (h.resolve_left hne))
        (clearsFlag_of_not_streaming hne)
    · rw [connected_handle_of_connected failure (hstreaming hpoint)]
      constructor
      · intro hhandled _
        refine ⟨by simp, fun failure' heq => ?_⟩
        cases heq
        exact hhandled
      · exact fun hclears => (hclears hpoint).2 failure rfl
  | delayOver hpoint =>
    have hne : s.point ≠ .streaming := by simp [hpoint]
    exact iff_of_true (Or.inr (h.resolve_left hne)) (clearsFlag_of_not_streaming hne)
  | delayCanceled hpoint =>
    have hne : s.point ≠ .streaming := by simp [hpoint]
    exact iff_of_true (Or.inr (h.resolve_left hne)) (clearsFlag_of_not_streaming hne)

/-- The flag is down whenever no stream is subscribed to, after the end included,
in exactly the runs whose streams all fail in a way that a handler matches. -/
theorem connected_only_while_streaming_iff (es : List Event) (s : State)
    (hs : machine.run es = some s) :
    machine.Always ConnectedOnlyWhileStreaming es ↔ machine.Meets ClearsFlag es := by
  refine machine.always_iff_meets StreamingIsConnected ?_ streamingIsConnected_step
    (Or.inr rfl) connectedOnlyWhileStreaming_step es s hs
  intro hpoint
  cases hpoint

/-- The server is lost once and found again, then the service stops. -/
def retriedRun : List Event :=
  [.checkStop, .subscribe, .message, .fails (.rpc .unavailable), .delayOver, .checkStop,
    .subscribe, .message, .requestStop, .fails .operationCanceled]

theorem connected_only_while_streaming_iff_retried :
    machine.run retriedRun = some ⟨.finished none, false, initialDelay, true⟩ ∧
      machine.Always ConnectedOnlyWhileStreaming retriedRun := by
  have hrun : machine.run retriedRun = some ⟨.finished none, false, initialDelay, true⟩ := rfl
  exact ⟨hrun, (connected_only_while_streaming_iff retriedRun _ hrun).mpr (by decide)⟩

/-- A stop that surfaces as a cancelled call leaves the method with the flag set,
and a stream that ends by itself leaves it set until the next subscription. -/
theorem connected_outlives_stream :
    (machine.run [.checkStop, .subscribe, .requestStop, .fails (.rpc .cancelled)] =
        some ⟨.finished (some (.rpc .cancelled)), true, initialDelay, true⟩ ∧
      ¬ machine.Always ConnectedOnlyWhileStreaming
        [.checkStop, .subscribe, .requestStop, .fails (.rpc .cancelled)]) ∧
    (machine.run [.checkStop, .subscribe, .streamEnds] =
        some ⟨.loopHead, true, initialDelay, false⟩ ∧
      ¬ machine.Always ConnectedOnlyWhileStreaming [.checkStop, .subscribe, .streamEnds]) := by
  refine ⟨⟨rfl, ?_⟩, ⟨rfl, ?_⟩⟩
  · intro h
    rcases h _ (List.prefix_refl _) _ rfl with hpoint | hflag
    · cases hpoint
    · cases hflag
  · intro h
    rcases h _ (List.prefix_refl _) _ rfl with hpoint | hflag
    · cases hpoint
    · cases hflag

end AetherLens.GrpcStream
