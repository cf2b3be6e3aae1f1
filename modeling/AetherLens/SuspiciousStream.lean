import AetherLens.GrpcStream

/-!
The subscription loop of the alert service. It is the loop of the packet service
without the connection flag and with a fixed delay: the two take the same steps, and
the state of this one is the other's less what it does not keep.
-/
namespace AetherLens.SuspiciousStream

open GrpcStream Runs

structure State where
  point : Point
  stopRequested : Bool
deriving DecidableEq, Repr

/-- The two catch clauses. -/
def State.handle (s : State) : Failure → State
  | .rpc .unavailable => { s with point := .delaying }
  | .rpc .internal => { s with point := .delaying }
  | .operationCanceled =>
    if s.stopRequested then { s with point := .finished none }
    else { s with point := .finished (some .operationCanceled) }
  | failure => { s with point := .finished (some failure) }

/-- The delay is two seconds each time. -/
def step (s : State) : Event → Option State
  | .requestStop => some { s with stopRequested := true }
  | .checkStop =>
    if s.point = .loopHead then
      if s.stopRequested then some { s with point := .finished none }
      else some { s with point := .subscribing }
    else none
  | .subscribe =>
    if s.point = .subscribing then some { s with point := .streaming } else none
  | .message => if s.point = .streaming then some s else none
  | .streamEnds => if s.point = .streaming then some { s with point := .loopHead } else none
  | .fails failure =>
    if s.point = .subscribing ∨ s.point = .streaming then some (s.handle failure) else none
  | .delayOver => if s.point = .delaying then some { s with point := .loopHead } else none
  | .delayCanceled =>
    if s.point = .delaying ∧ s.stopRequested = true then
      some { s with point := .finished (some .operationCanceled) }
    else none

def start : State := ⟨.loopHead, false⟩

def machine : Machine State Event := ⟨start, step⟩

/-- What this service keeps of the state of the other. -/
def forget (s : GrpcStream.State) : State := ⟨s.point, s.stopRequested⟩

theorem handle_forget (s : GrpcStream.State) (failure : Failure) :
    forget (s.handle failure) = (forget s).handle failure := by
  cases failure with
  | rpc status => cases status <;> rfl
  | operationCanceled =>
    unfold GrpcStream.State.handle State.handle
    by_cases hstop : s.stopRequested = true
    · simp [forget, setGrpcConnected, hstop]
    · simp [forget, hstop]
  | other => rfl

theorem step_forget (s : GrpcStream.State) (e : Event) :
    (GrpcStream.step s e).map forget = step (forget s) e := by
  cases e with
  | requestStop => rfl
  | checkStop =>
    by_cases hpoint : s.point = .loopHead
    · by_cases hstop : s.stopRequested = true
      · simp [GrpcStream.step, step, forget, setGrpcConnected, hpoint, hstop]
      · simp [GrpcStream.step, step, forget, hpoint, hstop]
    · simp [GrpcStream.step, step, forget, hpoint]
  | fails failure =>
    rw [GrpcStream.step, Option.map_if, handle_forget]
    rfl
  | subscribe => exact Option.map_if
  | message => exact Option.map_if
  | streamEnds => exact Option.map_if
  | delayOver => exact Option.map_if
  | delayCanceled => exact Option.map_if

/-- The two services run through the same places on the same events, and one can take a
step exactly when the other can. -/
theorem same_runs (es : List Event) :
    (GrpcStream.machine.run es).map forget = machine.run es := by
  induction es using List.reverseRecOn with
  | nil => rfl
  | append_singleton es e ih =>
    rw [Machine.run_snoc, Machine.run_snoc, ← ih]
    cases GrpcStream.machine.run es with
    | none => rfl
    | some s => exact step_forget s e

end AetherLens.SuspiciousStream
