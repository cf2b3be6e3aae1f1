import AetherLens.GrpcStream
import Mathlib.Algebra.Group.Nat.Defs

/-!
The wait between two subscription attempts. The delay is doubled after each wait, but
set back as soon as the next call object is there, before anything has come over the
connection. A failure surfaces while the stream is read, so every wait after a failure
is the first one, and a stream closed by the server is followed by no wait at all.
-/
namespace AetherLens.ReconnectDelay

open Runs GrpcStream

/-- What an observer notes of the attempts. `silent` counts those in a row, up to the
last one that ended, that delivered no message, and `waited` the ticks since then. -/
structure Attempts where
  delivered : Bool
  silent : ℕ
  waited : ℕ
  closed : Bool
deriving DecidableEq, Repr

/-- The attempt ends, either closed by the server or with a failure that is retried. -/
def Attempts.ended (a : Attempts) (closed : Bool) : Attempts :=
  { a with
    silent := if a.delivered then 0 else a.silent + 1
    waited := 0
    closed := closed }

def Attempts.note (s : State) (a : Attempts) : Event → Attempts
  | .checkStop => { a with delivered := false }
  | .message => { a with delivered := true, silent := 0 }
  | .streamEnds => a.ended true
  | .fails (.rpc .unavailable) => a.ended false
  | .fails (.rpc .internal) => a.ended false
  | .delayOver => { a with waited := a.waited + s.delay }
  | _ => a

def attempts : Machine (State × Attempts) Event :=
  GrpcStream.machine.observed ⟨false, 0, 0, false⟩ Attempts.note

/-- The call object is returned without waiting for the connection. -/
def SurfacesWhileReading (s : State) (e : Event) : Prop :=
  s.point = .subscribing → e ≠ .fails (.rpc .unavailable) ∧ e ≠ .fails (.rpc .internal)

instance (s : State) (e : Event) : Decidable (SurfacesWhileReading s e) :=
  inferInstanceAs (Decidable (_ → _))

/-- The wait after the `i`-th silent attempt in a row, in ticks. -/
def backoff (i : ℕ) : ℕ := min (2 * 2 ^ (i - 1)) 30 * ticksPerSecond

/-- The next attempt starts here, and the one before it was silent. -/
def RetriesSilent (x : State × Attempts) (e : Event) : Prop :=
  e = .checkStop ∧ x.1.point = .loopHead ∧ x.1.stopRequested = false ∧ 0 < x.2.silent

instance (x : State × Attempts) (e : Event) : Decidable (RetriesSilent x e) :=
  inferInstanceAs (Decidable (_ ∧ _))

/-- An attempt that follows a silent one has waited as long as the back-off says. -/
def BacksOff (x : State × Attempts) (e : Event) : Prop :=
  RetriesSilent x e → x.2.waited = backoff x.2.silent

instance (x : State × Attempts) (e : Event) : Decidable (BacksOff x e) :=
  inferInstanceAs (Decidable (_ → _))

/-- No silent attempt follows another one, and none is closed by the server, as far as
a further attempt is made. -/
def IsolatedFailure (x : State × Attempts) (e : Event) : Prop :=
  RetriesSilent x e → x.2.silent = 1 ∧ x.2.closed = false

instance (x : State × Attempts) (e : Event) : Decidable (IsolatedFailure x e) :=
  inferInstanceAs (Decidable (_ → _))

theorem backoff_one : backoff 1 = initialDelay := rfl

theorem backoff_pos (i : ℕ) : 0 < backoff i := by
  have hpow : 0 < 2 ^ (i - 1) := Nat.two_pow_pos _
  unfold backoff ticksPerSecond
  omega

/-- From the second silent attempt on the wait should be longer than the first. -/
theorem initialDelay_lt_backoff {i : ℕ} (hi : 1 < i) : initialDelay < backoff i := by
  obtain ⟨k, rfl⟩ : ∃ k, i = k + 2 := ⟨i - 2, by omega⟩
  have hpow : 2 ^ (k + 2 - 1) = 2 ^ k * 2 := by
    rw [Nat.add_sub_assoc (by decide), Nat.pow_succ]
  have hpos : 0 < 2 ^ k := Nat.two_pow_pos _
  unfold backoff initialDelay ticksPerSecond
  rw [hpow]
  omega

/-- The delay is the initial one wherever it is used, and the time waited when a turn
begins is that delay or nothing. -/
structure Inv (x : State × Attempts) : Prop where
  streaming : x.1.point = .streaming → x.1.delay = initialDelay
  delaying : x.1.point = .delaying →
    x.1.delay = initialDelay ∧ x.2.waited = 0 ∧ x.2.closed = false
  loopHead : x.1.point = .loopHead → 0 < x.2.silent →
    x.2.closed = true ∧ x.2.waited = 0 ∨ x.2.closed = false ∧ x.2.waited = initialDelay

theorem inv_start : Inv attempts.start where
  streaming := nofun
  delaying := nofun
  loopHead := by
    intro _ hsilent
    cases hsilent

theorem inv_of_finished {x : State × Attempts} {thrown : Option Failure}
    (h : x.1.point = .finished thrown) : Inv x where
  streaming := by simp [h]
  delaying := by simp [h]
  loopHead := by simp [h]

/-- Of the failures only the two that are retried keep the loop going. -/
theorem inv_handle {s : State} {a : Attempts} (failure : Failure)
    (hretried : failure = .rpc .unavailable ∨ failure = .rpc .internal →
      s.delay = initialDelay) : Inv (s.handle failure, a.note s (.fails failure)) := by
  have hdelaying : s.delay = initialDelay →
      Inv ({ setGrpcConnected s false with point := .delaying }, a.ended false) :=
    fun hdelay => ⟨nofun, fun _ => ⟨hdelay, rfl, rfl⟩, nofun⟩
  unfold State.handle
  split
  · exact hdelaying (hretried (Or.inl rfl))
  · exact hdelaying (hretried (Or.inr rfl))
  · split
    · exact inv_of_finished rfl
    · exact inv_of_finished rfl
  · exact inv_of_finished rfl

theorem inv_step (x : State × Attempts) (e : Event) (y : State × Attempts)
    (hstep : attempts.step x e = some y) (hsurfaces : SurfacesWhileReading x.1 e)
    (h : Inv x) : Inv y := by
  obtain ⟨t, ht, rfl⟩ := Option.map_eq_some_iff.mp hstep
  cases moves_of_step ht with
  | requestStop => exact ⟨h.streaming, h.delaying, h.loopHead⟩
  | leave => exact inv_of_finished rfl
  | enter => exact ⟨nofun, nofun, nofun⟩
  | subscribe => exact ⟨fun _ => rfl, nofun, nofun⟩
  | message hpoint =>
    refine ⟨h.streaming, ?_, ?_⟩
    · simp [hpoint]
    · simp [hpoint]
  | streamEnds => exact ⟨nofun, nofun, fun _ _ => Or.inl ⟨rfl, rfl⟩⟩
  | fails failure hpoint =>
    refine inv_handle failure fun hretried => ?_
    rcases hpoint with hsubscribing | hstreaming
    · obtain ⟨hunavailable, hinternal⟩ := hsurfaces hsubscribing
      rcases hretried with rfl | rfl
      · exact absurd rfl hunavailable
      · exact absurd rfl hinternal
    · exact h.streaming hstreaming
  | delayOver hpoint =>
    obtain ⟨hdelay, hwaited, hclosed⟩ := h.delaying hpoint
    refine ⟨nofun, nofun, fun _ _ => Or.inr ⟨hclosed, ?_⟩⟩
    change x.2.waited + x.1.delay = initialDelay
    rw [hwaited, hdelay, Nat.zero_add]
  | delayCanceled => exact inv_of_finished rfl

/-- Where the next attempt starts the wait is right only after a single failure. -/
theorem backsOff_iff (x : State × Attempts) (e : Event) (h : Inv x) :
    BacksOff x e ↔ IsolatedFailure x e := by
  unfold BacksOff IsolatedFailure
  refine imp_congr_right ?_
  rintro ⟨-, hpoint, -, hsilent⟩
  rcases h.loopHead hpoint hsilent with ⟨hclosed, hwaited⟩ | ⟨hclosed, hwaited⟩
  · refine iff_of_false ?_ ?_
    · rw [hwaited]
      exact Nat.ne_of_lt (backoff_pos x.2.silent)
    · simp [hclosed]
  · rw [hwaited]
    constructor
    · intro heq
      refine ⟨?_, hclosed⟩
      by_contra hne
      have hlt := initialDelay_lt_backoff (i := x.2.silent) (by omega)
      omega
    · rintro ⟨hone, -⟩
      rw [hone, backoff_one]

theorem exists_attempts {es : List Event} {s : State} (hrun : GrpcStream.machine.run es = some s) :
    ∃ a, attempts.run es = some (s, a) := by
  rw [← GrpcStream.machine.run_observed ⟨false, 0, 0, false⟩ Attempts.note] at hrun
  obtain ⟨⟨s', a⟩, hx, rfl⟩ := Option.map_eq_some_iff.mp hrun
  exact ⟨a, hx⟩

/-- The waits follow the back-off in exactly the runs where no silent attempt follows
another one or is closed by the server before a further attempt. -/
theorem backsOff_run_iff (es : List Event) (s : State)
    (hrun : GrpcStream.machine.run es = some s)
    (hsurfaces : GrpcStream.machine.Meets SurfacesWhileReading es) :
    attempts.Meets BacksOff es ↔ attempts.Meets IsolatedFailure es := by
  obtain ⟨a, hx⟩ := exists_attempts hrun
  have hreading : attempts.Meets (fun x e => SurfacesWhileReading x.1 e) es :=
    (GrpcStream.machine.meets_observed _ _ SurfacesWhileReading es _ hx).mpr hsurfaces
  have halways : attempts.Always Inv es :=
    attempts.always_of_meets_of_step inv_start inv_step es _ hx hreading
  exact attempts.meets_congr_of_always backsOff_iff hx halways

/-- The server is lost before a message, found again and lost after one, and then lost
before a message again. -/
def isolatedRun : List Event :=
  [.checkStop, .subscribe, .fails (.rpc .unavailable), .delayOver, .checkStop, .subscribe,
    .message, .fails (.rpc .internal), .delayOver, .checkStop, .subscribe,
    .fails (.rpc .unavailable), .delayOver, .checkStop]

theorem backsOff_run_iff_isolated :
    GrpcStream.machine.run isolatedRun = some ⟨.subscribing, false, 2 * initialDelay, false⟩ ∧
      attempts.Meets BacksOff isolatedRun := by
  have hrun : GrpcStream.machine.run isolatedRun =
      some ⟨.subscribing, false, 2 * initialDelay, false⟩ := rfl
  exact ⟨hrun, (backsOff_run_iff isolatedRun _ hrun (by decide)).mpr (by decide)⟩

def unavailableTwice : List Event :=
  [.checkStop, .subscribe, .fails (.rpc .unavailable), .delayOver,
    .checkStop, .subscribe, .fails (.rpc .unavailable), .delayOver, .checkStop]

def closedAtOnce : List Event := [.checkStop, .subscribe, .streamEnds, .checkStop]

/-- The second wait is again two seconds, and after a stream that the server closes
there is none. -/
theorem retries_too_early :
    ((attempts.run unavailableTwice).map (fun x => (x.2.silent, x.2.waited)) =
        some (2, initialDelay) ∧
      GrpcStream.machine.Meets SurfacesWhileReading unavailableTwice ∧
      ¬ attempts.Meets BacksOff unavailableTwice) ∧
    ((attempts.run closedAtOnce).map (fun x => (x.2.silent, x.2.waited)) = some (1, 0) ∧
      GrpcStream.machine.Meets SurfacesWhileReading closedAtOnce ∧
      ¬ attempts.Meets BacksOff closedAtOnce) := by
  decide

end AetherLens.ReconnectDelay
