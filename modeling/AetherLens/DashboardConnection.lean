import AetherLens.DashboardStore
import AetherLens.Runs
import Mathlib.Logic.Function.Basic

/-!
The hook that connects the dashboard to its hub. The connection in use is held
in a module variable and each hook keeps the one it has built. The handlers of a
connection write to the store whether it is in use or not, and the library may
call them until the connection is closed, so also after `stop`.
-/
namespace AetherLens.DashboardConnection

open DashboardStore Messages Runs

inductive HubConnectionState
  | disconnected
  | connecting
  | connected
  | reconnecting
  | disconnecting
deriving DecidableEq, Repr

/-- What a connection has last told the hook about itself. -/
inductive Report
  | nothing
  | started
  | reconnecting
  | closed
deriving DecidableEq, Repr

structure HubConnection where
  state : HubConnectionState
  report : Report
  stopRequested : Bool
deriving DecidableEq, Repr

def HubConnection.build : HubConnection := ⟨.disconnected, .nothing, false⟩

/-- The call is made once, on a connection just built. -/
def HubConnection.start (connection : HubConnection) : HubConnection :=
  if connection.state = .disconnected then { connection with state := .connecting }
  else connection

def HubConnection.stop (connection : HubConnection) : HubConnection :=
  { connection with state := .disconnecting, stopRequested := true }

/-- The handlers of a connection and the two ends of its `start`. -/
inductive Callback
  | receivePackets (packets : List PacketUpdate)
  | receiveProcessStats (process : ProcessBandwidthUpdate)
  | receiveHealth (health : SystemHealthData)
  | receiveAnomaly (anomaly : SuspiciousOutboundConnection)
  | startCompletes
  | startFails
  | onreconnecting
  | onreconnected
  | onclose

def Callback.write (store : AetherState) : Callback → AetherState
  | .receivePackets packets => store.addPackets packets
  | .receiveProcessStats process => store.upsertProcess process
  | .receiveHealth health => store.setHealth health
  | .receiveAnomaly anomaly => store.addAnomaly anomaly
  | .startCompletes => store.setConnected true
  | .startFails => store
  | .onreconnecting => store.setConnected false
  | .onreconnected => store.setConnected true
  | .onclose => store.setConnected false

/-- A connection that is being stopped stays so until it is closed. -/
def HubConnection.tell (connection : HubConnection) (before after : HubConnectionState)
    (report : Report) : HubConnection :=
  { connection with
    state := if connection.state = before then after else connection.state
    report := report }

def HubConnection.close (connection : HubConnection) : HubConnection :=
  { connection with state := .disconnected, report := .closed }

/-- The order in which a connection makes its callbacks. What the hub sends may
come at any time, also before `start` completes. -/
def HubConnection.deliver (connection : HubConnection) : Callback → Option HubConnection
  | .receivePackets _ | .receiveProcessStats _ | .receiveHealth _ | .receiveAnomaly _ =>
    some connection
  | .startCompletes =>
    if connection.report = .nothing then some (connection.tell .connecting .connected .started)
    else none
  | .startFails => if connection.report = .nothing then some connection.close else none
  | .onreconnecting =>
    if connection.report = .started then
      some (connection.tell .connected .reconnecting .reconnecting)
    else none
  | .onreconnected =>
    if connection.report = .reconnecting then
      some (connection.tell .reconnecting .connected .started)
    else none
  | .onclose =>
    if connection.report = .started ∨ connection.report = .reconnecting then some connection.close
    else none

/-- Connections are numbered as they are built. Of a hook that is not mounted
the reference is empty. -/
structure State where
  current : Option ℕ
  connections : ℕ → HubConnection
  built : ℕ
  mounted : ℕ → Bool
  connectionRef : ℕ → Option ℕ
  store : AetherState

namespace State

def setConnection (s : State) (i : ℕ) (connection : HubConnection) : State :=
  { s with connections := Function.update s.connections i connection }

def stopSignalRConnection (s : State) : State :=
  match s.current with
  | none => s
  | some i =>
    let released := { s with current := none }
    if (s.connections i).state = .disconnected then released
    else released.setConnection i (s.connections i).stop

/-- A connection in use is one that is held and not disconnected. -/
def InUse (s : State) : Prop := ∃ i ∈ s.current, (s.connections i).state ≠ .disconnected

instance (s : State) : Decidable s.InUse :=
  match h : s.current with
  | none => isFalse (by simp [InUse, h])
  | some i => decidable_of_iff ((s.connections i).state ≠ .disconnected) (by simp [InUse, h])

def connect (s : State) (hook : ℕ) : State :=
  { s with
    current := some s.built
    connections := Function.update s.connections s.built HubConnection.build.start
    built := s.built + 1
    connectionRef := Function.update s.connectionRef hook (some s.built) }

/-- The effect of the hook. It returns early, and then without a cleanup, when
a connection is in use: the reference stays empty. -/
def useSignalR (s : State) (hook : ℕ) : State := if s.InUse then s else s.connect hook

def cleanup (s : State) (hook : ℕ) : State :=
  match s.connectionRef hook with
  | none => s
  | some i =>
    let cleared := { s with connectionRef := Function.update s.connectionRef hook none }
    if s.current = some i then cleared.stopSignalRConnection
    else if (s.connections i).state = .disconnected then cleared
    else cleared.setConnection i (s.connections i).stop

end State

/-- A connection may begin to close by itself. A `stop` may complete without a
callback, if the connection never started. -/
inductive Event
  | mount (hook : ℕ)
  | unmount (hook : ℕ)
  | deliver (i : ℕ) (callback : Callback)
  | closing (i : ℕ)
  | stopCompletes (i : ℕ)

def step (s : State) : Event → Option State
  | .mount hook =>
    if s.mounted hook then none
    else some ({ s with mounted := Function.update s.mounted hook true }.useSignalR hook)
  | .unmount hook =>
    if s.mounted hook then
      some ({ s with mounted := Function.update s.mounted hook false }.cleanup hook)
    else none
  | .deliver i callback =>
    if (s.connections i).state = .disconnected then none
    else ((s.connections i).deliver callback).map fun connection =>
      { s.setConnection i connection with store := callback.write s.store }
  | .closing i =>
    if (s.connections i).state = .disconnected then none
    else some (s.setConnection i { s.connections i with state := .disconnecting })
  | .stopCompletes i =>
    if (s.connections i).state = .disconnecting ∧ (s.connections i).stopRequested then
      some (s.setConnection i { s.connections i with state := .disconnected })
    else none

def machine : Machine State Event where
  start := ⟨none, fun _ => .build, 0, fun _ => false, fun _ => none, .empty⟩
  step := step

/-- The connection whose `stop` the step calls, or which it finds disconnected: the
one that the hook being unmounted has built. -/
def released (s : State) : Event → Option ℕ
  | .unmount hook => s.connectionRef hook
  | _ => none

/-- The connection whose callback calls a setter of the store. A start that fails
calls none. -/
def setter : Event → Option ℕ
  | .deliver _ .startFails => none
  | .deliver i _ => some i
  | _ => none

/-- What a step does to the connection in use, the connections and the store. -/
inductive Moves (s : State) : Event → State → Prop
  | delivered (i : ℕ) (callback : Callback) (connection : HubConnection)
      (hlive : (s.connections i).state ≠ .disconnected)
      (hdeliver : (s.connections i).deliver callback = some connection) :
      Moves s (.deliver i callback)
        { s.setConnection i connection with store := callback.write s.store }
  | silent (e : Event) (i : ℕ) (state : HubConnectionState)
      (hlive : (s.connections i).state ≠ .disconnected) (hreleased : released s e = none) :
      Moves s e (s.setConnection i { s.connections i with state := state })
  | connected (hook : ℕ) (t : State) (hfree : ¬ s.InUse) (hcurrent : t.current = some s.built)
      (hconnections : t.connections =
        Function.update s.connections s.built HubConnection.build.start)
      (hbuilt : t.built = s.built + 1)
      (hrefs : t.connectionRef = Function.update s.connectionRef hook (some s.built))
      (hstore : t.store = s.store) : Moves s (.mount hook) t
  | released (hook i : ℕ) (t : State) (href : s.connectionRef hook = some i)
      (hcurrent : t.current = if s.current = some i then none else s.current)
      (hconnections : (s.connections i).state = .disconnected ∧ t.connections = s.connections ∨
        t.connections = Function.update s.connections i (s.connections i).stop)
      (hbuilt : t.built = s.built)
      (hrefs : t.connectionRef = Function.update s.connectionRef hook none)
      (hstore : t.store = s.store) : Moves s (.unmount hook) t
  | idle (e : Event) (t : State) (hreleased : released s e = none)
      (hcurrent : t.current = s.current) (hconnections : t.connections = s.connections)
      (hbuilt : t.built = s.built) (hrefs : t.connectionRef = s.connectionRef)
      (hstore : t.store = s.store) : Moves s e t

theorem moves_mount (s : State) (hook : ℕ) (mounted : ℕ → Bool) :
    Moves s (.mount hook) ({ s with mounted := mounted }.useSignalR hook) := by
  unfold State.useSignalR
  split
  · exact .idle _ _ rfl rfl rfl rfl rfl rfl
  · rename_i hfree
    exact .connected hook _ hfree rfl rfl rfl rfl rfl

theorem moves_unmount (s : State) (hook : ℕ) (mounted : ℕ → Bool) :
    Moves s (.unmount hook) ({ s with mounted := mounted }.cleanup hook) := by
  unfold State.cleanup
  dsimp only
  split
  · rename_i hnone
    exact .idle _ _ hnone rfl rfl rfl rfl rfl
  · rename_i i href
    by_cases hcurrent : s.current = some i
    · simp only [hcurrent, if_true, State.stopSignalRConnection]
      by_cases hstate : (s.connections i).state = .disconnected
      · rw [if_pos hstate]
        exact .released hook i _ href (by simp [hcurrent]) (Or.inl ⟨hstate, rfl⟩) rfl rfl rfl
      · rw [if_neg hstate]
        exact .released hook i _ href (by simp [hcurrent, State.setConnection]) (Or.inr rfl) rfl
          rfl rfl
    · rw [if_neg hcurrent]
      by_cases hstate : (s.connections i).state = .disconnected
      · rw [if_pos hstate]
        exact .released hook i _ href (by simp [hcurrent]) (Or.inl ⟨hstate, rfl⟩) rfl rfl rfl
      · rw [if_neg hstate]
        exact .released hook i _ href (by simp [hcurrent, State.setConnection]) (Or.inr rfl) rfl
          rfl rfl

theorem moves_of_step {s t : State} {e : Event} (h : step s e = some t) : Moves s e t := by
  cases e with
  | mount hook =>
    obtain ⟨-, ht⟩ := Option.ite_none_left_eq_some.mp h
    cases ht
    exact moves_mount s hook _
  | unmount hook =>
    obtain ⟨-, ht⟩ := Option.ite_none_right_eq_some.mp h
    cases ht
    exact moves_unmount s hook _
  | deliver i callback =>
    obtain ⟨hlive, ht⟩ := Option.ite_none_left_eq_some.mp h
    obtain ⟨connection, hdeliver, rfl⟩ := Option.map_eq_some_iff.mp ht
    exact .delivered i callback connection hlive hdeliver
  | closing i =>
    obtain ⟨hlive, ht⟩ := Option.ite_none_left_eq_some.mp h
    cases ht
    exact .silent _ i _ hlive rfl
  | stopCompletes i =>
    obtain ⟨hstopping, ht⟩ := Option.ite_none_right_eq_some.mp h
    cases ht
    exact .silent _ i _ (by simp [hstopping.1]) rfl

theorem stopRequested_deliver {connection after : HubConnection} {callback : Callback}
    (h : connection.deliver callback = some after) :
    after.stopRequested = connection.stopRequested := by
  cases callback
  case receivePackets => cases h; rfl
  case receiveProcessStats => cases h; rfl
  case receiveHealth => cases h; rfl
  case receiveAnomaly => cases h; rfl
  all_goals
    obtain ⟨-, hafter⟩ := Option.ite_none_right_eq_some.mp h
    cases hafter
    rfl

/-- The connection in use was not told to stop, and every other one was, unless
it is disconnected. -/
structure Owned (current : Option ℕ) (connections : ℕ → HubConnection) : Prop where
  held : ∀ i, current = some i → (connections i).stopRequested = false
  others : ∀ i, current ≠ some i →
    (connections i).state = .disconnected ∨ (connections i).stopRequested = true

section Owned

variable {s : State} {current : Option ℕ} {connections : ℕ → HubConnection} {i : ℕ}

/-- A connection that lives may change, as long as the hook does not stop it. -/
theorem Owned.update (h : Owned current connections) (connection : HubConnection)
    (hlive : (connections i).state ≠ .disconnected)
    (hsame : connection.stopRequested = (connections i).stopRequested) :
    Owned current (Function.update connections i connection) := by
  refine ⟨fun j hj => ?_, fun j hj => ?_⟩
  · by_cases hij : j = i
    · subst j
      rw [Function.update_self, hsame]
      exact h.held i hj
    · rw [Function.update_of_ne hij]
      exact h.held j hj
  · by_cases hij : j = i
    · subst j
      rw [Function.update_self, hsame]
      exact Or.inr ((h.others i hj).resolve_left hlive)
    · rw [Function.update_of_ne hij]
      exact h.others j hj

/-- A new connection replaces one that is disconnected, if any. -/
theorem Owned.connected (h : Owned s.current s.connections) (hfree : ¬ s.InUse) :
    Owned (some i) (Function.update s.connections i HubConnection.build.start) := by
  refine ⟨fun j hj => ?_, fun j hj => ?_⟩
  · cases hj
    rw [Function.update_self]
    rfl
  · rw [Function.update_of_ne fun heq => hj (by rw [heq])]
    by_cases hheld : s.current = some j
    · left
      by_contra hlive
      exact hfree ⟨j, hheld, hlive⟩
    · exact h.others j hheld

/-- A connection that is told to stop is no longer the one in use. -/
theorem Owned.stopped (h : Owned current connections) :
    Owned (if current = some i then none else current)
      (Function.update connections i (connections i).stop) := by
  refine ⟨fun j hj => ?_, fun j hj => ?_⟩
  · obtain ⟨hnot, hheld⟩ := Option.ite_none_left_eq_some.mp hj
    have hne : j ≠ i := by
      rintro rfl
      exact hnot hheld
    rw [Function.update_of_ne hne]
    exact h.held j hheld
  · by_cases hij : j = i
    · subst j
      rw [Function.update_self]
      exact Or.inr rfl
    · rw [Function.update_of_ne hij]
      refine h.others j fun hheld => hj ?_
      rw [hheld, if_neg fun heq => hij (Option.some.inj heq)]

theorem Owned.released (h : Owned current connections)
    (hclosed : (connections i).state = .disconnected) :
    Owned (if current = some i then none else current) connections := by
  refine ⟨fun j hj => h.held j (Option.ite_none_left_eq_some.mp hj).2, fun j hj => ?_⟩
  by_cases hij : j = i
  · subst j
    exact Or.inl hclosed
  · refine h.others j fun hheld => hj ?_
    rw [hheld, if_neg fun heq => hij (Option.some.inj heq)]

theorem owned_step {t : State} {e : Event} (h : step s e = some t)
    (howned : Owned s.current s.connections) : Owned t.current t.connections := by
  cases moves_of_step h with
  | delivered i callback connection hlive hdeliver =>
    exact howned.update connection hlive (stopRequested_deliver hdeliver)
  | silent _ i state hlive => exact howned.update _ hlive rfl
  | connected hook _ hfree hcurrent hconnections =>
    rw [hcurrent, hconnections]
    exact howned.connected hfree
  | released hook i _ href hcurrent hconnections =>
    rw [hcurrent]
    rcases hconnections with ⟨hclosed, hsame⟩ | hstopped
    · rw [hsame]
      exact howned.released hclosed
    · rw [hstopped]
      exact howned.stopped
  | idle _ _ hreleased hcurrent hconnections =>
    rw [hcurrent, hconnections]
    exact howned

end Owned

theorem apply_update {α : Type*} (f : HubConnection → α) (connections : ℕ → HubConnection) {i : ℕ}
    (connection : HubConnection) (hsame : f connection = f (connections i)) (j : ℕ) :
    f (Function.update connections i connection j) = f (connections j) := by
  by_cases hij : j = i
  · subst j
    rw [Function.update_self, hsame]
  · rw [Function.update_of_ne hij]

/-- What the steps so far say of each connection: it is told to stop only when it is
released, and if it is released it is told to stop, unless it is disconnected. -/
structure Traced (history : List (State × Event)) (s : State) : Prop where
  refs : ∀ hook i, s.connectionRef hook = some i → i < s.built
  built : ∀ x ∈ history, ∀ i, released x.1 x.2 = some i → i < s.built
  stopped : ∀ i, (s.connections i).stopRequested = true →
    ∃ x ∈ history, released x.1 x.2 = some i
  quiet : ∀ x ∈ history, ∀ i, released x.1 x.2 = some i →
    (s.connections i).state = .disconnected ∨ (s.connections i).stopRequested = true

section Traced

variable {history : List (State × Event)} {s t : State} {e : Event} {i : ℕ}

theorem traced_nil : Traced [] machine.start where
  refs := by rintro hook i ⟨⟩
  built := by rintro x ⟨⟩
  stopped := by rintro i ⟨⟩
  quiet := by rintro x ⟨⟩

theorem mem_of_releases_nothing {x : State × Event} (hnothing : released s e = none)
    (hx : x ∈ history ++ [(s, e)]) (hreleased : released x.1 x.2 = some i) : x ∈ history := by
  rcases List.mem_append.mp hx with hold | hlast
  · exact hold
  · rw [List.mem_singleton.mp hlast] at hreleased
    cases hnothing.symm.trans hreleased

/-- A step that releases nothing and builds nothing. -/
theorem Traced.update (h : Traced history s) (hreleased : released s e = none)
    (hrefs : t.connectionRef = s.connectionRef) (hbuilt : t.built = s.built)
    (hsame : ∀ j, (t.connections j).stopRequested = (s.connections j).stopRequested)
    (hclosed : ∀ j, (s.connections j).state = .disconnected → t.connections j = s.connections j) :
    Traced (history ++ [(s, e)]) t := by
  refine ⟨fun hook j hj => ?_, fun x hx j hj => ?_, fun j hj => ?_, fun x hx j hj => ?_⟩
  · rw [hbuilt]
    rw [hrefs] at hj
    exact h.refs hook j hj
  · rw [hbuilt]
    exact h.built x (mem_of_releases_nothing hreleased hx hj) j hj
  · rw [hsame] at hj
    obtain ⟨x, hx, hxj⟩ := h.stopped j hj
    exact ⟨x, List.mem_append_left _ hx, hxj⟩
  · rcases h.quiet x (mem_of_releases_nothing hreleased hx hj) j hj with hdown | hstopped
    · left
      rw [hclosed j hdown]
      exact hdown
    · right
      rw [hsame]
      exact hstopped

/-- A connection that lives may change, as long as the hook does not stop it. -/
theorem Traced.setConnection (h : Traced history s) (hreleased : released s e = none)
    (connection : HubConnection) (store : AetherState)
    (hlive : (s.connections i).state ≠ .disconnected)
    (hsame : connection.stopRequested = (s.connections i).stopRequested) :
    Traced (history ++ [(s, e)]) { s.setConnection i connection with store := store } := by
  refine h.update hreleased rfl rfl
    (apply_update HubConnection.stopRequested s.connections connection hsame) fun j hdown => ?_
  refine Function.update_of_ne (fun hij => hlive ?_) ..
  rw [← hij]
  exact hdown

/-- A connection that is built has not been released. -/
theorem Traced.connected (h : Traced history s) (hook : ℕ)
    (hrefs : t.connectionRef = Function.update s.connectionRef hook (some s.built))
    (hbuilt : t.built = s.built + 1)
    (hconnections : t.connections =
      Function.update s.connections s.built HubConnection.build.start) :
    Traced (history ++ [(s, .mount hook)]) t := by
  refine ⟨fun other j hj => ?_, fun x hx j hj => ?_, fun j hj => ?_, fun x hx j hj => ?_⟩
  · rw [hbuilt]
    rw [hrefs] at hj
    by_cases hsame : other = hook
    · subst other
      rw [Function.update_self] at hj
      cases hj
      exact Nat.lt_succ_self _
    · rw [Function.update_of_ne hsame] at hj
      exact Nat.lt_succ_of_lt (h.refs other j hj)
  · rw [hbuilt]
    exact Nat.lt_succ_of_lt (h.built x (mem_of_releases_nothing (e := .mount hook) rfl hx hj) j hj)
  · rw [hconnections] at hj
    by_cases hnew : j = s.built
    · subst j
      rw [Function.update_self] at hj
      cases hj
    · rw [Function.update_of_ne hnew] at hj
      obtain ⟨x, hx, hxj⟩ := h.stopped j hj
      exact ⟨x, List.mem_append_left _ hx, hxj⟩
  · have hold := mem_of_releases_nothing (e := .mount hook) rfl hx hj
    have hnew : j ≠ s.built := Nat.ne_of_lt (h.built x hold j hj)
    rw [hconnections, Function.update_of_ne hnew]
    exact h.quiet x hold j hj

/-- The connection that is released is told to stop, or is disconnected. -/
theorem Traced.released (h : Traced history s) {hook : ℕ} (href : s.connectionRef hook = some i)
    (hrefs : t.connectionRef = Function.update s.connectionRef hook none)
    (hbuilt : t.built = s.built)
    (hconnections : (s.connections i).state = .disconnected ∧ t.connections = s.connections ∨
      t.connections = Function.update s.connections i (s.connections i).stop) :
    Traced (history ++ [(s, .unmount hook)]) t := by
  have hother : ∀ j, j ≠ i → t.connections j = s.connections j := by
    intro j hj
    rcases hconnections with ⟨-, hsame⟩ | hstopped
    · rw [hsame]
    · rw [hstopped, Function.update_of_ne hj]
  have hitself : (t.connections i).state = .disconnected ∨
      (t.connections i).stopRequested = true := by
    rcases hconnections with ⟨hdown, hsame⟩ | hstopped
    · rw [hsame]
      exact Or.inl hdown
    · rw [hstopped, Function.update_self]
      exact Or.inr rfl
  refine ⟨fun other j hj => ?_, fun x hx j hj => ?_, fun j hj => ?_, fun x hx j hj => ?_⟩
  · rw [hbuilt]
    rw [hrefs] at hj
    by_cases hsame : other = hook
    · subst other
      rw [Function.update_self] at hj
      cases hj
    · rw [Function.update_of_ne hsame] at hj
      exact h.refs other j hj
  · rw [hbuilt]
    rcases List.mem_append.mp hx with hx | hx
    · exact h.built x hx j hj
    · rw [List.mem_singleton.mp hx] at hj
      exact h.refs hook j hj
  · by_cases hij : j = i
    · subst j
      exact ⟨_, List.mem_append_right _ (List.mem_singleton.mpr rfl), href⟩
    · rw [hother j hij] at hj
      obtain ⟨x, hx, hxj⟩ := h.stopped j hj
      exact ⟨x, List.mem_append_left _ hx, hxj⟩
  · by_cases hij : j = i
    · subst j
      exact hitself
    · rcases List.mem_append.mp hx with hx | hx
      · rw [hother j hij]
        exact h.quiet x hx j hj
      · rw [List.mem_singleton.mp hx] at hj
        exact absurd (Option.some.inj (hj.symm.trans href)) hij

theorem traced_step (h : step s e = some t) (htraced : Traced history s) :
    Traced (history ++ [(s, e)]) t := by
  cases moves_of_step h with
  | delivered i callback connection hlive hdeliver =>
    exact htraced.setConnection rfl connection _ hlive (stopRequested_deliver hdeliver)
  | silent _ i state hlive hreleased => exact htraced.setConnection hreleased _ _ hlive rfl
  | connected hook _ hfree hcurrent hconnections hbuilt hrefs =>
    exact htraced.connected hook hrefs hbuilt hconnections
  | released hook i _ href hcurrent hconnections hbuilt hrefs =>
    exact htraced.released href hrefs hbuilt hconnections
  | idle _ _ hreleased hcurrent hconnections hbuilt hrefs =>
    exact htraced.update hreleased hrefs hbuilt (fun j => by rw [hconnections])
      fun j _ => by rw [hconnections]

end Traced

/-- The step leaves the store as it is, or the connection in use makes it. -/
def WritesAsCurrent (s : State) (e : Event) : Prop :=
  ∀ t, step s e = some t → t.store ≠ s.store →
    ∃ i callback, e = .deliver i callback ∧ s.current = some i

/-- Only the connection in use calls a setter, also if what it sets is there already. -/
def SetsAsCurrent (s : State) (e : Event) : Prop := ∀ i, setter e = some i → s.current = some i

/-- Once the connection in use has started, or has reconnected, and has reported
nothing else since, the store says so. -/
def ConnectedOnceStarted (s : State) : Prop :=
  ∀ i, s.current = some i → (s.connections i).report = .started → s.store.connected = true

/-- After the step that releases a connection, that one calls no setter. -/
def SilentAfterRelease (es : List Event) : Prop :=
  (machine.steps es).Pairwise fun x y => ∀ i ∈ released x.1 x.2, setter y.2 ≠ some i

theorem live_of_setter {s t : State} {e : Event} {i : ℕ} (h : step s e = some t)
    (hsetter : setter e = some i) : (s.connections i).state ≠ .disconnected := by
  cases e with
  | deliver j callback =>
    obtain ⟨hlive, -⟩ := Option.ite_none_left_eq_some.mp h
    have hij : j = i := by
      cases callback
      case startFails => cases hsetter
      all_goals exact Option.some.inj hsetter
    rw [← hij]
    exact hlive
  | _ => cases hsetter

/-- The connection in use is the one that lives and has not been released. -/
theorem setsAsCurrent_iff {history : List (State × Event)} {s t : State} {e : Event}
    (h : step s e = some t) (howned : Owned s.current s.connections)
    (htraced : Traced history s) :
    SetsAsCurrent s e ↔ ∀ x ∈ history, ∀ i ∈ released x.1 x.2, setter e ≠ some i := by
  constructor
  · intro hsets x hx i hreleased hsetter
    have hstopped := (htraced.quiet x hx i hreleased).resolve_left (live_of_setter h hsetter)
    rw [howned.held i (hsets i hsetter)] at hstopped
    cases hstopped
  · intro hsilent i hsetter
    by_contra hother
    have hstopped := (howned.others i hother).resolve_left (live_of_setter h hsetter)
    obtain ⟨x, hx, hreleased⟩ := htraced.stopped i hstopped
    exact hsilent x hx i hreleased hsetter

theorem setter_deliver (i : ℕ) {callback : Callback} {store : AetherState}
    (hchanged : callback.write store ≠ store) : setter (.deliver i callback) = some i := by
  cases callback
  case startFails => exact absurd rfl hchanged
  all_goals rfl

theorem writesAsCurrent_of_setsAsCurrent {s : State} {e : Event} (hsets : SetsAsCurrent s e) :
    WritesAsCurrent s e := by
  intro t h hchanged
  cases moves_of_step h with
  | delivered i callback connection hlive hdeliver =>
    exact ⟨i, callback, rfl, hsets i (setter_deliver i hchanged)⟩
  | silent => exact absurd rfl hchanged
  | connected _ _ _ _ _ _ _ hstore => exact absurd hstore hchanged
  | released _ _ _ _ _ _ _ _ hstore => exact absurd hstore hchanged
  | idle _ _ _ _ _ _ _ hstore => exact absurd hstore hchanged

/-- The callback after which a connection counts as started says so to the store,
every other one leaves the report or ends it. -/
theorem connected_write {connection after : HubConnection} {callback : Callback}
    {store : AetherState} (h : connection.deliver callback = some after)
    (hstarted : after.report = .started)
    (hbefore : connection.report = .started → store.connected = true) :
    (callback.write store).connected = true := by
  cases callback
  case receivePackets => cases h; exact hbefore hstarted
  case receiveProcessStats => cases h; exact hbefore hstarted
  case receiveHealth => cases h; exact hbefore hstarted
  case receiveAnomaly => cases h; exact hbefore hstarted
  case startCompletes => rfl
  case onreconnected => rfl
  all_goals
    obtain ⟨-, hafter⟩ := Option.ite_none_right_eq_some.mp h
    cases hafter
    cases hstarted

theorem connectedOnceStarted_step {s t : State} {e : Event} (h : step s e = some t)
    (hsets : SetsAsCurrent s e) (hs : ConnectedOnceStarted s) : ConnectedOnceStarted t := by
  intro j hj hstarted
  cases moves_of_step h with
  | delivered i callback connection hlive hdeliver =>
    change (Function.update s.connections i connection j).report = _ at hstarted
    by_cases hij : j = i
    · subst j
      rw [Function.update_self] at hstarted
      exact connected_write hdeliver hstarted (hs i hj)
    · rw [Function.update_of_ne hij] at hstarted
      have hsame : callback.write s.store = s.store := by
        by_contra hchanged
        have hheld := hsets i (setter_deliver i hchanged)
        exact hij (Option.some.inj (hj.symm.trans hheld))
      rw [hsame]
      exact hs j hj hstarted
  | silent _ i state hlive =>
    have hsame := apply_update HubConnection.report s.connections
      { s.connections i with state := state } rfl j
    exact hs j hj (hsame.symm.trans hstarted)
  | connected hook _ hfree hcurrent hconnections =>
    rw [hcurrent] at hj
    cases hj
    rw [hconnections, Function.update_self] at hstarted
    cases hstarted
  | released hook i _ href hcurrent hconnections hbuilt hrefs hstore =>
    rw [hcurrent] at hj
    rw [hstore]
    refine hs j (Option.ite_none_left_eq_some.mp hj).2 ?_
    rcases hconnections with ⟨-, hsame⟩ | hstopped
    · rw [← hsame]
      exact hstarted
    · rw [hstopped, apply_update HubConnection.report s.connections (s.connections i).stop rfl]
        at hstarted
      exact hstarted
  | idle _ _ hreleased hcurrent hconnections hbuilt hrefs hstore =>
    rw [hcurrent] at hj
    rw [hconnections] at hstarted
    rw [hstore]
    exact hs j hj hstarted

theorem meets_setsAsCurrent_iff (es : List Event) (s : State) (hs : machine.run es = some s) :
    machine.Meets SetsAsCurrent es ↔ SilentAfterRelease es := by
  refine machine.meets_iff_pairwise
    (fun history s => Owned s.current s.connections ∧ Traced history s) ?_ ?_ ?_ es s hs
  · refine ⟨⟨fun i hi => ?_, fun i _ => Or.inl rfl⟩, traced_nil⟩
    cases hi
  · rintro history s e t h ⟨howned, htraced⟩
    exact ⟨owned_step h howned, traced_step h htraced⟩
  · rintro history s e t h ⟨howned, htraced⟩
    exact setsAsCurrent_iff h howned htraced

/-- Only the connection in use calls the setters of the store, so only that one changes
it, and the store says that it is connected when that one has started, exactly in the
runs in which no connection calls a setter after the hook that built it was unmounted. -/
theorem only_current_writes_iff (es : List Event) (s : State) (hs : machine.run es = some s) :
    (machine.Meets SetsAsCurrent es ∧ machine.Meets WritesAsCurrent es ∧
      machine.Always ConnectedOnceStarted es) ↔ SilentAfterRelease es := by
  have hsets := meets_setsAsCurrent_iff es s hs
  constructor
  · rintro ⟨h, -⟩
    exact hsets.mp h
  · intro hsilent
    have hmeets := hsets.mpr hsilent
    have hwrites : machine.Meets WritesAsCurrent es := fun x hx =>
      writesAsCurrent_of_setsAsCurrent (hmeets x hx)
    have hconnected : machine.Always ConnectedOnceStarted es :=
      machine.always_of_meets_of_step (P := ConnectedOnceStarted) (by rintro i ⟨⟩)
        (fun s e t h => connectedOnceStarted_step h) es s hs hmeets
    exact ⟨hmeets, hwrites, hconnected⟩

/-- The hook is unmounted before the first connection has started, whose start fails
then, and mounted again. -/
def stoppedDuringNegotiation : List Event :=
  [.mount 0, .unmount 0, .mount 0, .deliver 0 .startFails, .deliver 1 .startCompletes,
    .deliver 1 .onreconnecting, .deliver 1 .onreconnected]

theorem only_current_writes_iff_remounted :
    ∃ s, machine.run stoppedDuringNegotiation = some s ∧
      machine.Meets SetsAsCurrent stoppedDuringNegotiation ∧
      machine.Meets WritesAsCurrent stoppedDuringNegotiation ∧
      machine.Always ConnectedOnceStarted stoppedDuringNegotiation := by
  have hsilent : SilentAfterRelease stoppedDuringNegotiation := by
    simp only [SilentAfterRelease]
    decide
  exact ⟨_, rfl, (only_current_writes_iff stoppedDuringNegotiation _ rfl).mpr hsilent⟩

/-- The hook is mounted again before the first connection is closed. -/
def remounted : List Event :=
  [.mount 0, .deliver 0 .startCompletes, .unmount 0, .mount 0, .deliver 1 .startCompletes]

def lateClose : List Event := remounted ++ [.deliver 0 .onclose]

/-- The first connection closes after the second has started: the store says that
the dashboard is not connected. -/
theorem late_close_disconnects :
    (∃ s, machine.run lateClose = some s ∧ s.current = some 1 ∧
      (s.connections 1).report = .started ∧ s.store.connected = false) ∧
    ¬ machine.Meets WritesAsCurrent lateClose ∧
    ¬ machine.Always ConnectedOnceStarted lateClose := by
  refine ⟨⟨_, rfl, rfl, rfl, rfl⟩, fun h => ?_, fun h => ?_⟩
  · have hlast := h (_, .deliver 0 .onclose) (by
      rw [lateClose, machine.steps_snoc rfl]
      exact List.mem_append_right _ (List.mem_singleton.mpr rfl)) _ rfl
    obtain ⟨i, callback, heq, hcurrent⟩ := hlast (by decide)
    cases heq
    cases hcurrent
  · have hconnected := h lateClose (List.prefix_refl _) _ rfl 1 rfl rfl
    revert hconnected
    decide

end AetherLens.DashboardConnection
