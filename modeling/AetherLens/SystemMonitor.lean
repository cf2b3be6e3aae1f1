import AetherLens.DashboardStore
import AetherLens.Rounding
import AetherLens.SnapshotOrder
import AetherLens.UptimeText
import Mathlib.Data.Rat.Floor

/-!
The service that reports the health of the hub. Every two seconds it takes a snapshot of
the metrics and sends the rounded values. It is the only one to take snapshots, and the
packet loop the only one to record packets, so every report tells of consecutive pieces
of what was recorded, up to its rounding.
-/
namespace AetherLens.SystemMonitor

open DashboardStore (SystemHealthData)
open MetricsSnapshot Rounding Runs SnapshotOrder SnapshotSets SnapshotTotals UptimeText

def ticksPerMillisecond : ℤ := 10 ^ 4

/-- A span of ticks in seconds. -/
def totalSeconds (ticks : ℤ) : ℚ := ticks / ticksPerSecond

def totalMilliseconds (ticks : ℤ) : ℚ := ticks / ticksPerMillisecond

section Service

-- The span of ticks between two readings of the stopwatch.
variable (getElapsedTime : ℤ → ℤ → ℤ)

/-! The three values that a snapshot returns. -/

def tps (windowStart now : ℤ) (count : ℕ) : ℚ :=
  let elapsed := totalSeconds (getElapsedTime windowStart now)
  if 0 < elapsed then count / elapsed else 0

def avgMs (count : ℕ) (latencySum : Int64) : ℚ :=
  if 0 < count then totalMilliseconds (getElapsedTime 0 (latencySum.toInt.tdiv count)) else 0

def maxMs (maxTicks : Int64) : ℚ := totalMilliseconds (getElapsedTime 0 maxTicks.toInt)

/-- The report made of a snapshot. -/
def report (call : SnapshotCall) (grpcConnected : Bool) (uptime : ℤ) : SystemHealthData where
  grpcConnected := grpcConnected
  packetsPerSecond := roundTo 1 (tps getElapsedTime call.windowStart call.now call.count.value)
  avgLatencyMs := roundTo 2 (avgMs getElapsedTime call.count.value call.latencySum.value)
  maxLatencyMs := roundTo 2 (maxMs getElapsedTime call.maxTicks.value)
  uptime := uptimeText uptime

inductive Point
  | delaying
  | snapshotting
  | sending
  | stopped
deriving DecidableEq, Repr

/-- The metrics and the loop of the service, with the history of what it sent. -/
structure State where
  metrics : MetricsSnapshot.State
  point : Point
  reports : List SystemHealthData
deriving DecidableEq, Repr

/-- `recordPacket` and `record` are the steps of the packet loop in the metrics. The
service ends when its delay is canceled or its send fails. -/
inductive Event
  | recordPacket (latencyTicks : Int64)
  | record
  | delayDone (now : ℤ)
  | snapshot
  | send (grpcConnected : Bool) (uptime : ℤ)
  | sent
  | canceled
  | fails
deriving DecidableEq, Repr

def State.update (s : State) (point : Point) (metrics : MetricsSnapshot.State) : State :=
  { s with metrics := metrics, point := point }

def step (s : State) : Event → Option State
  | .recordPacket latencyTicks =>
    if ∀ call ∈ s.metrics.records, call.point = .returned then
      (MetricsSnapshot.step s.metrics (.startRecord latencyTicks)).map (s.update s.point)
    else none
  | .record =>
    (MetricsSnapshot.step s.metrics (.record (s.metrics.records.length - 1))).map
      (s.update s.point)
  | .delayDone now =>
    if s.point = .delaying then
      (MetricsSnapshot.step s.metrics (.startSnapshot now)).map (s.update .snapshotting)
    else none
  | .snapshot =>
    if s.point = .snapshotting then
      (MetricsSnapshot.step s.metrics (.snapshot (s.metrics.snapshots.length - 1))).map
        (s.update .snapshotting)
    else none
  | .send grpcConnected uptime =>
    s.metrics.snapshots.getLast?.bind fun call =>
      if s.point = .snapshotting ∧ call.point = .returned then
        some { s with
          point := .sending
          reports := s.reports ++ [report getElapsedTime call grpcConnected uptime] }
      else none
  | .sent => if s.point = .sending then some { s with point := .delaying } else none
  | .canceled => if s.point = .delaying then some { s with point := .stopped } else none
  | .fails => if s.point = .sending then some { s with point := .stopped } else none

/-- What a step sends to the dashboards. -/
def sends (s : State) : Event → List SystemHealthData
  | .send grpcConnected uptime => s.metrics.snapshots.getLast?.toList.map fun call =>
    report getElapsedTime call grpcConnected uptime
  | _ => []

def start (windowStart : ℤ) : State := ⟨MetricsSnapshot.start windowStart, .delaying, []⟩

def machine (windowStart : ℤ) : Machine State Event := ⟨start windowStart, step getElapsedTime⟩

/-- The report was made of the snapshot. -/
def IsReport (health : SystemHealthData) (call : SnapshotCall) : Prop :=
  call.point = .returned ∧
    ∃ grpcConnected uptime, health = report getElapsedTime call grpcConnected uptime

/-- Every snapshot has been reported, but for the one that is being taken. -/
structure Reported (s : State) (reported current : List SnapshotCall) : Prop where
  snapshots_eq : s.metrics.snapshots = reported ++ current
  reports : List.Forall₂ (IsReport getElapsedTime) s.reports reported
  current_length : current.length = if s.point = .snapshotting then 1 else 0

structure Inv (windowStart : ℤ) (s : State) : Prop where
  sound : MetricsSnapshot.Inv s.metrics
  totals : Totals s.metrics
  ordered : Ordered windowStart s.metrics
  reported : ∃ reported current, Reported getElapsedTime s reported current

end Service

section Steps

variable {getElapsedTime : ℤ → ℤ → ℤ} {windowStart : ℤ} {s t : State}
  {m n : MetricsSnapshot.State}

theorem moves_of_metrics {e : MetricsSnapshot.Event} (h : MetricsSnapshot.step m e = some n) :
    Moves m e n := @moves_of_step 0 m n e h

theorem snapshots_of_startRecord {latencyTicks : Int64}
    (h : MetricsSnapshot.step m (.startRecord latencyTicks) = some n) :
    n.snapshots = m.snapshots := by
  cases h
  rfl

theorem snapshots_of_record {i : ℕ} (h : MetricsSnapshot.step m (.record i) = some n) :
    n.snapshots = m.snapshots := by
  cases moves_of_metrics h <;> rfl

theorem snapshots_of_startSnapshot {now : ℤ}
    (h : MetricsSnapshot.step m (.startSnapshot now) = some n) :
    ∃ new, n.snapshots = m.snapshots ++ [new] := by
  cases h
  exact ⟨_, rfl⟩

theorem length_of_record (h : MetricsSnapshot.step m (.record (m.records.length - 1)) = some n) :
    m.records.length - 1 + 1 = m.records.length := by
  obtain ⟨call, hcall, -⟩ := Option.bind_eq_some_iff.mp h
  obtain ⟨hlt, -⟩ := List.getElem?_eq_some_iff.mp hcall
  omega

theorem length_of_snapshot
    (h : MetricsSnapshot.step m (.snapshot (m.snapshots.length - 1)) = some n) :
    m.snapshots.length - 1 + 1 = m.snapshots.length := by
  obtain ⟨call, hcall, -⟩ := Option.bind_eq_some_iff.mp h
  obtain ⟨hlt, -⟩ := List.getElem?_eq_some_iff.mp hcall
  omega

theorem snapshots_of_snapshot {j : ℕ} (h : MetricsSnapshot.step m (.snapshot j) = some n) :
    ∃ new, n.snapshots = m.snapshots.set j new := by
  cases moves_of_metrics h with
  | exchangeStart => exact ⟨_, rfl⟩
  | exchangeCount => exact ⟨_, rfl⟩
  | exchangeSum => exact ⟨_, rfl⟩
  | exchangeMax => exact ⟨_, rfl⟩

theorem inv_start : Inv getElapsedTime windowStart (start windowStart) where
  sound := MetricsSnapshot.inv_start windowStart
  totals := totals_start windowStart
  ordered := ordered_start windowStart
  reported := ⟨[], [], rfl, .nil, rfl⟩

/-- A step of the metrics keeps what is known of them. -/
theorem inv_metrics {e : MetricsSnapshot.Event} (h : Inv getElapsedTime windowStart s)
    (hstep : MetricsSnapshot.step s.metrics e = some n) (hone : OneCaller s.metrics e)
    {point : Point} (hreported : ∃ reported current,
      Reported getElapsedTime (s.update point n) reported current) :
    Inv getElapsedTime windowStart (s.update point n) :=
  ⟨@MetricsSnapshot.inv_step windowStart _ e _ hstep h.sound,
    @totals_step windowStart _ e _ hstep h.totals,
    ordered_step hstep hone h.totals h.ordered, hreported⟩

theorem inv_move (h : Inv getElapsedTime windowStart s) (hbefore : s.point ≠ .snapshotting)
    {point : Point} (hafter : point ≠ .snapshotting) :
    Inv getElapsedTime windowStart { s with point := point } := by
  obtain ⟨reported, current, hsnapshots, hreports, hlength⟩ := h.reported
  refine ⟨h.sound, h.totals, h.ordered, reported, current, hsnapshots, hreports, ?_⟩
  rw [hlength, if_neg hbefore]
  exact (if_neg hafter).symm

theorem returned_of_reports {reports : List SystemHealthData} {reported : List SnapshotCall}
    (h : List.Forall₂ (IsReport getElapsedTime) reports reported) :
    ∀ call ∈ reported, call.point = .returned := by
  induction h with
  | nil => nofun
  | cons hreport _ ih =>
    intro call hcall
    rcases List.mem_cons.mp hcall with rfl | hrest
    · exact hreport.1
    · exact ih call hrest

/-- Outside the function all snapshots have returned. -/
theorem Reported.returned {reported current : List SnapshotCall}
    (h : Reported getElapsedTime s reported current) (hpoint : s.point ≠ .snapshotting) :
    current = [] ∧ ∀ call ∈ s.metrics.snapshots, call.point = .returned := by
  have hcurrent : current = [] := by
    rw [← List.length_eq_zero_iff, h.current_length, if_neg hpoint]
  refine ⟨hcurrent, ?_⟩
  rw [h.snapshots_eq, hcurrent, List.append_nil]
  exact returned_of_reports h.reports

theorem inv_step (s : State) (e : Event) (t : State)
    (hstep : (machine getElapsedTime windowStart).step s e = some t)
    (h : Inv getElapsedTime windowStart s) : Inv getElapsedTime windowStart t := by
  obtain ⟨reported, current, hreported⟩ := h.reported
  cases e with
  | recordPacket latencyTicks =>
    obtain ⟨hreturned, hmetrics⟩ := Option.ite_none_right_eq_some.mp hstep
    obtain ⟨n, hn, rfl⟩ := Option.map_eq_some_iff.mp hmetrics
    refine inv_metrics h hn hreturned ⟨reported, current, ?_, hreported.reports,
      hreported.current_length⟩
    exact (snapshots_of_startRecord hn).trans hreported.snapshots_eq
  | record =>
    obtain ⟨n, hn, rfl⟩ := Option.map_eq_some_iff.mp hstep
    refine inv_metrics h hn (length_of_record hn) ⟨reported, current, ?_, hreported.reports,
      hreported.current_length⟩
    exact (snapshots_of_record hn).trans hreported.snapshots_eq
  | delayDone now =>
    obtain ⟨hpoint, hmetrics⟩ := Option.ite_none_right_eq_some.mp hstep
    obtain ⟨n, hn, rfl⟩ := Option.map_eq_some_iff.mp hmetrics
    obtain ⟨rfl, hreturned⟩ := hreported.returned (by simp [hpoint])
    obtain ⟨new, hnew⟩ := snapshots_of_startSnapshot hn
    refine inv_metrics h hn hreturned ⟨reported, [new], ?_, hreported.reports, rfl⟩
    change n.snapshots = _
    rw [hnew, hreported.snapshots_eq, List.append_nil]
  | snapshot =>
    obtain ⟨hpoint, hmetrics⟩ := Option.ite_none_right_eq_some.mp hstep
    obtain ⟨n, hn, rfl⟩ := Option.map_eq_some_iff.mp hmetrics
    obtain ⟨call, rfl⟩ := List.length_eq_one_iff.mp (hreported.current_length.trans (if_pos hpoint))
    obtain ⟨new, hnew⟩ := snapshots_of_snapshot hn
    refine inv_metrics h hn (length_of_snapshot hn) ⟨reported, [new], ?_, hreported.reports, rfl⟩
    change n.snapshots = _
    rw [hnew, hreported.snapshots_eq, List.length_append, List.length_singleton,
      Nat.add_sub_cancel, set_last]
  | send grpcConnected uptime =>
    obtain ⟨call, hcall, hsend⟩ := Option.bind_eq_some_iff.mp hstep
    obtain ⟨⟨hpoint, hreturned⟩, hsend⟩ := Option.ite_none_right_eq_some.mp hsend
    cases hsend
    obtain ⟨last, rfl⟩ := List.length_eq_one_iff.mp (hreported.current_length.trans (if_pos hpoint))
    have hlast : last = call := by
      rw [hreported.snapshots_eq, List.getLast?_concat] at hcall
      exact Option.some.inj hcall
    subst hlast
    refine ⟨h.sound, h.totals, h.ordered, reported ++ [last], [], ?_, ?_, rfl⟩
    · rw [List.append_nil]
      exact hreported.snapshots_eq
    · exact List.rel_append hreported.reports
        (.cons ⟨hreturned, grpcConnected, uptime, rfl⟩ .nil)
  | sent | canceled | fails =>
    obtain ⟨hpoint, hmove⟩ := Option.ite_none_right_eq_some.mp hstep
    cases hmove
    exact inv_move h (by simp [hpoint]) nofun

theorem inv_run {es : List Event} (hs : (machine getElapsedTime windowStart).run es = some s) :
    Inv getElapsedTime windowStart s :=
  (machine getElapsedTime windowStart).run_invariant _ inv_start inv_step hs

end Steps

/-- A window of time, and what is in the window of each counter. -/
structure Window (α : Type*) where
  start : ℤ
  stop : ℤ
  counted : List α
  summed : List α
  maxed : List α

def windowOf (records : List RecordCall) (call : SnapshotCall) : Window Int64 where
  start := call.windowStart
  stop := call.now
  counted := call.count.calls.map (latencyOf records)
  summed := call.latencySum.calls.map (latencyOf records)
  maxed := call.maxTicks.calls.map (latencyOf records)

/-- The report tells the rate, the average and the peak of the window, rounded to one
and to two decimals. -/
structure Reports (getElapsedTime : ℤ → ℤ → ℤ) (health : SystemHealthData)
    (w : Window Int64) : Prop where
  rate : |health.packetsPerSecond - tps getElapsedTime w.start w.stop w.counted.length| ≤ 1 / 20
  average : |health.avgLatencyMs - avgMs getElapsedTime w.counted.length w.summed.sum| ≤ 1 / 200
  peak : |health.maxLatencyMs - maxMs getElapsedTime (w.maxed.foldl max 0)| ≤ 1 / 200

/-- The latencies that were recorded, oldest first. -/
def State.recorded (s : State) : List Int64 := s.metrics.records.map RecordCall.latencyTicks

/-- How many latencies are not in a report yet: those in the current window, in the
snapshot being taken, and the one being recorded. -/
def State.pending (s : State) : ℕ :=
  s.metrics.windowPacketCount.value +
    ((s.metrics.snapshots.drop s.reports.length).map fun call => call.count.value).sum +
    s.metrics.records.countP fun call => call.point.rank < 2

/-- What a step records. -/
def records : Event → List Int64
  | .recordPacket latencyTicks => [latencyTicks]
  | _ => []

section Histories

variable {getElapsedTime : ℤ → ℤ → ℤ} {s t : State}

theorem latencies_moveRecord {m : MetricsSnapshot.State} {i : ℕ} {call : RecordCall}
    (hcall : m.records[i]? = some call) (point : RecordPoint) :
    (m.moveRecord i call point).records.map RecordCall.latencyTicks =
      m.records.map RecordCall.latencyTicks := by
  obtain ⟨front, back, hrecords, hset⟩ := exists_split hcall
  rw [State.moveRecord, hset, hrecords]
  simp

/-- The latencies stay as they are unless a call starts. -/
theorem latencies_of_step {m n : MetricsSnapshot.State} {e : MetricsSnapshot.Event}
    (h : MetricsSnapshot.step m e = some n)
    (hstart : ∀ latencyTicks, e ≠ .startRecord latencyTicks) :
    n.records.map RecordCall.latencyTicks = m.records.map RecordCall.latencyTicks := by
  cases moves_of_metrics h with
  | startRecord latencyTicks => exact absurd rfl (hstart latencyTicks)
  | incrementTotal i call hcall => exact latencies_moveRecord hcall _
  | incrementWindow i call hcall => exact latencies_moveRecord hcall _
  | addLatency i call hcall => exact latencies_moveRecord hcall _
  | readHigher i call hcall => exact latencies_moveRecord hcall _
  | readEnough i call hcall => exact latencies_moveRecord hcall _
  | exchanged i call hcall => exact latencies_moveRecord hcall _
  | retried i call hcall => exact latencies_moveRecord hcall _
  | _ => rfl

/-- The histories of the service grow by what the steps record and send. -/
theorem histories_step {e : Event} (hstep : step getElapsedTime s e = some t) :
    t.recorded = s.recorded ++ records e ∧
      t.reports = s.reports ++ sends getElapsedTime s e := by
  cases e with
  | recordPacket latencyTicks =>
    obtain ⟨-, hmetrics⟩ := Option.ite_none_right_eq_some.mp hstep
    obtain ⟨n, hn, rfl⟩ := Option.map_eq_some_iff.mp hmetrics
    cases hn
    exact ⟨List.map_append, (List.append_nil _).symm⟩
  | record =>
    obtain ⟨n, hn, rfl⟩ := Option.map_eq_some_iff.mp hstep
    exact ⟨(latencies_of_step hn nofun).trans (List.append_nil _).symm,
      (List.append_nil _).symm⟩
  | delayDone | snapshot =>
    obtain ⟨-, hmetrics⟩ := Option.ite_none_right_eq_some.mp hstep
    obtain ⟨n, hn, rfl⟩ := Option.map_eq_some_iff.mp hmetrics
    exact ⟨(latencies_of_step hn nofun).trans (List.append_nil _).symm,
      (List.append_nil _).symm⟩
  | send grpcConnected uptime =>
    obtain ⟨call, hcall, hsend⟩ := Option.bind_eq_some_iff.mp hstep
    obtain ⟨-, hsend⟩ := Option.ite_none_right_eq_some.mp hsend
    cases hsend
    refine ⟨(List.append_nil _).symm, ?_⟩
    rw [sends, hcall]
    rfl
  | sent | canceled | fails =>
    obtain ⟨-, hmove⟩ := Option.ite_none_right_eq_some.mp hstep
    cases hmove
    exact ⟨(List.append_nil _).symm, (List.append_nil _).symm⟩

end Histories

section Windows

variable {getElapsedTime : ℤ → ℤ → ℤ} {windowStart : ℤ} {s : State}
  {reported current : List SnapshotCall}

/-- The reports tell of windows of time, each of which begins where the one before it ends,
and of pieces of what was recorded, each of which begins where the one before it ends.
What is not in the rates of any report yet is pending. -/
structure Covers (getElapsedTime : ℤ → ℤ → ℤ) (windowStart : ℤ) (s : State)
    (windows : List (Window Int64)) : Prop where
  reports : List.Forall₂ (Reports getElapsedTime) s.reports windows
  times : windows.map Window.start = (windowStart :: windows.map Window.stop).dropLast
  counted : (windows.map Window.counted).flatten <+: s.recorded
  summed : (windows.map Window.summed).flatten <+: s.recorded
  maxed : (windows.map Window.maxed).flatten <+: s.recorded
  length_eq : s.recorded.length = (windows.map Window.counted).flatten.length + s.pending

end Windows

end AetherLens.SystemMonitor
