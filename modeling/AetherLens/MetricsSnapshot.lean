import AetherLens.Runs
import Mathlib.Data.List.Nodup

/-!
The lock-free metrics window at the level of its atomic steps: any number of
packets are recorded and any number of snapshots taken, in any interleaving.
Each counter is kept together with the calls that have gone into it since it was
last exchanged. Every counter, and every value a snapshot takes, is exactly the
size, the sum or the maximum of its own calls.
-/
namespace AetherLens.MetricsSnapshot

open Runs

/-- The next atomic step of a `RecordPacket` call. -/
inductive RecordPoint
  | incrementTotal
  | incrementWindow
  | addLatency
  | readMax
  | compareExchange (current : Int64)
  | returned
deriving DecidableEq, Repr

structure RecordCall where
  latencyTicks : Int64
  point : RecordPoint
deriving DecidableEq, Repr

/-- A counter and the calls it accounts for. -/
structure Tally (α : Type*) where
  value : α
  calls : List ℕ
deriving DecidableEq, Repr

/-- The next atomic step of a `Snapshot` call. -/
inductive SnapshotPoint
  | exchangeStart
  | exchangeCount
  | exchangeSum
  | exchangeMax
  | returned
deriving DecidableEq, Repr

/-- A call and the values it has taken so far. -/
structure SnapshotCall where
  now : ℤ
  point : SnapshotPoint
  windowStart : ℤ
  count : Tally ℕ
  latencySum : Tally Int64
  maxTicks : Tally Int64
deriving DecidableEq, Repr

/-- The counts are natural numbers where the counters have 64 bits: none is above the number
of calls, so they agree up to 2 ^ 63 calls. The ticks may wrap around. -/
structure State where
  packetCount : ℕ
  windowStart : ℤ
  windowPacketCount : Tally ℕ
  latencySumTicks : Tally Int64
  maxLatencyTicks : Tally Int64
  records : List RecordCall
  snapshots : List SnapshotCall
deriving DecidableEq, Repr

inductive Event
  | startRecord (latencyTicks : Int64)
  | record (i : ℕ)
  | startSnapshot (now : ℤ)
  | snapshot (j : ℕ)
deriving DecidableEq, Repr

def Tally.empty {α : Type*} (zero : α) : Tally α := ⟨zero, []⟩

def State.moveRecord (s : State) (i : ℕ) (call : RecordCall) (point : RecordPoint) : State :=
  { s with records := s.records.set i { call with point := point } }

def State.recordStep (s : State) (i : ℕ) (call : RecordCall) : Option State :=
  match call.point with
  | .incrementTotal =>
    some { s.moveRecord i call .incrementWindow with packetCount := s.packetCount + 1 }
  | .incrementWindow =>
    some { s.moveRecord i call .addLatency with
      windowPacketCount := ⟨s.windowPacketCount.value + 1, s.windowPacketCount.calls ++ [i]⟩ }
  | .addLatency =>
    some { s.moveRecord i call .readMax with
      latencySumTicks :=
        ⟨s.latencySumTicks.value + call.latencyTicks, s.latencySumTicks.calls ++ [i]⟩ }
  | .readMax =>
    if s.maxLatencyTicks.value < call.latencyTicks then
      some (s.moveRecord i call (.compareExchange s.maxLatencyTicks.value))
    else
      some { s.moveRecord i call .returned with
        maxLatencyTicks := ⟨s.maxLatencyTicks.value, s.maxLatencyTicks.calls ++ [i]⟩ }
  | .compareExchange current =>
    if s.maxLatencyTicks.value = current then
      some { s.moveRecord i call .returned with
        maxLatencyTicks := ⟨call.latencyTicks, s.maxLatencyTicks.calls ++ [i]⟩ }
    else some (s.moveRecord i call .readMax)
  | .returned => none

def State.setSnapshot (s : State) (j : ℕ) (call : SnapshotCall) : State :=
  { s with snapshots := s.snapshots.set j call }

def State.snapshotStep (s : State) (j : ℕ) (call : SnapshotCall) : Option State :=
  match call.point with
  | .exchangeStart =>
    some { s.setSnapshot j
        { call with windowStart := s.windowStart, point := .exchangeCount } with
      windowStart := call.now }
  | .exchangeCount =>
    some { s.setSnapshot j
        { call with count := s.windowPacketCount, point := .exchangeSum } with
      windowPacketCount := Tally.empty 0 }
  | .exchangeSum =>
    some { s.setSnapshot j
        { call with latencySum := s.latencySumTicks, point := .exchangeMax } with
      latencySumTicks := Tally.empty 0 }
  | .exchangeMax =>
    some { s.setSnapshot j
        { call with maxTicks := s.maxLatencyTicks, point := .returned } with
      maxLatencyTicks := Tally.empty 0 }
  | .returned => none

def step (s : State) : Event → Option State
  | .startRecord latencyTicks =>
    some { s with records := s.records ++ [⟨latencyTicks, .incrementTotal⟩] }
  | .record i => s.records[i]?.bind (s.recordStep i)
  | .startSnapshot now =>
    some { s with
      snapshots := s.snapshots ++
        [⟨now, .exchangeStart, 0, Tally.empty 0, Tally.empty 0, Tally.empty 0⟩] }
  | .snapshot j => s.snapshots[j]?.bind (s.snapshotStep j)

/-- The metrics of a service created at a given time. -/
def start (windowStart : ℤ) : State :=
  ⟨0, windowStart, Tally.empty 0, Tally.empty 0, Tally.empty 0, [], []⟩

def machine (windowStart : ℤ) : Machine State Event := ⟨start windowStart, step⟩

/-- How far a call has come: two from its second increment on, three from its add
on, four when it has returned. -/
def RecordPoint.rank : RecordPoint → ℕ
  | .incrementTotal => 0
  | .incrementWindow => 1
  | .addLatency => 2
  | .readMax => 3
  | .compareExchange _ => 3
  | .returned => 4

def rankOf (records : List RecordCall) (i : ℕ) : ℕ :=
  (records[i]?.map fun call => call.point.rank).getD 0

def latencyOf (records : List RecordCall) (i : ℕ) : Int64 :=
  (records[i]?.map RecordCall.latencyTicks).getD 0

section Records

variable {records : List RecordCall} {i : ℕ} {call : RecordCall}

theorem rankOf_eq (hcall : records[i]? = some call) : rankOf records i = call.point.rank := by
  simp [rankOf, hcall]

theorem latencyOf_eq (hcall : records[i]? = some call) :
    latencyOf records i = call.latencyTicks := by
  simp [latencyOf, hcall]

theorem lt_length_of_rank (h : 0 < rankOf records i) : i < records.length := by
  by_contra hge
  have hnone : records[i]? = none := by
    rw [List.getElem?_eq_none_iff]
    omega
  simp [rankOf, hnone] at h

theorem rankOf_append_start (records : List RecordCall) (latencyTicks : Int64) (i : ℕ) :
    rankOf (records ++ [⟨latencyTicks, .incrementTotal⟩]) i = rankOf records i := by
  unfold rankOf
  rcases Nat.lt_trichotomy i records.length with hlt | heq | hgt
  · rw [List.getElem?_append_left hlt]
  · subst heq
    simp [RecordPoint.rank]
  · rw [List.getElem?_eq_none (by simp; omega), List.getElem?_eq_none (by omega)]

theorem latencyOf_append (records : List RecordCall) (call : RecordCall) {i : ℕ}
    (h : i < records.length) : latencyOf (records ++ [call]) i = latencyOf records i := by
  rw [latencyOf, latencyOf, List.getElem?_append_left h]

theorem rankOf_set (hcall : records[i]? = some call) (point : RecordPoint) (k : ℕ) :
    rankOf (records.set i { call with point := point }) k =
      if k = i then point.rank else rankOf records k := by
  obtain ⟨hlt, _⟩ := List.getElem?_eq_some_iff.mp hcall
  by_cases hk : k = i
  · subst hk
    simp [rankOf, hlt]
  · rw [if_neg hk, rankOf, rankOf, List.getElem?_set_ne (Ne.symm hk)]

theorem latencyOf_set (hcall : records[i]? = some call) (point : RecordPoint) :
    latencyOf (records.set i { call with point := point }) = latencyOf records := by
  obtain ⟨hlt, _⟩ := List.getElem?_eq_some_iff.mp hcall
  funext k
  by_cases hk : k = i
  · subst hk
    rw [latencyOf_eq hcall]
    simp [latencyOf, hlt]
  · rw [latencyOf, latencyOf, List.getElem?_set_ne (Ne.symm hk)]

end Records

def sumTicks (records : List RecordCall) (calls : List ℕ) : Int64 :=
  (calls.map (latencyOf records)).sum

/-- The largest latency of the calls, or zero. -/
def maxOfTicks (records : List RecordCall) (calls : List ℕ) : Int64 :=
  (calls.map (latencyOf records)).foldl max 0

theorem sumTicks_append (records : List RecordCall) (calls : List ℕ) (i : ℕ) :
    sumTicks records (calls ++ [i]) = sumTicks records calls + latencyOf records i := by
  simp [sumTicks]

theorem maxOfTicks_append (records : List RecordCall) (calls : List ℕ) (i : ℕ) :
    maxOfTicks records (calls ++ [i]) = max (maxOfTicks records calls) (latencyOf records i) := by
  simp [maxOfTicks]

theorem max_eq (a b : Int64) : max a b = if a ≤ b then b else a := rfl

theorem max_eq_left_of_not_lt {a b : Int64} (h : ¬ a < b) : max a b = a := by
  rw [max_eq]
  split
  next hle =>
    rw [Int64.lt_iff_toInt_lt] at h
    rw [Int64.le_iff_toInt_le] at hle
    exact Int64.toInt_inj.mp (by omega)
  next => rfl

theorem max_eq_right_of_lt {a b : Int64} (h : a < b) : max a b = b := by
  rw [max_eq, if_pos (Int64.le_of_lt h)]

/-- The value is the total of the calls, which are distinct and have come far enough. -/
structure Tally.Holds {α : Type*} (tally : Tally α) (total : List ℕ → α) (least : ℕ)
    (records : List RecordCall) : Prop where
  value_eq : tally.value = total tally.calls
  rank_le : ∀ i ∈ tally.calls, least ≤ rankOf records i
  nodup : tally.calls.Nodup

/-- A call goes into a tally in the step that takes it to the tally's rank. -/
theorem Tally.Holds.record {α : Type*} {tally : Tally α} {total total' : List ℕ → α}
    {least i : ℕ} {records : List RecordCall} (h : tally.Holds total least records)
    {call : RecordCall} (hcall : records[i]? = some call) {point : RecordPoint}
    (hbefore : call.point.rank < least) (hafter : least ≤ point.rank) {value : α}
    (hvalue : value = total' (tally.calls ++ [i])) :
    Tally.Holds ⟨value, tally.calls ++ [i]⟩ total' least
      (records.set i { call with point := point }) := by
  have hnew : i ∉ tally.calls := by
    intro hmem
    have hge := h.rank_le i hmem
    rw [rankOf_eq hcall] at hge
    omega
  refine ⟨hvalue, ?_, ?_⟩
  · intro k hk
    rw [rankOf_set hcall]
    split
    next => exact hafter
    next hne =>
      rcases List.mem_append.mp hk with hold | hi
      · exact h.rank_le k hold
      · exact absurd (List.mem_singleton.mp hi) hne
  · have hconcat := List.Nodup.concat hnew h.nodup
    rwa [List.concat_eq_append] at hconcat

theorem Tally.Holds.mono {α : Type*} {tally : Tally α} {total total' : List ℕ → α} {least : ℕ}
    {records records' : List RecordCall} (h : tally.Holds total least records)
    (hrank : ∀ k, rankOf records k ≤ rankOf records' k)
    (htotal : total' tally.calls = total tally.calls) : tally.Holds total' least records' :=
  ⟨h.value_eq.trans htotal.symm, fun i hi => (h.rank_le i hi).trans (hrank i), h.nodup⟩

theorem Tally.empty_holds {α : Type*} (total : List ℕ → α) (least : ℕ)
    (records : List RecordCall) {zero : α} (h : total [] = zero) :
    (Tally.empty zero).Holds total least records :=
  ⟨h.symm, fun _ hi => absurd hi List.not_mem_nil, List.nodup_nil⟩

/-- Three tallies that count, sum and bound their own calls. -/
structure Sound (records : List RecordCall) (count : Tally ℕ) (sum max : Tally Int64) :
    Prop where
  count_holds : count.Holds List.length 2 records
  sum_holds : sum.Holds (sumTicks records) 3 records
  max_holds : max.Holds (maxOfTicks records) 4 records

/-- The calls only move on, and their latencies stay. -/
structure Extends (records records' : List RecordCall) : Prop where
  rank_le : ∀ i, rankOf records i ≤ rankOf records' i
  latency_eq : ∀ i, 0 < rankOf records i → latencyOf records' i = latencyOf records i

theorem extends_start (records : List RecordCall) (latencyTicks : Int64) :
    Extends records (records ++ [⟨latencyTicks, .incrementTotal⟩]) := by
  refine ⟨?_, ?_⟩
  · intro i
    rw [rankOf_append_start]
  · intro i hi
    exact latencyOf_append records _ (lt_length_of_rank hi)

theorem extends_set {records : List RecordCall} {i : ℕ} {call : RecordCall}
    (hcall : records[i]? = some call) {point : RecordPoint}
    (hrank : call.point.rank ≤ point.rank) :
    Extends records (records.set i { call with point := point }) := by
  refine ⟨?_, ?_⟩
  · intro k
    rw [rankOf_set hcall]
    split
    next hk =>
      rw [hk, rankOf_eq hcall]
      exact hrank
    next => exact Nat.le_refl _
  · intro k _
    rw [latencyOf_set hcall]

section Mono

variable {records records' : List RecordCall}

theorem map_latencyOf_eq (hext : Extends records records') {calls : List ℕ}
    (h : ∀ i ∈ calls, 0 < rankOf records i) :
    calls.map (latencyOf records') = calls.map (latencyOf records) :=
  List.map_congr_left fun i hi => hext.latency_eq i (h i hi)

theorem Sound.mono {count : Tally ℕ} {sum max : Tally Int64} (h : Sound records count sum max)
    (hext : Extends records records') : Sound records' count sum max := by
  refine ⟨h.count_holds.mono hext.rank_le rfl, h.sum_holds.mono hext.rank_le ?_,
    h.max_holds.mono hext.rank_le ?_⟩
  · rw [sumTicks, sumTicks, map_latencyOf_eq hext]
    intro i hi
    have hrank := h.sum_holds.rank_le i hi
    omega
  · rw [maxOfTicks, maxOfTicks, map_latencyOf_eq hext]
    intro i hi
    have hrank := h.max_holds.rank_le i hi
    omega

end Mono

/-- What a step does, with its guard. -/
inductive Moves (s : State) : Event → State → Prop
  | startRecord (latencyTicks : Int64) :
      Moves s (.startRecord latencyTicks)
        { s with records := s.records ++ [⟨latencyTicks, .incrementTotal⟩] }
  | incrementTotal (i : ℕ) (call : RecordCall) (hcall : s.records[i]? = some call)
      (hpoint : call.point = .incrementTotal) :
      Moves s (.record i)
        { s.moveRecord i call .incrementWindow with packetCount := s.packetCount + 1 }
  | incrementWindow (i : ℕ) (call : RecordCall) (hcall : s.records[i]? = some call)
      (hpoint : call.point = .incrementWindow) :
      Moves s (.record i) { s.moveRecord i call .addLatency with
        windowPacketCount := ⟨s.windowPacketCount.value + 1, s.windowPacketCount.calls ++ [i]⟩ }
  | addLatency (i : ℕ) (call : RecordCall) (hcall : s.records[i]? = some call)
      (hpoint : call.point = .addLatency) :
      Moves s (.record i) { s.moveRecord i call .readMax with
        latencySumTicks :=
          ⟨s.latencySumTicks.value + call.latencyTicks, s.latencySumTicks.calls ++ [i]⟩ }
  | readHigher (i : ℕ) (call : RecordCall) (hcall : s.records[i]? = some call)
      (hpoint : call.point = .readMax) (hlt : s.maxLatencyTicks.value < call.latencyTicks) :
      Moves s (.record i) (s.moveRecord i call (.compareExchange s.maxLatencyTicks.value))
  | readEnough (i : ℕ) (call : RecordCall) (hcall : s.records[i]? = some call)
      (hpoint : call.point = .readMax) (hge : ¬ s.maxLatencyTicks.value < call.latencyTicks) :
      Moves s (.record i) { s.moveRecord i call .returned with
        maxLatencyTicks := ⟨s.maxLatencyTicks.value, s.maxLatencyTicks.calls ++ [i]⟩ }
  | exchanged (i : ℕ) (call : RecordCall) (hcall : s.records[i]? = some call)
      (hpoint : call.point = .compareExchange s.maxLatencyTicks.value) :
      Moves s (.record i) { s.moveRecord i call .returned with
        maxLatencyTicks := ⟨call.latencyTicks, s.maxLatencyTicks.calls ++ [i]⟩ }
  | retried (i : ℕ) (call : RecordCall) (hcall : s.records[i]? = some call) (current : Int64)
      (hpoint : call.point = .compareExchange current) (hne : s.maxLatencyTicks.value ≠ current) :
      Moves s (.record i) (s.moveRecord i call .readMax)
  | startSnapshot (now : ℤ) :
      Moves s (.startSnapshot now) { s with
        snapshots := s.snapshots ++
          [⟨now, .exchangeStart, 0, Tally.empty 0, Tally.empty 0, Tally.empty 0⟩] }
  | exchangeStart (j : ℕ) (call : SnapshotCall) (hcall : s.snapshots[j]? = some call)
      (hpoint : call.point = .exchangeStart) :
      Moves s (.snapshot j) { s.setSnapshot j
          { call with windowStart := s.windowStart, point := .exchangeCount } with
        windowStart := call.now }
  | exchangeCount (j : ℕ) (call : SnapshotCall) (hcall : s.snapshots[j]? = some call)
      (hpoint : call.point = .exchangeCount) :
      Moves s (.snapshot j) { s.setSnapshot j
          { call with count := s.windowPacketCount, point := .exchangeSum } with
        windowPacketCount := Tally.empty 0 }
  | exchangeSum (j : ℕ) (call : SnapshotCall) (hcall : s.snapshots[j]? = some call)
      (hpoint : call.point = .exchangeSum) :
      Moves s (.snapshot j) { s.setSnapshot j
          { call with latencySum := s.latencySumTicks, point := .exchangeMax } with
        latencySumTicks := Tally.empty 0 }
  | exchangeMax (j : ℕ) (call : SnapshotCall) (hcall : s.snapshots[j]? = some call)
      (hpoint : call.point = .exchangeMax) :
      Moves s (.snapshot j) { s.setSnapshot j
          { call with maxTicks := s.maxLatencyTicks, point := .returned } with
        maxLatencyTicks := Tally.empty 0 }

theorem moves_of_step {windowStart : ℤ} {s t : State} {e : Event}
    (h : (machine windowStart).step s e = some t) : Moves s e t := by
  cases e with
  | startRecord latencyTicks =>
    cases h
    exact .startRecord latencyTicks
  | startSnapshot now =>
    cases h
    exact .startSnapshot now
  | record i =>
    obtain ⟨call, hcall, hstep⟩ := Option.bind_eq_some_iff.mp h
    unfold State.recordStep at hstep
    split at hstep
    next hpoint =>
      cases hstep
      exact .incrementTotal i call hcall hpoint
    next hpoint =>
      cases hstep
      exact .incrementWindow i call hcall hpoint
    next hpoint =>
      cases hstep
      exact .addLatency i call hcall hpoint
    next hpoint =>
      split at hstep
      next hlt =>
        cases hstep
        exact .readHigher i call hcall hpoint hlt
      next hge =>
        cases hstep
        exact .readEnough i call hcall hpoint hge
    next current hpoint =>
      split at hstep
      next heq =>
        cases hstep
        rw [← heq] at hpoint
        exact .exchanged i call hcall hpoint
      next hne =>
        cases hstep
        exact .retried i call hcall current hpoint hne
    next => cases hstep
  | snapshot j =>
    obtain ⟨call, hcall, hstep⟩ := Option.bind_eq_some_iff.mp h
    unfold State.snapshotStep at hstep
    split at hstep
    next hpoint =>
      cases hstep
      exact .exchangeStart j call hcall hpoint
    next hpoint =>
      cases hstep
      exact .exchangeCount j call hcall hpoint
    next hpoint =>
      cases hstep
      exact .exchangeSum j call hcall hpoint
    next hpoint =>
      cases hstep
      exact .exchangeMax j call hcall hpoint
    next => cases hstep

/-- Every counter of the window and every value a snapshot has taken is sound, and
a call exchanges only for a latency above what it has read. -/
structure Inv (s : State) : Prop where
  window : Sound s.records s.windowPacketCount s.latencySumTicks s.maxLatencyTicks
  taken : ∀ (j : ℕ) (call : SnapshotCall), s.snapshots[j]? = some call →
    Sound s.records call.count call.latencySum call.maxTicks
  higher : ∀ (i : ℕ) (call : RecordCall), s.records[i]? = some call → ∀ current,
    call.point = .compareExchange current → current < call.latencyTicks

theorem sound_zero (records : List RecordCall) :
    Sound records (Tally.empty 0) (Tally.empty 0) (Tally.empty 0) :=
  ⟨Tally.empty_holds _ _ _ rfl, Tally.empty_holds _ _ _ rfl, Tally.empty_holds _ _ _ rfl⟩

theorem inv_start (windowStart : ℤ) : Inv (start windowStart) := by
  refine ⟨sound_zero _, ?_, ?_⟩
  · intro j call hcall
    simp [start] at hcall
  · intro i call hcall
    simp [start] at hcall

section Steps

variable {s : State}

theorem taken_mono (h : Inv s) {records : List RecordCall} (hext : Extends s.records records)
    {j : ℕ} {call : SnapshotCall} (hcall : s.snapshots[j]? = some call) :
    Sound records call.count call.latencySum call.maxTicks := (h.taken j call hcall).mono hext

theorem taken_setSnapshot (h : Inv s) {j : ℕ} {call : SnapshotCall}
    (hsound : Sound s.records call.count call.latencySum call.maxTicks) :
    ∀ (k : ℕ) (other : SnapshotCall), (s.setSnapshot j call).snapshots[k]? = some other →
      Sound s.records other.count other.latencySum other.maxTicks := by
  intro k other hother
  simp only [State.setSnapshot, List.getElem?_set] at hother
  split at hother
  · split at hother
    · cases hother
      exact hsound
    · cases hother
  · exact h.taken k other hother

theorem higher_moveRecord (h : Inv s) {i : ℕ} {call : RecordCall} {point : RecordPoint}
    (hpoint : ∀ current, point = .compareExchange current → current < call.latencyTicks) :
    ∀ (k : ℕ) (other : RecordCall), (s.moveRecord i call point).records[k]? = some other →
      ∀ current, other.point = .compareExchange current → current < other.latencyTicks := by
  intro k other hother
  simp only [State.moveRecord, List.getElem?_set] at hother
  split at hother
  · split at hother
    · cases hother
      exact hpoint
    · cases hother
  · exact h.higher k other hother

/-- The step of a call that goes into none of the counters. -/
theorem inv_moveRecord (h : Inv s) {i : ℕ} {call : RecordCall} (hcall : s.records[i]? = some call)
    {before after : RecordPoint} (hpoint : call.point = before) (hrank : before.rank ≤ after.rank)
    (hexchange : ∀ current, after = .compareExchange current → current < call.latencyTicks) :
    Inv (s.moveRecord i call after) := by
  have hext : Extends s.records (s.moveRecord i call after).records := by
    apply extends_set hcall
    rw [hpoint]
    exact hrank
  exact ⟨h.window.mono hext, fun _ _ hk => taken_mono h hext hk, higher_moveRecord h hexchange⟩

/-- The step that takes the largest latency so far to the counter. -/
theorem inv_returned (h : Inv s) {i : ℕ} {call : RecordCall} (hcall : s.records[i]? = some call)
    {before : RecordPoint} (hpoint : call.point = before) (hrank : before.rank = 3) {value : Int64}
    (hvalue : value = max s.maxLatencyTicks.value call.latencyTicks) :
    Inv { s.moveRecord i call .returned with
      maxLatencyTicks := ⟨value, s.maxLatencyTicks.calls ++ [i]⟩ } := by
  have hmoved : Inv (s.moveRecord i call .returned) := by
    apply inv_moveRecord h hcall hpoint
    · rw [hrank]
      decide
    · simp
  have hmax : Tally.Holds ⟨value, s.maxLatencyTicks.calls ++ [i]⟩
      (maxOfTicks (s.records.set i { call with point := .returned })) 4
      (s.records.set i { call with point := .returned }) := by
    apply h.window.max_holds.record hcall
    · rw [hpoint]
      omega
    · decide
    · rw [maxOfTicks_append, latencyOf_set hcall, latencyOf_eq hcall, maxOfTicks,
        latencyOf_set hcall, ← maxOfTicks, ← h.window.max_holds.value_eq]
      exact hvalue
  exact ⟨⟨hmoved.window.count_holds, hmoved.window.sum_holds, hmax⟩, hmoved.taken,
    hmoved.higher⟩

end Steps

theorem inv_step {windowStart : ℤ} (s : State) (e : Event) (t : State)
    (hstep : (machine windowStart).step s e = some t) (h : Inv s) : Inv t := by
  cases moves_of_step hstep with
  | startRecord latencyTicks =>
    have hext := extends_start s.records latencyTicks
    refine ⟨h.window.mono hext, fun _ _ hk => taken_mono h hext hk, ?_⟩
    intro i call hcall current hcurrent
    rw [List.getElem?_append] at hcall
    split at hcall
    · exact h.higher i call hcall current hcurrent
    · have hnew : call = ⟨latencyTicks, .incrementTotal⟩ := by
        simpa using (List.mem_of_getElem? hcall)
      rw [hnew] at hcurrent
      cases hcurrent
  | incrementTotal i call hcall hpoint =>
    have hmoved : Inv (s.moveRecord i call .incrementWindow) :=
      inv_moveRecord h hcall hpoint (by decide) (by simp)
    exact ⟨hmoved.window, hmoved.taken, hmoved.higher⟩
  | incrementWindow i call hcall hpoint =>
    have hmoved : Inv (s.moveRecord i call .addLatency) :=
      inv_moveRecord h hcall hpoint (by decide) (by simp)
    refine ⟨⟨?_, hmoved.window.sum_holds, hmoved.window.max_holds⟩, hmoved.taken,
      hmoved.higher⟩
    apply h.window.count_holds.record hcall
    · rw [hpoint]
      decide
    · decide
    · simp [h.window.count_holds.value_eq]
  | addLatency i call hcall hpoint =>
    have hmoved : Inv (s.moveRecord i call .readMax) :=
      inv_moveRecord h hcall hpoint (by decide) (by simp)
    refine ⟨⟨hmoved.window.count_holds, ?_, hmoved.window.max_holds⟩, hmoved.taken,
      hmoved.higher⟩
    apply h.window.sum_holds.record hcall
    · rw [hpoint]
      decide
    · decide
    · rw [State.moveRecord, sumTicks_append, latencyOf_set hcall, latencyOf_eq hcall, sumTicks,
        latencyOf_set hcall, ← sumTicks, ← h.window.sum_holds.value_eq]
  | readHigher i call hcall hpoint hlt =>
    apply inv_moveRecord h hcall hpoint
    · exact Nat.le_refl 3
    · intro current heq
      cases heq
      exact hlt
  | readEnough i call hcall hpoint hge =>
    exact inv_returned h hcall hpoint rfl (max_eq_left_of_not_lt hge).symm
  | exchanged i call hcall hpoint =>
    have hhigher := h.higher i call hcall _ hpoint
    exact inv_returned h hcall hpoint rfl (max_eq_right_of_lt hhigher).symm
  | retried i call hcall current hpoint =>
    have hrank : RecordPoint.rank (.compareExchange current) ≤ RecordPoint.rank .readMax :=
      Nat.le_refl 3
    exact inv_moveRecord h hcall hpoint hrank (by simp)
  | startSnapshot now =>
    refine ⟨h.window, ?_, h.higher⟩
    intro j call hcall
    rw [List.getElem?_append] at hcall
    split at hcall
    · exact h.taken j call hcall
    · have hnew := List.mem_singleton.mp (List.mem_of_getElem? hcall)
      rw [hnew]
      exact sound_zero s.records
  | exchangeStart j call hcall hpoint =>
    exact ⟨h.window, taken_setSnapshot h (h.taken j call hcall), h.higher⟩
  | exchangeCount j call hcall hpoint =>
    have htaken := h.taken j call hcall
    exact ⟨⟨Tally.empty_holds _ _ _ rfl, h.window.sum_holds, h.window.max_holds⟩,
      taken_setSnapshot h ⟨h.window.count_holds, htaken.sum_holds, htaken.max_holds⟩, h.higher⟩
  | exchangeSum j call hcall hpoint =>
    have htaken := h.taken j call hcall
    exact ⟨⟨h.window.count_holds, Tally.empty_holds _ _ _ rfl, h.window.max_holds⟩,
      taken_setSnapshot h ⟨htaken.count_holds, h.window.sum_holds, htaken.max_holds⟩, h.higher⟩
  | exchangeMax j call hcall hpoint =>
    have htaken := h.taken j call hcall
    exact ⟨⟨h.window.count_holds, h.window.sum_holds, Tally.empty_holds _ _ _ rfl⟩,
      taken_setSnapshot h ⟨htaken.count_holds, htaken.sum_holds, h.window.max_holds⟩, h.higher⟩

theorem inv_run {windowStart : ℤ} {es : List Event} {s : State}
    (hs : (machine windowStart).run es = some s) : Inv s :=
  (machine windowStart).run_invariant Inv (inv_start windowStart) inv_step hs

end AetherLens.MetricsSnapshot
