import AetherLens.ExchangedWindows
import AetherLens.SnapshotTotals

/-!
The windows of the three counters, read off the steps of a run: what goes into a counter
between two exchanges of it is one window, and the exchange belongs to a snapshot. The
values of a snapshot are the size, the sum and the maximum of its three windows.
-/
namespace AetherLens.SnapshotWindows

open ExchangedWindows MetricsSnapshot SnapshotSets SnapshotTotals Runs

/-- The three counters that a snapshot exchanges. -/
inductive Counter
  | count
  | sum
  | max
deriving DecidableEq, Repr

namespace Counter

/-- The call takes the step after which the counter accounts for it: the second increment,
the add, or the end of the maximum loop, which is a read of enough or an exchange. -/
@[simp] def Enters (s : State) (call : RecordCall) : Counter → Prop
  | .count => call.point = .incrementWindow
  | .sum => call.point = .addLatency
  | .max => call.point = .readMax ∧ ¬ s.maxLatencyTicks.value < call.latencyTicks ∨
      call.point = .compareExchange s.maxLatencyTicks.value

instance (s : State) (call : RecordCall) : (c : Counter) → Decidable (c.Enters s call)
  | .count => inferInstanceAs (Decidable (_ = _))
  | .sum => inferInstanceAs (Decidable (_ = _))
  | .max => inferInstanceAs (Decidable (_ ∨ _))

/-- The rank of the calls that the counter accounts for. -/
@[simp] def least : Counter → ℕ
  | .count => 2
  | .sum => 3
  | .max => 4

/-- Where a snapshot exchanges the counter. -/
@[simp] def point : Counter → SnapshotPoint
  | .count => .exchangeCount
  | .sum => .exchangeSum
  | .max => .exchangeMax

/-- The call that a step puts into the counter. -/
def into (c : Counter) : State × Event → Option ℕ
  | (s, .record i) => s.records[i]?.bind fun call => if c.Enters s call then some i else none
  | _ => none

/-- The snapshot that takes what is in the counter. -/
def taker (c : Counter) : State × Event → Option ℕ
  | (s, .snapshot j) => s.snapshots[j]?.bind fun call =>
      if call.point = c.point then some j else none
  | _ => none

/-- The windows of the counter in a run. -/
def windowsOf (c : Counter) (windowStart : ℤ) (es : List Event) : Windows ℕ ℕ :=
  windows c.into c.taker ((machine windowStart).steps es)

@[simp] def calls (s : State) : Counter → List ℕ
  | .count => s.windowPacketCount.calls
  | .sum => s.latencySumTicks.calls
  | .max => s.maxLatencyTicks.calls

@[simp] def callsTaken (call : SnapshotCall) : Counter → List ℕ
  | .count => call.count.calls
  | .sum => call.latencySum.calls
  | .max => call.maxTicks.calls

/-- What a snapshot has taken from the counter, once it is past the exchange. -/
def passed (c : Counter) (call : SnapshotCall) : Option (List ℕ) :=
  if exchanges c.point < exchanges call.point then some (c.callsTaken call) else none

def holding (c : Counter) (s : State) : Holding ℕ ℕ where
  held := c.calls s
  takenBy := fun j => s.snapshots[j]?.bind c.passed

end Counter

section Steps

variable {c : Counter} {s t : State} {e : Event}

/-- What a step does to the windows of a counter: it puts a call into the one that is
open, takes that one, or does nothing to them. -/
inductive Effect (c : Counter) (s : State) (e : Event) (t : State) : Prop
  | enters (i : ℕ) (call : RecordCall) (point : RecordPoint) (hcall : s.records[i]? = some call)
      (hrecords : t.records = s.records.set i { call with point := point })
      (hbefore : call.point.rank < c.least) (hafter : c.least ≤ point.rank)
      (hinto : c.into (s, e) = some i) (htaker : c.taker (s, e) = none)
      (hheld : (c.holding t).held = (c.holding s).held ++ [i])
      (htaken : (c.holding t).takenBy = (c.holding s).takenBy)
  | takes (j : ℕ) (hmark : ∀ i, c.least ≤ rankOf t.records i ↔ c.least ≤ rankOf s.records i)
      (hinto : c.into (s, e) = none) (htaker : c.taker (s, e) = some j)
      (hfirst : (c.holding s).takenBy j = none) (hheld : (c.holding t).held = [])
      (htaken : (c.holding t).takenBy =
        Function.update (c.holding s).takenBy j (some (c.holding s).held))
  | keeps (hmark : ∀ i, c.least ≤ rankOf t.records i ↔ c.least ≤ rankOf s.records i)
      (hinto : c.into (s, e) = none) (htaker : c.taker (s, e) = none)
      (hheld : (c.holding t).held = (c.holding s).held)
      (htaken : (c.holding t).takenBy = (c.holding s).takenBy)

/-- A step of a recording call goes into the counter exactly if it takes the call to the
counter's rank. -/
theorem effect_record {i : ℕ} {call : RecordCall} (hcall : s.records[i]? = some call)
    {before after : RecordPoint} (hpoint : call.point = before)
    (hrecords : t.records = s.records.set i { call with point := after })
    (hsnapshots : t.snapshots = s.snapshots)
    (hkept : c.least ≤ before.rank → c.least ≤ after.rank)
    (henters : c.Enters s call ↔ before.rank < c.least ∧ c.least ≤ after.rank)
    (hheld : c.calls t = c.calls s ++ if c.Enters s call then [i] else []) :
    Effect c s (.record i) t := by
  have hinto : c.into (s, .record i) = if c.Enters s call then some i else none := by
    simp only [Counter.into, hcall, Option.bind_some]
  have htaken : (c.holding t).takenBy = (c.holding s).takenBy := by
    funext j
    simp only [Counter.holding, hsnapshots]
  by_cases henter : c.Enters s call
  · rw [if_pos henter] at hinto hheld
    obtain ⟨hbefore, hafter⟩ := henters.mp henter
    rw [← hpoint] at hbefore
    exact .enters i call after hcall hrecords hbefore hafter hinto rfl hheld htaken
  · rw [if_neg henter] at hinto hheld
    rw [List.append_nil] at hheld
    refine .keeps (fun k => ?_) hinto rfl hheld htaken
    rw [hrecords, rankOf_set hcall]
    split
    next hk =>
      rw [hk, rankOf_eq hcall, hpoint]
      refine ⟨fun hafter => ?_, hkept⟩
      by_contra hbefore
      exact henter (henters.mpr ⟨Nat.lt_of_not_le hbefore, hafter⟩)
    next => exact Iff.rfl

/-- A step of a snapshot takes the window of a counter or leaves it as it is. -/
theorem effect_snapshot {j : ℕ} {call new : SnapshotCall} (hcall : s.snapshots[j]? = some call)
    (hrecords : t.records = s.records) (hsnapshots : t.snapshots = s.snapshots.set j new)
    (hpassed : c.passed new = if call.point = c.point then some (c.calls s) else c.passed call)
    (hheld : c.calls t = if call.point = c.point then [] else c.calls s) :
    Effect c s (.snapshot j) t := by
  have hmark : ∀ i, c.least ≤ rankOf t.records i ↔ c.least ≤ rankOf s.records i := by
    intro i
    rw [hrecords]
  have htaker : c.taker (s, .snapshot j) = if call.point = c.point then some j else none := by
    simp only [Counter.taker, hcall, Option.bind_some]
  have htaken : (c.holding t).takenBy = Function.update (c.holding s).takenBy j (c.passed new) := by
    funext k
    by_cases hkj : k = j
    · subst k
      simp only [Counter.holding, hsnapshots, snapshots_set_self hcall, Option.bind_some,
        Function.update_self]
    · simp only [Counter.holding, hsnapshots, List.getElem?_set_ne (Ne.symm hkj),
        Function.update_of_ne hkj]
  have hbefore : (c.holding s).takenBy j = c.passed call := by
    simp only [Counter.holding, hcall, Option.bind_some]
  by_cases hpoint : call.point = c.point
  · rw [if_pos hpoint] at htaker hheld hpassed
    rw [hpassed] at htaken
    refine .takes j hmark rfl htaker ?_ hheld htaken
    rw [hbefore, Counter.passed, hpoint, if_neg (Nat.lt_irrefl _)]
  · rw [if_neg hpoint] at htaker hheld hpassed
    refine .keeps hmark rfl htaker hheld ?_
    rw [htaken, hpassed, ← hbefore, Function.update_eq_self]

theorem effect_startSnapshot (now : ℤ) : Effect c s (.startSnapshot now)
    { s with snapshots := s.snapshots ++
      [⟨now, .exchangeStart, 0, Tally.empty 0, Tally.empty 0, Tally.empty 0⟩] } := by
  refine .keeps (fun _ => Iff.rfl) rfl rfl (by cases c <;> rfl) ?_
  funext j
  simp only [Counter.holding]
  rcases Nat.lt_trichotomy j s.snapshots.length with hlt | heq | hgt
  · rw [List.getElem?_append_left hlt]
  · subst heq
    simp [Counter.passed, exchanges]
  · rw [List.getElem?_eq_none (by simp; omega), List.getElem?_eq_none (by omega)]

theorem effect_of_step {windowStart : ℤ} (c : Counter)
    (h : (machine windowStart).step s e = some t) : Effect c s e t := by
  cases moves_of_step h with
  | startRecord latencyTicks =>
    refine .keeps (fun i => ?_) rfl rfl (by cases c <;> rfl) rfl
    rw [rankOf_append_start]
  | startSnapshot now => exact effect_startSnapshot now
  | incrementTotal i call hcall hpoint =>
    refine effect_record hcall hpoint rfl rfl ?_ ?_ ?_
    all_goals cases c <;> simp [State.moveRecord, RecordPoint.rank, hpoint]
  | incrementWindow i call hcall hpoint =>
    refine effect_record hcall hpoint rfl rfl ?_ ?_ ?_
    all_goals cases c <;> simp [State.moveRecord, RecordPoint.rank, hpoint]
  | addLatency i call hcall hpoint =>
    refine effect_record hcall hpoint rfl rfl ?_ ?_ ?_
    all_goals cases c <;> simp [State.moveRecord, RecordPoint.rank, hpoint]
  | readHigher i call hcall hpoint hlt =>
    refine effect_record hcall hpoint rfl rfl ?_ ?_ ?_
    all_goals cases c <;> simp [State.moveRecord, RecordPoint.rank, hpoint, hlt]
  | readEnough i call hcall hpoint hge =>
    refine effect_record hcall hpoint rfl rfl ?_ ?_ ?_
    all_goals cases c <;> simp [State.moveRecord, RecordPoint.rank, hpoint, hge]
  | exchanged i call hcall hpoint =>
    refine effect_record hcall hpoint rfl rfl ?_ ?_ ?_
    all_goals cases c <;> simp [State.moveRecord, RecordPoint.rank, hpoint]
  | retried i call hcall current hpoint hne =>
    refine effect_record hcall hpoint rfl rfl ?_ ?_ ?_
    all_goals cases c <;> simp [State.moveRecord, RecordPoint.rank, hpoint, Ne.symm hne]
  | exchangeStart j call hcall hpoint =>
    refine effect_snapshot hcall rfl rfl ?_ ?_
    all_goals cases c <;> simp [Counter.passed, State.setSnapshot, exchanges, hpoint]
  | exchangeCount j call hcall hpoint =>
    refine effect_snapshot hcall rfl rfl ?_ ?_
    all_goals cases c <;> simp [Counter.passed, State.setSnapshot, exchanges, hpoint, Tally.empty]
  | exchangeSum j call hcall hpoint =>
    refine effect_snapshot hcall rfl rfl ?_ ?_
    all_goals cases c <;> simp [Counter.passed, State.setSnapshot, exchanges, hpoint, Tally.empty]
  | exchangeMax j call hcall hpoint =>
    refine effect_snapshot hcall rfl rfl ?_ ?_
    all_goals cases c <;> simp [Counter.passed, State.setSnapshot, exchanges, hpoint, Tally.empty]

end Steps

/-- The windows of a counter along the steps so far are those of the state, and every call
that has come far enough was put in once. -/
structure Windowed (c : Counter) (trace : List (State × Event)) (s : State) : Prop where
  reflects : (windows c.into c.taker trace).Reflects (c.holding s)
  once : CountedOnce [trace.filterMap c.into] c.least s.records

theorem windowed_start (c : Counter) (windowStart : ℤ) : Windowed c [] (start windowStart) := by
  constructor
  · cases c <;> exact reflects_empty
  · intro i
    have hrank : rankOf (start windowStart).records i = 0 := by simp [rankOf, start]
    rw [hrank, if_neg (by cases c <;> decide)]
    rfl

theorem windowed_step {windowStart : ℤ} (c : Counter) (trace : List (State × Event))
    (s : State) (e : Event) (t : State) (hstep : (machine windowStart).step s e = some t)
    (h : Windowed c trace s) : Windowed c (trace ++ [(s, e)]) t := by
  cases effect_of_step c hstep with
  | enters i call point hcall hrecords hbefore hafter hinto htaker hheld htaken =>
    constructor
    · rw [windows_snoc_of_none trace htaker, hinto]
      exact h.reflects.put hheld htaken
    · have hold : CountedOnce ([] ++ [trace.filterMap c.into]) c.least s.records := h.once
      have honce := hold.record hcall rfl hbefore hafter
      rw [List.filterMap_append, hrecords]
      simpa [hinto] using honce
  | takes j hmark hinto htaker hfirst hheld htaken =>
    constructor
    · rw [windows_snoc_of_some trace htaker]
      exact h.reflects.take hfirst hheld htaken
    · rw [List.filterMap_append]
      simpa [hinto] using h.once.frame hmark
  | keeps hmark hinto htaker hheld htaken =>
    constructor
    · rw [windows_snoc_of_none trace htaker, hinto]
      exact h.reflects.put (hheld.trans (List.append_nil _).symm) htaken
    · rw [List.filterMap_append]
      simpa [hinto] using h.once.frame hmark

theorem windowed_run (c : Counter) {windowStart : ℤ} {es : List Event} {s : State}
    (hs : (machine windowStart).run es = some s) :
    Windowed c ((machine windowStart).steps es) s :=
  (machine windowStart).run_history (Windowed c) (windowed_start c windowStart)
    (windowed_step c) es s hs

section Runs

variable {windowStart : ℤ} {es : List Event} {s : State}

theorem into_of_taker (c : Counter) (x : State × Event) (j : ℕ) (h : c.taker x = some j) :
    c.into x = none := by
  obtain ⟨s, e⟩ := x
  cases e with
  | snapshot j => rfl
  | _ => cases h

/-- The windows that snapshots have taken, and the one that is open, hold every call that
has come far enough once. -/
theorem countedOnce_windowsOf (c : Counter) (hs : (machine windowStart).run es = some s) :
    CountedOnce (c.windowsOf windowStart es).all c.least s.records := by
  intro i
  have honce := (windowed_run c hs).once i
  rw [Counter.windowsOf, flatten_all_windows _ fun x _ => into_of_taker c x]
  simpa using honce

/-- A snapshot that has returned has taken a window of each counter. -/
theorem mem_taken_of_returned (c : Counter) (hs : (machine windowStart).run es = some s) {j : ℕ}
    {call : SnapshotCall} (hcall : s.snapshots[j]? = some call)
    (hreturned : call.point = .returned) :
    (j, c.callsTaken call) ∈ (c.windowsOf windowStart es).taken := by
  refine ((windowed_run c hs).reflects.mem_taken_iff j _).mpr ?_
  have hpast : exchanges c.point < exchanges call.point := by
    rw [hreturned]
    cases c <;> decide
  simp only [Counter.holding, hcall, Option.bind_some, Counter.passed, if_pos hpast]

end Runs

/-- No snapshot takes two windows of a counter, and each call past the step that puts it
into the counter is in one of them or in the open one. The values of a snapshot are exact
for its three windows. A call that is never busy while a snapshot is in progress is in all
three or in none, if snapshots do not overlap; if that goes for every call the three
windows are one set of calls. -/
theorem snapshot_describes (windowStart : ℤ) (es : List Event) (s : State)
    (hs : (machine windowStart).run es = some s) :
    (∀ c : Counter, ((c.windowsOf windowStart es).taken.map Prod.fst).Nodup ∧
      CountedOnce (c.windowsOf windowStart es).all c.least s.records) ∧
    ∀ (j : ℕ) (call : SnapshotCall), s.snapshots[j]? = some call → call.point = .returned →
      ∃ counted summed maxed,
        (j, counted) ∈ (Counter.count.windowsOf windowStart es).taken ∧
        (j, summed) ∈ (Counter.sum.windowsOf windowStart es).taken ∧
        (j, maxed) ∈ (Counter.max.windowsOf windowStart es).taken ∧
        Describes s call counted summed maxed ∧
        ((machine windowStart).Always OneAtATime es →
          (∀ i, (machine windowStart).Always (Apart i) es →
            (i ∈ counted ↔ i ∈ summed) ∧ (i ∈ summed ↔ i ∈ maxed)) ∧
          ((∀ i, (machine windowStart).Always (Apart i) es) →
            Describes s call maxed maxed maxed ∧
            ((∀ i, 0 ≤ (latencyOf s.records i).toInt) →
              averageTicks call ≤ call.maxTicks.value.toInt ∧
              (call.count.value = 0 → call.latencySum.value = 0)))) := by
  refine ⟨fun c => ⟨(windowed_run c hs).reflects.nodup, countedOnce_windowsOf c hs⟩, ?_⟩
  intro j call hcall hreturned
  have hsound := (inv_run hs).taken j call hcall
  refine ⟨call.count.calls, call.latencySum.calls, call.maxTicks.calls,
    mem_taken_of_returned .count hs hcall hreturned,
    mem_taken_of_returned .sum hs hcall hreturned,
    mem_taken_of_returned .max hs hcall hreturned, describes_of_sound hsound, ?_⟩
  intro hone
  have htogether : ∀ i, (machine windowStart).Always (Apart i) es →
      Together i call.count call.latencySum call.maxTicks :=
    fun i hapart => (aligned_run i es s hs hone hapart).done j call hcall hreturned
  refine ⟨htogether, fun hapart => ?_⟩
  have hset := describes_max_of_together hsound fun i => htogether i (hapart i)
  exact ⟨hset, averageTicks_le ⟨_, hset⟩⟩

/-- No two snapshots are in progress, and no call is busy while one is. -/
def Calm (s : State) : Prop :=
  (∀ j < s.snapshots.length, ∀ k < s.snapshots.length, ∀ call ∈ s.snapshots[j]?,
    ∀ other ∈ s.snapshots[k]?, SnapshotCall.InProgress call → SnapshotCall.InProgress other →
      j = k) ∧
  ∀ i < s.records.length, Busy s i → ∀ call ∈ s.snapshots, ¬ SnapshotCall.InProgress call

instance (call : SnapshotCall) : Decidable (SnapshotCall.InProgress call) :=
  inferInstanceAs (Decidable (_ ∨ _))

instance (s : State) (i : ℕ) : Decidable (Busy s i) := inferInstanceAs (Decidable (_ ∨ _))

instance (s : State) : Decidable (Calm s) := inferInstanceAs (Decidable (_ ∧ _))

theorem oneAtATime_of_calm {s : State} (h : Calm s) : OneAtATime s := by
  intro j k call other hcall hother
  obtain ⟨hj, -⟩ := List.getElem?_eq_some_iff.mp hcall
  obtain ⟨hk, -⟩ := List.getElem?_eq_some_iff.mp hother
  exact h.1 j hj k hk call hcall other hother

theorem apart_of_calm {s : State} (h : Calm s) (i : ℕ) : Apart i s := by
  intro hbusy j call hcall
  have hmade : i < s.records.length := by
    apply lt_length_of_rank
    rcases hbusy with htwo | hthree <;> omega
  exact h.2 i hmade hbusy call (List.mem_of_getElem? hcall)

/-- Two packets are recorded at the same time, the second of which has to retry, and
snapshot. A third one makes its first increment during the snapshot, the rest after it,
and is snapshot too. -/
def calmRun : List Event :=
  [.startRecord 5, .startRecord 3, .record 0, .record 1, .record 1, .record 0, .record 0,
    .record 1, .record 0, .record 1, .record 0, .record 1, .record 1, .startRecord 7,
    .startSnapshot 10, .snapshot 0, .snapshot 0, .record 2, .snapshot 0, .snapshot 0,
    .record 2, .record 2, .record 2, .record 2, .startSnapshot 20, .snapshot 1, .snapshot 1,
    .snapshot 1, .snapshot 1]

theorem calmRun_snapshots : ((machine 0).run calmRun).map
    (fun s => (s.records.map RecordCall.latencyTicks, s.snapshots)) = some ([5, 3, 7],
      [⟨10, .returned, 0, ⟨2, [1, 0]⟩, ⟨8, [0, 1]⟩, ⟨5, [0, 1]⟩⟩,
        ⟨20, .returned, 10, ⟨1, [2]⟩, ⟨7, [2]⟩, ⟨7, [2]⟩⟩]) := by
  decide +kernel

theorem calmRun_calm : (machine 0).Always Calm calmRun := by
  have hcalm : ∀ pre ∈ calmRun.inits, ∀ s ∈ (machine 0).run pre, Calm s := by decide +kernel
  exact fun pre hpre s hs => hcalm pre ((List.mem_inits pre calmRun).mpr hpre) s hs

theorem calmRun_maxima :
    (Counter.max.windowsOf 0 calmRun).taken = [(0, [0, 1]), (1, [2])] := by
  decide +kernel

theorem latencyOf_nonneg {records : List RecordCall}
    (h : ∀ ticks ∈ records.map RecordCall.latencyTicks, 0 ≤ ticks.toInt) (i : ℕ) :
    0 ≤ (latencyOf records i).toInt := by
  unfold latencyOf
  cases hcall : records[i]? with
  | none => decide
  | some call => exact h _ (List.mem_map_of_mem (List.mem_of_getElem? hcall))

/-- Both snapshots describe one set of packets each, and their averages are not above
their maxima. -/
theorem snapshot_describes_calm : ∃ s first second, (machine 0).run calmRun = some s ∧
    s.snapshots = [first, second] ∧
    Describes s first [0, 1] [0, 1] [0, 1] ∧ averageTicks first ≤ first.maxTicks.value.toInt ∧
    Describes s second [2] [2] [2] ∧ averageTicks second ≤ second.maxTicks.value.toInt := by
  obtain ⟨s, hs, hvalues⟩ := Option.map_eq_some_iff.mp calmRun_snapshots
  rw [Prod.mk.injEq] at hvalues
  obtain ⟨hlatencies, hsnapshots⟩ := hvalues
  have hone : (machine 0).Always OneAtATime calmRun := fun pre hpre s hs =>
    oneAtATime_of_calm (calmRun_calm pre hpre s hs)
  have hapart : ∀ i, (machine 0).Always (Apart i) calmRun := fun i pre hpre s hs =>
    apart_of_calm (calmRun_calm pre hpre s hs) i
  have hticks : ∀ i, 0 ≤ (latencyOf s.records i).toInt := by
    apply latencyOf_nonneg
    rw [hlatencies]
    simp only [List.mem_cons, List.not_mem_nil, or_false]
    rintro ticks (rfl | rfl | rfl) <;> decide
  have hall := (snapshot_describes 0 calmRun s hs).2
  rw [calmRun_maxima] at hall
  obtain ⟨_, _, first, -, -, hfirst, -, hcalm⟩ := hall 0 _ (by rw [hsnapshots]; rfl) rfl
  obtain ⟨hdescribes, haverage⟩ := (hcalm hone).2 hapart
  obtain ⟨_, _, second, -, -, hsecond, -, hcalm'⟩ := hall 1 _ (by rw [hsnapshots]; rfl) rfl
  obtain ⟨hdescribes', haverage'⟩ := (hcalm' hone).2 hapart
  have hfirst' : first = [0, 1] := by simpa using hfirst
  have hsecond' : second = [2] := by simpa using hsecond
  rw [hfirst'] at hdescribes
  rw [hsecond'] at hdescribes'
  exact ⟨s, _, _, hs, hsnapshots, hdescribes, (haverage hticks).1, hdescribes',
    (haverage' hticks).1⟩

end AetherLens.SnapshotWindows
