import AetherLens.SnapshotSets
import Mathlib.Algebra.GroupWithZero.Nat

/-!
The metrics of all windows together. Every call that has made its second
increment, its add or its last step of the maximum loop is in exactly one window
of that counter: the current one or one that a snapshot has taken. So the counts
and the sums add up, and no recorded latency is above all the maxima.
-/
namespace AetherLens.SnapshotTotals

open MetricsSnapshot SnapshotSets Runs

/-- The windows of a counter hold every call that has come far enough once, and no other. -/
def CountedOnce (windows : List (List ℕ)) (least : ℕ) (records : List RecordCall) : Prop :=
  ∀ i, windows.flatten.count i = if least ≤ rankOf records i then 1 else 0

section Windows

variable {windows : List (List ℕ)} {least i : ℕ} {records : List RecordCall} {call : RecordCall}

theorem CountedOnce.perm {windows' : List (List ℕ)} (h : CountedOnce windows least records)
    (hperm : windows'.flatten.Perm windows.flatten) : CountedOnce windows' least records := by
  intro i
  rw [hperm.count_eq, h i]

theorem CountedOnce.frame {records' : List RecordCall} (h : CountedOnce windows least records)
    (hrank : ∀ i, least ≤ rankOf records' i ↔ least ≤ rankOf records i) :
    CountedOnce windows least records' := by
  intro i
  rw [h i]
  simp only [hrank]

/-- The step of a call that does not take it to the mark. -/
theorem CountedOnce.move (h : CountedOnce windows least records)
    (hcall : records[i]? = some call) {before after : RecordPoint} (hpoint : call.point = before)
    (hmark : least ≤ after.rank ↔ least ≤ before.rank) :
    CountedOnce windows least (records.set i { call with point := after }) := by
  apply h.frame
  intro k
  rw [rankOf_set hcall]
  split
  next hk =>
    rw [hk, rankOf_eq hcall, hpoint]
    exact hmark
  next => exact Iff.rfl

/-- The step that takes a call to the mark and into the current window. -/
theorem CountedOnce.record {taken : List (List ℕ)} {calls : List ℕ}
    (h : CountedOnce (taken ++ [calls]) least records) (hcall : records[i]? = some call)
    {before after : RecordPoint} (hpoint : call.point = before) (hbefore : before.rank < least)
    (hafter : least ≤ after.rank) :
    CountedOnce (taken ++ [calls ++ [i]]) least
      (records.set i { call with point := after }) := by
  intro k
  have hk := h k
  rw [rankOf_set hcall]
  simp only [List.flatten_append, List.flatten_cons, List.flatten_nil, List.append_nil,
    List.count_append, List.count_singleton] at hk ⊢
  by_cases hki : k = i
  · subst hki
    rw [rankOf_eq hcall, hpoint, if_neg (by omega)] at hk
    rw [if_pos rfl, if_pos hafter]
    simp only [beq_self_eq_true, ite_true]
    omega
  · rw [if_neg hki, ← hk]
    simp [Ne.symm hki]

/-- The calls that have come far enough. -/
def marked (least : ℕ) (records : List RecordCall) : List ℕ :=
  (List.range records.length).filter fun i => least ≤ rankOf records i

theorem mem_marked (hleast : 0 < least) :
    i ∈ marked least records ↔ least ≤ rankOf records i := by
  simp only [marked, List.mem_filter, List.mem_range, decide_eq_true_eq]
  constructor
  · exact fun h => h.2
  · exact fun h => ⟨lt_length_of_rank (by omega), h⟩

theorem CountedOnce.perm_marked (h : CountedOnce windows least records) (hleast : 0 < least) :
    windows.flatten.Perm (marked least records) := by
  have hnodup : windows.flatten.Nodup := by
    rw [List.nodup_iff_count_le_one]
    intro i
    rw [h i]
    split <;> omega
  have hmarked : (marked least records).Nodup := List.nodup_range.filter _
  refine (List.perm_ext_iff_of_nodup hnodup hmarked).mpr ?_
  intro i
  rw [mem_marked hleast, ← List.count_pos_iff, h i]
  split <;> simp_all

theorem rankOf_append_of_lt (call : RecordCall) (h : i < records.length) :
    rankOf (records ++ [call]) i = rankOf records i := by
  rw [rankOf, rankOf, List.getElem?_append_left h]

/-- The latencies of the marked calls, in the order in which the calls were made. -/
theorem map_latencyOf_marked (least : ℕ) (records : List RecordCall) :
    (marked least records).map (latencyOf records) =
      (records.filter fun call => least ≤ call.point.rank).map RecordCall.latencyTicks := by
  induction records using List.reverseRecOn with
  | nil => rfl
  | append_singleton records call ih =>
    have hold : (List.range records.length).filter
        (fun i => least ≤ rankOf (records ++ [call]) i) = marked least records := by
      apply List.filter_congr
      intro i hi
      rw [rankOf_append_of_lt call (List.mem_range.mp hi)]
    have hlast : (records ++ [call])[records.length]? = some call := by simp
    have hmap : (marked least records).map (latencyOf (records ++ [call])) =
        (marked least records).map (latencyOf records) := by
      apply List.map_congr_left
      intro i hi
      exact latencyOf_append records call (List.mem_range.mp (List.mem_of_mem_filter hi))
    rw [List.filter_append, List.map_append, ← ih, marked, List.length_append,
      List.length_singleton, List.range_succ, List.filter_append, hold, List.map_append, hmap]
    congr 1
    by_cases hmark : least ≤ call.point.rank
    · simp [rankOf_eq hlast, latencyOf_eq hlast, hmark]
    · simp [rankOf_eq hlast, hmark]

theorem length_marked (least : ℕ) (records : List RecordCall) :
    (marked least records).length = records.countP fun call => least ≤ call.point.rank := by
  have hlen := congrArg List.length (map_latencyOf_marked least records)
  rw [List.length_map, List.length_map] at hlen
  rw [hlen, List.countP_eq_length_filter]

end Windows

section Lists

variable {α : Type*} {l : List α} {i : ℕ} {old : α}

theorem exists_split (h : l[i]? = some old) :
    ∃ front back, l = front ++ old :: back ∧ ∀ new, l.set i new = front ++ new :: back := by
  obtain ⟨hlt, rfl⟩ := List.getElem?_eq_some_iff.mp h
  refine ⟨l.take i, l.drop (i + 1), ?_, fun new => List.set_eq_take_append_cons_drop.trans ?_⟩
  · rw [List.getElem_cons_drop, List.take_append_drop]
  · rw [if_pos hlt]

theorem kept_perm {f : α → List ℕ} (h : l[i]? = some old) {new : α} (hnew : f new = f old)
    (window : List ℕ) :
    ((l.set i new).map f ++ [window]).flatten.Perm (l.map f ++ [window]).flatten := by
  obtain ⟨front, back, rfl, hset⟩ := exists_split h
  rw [hset, List.map_append, List.map_append, List.map_cons, List.map_cons, hnew]

/-- Taking the window of a counter only moves its calls. -/
theorem exchange_perm {f : α → List ℕ} (h : l[i]? = some old) (hempty : f old = []) (new : α) :
    ((l.set i new).map f ++ [[]]).flatten.Perm (l.map f ++ [f new]).flatten := by
  obtain ⟨front, back, rfl, hset⟩ := exists_split h
  rw [hset]
  simp only [List.map_append, List.map_cons, List.flatten_append, List.flatten_cons,
    List.flatten_nil, List.append_nil, hempty, List.nil_append, List.append_assoc]
  exact List.perm_append_comm.append_left _

theorem countP_set (p : α → Bool) (h : l[i]? = some old) (new : α) :
    (l.set i new).countP p + (if p old then 1 else 0) =
      l.countP p + if p new then 1 else 0 := by
  obtain ⟨front, back, rfl, hset⟩ := exists_split h
  rw [hset]
  simp only [List.countP_append, List.countP_cons]
  omega

end Lists

/-- How many exchanges a snapshot has made. -/
def exchanges : SnapshotPoint → ℕ
  | .exchangeStart => 0
  | .exchangeCount => 1
  | .exchangeSum => 2
  | .exchangeMax => 3
  | .returned => 4

/-- What a snapshot has not yet taken is empty. -/
structure Untaken (call : SnapshotCall) : Prop where
  count_nil : exchanges call.point ≤ 1 → call.count.calls = []
  sum_nil : exchanges call.point ≤ 2 → call.latencySum.calls = []
  max_nil : exchanges call.point ≤ 3 → call.maxTicks.calls = []

/-- An exchange takes one window and leaves those that come after it. -/
theorem Untaken.advance {call new : SnapshotCall} (h : Untaken call)
    (hpoint : exchanges call.point ≤ exchanges new.point)
    (hcount : exchanges new.point ≤ 1 → new.count = call.count)
    (hsum : exchanges new.point ≤ 2 → new.latencySum = call.latencySum)
    (hmax : exchanges new.point ≤ 3 → new.maxTicks = call.maxTicks) : Untaken new where
  count_nil := by
    intro hle
    rw [hcount hle]
    exact h.count_nil (hpoint.trans hle)
  sum_nil := by
    intro hle
    rw [hsum hle]
    exact h.sum_nil (hpoint.trans hle)
  max_nil := by
    intro hle
    rw [hmax hle]
    exact h.max_nil (hpoint.trans hle)

def countWindows (s : State) : List (List ℕ) :=
  s.snapshots.map (fun call => call.count.calls) ++ [s.windowPacketCount.calls]

def sumWindows (s : State) : List (List ℕ) :=
  s.snapshots.map (fun call => call.latencySum.calls) ++ [s.latencySumTicks.calls]

def maxWindows (s : State) : List (List ℕ) :=
  s.snapshots.map (fun call => call.maxTicks.calls) ++ [s.maxLatencyTicks.calls]

/-- The total counts the calls that have started counting, and each counter has every
call in one window from the step on that puts it there. -/
structure Totals (s : State) : Prop where
  total_eq : s.packetCount = s.records.countP fun call => 0 < call.point.rank
  counted : CountedOnce (countWindows s) 2 s.records
  summed : CountedOnce (sumWindows s) 3 s.records
  maxed : CountedOnce (maxWindows s) 4 s.records
  untaken : ∀ call ∈ s.snapshots, Untaken call

theorem totals_start (windowStart : ℤ) : Totals (start windowStart) := by
  have hnone : ∀ least, 0 < least → CountedOnce [[]] least [] := by
    intro least hleast i
    have hrank : ¬ least ≤ rankOf [] i := by
      simp only [rankOf, List.getElem?_nil, Option.map_none, Option.getD_none]
      omega
    rw [if_neg hrank]
    rfl
  exact ⟨rfl, hnone 2 (by decide), hnone 3 (by decide), hnone 4 (by decide),
    fun call hcall => absurd hcall List.not_mem_nil⟩

section Steps

variable {s : State} {k j : ℕ}

theorem total_moveRecord (h : Totals s) {call : RecordCall} (hcall : s.records[k]? = some call)
    {before after : RecordPoint} (hpoint : call.point = before)
    (hmark : 0 < after.rank ↔ 0 < before.rank) : s.packetCount =
      (s.moveRecord k call after).records.countP fun call => 0 < call.point.rank := by
  have hcount := countP_set (fun call : RecordCall => decide (0 < call.point.rank)) hcall
    { call with point := after }
  simp only [hpoint, hmark] at hcount
  rw [h.total_eq]
  exact (Nat.add_right_cancel hcount).symm

/-- A step into none of the windows. -/
theorem totals_moveRecord (h : Totals s) {call : RecordCall}
    (hcall : s.records[k]? = some call) {before after : RecordPoint}
    (hpoint : call.point = before) (hrank : after.rank = before.rank) :
    Totals (s.moveRecord k call after) := by
  have hmark : ∀ least, least ≤ after.rank ↔ least ≤ before.rank := by
    intro least
    rw [hrank]
  exact ⟨total_moveRecord h hcall hpoint (hmark 1), h.counted.move hcall hpoint (hmark 2),
    h.summed.move hcall hpoint (hmark 3), h.maxed.move hcall hpoint (hmark 4), h.untaken⟩

/-- The step that ends the loop for the maximum, with or without an exchange. -/
theorem totals_returned (h : Totals s) {call : RecordCall} (hcall : s.records[k]? = some call)
    {before : RecordPoint} (hpoint : call.point = before) (hrank : before.rank = 3)
    (value : Int64) :
    Totals { s.moveRecord k call .returned with
      maxLatencyTicks := ⟨value, s.maxLatencyTicks.calls ++ [k]⟩ } := by
  have hmark : ∀ least, least ≤ 3 →
      (least ≤ RecordPoint.returned.rank ↔ least ≤ before.rank) := by
    intro least hle
    rw [hrank, RecordPoint.rank]
    omega
  refine ⟨total_moveRecord h hcall hpoint (hmark 1 (by decide)),
    h.counted.move hcall hpoint (hmark 2 (by decide)),
    h.summed.move hcall hpoint (hmark 3 (by decide)), ?_, h.untaken⟩
  apply h.maxed.record hcall hpoint
  · omega
  · decide

theorem untaken_set (h : Totals s) {new : SnapshotCall} (hnew : Untaken new) :
    ∀ call ∈ s.snapshots.set j new, Untaken call := by
  intro call hcall
  rcases List.mem_or_eq_of_mem_set hcall with hold | rfl
  · exact h.untaken call hold
  · exact hnew

end Steps

theorem totals_step {windowStart : ℤ} (s : State) (e : Event) (t : State)
    (hstep : (machine windowStart).step s e = some t) (h : Totals s) : Totals t := by
  cases moves_of_step hstep with
  | startRecord latencyTicks =>
    have hrank : ∀ least i, least ≤ rankOf (s.records ++ [⟨latencyTicks, .incrementTotal⟩]) i ↔
        least ≤ rankOf s.records i := by
      intro least i
      rw [rankOf_append_start]
    refine ⟨?_, h.counted.frame (hrank 2), h.summed.frame (hrank 3), h.maxed.frame (hrank 4),
      h.untaken⟩
    rw [h.total_eq, List.countP_append]
    rfl
  | incrementTotal k call hcall hpoint =>
    have hcount := countP_set (fun call : RecordCall => decide (0 < call.point.rank)) hcall
      { call with point := .incrementWindow }
    refine ⟨?_, h.counted.move hcall hpoint (by decide), h.summed.move hcall hpoint (by decide),
      h.maxed.move hcall hpoint (by decide), h.untaken⟩
    simp only [hpoint, RecordPoint.rank, Nat.lt_irrefl, Nat.zero_lt_one, decide_true,
      decide_false, Bool.false_eq_true, ite_true, ite_false, Nat.add_zero] at hcount
    rw [h.total_eq]
    exact hcount.symm
  | incrementWindow k call hcall hpoint =>
    exact ⟨total_moveRecord h hcall hpoint (by decide),
      h.counted.record hcall hpoint (by decide) (by decide),
      h.summed.move hcall hpoint (by decide), h.maxed.move hcall hpoint (by decide), h.untaken⟩
  | addLatency k call hcall hpoint =>
    exact ⟨total_moveRecord h hcall hpoint (by decide), h.counted.move hcall hpoint (by decide),
      h.summed.record hcall hpoint (by decide) (by decide),
      h.maxed.move hcall hpoint (by decide), h.untaken⟩
  | readHigher k call hcall hpoint => exact totals_moveRecord h hcall hpoint rfl
  | readEnough k call hcall hpoint => exact totals_returned h hcall hpoint rfl _
  | exchanged k call hcall hpoint => exact totals_returned h hcall hpoint rfl _
  | retried k call hcall current hpoint => exact totals_moveRecord h hcall hpoint rfl
  | startSnapshot now =>
    have hperm : ∀ (f : SnapshotCall → List ℕ) (new : SnapshotCall) (window : List ℕ),
        f new = [] → ((s.snapshots ++ [new]).map f ++ [window]).flatten.Perm
          (s.snapshots.map f ++ [window]).flatten := by
      intro f new window hnew
      simp [hnew]
    refine ⟨h.total_eq, h.counted.perm (hperm _ _ _ rfl), h.summed.perm (hperm _ _ _ rfl),
      h.maxed.perm (hperm _ _ _ rfl), ?_⟩
    intro call hcall
    rcases List.mem_append.mp hcall with hold | hnew
    · exact h.untaken call hold
    · rw [List.mem_singleton.mp hnew]
      exact ⟨fun _ => rfl, fun _ => rfl, fun _ => rfl⟩
  | exchangeStart j call hcall hpoint =>
    have hold := h.untaken call (List.mem_of_getElem? hcall)
    refine ⟨h.total_eq, h.counted.perm (kept_perm hcall (by rfl) _),
      h.summed.perm (kept_perm hcall (by rfl) _), h.maxed.perm (kept_perm hcall (by rfl) _),
      untaken_set h (hold.advance ?_ (fun _ => rfl) (fun _ => rfl) (fun _ => rfl))⟩
    simp [hpoint, exchanges]
  | exchangeCount j call hcall hpoint =>
    have hold := h.untaken call (List.mem_of_getElem? hcall)
    have hcount := hold.count_nil (by simp [hpoint, exchanges])
    refine ⟨h.total_eq, h.counted.perm (exchange_perm hcall hcount _),
      h.summed.perm (kept_perm hcall (by rfl) _), h.maxed.perm (kept_perm hcall (by rfl) _),
      untaken_set h (hold.advance ?_ ?_ (fun _ => rfl) (fun _ => rfl))⟩
    · simp [hpoint, exchanges]
    · simp [exchanges]
  | exchangeSum j call hcall hpoint =>
    have hold := h.untaken call (List.mem_of_getElem? hcall)
    have hsum := hold.sum_nil (by simp [hpoint, exchanges])
    refine ⟨h.total_eq, h.counted.perm (kept_perm hcall (by rfl) _),
      h.summed.perm (exchange_perm hcall hsum _), h.maxed.perm (kept_perm hcall (by rfl) _),
      untaken_set h (hold.advance ?_ ?_ ?_ (fun _ => rfl))⟩
    · simp [hpoint, exchanges]
    · simp [exchanges]
    · simp [exchanges]
  | exchangeMax j call hcall hpoint =>
    have hold := h.untaken call (List.mem_of_getElem? hcall)
    have hmax := hold.max_nil (by simp [hpoint, exchanges])
    refine ⟨h.total_eq, h.counted.perm (kept_perm hcall (by rfl) _),
      h.summed.perm (kept_perm hcall (by rfl) _), h.maxed.perm (exchange_perm hcall hmax _),
      untaken_set h (hold.advance ?_ ?_ ?_ ?_)⟩
    · simp [hpoint, exchanges]
    · simp [exchanges]
    · simp [exchanges]
    · simp [exchanges]

theorem totals_run {windowStart : ℤ} {es : List Event} {s : State}
    (hs : (machine windowStart).run es = some s) : Totals s :=
  (machine windowStart).run_invariant Totals (totals_start windowStart) totals_step hs

section Values

variable {s : State}

/-- The sizes that the windows report add up to the number of calls in them. -/
theorem sum_count_values (tallies : List (Tally ℕ))
    (h : ∀ tally ∈ tallies, tally.value = tally.calls.length) :
    (tallies.map Tally.value).sum = (tallies.map Tally.calls).flatten.length := by
  induction tallies with
  | nil => rfl
  | cons tally rest ih =>
    have hrest := ih fun t ht => h t (List.mem_cons_of_mem _ ht)
    rw [List.map_cons, List.sum_cons, List.map_cons, List.flatten_cons, List.length_append,
      hrest, h tally (List.mem_cons_self ..)]

theorem sumTicks_append_append (records : List RecordCall) (calls calls' : List ℕ) :
    sumTicks records (calls ++ calls') = sumTicks records calls + sumTicks records calls' := by
  simp [sumTicks]

theorem sum_tick_values (records : List RecordCall) (tallies : List (Tally Int64))
    (h : ∀ tally ∈ tallies, tally.value = sumTicks records tally.calls) :
    (tallies.map Tally.value).sum = sumTicks records (tallies.map Tally.calls).flatten := by
  induction tallies with
  | nil => rfl
  | cons tally rest ih =>
    have hrest := ih fun t ht => h t (List.mem_cons_of_mem _ ht)
    rw [List.map_cons, List.sum_cons, List.map_cons, List.flatten_cons, sumTicks_append_append,
      hrest, h tally (List.mem_cons_self ..)]

/-- All the counts taken so far and the current one. -/
def totalCount (s : State) : ℕ :=
  (s.snapshots.map fun call => call.count.value).sum + s.windowPacketCount.value

/-- All the sums taken so far and the current one, modulo 2 ^ 64. -/
def totalTicks (s : State) : Int64 :=
  (s.snapshots.map fun call => call.latencySum.value).sum + s.latencySumTicks.value

theorem totalCount_eq (h : Inv s) (htotals : Totals s) :
    totalCount s = s.records.countP fun call => 2 ≤ call.point.rank := by
  have hvalues := sum_count_values
    (s.snapshots.map SnapshotCall.count ++ [s.windowPacketCount]) ?_
  · rw [← length_marked, ← (htotals.counted.perm_marked (by decide)).length_eq]
    simpa [totalCount, countWindows, Function.comp_def] using hvalues
  · intro tally htally
    rcases List.mem_append.mp htally with htaken | hcurrent
    · obtain ⟨call, hcall, rfl⟩ := List.mem_map.mp htaken
      obtain ⟨j, hj⟩ := List.mem_iff_getElem?.mp hcall
      exact (h.taken j call hj).count_holds.value_eq
    · rw [List.mem_singleton.mp hcurrent]
      exact h.window.count_holds.value_eq

theorem totalTicks_eq (h : Inv s) (htotals : Totals s) :
    totalTicks s =
      ((s.records.filter fun call => 3 ≤ call.point.rank).map RecordCall.latencyTicks).sum := by
  have hvalues := sum_tick_values s.records
    (s.snapshots.map SnapshotCall.latencySum ++ [s.latencySumTicks]) ?_
  · have hperm : sumTicks s.records (sumWindows s).flatten =
        sumTicks s.records (marked 3 s.records) :=
      sumTicks_perm (htotals.summed.perm_marked (by decide))
    rw [sumTicks, sumTicks, map_latencyOf_marked, ← sumTicks] at hperm
    rw [← hperm]
    simpa [totalTicks, sumWindows, Function.comp_def] using hvalues
  · intro tally htally
    rcases List.mem_append.mp htally with htaken | hcurrent
    · obtain ⟨call, hcall, rfl⟩ := List.mem_map.mp htaken
      obtain ⟨j, hj⟩ := List.mem_iff_getElem?.mp hcall
      exact (h.taken j call hj).sum_holds.value_eq
    · rw [List.mem_singleton.mp hcurrent]
      exact h.window.sum_holds.value_eq

/-- The calls between their two increments are those that have made only the first. -/
theorem packetCount_eq (htotals : Totals s) : s.packetCount =
    (s.records.countP fun call => 2 ≤ call.point.rank) +
      s.records.countP fun call => call.point = .incrementWindow := by
  rw [htotals.total_eq]
  induction s.records with
  | nil => rfl
  | cons call rest ih =>
    rw [List.countP_cons, List.countP_cons, List.countP_cons, ih]
    cases call.point <;> simp [RecordPoint.rank] <;> omega

theorem rank_of_returned {records : List RecordCall}
    (h : ∀ call ∈ records, call.point = .returned) {i : ℕ} (hi : i < records.length) :
    rankOf records i = 4 := by
  have hcall := List.getElem?_eq_getElem hi
  rw [rankOf_eq hcall, h _ (List.getElem_mem hi)]
  rfl

/-- No count is above the number of calls, so none leaves the range of a counter before
that number does. -/
theorem counts_le (h : Inv s) (htotals : Totals s) :
    s.packetCount ≤ s.records.length ∧ s.windowPacketCount.value ≤ s.records.length ∧
      ∀ call ∈ s.snapshots, call.count.value ≤ s.records.length := by
  have htotal : totalCount s ≤ s.records.length := by
    rw [totalCount_eq h htotals]
    exact List.countP_le_length
  refine ⟨?_, (Nat.le_add_left _ _).trans htotal, fun call hcall => ?_⟩
  · rw [htotals.total_eq]
    exact List.countP_le_length
  · obtain ⟨front, back, hsplit⟩ := List.append_of_mem hcall
    have hsum : call.count.value ≤ (s.snapshots.map fun call => call.count.value).sum := by
      rw [hsplit, List.map_append, List.sum_append, List.map_cons, List.sum_cons]
      omega
    exact hsum.trans ((Nat.le_add_right _ _).trans htotal)

end Values

/-- The total counts the calls past their first increment. The counts of all windows make
it up but for the calls between their two increments, and the sums of all windows the
latencies of the calls past their add. When every call has returned, each is in one window
of both counters. -/
theorem metrics_conserved (windowStart : ℤ) (es : List Event) (s : State)
    (hs : (machine windowStart).run es = some s) :
    (totalCount s + (s.records.countP fun call => call.point = .incrementWindow) =
      s.packetCount) ∧
    s.packetCount = (s.records.countP fun call => 0 < call.point.rank) ∧
    totalTicks s =
      ((s.records.filter fun call => 3 ≤ call.point.rank).map RecordCall.latencyTicks).sum ∧
    ((∀ call ∈ s.records, call.point = .returned) →
      totalCount s = s.records.length ∧
      totalTicks s = (s.records.map RecordCall.latencyTicks).sum ∧
      ∀ i < s.records.length, (countWindows s).flatten.count i = 1 ∧
        (sumWindows s).flatten.count i = 1) := by
  have hinv : Inv s := inv_run hs
  have htotals : Totals s := totals_run hs
  have hcount := totalCount_eq hinv htotals
  have hticks := totalTicks_eq hinv htotals
  refine ⟨?_, htotals.total_eq, hticks, ?_⟩
  · rw [hcount, packetCount_eq htotals]
  · intro hreturned
    have hfilter : (s.records.filter fun call => 3 ≤ call.point.rank) = s.records := by
      rw [List.filter_eq_self]
      intro call hcall
      rw [hreturned call hcall]
      rfl
    have hall : (s.records.countP fun call => 2 ≤ call.point.rank) = s.records.length := by
      rw [List.countP_eq_length]
      intro call hcall
      rw [hreturned call hcall]
      rfl
    refine ⟨hcount.trans hall, ?_, ?_⟩
    · rw [hticks, hfilter]
    · intro i hi
      rw [htotals.counted i, htotals.summed i, rank_of_returned hreturned hi]
      exact ⟨rfl, rfl⟩

/-- A snapshot falls between the second increment of the first call and its add, the second
call is recorded after it, and another snapshot between the two increments of the third. -/
def tornCallsRun : List Event :=
  [.startRecord 5, .record 0, .record 0, .startSnapshot 10, .snapshot 0, .snapshot 0,
    .snapshot 0, .snapshot 0, .record 0, .record 0, .record 0, .startRecord 3, .record 1,
    .record 1, .record 1, .record 1, .startRecord 9, .record 2, .startSnapshot 20, .snapshot 1,
    .snapshot 1, .snapshot 1, .snapshot 1, .record 2, .record 2, .record 2, .record 2]

theorem tornCallsRun_records : ((machine 0).run tornCallsRun).map State.records =
    some [⟨5, .returned⟩, ⟨3, .returned⟩, ⟨9, .returned⟩] := by
  decide +kernel

theorem metrics_conserved_torn : ∃ s, (machine 0).run tornCallsRun = some s ∧
    s.packetCount = 3 ∧ totalCount s = 3 ∧ totalTicks s = 17 ∧
    ∀ i < 3, (countWindows s).flatten.count i = 1 ∧ (sumWindows s).flatten.count i = 1 := by
  obtain ⟨s, hs, hrecords⟩ := Option.map_eq_some_iff.mp tornCallsRun_records
  obtain ⟨-, htotal, -, hall⟩ := metrics_conserved 0 tornCallsRun s hs
  rw [hrecords] at htotal hall
  obtain ⟨hcount, hticks, hwindows⟩ := hall (by decide)
  exact ⟨s, hs, htotal, hcount, hticks, hwindows⟩

section Peaks

variable {s : State}

/-- The maxima that snapshots have taken. -/
def takenMaxTicks (s : State) : List Int64 :=
  (s.snapshots.filter fun call => call.point = .returned).map fun call => call.maxTicks.value

theorem foldl_max_mem (ticks : List Int64) (init : Int64) :
    ticks.foldl max init = init ∨ ticks.foldl max init ∈ ticks := by
  induction ticks generalizing init with
  | nil => exact Or.inl rfl
  | cons x ticks ih =>
    rw [List.foldl_cons]
    rcases ih (max init x) with heq | hmem
    · rw [heq, max_eq]
      split
      · exact Or.inr (List.mem_cons_self ..)
      · exact Or.inl rfl
    · exact Or.inr (List.mem_cons_of_mem _ hmem)

/-- A window's maximum is not below the latency of a call in it, and is zero or one of them. -/
theorem max_window {records : List RecordCall} {tally : Tally Int64}
    (h : tally.Holds (maxOfTicks records) 4 records) :
    (∀ i ∈ tally.calls, (latencyOf records i).toInt ≤ tally.value.toInt) ∧
      (tally.value = 0 ∨ ∃ call ∈ records, tally.value = call.latencyTicks) := by
  rw [h.value_eq, maxOfTicks]
  constructor
  · intro i hi
    exact (toInt_le_foldl_max _ 0).2 _ (List.mem_map_of_mem hi)
  · rcases foldl_max_mem (tally.calls.map (latencyOf records)) 0 with hzero | hmem
    · exact Or.inl hzero
    · obtain ⟨i, hi, heq⟩ := List.mem_map.mp hmem
      have hlt : i < records.length := lt_length_of_rank (Nat.lt_of_lt_of_le (by decide)
        (h.rank_le i hi))
      have hcall := List.getElem?_eq_getElem hlt
      refine Or.inr ⟨records[i], List.getElem_mem hlt, ?_⟩
      rw [← heq, latencyOf_eq hcall]

/-- The window that a returned call's latency went into. -/
theorem exists_max_window (h : Inv s) (htotals : Totals s) {i : ℕ} {call : RecordCall}
    (hcall : s.records[i]? = some call) (hreturned : call.point = .returned) :
    ∃ peak ∈ s.maxLatencyTicks.value :: takenMaxTicks s,
      call.latencyTicks.toInt ≤ peak.toInt := by
  have hcount : (maxWindows s).flatten.count i = 1 := by
    rw [htotals.maxed i, rankOf_eq hcall, hreturned]
    rfl
  have hmem : i ∈ (maxWindows s).flatten := by
    rw [← List.count_pos_iff, hcount]
    decide
  obtain ⟨calls, hcalls, hi⟩ := List.mem_flatten.mp hmem
  rw [← latencyOf_eq hcall]
  rcases List.mem_append.mp hcalls with htaken | hcurrent
  · obtain ⟨snapshot, hsnapshot, rfl⟩ := List.mem_map.mp htaken
    obtain ⟨j, hj⟩ := List.mem_iff_getElem?.mp hsnapshot
    have hpoint : snapshot.point = .returned := by
      by_contra hne
      have hnil := (htotals.untaken snapshot hsnapshot).max_nil ?_
      · rw [hnil] at hi
        cases hi
      · cases hp : snapshot.point <;> simp_all [exchanges]
    refine ⟨snapshot.maxTicks.value, ?_, (max_window (h.taken j snapshot hj).max_holds).1 i hi⟩
    apply List.mem_cons_of_mem
    exact List.mem_map_of_mem (List.mem_filter.mpr ⟨hsnapshot, decide_eq_true hpoint⟩)
  · rw [List.mem_singleton.mp hcurrent] at hi
    exact ⟨s.maxLatencyTicks.value, List.mem_cons_self .., (max_window h.window.max_holds).1 i hi⟩

end Peaks

/-- The latency of a call that has returned is not above the largest of all maxima, taken
or current, and each of these is zero or the latency of a call that has started. -/
theorem no_peak_lost (windowStart : ℤ) (es : List Event) (s : State)
    (hs : (machine windowStart).run es = some s) :
    (∀ call ∈ s.records, call.point = .returned →
      call.latencyTicks ≤ (takenMaxTicks s).foldl max s.maxLatencyTicks.value) ∧
    ∀ peak ∈ s.maxLatencyTicks.value :: takenMaxTicks s,
      peak = 0 ∨ ∃ call ∈ s.records, peak = call.latencyTicks := by
  have hinv : Inv s := inv_run hs
  constructor
  · intro call hcall hreturned
    obtain ⟨i, hi⟩ := List.mem_iff_getElem?.mp hcall
    obtain ⟨peak, hpeak, hle⟩ := exists_max_window hinv (totals_run hs) hi hreturned
    obtain ⟨hcurrent, htaken⟩ := toInt_le_foldl_max (takenMaxTicks s) s.maxLatencyTicks.value
    rw [Int64.le_iff_toInt_le]
    rcases List.mem_cons.mp hpeak with rfl | hmem
    · exact Int.le_trans hle hcurrent
    · exact Int.le_trans hle (htaken peak hmem)
  · intro peak hpeak
    rcases List.mem_cons.mp hpeak with rfl | hmem
    · exact (max_window hinv.window.max_holds).2
    · obtain ⟨snapshot, hsnapshot, rfl⟩ := List.mem_map.mp hmem
      obtain ⟨j, hj⟩ := List.mem_iff_getElem?.mp (List.mem_of_mem_filter hsnapshot)
      exact (max_window (hinv.taken j snapshot hj).max_holds).2

/-- Two calls read the maximum zero; a snapshot empties the window between the exchange
of the larger and the retry of the smaller, whose exchange finds zero again. -/
def returningRun : List Event :=
  [.startRecord 5, .startRecord 9, .record 0, .record 0, .record 0, .record 0, .record 1,
    .record 1, .record 1, .record 1, .record 1, .startSnapshot 10, .snapshot 0, .snapshot 0,
    .snapshot 0, .snapshot 0, .record 0]

theorem returningRun_maxima : ((machine 0).run returningRun).map (fun s =>
    (s.records, s.maxLatencyTicks.value, takenMaxTicks s)) =
      some ([⟨5, .returned⟩, ⟨9, .returned⟩], 5, [9]) := by
  decide +kernel

theorem no_peak_lost_returning : ∃ s, (machine 0).run returningRun = some s ∧
    s.maxLatencyTicks.value = 5 ∧ takenMaxTicks s = [9] ∧
    ∀ call ∈ s.records, call.point = .returned →
      call.latencyTicks ≤ (takenMaxTicks s).foldl max s.maxLatencyTicks.value := by
  obtain ⟨s, hs, hmaxima⟩ := Option.map_eq_some_iff.mp returningRun_maxima
  rw [Prod.mk.injEq, Prod.mk.injEq] at hmaxima
  exact ⟨s, hs, hmaxima.2.1, hmaxima.2.2, (no_peak_lost 0 returningRun s hs).1⟩

end AetherLens.SnapshotTotals
