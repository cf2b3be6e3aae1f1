import AetherLens.SnapshotTotals
import Mathlib.Data.List.Sort

/-!
The metrics with one caller that records and one that takes snapshots. A call starts
when the one before it has returned. So the windows of each counter, in the order of
the snapshots, cut the recorded latencies into consecutive pieces, and each window of
time begins when the one before it ends.
-/
namespace AetherLens.SnapshotOrder

open MetricsSnapshot Runs SnapshotSets SnapshotTotals

/-- The call that steps is the newest one, and a call starts when all have returned. -/
def OneCaller (s : State) : Event → Prop
  | .startRecord _ => ∀ call ∈ s.records, call.point = .returned
  | .record i => i + 1 = s.records.length
  | .startSnapshot _ => ∀ call ∈ s.snapshots, call.point = .returned
  | .snapshot j => j + 1 = s.snapshots.length

section Lists

variable {α : Type*} {l front : List α} {i : ℕ} {old new : α}

theorem split_last (h : l[i]? = some old) (hlast : i + 1 = l.length) :
    ∃ front, l = front ++ [old] ∧ i = front.length := by
  rcases List.eq_nil_or_concat l with rfl | ⟨front, last, rfl⟩
  · simp at hlast
  · rw [List.concat_eq_append, List.length_append, List.length_singleton] at hlast
    have hi : i = front.length := by omega
    subst hi
    rw [List.concat_eq_append, List.getElem?_concat_length] at h
    cases h
    exact ⟨front, List.concat_eq_append, rfl⟩

theorem set_last : (front ++ [old]).set front.length new = front ++ [new] := by
  simp

theorem dropLast_set {P : α → Prop} (h : ∀ x ∈ l.dropLast, P x) (hold : l[i]? = some old)
    (hlast : i + 1 = l.length) (new : α) : ∀ x ∈ (l.set i new).dropLast, P x := by
  obtain ⟨front, rfl, rfl⟩ := split_last hold hlast
  rw [List.dropLast_concat] at h
  rwa [set_last, List.dropLast_concat]

theorem map_set_last {β : Type*} {f : α → β} (hold : l[i]? = some old)
    (hlast : i + 1 = l.length) (hnew : f new = f old) : (l.set i new).map f = l.map f := by
  obtain ⟨front, rfl, rfl⟩ := split_last hold hlast
  rw [set_last, List.map_append, List.map_append, List.map_singleton, List.map_singleton, hnew]

/-- The newest snapshot takes a window and leaves an empty one. -/
theorem exchange_last {f : α → List ℕ} (hold : l[i]? = some old) (hlast : i + 1 = l.length)
    (hempty : f old = []) :
    ((l.set i new).map f ++ [[]]).flatten = (l.map f ++ [f new]).flatten := by
  obtain ⟨front, rfl, rfl⟩ := split_last hold hlast
  rw [set_last]
  simp [hempty]

end Lists

section Windows

variable {taken : List (List ℕ)} {calls : List ℕ} {least i : ℕ} {records : List RecordCall}
  {call : RecordCall}

/-- The newest call goes behind all the calls that are in a window. -/
theorem pairwise_record (h : (taken ++ [calls]).flatten.Pairwise (· < ·))
    (hcounted : CountedOnce (taken ++ [calls]) least records)
    (hcall : records[i]? = some call) (hrank : call.point.rank < least)
    (hlast : i + 1 = records.length) : (taken ++ [calls ++ [i]]).flatten.Pairwise (· < ·) := by
  have hsnoc : (taken ++ [calls ++ [i]]).flatten = (taken ++ [calls]).flatten ++ [i] := by simp
  rw [hsnoc, List.pairwise_append]
  refine ⟨h, List.pairwise_singleton _ _, ?_⟩
  intro k hk i' hi'
  rw [List.mem_singleton.mp hi']
  have hmarked : least ≤ rankOf records k := by
    have hcount := List.count_pos_iff.mpr hk
    rw [hcounted k] at hcount
    split at hcount
    next hle => exact hle
    next => omega
  have hlt : k < records.length := lt_length_of_rank (by omega)
  have hne : k ≠ i := by
    rintro rfl
    rw [rankOf_eq hcall] at hmarked
    omega
  omega

end Windows

/-- The snapshots that have begun their window of time. -/
def entered (s : State) : List SnapshotCall :=
  s.snapshots.filter fun call => call.point ≠ .exchangeStart

/-- All calls but the newest have returned, the windows are in ascending order, and each
window of time begins where the one before it ends. -/
structure Ordered (windowStart : ℤ) (s : State) : Prop where
  records : ∀ call ∈ s.records.dropLast, call.point = .returned
  snapshots : ∀ call ∈ s.snapshots.dropLast, call.point = .returned
  counted : (countWindows s).flatten.Pairwise (· < ·)
  summed : (sumWindows s).flatten.Pairwise (· < ·)
  maxed : (maxWindows s).flatten.Pairwise (· < ·)
  times : (entered s).map SnapshotCall.windowStart ++ [s.windowStart] =
    windowStart :: (entered s).map SnapshotCall.now

theorem ordered_start (windowStart : ℤ) : Ordered windowStart (start windowStart) where
  records := nofun
  snapshots := nofun
  counted := List.Pairwise.nil
  summed := List.Pairwise.nil
  maxed := List.Pairwise.nil
  times := rfl

section Steps

variable {windowStart : ℤ} {s : State} {j : ℕ} {old new : SnapshotCall}

theorem entered_append (call : SnapshotCall) (h : call.point = .exchangeStart) :
    (s.snapshots ++ [call]).filter (fun call => call.point ≠ .exchangeStart) = entered s := by
  simp [entered, h]

/-- A later step of the newest snapshot leaves its window of time. -/
theorem times_set (h : Ordered windowStart s) (hold : s.snapshots[j]? = some old)
    (hlast : j + 1 = s.snapshots.length) (hbefore : old.point ≠ .exchangeStart)
    (hafter : new.point ≠ .exchangeStart) (hstart : new.windowStart = old.windowStart)
    (hnow : new.now = old.now) :
    (entered (s.setSnapshot j new)).map SnapshotCall.windowStart ++ [s.windowStart] =
      windowStart :: (entered (s.setSnapshot j new)).map SnapshotCall.now := by
  have htimes := h.times
  obtain ⟨front, hsnapshots, rfl⟩ := split_last hold hlast
  have hset : (s.setSnapshot front.length new).snapshots = front ++ [new] := by
    rw [State.setSnapshot, hsnapshots, set_last]
  rw [entered, hsnapshots] at htimes
  rw [entered, hset]
  simpa [hbefore, hafter, hstart, hnow] using htimes

/-- The newest snapshot begins its window of time where the one before ended. -/
theorem times_exchangeStart (h : Ordered windowStart s) (hold : s.snapshots[j]? = some old)
    (hlast : j + 1 = s.snapshots.length) (hbefore : old.point = .exchangeStart)
    (hafter : new.point ≠ .exchangeStart) (hstart : new.windowStart = s.windowStart)
    (hnow : new.now = old.now) :
    (entered (s.setSnapshot j new)).map SnapshotCall.windowStart ++ [old.now] =
      windowStart :: (entered (s.setSnapshot j new)).map SnapshotCall.now := by
  have htimes := h.times
  obtain ⟨front, hsnapshots, rfl⟩ := split_last hold hlast
  have hset : (s.setSnapshot front.length new).snapshots = front ++ [new] := by
    rw [State.setSnapshot, hsnapshots, set_last]
  have hfront : (front ++ [old]).filter (fun call => call.point ≠ .exchangeStart) =
      front.filter fun call => call.point ≠ .exchangeStart := by simp [hbefore]
  have hbegun : (front ++ [new]).filter (fun call => call.point ≠ .exchangeStart) =
      front.filter (fun call => call.point ≠ .exchangeStart) ++ [new] := by simp [hafter]
  rw [entered, hsnapshots, hfront] at htimes
  rw [entered, hset, hbegun, List.map_append, List.map_append, List.map_singleton,
    List.map_singleton, hstart, hnow, htimes, List.cons_append]

end Steps

theorem ordered_step {windowStart : ℤ} {s t : State} {e : Event}
    (hstep : (machine windowStart).step s e = some t) (hone : OneCaller s e)
    (htotals : Totals s) (h : Ordered windowStart s) : Ordered windowStart t := by
  cases moves_of_step hstep with
  | startRecord latencyTicks =>
    refine ⟨?_, h.snapshots, h.counted, h.summed, h.maxed, h.times⟩
    rw [List.dropLast_concat]
    exact hone
  | incrementTotal i call hcall hpoint =>
    exact ⟨dropLast_set h.records hcall hone _, h.snapshots, h.counted, h.summed, h.maxed,
      h.times⟩
  | incrementWindow i call hcall hpoint =>
    refine ⟨dropLast_set h.records hcall hone _, h.snapshots, ?_, h.summed, h.maxed, h.times⟩
    exact pairwise_record h.counted htotals.counted hcall (by simp [hpoint, RecordPoint.rank]) hone
  | addLatency i call hcall hpoint =>
    refine ⟨dropLast_set h.records hcall hone _, h.snapshots, h.counted, ?_, h.maxed, h.times⟩
    exact pairwise_record h.summed htotals.summed hcall (by simp [hpoint, RecordPoint.rank]) hone
  | readHigher i call hcall hpoint =>
    exact ⟨dropLast_set h.records hcall hone _, h.snapshots, h.counted, h.summed, h.maxed,
      h.times⟩
  | readEnough i call hcall hpoint =>
    refine ⟨dropLast_set h.records hcall hone _, h.snapshots, h.counted, h.summed, ?_, h.times⟩
    exact pairwise_record h.maxed htotals.maxed hcall (by simp [hpoint, RecordPoint.rank]) hone
  | exchanged i call hcall hpoint =>
    refine ⟨dropLast_set h.records hcall hone _, h.snapshots, h.counted, h.summed, ?_, h.times⟩
    exact pairwise_record h.maxed htotals.maxed hcall (by simp [hpoint, RecordPoint.rank]) hone
  | retried i call hcall current hpoint =>
    exact ⟨dropLast_set h.records hcall hone _, h.snapshots, h.counted, h.summed, h.maxed,
      h.times⟩
  | startSnapshot now =>
    have hsame : ∀ (f : SnapshotCall → List ℕ) (call : SnapshotCall) (window : List ℕ),
        f call = [] → ((s.snapshots ++ [call]).map f ++ [window]).flatten =
          (s.snapshots.map f ++ [window]).flatten := by
      intro f call window hempty
      simp [hempty]
    refine ⟨h.records, ?_, ?_, ?_, ?_, ?_⟩
    · rw [List.dropLast_concat]
      exact hone
    · rw [countWindows, hsame _ _ _ rfl]
      exact h.counted
    · rw [sumWindows, hsame _ _ _ rfl]
      exact h.summed
    · rw [maxWindows, hsame _ _ _ rfl]
      exact h.maxed
    · rw [entered, entered_append _ rfl]
      exact h.times
  | exchangeStart j call hcall hpoint =>
    refine ⟨h.records, dropLast_set h.snapshots hcall hone _, ?_, ?_, ?_, ?_⟩
    · rw [countWindows, State.setSnapshot, map_set_last hcall hone (by rfl)]
      exact h.counted
    · rw [sumWindows, State.setSnapshot, map_set_last hcall hone (by rfl)]
      exact h.summed
    · rw [maxWindows, State.setSnapshot, map_set_last hcall hone (by rfl)]
      exact h.maxed
    · exact times_exchangeStart h hcall hone hpoint (by simp) rfl rfl
  | exchangeCount j call hcall hpoint =>
    have huntaken := htotals.untaken call (List.mem_of_getElem? hcall)
    refine ⟨h.records, dropLast_set h.snapshots hcall hone _, ?_, ?_, ?_, ?_⟩
    · have hempty := huntaken.count_nil (by simp [hpoint, exchanges])
      rw [countWindows, State.setSnapshot, Tally.empty, exchange_last hcall hone hempty]
      exact h.counted
    · rw [sumWindows, State.setSnapshot, map_set_last hcall hone (by rfl)]
      exact h.summed
    · rw [maxWindows, State.setSnapshot, map_set_last hcall hone (by rfl)]
      exact h.maxed
    · exact times_set h hcall hone (by simp [hpoint]) (by simp) rfl rfl
  | exchangeSum j call hcall hpoint =>
    have huntaken := htotals.untaken call (List.mem_of_getElem? hcall)
    refine ⟨h.records, dropLast_set h.snapshots hcall hone _, ?_, ?_, ?_, ?_⟩
    · rw [countWindows, State.setSnapshot, map_set_last hcall hone (by rfl)]
      exact h.counted
    · have hempty := huntaken.sum_nil (by simp [hpoint, exchanges])
      rw [sumWindows, State.setSnapshot, Tally.empty, exchange_last hcall hone hempty]
      exact h.summed
    · rw [maxWindows, State.setSnapshot, map_set_last hcall hone (by rfl)]
      exact h.maxed
    · exact times_set h hcall hone (by simp [hpoint]) (by simp) rfl rfl
  | exchangeMax j call hcall hpoint =>
    have huntaken := htotals.untaken call (List.mem_of_getElem? hcall)
    refine ⟨h.records, dropLast_set h.snapshots hcall hone _, ?_, ?_, ?_, ?_⟩
    · rw [countWindows, State.setSnapshot, map_set_last hcall hone (by rfl)]
      exact h.counted
    · rw [sumWindows, State.setSnapshot, map_set_last hcall hone (by rfl)]
      exact h.summed
    · have hempty := huntaken.max_nil (by simp [hpoint, exchanges])
      rw [maxWindows, State.setSnapshot, Tally.empty, exchange_last hcall hone hempty]
      exact h.maxed
    · exact times_set h hcall hone (by simp [hpoint]) (by simp) rfl rfl

end AetherLens.SnapshotOrder
