import AetherLens.DashboardStore
import AetherLens.RecentlyUsed

/-!
The process table of the dashboard: the processes updated last, newest first, one
entry for each. The store filters a list it has already cut at 100 entries, and
still shows what the whole history of updates would give.
-/
namespace AetherLens.ProcessTable

open Messages DashboardStore RecentlyUsed

/-- The store after a sequence of `upsertProcess` calls, first call first. -/
def afterUpdates (updates : List ProcessBandwidthUpdate) : AetherState :=
  updates.foldl (fun state process => state.upsertProcess process) .empty

theorem processStats_afterUpdates (updates : List ProcessBandwidthUpdate) :
    (afterUpdates updates).processStats =
      afterUses ProcessBandwidthUpdate.process maxProcesses updates := by
  induction updates using List.reverseRecOn with
  | nil => rfl
  | append_singleton updates process ih =>
    have hlast : afterUpdates (updates ++ [process]) =
        (afterUpdates updates).upsertProcess process := by
      simp [afterUpdates]
    have huse : afterUses ProcessBandwidthUpdate.process maxProcesses (updates ++ [process]) =
        touch ProcessBandwidthUpdate.process maxProcesses process
          (afterUses ProcessBandwidthUpdate.process maxProcesses updates) := by
      simp [afterUses]
    rw [hlast, huse, ← ih]
    rfl

/-- An update is shown exactly while fewer than 100 processes were updated after it,
provided that it is the last one of its own process. -/
theorem mem_processStats_iff {p : ProcessBandwidthUpdate}
    {earlier later : List ProcessBandwidthUpdate}
    (hlast : p.process ∉ later.map ProcessBandwidthUpdate.process) :
    p ∈ (afterUpdates (earlier ++ p :: later)).processStats ↔
      (later.map ProcessBandwidthUpdate.process).toFinset.card < maxProcesses := by
  have hreverse : (earlier ++ p :: later).reverse = later.reverse ++ p :: earlier.reverse := by
    simp
  have hsame : (later.reverse.map ProcessBandwidthUpdate.process).toFinset =
      (later.map ProcessBandwidthUpdate.process).toFinset := by
    rw [List.map_reverse, List.toFinset_reverse]
  rw [processStats_afterUpdates, afterUses_eq, hreverse, ← hsame]
  refine mem_take_firstPerKey_iff _ _ ?_
  rw [List.map_reverse, List.mem_reverse]
  exact hlast

theorem nodup_processStats (updates : List ProcessBandwidthUpdate) :
    ((afterUpdates updates).processStats.map ProcessBandwidthUpdate.process).Nodup := by
  rw [processStats_afterUpdates, afterUses_eq, List.map_take]
  exact (nodup_keys_firstPerKey _ _).sublist (List.take_sublist _ _)

theorem length_processStats (updates : List ProcessBandwidthUpdate) :
    (afterUpdates updates).processStats.length =
      min maxProcesses (updates.map ProcessBandwidthUpdate.process).toFinset.card := by
  rw [processStats_afterUpdates, afterUses_eq, List.length_take, length_firstPerKey,
    List.map_reverse, List.toFinset_reverse]

/-- An entry is the last update of its process. -/
theorem split_of_mem_processStats {p : ProcessBandwidthUpdate}
    {updates : List ProcessBandwidthUpdate} (hp : p ∈ (afterUpdates updates).processStats) :
    ∃ earlier later, updates = earlier ++ p :: later ∧
      p.process ∉ later.map ProcessBandwidthUpdate.process := by
  rw [processStats_afterUpdates, afterUses_eq] at hp
  obtain ⟨before, after, hsplit, hbefore⟩ :=
    split_of_mem_firstPerKey ProcessBandwidthUpdate.process (List.mem_of_mem_take hp)
  refine ⟨after.reverse, before.reverse, ?_, by simpa using hbefore⟩
  rw [← List.reverse_inj, hsplit]
  simp

/-- The table is the front part of the history, newest first and with one update for
each process. So no process stands in it twice, each shows its last update, there are
as many as were seen but at most 100, and one that is missing has given way to at
least 100 others. -/
theorem processStats_mostRecent (updates : List ProcessBandwidthUpdate) :
    (afterUpdates updates).processStats =
      (firstPerKey ProcessBandwidthUpdate.process updates.reverse).take maxProcesses ∧
    ((afterUpdates updates).processStats.map ProcessBandwidthUpdate.process).Nodup ∧
    (∀ p ∈ (afterUpdates updates).processStats, ∃ earlier later,
      updates = earlier ++ p :: later ∧
        p.process ∉ later.map ProcessBandwidthUpdate.process) ∧
    (afterUpdates updates).processStats.length =
      min maxProcesses (updates.map ProcessBandwidthUpdate.process).toFinset.card ∧
    (∀ earlier p later, updates = earlier ++ p :: later →
      p.process ∉ later.map ProcessBandwidthUpdate.process →
      p ∉ (afterUpdates updates).processStats →
      maxProcesses ≤ (later.map ProcessBandwidthUpdate.process).toFinset.card) := by
  refine ⟨?_, nodup_processStats updates, fun p hp => split_of_mem_processStats hp,
    length_processStats updates, ?_⟩
  · rw [processStats_afterUpdates, afterUses_eq]
  · rintro earlier p later rfl hlast hmissing
    rw [mem_processStats_iff hlast] at hmissing
    exact Nat.not_lt.mp hmissing

end AetherLens.ProcessTable
