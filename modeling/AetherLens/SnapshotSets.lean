import AetherLens.MetricsSnapshot
import Mathlib.Algebra.Group.Int.Defs
import Mathlib.Algebra.Group.Nat.Defs

/-!
Whether the three values of a snapshot describe one set of calls. They do for
every call that is not between its second increment and its return while a
snapshot is between its first and its last exchange, as long as snapshots do not
overlap; a call that is may be in some of the three sets and not in the others.
-/
namespace AetherLens.SnapshotSets

open MetricsSnapshot Runs

/-- Some of the values have been taken and some have not. -/
def SnapshotCall.InProgress (call : SnapshotCall) : Prop :=
  call.point = .exchangeSum ∨ call.point = .exchangeMax

/-- The call has gone into some of the counters and not into the others. -/
def Busy (s : State) (i : ℕ) : Prop := rankOf s.records i = 2 ∨ rankOf s.records i = 3

/-- The call is not busy while a snapshot is in progress. -/
def Apart (i : ℕ) (s : State) : Prop :=
  Busy s i → ∀ (j : ℕ) (call : SnapshotCall), s.snapshots[j]? = some call →
    ¬ SnapshotCall.InProgress call

/-- At most one snapshot is in progress. -/
def OneAtATime (s : State) : Prop :=
  ∀ (j k : ℕ) (call other : SnapshotCall), s.snapshots[j]? = some call →
    s.snapshots[k]? = some other → SnapshotCall.InProgress call →
      SnapshotCall.InProgress other → j = k

/-- The call is in all of the three or in none. -/
def Together (i : ℕ) (count : Tally ℕ) (sum max : Tally Int64) : Prop :=
  (i ∈ count.calls ↔ i ∈ sum.calls) ∧ (i ∈ sum.calls ↔ i ∈ max.calls)

/-- Where a call that has stayed apart from all snapshots is to be found. -/
structure Aligned (i : ℕ) (s : State) : Prop where
  counted : Busy s i → i ∈ s.windowPacketCount.calls
  summed : rankOf s.records i = 3 → i ∈ s.latencySumTicks.calls
  idle : ¬ Busy s i →
    (∀ (j : ℕ) (call : SnapshotCall), s.snapshots[j]? = some call →
      ¬ SnapshotCall.InProgress call) →
    Together i s.windowPacketCount s.latencySumTicks s.maxLatencyTicks
  atSum : ∀ (j : ℕ) (call : SnapshotCall), s.snapshots[j]? = some call →
    call.point = .exchangeSum → i ∉ s.windowPacketCount.calls ∧
      Together i call.count s.latencySumTicks s.maxLatencyTicks
  atMax : ∀ (j : ℕ) (call : SnapshotCall), s.snapshots[j]? = some call →
    call.point = .exchangeMax → i ∉ s.windowPacketCount.calls ∧ i ∉ s.latencySumTicks.calls ∧
      Together i call.count call.latencySum s.maxLatencyTicks
  done : ∀ (j : ℕ) (call : SnapshotCall), s.snapshots[j]? = some call →
    call.point = .returned → Together i call.count call.latencySum call.maxTicks

theorem busy_iff_of_rank_eq {s t : State} {i : ℕ}
    (h : rankOf t.records i = rankOf s.records i) : Busy t i ↔ Busy s i := by
  unfold Busy
  rw [h]

section Steps

variable {s t : State} {i : ℕ}

theorem aligned_start (windowStart : ℤ) (i : ℕ) : Aligned i (start windowStart) := by
  have hnone : ∀ (j : ℕ) (call : SnapshotCall),
      (start windowStart).snapshots[j]? = some call → False := by
    intro j call hcall
    simp [start] at hcall
  have hbusy : ¬ Busy (start windowStart) i := by simp [Busy, rankOf, start]
  exact ⟨fun h => absurd h hbusy, fun h => absurd (Or.inr h) hbusy,
    fun _ _ => ⟨Iff.rfl, Iff.rfl⟩, fun j call hcall => (hnone j call hcall).elim,
    fun j call hcall => (hnone j call hcall).elim, fun j call hcall => (hnone j call hcall).elim⟩

/-- A step of another call, or one that goes into no counter. -/
theorem aligned_of_same (h : Aligned i s) (hsnapshots : t.snapshots = s.snapshots)
    (hbusy : Busy t i ↔ Busy s i) (hthree : rankOf t.records i = 3 → rankOf s.records i = 3)
    (hcount : i ∈ t.windowPacketCount.calls ↔ i ∈ s.windowPacketCount.calls)
    (hsum : i ∈ t.latencySumTicks.calls ↔ i ∈ s.latencySumTicks.calls)
    (hmax : i ∈ t.maxLatencyTicks.calls ↔ i ∈ s.maxLatencyTicks.calls) : Aligned i t := by
  refine ⟨?_, ?_, ?_, ?_, ?_, ?_⟩
  · intro ht
    exact hcount.mpr (h.counted (hbusy.mp ht))
  · intro ht
    exact hsum.mpr (h.summed (hthree ht))
  · intro ht hnone
    rw [hsnapshots] at hnone
    have htogether := h.idle (fun hs => ht (hbusy.mpr hs)) hnone
    rwa [Together, hcount, hsum, hmax]
  · intro j call hcall hpoint
    rw [hsnapshots] at hcall
    obtain ⟨hnot, htogether⟩ := h.atSum j call hcall hpoint
    refine ⟨fun hmem => hnot (hcount.mp hmem), ?_⟩
    rwa [Together, hsum, hmax]
  · intro j call hcall hpoint
    rw [hsnapshots] at hcall
    obtain ⟨hnot, hnot', htogether⟩ := h.atMax j call hcall hpoint
    refine ⟨fun hmem => hnot (hcount.mp hmem), fun hmem => hnot' (hsum.mp hmem), ?_⟩
    rwa [Together, hmax]
  · intro j call hcall hpoint
    rw [hsnapshots] at hcall
    exact h.done j call hcall hpoint

/-- A step of the call itself while no snapshot is in progress. -/
theorem aligned_of_no_snapshot (h : Aligned i s) (hsnapshots : t.snapshots = s.snapshots)
    (hnone : ∀ (j : ℕ) (call : SnapshotCall), s.snapshots[j]? = some call →
      ¬ SnapshotCall.InProgress call)
    (hcounted : Busy t i → i ∈ t.windowPacketCount.calls)
    (hsummed : rankOf t.records i = 3 → i ∈ t.latencySumTicks.calls)
    (hidle : ¬ Busy t i →
      Together i t.windowPacketCount t.latencySumTicks t.maxLatencyTicks) : Aligned i t := by
  refine ⟨hcounted, hsummed, fun ht _ => hidle ht, ?_, ?_, ?_⟩
  · intro j call hcall hpoint
    rw [hsnapshots] at hcall
    exact absurd (Or.inl hpoint) (hnone j call hcall)
  · intro j call hcall hpoint
    rw [hsnapshots] at hcall
    exact absurd (Or.inr hpoint) (hnone j call hcall)
  · intro j call hcall hpoint
    rw [hsnapshots] at hcall
    exact h.done j call hcall hpoint

/-- A snapshot begins, or exchanges the start of the window. -/
theorem aligned_of_fresh (h : Aligned i s) (hrecords : t.records = s.records)
    (hcount : t.windowPacketCount = s.windowPacketCount)
    (hsum : t.latencySumTicks = s.latencySumTicks) (hmax : t.maxLatencyTicks = s.maxLatencyTicks)
    (hfresh : ∀ (j : ℕ) (call : SnapshotCall), t.snapshots[j]? = some call →
      s.snapshots[j]? = some call ∨ call.point = .exchangeStart ∨ call.point = .exchangeCount)
    (hkept : ∀ (j : ℕ) (call : SnapshotCall), s.snapshots[j]? = some call →
      SnapshotCall.InProgress call → t.snapshots[j]? = some call) : Aligned i t := by
  have hbusy : Busy t i ↔ Busy s i := busy_iff_of_rank_eq (by rw [hrecords])
  have hold : ∀ (j : ℕ) (call : SnapshotCall), t.snapshots[j]? = some call →
      call.point ≠ .exchangeStart → call.point ≠ .exchangeCount →
        s.snapshots[j]? = some call := by
    intro j call hcall hstart hcounting
    rcases hfresh j call hcall with hsame | hpoint | hpoint
    · exact hsame
    · exact absurd hpoint hstart
    · exact absurd hpoint hcounting
  refine ⟨?_, ?_, ?_, ?_, ?_, ?_⟩
  · intro ht
    rw [hcount]
    exact h.counted (hbusy.mp ht)
  · intro ht
    rw [hrecords] at ht
    rw [hsum]
    exact h.summed ht
  · intro ht hnone
    rw [hcount, hsum, hmax]
    apply h.idle fun hs => ht (hbusy.mpr hs)
    intro j call hcall hprogress
    exact hnone j call (hkept j call hcall hprogress) hprogress
  · intro j call hcall hpoint
    rw [hcount, hsum, hmax]
    exact h.atSum j call (hold j call hcall (by simp [hpoint]) (by simp [hpoint])) hpoint
  · intro j call hcall hpoint
    rw [hcount, hsum, hmax]
    exact h.atMax j call (hold j call hcall (by simp [hpoint]) (by simp [hpoint])) hpoint
  · intro j call hcall hpoint
    exact h.done j call (hold j call hcall (by simp [hpoint]) (by simp [hpoint])) hpoint

theorem snapshots_set_self {j : ℕ} {call : SnapshotCall} (hcall : s.snapshots[j]? = some call)
    (new : SnapshotCall) : (s.snapshots.set j new)[j]? = some new := by
  obtain ⟨hlt, _⟩ := List.getElem?_eq_some_iff.mp hcall
  exact List.getElem?_set_self hlt

theorem snapshots_set_cases {j k : ℕ} {new other : SnapshotCall}
    (h : (s.snapshots.set j new)[k]? = some other) :
    k = j ∧ other = new ∨ k ≠ j ∧ s.snapshots[k]? = some other := by
  rw [List.getElem?_set] at h
  split at h
  next hjk =>
    split at h
    · cases h
      exact Or.inl ⟨hjk.symm, rfl⟩
    · cases h
  next hjk => exact Or.inr ⟨fun hkj => hjk hkj.symm, h⟩

/-- While one snapshot is in progress the others are not. -/
theorem alone {j : ℕ} {call : SnapshotCall} (hone : OneAtATime s)
    (hcall : s.snapshots[j]? = some call) (hprogress : SnapshotCall.InProgress call) :
    ∀ (k : ℕ) (other : SnapshotCall), k ≠ j → s.snapshots[k]? = some other →
      ¬ SnapshotCall.InProgress other :=
  fun k other hne hother hprogress' => hne (hone k j other call hother hcall hprogress' hprogress)

theorem alone_of_set {j : ℕ} {call new : SnapshotCall} (hone : OneAtATime t)
    (hsnapshots : t.snapshots = s.snapshots.set j new) (hcall : s.snapshots[j]? = some call)
    (hprogress : SnapshotCall.InProgress new) :
    ∀ (k : ℕ) (other : SnapshotCall), k ≠ j → s.snapshots[k]? = some other →
      ¬ SnapshotCall.InProgress other := by
  intro k other hne hother
  have hself : t.snapshots[j]? = some new := by
    rw [hsnapshots]
    exact snapshots_set_self hcall new
  apply alone hone hself hprogress k other hne
  rw [hsnapshots, List.getElem?_set_ne (Ne.symm hne)]
  exact hother

/-- A snapshot exchanges a counter and no other is in progress. -/
theorem aligned_of_exchange {j : ℕ} {new : SnapshotCall} (h : Aligned i s)
    (hsnapshots : t.snapshots = s.snapshots.set j new) (hself : t.snapshots[j]? = some new)
    (halone : ∀ (k : ℕ) (other : SnapshotCall), k ≠ j → s.snapshots[k]? = some other →
      ¬ SnapshotCall.InProgress other)
    (hidle : ¬ Busy t i)
    (hafter : ¬ SnapshotCall.InProgress new →
      Together i t.windowPacketCount t.latencySumTicks t.maxLatencyTicks)
    (hsum : new.point = .exchangeSum → i ∉ t.windowPacketCount.calls ∧
      Together i new.count t.latencySumTicks t.maxLatencyTicks)
    (hmax : new.point = .exchangeMax → i ∉ t.windowPacketCount.calls ∧
      i ∉ t.latencySumTicks.calls ∧ Together i new.count new.latencySum t.maxLatencyTicks)
    (hdone : new.point = .returned → Together i new.count new.latencySum new.maxTicks) :
    Aligned i t := by
  refine ⟨fun hbusy => absurd hbusy hidle, fun hthree => absurd (Or.inr hthree) hidle,
    fun _ hnone => hafter (hnone j new hself), ?_, ?_, ?_⟩
  · intro k other hother hp
    rw [hsnapshots] at hother
    rcases snapshots_set_cases hother with ⟨_, rfl⟩ | ⟨hne, hold⟩
    · exact hsum hp
    · exact absurd (Or.inl hp) (halone k other hne hold)
  · intro k other hother hp
    rw [hsnapshots] at hother
    rcases snapshots_set_cases hother with ⟨_, rfl⟩ | ⟨hne, hold⟩
    · exact hmax hp
    · exact absurd (Or.inr hp) (halone k other hne hold)
  · intro k other hother hp
    rw [hsnapshots] at hother
    rcases snapshots_set_cases hother with ⟨_, rfl⟩ | ⟨_, hold⟩
    · exact hdone hp
    · exact h.done k other hold hp

/-- A snapshot takes the count. A call that is not busy was in all three or in none. -/
theorem aligned_exchangeCount {j : ℕ} {call : SnapshotCall} (h : Aligned i s)
    (hcall : s.snapshots[j]? = some call) (hpoint : call.point = .exchangeCount)
    (ht : t = { s.setSnapshot j { call with
      count := s.windowPacketCount, point := .exchangeSum } with
        windowPacketCount := Tally.empty 0 })
    (hone : OneAtATime t) (hapart : Apart i t) : Aligned i t := by
  subst ht
  have hself := snapshots_set_self hcall { call with
    count := s.windowPacketCount, point := .exchangeSum }
  have hidle : ¬ Busy s i := fun hbusy => hapart hbusy j _ hself (Or.inl rfl)
  have halone := alone_of_set hone rfl hcall (Or.inl rfl)
  have hcounting : ¬ SnapshotCall.InProgress call := by
    simp [SnapshotCall.InProgress, hpoint]
  have htogether : Together i s.windowPacketCount s.latencySumTicks s.maxLatencyTicks := by
    apply h.idle hidle
    intro k other hother
    by_cases hkj : k = j
    · rw [hkj, hcall, Option.some.injEq] at hother
      rwa [← hother]
    · exact halone k other hkj hother
  apply aligned_of_exchange h rfl hself halone
  · exact hidle
  · intro hnot
    exact absurd (Or.inl rfl) hnot
  · intro _
    exact ⟨List.not_mem_nil, htogether⟩
  · intro hp
    cases hp
  · intro hp
    cases hp

theorem aligned_exchangeSum {j : ℕ} {call : SnapshotCall} (h : Aligned i s)
    (hcall : s.snapshots[j]? = some call) (hpoint : call.point = .exchangeSum)
    (ht : t = { s.setSnapshot j { call with
      latencySum := s.latencySumTicks, point := .exchangeMax } with
        latencySumTicks := Tally.empty 0 })
    (hone : OneAtATime t) (hapart : Apart i t) : Aligned i t := by
  subst ht
  have hself := snapshots_set_self hcall { call with
    latencySum := s.latencySumTicks, point := .exchangeMax }
  have hidle : ¬ Busy s i := fun hbusy => hapart hbusy j _ hself (Or.inr rfl)
  have halone := alone_of_set hone rfl hcall (Or.inr rfl)
  obtain ⟨hnot, htogether⟩ := h.atSum j call hcall hpoint
  apply aligned_of_exchange h rfl hself halone
  · exact hidle
  · intro hnot
    exact absurd (Or.inr rfl) hnot
  · intro hp
    cases hp
  · intro _
    exact ⟨hnot, List.not_mem_nil, htogether⟩
  · intro hp
    cases hp

theorem aligned_exchangeMax {j : ℕ} {call : SnapshotCall} (h : Aligned i s)
    (hcall : s.snapshots[j]? = some call) (hpoint : call.point = .exchangeMax)
    (ht : t = { s.setSnapshot j { call with
      maxTicks := s.maxLatencyTicks, point := .returned } with
        maxLatencyTicks := Tally.empty 0 })
    (hone : OneAtATime s) (hapart : Apart i s) : Aligned i t := by
  subst ht
  have hself := snapshots_set_self hcall { call with
    maxTicks := s.maxLatencyTicks, point := .returned }
  have hidle : ¬ Busy s i := fun hbusy => hapart hbusy j call hcall (Or.inr hpoint)
  have halone := alone hone hcall (Or.inr hpoint)
  obtain ⟨hnot, hnot', htogether⟩ := h.atMax j call hcall hpoint
  apply aligned_of_exchange h rfl hself halone
  · exact hidle
  · intro _
    exact ⟨iff_of_false hnot hnot', iff_of_false hnot' List.not_mem_nil⟩
  · intro hp
    cases hp
  · intro hp
    cases hp
  · intro _
    exact htogether

end Steps

section Records

variable {s : State} {i k : ℕ} {call : RecordCall}

theorem busy_moveRecord_self (hcall : s.records[i]? = some call) (point : RecordPoint) :
    Busy (s.moveRecord i call point) i ↔ point.rank = 2 ∨ point.rank = 3 := by
  rw [Busy, State.moveRecord, rankOf_set hcall, if_pos rfl]

theorem rankOf_moveRecord_self (hcall : s.records[i]? = some call) (point : RecordPoint) :
    rankOf (s.moveRecord i call point).records i = point.rank := by
  rw [State.moveRecord, rankOf_set hcall, if_pos rfl]

theorem rankOf_moveRecord_other (hcall : s.records[k]? = some call) (point : RecordPoint)
    (hne : i ≠ k) : rankOf (s.moveRecord k call point).records i = rankOf s.records i := by
  rw [State.moveRecord, rankOf_set hcall, if_neg hne]

theorem mem_snoc_other (hne : i ≠ k) (calls : List ℕ) : i ∈ calls ++ [k] ↔ i ∈ calls := by
  simp [hne]

/-- A step of another call. -/
theorem aligned_other {t : State} (h : Aligned i s) (hcall : s.records[k]? = some call)
    {point : RecordPoint} (hne : i ≠ k) (hrecords : t.records = (s.moveRecord k call point).records)
    (hsnapshots : t.snapshots = s.snapshots)
    (hcount : i ∈ t.windowPacketCount.calls ↔ i ∈ s.windowPacketCount.calls)
    (hsum : i ∈ t.latencySumTicks.calls ↔ i ∈ s.latencySumTicks.calls)
    (hmax : i ∈ t.maxLatencyTicks.calls ↔ i ∈ s.maxLatencyTicks.calls) : Aligned i t := by
  have hrank : rankOf t.records i = rankOf s.records i := by
    rw [hrecords, rankOf_moveRecord_other hcall point hne]
  exact aligned_of_same h hsnapshots (busy_iff_of_rank_eq hrank) (fun hthree => hrank ▸ hthree)
    hcount hsum hmax

/-- The last step of a call: by now it is in all three. -/
theorem aligned_returned (h : Aligned i s) (hcall : s.records[k]? = some call)
    (hrank : call.point.rank = 3) (hapart : Apart i s) (value : Int64) :
    Aligned i { s.moveRecord k call .returned with
      maxLatencyTicks := ⟨value, s.maxLatencyTicks.calls ++ [k]⟩ } := by
  by_cases hik : i = k
  · subst hik
    have hthree : rankOf s.records i = 3 := by rw [rankOf_eq hcall, hrank]
    have hdone : ¬ Busy (s.moveRecord i call .returned) i := by
      rw [busy_moveRecord_self hcall]
      decide
    refine aligned_of_no_snapshot h rfl (hapart (Or.inr hthree)) (fun hbusy => absurd hbusy hdone)
      (fun ht => absurd (Or.inr ht) hdone) ?_
    intro _
    exact ⟨iff_of_true (h.counted (Or.inr hthree)) (h.summed hthree),
      iff_of_true (h.summed hthree) (List.mem_append_right _ (List.mem_singleton_self i))⟩
  · exact aligned_other h hcall hik rfl rfl Iff.rfl Iff.rfl (mem_snoc_other hik _)

/-- A step of a call that goes into no counter and keeps it busy or idle. -/
theorem aligned_moveRecord (h : Aligned i s) (hcall : s.records[k]? = some call)
    {point : RecordPoint} (hrank : call.point.rank = point.rank ∨ point.rank < 2 ∧
      call.point.rank < 2) : Aligned i (s.moveRecord k call point) := by
  by_cases hik : i = k
  · subst hik
    refine aligned_of_same h rfl ?_ ?_ Iff.rfl Iff.rfl Iff.rfl
    · rw [busy_moveRecord_self hcall, Busy, rankOf_eq hcall]
      omega
    · rw [rankOf_moveRecord_self hcall, rankOf_eq hcall]
      omega
  · exact aligned_other h hcall hik rfl rfl Iff.rfl Iff.rfl Iff.rfl

end Records

theorem aligned_step {windowStart : ℤ} {s t : State} {e : Event} (i : ℕ)
    (hstep : (machine windowStart).step s e = some t) (h : Aligned i s)
    (hone : OneAtATime s) (hone' : OneAtATime t) (hapart : Apart i s) (hapart' : Apart i t) :
    Aligned i t := by
  cases moves_of_step hstep with
  | startRecord latencyTicks =>
    have hrank := rankOf_append_start s.records latencyTicks i
    exact aligned_of_same h rfl (busy_iff_of_rank_eq hrank) (fun hthree => hrank ▸ hthree)
      Iff.rfl Iff.rfl Iff.rfl
  | incrementTotal k call hcall hpoint =>
    have hmoved : Aligned i (s.moveRecord k call .incrementWindow) := by
      apply aligned_moveRecord h hcall
      rw [hpoint]
      decide
    exact ⟨hmoved.counted, hmoved.summed, hmoved.idle, hmoved.atSum, hmoved.atMax, hmoved.done⟩
  | incrementWindow k call hcall hpoint =>
    by_cases hik : i = k
    · subst hik
      have hrank := rankOf_moveRecord_self hcall .addLatency
      have hbusy : Busy (s.moveRecord i call .addLatency) i := Or.inl hrank
      refine aligned_of_no_snapshot h rfl (hapart' hbusy) ?_ ?_ (fun hidle => absurd hbusy hidle)
      · intro _
        exact List.mem_append_right _ (List.mem_singleton_self i)
      · intro hthree
        have hcontra : RecordPoint.addLatency.rank = 3 := hrank.symm.trans hthree
        cases hcontra
    · exact aligned_other h hcall hik rfl rfl (mem_snoc_other hik _) Iff.rfl Iff.rfl
  | addLatency k call hcall hpoint =>
    by_cases hik : i = k
    · subst hik
      have hbusy : Busy s i := Or.inl (by rw [rankOf_eq hcall, hpoint]; rfl)
      have hbusy' : Busy (s.moveRecord i call .readMax) i :=
        Or.inr (rankOf_moveRecord_self hcall .readMax)
      refine aligned_of_no_snapshot h rfl (hapart hbusy) ?_ ?_ (fun hidle => absurd hbusy' hidle)
      · intro _
        exact h.counted hbusy
      · intro _
        exact List.mem_append_right _ (List.mem_singleton_self i)
    · exact aligned_other h hcall hik rfl rfl Iff.rfl (mem_snoc_other hik _) Iff.rfl
  | readHigher k call hcall hpoint =>
    apply aligned_moveRecord h hcall
    rw [hpoint]
    exact Or.inl rfl
  | readEnough k call hcall hpoint =>
    exact aligned_returned h hcall (by rw [hpoint]; rfl) hapart _
  | exchanged k call hcall hpoint =>
    exact aligned_returned h hcall (by rw [hpoint]; rfl) hapart _
  | retried k call hcall current hpoint =>
    apply aligned_moveRecord h hcall
    rw [hpoint]
    exact Or.inl rfl
  | startSnapshot now =>
    refine aligned_of_fresh h rfl rfl rfl rfl ?_ ?_
    · intro j call hcall
      rw [List.getElem?_append] at hcall
      split at hcall
      · exact Or.inl hcall
      · have hnew := List.mem_singleton.mp (List.mem_of_getElem? hcall)
        exact Or.inr (Or.inl (by rw [hnew]))
    · intro j call hcall _
      obtain ⟨hlt, _⟩ := List.getElem?_eq_some_iff.mp hcall
      rw [List.getElem?_append_left hlt]
      exact hcall
  | exchangeStart j call hcall hpoint =>
    refine aligned_of_fresh h rfl rfl rfl rfl ?_ ?_
    · intro k other hother
      rcases snapshots_set_cases hother with ⟨_, rfl⟩ | ⟨_, hold⟩
      · exact Or.inr (Or.inr rfl)
      · exact Or.inl hold
    · intro k other hother hprogress
      have hne : j ≠ k := by
        intro hjk
        rw [← hjk, hcall, Option.some.injEq] at hother
        rw [← hother] at hprogress
        simp [SnapshotCall.InProgress, hpoint] at hprogress
      change (s.snapshots.set j _)[k]? = some other
      rw [List.getElem?_set_ne hne]
      exact hother
  | exchangeCount j call hcall hpoint =>
    exact aligned_exchangeCount h hcall hpoint rfl hone' hapart'
  | exchangeSum j call hcall hpoint =>
    exact aligned_exchangeSum h hcall hpoint rfl hone' hapart'
  | exchangeMax j call hcall hpoint =>
    exact aligned_exchangeMax h hcall hpoint rfl hone hapart

theorem aligned_run {windowStart : ℤ} (i : ℕ) (es : List Event) (s : State)
    (hs : (machine windowStart).run es = some s)
    (hone : (machine windowStart).Always OneAtATime es)
    (hapart : (machine windowStart).Always (Apart i) es) : Aligned i s := by
  revert hone hapart
  apply (machine windowStart).run_induction (fun es s =>
    (machine windowStart).Always OneAtATime es → (machine windowStart).Always (Apart i) es →
      Aligned i s) ?_ ?_ es s hs
  · intro _ _
    exact aligned_start windowStart i
  · intro es s e t hs hstep ih hone hapart
    have ht : (machine windowStart).run (es ++ [e]) = some t := by
      rw [Machine.run_snoc, hs]
      exact hstep
    obtain ⟨hones, honet⟩ := ((machine windowStart).always_snoc ht).mp hone
    obtain ⟨haparts, hapartt⟩ := ((machine windowStart).always_snoc ht).mp hapart
    exact aligned_step i hstep (ih hones haparts) (hones es (List.prefix_refl _) s hs) honet
      (haparts es (List.prefix_refl _) s hs) hapartt

section Values

variable {records : List RecordCall}

theorem sumTicks_perm {calls calls' : List ℕ} (h : calls.Perm calls') :
    sumTicks records calls = sumTicks records calls' := by
  unfold sumTicks
  induction h with
  | nil => rfl
  | cons i _ ih => rw [List.map_cons, List.map_cons, List.sum_cons, List.sum_cons, ih]
  | swap i k calls =>
    simp only [List.map_cons, List.sum_cons]
    rw [← Int64.add_assoc, ← Int64.add_assoc, Int64.add_comm (latencyOf records k)]
  | trans _ _ ih ih' => exact ih.trans ih'

theorem toInt_le_max (a b : Int64) :
    a.toInt ≤ (max a b).toInt ∧ b.toInt ≤ (max a b).toInt := by
  rw [max_eq]
  split
  next h =>
    rw [Int64.le_iff_toInt_le] at h
    exact ⟨h, Int.le_refl _⟩
  next h =>
    rw [Int64.le_iff_toInt_le] at h
    exact ⟨Int.le_refl _, by omega⟩

theorem toInt_le_foldl_max (ticks : List Int64) (init : Int64) :
    init.toInt ≤ (ticks.foldl max init).toInt ∧
      ∀ l ∈ ticks, l.toInt ≤ (ticks.foldl max init).toInt := by
  induction ticks generalizing init with
  | nil => exact ⟨Int.le_refl _, fun _ hl => absurd hl List.not_mem_nil⟩
  | cons x ticks ih =>
    obtain ⟨hinit, hall⟩ := ih (max init x)
    obtain ⟨hleft, hright⟩ := toInt_le_max init x
    rw [List.foldl_cons]
    refine ⟨by omega, ?_⟩
    intro l hl
    rcases List.mem_cons.mp hl with rfl | hl
    · omega
    · exact hall l hl

/-- Wrapping around only makes a sum of non-negative ticks smaller. -/
theorem bmod_le_of_ge {z : ℤ} (h : -(2 ^ 63) ≤ z) : z.bmod (2 ^ 64) ≤ z := by
  simp only [Int.bmod]
  split <;> omega

theorem toInt_sum_le (ticks : List Int64) (m : ℤ)
    (h : ∀ l ∈ ticks, 0 ≤ l.toInt ∧ l.toInt ≤ m) :
    ticks.sum.toInt ≤ ticks.length * m := by
  induction ticks with
  | nil => simp
  | cons x ticks ih =>
    have hrest := ih fun l hl => h l (List.mem_cons_of_mem _ hl)
    have hx := h x (List.mem_cons_self ..)
    have hge := Int64.le_toInt ticks.sum
    have hwrap : (x + ticks.sum).toInt ≤ x.toInt + ticks.sum.toInt := by
      rw [Int64.toInt_add]
      apply bmod_le_of_ge
      omega
    rw [List.sum_cons, List.length_cons]
    calc (x + ticks.sum).toInt ≤ x.toInt + ticks.sum.toInt := hwrap
      _ ≤ m + ticks.length * m := by omega
      _ = (ticks.length + 1 : ℕ) * m := by simp [Int.add_mul, Int.add_comm]

end Values

/-- Distinct calls that have been made. -/
structure RecordedSet (s : State) (calls : List ℕ) : Prop where
  nodup : calls.Nodup
  made : ∀ i ∈ calls, i < s.records.length

/-- The three values are the size, the sum and the maximum of three sets of calls. -/
structure Describes (s : State) (call : SnapshotCall) (counted summed maxed : List ℕ) :
    Prop where
  counted_set : RecordedSet s counted
  summed_set : RecordedSet s summed
  maxed_set : RecordedSet s maxed
  count_eq : call.count.value = counted.length
  sum_eq : call.latencySum.value = sumTicks s.records summed
  max_eq : call.maxTicks.value = maxOfTicks s.records maxed

/-- The three values describe one and the same set of calls. -/
def DescribesOneSet (s : State) (call : SnapshotCall) : Prop :=
  ∃ calls, Describes s call calls calls calls

/-- The average that a snapshot reports, in whole ticks. -/
def averageTicks (call : SnapshotCall) : ℤ :=
  if 0 < call.count.value then call.latencySum.value.toInt.tdiv call.count.value else 0

theorem recordedSet_of_holds {α : Type*} {s : State} {tally : Tally α} {total : List ℕ → α}
    {least : ℕ} (h : tally.Holds total least s.records) (hleast : 0 < least) :
    RecordedSet s tally.calls := by
  refine ⟨h.nodup, ?_⟩
  intro i hi
  have hrank := h.rank_le i hi
  exact lt_length_of_rank (by omega)

theorem describes_of_sound {s : State} {call : SnapshotCall}
    (h : Sound s.records call.count call.latencySum call.maxTicks) :
    Describes s call call.count.calls call.latencySum.calls call.maxTicks.calls :=
  ⟨recordedSet_of_holds h.count_holds (by omega), recordedSet_of_holds h.sum_holds (by omega),
    recordedSet_of_holds h.max_holds (by omega), h.count_holds.value_eq, h.sum_holds.value_eq,
    h.max_holds.value_eq⟩

theorem describes_max_of_together {s : State} {call : SnapshotCall}
    (h : Sound s.records call.count call.latencySum call.maxTicks)
    (htogether : ∀ i, Together i call.count call.latencySum call.maxTicks) :
    Describes s call call.maxTicks.calls call.maxTicks.calls call.maxTicks.calls := by
  have hset := recordedSet_of_holds h.max_holds (by omega)
  have hcount : call.count.calls.Perm call.latencySum.calls :=
    (List.perm_ext_iff_of_nodup h.count_holds.nodup h.sum_holds.nodup).mpr
      fun i => (htogether i).1
  have hmax : call.maxTicks.calls.Perm call.latencySum.calls :=
    (List.perm_ext_iff_of_nodup h.max_holds.nodup h.sum_holds.nodup).mpr
      fun i => (htogether i).2.symm
  refine ⟨hset, hset, hset, ?_, ?_, h.max_holds.value_eq⟩
  · rw [h.count_holds.value_eq, hcount.length_eq, hmax.length_eq]
  · rw [h.sum_holds.value_eq, sumTicks_perm hmax]

/-- One set of non-negative latencies has an average below its maximum, and no sum
without a count. -/
theorem averageTicks_le {s : State} {call : SnapshotCall} (h : DescribesOneSet s call)
    (hticks : ∀ i, 0 ≤ (latencyOf s.records i).toInt) :
    averageTicks call ≤ call.maxTicks.value.toInt ∧
      (call.count.value = 0 → call.latencySum.value = 0) := by
  obtain ⟨calls, hcalls⟩ := h
  obtain ⟨hzero, hbound⟩ := toInt_le_foldl_max (calls.map (latencyOf s.records)) 0
  rw [← maxOfTicks, ← hcalls.max_eq] at hzero hbound
  have hzero' : 0 ≤ call.maxTicks.value.toInt := hzero
  have hsum : call.latencySum.value.toInt ≤ calls.length * call.maxTicks.value.toInt := by
    have hle := toInt_sum_le (calls.map (latencyOf s.records)) call.maxTicks.value.toInt ?_
    · rwa [List.length_map, ← sumTicks, ← hcalls.sum_eq] at hle
    · intro l hl
      obtain ⟨i, _, rfl⟩ := List.mem_map.mp hl
      exact ⟨hticks i, hbound _ hl⟩
  constructor
  · unfold averageTicks
    split
    next hpos =>
      rw [hcalls.count_eq] at hpos ⊢
      rcases Int.le_total 0 call.latencySum.value.toInt with hnonneg | hneg
      · rw [Int.tdiv_eq_ediv_of_nonneg hnonneg]
        apply Int.ediv_le_of_le_mul (by omega)
        rw [Int.mul_comm]
        exact hsum
      · have hdiv : 0 ≤ (-call.latencySum.value.toInt).tdiv calls.length :=
          Int.tdiv_nonneg (by omega) (by omega)
        rw [Int.neg_tdiv] at hdiv
        omega
    next => exact hzero'
  · intro hcount
    rw [hcalls.count_eq, List.length_eq_zero_iff] at hcount
    rw [hcalls.sum_eq, hcount]
    rfl

/-- The first snapshot falls between the second increment of the one call and its add. -/
def tornRun : List Event :=
  [.startRecord 5, .record 0, .record 0, .startSnapshot 10, .snapshot 0, .snapshot 0,
    .snapshot 0, .snapshot 0, .record 0, .record 0, .record 0, .startSnapshot 20,
    .snapshot 1, .snapshot 1, .snapshot 1, .snapshot 1]

theorem tornRun_snapshots :
    ((machine 0).run tornRun).map State.snapshots =
      some [⟨10, .returned, 0, ⟨1, [0]⟩, ⟨0, []⟩, ⟨0, []⟩⟩,
        ⟨20, .returned, 10, ⟨0, []⟩, ⟨5, [0]⟩, ⟨5, [0]⟩⟩] := by
  decide +kernel

/-- The one call has returned. The second snapshot falls between the second and the
third exchange of the first. -/
def overlappingRun : List Event :=
  [.startRecord 5, .record 0, .record 0, .record 0, .record 0, .record 0, .startSnapshot 10,
    .snapshot 0, .snapshot 0, .startSnapshot 20, .snapshot 1, .snapshot 1, .snapshot 1,
    .snapshot 1, .snapshot 0, .snapshot 0]

theorem overlappingRun_snapshots :
    ((machine 0).run overlappingRun).map State.snapshots =
      some [⟨10, .returned, 0, ⟨1, [0]⟩, ⟨0, []⟩, ⟨0, []⟩⟩,
        ⟨20, .returned, 10, ⟨0, []⟩, ⟨5, [0]⟩, ⟨5, [0]⟩⟩] := by
  decide +kernel

theorem not_describesOneSet {s : State} {call : SnapshotCall} (hcount : call.count.value = 0)
    (hsum : call.latencySum.value ≠ 0) : ¬ DescribesOneSet s call := by
  intro ⟨calls, hcalls⟩
  have hempty : calls = [] := by
    rw [← List.length_eq_zero_iff, ← hcalls.count_eq, hcount]
  apply hsum
  rw [hcalls.sum_eq, hempty]
  rfl

/-- In both runs the second snapshot has a sum of five ticks with a count of zero. -/
theorem torn_snapshot :
    (∃ s call, (machine 0).run tornRun = some s ∧ s.snapshots[1]? = some call ∧
      call.point = .returned ∧ call.count.value = 0 ∧ call.latencySum.value = 5 ∧
        ¬ DescribesOneSet s call) ∧
    ∃ s call, (machine 0).run overlappingRun = some s ∧ s.snapshots[1]? = some call ∧
      call.point = .returned ∧ call.count.value = 0 ∧ call.latencySum.value = 5 ∧
        ¬ DescribesOneSet s call := by
  have hne : (5 : Int64) ≠ 0 := by decide
  constructor
  · obtain ⟨s, hs, hsnapshots⟩ := Option.map_eq_some_iff.mp tornRun_snapshots
    refine ⟨s, ⟨20, .returned, 10, ⟨0, []⟩, ⟨5, [0]⟩, ⟨5, [0]⟩⟩, hs, ?_, rfl, rfl, rfl,
      not_describesOneSet rfl hne⟩
    rw [hsnapshots]
    rfl
  · obtain ⟨s, hs, hsnapshots⟩ := Option.map_eq_some_iff.mp overlappingRun_snapshots
    refine ⟨s, ⟨20, .returned, 10, ⟨0, []⟩, ⟨5, [0]⟩, ⟨5, [0]⟩⟩, hs, ?_, rfl, rfl, rfl,
      not_describesOneSet rfl hne⟩
    rw [hsnapshots]
    rfl

end AetherLens.SnapshotSets
