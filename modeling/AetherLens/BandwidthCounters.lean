import AetherLens.Messages
import AetherLens.Runs
import Mathlib.Algebra.BigOperators.Group.List.Basic
import Mathlib.Algebra.Group.Int.Defs
import Mathlib.Algebra.Group.Prod
import Mathlib.Algebra.Order.BigOperators.Group.List
import Mathlib.Logic.Function.Basic
import Mathlib.Tactic.Abel

/-!
Per-process bandwidth counters. `RunPacketLoop` adds every packet to a shared
dictionary; once a second `RunProcessLoop` enumerates it, and for each entry
removes the process and reports the metric it read when the entry was yielded.
Every dictionary operation is one atomic step and the two loops interleave
freely. Sums are exact integers: overflow of `long` is left out.
-/
namespace AetherLens.BandwidthCounters

open Runs Messages

/-- A value of the dictionary: `(long Bytes, long Packets, string Protocol)`. -/
structure Metric where
  bytes : ℤ
  packets : ℤ
  protocol : String
deriving DecidableEq, Repr

abbrev Counters := String → Option Metric

/-- The cast `(long)packet.Bytes`. -/
def longBytes (packet : PacketMessage) : ℤ := packet.bytes.toInt64.toInt

/-- `counters.AddOrUpdate` with the two factories of `RunPacketLoop`. -/
def addOrUpdate (counters : Counters) (packet : PacketMessage) : Counters :=
  Function.update counters packet.process (some (match counters packet.process with
    | none => ⟨longBytes packet, 1, packet.protocol⟩
    | some current =>
      ⟨current.bytes + longBytes packet, current.packets + 1, packet.protocol⟩))

/-- `counters.TryRemove(process, out _)`: the removed value is discarded. -/
def tryRemove (counters : Counters) (process : String) : Counters :=
  Function.update counters process none

def tier (bytes : ℤ) : String :=
  if bytes > 10000000 then "HIGH" else if bytes > 1000000 then "MEDIUM" else "LOW"

def bandwidthUpdate (process : String) (metric : Metric) (now : ℤ) :
    ProcessBandwidthUpdate where
  process := process
  bytesPerSecond := metric.bytes
  packetsPerSecond := metric.packets
  protocol := metric.protocol
  timestamp := now
  tier := tier metric.bytes

/-- Where `RunProcessLoop` stands. A loop body runs from `yielded` to the end
of `removed`; the metric is the one the enumeration yielded. -/
inductive ProcessLoop
  | waiting
  | enumerating (now : ℤ)
  | yielded (now : ℤ) (process : String) (metric : Metric)
  | removed (now : ℤ) (process : String) (metric : Metric)
  | stopped

def ProcessLoop.BetweenBodies : ProcessLoop → Prop
  | .yielded .. => False
  | .removed .. => False
  | _ => True

structure State where
  counters : Counters
  loop : ProcessLoop
  built : List ProcessBandwidthUpdate

inductive Event
  | addOrUpdate (packet : PacketMessage)
  | tick (now : ℤ)
  | yieldEntry (process : String)
  | tryRemove
  | buildAndSend (sent : Bool)
  | endOfEnumeration
  | cancel

/-- One atomic step. A failed send throws out of the loop, after the update
has been built. -/
def step (s : State) : Event → Option State
  | .addOrUpdate packet => some { s with counters := addOrUpdate s.counters packet }
  | .tick now =>
    match s.loop with
    | .waiting => some { s with loop := .enumerating now }
    | _ => none
  | .yieldEntry process =>
    match s.loop, s.counters process with
    | .enumerating now, some metric => some { s with loop := .yielded now process metric }
    | _, _ => none
  | .tryRemove =>
    match s.loop with
    | .yielded now process metric =>
      some { s with
        counters := tryRemove s.counters process
        loop := .removed now process metric }
    | _ => none
  | .buildAndSend sent =>
    match s.loop with
    | .removed now process metric =>
      some { s with
        loop := if sent then .enumerating now else .stopped
        built := s.built ++ [bandwidthUpdate process metric now] }
    | _ => none
  | .endOfEnumeration =>
    match s.loop with
    | .enumerating _ => some { s with loop := .waiting }
    | _ => none
  | .cancel =>
    match s.loop with
    | .waiting => some { s with loop := .stopped }
    | _ => none

def machine : Machine State Event where
  start := ⟨fun _ => none, .waiting, []⟩
  step := step

/-! Amounts are pairs: bytes first, packets second. -/

def Metric.amount (metric : Metric) : ℤ × ℤ := (metric.bytes, metric.packets)

def packetAmount (packet : PacketMessage) : ℤ × ℤ := (longBytes packet, 1)

/-- What the dictionary holds for a process. -/
def held (counters : Counters) (process : String) : ℤ × ℤ :=
  (counters process).elim 0 Metric.amount

/-- What the updates built so far report for a process. -/
def reported (built : List ProcessBandwidthUpdate) (process : String) : ℤ × ℤ :=
  ((built.filter fun u => u.process = process).map fun u =>
    (u.bytesPerSecond, u.packetsPerSecond)).sum

/-- The packets of a process that a run has passed to `AddOrUpdate`. -/
def passedPackets (es : List Event) (process : String) : List PacketMessage :=
  es.filterMap fun
    | .addOrUpdate packet => if packet.process = process then some packet else none
    | _ => none

def passed (es : List Event) (process : String) : ℤ × ℤ :=
  ((passedPackets es process).map packetAmount).sum

/-- The step adds a packet of the process after its entry was read by the
current loop body and before that body removes the entry. -/
def InGap (process : String) (s : State) (e : Event) : Prop :=
  ∃ packet now metric, e = .addOrUpdate packet ∧ packet.process = process ∧
    s.loop = .yielded now process metric

/-- The packet that a step taken in the gap adds. -/
def gapPacket (process : String) (x : State × Event) : Option PacketMessage :=
  match x.2, x.1.loop with
  | .addOrUpdate packet, .yielded _ yielded _ =>
    if packet.process = process ∧ yielded = process then some packet else none
  | _, _ => none

def gapPackets (es : List Event) (process : String) : List PacketMessage :=
  (machine.steps es).filterMap (gapPacket process)

/-- What will be reported or stays held if no further packet arrives: a body
that has read its metric reports that metric, whatever the entry has become. -/
def accounted (s : State) (process : String) : ℤ × ℤ :=
  reported s.built process +
    match s.loop with
    | .yielded _ yielded metric =>
      if yielded = process then metric.amount else held s.counters process
    | .removed _ removed metric =>
      held s.counters process + if removed = process then metric.amount else 0
    | _ => held s.counters process

theorem accounted_of_betweenBodies (s : State) (process : String)
    (h : s.loop.BetweenBodies) :
    accounted s process = reported s.built process + held s.counters process := by
  unfold accounted
  cases hloop : s.loop <;> simp_all [ProcessLoop.BetweenBodies]

theorem held_addOrUpdate (counters : Counters) (packet : PacketMessage) (process : String) :
    held (addOrUpdate counters packet) process =
      held counters process + if packet.process = process then packetAmount packet else 0 := by
  by_cases h : packet.process = process
  · subst h
    unfold held addOrUpdate
    rw [Function.update_self]
    cases hc : counters packet.process <;> simp [Metric.amount, packetAmount]
  · have hne : process ≠ packet.process := Ne.symm h
    simp [held, addOrUpdate, Function.update_of_ne hne, h]

theorem held_tryRemove (counters : Counters) (removed process : String) :
    held (tryRemove counters removed) process =
      if removed = process then 0 else held counters process := by
  by_cases h : removed = process
  · subst h
    simp [held, tryRemove]
  · have hne : process ≠ removed := Ne.symm h
    simp [held, tryRemove, Function.update_of_ne hne, h]

theorem reported_append (built : List ProcessBandwidthUpdate) (now : ℤ) (metric : Metric)
    (removed process : String) :
    reported (built ++ [bandwidthUpdate removed metric now]) process =
      reported built process + if removed = process then metric.amount else 0 := by
  by_cases h : removed = process <;>
    simp [reported, bandwidthUpdate, Metric.amount, List.filter_append, h]

theorem passed_snoc (es : List Event) (e : Event) (process : String) :
    passed (es ++ [e]) process = passed es process + passed [e] process := by
  simp [passed, passedPackets, List.filterMap_append]

/-- The amount a step adds in the gap of the current loop body. -/
def gapAmount (s : State) (e : Event) (process : String) : ℤ × ℤ :=
  (gapPacket process (s, e)).elim 0 packetAmount

/-- Only an addition made in the gap leaves the accounted amounts behind. -/
theorem accounted_addOrUpdate (s : State) (packet : PacketMessage) (process : String) :
    accounted { s with counters := addOrUpdate s.counters packet } process +
        gapAmount s (.addOrUpdate packet) process =
      accounted s process + passed [.addOrUpdate packet] process := by
  have hpassed : passed [.addOrUpdate packet] process =
      if packet.process = process then packetAmount packet else 0 := by
    by_cases h : packet.process = process <;> simp [passed, passedPackets, h]
  rw [hpassed]
  cases hloop : s.loop with
  | yielded now yielded metric =>
    by_cases hy : yielded = process
    · by_cases hp : packet.process = process <;>
        simp [accounted, gapAmount, gapPacket, hloop, hy, hp]
    · simp only [accounted, gapAmount, gapPacket, hloop, hy, and_false, ite_false,
        Option.elim_none, add_zero, held_addOrUpdate]
      abel
  | _ =>
    simp only [accounted, gapAmount, gapPacket, hloop, Option.elim_none, add_zero,
      held_addOrUpdate]
    abel

/-- The steps of `RunProcessLoop` move amounts from the dictionary to the
updates and leave the accounted amounts as they are. -/
theorem accounted_processLoop {s t : State} {e : Event} (hs : step s e = some t)
    (he : ∀ packet, e ≠ .addOrUpdate packet) (process : String) :
    accounted t process = accounted s process := by
  cases e with
  | addOrUpdate packet => exact absurd rfl (he packet)
  | tick now =>
    simp only [step] at hs
    split at hs <;> cases hs
    next hloop => simp [accounted, hloop]
  | yieldEntry yielded =>
    simp only [step] at hs
    split at hs <;> cases hs
    next now metric hloop hentry =>
      by_cases h : yielded = process
      · subst h
        simp [accounted, hloop, held, hentry]
      · simp [accounted, hloop, h]
  | tryRemove =>
    simp only [step] at hs
    split at hs <;> cases hs
    next now removed metric hloop =>
      by_cases h : removed = process <;>
        simp [accounted, hloop, held_tryRemove, h]
  | buildAndSend sent =>
    simp only [step] at hs
    split at hs <;> cases hs
    next now removed metric hloop =>
      simp only [accounted, hloop, reported_append]
      cases sent <;> simp <;> abel
  | endOfEnumeration =>
    simp only [step] at hs
    split at hs <;> cases hs
    next hloop => simp [accounted, hloop]
  | cancel =>
    simp only [step] at hs
    split at hs <;> cases hs
    next hloop => simp [accounted, hloop]

theorem accounted_step {s t : State} {e : Event} (hs : step s e = some t) (process : String) :
    accounted t process + gapAmount s e process =
      accounted s process + passed [e] process := by
  by_cases he : ∃ packet, e = .addOrUpdate packet
  · obtain ⟨packet, rfl⟩ := he
    cases hs
    exact accounted_addOrUpdate s packet process
  · have hne : ∀ packet, e ≠ .addOrUpdate packet := fun packet h => he ⟨packet, h⟩
    rw [accounted_processLoop hs hne]
    cases e <;> simp_all [gapAmount, gapPacket, passed, passedPackets]

/-- Along every run, what was passed in is accounted for up to the packets
that were added in a gap. -/
theorem accounted_run (process : String) : ∀ es s, machine.run es = some s →
    accounted s process + ((gapPackets es process).map packetAmount).sum =
      passed es process := by
  apply machine.run_induction fun es s =>
    accounted s process + ((gapPackets es process).map packetAmount).sum = passed es process
  · simp [accounted, machine, reported, held, gapPackets, Machine.steps, Machine.stepsFrom,
      passed, passedPackets]
  · intro es s e t hrun hstep ih
    have hstep' := accounted_step hstep process
    have hgap : ((gapPackets (es ++ [e]) process).map packetAmount).sum =
        ((gapPackets es process).map packetAmount).sum + gapAmount s e process := by
      unfold gapPackets gapAmount
      rw [machine.steps_snoc hrun, List.filterMap_append, List.map_append, List.sum_append]
      cases hg : gapPacket process (s, e) <;> simp [hg]
    rw [passed_snoc, hgap, ← ih]
    calc
      _ = (accounted t process + gapAmount s e process) +
          ((gapPackets es process).map packetAmount).sum := by abel
      _ = _ := by
        rw [hstep']
        abel

theorem gapPacket_isSome_iff (process : String) (s : State) (e : Event) :
    (gapPacket process (s, e)).isSome ↔ InGap process s e := by
  constructor
  · intro h
    unfold gapPacket at h
    split at h
    next packet now yielded metric he hloop =>
      split_ifs at h with heq
      · obtain ⟨hp, rfl⟩ := heq
        exact ⟨packet, now, metric, he, hp, hloop⟩
      · cases h
    next => cases h
  · rintro ⟨packet, now, metric, rfl, hp, hloop⟩
    simp [gapPacket, hloop, hp]

theorem gapPackets_eq_nil_iff (es : List Event) (process : String) :
    gapPackets es process = [] ↔ machine.Meets (fun s e => ¬ InGap process s e) es := by
  unfold gapPackets Machine.Meets
  rw [List.filterMap_eq_nil_iff]
  refine forall₂_congr fun x _ => ?_
  change gapPacket process (x.1, x.2) = none ↔ ¬ InGap process x.1 x.2
  rw [← gapPacket_isSome_iff, Option.not_isSome_iff_eq_none]

/-- Every packet counts one, so a list of packets with amount zero is empty. -/
theorem amount_eq_zero_iff (packets : List PacketMessage) :
    (packets.map packetAmount).sum = 0 ↔ packets = [] := by
  have hcount : ((packets.map packetAmount).sum).2 = packets.length := by
    induction packets with
    | nil => rfl
    | cons packet rest ih =>
      simp only [List.map_cons, List.sum_cons, Prod.snd_add, ih, packetAmount,
        List.length_cons, Nat.cast_add, Nat.cast_one]
      omega
  constructor
  · intro h
    rw [h] at hcount
    have hlen : packets.length = 0 := by
      have h0 : (0 : ℤ) = packets.length := hcount
      omega
    exact List.length_eq_zero_iff.mp hlen
  · rintro rfl
    rfl

/-- Between two loop bodies the amounts reported and held for a process are
those passed in exactly when none of its packets was added between the read
and the removal of its entry. -/
theorem bandwidth_conserved_iff (es : List Event) (s : State)
    (hrun : machine.run es = some s) (hbetween : s.loop.BetweenBodies) (process : String) :
    reported s.built process + held s.counters process = passed es process ↔
      machine.Meets (fun s e => ¬ InGap process s e) es := by
  have hacc := accounted_run process es s hrun
  rw [accounted_of_betweenBodies s process hbetween] at hacc
  rw [← gapPackets_eq_nil_iff, ← amount_eq_zero_iff, ← hacc]
  exact left_eq_add

def samplePacket (process : String) (bytes : UInt64) : PacketMessage :=
  ⟨process, "10.0.0.5:40000", "1.1.1.1:443", "TCP", bytes, 0, true⟩

def quietRun : List Event :=
  [.addOrUpdate (samplePacket "curl.exe" 100), .tick 1, .yieldEntry "curl.exe", .tryRemove,
    .addOrUpdate (samplePacket "curl.exe" 40), .buildAndSend true]

theorem bandwidth_conserved_iff_quiet : ∃ s, machine.run quietRun = some s ∧
    reported s.built "curl.exe" + held s.counters "curl.exe" = passed quietRun "curl.exe" := by
  refine ⟨_, rfl, (bandwidth_conserved_iff quietRun _ rfl trivial "curl.exe").mpr ?_⟩
  rw [← gapPackets_eq_nil_iff]
  decide

/-- One packet of 40 bytes arrives after the entry was read. -/
def lossyRun : List Event :=
  [.addOrUpdate (samplePacket "curl.exe" 100), .tick 1, .yieldEntry "curl.exe",
    .addOrUpdate (samplePacket "curl.exe" 40), .tryRemove, .buildAndSend true]

theorem bandwidth_lost : ∃ s, machine.run lossyRun = some s ∧ s.loop.BetweenBodies ∧
    reported s.built "curl.exe" + held s.counters "curl.exe" = (100, 1) ∧
    passed lossyRun "curl.exe" = (140, 2) :=
  ⟨_, rfl, trivial, by decide, by decide⟩

/-- The update that a step builds and sends. -/
def builds (s : State) : Event → List ProcessBandwidthUpdate
  | .buildAndSend _ =>
    match s.loop with
    | .removed now process metric => [bandwidthUpdate process metric now]
    | _ => []
  | _ => []

theorem built_step {s t : State} {e : Event} (hstep : step s e = some t) :
    t.built = s.built ++ builds s e := by
  cases e with
  | addOrUpdate packet =>
    cases hstep
    exact (List.append_nil _).symm
  | yieldEntry process =>
    simp only [step] at hstep
    split at hstep <;> cases hstep
    exact (List.append_nil _).symm
  | _ =>
    simp only [step] at hstep
    split at hstep <;> cases hstep
    all_goals
      rename_i hloop
      simp [builds, hloop]

/-- Adding packets builds no update. -/
theorem built_of_adds {packets : List PacketMessage} {s t : State}
    (h : (packets.map Event.addOrUpdate).foldlM step s = some t) : t.built = s.built := by
  induction packets generalizing s with
  | nil =>
    cases h
    rfl
  | cons packet packets ih =>
    rw [List.map_cons, List.foldlM_cons] at h
    obtain ⟨u, hu, hrest⟩ := Option.bind_eq_some_iff.mp h
    cases hu
    have hbuilt := ih hrest
    exact hbuilt

section Bounded

/-! A part of the amounts, bytes or packets, of which no packet adds less than nothing. -/

variable {part : ℤ × ℤ →+ ℤ}

def ProcessLoop.metric? : ProcessLoop → Option Metric
  | .yielded _ _ metric => some metric
  | .removed _ _ metric => some metric
  | _ => none

/-- No metric and no update shows less than nothing. -/
structure NonNeg (part : ℤ × ℤ →+ ℤ) (s : State) : Prop where
  counters : ∀ process metric, s.counters process = some metric → 0 ≤ part metric.amount
  loop : ∀ metric, s.loop.metric? = some metric → 0 ≤ part metric.amount
  built : ∀ u ∈ s.built, 0 ≤ part (u.bytesPerSecond, u.packetsPerSecond)

theorem NonNeg.held {s : State} (h : NonNeg part s) (process : String) :
    0 ≤ part (held s.counters process) := by
  unfold BandwidthCounters.held
  cases hentry : s.counters process with
  | none => simp
  | some metric => exact h.counters process metric hentry

theorem NonNeg.addOrUpdate {s : State} (h : NonNeg part s) {packet : PacketMessage}
    (hpacket : 0 ≤ part (packetAmount packet)) :
    NonNeg part { s with counters := addOrUpdate s.counters packet } := by
  refine ⟨?_, h.loop, h.built⟩
  intro process metric hentry
  have hheld := congrArg part (held_addOrUpdate s.counters packet process)
  have hvalue : BandwidthCounters.held (BandwidthCounters.addOrUpdate s.counters packet) process =
      metric.amount := congrArg (fun entry => entry.elim 0 Metric.amount) hentry
  rw [hvalue, map_add] at hheld
  rw [hheld]
  refine add_nonneg (h.held process) ?_
  split
  · exact hpacket
  · rw [map_zero]

theorem NonNeg.step {s t : State} {e : Event} (h : NonNeg part s) (hs : step s e = some t)
    (he : ∀ packet, e = .addOrUpdate packet → 0 ≤ part (packetAmount packet)) :
    NonNeg part t := by
  cases e with
  | addOrUpdate packet =>
    cases hs
    exact h.addOrUpdate (he packet rfl)
  | tick now =>
    simp only [BandwidthCounters.step] at hs
    split at hs <;> cases hs
    exact ⟨h.counters, nofun, h.built⟩
  | yieldEntry process =>
    simp only [BandwidthCounters.step] at hs
    split at hs <;> cases hs
    next now metric hloop hentry =>
      refine ⟨h.counters, ?_, h.built⟩
      rintro _ ⟨⟩
      exact h.counters process metric hentry
  | tryRemove =>
    simp only [BandwidthCounters.step] at hs
    split at hs <;> cases hs
    next now removed metric hloop =>
      refine ⟨?_, ?_, h.built⟩
      · intro process metric' hentry
        change tryRemove s.counters removed process = some metric' at hentry
        by_cases heq : process = removed
        · rw [tryRemove, heq, Function.update_self] at hentry
          cases hentry
        · rw [tryRemove, Function.update_of_ne heq] at hentry
          exact h.counters process metric' hentry
      · rintro _ ⟨⟩
        exact h.loop metric (by rw [hloop]; rfl)
  | buildAndSend sent =>
    simp only [BandwidthCounters.step] at hs
    split at hs <;> cases hs
    next now removed metric hloop =>
      refine ⟨h.counters, ?_, ?_⟩
      · cases sent <;> nofun
      · intro u hu
        rcases List.mem_append.mp hu with hold | hnew
        · exact h.built u hold
        · rw [List.mem_singleton.mp hnew]
          exact h.loop metric (by rw [hloop]; rfl)
  | endOfEnumeration =>
    simp only [BandwidthCounters.step] at hs
    split at hs <;> cases hs
    exact ⟨h.counters, nofun, h.built⟩
  | cancel =>
    simp only [BandwidthCounters.step] at hs
    split at hs <;> cases hs
    exact ⟨h.counters, nofun, h.built⟩

theorem nonNeg_run : ∀ es s, machine.run es = some s →
    (∀ packet, .addOrUpdate packet ∈ es → 0 ≤ part (packetAmount packet)) → NonNeg part s := by
  apply machine.run_induction fun es s =>
    (∀ packet, .addOrUpdate packet ∈ es → 0 ≤ part (packetAmount packet)) → NonNeg part s
  · intro _
    exact ⟨nofun, nofun, nofun⟩
  · intro es s e t _ hstep ih hpackets
    refine (ih fun packet hpacket => ?_).step hstep ?_
    · exact hpackets packet (List.mem_append_left _ hpacket)
    · rintro packet rfl
      exact hpackets packet (List.mem_append_right _ (List.mem_singleton_self _))

/-- What has been reported is part of what is accounted for. -/
theorem NonNeg.reported_le {s : State} (h : NonNeg part s) (process : String) :
    part (reported s.built process) ≤ part (accounted s process) := by
  unfold accounted
  rw [map_add]
  refine le_add_of_nonneg_right ?_
  have hheld := h.held process
  have hloop := h.loop
  split
  next now yielded metric heq =>
    split
    · exact hloop metric (by rw [heq]; rfl)
    · exact hheld
  next now removed metric heq =>
    rw [map_add]
    refine add_nonneg hheld ?_
    split
    · exact hloop metric (by rw [heq]; rfl)
    · rw [map_zero]
  next => exact hheld

theorem mem_of_gapPacket {es : List Event} {process : String} {x : State × Event}
    {packet : PacketMessage} (hx : x ∈ machine.steps es) (h : gapPacket process x = some packet) :
    .addOrUpdate packet ∈ es := by
  unfold gapPacket at h
  split at h
  next packet' now yielded metric he hloop =>
    split at h
    · cases h
      rw [← he]
      exact machine.mem_of_mem_steps hx
    · cases h
  next => cases h

/-- In every run no more is reported for a process than its packets amount to. -/
theorem reported_le_passed {es : List Event} {s : State} (hs : machine.run es = some s)
    (hpackets : ∀ packet, .addOrUpdate packet ∈ es → 0 ≤ part (packetAmount packet))
    (process : String) : part (reported s.built process) ≤ part (passed es process) := by
  have hgap : 0 ≤ part ((gapPackets es process).map packetAmount).sum := by
    rw [map_list_sum, List.map_map]
    refine List.sum_nonneg ?_
    intro x hx
    obtain ⟨packet, hpacket, rfl⟩ := List.mem_map.mp hx
    obtain ⟨y, hy, hgap⟩ := List.mem_filterMap.mp hpacket
    exact hpackets packet (mem_of_gapPacket hy hgap)
  rw [← accounted_run process es s hs, map_add]
  exact ((nonNeg_run es s hs hpackets).reported_le process).trans (le_add_of_nonneg_right hgap)

end Bounded

end AetherLens.BandwidthCounters
