import AetherLens.EndToEnd
import Mathlib.Algebra.Order.Group.Nat

/-!
What the process statistics of a dashboard add up to. An entry may be removed with
packets in it that were not read, statistics may be lost with a connection, but nothing
is counted twice: for every process, what one dashboard has been told is at most what
was captured of it.
-/
namespace AetherLens.ReportedTraffic

open AetherDb (Db)
open BandwidthCounters DashboardReplay EndToEnd LiveSystem Messages NetworkMonitorHub

section Counted

variable {σ ι : Type} {source : Engine.Source σ ι} {db : Db} {es : List (LiveSystem.Event ι)}
  {s t : LiveSystem.State σ} {e : LiveSystem.Event ι}

/-- The packets that a step takes off the channel of the packet loop. -/
def takes (s : LiveSystem.State σ) : LiveSystem.Event ι → List PacketMessage
  | .packets e => PacketDelivery.takes s.packets e
  | _ => []

theorem taken_step (h : Steps source s e t) :
    t.packets.loop.taken = s.packets.loop.taken ++ takes s e := by
  have hpackets := h.packets
  cases e with
  | packets e => exact (PacketDelivery.histories_step (of_singleton hpackets)).2.1
  | _ =>
    rw [of_nil hpackets]
    exact (List.append_nil _).symm

theorem passedPackets_adds (packets : List PacketMessage) (process : String) :
    passedPackets (packets.map .addOrUpdate) process =
      packets.filter (·.process = process) := by
  rw [passedPackets, List.filterMap_map, ← List.filterMap_eq_filter]
  refine List.filterMap_congr fun packet _ => ?_
  simp [Option.guard]

/-- A step passes to the counters what it takes. -/
theorem passedPackets_step (h : Steps source s e t) (process : String) :
    passedPackets (counterEvents s e) process =
      (takes s e).filter (·.process = process) := by
  have hallowed := h.allowed
  cases e with
  | packets e => exact passedPackets_adds _ process
  | counters e => cases e <;> simp_all [allowed, counterEvents, passedPackets, takes]
  | _ => rfl

/-- The counters are passed what the packet loop takes. -/
theorem passedPackets_run (process : String) : ∀ (es : List (LiveSystem.Event ι))
    (s : LiveSystem.State σ), (LiveSystem.machine source db).run es = some s →
    passedPackets ((countersOf source db).eventsOf es) process =
      s.packets.loop.taken.filter (·.process = process) := by
  apply (LiveSystem.machine source db).run_induction fun es s =>
    passedPackets ((countersOf source db).eventsOf es) process =
      s.packets.loop.taken.filter (·.process = process)
  · rfl
  · intro es s e t hs hstep ih
    have hsteps := steps_of_step hstep
    have hevents := (countersOf source db).eventsOf_snoc hs e
    rw [hevents, passedPackets, List.filterMap_append, taken_step hsteps, List.filter_append,
      ← ih, ← passedPackets_step hsteps]
    rfl

/-- The captured packets of a process. -/
def capturedOf (s : LiveSystem.State σ) (process : String) : List CapturedPacket :=
  (captured s).filter (·.process = process)

/-- The packets of a process that are counted, a subsequence of those captured. -/
theorem counted_captured (hs : (LiveSystem.machine source db).run es = some s)
    (process : String) : ∃ packets : List CapturedPacket,
      packets.Sublist (capturedOf s process) ∧
      passedPackets ((countersOf source db).eventsOf es) process =
        packets.map CapturedPacket.toMessage := by
  obtain ⟨packets, hsublist, htaken⟩ := taken_captured hs
  refine ⟨packets.filter (·.process = process), hsublist.filter _, ?_⟩
  rw [passedPackets_run process es s hs, htaken, List.filter_map]
  rfl

theorem mem_captured_of_added (hs : (LiveSystem.machine source db).run es = some s)
    {packet : PacketMessage}
    (hpacket : .addOrUpdate packet ∈ (countersOf source db).eventsOf es) :
    ∃ p ∈ captured s, packet = p.toMessage := by
  obtain ⟨packets, hsublist, hpassed⟩ := counted_captured hs packet.process
  have hmem : packet ∈
      passedPackets ((countersOf source db).eventsOf es) packet.process :=
    List.mem_filterMap.mpr ⟨_, hpacket, if_pos rfl⟩
  rw [hpassed] at hmem
  obtain ⟨p, hp, rfl⟩ := List.mem_map.mp hmem
  exact ⟨p, (List.mem_filter.mp (hsublist.subset hp)).1, rfl⟩

/-- A dashboard is told a part of what the counters report. -/
theorem told_le_passed (hs : (LiveSystem.machine source db).run es = some s) {i : ℕ}
    {connection : Connection} (hi : s.hub.connections i = some connection)
    (part : ℤ × ℤ →+ ℤ) (hpart : ∀ p ∈ captured s, 0 ≤ part (packetAmount p.toMessage))
    (process : String) :
    part (reported (processesOf connection.delivered) process) ≤
      part (passed ((countersOf source db).eventsOf es) process) := by
  have hrun := (countersOf source db).run_eventsOf es s hs
  have hadded : ∀ packet, .addOrUpdate packet ∈ (countersOf source db).eventsOf es →
      0 ≤ part (packetAmount packet) := by
    intro packet hpacket
    obtain ⟨p, hp, rfl⟩ := mem_captured_of_added hs hpacket
    exact hpart p hp
  have hbuilt : (processesOf connection.delivered).Sublist s.counters.built := by
    rw [← (glued_run hs).processes]
    exact (delivered_sublist hs hi).filterMap _
  refine le_trans ?_ (reported_le_passed hrun hadded process)
  have hnonneg := (nonNeg_run _ _ hrun hadded).built
  rw [reported, reported, map_list_sum, map_list_sum, List.map_map, List.map_map]
  refine List.Sublist.sum_le_sum ((hbuilt.filter _).map _) ?_
  intro x hx
  obtain ⟨u, hu, rfl⟩ := List.mem_map.mp hx
  exact hnonneg u (List.mem_filter.mp hu).1

def bytesOf (packets : List CapturedPacket) : ℕ := (packets.map (·.bytes.toNat)).sum

theorem packets_passed (packets : List CapturedPacket) :
    (((packets.map CapturedPacket.toMessage).map packetAmount).sum).2 = packets.length := by
  induction packets with
  | nil => rfl
  | cons p packets ih =>
    rw [List.map_cons, List.map_cons, List.sum_cons, Prod.snd_add, ih, List.length_cons]
    change (1 : ℤ) + _ = _
    omega

theorem longBytes_toMessage {p : CapturedPacket} (h : p.bytes.toNat < 2 ^ 63) :
    longBytes p.toMessage = p.bytes.toNat := PacketDelivery.toInt_toInt64 h

theorem bytes_passed {packets : List CapturedPacket}
    (h : ∀ p ∈ packets, p.bytes.toNat < 2 ^ 63) :
    (((packets.map CapturedPacket.toMessage).map packetAmount).sum).1 = bytesOf packets := by
  induction packets with
  | nil => rfl
  | cons p packets ih =>
    rw [List.map_cons, List.map_cons, List.sum_cons, Prod.fst_add,
      ih fun q hq => h q (List.mem_cons_of_mem p hq)]
    change longBytes p.toMessage + _ = _
    rw [longBytes_toMessage (h p List.mem_cons_self)]
    simp [bytesOf]

theorem bytesOf_sublist {xs ys : List CapturedPacket} (h : xs.Sublist ys) :
    bytesOf xs ≤ bytesOf ys :=
  (h.map _).sum_le_sum fun _ _ => Nat.zero_le _

/-- In every run of the system, whatever order its parts take their steps in, one
dashboard is told for a process of no more packets than were captured of it. While all
captured bytes fit a `long`, the same is true of bytes. -/
theorem never_overreported (hs : (LiveSystem.machine source db).run es = some s) (i : ℕ)
    (connection : Connection) (hi : s.hub.connections i = some connection)
    (process : String) :
    (reported (processesOf connection.delivered) process).2 ≤ (capturedOf s process).length ∧
      (bytesOf (captured s) < 2 ^ 63 →
        (reported (processesOf connection.delivered) process).1 ≤
          bytesOf (capturedOf s process)) := by
  obtain ⟨packets, hsublist, hpassed⟩ := counted_captured hs process
  constructor
  · have htold := told_le_passed hs hi (AddMonoidHom.snd ℤ ℤ)
      (fun _ _ => Int.one_nonneg) process
    change (_ : ℤ × ℤ).2 ≤ (_ : ℤ × ℤ).2 at htold
    rw [passed, hpassed, packets_passed] at htold
    exact htold.trans (by exact_mod_cast hsublist.length_le)
  · intro hbytes
    have hfits : ∀ p ∈ captured s, p.bytes.toNat < 2 ^ 63 := fun p hp =>
      (List.single_le_sum (fun _ _ => Nat.zero_le _) _ (List.mem_map_of_mem hp)).trans_lt hbytes
    have hnonneg : ∀ p ∈ captured s, 0 ≤ longBytes p.toMessage := by
      intro p hp
      rw [longBytes_toMessage (hfits p hp)]
      exact Int.natCast_nonneg _
    have htold := told_le_passed hs hi (AddMonoidHom.fst ℤ ℤ) hnonneg process
    change (_ : ℤ × ℤ).1 ≤ (_ : ℤ × ℤ).1 at htold
    rw [passed, hpassed, bytes_passed fun p hp =>
      hfits p (List.mem_filter.mp (hsublist.subset hp)).1] at htold
    exact htold.trans (by exact_mod_cast bytesOf_sublist hsublist)

end Counted

/-- The packet is counted, its entry is reported, and a dashboard is told. -/
def tickRun : List (LiveSystem.Event (CapturedPacket × Option SuspiciousConnection)) :=
  telnetRun ++ [.counters (.tick 1006), .counters (.yieldEntry "putty.exe"),
    .counters .tryRemove, .counters (.buildAndSend true), .hub (.deliver 0)]

theorem never_overreported_tick : ∃ s connection, liveOverEmpty.run tickRun = some s ∧
    s.hub.connections 0 = some connection ∧
    reported (processesOf connection.delivered) "putty.exe" = (60, 1) ∧
    (reported (processesOf connection.delivered) "putty.exe").2 ≤
        (capturedOf s "putty.exe").length ∧
      (bytesOf (captured s) < 2 ^ 63 →
        (reported (processesOf connection.delivered) "putty.exe").1 ≤
          bytesOf (capturedOf s "putty.exe")) := by
  obtain ⟨s, connection, hs, hi, htold⟩ : ∃ s connection,
      liveOverEmpty.run tickRun = some s ∧ s.hub.connections 0 = some connection ∧
      reported (processesOf connection.delivered) "putty.exe" = (60, 1) :=
    ⟨_, _, rfl, rfl, rfl⟩
  exact ⟨s, connection, hs, hi, htold, never_overreported hs 0 connection hi "putty.exe"⟩

end AetherLens.ReportedTraffic
