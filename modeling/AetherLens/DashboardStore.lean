import AetherLens.Messages
import Mathlib.Data.List.Induction
import Mathlib.Data.List.Nodup

/-!
The state of the dashboard and its five setters. A batch of packets is put in
front of those held, as a whole and oldest first, and the list is cut at 500.
So what is dropped is the end of the oldest batch that does not fit, which
holds its newest packets.
-/
namespace AetherLens.DashboardStore

open Messages

structure SuspiciousOutboundConnection where
  process : String
  remoteAddress : String
  reason : String
  severity : String
  score : ℚ
  timestamp : ℤ
deriving DecidableEq, Repr

structure SystemHealthData where
  grpcConnected : Bool
  packetsPerSecond : ℚ
  avgLatencyMs : ℚ
  maxLatencyMs : ℚ
  uptime : String
deriving DecidableEq, Repr

structure AetherState where
  packets : List PacketUpdate
  processStats : List ProcessBandwidthUpdate
  anomalies : List SuspiciousOutboundConnection
  health : Option SystemHealthData
  connected : Bool
deriving DecidableEq, Repr

def AetherState.empty : AetherState := ⟨[], [], [], none, false⟩

def maxPackets : ℕ := 500

def maxProcesses : ℕ := 100

def maxAnomalies : ℕ := 50

namespace AetherState

def addPackets (packets : List PacketUpdate) (state : AetherState) : AetherState :=
  { state with packets := (packets ++ state.packets).take maxPackets }

def upsertProcess (process : ProcessBandwidthUpdate) (state : AetherState) : AetherState :=
  { state with
    processStats := (process :: state.processStats.filter fun p =>
      p.process ≠ process.process).take maxProcesses }

def addAnomaly (a : SuspiciousOutboundConnection) (state : AetherState) : AetherState :=
  { state with anomalies := (a :: state.anomalies).take maxAnomalies }

def setHealth (health : SystemHealthData) (state : AetherState) : AetherState :=
  { state with health := some health }

def setConnected (connected : Bool) (state : AetherState) : AetherState :=
  { state with connected := connected }

end AetherState

/-- The store after a sequence of `addPackets` calls, first call first. -/
def afterBatches (batches : List (List PacketUpdate)) : AetherState :=
  batches.foldl (fun state packets => state.addPackets packets) .empty

theorem afterBatches_snoc (batches : List (List PacketUpdate)) (packets : List PacketUpdate) :
    afterBatches (batches ++ [packets]) = (afterBatches batches).addPackets packets := by
  simp [afterBatches]

/-- Cutting twice is cutting once. -/
theorem take_append_take {α : Type*} (n : ℕ) (front rest : List α) :
    (front ++ rest.take n).take n = (front ++ rest).take n := by
  rw [List.take_append, List.take_append, List.take_take, Nat.min_eq_left (Nat.sub_le _ _)]

/-- The batches stand newest first and each of them oldest first. -/
theorem packets_afterBatches (batches : List (List PacketUpdate)) :
    (afterBatches batches).packets = batches.reverse.flatten.take maxPackets := by
  induction batches using List.reverseRecOn with
  | nil => rfl
  | append_singleton batches packets ih =>
    rw [afterBatches_snoc, AetherState.addPackets, ih, take_append_take, List.reverse_append]
    rfl

/-- The store holds the last packets received, as many as it can. -/
def HoldsNewest (batches : List (List PacketUpdate)) : Prop :=
  (afterBatches batches).packets.Perm
    (batches.flatten.drop (batches.flatten.length - min maxPackets batches.flatten.length))

section Limit

variable {batches before after : List (List PacketUpdate)} {cut : List PacketUpdate}

/-- The limit falls inside a batch: the later ones leave room for a part of it. -/
structure Cuts (batches before : List (List PacketUpdate)) (cut : List PacketUpdate)
    (after : List (List PacketUpdate)) : Prop where
  split : batches = before ++ cut :: after
  fits : after.flatten.length < maxPackets
  exceeds : maxPackets < after.flatten.length + cut.length

/-- Either the limit falls inside a batch, or what is kept are whole batches. -/
theorem limit_cases (batches : List (List PacketUpdate)) :
    (∃ before after, batches = before ++ after ∧ (after.flatten.length = maxPackets ∨
      before = [] ∧ after.flatten.length ≤ maxPackets)) ∨
    ∃ before cut after, Cuts batches before cut after := by
  induction batches with
  | nil => exact Or.inl ⟨[], [], rfl, Or.inr ⟨rfl, Nat.zero_le _⟩⟩
  | cons packets rest ih =>
    by_cases hroom : rest.flatten.length < maxPackets
    · by_cases hfits : packets.length + rest.flatten.length ≤ maxPackets
      · refine Or.inl ⟨[], packets :: rest, rfl, Or.inr ⟨rfl, ?_⟩⟩
        rw [List.flatten_cons, List.length_append]
        exact hfits
      · exact Or.inr ⟨[], packets, rest, rfl, hroom, by omega⟩
    · rcases ih with ⟨before, after, rfl, hwhole⟩ | ⟨before, cut, after, hcut⟩
      · refine Or.inl ⟨packets :: before, after, rfl, Or.inl ?_⟩
        rcases hwhole with hfull | ⟨rfl, hle⟩
        · exact hfull
        · rw [List.nil_append] at hroom
          omega
      · exact Or.inr ⟨packets :: before, cut, after, by rw [hcut.split]; rfl, hcut.fits,
          hcut.exceeds⟩

theorem flatten_reverse_perm (batches : List (List PacketUpdate)) :
    batches.reverse.flatten.Perm batches.flatten := (List.reverse_perm batches).flatten

theorem holdsNewest_of_whole (hsplit : batches = before ++ after)
    (hwhole : after.flatten.length = maxPackets ∨
      before = [] ∧ after.flatten.length ≤ maxPackets) : HoldsNewest batches := by
  have hperm := flatten_reverse_perm after
  have hlen := hperm.length_eq
  unfold HoldsNewest
  rw [packets_afterBatches, hsplit]
  rcases hwhole with hfull | ⟨rfl, hle⟩
  · have htake : (before ++ after).reverse.flatten.take maxPackets = after.reverse.flatten := by
      rw [List.reverse_append, List.flatten_append, List.take_left' (by omega)]
    have hdrop : (before ++ after).flatten.drop ((before ++ after).flatten.length -
        min maxPackets (before ++ after).flatten.length) = after.flatten := by
      rw [List.flatten_append, List.length_append]
      exact List.drop_left' (by omega)
    rw [htake, hdrop]
    exact hperm
  · rw [List.nil_append, List.take_of_length_le (by omega), Nat.min_eq_right hle, Nat.sub_self,
      List.drop_zero]
    exact hperm

/-- Of the batch that is cut the store keeps the first packets, not the last. -/
theorem holdsNewest_iff_of_cut (h : Cuts batches before cut after) :
    HoldsNewest batches ↔ (cut.take (maxPackets - after.flatten.length)).Perm
      (cut.drop (cut.length - (maxPackets - after.flatten.length))) := by
  obtain ⟨hsplit, hfits, hexceeds⟩ := h
  have hperm := flatten_reverse_perm after
  have hlen := hperm.length_eq
  have hstore : batches.reverse.flatten.take maxPackets =
      after.reverse.flatten ++ cut.take (maxPackets - after.flatten.length) := by
    have hreverse : batches.reverse.flatten =
        after.reverse.flatten ++ (cut ++ before.reverse.flatten) := by
      simp [hsplit]
    rw [hreverse, List.take_append, List.take_of_length_le (by omega), hlen,
      List.take_append_of_le_length (by omega)]
  have hnewest : batches.flatten.drop (batches.flatten.length -
      min maxPackets batches.flatten.length) =
        cut.drop (cut.length - (maxPackets - after.flatten.length)) ++ after.flatten := by
    have hflatten : batches.flatten = before.flatten ++ (cut ++ after.flatten) := by
      simp [hsplit]
    have hcount : batches.flatten.length - min maxPackets batches.flatten.length =
        before.flatten.length + (cut.length - (maxPackets - after.flatten.length)) := by
      rw [hflatten, List.length_append, List.length_append]
      omega
    rw [hcount, hflatten, List.drop_length_add_append,
      List.drop_append_of_le_length (by omega)]
  unfold HoldsNewest
  rw [packets_afterBatches, hstore, hnewest]
  constructor
  · intro h
    have hsame := (List.perm_append_comm.trans h).trans (hperm.symm.append_left _)
    exact (List.perm_append_right_iff _).mp hsame
  · intro h
    exact List.perm_append_comm.trans (h.append hperm)

/-- The first packets of a batch of distinct packets are not its last. -/
theorem not_perm_of_nodup {r : ℕ} (hnodup : cut.Nodup) (hpos : 0 < r) (hlt : r < cut.length) :
    ¬ (cut.take r).Perm (cut.drop (cut.length - r)) := by
  intro h
  obtain ⟨first, rest, rfl⟩ := List.exists_cons_of_length_pos (Nat.lt_trans hpos hlt)
  obtain ⟨k, rfl⟩ : ∃ k, r = k + 1 := ⟨r - 1, by omega⟩
  have hmem : first ∈ (first :: rest).take (k + 1) := by simp
  have hrest : first ∈ rest := by
    have hsplit : (first :: rest).length - (k + 1) = (rest.length - k - 1) + 1 := by
      rw [List.length_cons] at hlt ⊢
      omega
    have hlast := h.subset hmem
    rw [hsplit, List.drop_succ_cons] at hlast
    exact List.mem_of_mem_drop hlast
  exact (List.nodup_cons.mp hnodup).1 hrest

end Limit

/-- The store holds the newest packets exactly when the batch that the limit falls
inside, if there is one, starts with the packets it ends with. With distinct
packets there must be no such batch. -/
theorem holdsNewest_iff (batches : List (List PacketUpdate)) :
    (HoldsNewest batches ↔ ∀ before cut after, Cuts batches before cut after →
      (cut.take (maxPackets - after.flatten.length)).Perm
        (cut.drop (cut.length - (maxPackets - after.flatten.length)))) ∧
    (batches.flatten.Nodup → (HoldsNewest batches ↔ ∀ before cut after,
      ¬ Cuts batches before cut after)) := by
  have hwhole : (∀ before cut after, ¬ Cuts batches before cut after) → HoldsNewest batches := by
    intro hnone
    rcases limit_cases batches with ⟨before, after, hsplit, hwhole⟩ | ⟨before, cut, after, hcut⟩
    · exact holdsNewest_of_whole hsplit hwhole
    · exact absurd hcut (hnone before cut after)
  refine ⟨⟨?_, ?_⟩, fun hnodup => ⟨?_, hwhole⟩⟩
  · intro h before cut after hcut
    exact (holdsNewest_iff_of_cut hcut).mp h
  · intro h
    by_cases hnone : ∀ before cut after, ¬ Cuts batches before cut after
    · exact hwhole hnone
    · push Not at hnone
      obtain ⟨before, cut, after, hcut⟩ := hnone
      exact (holdsNewest_iff_of_cut hcut).mpr (h before cut after hcut)
  · intro h before cut after hcut
    obtain ⟨hsplit, hfits, hexceeds⟩ := hcut
    have hcutnodup : cut.Nodup := by
      have hmem : cut ∈ batches := by simp [hsplit]
      exact (List.nodup_flatten.mp hnodup).1 cut hmem
    exact not_perm_of_nodup hcutnodup (by omega) (by omega)
      ((holdsNewest_iff_of_cut ⟨hsplit, hfits, hexceeds⟩).mp h)

def packetAt (timestamp : Int64) : PacketUpdate :=
  ⟨"curl.exe", "10.0.0.5:40000", "1.1.1.1:443", "TCP", 64, true, timestamp, 0⟩

def laterPackets : List PacketUpdate := List.replicate 499 (packetAt 3)

/-- A batch of two packets and one of 499 later ones. -/
def crowdedBatches : List (List PacketUpdate) := [[packetAt 1, packetAt 2], laterPackets]

/-- The packet of time 1 stays and the one of time 2 is dropped. -/
theorem newer_packet_dropped :
    packetAt 1 ∈ (afterBatches crowdedBatches).packets ∧
      packetAt 2 ∉ (afterBatches crowdedBatches).packets ∧ ¬ HoldsNewest crowdedBatches := by
  have hlen : laterPackets.length = 499 := List.length_replicate
  have hlater : packetAt 2 ∉ laterPackets := by
    intro hmem
    have heq := List.eq_of_mem_replicate hmem
    revert heq
    decide
  have hcut : Cuts crowdedBatches [] [packetAt 1, packetAt 2] [laterPackets] :=
    ⟨rfl, by simp [hlen, maxPackets], by simp [hlen, maxPackets]⟩
  have hpackets : (afterBatches crowdedBatches).packets = laterPackets ++ [packetAt 1] := by
    rw [packets_afterBatches]
    simp [crowdedBatches, maxPackets, List.take_append, hlen, List.take_of_length_le]
  have hne : packetAt 2 ≠ packetAt 1 := by decide
  rw [hpackets, holdsNewest_iff_of_cut hcut]
  refine ⟨by simp, by simp [hlater, hne], ?_⟩
  simp only [List.flatten_cons, List.flatten_nil, List.append_nil, hlen]
  decide

end AetherLens.DashboardStore
