import AetherLens.DashboardReplay
import AetherLens.KeyedValues
import AetherLens.NumberText
import Mathlib.Algebra.GroupWithZero.Nat

/-!
What the components of the dashboard make of the store. The protocol chart counts the
packets under four names, and every packet is in one slice. The throughput chart holds the
latest readings of the rate. The two lists give each entry a key, and no two entries of a
list have the same.
-/
namespace AetherLens.DashboardWidgets

open DashboardReplay DashboardStore KeyedValues Messages NetworkMonitorHub NumberText
open RecentlyUsed

section Chart

variable (upper : String → String)

def protocolNames : List String := ["TCP", "UDP", "ICMP", "OTHER"]

/-- An empty text is falsy. -/
def proto (p : PacketUpdate) : String :=
  if upper p.protocol = "" then "OTHER" else upper p.protocol

/-- One round of the loop over the packets. -/
def countPacket (counts : List (String × ℕ)) (p : PacketUpdate) : List (String × ℕ) :=
  match valueAt (proto upper p) counts with
  | some n => setAt (proto upper p) (n + 1) counts
  | none => setAt "OTHER" ((valueAt "OTHER" counts).getD 0 + 1) counts

def protocolCounts (packets : List PacketUpdate) : List (String × ℕ) :=
  packets.foldl (countPacket upper) (protocolNames.map fun name => (name, 0))

/-- The slices of the chart, less their colors. -/
def chartData (packets : List PacketUpdate) : List (String × ℕ) :=
  (protocolCounts upper packets).filter fun slice => 0 < slice.2

/-- The name under which a packet is counted. -/
def sliceOf (p : PacketUpdate) : String :=
  if proto upper p ∈ protocolNames then proto upper p else "OTHER"

/-- The counters of the packets so far, in their fixed order. -/
def countsOf (packets : List PacketUpdate) : List (String × ℕ) :=
  protocolNames.map fun name => (name, packets.countP fun p => sliceOf upper p = name)

theorem sliceOf_mem (p : PacketUpdate) : sliceOf upper p ∈ protocolNames := by
  unfold sliceOf
  split
  next h => exact h
  next => decide

/-- The loop counts a packet under its name. -/
theorem countPacket_countsOf (packets : List PacketUpdate) (p : PacketUpdate) :
    countPacket upper (countsOf upper packets) p = countsOf upper (packets ++ [p]) := by
  have hadd : countsOf upper (packets ++ [p]) = setAt (sliceOf upper p)
      ((packets.countP fun q => sliceOf upper q = sliceOf upper p) + 1)
        (countsOf upper packets) := by
    rw [countsOf, countsOf, setAt_map (by decide) _ (sliceOf_mem upper p)]
    refine List.map_congr_left ?_
    intro name _
    rw [List.countP_append, List.countP_singleton]
    by_cases hname : name = sliceOf upper p
    · simp [hname]
    · simp [hname, Ne.symm hname]
  have hother : "OTHER" ∈ protocolNames := by decide
  rw [hadd, countPacket, countsOf, valueAt_map, valueAt_map, if_pos hother, Option.getD_some]
  by_cases hknown : proto upper p ∈ protocolNames
  · rw [if_pos hknown, sliceOf, if_pos hknown]
  · rw [if_neg hknown, sliceOf, if_neg hknown]

theorem protocolCounts_eq (packets : List PacketUpdate) :
    protocolCounts upper packets = countsOf upper packets := by
  induction packets using List.reverseRecOn with
  | nil => rfl
  | append_singleton packets p ih =>
    rw [← countPacket_countsOf, ← ih, protocolCounts, List.foldl_append]
    rfl

theorem sum_countsOf (packets : List PacketUpdate) :
    ((countsOf upper packets).map Prod.snd).sum = packets.length := by
  induction packets with
  | nil => rfl
  | cons p packets ih =>
    have hslice := sliceOf_mem upper p
    simp only [countsOf, protocolNames, List.map_cons, List.map_nil, List.sum_cons, List.sum_nil,
      List.countP_cons, List.length_cons] at ih ⊢
    simp only [protocolNames, List.mem_cons, List.not_mem_nil, or_false] at hslice
    rcases hslice with h | h | h | h
    · simp [h] at ih ⊢
      omega
    · simp [h] at ih ⊢
      omega
    · simp [h] at ih ⊢
      omega
    · simp [h] at ih ⊢
      omega

theorem sum_filter_pos (slices : List (String × ℕ)) :
    ((slices.filter fun slice => 0 < slice.2).map Prod.snd).sum = (slices.map Prod.snd).sum := by
  induction slices with
  | nil => rfl
  | cons slice slices ih =>
    by_cases hpos : 0 < slice.2
    · simp [hpos, ih]
    · simp [ih, Nat.eq_zero_of_not_pos hpos]

/-- The slices are those of the names that occur, and every packet is in one. -/
structure Partitions (slices : List (String × ℕ)) (packets : List PacketUpdate) : Prop where
  names_sublist : (slices.map Prod.fst).Sublist protocolNames
  mem_iff : ∀ name n, (name, n) ∈ slices ↔
    0 < n ∧ name ∈ protocolNames ∧ n = packets.countP fun p => sliceOf upper p = name
  sum_eq : (slices.map Prod.snd).sum = packets.length

/-- The chart has a slice for each of the four names under which a packet on the screen is
counted, with the number of these packets, and together they are all packets. -/
theorem chart_partitions (packets : List PacketUpdate) :
    Partitions upper (chartData upper packets) packets where
  names_sublist := by
    have hnames : (countsOf upper packets).map Prod.fst = protocolNames := rfl
    rw [chartData, protocolCounts_eq, ← hnames]
    exact List.filter_sublist.map Prod.fst
  mem_iff := by
    intro name n
    rw [chartData, protocolCounts_eq, List.mem_filter, countsOf, List.mem_map]
    constructor
    · rintro ⟨⟨other, hother, heq⟩, hpos⟩
      cases heq
      exact ⟨of_decide_eq_true hpos, hother, rfl⟩
    · rintro ⟨hpos, hname, rfl⟩
      exact ⟨⟨name, hname, rfl⟩, decide_eq_true hpos⟩
  sum_eq := by rw [chartData, sum_filter_pos, protocolCounts_eq, sum_countsOf]

end Chart

section Traffic

structure DataPoint where
  time : String
  pps : ℚ
deriving DecidableEq, Repr

def chartWidth : ℕ := 20

/-- What the chart is filled with at first. -/
def initialData : List DataPoint := List.replicate chartWidth ⟨"", 0⟩

def push (prev : List DataPoint) (point : DataPoint) : List DataPoint :=
  let next := prev ++ [point]
  if chartWidth < next.length then next.drop (next.length - chartWidth) else next

/-- What the chart sees: messages that go into the store, and ticks of its own timer. -/
inductive ChartEvent
  | message (message : HubMessage)
  | tick (time : String)

/-- A tick reads the rate from the store, and zero while there is no report. -/
def chartStep (s : AetherState × List DataPoint) : ChartEvent → AetherState × List DataPoint
  | .message message => (replay s.1 [message], s.2)
  | .tick time =>
    (s.1, push s.2 ⟨time, (s.1.health.map SystemHealthData.packetsPerSecond).getD 0⟩)

/-- The rate in the newest report, or zero. -/
def rateAfter (messages : List HubMessage) : ℚ :=
  ((healthOf messages).getLast?.map SystemHealthData.packetsPerSecond).getD 0

/-- The readings of the ticks, after the messages seen before. -/
def readings (seen : List HubMessage) : List ChartEvent → List DataPoint
  | [] => []
  | .message message :: es => readings (seen ++ [message]) es
  | .tick time :: es => ⟨time, rateAfter seen⟩ :: readings seen es

/-- A full chart gives up its oldest point for a new one. -/
theorem push_eq_tail {data : List DataPoint} (h : data.length = chartWidth) (point : DataPoint) :
    push data point = data.tail ++ [point] := by
  have hpos : data ≠ [] := by
    rintro rfl
    cases h
  rw [push, List.length_append, h, List.length_singleton, if_pos (Nat.lt_succ_self _),
    Nat.add_sub_cancel_left, List.drop_one, List.tail_append_of_ne_nil hpos]

theorem foldl_push {data : List DataPoint} (h : data.length = chartWidth)
    (points : List DataPoint) :
    points.foldl push data = (data ++ points).drop points.length := by
  induction points generalizing data with
  | nil => simp
  | cons point rest ih =>
    obtain ⟨first, later, rfl⟩ : ∃ first later, data = first :: later :=
      List.exists_cons_of_ne_nil (by rintro rfl; cases h)
    have hlength : (later ++ [point]).length = chartWidth := by
      rw [List.length_append, List.length_singleton, ← h, List.length_cons]
    rw [List.foldl_cons, push_eq_tail h, List.tail_cons, ih hlength]
    simp

theorem health_replay (messages : List HubMessage) :
    (replay .empty messages).health = (healthOf messages).getLast? := by
  rw [replay_eq_view valid_empty]
  exact Option.or_none

theorem foldl_chartStep (seen : List HubMessage) (data : List DataPoint)
    (es : List ChartEvent) : (es.foldl chartStep (replay .empty seen, data)).2 =
      (readings seen es).foldl push data := by
  induction es generalizing seen data with
  | nil => rfl
  | cons e es ih =>
    rw [List.foldl_cons]
    cases e with
    | message message =>
      rw [chartStep, readings, ← ih]
      simp [replay]
    | tick time =>
      rw [chartStep, readings, List.foldl_cons, ← ih, health_replay]
      rfl

/-- However messages and ticks interleave, the chart shows the latest twenty readings, each
the rate of the newest report before its tick, behind the zeros that are left. -/
theorem chart_shows_latest (es : List ChartEvent) :
    (es.foldl chartStep (.empty, initialData)).2 =
      (initialData ++ readings [] es).drop (readings [] es).length := by
  have hlength : initialData.length = chartWidth := List.length_replicate
  rw [← foldl_push hlength]
  exact foldl_chartStep [] initialData es

end Traffic

section Keys

/-- An integer in a template. -/
def integerText (z : ℤ) : List Char := if z < 0 then '-' :: decimal z.natAbs else decimal z.natAbs

def anomalyKey (i : ℕ) (a : SuspiciousOutboundConnection) : List Char :=
  integerText a.timestamp ++ '-' :: (a.reason.toList ++ '-' :: decimal i)

def maxVisible : ℕ := 15

/-- The keys of the entries that the feed shows. -/
def anomalyKeys (anomalies : List SuspiciousOutboundConnection) : List (List Char) :=
  (anomalies.take maxVisible).mapIdx anomalyKey

def processKey (p : ProcessBandwidthUpdate) : List Char :=
  p.process.toList ++ '-' :: integerText p.timestamp

theorem dash_notMem_decimal (n : ℕ) : '-' ∉ decimal n := by
  have hdigits : ∀ d : Fin 10, '-' ≠ Nat.digitChar d.val := by decide
  intro hmem
  obtain ⟨d, hd, heq⟩ := mem_toDigits (by omega) hmem
  exact hdigits ⟨d, hd⟩ heq

theorem anomalyKey_injective {i j : ℕ} {a b : SuspiciousOutboundConnection}
    (h : anomalyKey i a = anomalyKey j b) : i = j := by
  have hlast : ∀ (k : ℕ) (c : SuspiciousOutboundConnection),
      anomalyKey k c = (integerText c.timestamp ++ '-' :: c.reason.toList) ++ '-' :: decimal k := by
    intro k c
    simp [anomalyKey]
  rw [hlast i a, hlast j b] at h
  exact decimal_injective (eq_of_append_cons_eq h (dash_notMem_decimal i) (dash_notMem_decimal j)).2

theorem nodup_anomalyKeys (anomalies : List SuspiciousOutboundConnection) :
    (anomalyKeys anomalies).Nodup := by
  rw [anomalyKeys, List.Nodup, List.pairwise_iff_getElem]
  intro i j hi hj hij heq
  rw [List.getElem_mapIdx, List.getElem_mapIdx] at heq
  exact hij.ne (anomalyKey_injective heq)

/-- The times are not before the epoch, so that a text is one of process and time. -/
theorem processKey_injective {p q : ProcessBandwidthUpdate} (hp : 0 ≤ p.timestamp)
    (hq : 0 ≤ q.timestamp) (h : processKey p = processKey q) : p.process = q.process := by
  have htext : ∀ z : ℤ, 0 ≤ z → integerText z = decimal z.natAbs := by
    intro z hz
    rw [integerText, if_neg (by omega)]
  rw [processKey, processKey, htext _ hp, htext _ hq] at h
  exact String.toList_inj.mp
    (eq_of_append_cons_eq h (dash_notMem_decimal _) (dash_notMem_decimal _)).1

theorem nodup_processKeys {processStats : List ProcessBandwidthUpdate}
    (hnodup : (processStats.map ProcessBandwidthUpdate.process).Nodup)
    (htimes : ∀ p ∈ processStats, 0 ≤ p.timestamp) : (processStats.map processKey).Nodup := by
  refine List.Nodup.map_on ?_ hnodup.of_map
  intro p hp q hq hkey
  exact List.inj_on_of_nodup_map hnodup hp hq
    (processKey_injective (htimes p hp) (htimes q hq) hkey)

end Keys

theorem mem_processStats (messages : List HubMessage) {p : ProcessBandwidthUpdate}
    (h : p ∈ (replay .empty messages).processStats) : p ∈ processesOf messages := by
  rw [replay_eq_view valid_empty] at h
  obtain ⟨before, after, hsplit, _⟩ :=
    split_of_mem_firstPerKey ProcessBandwidthUpdate.process (List.mem_of_mem_take h)
  have hmem : p ∈ (processesOf messages).reverse ++ AetherState.empty.processStats := by
    simp [hsplit]
  simpa [AetherState.empty] using hmem

/-- Whatever a dashboard has been sent, no two entries of a list have one key. -/
theorem keys_nodup (messages : List HubMessage)
    (htimes : ∀ p ∈ processesOf messages, 0 ≤ p.timestamp) :
    (anomalyKeys (replay .empty messages).anomalies).Nodup ∧
      ((replay .empty messages).processStats.map processKey).Nodup :=
  ⟨nodup_anomalyKeys _, nodup_processKeys (valid_empty.replay messages).processStats_nodup
    fun p hp => htimes p (mem_processStats messages hp)⟩

/-- Two processes of one time. -/
def twoProcesses : List HubMessage :=
  [.receiveProcessStats ⟨"curl.exe", 60, 1, "TCP", 2, "LOW"⟩,
    .receiveProcessStats ⟨"dns.exe", 40, 1, "UDP", 2, "LOW"⟩]

theorem keys_nodup_two :
    (anomalyKeys (replay .empty twoProcesses).anomalies).Nodup ∧
      ((replay .empty twoProcesses).processStats.map processKey).Nodup :=
  keys_nodup twoProcesses (by simp [twoProcesses, processesOf])

end AetherLens.DashboardWidgets
