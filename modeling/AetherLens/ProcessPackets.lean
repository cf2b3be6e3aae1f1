import AetherLens.LatencyArithmetic
import AetherLens.TumblingWindows
import Mathlib.Algebra.GroupWithZero.Nat
import Mathlib.Algebra.Order.BigOperators.Group.List
import Mathlib.Algebra.Order.Group.Nat

/-!
The task of the engine that passes packets on, with what it counts on the way. Every
500 packets it writes a line about the 500 and starts its latencies over; the counts of
packets and bytes go on. The counters are 64 bits wide and wrap.
-/
namespace AetherLens.ProcessPackets

open LatencyArithmetic (saturatingSub)
open Messages TumblingWindows

def processingLine (localAddr remoteAddr : String) : String :=
  "[core-engine] Processing packet: " ++ localAddr ++ " -> " ++ remoteAddr

def totalsLine (packets bytes avg max : UInt64) : String :=
  "[aether_core] packets=" ++ toString packets ++ " bytes=" ++ toString bytes ++
    " capture_to_ui_avg=" ++ toString avg ++ "ms max=" ++ toString max ++ "ms"

/-- `lines` and `sent` are history: what was written to the error stream, and the messages
given to the broadcast. -/
structure Loop where
  packetCount : UInt64
  totalBytes : UInt64
  latencySum : UInt64
  latencyMax : UInt64
  lines : List String
  sent : List PacketMessage

def Loop.start : Loop := ⟨0, 0, 0, 0, [], []⟩

/-- The body of the loop, for a packet and the clock at which it is received. -/
def Loop.receive (s : Loop) (nowMs : UInt64) (p : CapturedPacket) : Loop :=
  let opening := if s.packetCount % 500 = 0 then [processingLine p.localAddr p.remoteAddr] else []
  let latency := saturatingSub nowMs p.timestamp
  let latencySum := s.latencySum + latency
  let latencyMax := max s.latencyMax latency
  let packetCount := s.packetCount + 1
  let totalBytes := s.totalBytes + p.bytes
  if packetCount % 500 = 0 then
    { packetCount := packetCount
      totalBytes := totalBytes
      latencySum := 0
      latencyMax := 0
      lines := s.lines ++ opening ++
        [totalsLine packetCount totalBytes (latencySum / 500) latencyMax]
      sent := s.sent ++ [p.toMessage] }
  else
    { packetCount := packetCount
      totalBytes := totalBytes
      latencySum := latencySum
      latencyMax := latencyMax
      lines := s.lines ++ opening
      sent := s.sent ++ [p.toMessage] }

/-- A packet with the clock at which it is received. -/
abbrev Received := UInt64 × CapturedPacket

def processPackets (received : List Received) : Loop :=
  received.foldl (fun s x => s.receive x.1 x.2) .start

section Windows

/-- The latencies in exact numbers. -/
def latencies (received : List Received) : List ℕ :=
  received.map fun x => x.1.toNat - x.2.timestamp.toNat

def bytesOf (received : List Received) : ℕ := (received.map fun x => x.2.bytes.toNat).sum

def openingLine : List Received → List String
  | [] => []
  | x :: _ => [processingLine x.2.localAddr x.2.remoteAddr]

/-- The line about a window, after all that came up to its end. -/
def closingLine (upTo window : List Received) : String :=
  totalsLine (.ofNat upTo.length) (.ofNat (bytesOf upTo))
    (.ofNat ((latencies window).sum / 500)) (.ofNat ((latencies window).foldl max 0))

def windowLines (w : List Received × List Received) : List String :=
  openingLine w.2 ++ [closingLine w.1 w.2]

end Windows

theorem toNat_latency (nowMs timestamp : UInt64) :
    (saturatingSub nowMs timestamp).toNat = nowMs.toNat - timestamp.toNat := by
  unfold saturatingSub
  split
  next h => exact UInt64.toNat_sub_of_le _ _ h
  next h =>
    rw [UInt64.le_iff_toNat_le] at h
    exact (Nat.sub_eq_zero_of_le (by omega)).symm

theorem toNat_max (a b : UInt64) : (max a b).toNat = max a.toNat b.toNat := by
  change (if a ≤ b then b else a).toNat = _
  split
  next h => exact (Nat.max_eq_right (UInt64.le_iff_toNat_le.mp h)).symm
  next h =>
    rw [UInt64.le_iff_toNat_le] at h
    exact (Nat.max_eq_left (by omega)).symm

theorem mod_eq_zero_iff (n : UInt64) : n % 500 = 0 ↔ 500 ∣ n.toNat := by
  rw [← UInt64.toNat_inj, UInt64.toNat_mod]
  exact (Nat.dvd_iff_mod_eq_zero).symm

theorem latencies_snoc (received : List Received) (x : Received) :
    latencies (received ++ [x]) = latencies received ++ [x.1.toNat - x.2.timestamp.toNat] := by
  simp [latencies]

/-- The latencies of at most 500 packets fit in the sum when the clock is not too late. -/
theorem sum_latencies_lt (received : List Received) (hlen : received.length ≤ 500)
    (hclock : ∀ x ∈ received, x.1.toNat ≤ 2 ^ 55) : (latencies received).sum < 2 ^ 64 := by
  have hle : (latencies received).sum ≤ (latencies received).length * 2 ^ 55 := by
    refine List.sum_le_card_nsmul _ _ ?_
    intro l hl
    obtain ⟨x, hx, rfl⟩ := List.mem_map.mp hl
    have := hclock x hx
    omega
  rw [latencies, List.length_map] at hle
  change (latencies received).sum ≤ _ at hle
  omega

/-- What the loop knows after the packets received. -/
structure Inv (received : List Received) (s : Loop) : Prop where
  packetCount_eq : s.packetCount.toNat = received.length
  totalBytes_eq : s.totalBytes = .ofNat (bytesOf received)
  latencySum_eq : s.latencySum.toNat = (latencies (rest 500 received)).sum
  latencyMax_eq : s.latencyMax.toNat = (latencies (rest 500 received)).foldl max 0
  lines_eq : s.lines =
    (windows 500 received).flatMap windowLines ++ openingLine (rest 500 received)
  sent_eq : s.sent = received.map fun x => x.2.toMessage

theorem inv_start : Inv [] .start where
  packetCount_eq := rfl
  totalBytes_eq := rfl
  latencySum_eq := by rw [rest_nil]; rfl
  latencyMax_eq := by rw [rest_nil]; rfl
  lines_eq := by rw [windows_nil, rest_nil]; rfl
  sent_eq := rfl

/-- A packet opens a window exactly when none is open. -/
theorem Inv.opening {received : List Received} {s : Loop} (h : Inv received s) (x : Received) :
    openingLine (rest 500 received) ++
        (if s.packetCount % 500 = 0 then [processingLine x.2.localAddr x.2.remoteAddr] else []) =
      openingLine (rest 500 received ++ [x]) := by
  have hlen := length_rest 500 received
  have hopen : s.packetCount % 500 = 0 ↔ rest 500 received = [] := by
    rw [mod_eq_zero_iff, h.packetCount_eq, Nat.dvd_iff_mod_eq_zero, ← hlen,
      List.length_eq_zero_iff]
  cases hrest : rest 500 received with
  | nil =>
    rw [if_pos (hopen.mpr hrest)]
    rfl
  | cons y ys =>
    have hinside : s.packetCount % 500 ≠ 0 := by
      intro hzero
      rw [hopen.mp hzero] at hrest
      cases hrest
    rw [if_neg hinside, List.append_nil]
    rfl

theorem Inv.receive {received : List Received} {s : Loop} (h : Inv received s) (x : Received)
    (hcount : (received ++ [x]).length < 2 ^ 64)
    (hclock : ∀ y ∈ received ++ [x], y.1.toNat ≤ 2 ^ 55) :
    Inv (received ++ [x]) (s.receive x.1 x.2) := by
  have hlen := length_rest 500 received
  rw [List.length_append, List.length_singleton] at hcount
  have hpacketCount : (s.packetCount + 1).toNat = received.length + 1 := by
    rw [UInt64.toNat_add, h.packetCount_eq]
    exact Nat.mod_eq_of_lt hcount
  have htotalBytes : s.totalBytes + x.2.bytes = .ofNat (bytesOf (received ++ [x])) := by
    rw [h.totalBytes_eq, bytesOf, bytesOf, List.map_append, List.sum_append, UInt64.ofNat_add]
    simp
  have hopenWindow : ∀ y ∈ rest 500 received ++ [x], y ∈ received ++ [x] := by
    intro y hy
    rcases List.mem_append.mp hy with hold | hnew
    · exact List.mem_append_left _ (List.mem_of_mem_drop hold)
    · exact List.mem_append_right _ hnew
  have hsum : (s.latencySum + saturatingSub x.1 x.2.timestamp).toNat =
      (latencies (rest 500 received ++ [x])).sum := by
    have hlt := sum_latencies_lt (rest 500 received ++ [x])
      (by rw [List.length_append, List.length_singleton]; omega)
      fun y hy => hclock y (hopenWindow y hy)
    rw [latencies_snoc, List.sum_append, List.sum_singleton] at hlt ⊢
    rw [UInt64.toNat_add, h.latencySum_eq, toNat_latency]
    exact Nat.mod_eq_of_lt hlt
  have hmax : (max s.latencyMax (saturatingSub x.1 x.2.timestamp)).toNat =
      (latencies (rest 500 received ++ [x])).foldl max 0 := by
    rw [latencies_snoc, List.foldl_append, toNat_max, h.latencyMax_eq, toNat_latency]
    rfl
  have hsent : s.sent ++ [x.2.toMessage] = (received ++ [x]).map fun y => y.2.toMessage := by
    rw [h.sent_eq, List.map_append]
    rfl
  have hopening := h.opening x
  by_cases hcloses : 500 ∣ received.length + 1
  · have hfull : (s.packetCount + 1) % 500 = 0 := by
      rw [mod_eq_zero_iff, hpacketCount]
      exact hcloses
    have hclosing : totalsLine (s.packetCount + 1) (s.totalBytes + x.2.bytes)
        ((s.latencySum + saturatingSub x.1 x.2.timestamp) / 500)
        (max s.latencyMax (saturatingSub x.1 x.2.timestamp)) =
          closingLine (received ++ [x]) (rest 500 received ++ [x]) := by
      have hcountEq : s.packetCount + 1 = .ofNat (received ++ [x]).length := by
        rw [← UInt64.ofNat_toNat (x := s.packetCount + 1), hpacketCount, List.length_append,
          List.length_singleton]
      have havg : (s.latencySum + saturatingSub x.1 x.2.timestamp) / 500 =
          .ofNat ((latencies (rest 500 received ++ [x])).sum / 500) := by
        rw [← hsum]
        exact (UInt64.ofNat_toNat (x := _ / _)).symm
      rw [closingLine, ← hmax, UInt64.ofNat_toNat, ← havg, ← hcountEq, ← htotalBytes]
    rw [Loop.receive, if_pos hfull]
    refine ⟨?_, htotalBytes, ?_, ?_, ?_, hsent⟩
    · rw [hpacketCount, List.length_append, List.length_singleton]
    · rw [rest_snoc_of_dvd x hcloses]
      rfl
    · rw [rest_snoc_of_dvd x hcloses]
      rfl
    · rw [windows_snoc_of_dvd x hcloses, rest_snoc_of_dvd x hcloses, List.flatMap_append,
        List.flatMap_singleton, windowLines, ← hopening, ← hclosing, h.lines_eq]
      simp only [openingLine, List.append_assoc, List.append_nil]
  · have hopen : (s.packetCount + 1) % 500 ≠ 0 := by
      rw [Ne, mod_eq_zero_iff, hpacketCount]
      exact hcloses
    rw [Loop.receive, if_neg hopen]
    refine ⟨?_, htotalBytes, ?_, ?_, ?_, hsent⟩
    · rw [hpacketCount, List.length_append, List.length_singleton]
    · rw [rest_snoc_of_not_dvd x hcloses]
      exact hsum
    · rw [rest_snoc_of_not_dvd x hcloses]
      exact hmax
    · rw [windows_snoc_of_not_dvd x hcloses, rest_snoc_of_not_dvd x hcloses, ← hopening,
        h.lines_eq, List.append_assoc]

theorem inv_processPackets {received : List Received} (hcount : received.length < 2 ^ 64)
    (hclock : ∀ x ∈ received, x.1.toNat ≤ 2 ^ 55) : Inv received (processPackets received) := by
  induction received using List.reverseRecOn with
  | nil => exact inv_start
  | append_singleton received x ih =>
    rw [processPackets, List.foldl_append]
    refine Inv.receive (ih ?_ ?_) x hcount hclock
    · rw [List.length_append] at hcount
      omega
    · exact fun y hy => hclock y (List.mem_append_left _ hy)

/-- The lines go window by window: each opens with its first packet, and closes with the
counts of all packets and bytes so far and the mean and maximum of its own latencies. Every
packet is passed on once, in order. -/
theorem lines_by_window {received : List Received} (hcount : received.length < 2 ^ 64)
    (hclock : ∀ x ∈ received, x.1.toNat ≤ 2 ^ 55) :
    (processPackets received).lines =
        (windows 500 received).flatMap windowLines ++ openingLine (rest 500 received) ∧
      (processPackets received).sent = received.map fun x => x.2.toMessage :=
  ⟨(inv_processPackets hcount hclock).lines_eq, (inv_processPackets hcount hclock).sent_eq⟩

/-- A window of packets that are 30 ms old, and one packet more. -/
def sampleReceived : List Received :=
  List.replicate 501 (130, ⟨"curl.exe", "10.0.0.5:40000", "1.1.1.1:443", "TCP", 64, 100, true⟩)

theorem lines_by_window_sample :
    (processPackets sampleReceived).lines = (windows 500 sampleReceived).flatMap windowLines ++
        openingLine (rest 500 sampleReceived) ∧
      (processPackets sampleReceived).sent = sampleReceived.map fun x => x.2.toMessage := by
  apply lines_by_window
  · rw [sampleReceived, List.length_replicate]
    decide
  · intro x hx
    rw [List.eq_of_mem_replicate hx]
    decide

end AetherLens.ProcessPackets
