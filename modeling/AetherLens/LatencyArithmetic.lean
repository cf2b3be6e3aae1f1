import AetherLens.MetricsSnapshot
import AetherLens.PacketLoop
import Mathlib.Algebra.Group.Int.Defs
import Mathlib.Algebra.Group.Nat.Defs

/-!
The arithmetic behind a recorded latency: a cast from unsigned to signed, a
difference, a product and a quotient, all in 64 bits without overflow checks.
The results are the exact ones as long as the timestamp is not more than 2 ^ 63
milliseconds ahead, and the product and the sum of the window fit.
-/
namespace AetherLens.LatencyArithmetic

open MetricsSnapshot
open PacketLoop (latencyMs)

/-- The ticks that the packet loop records for a latency. -/
def latencyTicks (frequency latencyMs : Int64) : Int64 := latencyMs * frequency / 1000

/-- The latency that the core engine computes. -/
def saturatingSub (nowMs timestamp : UInt64) : UInt64 :=
  if timestamp ≤ nowMs then nowMs - timestamp else 0

/-- The time since the timestamp, in exact integers, or zero. -/
def exactMs (now : Int64) (timestamp : UInt64) : ℤ := max 0 (now.toInt - timestamp.toNat)

section Widths

theorem toInt_max (a b : Int64) : (max a b).toInt = max a.toInt b.toInt := by
  rw [max_eq]
  split
  next h =>
    rw [Int64.le_iff_toInt_le] at h
    omega
  next h =>
    rw [Int64.le_iff_toInt_le] at h
    omega

theorem bmod_of_fits {z : ℤ} (hlow : -(2 ^ 63) ≤ z) (hhigh : z < 2 ^ 63) :
    z.bmod (2 ^ 64) = z := by
  simp only [Int.bmod]
  split <;> omega

/-- From 2 ^ 63 on, a number below 3 * 2 ^ 63 comes out too small by 2 ^ 64. -/
theorem bmod_of_exceeds {z : ℤ} (hlow : 2 ^ 63 ≤ z) (hhigh : z < 2 ^ 63 + 2 ^ 64) :
    z.bmod (2 ^ 64) = z - 2 ^ 64 := by
  simp only [Int.bmod]
  split <;> omega

theorem bmod_lt (z : ℤ) : z.bmod (2 ^ 64) < 2 ^ 63 := by
  simp only [Int.bmod]
  split <;> omega

theorem toInt_toInt64_eq (n : UInt64) :
    n.toInt64.toInt = if n.toNat < 2 ^ 63 then (n.toNat : ℤ) else n.toNat - 2 ^ 64 := by
  have hlt := n.toNat_lt
  have hbmod : n.toInt64.toInt = (n.toNat : ℤ).bmod (2 ^ 64) :=
    BitVec.toInt_eq_toNat_bmod n.toBitVec
  rw [hbmod]
  split
  · exact bmod_of_fits (by omega) (by omega)
  · exact bmod_of_exceeds (by omega) (by omega)

end Widths

section Latency

variable {now : Int64} {timestamp : UInt64}

theorem toInt_latencyMs (hnow : 0 ≤ now.toInt) :
    (latencyMs now timestamp).toInt =
      if (timestamp.toNat : ℤ) ≤ now.toInt + 2 ^ 63 then exactMs now timestamp
      else now.toInt - timestamp.toNat + 2 ^ 64 := by
  have hlt := timestamp.toNat_lt
  have hmax := Int64.toInt_lt now
  have hzero : (0 : Int64).toInt = 0 := rfl
  rw [latencyMs, toInt_max, Int64.toInt_sub, toInt_toInt64_eq, hzero, exactMs]
  by_cases hpast : timestamp.toNat < 2 ^ 63
  · rw [if_pos hpast, if_pos (by omega), bmod_of_fits (by omega) (by omega)]
  · rw [if_neg hpast]
    by_cases hnear : (timestamp.toNat : ℤ) ≤ now.toInt + 2 ^ 63
    · rw [if_pos hnear, bmod_of_exceeds (by omega) (by omega)]
      omega
    · rw [if_neg hnear, bmod_of_fits (by omega) (by omega)]
      omega

/-- The two latencies agree where the loop's is exact. -/
theorem toNat_saturatingSub (hnow : 0 ≤ now.toInt) :
    ((saturatingSub now.toUInt64 timestamp).toNat : ℤ) = exactMs now timestamp := by
  have hclock : (now.toUInt64.toNat : ℤ) = now.toInt := by
    have hbmod : now.toInt = (now.toUInt64.toNat : ℤ).bmod (2 ^ 64) :=
      BitVec.toInt_eq_toNat_bmod now.toBitVec
    have hlt := now.toUInt64.toNat_lt
    by_cases hfits : now.toUInt64.toNat < 2 ^ 63
    · rw [hbmod, bmod_of_fits (by omega) (by omega)]
    · rw [bmod_of_exceeds (by omega) (by omega)] at hbmod
      omega
  unfold saturatingSub exactMs
  split
  next h =>
    rw [UInt64.toNat_sub_of_le _ _ h]
    rw [UInt64.le_iff_toNat_le] at h
    omega
  next h =>
    rw [UInt64.le_iff_toNat_le] at h
    rw [← hclock]
    simp only [UInt64.toNat_zero]
    omega

theorem toInt_latencyTicks {frequency ms : Int64} :
    (latencyTicks frequency ms).toInt =
      ((ms.toInt * frequency.toInt).bmod (2 ^ 64)).tdiv 1000 := by
  have hne : (1000 : Int64) ≠ -1 := by decide
  rw [latencyTicks, Int64.toInt_div_of_ne_right _ _ hne, Int64.toInt_mul]
  rfl

/-- A quotient of a product that does not fit is too small. -/
theorem tdiv_bmod_iff {p : ℤ} (hp : 0 ≤ p) :
    (p.bmod (2 ^ 64)).tdiv 1000 = p / 1000 ↔ p < 2 ^ 63 := by
  constructor
  · intro h
    by_contra hge
    have hlt := bmod_lt p
    rcases Int.le_total 0 (p.bmod (2 ^ 64)) with hnonneg | hneg
    · rw [Int.tdiv_eq_ediv_of_nonneg hnonneg] at h
      have hbelow : p.bmod (2 ^ 64) ≤ p - 2 ^ 64 := by
        simp only [Int.bmod] at hlt ⊢
        split <;> omega
      omega
    · have hquotient : 0 ≤ (-p.bmod (2 ^ 64)).tdiv 1000 :=
        Int.tdiv_nonneg (by omega) (by decide)
      rw [Int.neg_tdiv] at hquotient
      omega
  · intro h
    rw [bmod_of_fits (by omega) h, Int.tdiv_eq_ediv_of_nonneg hp]

end Latency

/-- Milliseconds and ticks are the exact ones, the milliseconds those of the core engine,
and the add step of the call does not lower the sum of the window. -/
structure ExactArithmetic (frequency now : Int64) (timestamp : UInt64) (s : State) (i : ℕ) :
    Prop where
  ms_eq : (latencyMs now timestamp).toInt = exactMs now timestamp
  core_eq : (latencyMs now timestamp).toInt = (saturatingSub now.toUInt64 timestamp).toNat
  ticks_eq : (latencyTicks frequency (latencyMs now timestamp)).toInt =
    (latencyMs now timestamp).toInt * frequency.toInt / 1000
  ticks_nonneg : 0 ≤ (latencyTicks frequency (latencyMs now timestamp)).toInt
  sum_le : ∀ t, s.recordStep i
    ⟨latencyTicks frequency (latencyMs now timestamp), .addLatency⟩ = some t →
      s.latencySumTicks.value ≤ t.latencySumTicks.value

/-- The timestamp is not too far ahead, the product of the milliseconds and the frequency
fits in 64 bits, and so does the sum of the window with the exact ticks. -/
structure Fits (frequency now : Int64) (timestamp : UInt64) (s : State) : Prop where
  timestamp_le : (timestamp.toNat : ℤ) ≤ now.toInt + 2 ^ 63
  product_lt : exactMs now timestamp * frequency.toInt < 2 ^ 63
  sum_lt : s.latencySumTicks.value.toInt + exactMs now timestamp * frequency.toInt / 1000 < 2 ^ 63

section Exact

variable {frequency now : Int64} {timestamp : UInt64} {s : State} {i : ℕ}

theorem exactMs_nonneg (now : Int64) (timestamp : UInt64) : 0 ≤ exactMs now timestamp := by
  unfold exactMs
  omega

theorem ms_exact_iff (hnow : 0 ≤ now.toInt) :
    (latencyMs now timestamp).toInt = exactMs now timestamp ↔
      (timestamp.toNat : ℤ) ≤ now.toInt + 2 ^ 63 := by
  have hlt := timestamp.toNat_lt
  rw [toInt_latencyMs hnow]
  split
  next h => exact iff_of_true rfl h
  next h =>
    refine iff_of_false ?_ h
    unfold exactMs
    omega

/-- An add of non-negative ticks does not lower the sum exactly when the sum fits. -/
theorem sum_le_iff {ticks : Int64} (hticks : 0 ≤ ticks.toInt) :
    (∀ t, s.recordStep i ⟨ticks, .addLatency⟩ = some t →
      s.latencySumTicks.value ≤ t.latencySumTicks.value) ↔
        s.latencySumTicks.value.toInt + ticks.toInt < 2 ^ 63 := by
  have hlow := Int64.le_toInt s.latencySumTicks.value
  have hhigh := Int64.toInt_lt s.latencySumTicks.value
  have hticks' := Int64.toInt_lt ticks
  have hstep : (∀ t, s.recordStep i ⟨ticks, .addLatency⟩ = some t →
      s.latencySumTicks.value ≤ t.latencySumTicks.value) ↔
        s.latencySumTicks.value ≤ s.latencySumTicks.value + ticks := by
    simp [State.recordStep]
  rw [hstep, Int64.le_iff_toInt_le, Int64.toInt_add]
  by_cases hfits : s.latencySumTicks.value.toInt + ticks.toInt < 2 ^ 63
  · rw [bmod_of_fits (by omega) hfits]
    omega
  · rw [bmod_of_exceeds (by omega) (by omega)]
    omega

/-- The arithmetic is exact exactly when everything fits. -/
theorem exactArithmetic_iff (hnow : 0 ≤ now.toInt) (hfrequency : 0 ≤ frequency.toInt) :
    ExactArithmetic frequency now timestamp s i ↔ Fits frequency now timestamp s := by
  have hproduct : 0 ≤ exactMs now timestamp * frequency.toInt :=
    Int.mul_nonneg (exactMs_nonneg now timestamp) hfrequency
  constructor
  · intro h
    have hms := h.ms_eq
    have hticks := h.ticks_eq
    have hsum := (sum_le_iff h.ticks_nonneg).mp h.sum_le
    rw [hticks, hms] at hsum
    rw [toInt_latencyTicks, hms, tdiv_bmod_iff hproduct] at hticks
    exact ⟨(ms_exact_iff hnow).mp hms, hticks, hsum⟩
  · intro ⟨htimestamp, hfits, hsum⟩
    have hms := (ms_exact_iff hnow).mpr htimestamp
    have hticks : (latencyTicks frequency (latencyMs now timestamp)).toInt =
        (latencyMs now timestamp).toInt * frequency.toInt / 1000 := by
      rw [toInt_latencyTicks, hms, tdiv_bmod_iff hproduct]
      exact hfits
    have hnonneg : 0 ≤ (latencyTicks frequency (latencyMs now timestamp)).toInt := by
      rw [hticks, hms]
      omega
    refine ⟨hms, hms.trans (toNat_saturatingSub hnow).symm, hticks, hnonneg, ?_⟩
    rw [sum_le_iff hnonneg, hticks, hms]
    exact hsum

end Exact

/-- A clock in November 2023. -/
def sampleNow : Int64 := 1700000000000

/-- Two seconds at ten million ticks a second. -/
theorem exactArithmetic_iff_recent :
    ExactArithmetic 10000000 sampleNow 1699999998000 (start 0) 0 :=
  (exactArithmetic_iff (by decide) (by decide)).mpr ⟨by decide, by decide, by decide⟩

/-- The largest timestamp gives a latency of 53 years where the core engine has none. The
timestamp zero gives negative ticks and lowers the sum. -/
theorem far_timestamp_inexact :
    ((latencyMs sampleNow 18446744073709551615).toInt = 1700000000001 ∧
      ¬ ExactArithmetic 10000000 sampleNow 18446744073709551615 (start 0) 0) ∧
    ((latencyTicks 10000000 (latencyMs sampleNow 0)).toInt = -1446744073709551 ∧
      ¬ ExactArithmetic 10000000 sampleNow 0 (start 0) 0) := by
  have hms : (latencyMs sampleNow 18446744073709551615).toInt = 1700000000001 := by decide
  have hticks : (latencyTicks 10000000 (latencyMs sampleNow 0)).toInt = -1446744073709551 := by
    decide
  refine ⟨⟨hms, ?_⟩, hticks, ?_⟩
  · intro h
    have hexact := h.ms_eq
    rw [hms] at hexact
    revert hexact
    decide
  · intro h
    have hnonneg := h.ticks_nonneg
    rw [hticks] at hnonneg
    revert hnonneg
    decide

end AetherLens.LatencyArithmetic
