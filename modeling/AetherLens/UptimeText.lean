import AetherLens.NumberText
import Mathlib.Algebra.Group.Int.Defs
import Mathlib.Data.Int.Basic

/-!
The uptime of a health report: hours, minutes and seconds of a span of ticks, each with
at least two digits. A span below zero has the signs of its parts. The text tells all
spans apart that differ in whole seconds, and no others.
-/
namespace AetherLens.UptimeText

open NumberText

/-- A tick is a tenth of a microsecond. -/
def ticksPerSecond : ℤ := 10 ^ 7

def ticksPerMinute : ℤ := 60 * ticksPerSecond

def ticksPerHour : ℤ := 60 * ticksPerMinute

/-- A number in decimal, with zeros in front of its digits up to two of them. -/
def twoDigits (n : ℤ) : List Char :=
  (if n < 0 then ['-'] else []) ++ (decimal n.natAbs).leftpad 2 '0'

/-- All quotients are truncated, and the hours are not cut to a day. -/
def uptimeText (ticks : ℤ) : String :=
  String.ofList (twoDigits (ticks.tdiv ticksPerHour) ++ ':' ::
    (twoDigits ((ticks.tdiv ticksPerMinute).tmod 60) ++ ':' ::
      twoDigits ((ticks.tdiv ticksPerSecond).tmod 60)))

theorem mem_leftpad_decimal {n : ℕ} {c : Char} (h : c ∈ (decimal n).leftpad 2 '0') :
    c.isDigit := by
  rcases List.mem_append.mp h with hzero | hdigit
  · rw [List.eq_of_mem_replicate hzero]
    rfl
  · exact Nat.isDigit_of_mem_toDigits (by omega) (by omega) hdigit

theorem colon_notMem_twoDigits (n : ℤ) : ':' ∉ twoDigits n := by
  intro h
  rcases List.mem_append.mp h with hsign | hdigits
  · split at hsign <;> simp at hsign
  · exact absurd (mem_leftpad_decimal hdigits) (by decide)

theorem ofDigitChars_leftpad (n : ℕ) :
    Nat.ofDigitChars 10 ((decimal n).leftpad 2 '0') 0 = n := by
  rw [List.leftpad, Nat.ofDigitChars_append, Nat.ofDigitChars_replicate_zero, Nat.mul_zero]
  exact Nat.ofDigitChars_ten_toDigits

theorem head?_leftpad (n : ℕ) : ((decimal n).leftpad 2 '0').head? ≠ some '-' := by
  intro h
  exact absurd (mem_leftpad_decimal (List.mem_of_head? h)) (by decide)

/-- The number that a sign and digits spell. -/
def ofSigned (text : List Char) : ℤ :=
  if text.head? = some '-' then -(Nat.ofDigitChars 10 text.tail 0) else Nat.ofDigitChars 10 text 0

theorem ofSigned_twoDigits (n : ℤ) : ofSigned (twoDigits n) = n := by
  unfold twoDigits
  split
  next hneg =>
    rw [List.cons_append, List.nil_append, ofSigned, List.head?_cons, if_pos rfl, List.tail_cons,
      ofDigitChars_leftpad]
    omega
  next hnonneg =>
    rw [List.nil_append, ofSigned, if_neg (head?_leftpad _), ofDigitChars_leftpad]
    omega

theorem twoDigits_injective : Function.Injective twoDigits :=
  Function.LeftInverse.injective ofSigned_twoDigits

/-- Truncated quotients can be taken one after the other. -/
theorem tdiv_tdiv (n : ℤ) {b c : ℤ} (hb : 0 ≤ b) : (n.tdiv b).tdiv c = n.tdiv (b * c) := by
  have hnonneg : ∀ m : ℤ, 0 ≤ m → (m.tdiv b).tdiv c = m.tdiv (b * c) := by
    intro m hm
    rw [Int.tdiv_eq_ediv_of_nonneg hm, Int.tdiv_eq_ediv_of_nonneg (Int.ediv_nonneg hm hb),
      Int.tdiv_eq_ediv_of_nonneg hm, Int.ediv_ediv_of_nonneg hb]
  rcases Int.le_total 0 n with h | h
  · exact hnonneg n h
  · have hneg := hnonneg (-n) (by omega)
    rw [Int.neg_tdiv, Int.neg_tdiv, Int.neg_tdiv] at hneg
    omega

theorem minutes_eq (ticks : ℤ) :
    ticks.tdiv ticksPerMinute = (ticks.tdiv ticksPerSecond).tdiv 60 := by
  rw [tdiv_tdiv _ (by decide)]
  rfl

theorem hours_eq (ticks : ℤ) :
    ticks.tdiv ticksPerHour = (ticks.tdiv ticksPerMinute).tdiv 60 := by
  rw [tdiv_tdiv _ (by decide)]
  rfl

/-- The whole seconds are the sum of the three parts. -/
theorem seconds_of_parts (ticks : ℤ) : ticks.tdiv ticksPerSecond =
    60 * (60 * ticks.tdiv ticksPerHour + (ticks.tdiv ticksPerMinute).tmod 60) +
      (ticks.tdiv ticksPerSecond).tmod 60 := by
  rw [hours_eq, Int.mul_tdiv_add_tmod, minutes_eq, Int.mul_tdiv_add_tmod]

/-- Two uptimes have the same text exactly if they are the same number of whole seconds. -/
theorem uptimeText_eq_iff (t u : ℤ) :
    uptimeText t = uptimeText u ↔ t.tdiv ticksPerSecond = u.tdiv ticksPerSecond := by
  constructor
  · intro h
    obtain ⟨hhours, hrest⟩ := eq_of_first_parts (String.ofList_injective h)
      (colon_notMem_twoDigits _) (colon_notMem_twoDigits _)
    obtain ⟨hminutes, hseconds⟩ :=
      eq_of_first_parts hrest (colon_notMem_twoDigits _) (colon_notMem_twoDigits _)
    rw [seconds_of_parts t, seconds_of_parts u, twoDigits_injective hhours,
      twoDigits_injective hminutes, twoDigits_injective hseconds]
  · intro h
    rw [uptimeText, uptimeText, hours_eq, hours_eq, minutes_eq, minutes_eq, h]

example : uptimeText (-36012345678) = "-01:00:-01" := by decide +kernel

end AetherLens.UptimeText
