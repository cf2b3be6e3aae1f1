import Mathlib.Data.List.Infix

/-!
A sequence cut into windows of one length, each with all that came up to its end. The
windows fill the sequence up to a rest that is shorter than a window. One more element
goes to the rest, and closes a window when it makes the rest that long.
-/
namespace AetherLens.TumblingWindows

variable {α : Type*} (N : ℕ)

/-- The full windows, first one first, each after all that came up to its end. -/
def windows (xs : List α) : List (List α × List α) :=
  (List.range (xs.length / N)).map fun k => (xs.take (N * (k + 1)), (xs.drop (N * k)).take N)

/-- What is in no window yet. -/
def rest (xs : List α) : List α := xs.drop (N * (xs.length / N))

theorem windows_nil : windows N ([] : List α) = [] := by simp [windows]

theorem rest_nil : rest N ([] : List α) = [] := by simp [rest]

theorem length_rest (xs : List α) : (rest N xs).length = xs.length % N := by
  rw [rest, List.length_drop]
  have hdiv := Nat.div_add_mod xs.length N
  omega

section Snoc

variable {N}

theorem length_div_le (xs : List α) : N * (xs.length / N) ≤ xs.length := Nat.mul_div_le _ _

theorem window_snoc {xs : List α} {k : ℕ} (x : α) (h : k < xs.length / N) :
    (((xs ++ [x]).take (N * (k + 1))), ((xs ++ [x]).drop (N * k)).take N) =
      ((xs.take (N * (k + 1))), (xs.drop (N * k)).take N) := by
  have hle : N * (k + 1) ≤ xs.length :=
    (Nat.mul_le_mul_left N h).trans (length_div_le xs)
  rw [Nat.mul_succ] at hle ⊢
  have hfits : N ≤ (xs.drop (N * k)).length := by
    rw [List.length_drop]
    omega
  rw [List.take_append_of_le_length hle, List.drop_append_of_le_length (by omega),
    List.take_append_of_le_length hfits]

/-- The windows before stay as they are. -/
theorem map_window_snoc (xs : List α) (x : α) :
    ((List.range (xs.length / N)).map fun k =>
      (((xs ++ [x]).take (N * (k + 1))), ((xs ++ [x]).drop (N * k)).take N)) = windows N xs :=
  List.map_congr_left fun _ hk => window_snoc x (List.mem_range.mp hk)

theorem windows_snoc_of_dvd {xs : List α} (x : α) (h : N ∣ xs.length + 1) :
    windows N (xs ++ [x]) = windows N xs ++ [(xs ++ [x], rest N xs ++ [x])] := by
  have hdiv : (xs.length + 1) / N = xs.length / N + 1 := by
    rw [Nat.succ_div, if_pos h]
  have hlen : N * (xs.length / N + 1) = xs.length + 1 := by
    rw [← hdiv]
    exact Nat.mul_div_cancel' h
  have hcut : N * (xs.length / N) ≤ xs.length := length_div_le xs
  rw [windows, List.length_append, List.length_singleton, hdiv, List.range_succ, List.map_append,
    map_window_snoc, List.map_singleton, hlen]
  congr 3
  · rw [List.take_of_length_le (by simp)]
  · rw [List.drop_append_of_le_length hcut, rest, List.take_of_length_le]
    rw [Nat.mul_succ] at hlen
    rw [List.length_append, List.length_drop, List.length_singleton]
    omega

theorem windows_snoc_of_not_dvd {xs : List α} (x : α) (h : ¬ N ∣ xs.length + 1) :
    windows N (xs ++ [x]) = windows N xs := by
  have hdiv : (xs.length + 1) / N = xs.length / N := by
    rw [Nat.succ_div, if_neg h, Nat.add_zero]
  rw [windows, List.length_append, List.length_singleton, hdiv, map_window_snoc]

theorem rest_snoc_of_dvd {xs : List α} (x : α) (h : N ∣ xs.length + 1) :
    rest N (xs ++ [x]) = [] := by
  rw [← List.length_eq_zero_iff, length_rest, List.length_append, List.length_singleton]
  exact Nat.mod_eq_zero_of_dvd h

theorem rest_snoc_of_not_dvd {xs : List α} (x : α) (h : ¬ N ∣ xs.length + 1) :
    rest N (xs ++ [x]) = rest N xs ++ [x] := by
  have hdiv : (xs.length + 1) / N = xs.length / N := by
    rw [Nat.succ_div, if_neg h, Nat.add_zero]
  rw [rest, List.length_append, List.length_singleton, hdiv,
    List.drop_append_of_le_length (length_div_le xs), rest]

end Snoc

end AetherLens.TumblingWindows
