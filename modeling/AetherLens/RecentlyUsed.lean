import Mathlib.Data.Finset.Card
import Mathlib.Data.List.Induction
import Mathlib.Data.List.Nodup

/-!
A bounded list of the entries used last, one for each key. Using an entry puts it
in front, drops the older entry of its key, and cuts the list. `firstPerKey` says
what such a list should show: of each key the first entry of the whole history,
newest first. The cut never loses an entry too early, because the new entry takes
one place and removes at most one.
-/
namespace AetherLens.RecentlyUsed

variable {α κ : Type*} [DecidableEq κ] (key : α → κ)

/-- Of each key the first entry, in the order of the list. -/
def firstPerKey (xs : List α) : List α := xs.eraseDupsBy fun x y => key x == key y

/-- Use the entry `x` of a list that holds at most `n` entries. -/
def touch (n : ℕ) (x : α) (xs : List α) : List α :=
  (x :: xs.filter fun y => key y ≠ key x).take n

/-- The list after a history of uses, first use first. -/
def afterUses (n : ℕ) (history : List α) : List α :=
  history.foldl (fun xs x => touch key n x xs) []

theorem firstPerKey_nil : firstPerKey key [] = [] := rfl

theorem firstPerKey_cons_filter (x : α) (xs : List α) :
    firstPerKey key (x :: xs) = x :: firstPerKey key (xs.filter fun y => key y ≠ key x) := by
  simp [firstPerKey, List.eraseDupsBy_cons]

/-- Choosing keys before or after makes no difference. The induction is on the length,
since the entries behind the first one are filtered before the next turn. -/
theorem firstPerKey_filter (p : κ → Bool) (xs : List α) :
    firstPerKey key (xs.filter fun x => p (key x)) =
      (firstPerKey key xs).filter fun x => p (key x) := by
  induction hlen : xs.length using Nat.strong_induction_on generalizing xs with
  | h n ih =>
    cases xs with
    | nil => rfl
    | cons x xs =>
      have hshort : (xs.filter fun y => key y ≠ key x).length < n := by
        have hle := List.length_filter_le (fun y => decide (key y ≠ key x)) xs
        rw [List.length_cons] at hlen
        omega
      have hrest := ih _ hshort _ rfl
      rw [firstPerKey_cons_filter]
      by_cases hx : p (key x) = true
      · rw [List.filter_cons, List.filter_cons, if_pos hx, if_pos hx, firstPerKey_cons_filter,
          ← hrest, List.filter_filter, List.filter_filter]
        simp only [Bool.and_comm]
      · have hother : xs.filter (fun y => p (key y)) =
            (xs.filter fun y => key y ≠ key x).filter fun y => p (key y) := by
          rw [List.filter_filter]
          refine List.filter_congr fun y _ => ?_
          by_cases hy : key y = key x
          · simp [hy, hx]
          · simp [hy]
        rw [List.filter_cons, List.filter_cons, if_neg hx, if_neg hx, ← hrest, ← hother]

theorem firstPerKey_cons (x : α) (xs : List α) :
    firstPerKey key (x :: xs) = x :: (firstPerKey key xs).filter fun y => key y ≠ key x := by
  rw [firstPerKey_cons_filter, firstPerKey_filter key fun k => decide (k ≠ key x)]

theorem firstPerKey_append (xs ys : List α) :
    firstPerKey key (xs ++ ys) =
      firstPerKey key xs ++ (firstPerKey key ys).filter fun y => key y ∉ xs.map key := by
  induction xs with
  | nil => simp [firstPerKey_nil]
  | cons x xs ih =>
    rw [List.cons_append, firstPerKey_cons, firstPerKey_cons, ih, List.filter_append,
      List.filter_filter, List.cons_append]
    congr 2
    refine List.filter_congr fun y _ => ?_
    simp [not_or]

theorem mem_keys_firstPerKey (k : κ) (xs : List α) :
    k ∈ (firstPerKey key xs).map key ↔ k ∈ xs.map key := by
  induction xs with
  | nil => rfl
  | cons x xs ih =>
    rw [firstPerKey_cons, List.map_cons, List.map_cons, List.mem_cons, List.mem_cons, ← ih]
    by_cases hk : k = key x
    · simp [hk]
    · refine or_congr_right ?_
      simp only [List.mem_map, List.mem_filter]
      constructor
      · rintro ⟨y, ⟨hy, -⟩, hyk⟩
        exact ⟨y, hy, hyk⟩
      · rintro ⟨y, hy, rfl⟩
        exact ⟨y, ⟨hy, by simpa using hk⟩, rfl⟩

theorem nodup_keys_firstPerKey (xs : List α) : ((firstPerKey key xs).map key).Nodup := by
  induction xs with
  | nil => exact List.nodup_nil
  | cons x xs ih =>
    rw [firstPerKey_cons, List.map_cons, List.nodup_cons]
    refine ⟨by simp, ?_⟩
    exact ih.sublist (List.filter_sublist.map key)

/-- One entry for each key that occurs. -/
theorem length_firstPerKey (xs : List α) :
    (firstPerKey key xs).length = (xs.map key).toFinset.card := by
  have hkeys : ((firstPerKey key xs).map key).toFinset = (xs.map key).toFinset := by
    ext k
    rw [List.mem_toFinset, List.mem_toFinset, mem_keys_firstPerKey]
  rw [← hkeys, List.toFinset_card_of_nodup (nodup_keys_firstPerKey key xs), List.length_map]

/-- No entry of the same key stands before one that is kept. -/
theorem split_of_mem_firstPerKey {x : α} {xs : List α} (hx : x ∈ firstPerKey key xs) :
    ∃ before after, xs = before ++ x :: after ∧ key x ∉ before.map key := by
  induction xs with
  | nil => cases hx
  | cons y ys ih =>
    rw [firstPerKey_cons, List.mem_cons, List.mem_filter] at hx
    rcases hx with rfl | ⟨hmem, hne⟩
    · exact ⟨[], ys, rfl, List.not_mem_nil⟩
    · obtain ⟨before, after, rfl, hbefore⟩ := ih hmem
      refine ⟨y :: before, after, rfl, ?_⟩
      rw [List.map_cons, List.mem_cons, not_or]
      exact ⟨by simpa using hne, hbefore⟩

/-- The first entry of a key stands behind one entry for each key before it. -/
theorem mem_take_firstPerKey_iff (n : ℕ) {x : α} {before after : List α}
    (hx : key x ∉ before.map key) :
    x ∈ (firstPerKey key (before ++ x :: after)).take n ↔
      (before.map key).toFinset.card < n := by
  have hfront : x ∉ firstPerKey key before := by
    intro hmem
    exact hx ((mem_keys_firstPerKey key (key x) before).mp (List.mem_map_of_mem hmem))
  rw [firstPerKey_append, firstPerKey_cons, List.filter_cons_of_pos (by simpa using hx),
    ← length_firstPerKey, List.take_append]
  constructor
  · intro hmem
    by_contra hfull
    rw [Nat.sub_eq_zero_of_le (Nat.not_lt.mp hfull), List.take_zero, List.append_nil] at hmem
    exact hfront (List.mem_of_mem_take hmem)
  · intro hroom
    obtain ⟨k, hk⟩ : ∃ k, n - (firstPerKey key before).length = k + 1 :=
      Nat.exists_eq_add_one.mpr (by omega)
    rw [hk, List.take_succ_cons]
    exact List.mem_append_right _ List.mem_cons_self

/-- Of a list cut one place further, removing the entry of a key leaves the same
front part as removing it from the whole list. -/
theorem take_filter_take (n : ℕ) (k : κ) {xs : List α} (hnodup : (xs.map key).Nodup) :
    ((xs.take (n + 1)).filter fun y => key y ≠ k).take n =
      (xs.filter fun y => key y ≠ k).take n := by
  induction xs generalizing n with
  | nil => rfl
  | cons x xs ih =>
    obtain ⟨hx, hrest⟩ := List.nodup_cons.mp hnodup
    rw [List.take_succ_cons]
    by_cases hk : key x = k
    · have hother : ∀ y ∈ xs, decide (key y ≠ k) = true := by
        intro y hy
        have hne : key y ≠ key x := fun h => hx (h ▸ List.mem_map_of_mem hy)
        simpa [hk] using hne
      rw [List.filter_cons_of_neg (by simpa using hk), List.filter_cons_of_neg (by simpa using hk),
        List.filter_eq_self.mpr hother,
        List.filter_eq_self.mpr fun y hy => hother y (List.mem_of_mem_take hy),
        List.take_take, Nat.min_self]
    · rw [List.filter_cons_of_pos (by simpa using hk), List.filter_cons_of_pos (by simpa using hk)]
      cases n with
      | zero => rfl
      | succ n => rw [List.take_succ_cons, List.take_succ_cons, ih n hrest]

/-- A cut list stays the cut of the list that was never cut. -/
theorem touch_take_firstPerKey (n : ℕ) (x : α) (xs : List α) :
    touch key n x ((firstPerKey key xs).take n) = (firstPerKey key (x :: xs)).take n := by
  rw [touch, firstPerKey_cons]
  cases n with
  | zero => rfl
  | succ n =>
    rw [List.take_succ_cons, List.take_succ_cons,
      take_filter_take key n (key x) (nodup_keys_firstPerKey key xs)]

theorem afterUses_eq (n : ℕ) (history : List α) :
    afterUses key n history = (firstPerKey key history.reverse).take n := by
  induction history using List.reverseRecOn with
  | nil => simp [afterUses, firstPerKey_nil]
  | append_singleton history x ih =>
    rw [List.reverse_append, List.reverse_singleton, List.singleton_append,
      ← touch_take_firstPerKey, ← ih]
    simp [afterUses]

end AetherLens.RecentlyUsed
