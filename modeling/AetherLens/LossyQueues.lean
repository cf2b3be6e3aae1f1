import Mathlib.Data.List.Forall2
import Mathlib.Data.List.TakeWhile
import Mathlib.Order.Lattice

/-!
First-in first-out queues that may drop items. What comes out of such a queue
is an order-preserving subsequence of what went in, each item used at most
once. Queues in a row are one such pipe, whatever each of them may drop.
-/
namespace AetherLens.LossyQueues

variable {α : Type*}

/-- Write to a bounded queue that makes room by dropping its oldest item. -/
def writeDropOldest (capacity : ℕ) (queue : List α) (item : α) : List α :=
  if queue.length < capacity then queue ++ [item] else queue.tail ++ [item]

theorem writeDropOldest_sublist (capacity : ℕ) (queue : List α) (item : α) :
    (writeDropOldest capacity queue item).Sublist (queue ++ [item]) := by
  unfold writeDropOldest
  split
  · exact List.Sublist.refl _
  · exact (List.tail_sublist queue).append (List.Sublist.refl [item])

theorem length_writeDropOldest {capacity : ℕ} {queue : List α} (hpos : 0 < capacity)
    (h : queue.length ≤ capacity) (item : α) :
    (writeDropOldest capacity queue item).length ≤ capacity := by
  unfold writeDropOldest
  split
  next hroom =>
    rw [List.length_append]
    exact hroom
  next =>
    rw [List.length_append, List.length_tail, List.length_singleton]
    omega

/-- What has entered a pipe, what it holds and what has left it, oldest first. -/
structure Pipe (α : Type*) where
  entered : List α
  held : List α
  left : List α

/-- An item enters at one end, items are lost, or the oldest item leaves. -/
inductive Pipe.Step (p : Pipe α) : Pipe α → Prop
  | enter (x : α) : Step p ⟨p.entered ++ [x], p.held ++ [x], p.left⟩
  | lose (kept : List α) (hkept : kept.Sublist p.held) : Step p ⟨p.entered, kept, p.left⟩
  | leave (x : α) (rest : List α) (hheld : p.held = x :: rest) :
      Step p ⟨p.entered, rest, p.left ++ [x]⟩

/-- What has left and what is held is a subsequence of what has entered. -/
def Pipe.InOrder (p : Pipe α) : Prop := (p.left ++ p.held).Sublist p.entered

theorem Pipe.InOrder.step {p q : Pipe α} (h : p.InOrder) (hstep : p.Step q) : q.InOrder := by
  unfold InOrder at h ⊢
  cases hstep with
  | enter x =>
    change (p.left ++ (p.held ++ [x])).Sublist (p.entered ++ [x])
    rw [← List.append_assoc]
    exact h.append (List.Sublist.refl [x])
  | lose kept hkept => exact ((List.Sublist.refl p.left).append hkept).trans h
  | leave x rest hheld =>
    rw [hheld] at h
    simpa using h

theorem Pipe.InOrder.left_sublist {p : Pipe α} (h : p.InOrder) : p.left.Sublist p.entered :=
  (List.sublist_append_left p.left p.held).trans h

section Images

variable {β γ : Type*} {R : α → β → Prop}

/-- Of the images of a subsequence, a subsequence are again such images. -/
theorem sublistForall₂_of_sublist {xs ys : List α} {zs : List β} (h : xs.Sublist ys)
    (hys : List.SublistForall₂ R ys zs) : List.SublistForall₂ R xs zs := by
  induction hys generalizing xs with
  | nil =>
    rw [List.eq_nil_of_sublist_nil h]
    exact .nil
  | cons hr hrest ih =>
    cases h with
    | cons _ h => exact .cons_right (ih h)
    | cons_cons _ h => exact .cons hr (ih h)
  | cons_right hrest ih => exact .cons_right (ih h)

theorem sublistForall₂_imp {S : α → β → Prop} (himp : ∀ x y, R x y → S x y) {xs : List α}
    {ys : List β} (h : List.SublistForall₂ R xs ys) : List.SublistForall₂ S xs ys := by
  obtain ⟨l, hl, hsub⟩ := List.sublistForall₂_iff.mp h
  exact List.sublistForall₂_iff.mpr ⟨l, hl.imp himp, hsub⟩

/-- Images of what a partial function gives are images of its arguments. -/
theorem sublistForall₂_filterMap {f : γ → Option β} {xs : List α} {ys : List γ}
    (h : List.SublistForall₂ R xs (ys.filterMap f)) :
    List.SublistForall₂ (fun x y => ∃ z, f y = some z ∧ R x z) xs ys := by
  induction ys generalizing xs with
  | nil =>
    cases h
    exact .nil
  | cons y ys ih =>
    cases hy : f y with
    | none =>
      rw [List.filterMap_cons_none hy] at h
      exact .cons_right (ih h)
    | some z =>
      rw [List.filterMap_cons_some hy] at h
      cases h with
      | nil => exact .nil
      | cons hr hrest => exact .cons ⟨z, hy, hr⟩ (ih hrest)
      | cons_right hrest => exact .cons_right (ih hrest)

end Images

section Pruned

variable [LinearOrder α]

/-- The queue is the history less a prefix of items that are all below the
cutoff. Items are pruned from the front only, so order does not matter here. -/
def PrunedTo (cutoff : α) (history queue : List α) : Prop :=
  ∃ old, history = old ++ queue ∧ ∀ x ∈ old, x < cutoff

theorem prunedTo_refl (cutoff : α) (queue : List α) : PrunedTo cutoff queue queue :=
  ⟨[], rfl, fun _ hx => absurd hx List.not_mem_nil⟩

theorem PrunedTo.mono {c c' : α} {history queue : List α} (h : PrunedTo c history queue)
    (hc : c ≤ c') : PrunedTo c' history queue := by
  obtain ⟨old, heq, hold⟩ := h
  exact ⟨old, heq, fun x hx => (hold x hx).trans_le hc⟩

theorem PrunedTo.snoc {c : α} {history queue : List α} (h : PrunedTo c history queue)
    (x : α) : PrunedTo c (history ++ [x]) (queue ++ [x]) := by
  obtain ⟨old, heq, hold⟩ := h
  exact ⟨old, by rw [heq, List.append_assoc], hold⟩

theorem PrunedTo.dropWhile {c : α} {history queue : List α} (h : PrunedTo c history queue) :
    PrunedTo c history (queue.dropWhile (· < c)) := by
  obtain ⟨old, heq, hold⟩ := h
  refine ⟨old ++ queue.takeWhile (· < c), ?_, ?_⟩
  · rw [heq, List.append_assoc, List.takeWhile_append_dropWhile]
  · intro x hx
    rcases List.mem_append.mp hx with hx | hx
    · exact hold x hx
    · simpa using List.mem_takeWhile_imp hx

/-- Pruning loses nothing that a later cutoff still counts. -/
theorem PrunedTo.filter_eq {c c' : α} {history queue : List α} (h : PrunedTo c history queue)
    (hc : c ≤ c') : history.filter (c' ≤ ·) = queue.filter (c' ≤ ·) := by
  obtain ⟨old, heq, hold⟩ := h
  have hnone : old.filter (c' ≤ ·) = [] := by
    rw [List.filter_eq_nil_iff]
    intro x hx
    simpa using (hold x hx).trans_le hc
  rw [heq, List.filter_append, hnone, List.nil_append]

/-- On a sorted queue, pruning the front removes everything below the cutoff. -/
theorem dropWhile_eq_filter (c : α) {queue : List α} (h : queue.Pairwise (· ≤ ·)) :
    queue.dropWhile (· < c) = queue.filter (c ≤ ·) := by
  induction queue with
  | nil => rfl
  | cons x rest ih =>
    rw [List.pairwise_cons] at h
    by_cases hx : x < c
    · simp [hx, ih h.2]
    · have hall : ∀ y ∈ x :: rest, c ≤ y := by
        intro y hy
        rcases List.mem_cons.mp hy with rfl | hy
        · exact not_lt.mp hx
        · exact (not_lt.mp hx).trans (h.1 y hy)
      rw [List.dropWhile_cons_of_neg (by simpa using hx),
        List.filter_eq_self.mpr (by simpa using hall)]

/-- Pruning what is left of a sorted history gives what the cutoff counts of it. -/
theorem PrunedTo.dropWhile_eq {c : α} {history queue : List α} (h : PrunedTo c history queue)
    (hsorted : history.Pairwise (· ≤ ·)) :
    queue.dropWhile (· < c) = history.filter (c ≤ ·) := by
  have hqueue : queue.Pairwise (· ≤ ·) := by
    obtain ⟨old, rfl, -⟩ := h
    exact hsorted.sublist (List.sublist_append_right old queue)
  rw [h.filter_eq le_rfl, dropWhile_eq_filter c hqueue]

end Pruned

end AetherLens.LossyQueues
