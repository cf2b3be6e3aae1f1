import Mathlib.Data.List.Infix

/-!
Bounded first-in first-out queues whose sender waits for room and whose receiver
waits for an item. While both ends are there nothing is lost: what has been received
and what is queued is all that was sent. A receiver that goes takes the queued
items with it, and later sends fail.
-/
namespace AetherLens.BlockingQueues

/-- `sent` and `received` are the histories of the two ends. -/
structure BlockingQueue (α : Type*) (capacity : ℕ) where
  items : List α
  isOpen : Bool
  sent : List α
  received : List α
  length_le : items.length ≤ capacity
  prefix_sent : received ++ items <+: sent
  eq_sent : isOpen = true → received ++ items = sent

namespace BlockingQueue

variable {α : Type*} {capacity : ℕ}

def empty : BlockingQueue α capacity where
  items := []
  isOpen := true
  sent := []
  received := []
  length_le := Nat.zero_le _
  prefix_sent := List.prefix_refl _
  eq_sent := fun _ => rfl

variable (q : BlockingQueue α capacity)

/-- A send that neither fails nor waits. -/
def Accepts : Prop := q.isOpen = true ∧ q.items.length < capacity

instance : Decidable q.Accepts := inferInstanceAs (Decidable (_ ∧ _))

def push (x : α) (h : q.Accepts) : BlockingQueue α capacity where
  items := q.items ++ [x]
  isOpen := q.isOpen
  sent := q.sent ++ [x]
  received := q.received
  length_le := by
    rw [List.length_append]
    exact h.2
  prefix_sent := by
    rw [← q.eq_sent h.1, List.append_assoc]
  eq_sent := by
    intro hopen
    rw [← q.eq_sent hopen, List.append_assoc]

def send (x : α) : Option (BlockingQueue α capacity) :=
  if h : q.Accepts then some (q.push x h) else none

def pop (x : α) (rest : List α) (h : q.items = x :: rest) : BlockingQueue α capacity where
  items := rest
  isOpen := q.isOpen
  sent := q.sent
  received := q.received ++ [x]
  length_le := by
    have hle := q.length_le
    rw [h, List.length_cons] at hle
    exact Nat.le_of_succ_le hle
  prefix_sent := by
    have hinitial := q.prefix_sent
    rw [h] at hinitial
    rwa [List.append_assoc]
  eq_sent := by
    intro hopen
    have heq := q.eq_sent hopen
    rw [h] at heq
    rwa [List.append_assoc]

def receive : Option (α × BlockingQueue α capacity) :=
  match h : q.items with
  | [] => none
  | x :: rest => some (x, q.pop x rest h)

def close : BlockingQueue α capacity where
  items := []
  isOpen := false
  sent := q.sent
  received := q.received
  length_le := Nat.zero_le _
  prefix_sent := by
    rw [List.append_nil]
    exact (List.prefix_append q.received q.items).trans q.prefix_sent
  eq_sent := nofun

theorem received_prefix : q.received <+: q.sent :=
  (List.prefix_append q.received q.items).trans q.prefix_sent

theorem received_sublist : q.received.Sublist q.sent := q.received_prefix.sublist

variable {q}

theorem send_eq_some {x : α} {t : BlockingQueue α capacity} (h : q.send x = some t) :
    ∃ haccepts, t = q.push x haccepts := by
  unfold send at h
  split at h
  next haccepts =>
    cases h
    exact ⟨haccepts, rfl⟩
  next => cases h

theorem receive_eq_some {x : α} {t : BlockingQueue α capacity}
    (h : q.receive = some (x, t)) : ∃ rest hitems, t = q.pop x rest hitems := by
  unfold receive at h
  split at h
  next => cases h
  next y rest hitems =>
    cases h
    exact ⟨rest, hitems, rfl⟩

theorem send_of_accepts {x : α} (h : q.Accepts) : q.send x = some (q.push x h) := dif_pos h

theorem receive_of_items {x : α} {rest : List α} (h : q.items = x :: rest) :
    q.receive = some (x, q.pop x rest h) := by
  unfold receive
  split
  next hitems =>
    rw [h] at hitems
    cases hitems
  next y rest' hitems =>
    obtain ⟨rfl, rfl⟩ := List.cons_eq_cons.mp (h.symm.trans hitems)
    rfl

/-- A sender that waits is let on by the next item that is received. -/
theorem accepts_pop {x : α} {rest : List α} (hopen : q.isOpen = true)
    (hitems : q.items = x :: rest) : (q.pop x rest hitems).Accepts := by
  have hle := q.length_le
  rw [hitems, List.length_cons] at hle
  exact ⟨hopen, hle⟩

/-- An open queue accepts an item, or has one to give and accepts another one then. -/
theorem accepts_or_pop (hpos : 0 < capacity) (hopen : q.isOpen = true) :
    q.Accepts ∨ ∃ x rest, ∃ hitems : q.items = x :: rest, (q.pop x rest hitems).Accepts := by
  by_cases hempty : q.items = []
  · refine Or.inl ⟨hopen, ?_⟩
    rw [hempty]
    exact hpos
  · obtain ⟨x, rest, hitems⟩ := List.exists_cons_of_ne_nil hempty
    exact Or.inr ⟨x, rest, hitems, accepts_pop hopen hitems⟩

end BlockingQueue

end AetherLens.BlockingQueues
