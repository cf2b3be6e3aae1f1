import Mathlib.Data.List.Infix

/-!
A subscription to a broadcast, from the call that makes it to the item its reader
holds. The broadcast keeps a bounded number of unread items for the subscriber and
overwrites the oldest, a transport may lose what it carries, and a call that is over
takes everything with it. None of this changes the order of the items.
-/
namespace AetherLens.Subscriptions

/-- `current` is the item that has been read and not yet passed on. -/
structure Subscription (α : Type*) where
  accepted : Bool
  unread : List α
  inFlight : List α
  current : Option α
deriving DecidableEq, Repr

namespace Subscription

variable {α : Type*}

def closed : Subscription α := ⟨false, [], [], none⟩

variable (s : Subscription α)

/-- Only a subscriber that has been accepted gets what is broadcast. -/
def publish (x : α) : Subscription α :=
  if s.accepted then { s with unread := s.unread ++ [x] } else s

def accept : Option (Subscription α) :=
  if s.accepted then none else some { s with accepted := true, unread := [] }

/-- A subscriber that lags goes on with the oldest item that is still kept. -/
def lag (capacity : ℕ) : Option (Subscription α) :=
  if capacity < s.unread.length then
    some { s with unread := s.unread.drop (s.unread.length - capacity) }
  else none

def pull (capacity : ℕ) : Option (Subscription α) :=
  match s.unread with
  | [] => none
  | x :: rest =>
    if rest.length < capacity then
      some { s with unread := rest, inFlight := s.inFlight ++ [x] }
    else none

def lose [DecidableEq α] (kept : List α) : Option (Subscription α) :=
  if kept.Sublist s.inFlight then some { s with inFlight := kept } else none

def read : Option (Subscription α) :=
  match s.current, s.inFlight with
  | none, x :: rest => some { s with inFlight := rest, current := some x }
  | _, _ => none

/-- The items on their way, the oldest first. -/
def held : List α := s.current.toList ++ (s.inFlight ++ s.unread)

variable {s}

theorem held_publish (x : α) : (s.publish x).held.Sublist (s.held ++ [x]) := by
  unfold publish
  split
  · simp [held]
  · exact List.sublist_append_left _ _

theorem held_accept {t : Subscription α} (h : s.accept = some t) : t.held.Sublist s.held := by
  obtain ⟨-, heq⟩ := Option.ite_none_left_eq_some.mp h
  cases heq
  simp [held]

theorem held_lag {capacity : ℕ} {t : Subscription α} (h : s.lag capacity = some t) :
    t.held.Sublist s.held := by
  obtain ⟨-, heq⟩ := Option.ite_none_right_eq_some.mp h
  cases heq
  simpa [held] using List.drop_sublist _ _

theorem held_pull {capacity : ℕ} {t : Subscription α} (h : s.pull capacity = some t) :
    t.held = s.held := by
  unfold pull at h
  split at h
  next => cases h
  next x rest hunread =>
    obtain ⟨-, heq⟩ := Option.ite_none_right_eq_some.mp h
    cases heq
    simp [held, hunread]

theorem held_lose [DecidableEq α] {kept : List α} {t : Subscription α}
    (h : s.lose kept = some t) : t.held.Sublist s.held := by
  obtain ⟨hkept, heq⟩ := Option.ite_none_right_eq_some.mp h
  cases heq
  exact (List.Sublist.refl _).append (hkept.append (List.Sublist.refl _))

theorem held_read {t : Subscription α} (h : s.read = some t) : t.held = s.held := by
  unfold read at h
  split at h
  next x rest hcurrent hinFlight =>
    cases h
    simp [held, hcurrent, hinFlight]
  next => cases h

/-- The item read is passed on, and is the oldest. -/
theorem held_of_current {x : α} (h : s.current = some x) :
    s.held = x :: held { s with current := none } := by
  simp [held, h]

end Subscription

end AetherLens.Subscriptions
