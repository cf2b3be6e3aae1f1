import AetherLens.Runs
import Mathlib.Logic.Function.Basic

/-!
Messages sent to groups of connections. A connection joins groups one by one, gets
what is sent to a group while it is a member, each message once and in order, and
loses what is in flight when it is closed. What a connection sees of a group is
therefore an interval of what was sent to the group, from the moment it joined.
-/
namespace AetherLens.Groupcasts

open Runs

/-- `since` is the number of messages that had been sent when a group was joined. -/
structure Connection (Message Group : Type*) where
  isOpen : Bool
  groups : List Group
  since : Group → ℕ
  inFlight : List Message
  delivered : List Message

/-- A connection that was never opened is absent, and none is opened twice. -/
structure State (Message Group : Type*) where
  sent : List Message
  connections : ℕ → Option (Connection Message Group)

inductive Event (Message Group : Type*)
  | connect (i : ℕ)
  | join (i : ℕ) (group : Group)
  | send (message : Message)
  | deliver (i : ℕ)
  | disconnect (i : ℕ)

section Machine

variable {Message Group : Type*} [DecidableEq Group] (groupOf : Message → Group)

def Connection.opened : Connection Message Group := ⟨true, [], fun _ => 0, [], []⟩

def Connection.join (connection : Connection Message Group) (group : Group) (count : ℕ) :
    Connection Message Group :=
  { connection with
    groups := connection.groups ++ [group]
    since := Function.update connection.since group count }

/-- Only a member of the group the message is sent to gets it. -/
def Connection.push (message : Message) (connection : Connection Message Group) :
    Connection Message Group :=
  if connection.isOpen ∧ groupOf message ∈ connection.groups then
    { connection with inFlight := connection.inFlight ++ [message] }
  else connection

def Connection.close (connection : Connection Message Group) : Connection Message Group :=
  { connection with isOpen := false, inFlight := [] }

def State.set (s : State Message Group) (i : ℕ) (connection : Connection Message Group) :
    State Message Group :=
  { s with connections := Function.update s.connections i (some connection) }

def step (s : State Message Group) : Event Message Group → Option (State Message Group)
  | .connect i =>
    match s.connections i with
    | none => some (s.set i .opened)
    | some _ => none
  | .join i group =>
    (s.connections i).bind fun connection =>
      if connection.isOpen ∧ group ∉ connection.groups then
        some (s.set i (connection.join group s.sent.length))
      else none
  | .send message =>
    some ⟨s.sent ++ [message], fun i => (s.connections i).map (.push groupOf message)⟩
  | .deliver i =>
    (s.connections i).bind fun connection =>
      match connection.inFlight with
      | [] => none
      | message :: rest =>
        some (s.set i { connection with
          inFlight := rest
          delivered := connection.delivered ++ [message] })
  | .disconnect i => (s.connections i).map fun connection => s.set i connection.close

def start : State Message Group := ⟨[], fun _ => none⟩

def machine : Machine (State Message Group) (Event Message Group) := ⟨start, step groupOf⟩

/-- The messages of a group. -/
def toGroup (group : Group) (messages : List Message) : List Message :=
  messages.filter fun message => groupOf message = group

def Connection.reached (connection : Connection Message Group) : List Message :=
  connection.delivered ++ connection.inFlight

/-- Of the messages sent to a group, those that reached the connection are the ones that
followed its joining, all of them while it is open. Of other groups it got none. Once
its groups cover all messages, it gets everything that follows the last joining. -/
structure Connection.Exact (connection : Connection Message Group) (sent : List Message) :
    Prop where
  in_order : connection.reached.Sublist sent
  since_le : ∀ group, connection.since group ≤ sent.length
  reached_prefix : ∀ group, toGroup groupOf group connection.reached <+:
    toGroup groupOf group (sent.drop (connection.since group))
  reached_eq : connection.isOpen = true → ∀ group ∈ connection.groups,
    toGroup groupOf group connection.reached =
      toGroup groupOf group (sent.drop (connection.since group))
  reached_nil : ∀ group ∉ connection.groups, toGroup groupOf group connection.reached = []
  covered : connection.isOpen = true → (∀ message, groupOf message ∈ connection.groups) →
    ∀ last ∈ connection.groups.getLast?,
      ∃ early, connection.reached = early ++ sent.drop (connection.since last)

variable {groupOf} {connection : Connection Message Group} {sent : List Message}

theorem toGroup_append (group : Group) (xs ys : List Message) :
    toGroup groupOf group (xs ++ ys) = toGroup groupOf group xs ++ toGroup groupOf group ys :=
  List.filter_append ..

theorem since_join_other {group other : Group} (hother : other ≠ group) (count : ℕ) :
    (connection.join group count).since other = connection.since other :=
  Function.update_of_ne hother _ _

theorem since_join_self (group : Group) (count : ℕ) :
    (connection.join group count).since group = count := Function.update_self ..

theorem exact_opened (sent : List Message) :
    (Connection.opened : Connection Message Group).Exact groupOf sent where
  in_order := List.nil_sublist _
  since_le := fun _ => Nat.zero_le _
  reached_prefix := fun _ => List.nil_prefix
  reached_eq := nofun
  reached_nil := fun _ _ => rfl
  covered := nofun

namespace Connection.Exact

variable (h : connection.Exact groupOf sent)

include h

theorem join {group : Group} (hnew : group ∉ connection.groups) :
    (connection.join group sent.length).Exact groupOf sent where
  in_order := h.in_order
  since_le := by
    intro other
    by_cases hother : other = group
    · rw [hother, since_join_self]
    · rw [since_join_other hother]
      exact h.since_le other
  reached_prefix := by
    intro other
    change toGroup groupOf other connection.reached <+: _
    by_cases hother : other = group
    · rw [hother, h.reached_nil group hnew]
      exact List.nil_prefix
    · rw [since_join_other hother]
      exact h.reached_prefix other
  reached_eq := by
    intro hopen other hmem
    change toGroup groupOf other connection.reached = _
    by_cases hother : other = group
    · rw [hother, h.reached_nil group hnew, since_join_self, List.drop_length]
      rfl
    · have hold : other ∈ connection.groups := by
        simpa [Connection.join, hother] using hmem
      rw [since_join_other hother]
      exact h.reached_eq hopen other hold
  reached_nil := by
    intro other hother
    refine h.reached_nil other fun hold => hother ?_
    exact List.mem_append_left _ hold
  covered := by
    intro _ _ last hlast
    have heq : group = last := by simpa [Connection.join] using hlast
    refine ⟨connection.reached, ?_⟩
    rw [← heq, since_join_self, List.drop_length, List.append_nil]
    rfl

theorem toGroup_drop_snoc (group : Group) (message : Message) :
    toGroup groupOf group ((sent ++ [message]).drop (connection.since group)) =
      toGroup groupOf group (sent.drop (connection.since group)) ++
        toGroup groupOf group [message] := by
  rw [List.drop_append_of_le_length (h.since_le group), toGroup_append]

/-- A message that a connection does not get is sent to another group, or the
connection is closed. -/
theorem pass (message : Message)
    (hnot : ¬ (connection.isOpen ∧ groupOf message ∈ connection.groups)) :
    connection.Exact groupOf (sent ++ [message]) where
  in_order := h.in_order.trans (List.sublist_append_left _ _)
  since_le := by
    intro group
    rw [List.length_append]
    exact Nat.le_add_right_of_le (h.since_le group)
  reached_prefix := by
    intro group
    rw [h.toGroup_drop_snoc]
    exact (h.reached_prefix group).trans (List.prefix_append _ _)
  reached_eq := by
    intro hopen group hmem
    have hother : groupOf message ≠ group := by
      rintro rfl
      exact hnot ⟨hopen, hmem⟩
    rw [h.toGroup_drop_snoc, h.reached_eq hopen group hmem]
    simp [toGroup, hother]
  reached_nil := h.reached_nil
  covered := fun hopen hcovered => absurd ⟨hopen, hcovered message⟩ hnot

theorem get (message : Message) (hopen : connection.isOpen = true)
    (hmem : groupOf message ∈ connection.groups) :
    Connection.Exact groupOf { connection with inFlight := connection.inFlight ++ [message] }
      (sent ++ [message]) := by
  have hreached : Connection.reached
      { connection with inFlight := connection.inFlight ++ [message] } =
        connection.reached ++ [message] := by
    simp [Connection.reached]
  refine ⟨?_, ?_, ?_, ?_, ?_, ?_⟩
  · rw [hreached]
    exact h.in_order.append (List.Sublist.refl _)
  · intro group
    rw [List.length_append]
    exact Nat.le_add_right_of_le (h.since_le group)
  · intro group
    rw [hreached, toGroup_append, h.toGroup_drop_snoc]
    by_cases hgroup : group ∈ connection.groups
    · rw [h.reached_eq hopen group hgroup]
    · have hother : groupOf message ≠ group := by
        rintro rfl
        exact hgroup hmem
      rw [h.reached_nil group hgroup]
      simp [toGroup, hother]
  · intro _ group hgroup
    rw [hreached, toGroup_append, h.toGroup_drop_snoc, h.reached_eq hopen group hgroup]
  · intro group hgroup
    have hother : groupOf message ≠ group := by
      rintro rfl
      exact hgroup hmem
    rw [hreached, toGroup_append, h.reached_nil group hgroup]
    simp [toGroup, hother]
  · intro hopen hcovered last hlast
    obtain ⟨early, heq⟩ := h.covered hopen hcovered last hlast
    refine ⟨early, ?_⟩
    rw [hreached, heq, List.drop_append_of_le_length (h.since_le last), List.append_assoc]

theorem push (message : Message) :
    (connection.push groupOf message).Exact groupOf (sent ++ [message]) := by
  unfold Connection.push
  split
  next hmember => exact h.get message hmember.1 hmember.2
  next hnot => exact h.pass message hnot

theorem deliver {message : Message} {rest : List Message}
    (hinFlight : connection.inFlight = message :: rest) :
    Connection.Exact groupOf { connection with
      inFlight := rest
      delivered := connection.delivered ++ [message] } sent := by
  have hreached : Connection.reached { connection with
      inFlight := rest
      delivered := connection.delivered ++ [message] } = connection.reached := by
    simp [Connection.reached, hinFlight]
  refine ⟨?_, h.since_le, ?_, ?_, ?_, ?_⟩
  · rw [hreached]
    exact h.in_order
  · rw [hreached]
    exact h.reached_prefix
  · rw [hreached]
    exact h.reached_eq
  · rw [hreached]
    exact h.reached_nil
  · rw [hreached]
    exact h.covered

theorem close : connection.close.Exact groupOf sent := by
  have hreached : connection.close.reached = connection.delivered := List.append_nil _
  have hinitial : ∀ group, toGroup groupOf group connection.delivered <+:
      toGroup groupOf group connection.reached := by
    intro group
    rw [Connection.reached, toGroup_append]
    exact List.prefix_append _ _
  refine ⟨?_, h.since_le, ?_, nofun, ?_, nofun⟩
  · rw [hreached]
    exact (List.sublist_append_left _ _).trans h.in_order
  · intro group
    rw [hreached]
    exact (hinitial group).trans (h.reached_prefix group)
  · intro group hgroup
    have hnil := hinitial group
    rw [h.reached_nil group hgroup, List.prefix_nil] at hnil
    rw [hreached]
    exact hnil

end Connection.Exact

/-- The message that an event sends. -/
def sends : Event Message Group → List Message
  | .send message => [message]
  | _ => []

theorem sent_step {s t : State Message Group} {e : Event Message Group}
    (hstep : step groupOf s e = some t) : t.sent = s.sent ++ sends e := by
  cases e with
  | connect i =>
    simp only [step] at hstep
    split at hstep <;> cases hstep
    exact (List.append_nil _).symm
  | join i group =>
    obtain ⟨connection, -, hjoin⟩ := Option.bind_eq_some_iff.mp hstep
    obtain ⟨-, heq⟩ := Option.ite_none_right_eq_some.mp hjoin
    cases heq
    exact (List.append_nil _).symm
  | send message =>
    cases hstep
    rfl
  | deliver i =>
    obtain ⟨connection, -, hdeliver⟩ := Option.bind_eq_some_iff.mp hstep
    split at hdeliver
    next => cases hdeliver
    next message rest hinFlight =>
      cases hdeliver
      exact (List.append_nil _).symm
  | disconnect i =>
    obtain ⟨connection, -, rfl⟩ := Option.map_eq_some_iff.mp hstep
    exact (List.append_nil _).symm

/-- Every connection is exact. -/
def State.Exact (groupOf : Message → Group) (s : State Message Group) : Prop :=
  ∀ i, ∀ connection ∈ s.connections i, connection.Exact groupOf s.sent

theorem State.Exact.set {s : State Message Group} (h : s.Exact groupOf) {i : ℕ}
    (hconnection : connection.Exact groupOf s.sent) : (s.set i connection).Exact groupOf := by
  intro j other hother
  change other ∈ Function.update s.connections i (some connection) j at hother
  by_cases hj : j = i
  · subst hj
    rw [Function.update_self] at hother
    cases hother
    exact hconnection
  · rw [Function.update_of_ne hj] at hother
    exact h j other hother

theorem exact_step (s : State Message Group) (e : Event Message Group)
    (t : State Message Group) (hstep : (machine groupOf).step s e = some t)
    (h : s.Exact groupOf) : t.Exact groupOf := by
  cases e with
  | connect i =>
    simp only [machine, step] at hstep
    split at hstep
    · cases hstep
      exact h.set (exact_opened s.sent)
    · cases hstep
  | join i group =>
    obtain ⟨connection, hconnection, hjoin⟩ := Option.bind_eq_some_iff.mp hstep
    obtain ⟨⟨-, hnew⟩, heq⟩ := Option.ite_none_right_eq_some.mp hjoin
    cases heq
    exact h.set ((h i connection hconnection).join hnew)
  | send message =>
    cases hstep
    intro i connection hconnection
    obtain ⟨old, hold, rfl⟩ := Option.map_eq_some_iff.mp hconnection
    exact (h i old hold).push message
  | deliver i =>
    obtain ⟨connection, hconnection, hdeliver⟩ := Option.bind_eq_some_iff.mp hstep
    split at hdeliver
    next => cases hdeliver
    next message rest hinFlight =>
      cases hdeliver
      exact h.set ((h i connection hconnection).deliver hinFlight)
  | disconnect i =>
    obtain ⟨connection, hconnection, rfl⟩ := Option.map_eq_some_iff.mp hstep
    exact h.set (h i connection hconnection).close

theorem exact_run {es : List (Event Message Group)} {s : State Message Group}
    (hs : (machine groupOf).run es = some s) : s.Exact groupOf :=
  (machine groupOf).run_invariant (State.Exact groupOf) nofun exact_step hs

end Machine

end AetherLens.Groupcasts
