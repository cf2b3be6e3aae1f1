import AetherLens.LossyQueues
import AetherLens.Runs
import Mathlib.Algebra.Order.Group.Int
import Mathlib.Data.Int.Order.Basic

/-!
The sliding window of one client, over arbitrary sequences of `TryConsume` and
`Remaining` calls. Times are ticks. Eviction looks at the front of the queue
only and never looks back, so a call whose time is older than that of an
earlier call may be judged against a window that was already cut.
-/
namespace AetherLens.RateWindow

open Runs LossyQueues

/-- `_timestamps`, front of the queue first. -/
structure SlidingWindow where
  timestamps : List ℤ
deriving DecidableEq, Repr

def SlidingWindow.empty : SlidingWindow := ⟨[]⟩

def evict (now window : ℤ) (w : SlidingWindow) : SlidingWindow :=
  ⟨w.timestamps.dropWhile (· < now - window)⟩

def tryConsume (now limit window : ℤ) (w : SlidingWindow) : Bool × SlidingWindow :=
  let w := evict now window w
  if limit ≤ w.timestamps.length then (false, w)
  else (true, ⟨w.timestamps ++ [now]⟩)

def remaining (now limit window : ℤ) (w : SlidingWindow) : ℤ × SlidingWindow :=
  let w := evict now window w
  (max 0 (limit - w.timestamps.length), w)

theorem tryConsume_fst (now limit window : ℤ) (w : SlidingWindow) :
    (tryConsume now limit window w).1 = true ↔
      ((evict now window w).timestamps.length : ℤ) < limit := by
  unfold tryConsume
  by_cases h : limit ≤ ((evict now window w).timestamps.length : ℤ) <;> simp [h]
  omega

theorem tryConsume_snd (now limit window : ℤ) (w : SlidingWindow) :
    (tryConsume now limit window w).2 = if (tryConsume now limit window w).1
      then ⟨(evict now window w).timestamps ++ [now]⟩ else evict now window w := by
  unfold tryConsume
  by_cases h : limit ≤ ((evict now window w).timestamps.length : ℤ) <;> simp [h]

theorem evict_prunedTo {cutoff now window : ℤ} {history : List ℤ} {w : SlidingWindow}
    (h : PrunedTo cutoff history w.timestamps) (hc : cutoff ≤ now - window) :
    PrunedTo (now - window) history (evict now window w).timestamps :=
  (h.mono hc).dropWhile

inductive Call
  | tryConsume (now : ℤ)
  | remaining (now : ℤ)

def Call.now : Call → ℤ
  | .tryConsume now => now
  | .remaining now => now

/-- The window with the times of its accepted requests, in the order in which
they were accepted. -/
structure State where
  window : SlidingWindow
  accepted : List ℤ
deriving DecidableEq, Repr

/-- The calls take the lock one after the other, with fixed limit and length. -/
def step (limit window : ℤ) (s : State) : Call → Option State
  | .tryConsume now =>
    let result := tryConsume now limit window s.window
    some ⟨result.2, s.accepted ++ if result.1 then [now] else []⟩
  | .remaining now => some { s with window := (remaining now limit window s.window).2 }

def machine (limit window : ℤ) : Machine State Call where
  start := ⟨SlidingWindow.empty, []⟩
  step := step limit window

/-- The accepted times that earlier calls have removed from the queue. -/
def State.evicted (s : State) : List ℤ :=
  s.accepted.take (s.accepted.length - s.window.timestamps.length)

/-- No time that the request's own window reaches back to has been evicted. -/
def InTime (window : ℤ) (s : State) : Call → Prop
  | .tryConsume now => ∀ t ∈ s.evicted, t < now - window
  | .remaining _ => True

instance (window : ℤ) (s : State) : (e : Call) → Decidable (InTime window s e)
  | .tryConsume now => inferInstanceAs (Decidable (∀ t ∈ s.evicted, t < now - window))
  | .remaining _ => inferInstanceAs (Decidable True)

/-- Times leave the queue at its front only. -/
def Suffix (s : State) : Prop := s.accepted = s.evicted ++ s.window.timestamps

theorem evicted_eq {s : State} {old : List ℤ}
    (h : s.accepted = old ++ s.window.timestamps) : s.evicted = old := by
  unfold State.evicted
  rw [h, List.length_append, Nat.add_sub_cancel, List.take_left]

theorem suffix_of_append {s : State} {old : List ℤ}
    (h : s.accepted = old ++ s.window.timestamps) : Suffix s := by
  unfold Suffix
  rw [evicted_eq h]
  exact h

/-- A call moves the front of the queue below its cutoff to the evicted times. -/
theorem step_evicted {limit window : ℤ} {s t : State} {e : Call} (h : Suffix s)
    (hs : step limit window s e = some t) :
    Suffix t ∧ t.evicted =
      s.evicted ++ s.window.timestamps.takeWhile (· < e.now - window) := by
  have hsplit : s.accepted = (s.evicted ++
      s.window.timestamps.takeWhile (· < e.now - window)) ++
        (evict e.now window s.window).timestamps := by
    rw [List.append_assoc, evict, List.takeWhile_append_dropWhile]
    exact h
  have ht : t.accepted = (s.evicted ++
      s.window.timestamps.takeWhile (· < e.now - window)) ++ t.window.timestamps := by
    cases e with
    | tryConsume now =>
      cases hs
      rw [tryConsume_snd]
      cases (tryConsume now limit window s.window).1 with
      | true =>
        change s.accepted ++ [now] = _ ++ (_ ++ [now])
        rw [← List.append_assoc]
        exact congrArg (· ++ [now]) hsplit
      | false =>
        change s.accepted ++ [] = _
        rw [List.append_nil]
        exact hsplit
    | remaining now =>
      cases hs
      exact hsplit
  exact ⟨suffix_of_append ht, evicted_eq ht⟩

theorem suffix_run (limit window : ℤ) {es : List Call} {s : State}
    (hrun : (machine limit window).run es = some s) : Suffix s :=
  (machine limit window).run_invariant Suffix rfl
    (fun _ _ _ hs h => (step_evicted h hs).1) hrun

/-- The accepted times in the closed interval that ends at `t`. -/
def acceptedIn (window t : ℤ) (accepted : List ℤ) : List ℤ :=
  accepted.filter fun x => t - window ≤ x ∧ x ≤ t

/-- A request accepted in time leaves at most `limit` times in every interval
of the given length that contains it: none of them has been evicted. -/
theorem acceptedIn_accept {limit window now t : ℤ} {s : State} (h : Suffix s)
    (hok : InTime window s (.tryConsume now))
    (hacc : (tryConsume now limit window s.window).1 = true) (ht : now ≤ t) :
    ((acceptedIn window t s.accepted).length : ℤ) < limit := by
  have hroom := (tryConsume_fst now limit window s.window).mp hacc
  have hpruned : PrunedTo (now - window) s.accepted (evict now window s.window).timestamps :=
    evict_prunedTo ⟨s.evicted, h, hok⟩ le_rfl
  have hfilter := hpruned.filter_eq le_rfl
  have hsub : (acceptedIn window t s.accepted).Sublist
      (s.accepted.filter (now - window ≤ ·)) := by
    apply List.monotone_filter_right
    intro x hx
    simp only [decide_eq_true_eq] at hx ⊢
    omega
  have hle := hsub.length_le
  rw [hfilter] at hle
  have hqueue := List.length_filter_le (now - window ≤ ·) (evict now window s.window).timestamps
  omega

theorem acceptedIn_snoc (window t now : ℤ) (accepted : List ℤ) :
    acceptedIn window t (accepted ++ [now]) =
      acceptedIn window t accepted ++ if t - window ≤ now ∧ now ≤ t then [now] else [] := by
  rw [acceptedIn, acceptedIn, List.filter_append, List.filter_singleton, Bool.cond_decide]

def Bounded (limit window : ℤ) (s : State) : Prop :=
  s.accepted ≠ [] → ∀ t, ((acceptedIn window t s.accepted).length : ℤ) ≤ limit

theorem step_bounded {limit window : ℤ} {s t : State} {e : Call} (hsuffix : Suffix s)
    (hok : InTime window s e) (hs : step limit window s e = some t)
    (h : Bounded limit window s) : Bounded limit window t := by
  cases e with
  | remaining now =>
    cases hs
    exact h
  | tryConsume now =>
    cases hacc : (tryConsume now limit window s.window).1 with
    | false =>
      simp only [step, hacc] at hs
      cases hs
      simpa [Bounded] using h
    | true =>
      simp only [step, hacc] at hs
      cases hs
      intro _ u
      simp only [ite_true]
      rw [acceptedIn_snoc]
      have hlimit := (tryConsume_fst now limit window s.window).mp hacc
      by_cases hu : u - window ≤ now ∧ now ≤ u
      · have hlt := acceptedIn_accept hsuffix hok hacc hu.2
        simp only [hu, and_self, ite_true, List.length_append, List.length_singleton]
        omega
      · simp only [hu, ite_false, List.append_nil]
        by_cases hempty : s.accepted = []
        · simp only [hempty, acceptedIn, List.filter_nil, List.length_nil]
          omega
        · exact h hempty u

/-- When every request comes in time, no interval of the given length that ends
at an accepted request holds more than `limit` accepted requests. -/
theorem limit_never_exceeded (limit window : ℤ) (es : List Call) (s : State)
    (hrun : (machine limit window).run es = some s)
    (hmeets : (machine limit window).Meets (InTime window) es) :
    ∀ t ∈ s.accepted, ((acceptedIn window t s.accepted).length : ℤ) ≤ limit := by
  have hbounded : (machine limit window).Meets (InTime window) es → Bounded limit window s := by
    revert hrun
    refine (machine limit window).run_induction
      (fun es s => (machine limit window).Meets (InTime window) es → Bounded limit window s)
      ?_ ?_ es s
    · intro _ hne
      exact absurd rfl hne
    · intro es s e t hs hstep ih hmeets
      rw [(machine limit window).meets_snoc hs] at hmeets
      exact step_bounded (suffix_run limit window hs) hmeets.2 hstep (ih hmeets.1)
  intro t ht
  exact hbounded hmeets (List.ne_nil_of_mem ht) t

/-- What has been evicted lies before the window of any later time. -/
theorem evicted_lt (limit window : ℤ) : ∀ es s, (machine limit window).run es = some s →
    ∀ now, (∀ e ∈ es, e.now ≤ now) → ∀ t ∈ s.evicted, t < now - window := by
  apply (machine limit window).run_induction fun es s =>
    ∀ now, (∀ e ∈ es, e.now ≤ now) → ∀ t ∈ s.evicted, t < now - window
  · intro now _ t ht
    cases ht
  · intro es s e t hrun hstep ih now hnow u hu
    rw [(step_evicted (suffix_run limit window hrun) hstep).2] at hu
    rcases List.mem_append.mp hu with hold | hnew
    · exact ih now (fun a ha => hnow a (List.mem_append_left _ ha)) u hold
    · have hcut := List.mem_takeWhile_imp hnew
      have hle := hnow e (by simp)
      simp only [decide_eq_true_eq] at hcut
      omega

/-- Calls whose times never decrease are all in time. -/
theorem inTime_of_sorted (limit window : ℤ) : ∀ es s,
    (machine limit window).run es = some s → (es.map Call.now).Pairwise (· ≤ ·) →
      (machine limit window).Meets (InTime window) es := by
  apply (machine limit window).run_induction fun es _ =>
    (es.map Call.now).Pairwise (· ≤ ·) → (machine limit window).Meets (InTime window) es
  · intro _
    exact (machine limit window).meets_nil _
  · intro es s e t hrun _ ih hsorted
    rw [List.map_append, List.pairwise_append] at hsorted
    rw [(machine limit window).meets_snoc hrun]
    refine ⟨ih hsorted.1, ?_⟩
    cases e with
    | remaining now => trivial
    | tryConsume now =>
      apply evicted_lt limit window es s hrun
      intro a ha
      exact hsorted.2.2 a.now (List.mem_map_of_mem ha) now (by simp [Call.now])

/-- The third request is older than the second, but nothing it reaches back to
is gone yet. -/
def inTimeRun : List Call :=
  [.tryConsume 100, .tryConsume 108, .tryConsume 105, .remaining 112, .tryConsume 116]

theorem limit_never_exceeded_inTimeRun :
    ((acceptedIn 10 116 [100, 108, 105, 116]).length : ℤ) ≤ 3 := by
  refine limit_never_exceeded 3 10 inTimeRun ⟨⟨[108, 105, 116]⟩, [100, 108, 105, 116]⟩ rfl ?_ 116
    (by decide)
  unfold Machine.Meets
  decide

/-- Two requests are accepted and evicted by a newer call before a request with
an older time reaches the lock. -/
def lateRun : List Call :=
  [.tryConsume 100, .tryConsume 101, .tryConsume 112, .tryConsume 110]

theorem limit_exceeded : ∃ s, (machine 2 10).run lateRun = some s ∧
    110 ∈ s.accepted ∧ (acceptedIn 10 110 s.accepted).length = 3 :=
  ⟨⟨⟨[112, 110]⟩, [100, 101, 112, 110]⟩, by decide, by decide, by decide⟩

end AetherLens.RateWindow
