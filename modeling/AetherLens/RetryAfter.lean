import AetherLens.RateLimiter

/-!
What the answer to a rejected request promises: a request made 60 seconds later is
accepted when none was accepted meanwhile. A time leaves the window only when it is
more than 60 seconds old, so the promise breaks for the request made after 60 seconds
to the tick, when all that fill the window came at the tick of the rejected one.
-/
namespace AetherLens.RetryAfter

open Runs LossyQueues RateWindow RateLimiter

section Sorted

variable {limit window : ℤ} {es : List Call} {s : State}

/-- The accepted times are times of calls, in the same order. -/
theorem accepted_sublist (limit window : ℤ) : ∀ es s,
    (RateWindow.machine limit window).run es = some s →
      s.accepted.Sublist (es.map Call.now) := by
  apply (RateWindow.machine limit window).run_induction fun es s =>
    s.accepted.Sublist (es.map Call.now)
  · exact List.Sublist.refl []
  · intro es s e t _ hstep ih
    rw [List.map_append]
    cases e with
    | remaining now =>
      cases hstep
      exact ih.trans (List.sublist_append_left _ _)
    | tryConsume now =>
      cases hstep
      refine ih.append ?_
      cases (tryConsume now limit window s.window).1 with
      | true => exact List.Sublist.refl [now]
      | false => exact List.nil_sublist _

/-- With times that never decrease, `TryConsume` counts the accepted times that are not
older than its window. -/
theorem tryConsume_iff (hrun : (RateWindow.machine limit window).run es = some s)
    (hsorted : (es.map Call.now).Pairwise (· ≤ ·)) {now : ℤ} (hnow : ∀ e ∈ es, e.now ≤ now) :
    (tryConsume now limit window s.window).1 = true ↔
      countSince window now s.accepted < limit := by
  have haccepted : s.accepted.Pairwise (· ≤ ·) :=
    hsorted.sublist (accepted_sublist limit window es s hrun)
  have hsuffix : s.accepted = s.evicted ++ s.window.timestamps := suffix_run limit window hrun
  have hpruned : PrunedTo (now - window) s.accepted s.window.timestamps :=
    ⟨s.evicted, hsuffix, evicted_lt limit window es s hrun now hnow⟩
  rw [tryConsume_fst, countSince, evict, hpruned.dropWhile_eq haccepted]

end Sorted

theorem countSince_append (window now : ℤ) (times more : List ℤ) :
    countSince window now times ≤ countSince window now (times ++ more) := by
  unfold countSince
  rw [List.filter_append, List.length_append]
  omega

/-- A window that is full at `t` has room only later. -/
theorem lt_of_room {limit window t now : ℤ} {times more : List ℤ}
    (hfull : ¬ countSince window t times < limit) (hle : t ≤ now)
    (hroom : countSince window now (times ++ more) < limit) : t < now := by
  have hmore := countSince_append window t times more
  have hne : now ≠ t := by
    rintro rfl
    omega
  omega

theorem sorted_cons {before after : List Call} {e : Call}
    (h : ((before ++ e :: after).map Call.now).Pairwise (· ≤ ·)) :
    (before.map Call.now).Pairwise (· ≤ ·) ∧ (∀ a ∈ before, a.now ≤ e.now) ∧
      ∀ a ∈ after, e.now ≤ a.now := by
  rw [List.map_append, List.map_cons, List.pairwise_append, List.pairwise_cons] at h
  obtain ⟨hbefore, ⟨hafter, -⟩, hle⟩ := h
  refine ⟨hbefore, fun a ha => ?_, fun a ha => hafter _ (List.mem_map_of_mem ha)⟩
  exact hle _ (List.mem_map_of_mem ha) _ List.mem_cons_self

/-- What is accepted behind a window that was full at `t` is later than `t`. -/
theorem later_tryConsume {limit window t now : ℤ} {s : State} {times later : List ℤ}
    (hfull : ¬ countSince window t times < limit) (hle : t ≤ now)
    (hiff : (tryConsume now limit window s.window).1 = true ↔
      countSince window now s.accepted < limit)
    (haccepted : s.accepted = times ++ later) (hlater : ∀ x ∈ later, t < x) :
    ∃ later', s.accepted ++ (if (tryConsume now limit window s.window).1 then [now] else []) =
      times ++ later' ∧ ∀ x ∈ later', t < x := by
  cases hacc : (tryConsume now limit window s.window).1 with
  | false => exact ⟨later, by simpa using haccepted, hlater⟩
  | true =>
    have hroom := hiff.mp hacc
    rw [haccepted] at hroom
    refine ⟨later ++ [now], by simp [haccepted], ?_⟩
    intro x hx
    rcases List.mem_append.mp hx with hx | hx
    · exact hlater x hx
    · rw [List.mem_singleton.mp hx]
      exact lt_of_room hfull hle hroom

/-- A request accepted after a rejected one is later in time. The same time still finds
the window full. -/
theorem accepted_later {limit window t : ℤ} {before : List Call} {s₀ : State}
    (hbefore : (RateWindow.machine limit window).run before = some s₀)
    (hrejected : (tryConsume t limit window s₀.window).1 = false) :
    ∀ after s, (RateWindow.machine limit window).run (before ++ .tryConsume t :: after) = some s →
      ((before ++ .tryConsume t :: after).map Call.now).Pairwise (· ≤ ·) →
      ∃ later, s.accepted = s₀.accepted ++ later ∧ ∀ x ∈ later, t < x := by
  intro after
  induction after using List.reverseRecOn with
  | nil =>
    intro s hrun _
    rw [Machine.run_snoc, hbefore] at hrun
    cases hrun
    refine ⟨[], ?_, by simp⟩
    simp [hrejected]
  | append_singleton after e ih =>
    intro s hrun hsorted
    obtain ⟨hsorted₀, hle₀, hge⟩ := sorted_cons hsorted
    have hsplit : before ++ Call.tryConsume t :: (after ++ [e]) =
        (before ++ .tryConsume t :: after) ++ [e] := by simp
    rw [hsplit] at hrun hsorted
    obtain ⟨s₁, hs₁, hstep⟩ := (RateWindow.machine limit window).run_snoc_eq_some hrun
    obtain ⟨hsorted₁, hle₁, -⟩ := sorted_cons hsorted
    obtain ⟨later, haccepted, hlater⟩ := ih s₁ hs₁ hsorted₁
    cases e with
    | remaining now =>
      cases hstep
      exact ⟨later, haccepted, hlater⟩
    | tryConsume now =>
      cases hstep
      have hfull : ¬ countSince window t s₀.accepted < limit := by
        intro hlt
        have hacc := (tryConsume_iff hbefore hsorted₀ hle₀).mpr hlt
        exact Bool.false_ne_true (hrejected.symm.trans hacc)
      have hle : t ≤ now := hge (.tryConsume now) (by simp)
      exact later_tryConsume hfull hle (tryConsume_iff hs₁ hsorted₁ hle₁) haccepted hlater

/-- The accepted times that a window starting at `t` still counts, when none is later. -/
theorem countSince_of_le {window t now : ℤ} {times : List ℤ} (hle : ∀ x ∈ times, x ≤ t)
    (hlater : t + window ≤ now) :
    countSince window now times = if now = t + window then (times.count t : ℤ) else 0 := by
  unfold countSince
  split
  next heq =>
    rw [List.count_eq_length_filter]
    congr 2
    refine List.filter_congr fun x hx => ?_
    have hx' := hle x hx
    rw [Bool.eq_iff_iff, decide_eq_true_eq, beq_iff_eq]
    omega
  next hne =>
    have hnone : times.filter (now - window ≤ ·) = [] := by
      rw [List.filter_eq_nil_iff]
      intro x hx
      have hx' := hle x hx
      simp only [decide_eq_true_eq]
      omega
    rw [hnone]
    rfl

/-- The answer to a rejected request names a minute. -/
theorem retryAfter_of_rejected {limit window : ℤ} {windows : Windows} {r : Request}
    (hapi : r.isApi = true) (hrejected : accepts limit window windows r = false) :
    (invoke limit window windows r).1.statusCode = some 429 ∧
      ("Retry-After", "60") ∈ (invoke limit window windows r).1.headers := by
  rw [invoke_response, if_pos hapi, hrejected]
  exact ⟨rfl, List.mem_cons_self⟩

/-- The promise to a request rejected at `t` is kept, except for the request made after
exactly a minute when `limit` requests were accepted at `t` itself. -/
theorem retry_accepted_iff (limit t t' : ℤ) (before after : List Call) (s₀ s : State)
    (hlimit : 1 ≤ limit)
    (hbefore : (RateWindow.machine limit windowSize).run before = some s₀)
    (hrejected : (tryConsume t limit windowSize s₀.window).1 = false)
    (hrun : (RateWindow.machine limit windowSize).run (before ++ .tryConsume t :: after) = some s)
    (hsorted : ((before ++ Call.tryConsume t :: after ++ [Call.tryConsume t']).map
      Call.now).Pairwise (· ≤ ·))
    (hquiet : ∀ x ∈ s.accepted, x ≤ t) (hlater : t + windowSize ≤ t') :
    (∀ windows r, r.isApi = true → r.now = t → windowOf windows r.clientKey = s₀.window →
      (invoke limit windowSize windows r).1.statusCode = some 429 ∧
        ("Retry-After", "60") ∈ (invoke limit windowSize windows r).1.headers) ∧
    ((tryConsume t' limit windowSize s.window).1 = true ↔
      ¬ (t' = t + windowSize ∧ limit ≤ s₀.accepted.count t)) := by
  constructor
  · rintro windows r hapi rfl hwindow
    refine retryAfter_of_rejected hapi ?_
    rw [accepts, hwindow]
    exact hrejected
  · obtain ⟨hsorted₁, hnow, -⟩ := sorted_cons hsorted
    obtain ⟨later, haccepted, hafter⟩ := accepted_later hbefore hrejected after s hrun hsorted₁
    have hnone : later = [] := by
      rw [List.eq_nil_iff_forall_not_mem]
      intro x hx
      have hlt := hafter x hx
      have hle := hquiet x (by rw [haccepted]; exact List.mem_append_right _ hx)
      omega
    rw [hnone, List.append_nil] at haccepted
    have hcount : (tryConsume t' limit windowSize s.window).1 = true ↔
        countSince windowSize t' s.accepted < limit := tryConsume_iff hrun hsorted₁ hnow
    rw [hcount, countSince_of_le hquiet hlater, haccepted]
    by_cases htick : t' = t + windowSize
    · simp [htick]
    · simp only [htick, if_false, false_and, not_false_iff, iff_true]
      omega

/-- Two requests fill the window, one of them at the time of the rejected request. -/
theorem retry_accepted_iff_boundary :
    (tryConsume 600000005 2 windowSize ⟨[0, 5]⟩).1 = true :=
  (retry_accepted_iff 2 5 600000005 [.tryConsume 0, .tryConsume 5] [.remaining 7]
    ⟨⟨[0, 5]⟩, [0, 5]⟩ ⟨⟨[0, 5]⟩, [0, 5]⟩ (by decide) (by decide) (by decide) (by decide)
    (by decide) (by decide) (by decide)).2.mpr (by decide)

theorem evict_replicate (n : ℕ) {t now window : ℤ} (h : now ≤ t + window) :
    evict now window ⟨List.replicate n t⟩ = ⟨List.replicate n t⟩ := by
  unfold evict
  cases n with
  | zero => rfl
  | succ n =>
    have hkeep : ¬ t < now - window := by omega
    simp [List.replicate_succ, hkeep]

/-- All requests of a burst within the limit are accepted. -/
theorem run_burst (limit window t : ℤ) (hwindow : 0 ≤ window) (n : ℕ) (hn : (n : ℤ) ≤ limit) :
    (RateWindow.machine limit window).run (List.replicate n (.tryConsume t)) =
      some ⟨⟨List.replicate n t⟩, List.replicate n t⟩ := by
  induction n with
  | zero => rfl
  | succ n ih =>
    have hroom : ¬ limit ≤ ((List.replicate n t).length : ℤ) := by
      rw [List.length_replicate]
      omega
    rw [List.replicate_succ', Machine.run_snoc, ih (by omega), Option.bind_some]
    change some _ = _
    simp only [tryConsume, evict_replicate n (show t ≤ t + window by omega), hroom, if_false,
      if_true, List.replicate_succ']

theorem tryConsume_burst {limit window t now : ℤ} {n : ℕ} (hn : limit ≤ n)
    (h : now ≤ t + window) :
    tryConsume now limit window ⟨List.replicate n t⟩ = (false, ⟨List.replicate n t⟩) := by
  have hfull : limit ≤ ((List.replicate n t).length : ℤ) := by
    rw [List.length_replicate]
    exact hn
  simp only [tryConsume, evict_replicate n h, hfull, if_true]

/-- A thousand requests at one tick: the next one at that tick is rejected, and so is
the only one that comes after a minute. -/
theorem retry_rejected_after_minute : ∃ s,
    (RateWindow.machine defaultLimit windowSize).run
      (List.replicate 1000 (.tryConsume 0)) = some s ∧
    tryConsume 0 defaultLimit windowSize s.window = (false, s.window) ∧
    (∀ x ∈ s.accepted, x ≤ 0) ∧
    (tryConsume (0 + windowSize) defaultLimit windowSize s.window).1 = false := by
  have hlimit : ((1000 : ℕ) : ℤ) = defaultLimit := rfl
  refine ⟨_, run_burst defaultLimit windowSize 0 (by decide) 1000 hlimit.le, ?_, ?_, ?_⟩
  · exact tryConsume_burst hlimit.ge (by decide)
  · intro x hx
    exact (List.eq_of_mem_replicate hx).le
  · rw [tryConsume_burst hlimit.ge le_rfl]

end AetherLens.RetryAfter
