import AetherLens.RateWindow
import Mathlib.Logic.Function.Basic

/-!
The rate limiting middleware: one sliding window for each client, found by the
client's address. Against it stands a limiter that keeps every accepted time
and counts those in the window; the middleware gives the same answers as long
as the times of a client never decrease.
-/
namespace AetherLens.RateLimiter

open Runs LossyQueues RateWindow

structure Request where
  path : String
  remoteIpAddress : Option String
  now : ℤ
deriving DecidableEq, Repr

def Request.clientKey (r : Request) : String :=
  "ip:" ++ r.remoteIpAddress.getD "unknown"

/-- `PathString.StartsWithSegments`: the prefix is compared without case and
must end where a segment ends. -/
def startsWithSegments (path segment : String) : Bool :=
  (path.toList.take segment.length).map Char.toLower == segment.toList.map Char.toLower &&
    ((path.toList.drop segment.length).head?.all (· == '/'))

def Request.isApi (r : Request) : Bool := startsWithSegments r.path "/api"

/-- What the middleware itself writes; `callsNext` says whether the request is
passed on. -/
structure Response where
  statusCode : Option ℕ
  headers : List (String × String)
  contentType : Option String
  body : Option String
  callsNext : Bool
deriving DecidableEq, Repr

def passThrough : Response := ⟨none, [], none, none, true⟩

def tooManyRequests (limit : ℤ) : Response where
  statusCode := some 429
  headers := [("Retry-After", "60"), ("X-RateLimit-Limit", toString limit)]
  contentType := some "application/json"
  body := some
    "\x7b\"error\":\"Rate limit exceeded (Public Demo)\",\"retryAfterSeconds\":60\x7d"
  callsNext := false

def withinLimit (limit remaining : ℤ) : Response where
  statusCode := none
  headers :=
    [("X-RateLimit-Limit", toString limit), ("X-RateLimit-Remaining", toString remaining)]
  contentType := none
  body := none
  callsNext := true

/-- The static dictionary `_windows`. -/
abbrev Windows := String → Option SlidingWindow

/-- The window `GetOrAdd` returns for a client. -/
def windowOf (windows : Windows) (key : String) : SlidingWindow :=
  (windows key).getD SlidingWindow.empty

def invoke (limit window : ℤ) (windows : Windows) (r : Request) : Response × Windows :=
  if r.isApi then
    let consumed := tryConsume r.now limit window (windowOf windows r.clientKey)
    if consumed.1 then
      let left := remaining r.now limit window consumed.2
      (withinLimit limit left.1, Function.update windows r.clientKey (some left.2))
    else
      (tooManyRequests limit, Function.update windows r.clientKey (some consumed.2))
  else (passThrough, windows)

def defaultLimit : ℤ := 1000

/-- One minute in ticks. -/
def windowSize : ℤ := 600000000

def invokeAsync (windows : Windows) (r : Request) : Response × Windows :=
  invoke defaultLimit windowSize windows r

def machine (limit window : ℤ) : Machine Windows Request where
  start := fun _ => none
  step := fun windows r => some (invoke limit window windows r).2

/-- The windows after a sequence of requests, oldest first. -/
def windowsAfter (limit window : ℤ) (rs : List Request) : Windows :=
  rs.foldl (fun windows r => (invoke limit window windows r).2) fun _ => none

/-- The answer of `TryConsume` to a request. -/
def accepts (limit window : ℤ) (windows : Windows) (r : Request) : Bool :=
  (tryConsume r.now limit window (windowOf windows r.clientKey)).1

/-- The answer of `Remaining` when it is asked right after `TryConsume`. -/
def remainingAfter (limit window : ℤ) (windows : Windows) (r : Request) : ℤ :=
  (remaining r.now limit window
    (tryConsume r.now limit window (windowOf windows r.clientKey)).2).1

/-- The request is limited under the given client key. -/
def Request.IsFor (key : String) (r : Request) : Prop := r.isApi ∧ r.clientKey = key

instance (key : String) (r : Request) : Decidable (r.IsFor key) :=
  inferInstanceAs (Decidable (_ ∧ _))

/-- The times of a client's accepted requests, in the order of acceptance. -/
def acceptedTimes (limit window : ℤ) (key : String) (rs : List Request) : List ℤ :=
  ((machine limit window).steps rs).filterMap fun x =>
    if x.2.IsFor key ∧ accepts limit window x.1 x.2 then some x.2.now else none

/-- The times of one client's limited requests. -/
def clientTimes (key : String) (rs : List Request) : List ℤ :=
  (rs.filter fun r => r.IsFor key).map Request.now

def NeverDecreases (key : String) (rs : List Request) : Prop :=
  (clientTimes key rs).Pairwise (· ≤ ·)

/-- How many accepted times lie in the window that ends at `now`. -/
def countSince (window now : ℤ) (times : List ℤ) : ℤ :=
  (times.filter (now - window ≤ ·)).length

theorem run_eq (limit window : ℤ) (rs : List Request) :
    (machine limit window).run rs = some (windowsAfter limit window rs) := by
  induction rs using List.reverseRecOn with
  | nil => rfl
  | append_singleton rs r ih =>
    rw [Machine.run_snoc, ih]
    simp [machine, windowsAfter, List.foldl_append]

theorem windowsAfter_snoc (limit window : ℤ) (rs : List Request) (r : Request) :
    windowsAfter limit window (rs ++ [r]) =
      (invoke limit window (windowsAfter limit window rs) r).2 := by
  simp [windowsAfter, List.foldl_append]

theorem acceptedTimes_snoc (limit window : ℤ) (key : String) (rs : List Request)
    (r : Request) :
    acceptedTimes limit window key (rs ++ [r]) = acceptedTimes limit window key rs ++
      if r.IsFor key ∧ accepts limit window (windowsAfter limit window rs) r
      then [r.now] else [] := by
  unfold acceptedTimes
  rw [(machine limit window).steps_snoc (run_eq limit window rs), List.filterMap_append]
  by_cases h : r.IsFor key ∧ accepts limit window (windowsAfter limit window rs) r <;>
    simp [h]

/-- A request changes at most the window of its own client. -/
theorem windowOf_invoke_of_not_isFor (limit window : ℤ) (windows : Windows) {key : String}
    {r : Request} (h : ¬ r.IsFor key) :
    windowOf (invoke limit window windows r).2 key = windowOf windows key := by
  unfold invoke
  by_cases hapi : r.isApi
  · have hkey : key ≠ r.clientKey := fun heq => h ⟨hapi, heq.symm⟩
    simp only [hapi, ite_true]
    split <;> simp [windowOf, Function.update_of_ne hkey]
  · simp [hapi]

/-- The queue of a client after one of its requests. -/
theorem windowOf_invoke_of_isFor (limit window : ℤ) (windows : Windows) {key : String}
    {r : Request} (h : r.IsFor key) :
    windowOf (invoke limit window windows r).2 key =
      if accepts limit window windows r then
        evict r.now window ⟨(evict r.now window (windowOf windows key)).timestamps ++ [r.now]⟩
      else evict r.now window (windowOf windows key) := by
  obtain ⟨hapi, rfl⟩ := h
  have hsnd := tryConsume_snd r.now limit window (windowOf windows r.clientKey)
  unfold invoke accepts
  cases hacc : (tryConsume r.now limit window (windowOf windows r.clientKey)).1 with
  | true =>
    rw [hacc] at hsnd
    simp only [hapi, ite_true, hsnd, remaining, hacc]
    simp [windowOf]
  | false =>
    rw [hacc] at hsnd
    simp only [hapi, ite_true, hsnd, hacc, Bool.false_eq_true, ite_false]
    simp [windowOf]

theorem clientTimes_snoc (key : String) (rs : List Request) (r : Request) :
    clientTimes key (rs ++ [r]) =
      clientTimes key rs ++ if r.IsFor key then [r.now] else [] := by
  unfold clientTimes
  by_cases h : r.IsFor key <;> simp [List.filter_append, h]

/-- The queue holds the accepted history but for times that no window ending at
or after the times seen so far reaches back to. -/
structure Matches (window : ℤ) (times history : List ℤ) (w : SlidingWindow) : Prop where
  sorted : history.Pairwise (· ≤ ·)
  bound : ∀ now, (∀ t ∈ times, t ≤ now) → ∀ t ∈ history, t ≤ now
  pruned : ∀ now, (∀ t ∈ times, t ≤ now) →
    PrunedTo (now - window) history w.timestamps

namespace Matches

variable {window : ℤ} {times history : List ℤ} {w : SlidingWindow}

theorem empty (window : ℤ) : Matches window [] [] SlidingWindow.empty where
  sorted := List.Pairwise.nil
  bound := fun _ _ _ ht => absurd ht List.not_mem_nil
  pruned := fun _ _ => prunedTo_refl _ []

/-- Evicting at a time not before the others leaves the window's accepted times. -/
theorem evict_eq (h : Matches window times history w) {now : ℤ}
    (hnow : ∀ t ∈ times, t ≤ now) :
    (evict now window w).timestamps = history.filter (now - window ≤ ·) :=
  (h.pruned now hnow).dropWhile_eq h.sorted

theorem evict (h : Matches window times history w) (now : ℤ) (hnow : ∀ t ∈ times, t ≤ now) :
    Matches window (times ++ [now]) history (evict now window w) where
  sorted := h.sorted
  bound := fun n hn => h.bound n fun t ht => hn t (List.mem_append_left _ ht)
  pruned := by
    intro n hn
    have hle : now ≤ n := hn now (by simp)
    exact (evict_prunedTo (h.pruned now hnow) le_rfl).mono (by omega)

theorem accept (h : Matches window times history w) (now : ℤ) (hnow : ∀ t ∈ times, t ≤ now) :
    Matches window (times ++ [now]) (history ++ [now])
      ⟨(RateWindow.evict now window w).timestamps ++ [now]⟩ where
  sorted := by
    rw [List.pairwise_append]
    refine ⟨h.sorted, List.pairwise_singleton _ _, ?_⟩
    intro t ht u hu
    rw [List.mem_singleton.mp hu]
    exact h.bound now hnow t ht
  bound := by
    intro n hn t ht
    rcases List.mem_append.mp ht with ht | ht
    · exact h.bound n (fun u hu => hn u (List.mem_append_left _ hu)) t ht
    · exact hn t (List.mem_append_right _ ht)
  pruned := by
    intro n hn
    exact ((h.evict now hnow).pruned n hn).snoc now

theorem same_times (h : Matches window (times ++ [now] ++ [now]) history w) :
    Matches window (times ++ [now]) history w where
  sorted := h.sorted
  bound := fun n hn => h.bound n fun t ht => hn t (by simpa using ht)
  pruned := fun n hn => h.pruned n fun t ht => hn t (by simpa using ht)

end Matches

theorem times_le_of_neverDecreases {key : String} {rs : List Request} {r : Request}
    (hfor : r.IsFor key) (hmono : NeverDecreases key (rs ++ [r])) :
    ∀ t ∈ clientTimes key rs, t ≤ r.now := by
  unfold NeverDecreases at hmono
  rw [clientTimes_snoc, List.pairwise_append] at hmono
  intro t ht
  exact hmono.2.2 t ht r.now (by simp [hfor])

theorem NeverDecreases.of_snoc {key : String} {rs : List Request} {r : Request}
    (hmono : NeverDecreases key (rs ++ [r])) : NeverDecreases key rs := by
  unfold NeverDecreases at hmono
  rw [clientTimes_snoc, List.pairwise_append] at hmono
  exact hmono.1

theorem NeverDecreases.sublist {key : String} {rs rs' : List Request}
    (hmono : NeverDecreases key rs) (hsub : rs'.Sublist rs) : NeverDecreases key rs' :=
  List.Pairwise.sublist ((hsub.filter _).map _) hmono

theorem remove_sublist (before after : List Request) (x r : Request) :
    ((before ++ after) ++ [r]).Sublist ((before ++ x :: after) ++ [r]) :=
  ((List.Sublist.refl before).append (List.sublist_cons_self x after)).append
    (List.Sublist.refl [r])

theorem snoc_le {times : List ℤ} {now : ℤ} (h : ∀ t ∈ times, t ≤ now) :
    ∀ t ∈ times ++ [now], t ≤ now := by
  intro t ht
  rcases List.mem_append.mp ht with ht | ht
  · exact h t ht
  · exact (List.mem_singleton.mp ht).le

/-- The window of a client matches its accepted history after every sequence of
requests in which its times never decrease. -/
theorem matches_windowsAfter (limit window : ℤ) (key : String) (rs : List Request)
    (hmono : NeverDecreases key rs) :
    Matches window (clientTimes key rs) (acceptedTimes limit window key rs)
      (windowOf (windowsAfter limit window rs) key) := by
  induction rs using List.reverseRecOn with
  | nil => exact Matches.empty window
  | append_singleton rs r ih =>
    have h := ih hmono.of_snoc
    rw [clientTimes_snoc, acceptedTimes_snoc, windowsAfter_snoc]
    by_cases hfor : r.IsFor key
    · have hnow := times_le_of_neverDecreases hfor hmono
      rw [windowOf_invoke_of_isFor limit window _ hfor]
      cases hacc : accepts limit window (windowsAfter limit window rs) r with
      | true =>
        have hevict := (h.accept r.now hnow).evict r.now (snoc_le hnow)
        simpa [hfor] using hevict.same_times
      | false => simpa [hfor] using h.evict r.now hnow
    · rw [windowOf_invoke_of_not_isFor limit window _ hfor]
      simpa [hfor] using h

section Exact

variable (limit window : ℤ) (rs : List Request) (r : Request)

/-- A request is accepted exactly when fewer than `limit` accepted requests of
its client lie in the window that ends at its time. -/
theorem accepts_iff (hapi : r.isApi) (hmono : NeverDecreases r.clientKey (rs ++ [r])) :
    accepts limit window (windowsAfter limit window rs) r = true ↔
      countSince window r.now (acceptedTimes limit window r.clientKey rs) < limit := by
  have hfor : r.IsFor r.clientKey := ⟨hapi, rfl⟩
  have hmatch := matches_windowsAfter limit window r.clientKey rs hmono.of_snoc
  unfold accepts countSince
  rw [tryConsume_fst, hmatch.evict_eq (times_le_of_neverDecreases hfor hmono)]

/-- `Remaining` asked right after an accepted request counts that request too. -/
theorem remainingAfter_eq (hapi : r.isApi) (hmono : NeverDecreases r.clientKey (rs ++ [r]))
    (hacc : accepts limit window (windowsAfter limit window rs) r = true) :
    remainingAfter limit window (windowsAfter limit window rs) r =
      limit - countSince window r.now (acceptedTimes limit window r.clientKey (rs ++ [r])) := by
  have hfor : r.IsFor r.clientKey := ⟨hapi, rfl⟩
  have hmatch := matches_windowsAfter limit window r.clientKey rs hmono.of_snoc
  have hnow := times_le_of_neverDecreases hfor hmono
  have hmatch' := hmatch.accept r.now hnow
  have hcount := (accepts_iff limit window rs r hapi hmono).mp hacc
  have hhistory : acceptedTimes limit window r.clientKey (rs ++ [r]) =
      acceptedTimes limit window r.clientKey rs ++ [r.now] := by
    rw [acceptedTimes_snoc]
    simp [hfor, hacc]
  have hle : countSince window r.now (acceptedTimes limit window r.clientKey (rs ++ [r])) ≤
      limit := by
    rw [hhistory]
    unfold countSince at hcount ⊢
    have hone := List.length_filter_le (r.now - window ≤ ·) [r.now]
    simp only [List.filter_append, List.length_append, List.length_singleton] at hone ⊢
    omega
  unfold remainingAfter remaining
  unfold accepts at hacc
  rw [tryConsume_snd, hacc]
  simp only [ite_true]
  rw [hmatch'.evict_eq (snoc_le hnow), ← hhistory]
  unfold countSince at hle ⊢
  omega

end Exact

/-- A request that cannot matter to a client: it is not limited, or it belongs
to another client, or it is rejected where it stands. -/
def Irrelevant (limit window : ℤ) (key : String) (before : List Request) (x : Request) :
    Prop :=
  x.isApi = false ∨ x.clientKey ≠ key ∨
    accepts limit window (windowsAfter limit window before) x = false

/-- Leaving out an irrelevant request changes no accepted time of the client. -/
theorem acceptedTimes_remove (limit window : ℤ) (key : String) (before after : List Request)
    (x : Request) (hx : Irrelevant limit window key before x)
    (hmono : NeverDecreases key (before ++ x :: after)) :
    acceptedTimes limit window key (before ++ x :: after) =
      acceptedTimes limit window key (before ++ after) := by
  induction after using List.reverseRecOn with
  | nil =>
    rw [acceptedTimes_snoc, List.append_nil]
    have hnot : ¬ (x.IsFor key ∧
        accepts limit window (windowsAfter limit window before) x = true) := by
      rintro ⟨⟨hapi, hkey⟩, hacc⟩
      rcases hx with h | h | h
      · rw [h] at hapi
        cases hapi
      · exact h hkey
      · rw [h] at hacc
        cases hacc
    rw [ite_cond_eq_false _ _ (eq_false hnot), List.append_nil]
  | append_singleton after r ih =>
    have hsplit : before ++ x :: (after ++ [r]) = (before ++ x :: after) ++ [r] := by simp
    rw [hsplit] at hmono
    rw [hsplit, ← List.append_assoc, acceptedTimes_snoc, acceptedTimes_snoc,
      ih hmono.of_snoc]
    congr 1
    by_cases hfor : r.IsFor key
    · obtain ⟨hapi, rfl⟩ := hfor
      have hmono' : NeverDecreases r.clientKey ((before ++ after) ++ [r]) :=
        hmono.sublist (remove_sublist before after x r)
      have hiff := accepts_iff limit window (before ++ x :: after) r hapi hmono
      have hiff' := accepts_iff limit window (before ++ after) r hapi hmono'
      rw [ih hmono.of_snoc] at hiff
      simp only [hiff, hiff']
    · simp [hfor]

/-- The response is decided by the two answers of the client's window. -/
theorem invoke_response (limit window : ℤ) (windows : Windows) (r : Request) :
    (invoke limit window windows r).1 =
      if r.isApi then
        if accepts limit window windows r
        then withinLimit limit (remainingAfter limit window windows r)
        else tooManyRequests limit
      else passThrough := by
  unfold invoke accepts remainingAfter
  by_cases hapi : r.isApi
  · cases hacc : (tryConsume r.now limit window (windowOf windows r.clientKey)).1 <;>
      simp [hapi, hacc]
  · simp [hapi]

/-- The limiter is an exact sliding window for each client whose times never
decrease: its decision counts the whole accepted history, the remaining number
is what the history leaves, and no irrelevant request has a say. -/
theorem sliding_window_exact (limit window : ℤ) (rs : List Request) (r : Request)
    (hapi : r.isApi) (hmono : NeverDecreases r.clientKey (rs ++ [r])) :
    (accepts limit window (windowsAfter limit window rs) r = true ↔
      countSince window r.now (acceptedTimes limit window r.clientKey rs) < limit) ∧
    (accepts limit window (windowsAfter limit window rs) r = true →
      remainingAfter limit window (windowsAfter limit window rs) r =
        limit - countSince window r.now
          (acceptedTimes limit window r.clientKey (rs ++ [r]))) ∧
    ∀ before x after, rs = before ++ x :: after →
      Irrelevant limit window r.clientKey before x →
        accepts limit window (windowsAfter limit window rs) r =
          accepts limit window (windowsAfter limit window (before ++ after)) r := by
  refine ⟨accepts_iff limit window rs r hapi hmono,
    remainingAfter_eq limit window rs r hapi hmono, ?_⟩
  rintro before x after rfl hx
  have hmono' : NeverDecreases r.clientKey ((before ++ after) ++ [r]) :=
    hmono.sublist (remove_sublist before after x r)
  have hiff := accepts_iff limit window (before ++ x :: after) r hapi hmono
  have hiff' := accepts_iff limit window (before ++ after) r hapi hmono'
  rw [acceptedTimes_remove limit window r.clientKey before after x hx hmono.of_snoc] at hiff
  rw [Bool.eq_iff_iff, hiff, hiff']

def sampleRequest (path ip : String) (now : ℤ) : Request := ⟨path, some ip, now⟩

/-- Two clients; the third request of the first one is rejected. -/
def sampleTraffic : List Request :=
  [sampleRequest "/api/packets" "10.0.0.5" 100, sampleRequest "/hubs/aether-lens" "10.0.0.5" 101,
    sampleRequest "/api/packets" "10.0.0.7" 90, sampleRequest "/API" "10.0.0.5" 104,
    sampleRequest "/api" "10.0.0.5" 105]

theorem sliding_window_exact_sampleTraffic :
    accepts 2 10 (windowsAfter 2 10 sampleTraffic) (sampleRequest "/api" "10.0.0.5" 111) =
      true :=
  (sliding_window_exact 2 10 sampleTraffic (sampleRequest "/api" "10.0.0.5" 111) (by decide)
    (by unfold NeverDecreases; decide)).1.mpr (by decide)

end AetherLens.RateLimiter
