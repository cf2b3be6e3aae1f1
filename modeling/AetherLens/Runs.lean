import Mathlib.Data.List.Infix
import Mathlib.Data.Option.Basic

/-!
Finite runs of a system whose steps are labelled by events. The step function
is executable: an event that is not enabled gives `none`. A run is the list of
its events, oldest first, so the states it visits are those its prefixes reach.
Nothing here depends on what the system is.
-/
namespace AetherLens.Runs

theorem pairwise_concat {α : Type*} {Agrees : α → α → Prop} (xs : List α) (y : α) :
    (xs ++ [y]).Pairwise Agrees ↔ xs.Pairwise Agrees ∧ ∀ x ∈ xs, Agrees x y := by
  simp only [List.pairwise_append, List.pairwise_singleton, true_and, List.mem_singleton,
    forall_eq]

structure Machine (State Event : Type*) where
  start : State
  step : State → Event → Option State

namespace Machine

variable {State Event : Type*} (M : Machine State Event)

def run (es : List Event) : Option State := es.foldlM M.step M.start

theorem run_nil : M.run [] = some M.start := rfl

theorem run_snoc (es : List Event) (e : Event) :
    M.run (es ++ [e]) = (M.run es).bind fun s => M.step s e := by
  simp [run, List.foldlM_append]

theorem run_snoc_eq_some {es : List Event} {e : Event} {t : State}
    (h : M.run (es ++ [e]) = some t) :
    ∃ s, M.run es = some s ∧ M.step s e = some t := by
  rw [run_snoc] at h
  exact Option.bind_eq_some_iff.mp h

theorem run_snoc_of_step {es : List Event} {e : Event} {s t : State} (hs : M.run es = some s)
    (hse : M.step s e = some t) : M.run (es ++ [e]) = some t := by
  rw [run_snoc, hs]
  exact hse

/-- A system that refuses no event runs through every list of events. -/
theorem exists_run (htotal : ∀ s e, ∃ t, M.step s e = some t) (es : List Event) :
    ∃ s, M.run es = some s := by
  induction es using List.reverseRecOn with
  | nil => exact ⟨M.start, M.run_nil⟩
  | append_singleton es e ih =>
    obtain ⟨s, hs⟩ := ih
    obtain ⟨t, ht⟩ := htotal s e
    exact ⟨t, M.run_snoc_of_step hs ht⟩

/-- Induction along a run. The invariant may speak of the events so far. -/
theorem run_induction (Inv : List Event → State → Prop) (h0 : Inv [] M.start)
    (hstep : ∀ es s e t, M.run es = some s → M.step s e = some t →
      Inv es s → Inv (es ++ [e]) t) :
    ∀ es s, M.run es = some s → Inv es s := by
  intro es
  induction es using List.reverseRecOn with
  | nil =>
    intro s hs
    rw [run_nil] at hs
    cases hs
    exact h0
  | append_singleton es e ih =>
    intro t ht
    obtain ⟨s, hs, hse⟩ := M.run_snoc_eq_some ht
    exact hstep es s e t hs hse (ih s hs)

/-- A history to which every step adds grows by all that the steps add. -/
theorem foldlM_history {α : Type*} (history : State → List α) (adds : Event → List α)
    (hstep : ∀ s e t, M.step s e = some t → history t = history s ++ adds e)
    (es : List Event) (s t : State) (h : es.foldlM M.step s = some t) :
    history t = history s ++ es.flatMap adds := by
  induction es generalizing s with
  | nil =>
    cases h
    exact (List.append_nil _).symm
  | cons e es ih =>
    rw [List.foldlM_cons] at h
    obtain ⟨u, hu, hrest⟩ := Option.bind_eq_some_iff.mp h
    rw [ih u hrest, hstep s e u hu, List.flatMap_cons, List.append_assoc]

/-- A property of states that every step preserves holds after every run. -/
theorem run_invariant (Inv : State → Prop) (h0 : Inv M.start)
    (hstep : ∀ s e t, M.step s e = some t → Inv s → Inv t)
    {es : List Event} {s : State} (hs : M.run es = some s) : Inv s :=
  M.run_induction (fun _ s => Inv s) h0
    (fun _ s e t _ hse h => hstep s e t hse h) es s hs

/-- The steps of a run, each with the state it is taken from. -/
def stepsFrom : State → List Event → List (State × Event)
  | _, [] => []
  | s, e :: es => (s, e) :: ((M.step s e).elim [] fun t => stepsFrom t es)

def steps (es : List Event) : List (State × Event) := M.stepsFrom M.start es

theorem mem_of_mem_stepsFrom {x : State × Event} {s : State} {es : List Event}
    (h : x ∈ M.stepsFrom s es) : x.2 ∈ es := by
  induction es generalizing s with
  | nil => cases h
  | cons e es ih =>
    rcases List.mem_cons.mp h with rfl | hrest
    · exact List.mem_cons_self
    · refine List.mem_cons_of_mem e ?_
      cases hstep : M.step s e with
      | none =>
        rw [hstep] at hrest
        cases hrest
      | some t =>
        rw [hstep] at hrest
        exact ih hrest

theorem mem_of_mem_steps {x : State × Event} {es : List Event} (h : x ∈ M.steps es) :
    x.2 ∈ es :=
  M.mem_of_mem_stepsFrom h

theorem stepsFrom_append (es later : List Event) (s t : State)
    (ht : es.foldlM M.step s = some t) :
    M.stepsFrom s (es ++ later) = M.stepsFrom s es ++ M.stepsFrom t later := by
  induction es generalizing s with
  | nil =>
    cases ht
    rfl
  | cons a es ih =>
    rw [List.foldlM_cons] at ht
    obtain ⟨u, hu, hrest⟩ := Option.bind_eq_some_iff.mp ht
    simp only [List.cons_append, stepsFrom, hu, Option.elim_some]
    rw [ih u hrest]

theorem steps_append {es : List Event} {s : State} (hs : M.run es = some s)
    (later : List Event) : M.steps (es ++ later) = M.steps es ++ M.stepsFrom s later :=
  M.stepsFrom_append es later M.start s hs

theorem steps_snoc {es : List Event} {e : Event} {s : State} (hs : M.run es = some s) :
    M.steps (es ++ [e]) = M.steps es ++ [(s, e)] := by
  rw [M.steps_append hs]
  cases h : M.step s e <;> simp [stepsFrom, h]

/-- Every step of the run is taken from a state that allows it. -/
def Meets (ok : State → Event → Prop) (es : List Event) : Prop :=
  ∀ x ∈ M.steps es, ok x.1 x.2

instance (ok : State → Event → Prop) [∀ s e, Decidable (ok s e)] (es : List Event) :
    Decidable (M.Meets ok es) := inferInstanceAs (Decidable (∀ x ∈ M.steps es, ok x.1 x.2))

theorem meets_nil (ok : State → Event → Prop) : M.Meets ok [] := by
  intro x hx
  cases hx

theorem meets_snoc {ok : State → Event → Prop} {es : List Event} {e : Event} {s : State}
    (hs : M.run es = some s) : M.Meets ok (es ++ [e]) ↔ M.Meets ok es ∧ ok s e := by
  unfold Meets
  rw [M.steps_snoc hs]
  constructor
  · intro h
    exact ⟨fun x hx => h x (List.mem_append_left _ hx), h (s, e) (by simp)⟩
  · rintro ⟨hes, hok⟩ x hx
    rcases List.mem_append.mp hx with hold | hnew
    · exact hes x hold
    · rw [List.mem_singleton.mp hnew]
      exact hok

/-- The property holds in every state the run visits, the first one included. -/
def Always (P : State → Prop) (es : List Event) : Prop :=
  ∀ pre, pre <+: es → ∀ s, M.run pre = some s → P s

theorem always_nil {P : State → Prop} : M.Always P [] ↔ P M.start := by
  constructor
  · intro h
    exact h [] (List.prefix_refl _) M.start rfl
  · intro h pre hpre s hs
    rw [List.prefix_nil.mp hpre, run_nil] at hs
    cases hs
    exact h

theorem always_snoc {P : State → Prop} {es : List Event} {e : Event} {t : State}
    (ht : M.run (es ++ [e]) = some t) :
    M.Always P (es ++ [e]) ↔ M.Always P es ∧ P t := by
  constructor
  · intro h
    exact ⟨fun pre hpre => h pre (hpre.trans (List.prefix_append es [e])),
      h _ (List.prefix_refl _) t ht⟩
  · rintro ⟨hes, hP⟩ pre hpre s hs
    rcases List.prefix_concat_iff.mp hpre with rfl | hold
    · rw [ht] at hs
      cases hs
      exact hP
    · exact hes pre hold s hs

/-- What holds in every state visited holds where each step is taken. -/
theorem meets_of_always {P : State → Prop} {ok : State → Event → Prop}
    (hok : ∀ s e, P s → ok s e) :
    ∀ es s, M.run es = some s → M.Always P es → M.Meets ok es := by
  apply M.run_induction fun es _ => M.Always P es → M.Meets ok es
  · exact fun _ => M.meets_nil ok
  · intro es s e t hs hse ih halways
    have hold : M.Always P es := fun pre hpre =>
      halways pre (hpre.trans (List.prefix_append es [e]))
    exact (M.meets_snoc hs).mpr ⟨ih hold, hok s e (hold es (List.prefix_refl _) s hs)⟩

/-- Conditions that agree on all the states a run visits hold of the same runs. -/
theorem meets_congr_of_always {P : State → Prop} {ok ok' : State → Event → Prop}
    (hok : ∀ s e, P s → (ok s e ↔ ok' s e)) {es : List Event} {s : State}
    (hs : M.run es = some s) (halways : M.Always P es) : M.Meets ok es ↔ M.Meets ok' es := by
  have hagree : M.Meets (fun s e => ok s e ↔ ok' s e) es :=
    M.meets_of_always hok es s hs halways
  exact forall₂_congr hagree

/-- When a step from a good state ends in a good state exactly if it is allowed,
the runs that stay good are exactly the runs whose steps are all allowed. The
invariant holds in every state, good or not. -/
theorem always_iff_meets (Inv : State → Prop) (hinv0 : Inv M.start)
    (hinv : ∀ s e t, M.step s e = some t → Inv s → Inv t) {P : State → Prop}
    {ok : State → Event → Prop} (h0 : P M.start)
    (hstep : ∀ s e t, M.step s e = some t → Inv s → P s → (P t ↔ ok s e)) :
    ∀ es s, M.run es = some s → (M.Always P es ↔ M.Meets ok es) := by
  apply M.run_induction fun es _ => M.Always P es ↔ M.Meets ok es
  · exact iff_of_true (M.always_nil.mpr h0) (M.meets_nil ok)
  · intro es s e t hs hse ih
    have ht := M.run_snoc_of_step hs hse
    have hgood : M.Always P es → (P t ↔ ok s e) := fun halways =>
      hstep s e t hse (M.run_invariant Inv hinv0 hinv hs)
        (halways es (List.prefix_refl _) s hs)
    rw [M.always_snoc ht, M.meets_snoc hs, ← ih]
    exact and_congr_right hgood

/-- The case in which the property needs no invariant beside it. -/
theorem always_iff_meets_of_step {P : State → Prop} {ok : State → Event → Prop} (h0 : P M.start)
    (hstep : ∀ s e t, M.step s e = some t → P s → (P t ↔ ok s e)) :
    ∀ es s, M.run es = some s → (M.Always P es ↔ M.Meets ok es) :=
  M.always_iff_meets (fun _ => True) trivial (fun _ _ _ _ _ => trivial) h0
    (fun s e t hs _ h => hstep s e t hs h)

section Reachable

variable (Inv : State → Prop) (hinv0 : Inv M.start)
  (hinv : ∀ s e t, M.step s e = some t → Inv s → Inv t)

include hinv0 hinv

/-- A property that the allowed steps preserve holds all along a run of them. -/
theorem always_of_meets {P : State → Prop} {ok : State → Event → Prop} (h0 : P M.start)
    (hstep : ∀ s e t, M.step s e = some t → Inv s → ok s e → P s → P t) :
    ∀ es s, M.run es = some s → M.Meets ok es → M.Always P es := by
  apply M.run_induction fun es _ => M.Meets ok es → M.Always P es
  · exact fun _ => M.always_nil.mpr h0
  · intro es s e t hs hse ih hmeets
    have ht := M.run_snoc_of_step hs hse
    obtain ⟨hold, hok⟩ := (M.meets_snoc hs).mp hmeets
    have halways := ih hold
    refine (M.always_snoc ht).mpr ⟨halways, ?_⟩
    exact hstep s e t hse (M.run_invariant Inv hinv0 hinv hs) hok
      (halways es (List.prefix_refl _) s hs)

end Reachable

section History

variable (Inv : List (State × Event) → State → Prop) (hinv0 : Inv [] M.start)
  (hinv : ∀ history s e t, M.step s e = some t → Inv history s → Inv (history ++ [(s, e)]) t)

include hinv0 hinv

/-- An invariant that may speak of the steps so far, with the states they are taken from. -/
theorem run_history : ∀ es s, M.run es = some s → Inv (M.steps es) s := by
  apply M.run_induction fun es s => Inv (M.steps es) s
  · exact hinv0
  · intro es s e t hs hse ih
    rw [M.steps_snoc hs]
    exact hinv (M.steps es) s e t hse ih

/-- Where a step is allowed exactly if it agrees with every earlier one, the runs of
allowed steps are those whose steps agree, each with every later one. -/
theorem meets_iff_pairwise {ok : State → Event → Prop}
    {Agrees : State × Event → State × Event → Prop}
    (hstep : ∀ history s e t, M.step s e = some t → Inv history s →
      (ok s e ↔ ∀ x ∈ history, Agrees x (s, e))) :
    ∀ es s, M.run es = some s → (M.Meets ok es ↔ (M.steps es).Pairwise Agrees) := by
  apply M.run_induction fun es _ => M.Meets ok es ↔ (M.steps es).Pairwise Agrees
  · exact iff_of_true (M.meets_nil ok) List.Pairwise.nil
  · intro es s e t hs hse ih
    have hinvs := M.run_history Inv hinv0 hinv es s hs
    rw [M.meets_snoc hs, M.steps_snoc hs, pairwise_concat, ih,
      hstep (M.steps es) s e t hse hinvs]

end History

/-- When a step from a good state ends in a good state exactly if it agrees with every
earlier one, the runs that stay good are those whose steps agree, each with every later
one. The invariant has to hold only as long as the run is good. -/
theorem always_iff_pairwise {P : State → Prop} {Agrees : State × Event → State × Event → Prop}
    (Inv : List (State × Event) → State → Prop) (hinv0 : Inv [] M.start)
    (hinv : ∀ history s e t, M.step s e = some t → P t → Inv history s →
      Inv (history ++ [(s, e)]) t)
    (h0 : P M.start)
    (hstep : ∀ history s e t, M.step s e = some t → P s → Inv history s →
      (P t ↔ ∀ x ∈ history, Agrees x (s, e))) :
    ∀ es s, M.run es = some s → (M.Always P es ↔ (M.steps es).Pairwise Agrees) := by
  have hboth : ∀ es s, M.run es = some s →
      (M.Always P es → Inv (M.steps es) s) ∧ (M.Always P es ↔ (M.steps es).Pairwise Agrees) := by
    apply M.run_induction fun es s =>
      (M.Always P es → Inv (M.steps es) s) ∧ (M.Always P es ↔ (M.steps es).Pairwise Agrees)
    · exact ⟨fun _ => hinv0, iff_of_true (M.always_nil.mpr h0) List.Pairwise.nil⟩
    · rintro es s e t hs hse ⟨hkept, ih⟩
      have ht := M.run_snoc_of_step hs hse
      rw [M.always_snoc ht, M.steps_snoc hs, pairwise_concat]
      refine ⟨?_, ?_⟩
      · rintro ⟨hold, hgood⟩
        exact hinv (M.steps es) s e t hse hgood (hkept hold)
      · rw [← ih]
        refine and_congr_right fun hold => ?_
        exact hstep (M.steps es) s e t hse (hold es (List.prefix_refl _) s hs) (hkept hold)
  exact fun es s hs => (hboth es s hs).2

theorem always_of_meets_of_step {P : State → Prop} {ok : State → Event → Prop} (h0 : P M.start)
    (hstep : ∀ s e t, M.step s e = some t → ok s e → P s → P t) :
    ∀ es s, M.run es = some s → M.Meets ok es → M.Always P es :=
  M.always_of_meets (fun _ => True) trivial (fun _ _ _ _ _ => trivial) h0
    (fun s e t hs _ hok h => hstep s e t hs hok h)

section Observed

variable {Record : Type*} (first : Record) (note : State → Record → Event → Record)

/-- The system together with a record of its steps, which no step looks at. -/
def observed : Machine (State × Record) Event where
  start := (M.start, first)
  step x e := (M.step x.1 e).map fun t => (t, note x.1 x.2 e)

theorem run_observed (es : List Event) :
    ((M.observed first note).run es).map Prod.fst = M.run es := by
  induction es using List.reverseRecOn with
  | nil => rfl
  | append_singleton es e ih =>
    rw [run_snoc, run_snoc, ← ih]
    cases (M.observed first note).run es with
    | none => rfl
    | some x =>
      simp only [Option.bind_some, Option.map_some, observed, Option.map_map]
      cases M.step x.1 e <;> rfl

theorem meets_observed (ok : State → Event → Prop) :
    ∀ es x, (M.observed first note).run es = some x →
      ((M.observed first note).Meets (fun x e => ok x.1 e) es ↔ M.Meets ok es) := by
  apply (M.observed first note).run_induction fun es _ =>
    (M.observed first note).Meets (fun x e => ok x.1 e) es ↔ M.Meets ok es
  · exact iff_of_true ((M.observed first note).meets_nil _) (M.meets_nil ok)
  · intro es x e t hx _ ih
    have hs : M.run es = some x.1 := by
      rw [← M.run_observed first note, hx]
      rfl
    rw [(M.observed first note).meets_snoc hx, M.meets_snoc hs, ih]

end Observed

section Simulation

variable {State' Event' : Type*}

/-- Every step of the first system is a finite sequence of steps of the second, under a
map of the states. The sequence may be empty, and may depend on the state. -/
structure Simulation (M : Machine State Event) (N : Machine State' Event') where
  state : State → State'
  events : State → Event → List Event'
  start_eq : state M.start = N.start
  step_eq : ∀ s e t, M.step s e = some t →
    (events s e).foldlM N.step (state s) = some (state t)

namespace Simulation

variable {M} {N : Machine State' Event'} (f : M.Simulation N)

/-- The run of the second system that follows a run of the first. -/
def eventsOf (es : List Event) : List Event' := (M.steps es).flatMap fun x => f.events x.1 x.2

theorem eventsOf_snoc {es : List Event} {s : State} (hs : M.run es = some s) (e : Event) :
    f.eventsOf (es ++ [e]) = f.eventsOf es ++ f.events s e := by
  simp [eventsOf, M.steps_snoc hs]

theorem run_eventsOf : ∀ es s, M.run es = some s → N.run (f.eventsOf es) = some (f.state s) := by
  apply M.run_induction fun es s => N.run (f.eventsOf es) = some (f.state s)
  · rw [f.start_eq]
    rfl
  · intro es s e t hs hse ih
    rw [f.eventsOf_snoc hs, Machine.run, List.foldlM_append]
    change ((N.run (f.eventsOf es)).bind fun u => (f.events s e).foldlM N.step u) = _
    rw [ih]
    exact f.step_eq s e t hse

/-- What holds after every run of the second system holds of the image of every state
that the first one reaches. -/
theorem of_run {P : State' → Prop} (hP : ∀ es s, N.run es = some s → P s) {es : List Event}
    {s : State} (hs : M.run es = some s) : P (f.state s) :=
  hP _ _ (f.run_eventsOf es s hs)

end Simulation

end Simulation

section Leads

variable {M} {ok : Event → Prop} {m n : ℕ} {s t u : State}

variable (M) in
/-- Events of a kind, at most `n` of them, lead from one state to the other. -/
def LeadsIn (ok : Event → Prop) (n : ℕ) (s t : State) : Prop :=
  ∃ es : List Event, es.length ≤ n ∧ (∀ e ∈ es, ok e) ∧ es.foldlM M.step s = some t

theorem LeadsIn.refl (n : ℕ) (s : State) : M.LeadsIn ok n s s :=
  ⟨[], Nat.zero_le _, nofun, rfl⟩

theorem LeadsIn.trans (h : M.LeadsIn ok m s t) (h' : M.LeadsIn ok n t u) :
    M.LeadsIn ok (m + n) s u := by
  obtain ⟨es, hlen, hok, hrun⟩ := h
  obtain ⟨es', hlen', hok', hrun'⟩ := h'
  refine ⟨es ++ es', ?_, ?_, ?_⟩
  · rw [List.length_append]
    exact Nat.add_le_add hlen hlen'
  · intro e he
    rcases List.mem_append.mp he with he | he
    · exact hok e he
    · exact hok' e he
  · rw [List.foldlM_append, hrun]
    exact hrun'

theorem LeadsIn.of_step {e : Event} (h : M.step s e = some t) (hok : ok e) :
    M.LeadsIn ok 1 s t := by
  refine ⟨[e], Nat.le_refl _, ?_, ?_⟩
  · intro e' he'
    rw [List.mem_singleton.mp he']
    exact hok
  · rw [List.foldlM_cons, h]
    rfl

theorem LeadsIn.mono (h : M.LeadsIn ok m s t) (hmn : m ≤ n) : M.LeadsIn ok n s t := by
  obtain ⟨es, hlen, hrest⟩ := h
  exact ⟨es, hlen.trans hmn, hrest⟩

variable (M) in
/-- Events of a kind lead from one state to the other. -/
def Leads (ok : Event → Prop) (s t : State) : Prop := ∃ n, M.LeadsIn ok n s t

theorem Leads.refl (s : State) : M.Leads ok s s := ⟨0, .refl 0 s⟩

theorem Leads.trans (h : M.Leads ok s t) (h' : M.Leads ok t u) : M.Leads ok s u := by
  obtain ⟨m, hm⟩ := h
  obtain ⟨n, hn⟩ := h'
  exact ⟨m + n, hm.trans hn⟩

theorem Leads.of_step {e : Event} (h : M.step s e = some t) (hok : ok e) : M.Leads ok s t :=
  ⟨1, .of_step h hok⟩

/-- From every state that is not done some step makes something smaller, so a state that
is done can be reached. -/
theorem leads_of_progress (keeps done : State → Prop) (measure : State → ℕ)
    (hprogress : ∀ s, keeps s → done s ∨
      ∃ e t, ok e ∧ M.step s e = some t ∧ keeps t ∧ measure t < measure s)
    (s : State) (hs : keeps s) : ∃ t, M.Leads ok s t ∧ keeps t ∧ done t := by
  induction hn : measure s using Nat.strong_induction_on generalizing s with
  | _ n ih =>
    rcases hprogress s hs with hdone | ⟨e, t, hok, hstep, hkeeps, hless⟩
    · exact ⟨s, .refl s, hs, hdone⟩
    · obtain ⟨u, hu, hkeeps', hdone⟩ := ih (measure t) (hn ▸ hless) t hkeeps rfl
      exact ⟨u, (Leads.of_step hstep hok).trans hu, hkeeps', hdone⟩

/-- Steps that a second system can follow lead it along. -/
theorem Leads.follow {State' Event' : Type*} {N : Machine State' Event'} {ok' : Event' → Prop}
    (R : State → State' → Prop)
    (hfollow : ∀ s e t s', ok e → M.step s e = some t → R s s' →
      ∃ t', N.Leads ok' s' t' ∧ R t t')
    (h : M.Leads ok s t) {s' : State'} (hs : R s s') : ∃ t', N.Leads ok' s' t' ∧ R t t' := by
  obtain ⟨n, es, -, hok, hrun⟩ := h
  induction es generalizing s s' with
  | nil =>
    cases hrun
    exact ⟨s', .refl s', hs⟩
  | cons e es ih =>
    rw [List.foldlM_cons] at hrun
    obtain ⟨u, hu, hrest⟩ := Option.bind_eq_some_iff.mp hrun
    obtain ⟨u', hleads, hR⟩ := hfollow s e u s' (hok e List.mem_cons_self) hu hs
    have hok' : ∀ e' ∈ es, ok e' := fun e' he' => hok e' (List.mem_cons_of_mem e he')
    obtain ⟨t', hleads', hR'⟩ := ih hR hok' hrest
    exact ⟨t', hleads.trans hleads', hR'⟩

/-- What leads on from a reachable state leads to a reachable one. -/
theorem Leads.run {es : List Event} (h : M.Leads ok s t) (hs : M.run es = some s) :
    ∃ later, (∀ e ∈ later, ok e) ∧ M.run (es ++ later) = some t := by
  obtain ⟨n, later, -, hok, hrun⟩ := h
  refine ⟨later, hok, ?_⟩
  rw [Machine.run, List.foldlM_append, show es.foldlM M.step M.start = some s from hs]
  exact hrun

end Leads

end Machine

end AetherLens.Runs
