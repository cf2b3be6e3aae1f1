import Mathlib.Data.List.Infix
import Mathlib.Data.List.Nodup
import Mathlib.Logic.Function.Basic

/-!
The windows of a counter along a sequence of steps. Some steps put a thing into the
counter, and some take out all that it holds and leave it empty. What is taken at one
time is a window. The windows and what the counter still holds are, in order, the things
that were put in, each of them once.
-/
namespace AetherLens.ExchangedWindows

variable {α κ ι : Type*}

/-- The windows taken so far, each with its taker, and the one that is still open. -/
structure Windows (ι κ : Type*) where
  taken : List (ι × List κ)
  current : List κ
deriving DecidableEq, Repr

namespace Windows

def empty : Windows ι κ := ⟨[], []⟩

/-- All windows, the oldest first. -/
def all (windows : Windows ι κ) : List (List κ) :=
  windows.taken.map Prod.snd ++ [windows.current]

def put (windows : Windows ι κ) (things : List κ) : Windows ι κ :=
  { windows with current := windows.current ++ things }

def take (windows : Windows ι κ) (j : ι) : Windows ι κ :=
  ⟨windows.taken ++ [(j, windows.current)], []⟩

theorem flatten_all_put (windows : Windows ι κ) (things : List κ) :
    (windows.put things).all.flatten = windows.all.flatten ++ things := by
  simp [all, put]

theorem flatten_all_take (windows : Windows ι κ) (j : ι) :
    (windows.take j).all.flatten = windows.all.flatten := by
  simp [all, take]

end Windows

variable (into : α → Option κ) (taker : α → Option ι)

def next (windows : Windows ι κ) (x : α) : Windows ι κ :=
  match taker x with
  | none => windows.put (into x).toList
  | some j => windows.take j

def windows (trace : List α) : Windows ι κ := trace.foldl (next into taker) Windows.empty

section Snoc

variable {into taker} {x : α}

theorem windows_snoc_of_none (trace : List α) (h : taker x = none) :
    windows into taker (trace ++ [x]) = (windows into taker trace).put (into x).toList := by
  rw [windows, List.foldl_append]
  simp only [List.foldl_cons, List.foldl_nil, next, h]
  rfl

theorem windows_snoc_of_some (trace : List α) {j : ι} (h : taker x = some j) :
    windows into taker (trace ++ [x]) = (windows into taker trace).take j := by
  rw [windows, List.foldl_append]
  simp only [List.foldl_cons, List.foldl_nil, next, h]
  rfl

/-- Nothing that is put in is lost or comes into two windows, as long as no step both puts
something in and takes all out. -/
theorem flatten_all_windows (trace : List α)
    (hone : ∀ x ∈ trace, ∀ j, taker x = some j → into x = none) :
    (windows into taker trace).all.flatten = trace.filterMap into := by
  induction trace using List.reverseRecOn with
  | nil => rfl
  | append_singleton trace x ih =>
    have hrest := ih fun y hy => hone y (List.mem_append_left _ hy)
    rw [List.filterMap_append, ← hrest]
    cases h : taker x with
    | none =>
      rw [windows_snoc_of_none trace h, Windows.flatten_all_put]
      cases hx : into x <;> simp [hx]
    | some j =>
      have hnone := hone x (List.mem_append_right _ (List.mem_singleton_self x)) j h
      rw [windows_snoc_of_some trace h, Windows.flatten_all_take]
      simp [hnone]

end Snoc

section Reflects

/-- What is known of a counter and its takers: what it holds, and what each taker has
taken, if anything. -/
structure Holding (ι κ : Type*) where
  held : List κ
  takenBy : ι → Option (List κ)

/-- The windows are those of the counter, and no taker has taken twice. -/
structure Windows.Reflects (windows : Windows ι κ) (holding : Holding ι κ) : Prop where
  current_eq : windows.current = holding.held
  mem_taken_iff : ∀ j window, (j, window) ∈ windows.taken ↔ holding.takenBy j = some window
  nodup : (windows.taken.map Prod.fst).Nodup

theorem reflects_empty : (Windows.empty : Windows ι κ).Reflects ⟨[], fun _ => none⟩ where
  current_eq := rfl
  mem_taken_iff := by simp [Windows.empty]
  nodup := List.nodup_nil

variable {windows : Windows ι κ} {before after : Holding ι κ}

theorem Windows.Reflects.put (h : windows.Reflects before) {things : List κ}
    (hheld : after.held = before.held ++ things) (htaken : after.takenBy = before.takenBy) :
    (windows.put things).Reflects after where
  current_eq := by rw [Windows.put, hheld, h.current_eq]
  mem_taken_iff := by
    rw [htaken]
    exact h.mem_taken_iff
  nodup := h.nodup

/-- A taker that has taken nothing before takes all that the counter holds. -/
theorem Windows.Reflects.take [DecidableEq ι] (h : windows.Reflects before) {j : ι}
    (hfirst : before.takenBy j = none) (hheld : after.held = [])
    (htaken : after.takenBy = Function.update before.takenBy j (some before.held)) :
    (windows.take j).Reflects after where
  current_eq := hheld.symm
  mem_taken_iff := by
    intro k window
    rw [htaken, Windows.take, List.mem_append, List.mem_singleton, Prod.mk.injEq, h.current_eq,
      h.mem_taken_iff]
    by_cases hkj : k = j
    · subst k
      rw [Function.update_self, hfirst]
      simp [eq_comm]
    · rw [Function.update_of_ne hkj]
      simp [hkj]
  nodup := by
    have hnew : j ∉ windows.taken.map Prod.fst := by
      intro hmem
      obtain ⟨⟨k, window⟩, hwindow, rfl⟩ := List.mem_map.mp hmem
      rw [(h.mem_taken_iff k window).mp hwindow] at hfirst
      cases hfirst
    rw [Windows.take, List.map_append, List.map_singleton, ← List.concat_eq_append]
    exact List.Nodup.concat hnew h.nodup

end Reflects

end AetherLens.ExchangedWindows
