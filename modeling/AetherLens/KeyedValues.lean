import Mathlib.Data.List.Nodup
import Mathlib.Data.Rat.Defs

/-!
Values of a dynamically typed language, and the renaming of the keys of all objects in a
value. Keys that are renamed alike leave one entry, with the value that came last. A
renaming that does not change its own results can be applied again without effect.
-/
namespace AetherLens.KeyedValues

/-- The entries of an object stand in the order in which their keys were added. -/
inductive Value
  | null
  | bool (b : Bool)
  | number (n : ℚ)
  | string (s : String)
  | array (items : List Value)
  | object (entries : List (String × Value))

section Entries

variable {α : Type*}

def valueAt (key : String) : List (String × α) → Option α
  | [] => none
  | entry :: rest => if entry.1 = key then some entry.2 else valueAt key rest

/-- A key that is there keeps its place. -/
def setAt (key : String) (value : α) : List (String × α) → List (String × α)
  | [] => [(key, value)]
  | entry :: rest => if entry.1 = key then (key, value) :: rest else entry :: setAt key value rest

theorem valueAt_setAt (key key' : String) (value : α) (entries : List (String × α)) :
    valueAt key' (setAt key value entries) =
      if key = key' then some value else valueAt key' entries := by
  induction entries with
  | nil => rfl
  | cons entry rest ih =>
    by_cases hentry : entry.1 = key
    · rw [setAt, if_pos hentry, valueAt, valueAt]
      by_cases hkey : key = key'
      · simp [hkey]
      · simp [hentry, hkey]
    · rw [setAt, if_neg hentry, valueAt, valueAt, ih]
      by_cases hkey : key = key'
      · have hother : entry.1 ≠ key' := fun h => hentry (h.trans hkey.symm)
        simp [hkey, hother]
      · simp [hkey]

theorem mem_setAt {key : String} {value : α} {entries : List (String × α)} {entry : String × α}
    (h : entry ∈ setAt key value entries) : entry = (key, value) ∨ entry ∈ entries := by
  induction entries with
  | nil => exact Or.inl (List.mem_singleton.mp h)
  | cons first rest ih =>
    rw [setAt] at h
    split at h
    · rcases List.mem_cons.mp h with rfl | hrest
      · exact Or.inl rfl
      · exact Or.inr (List.mem_cons_of_mem _ hrest)
    · rcases List.mem_cons.mp h with rfl | hrest
      · exact Or.inr List.mem_cons_self
      · exact (ih hrest).imp_right (List.mem_cons_of_mem _)

theorem nodup_setAt {key : String} {value : α} {entries : List (String × α)}
    (h : (entries.map Prod.fst).Nodup) : ((setAt key value entries).map Prod.fst).Nodup := by
  induction entries with
  | nil => exact List.nodup_singleton key
  | cons first rest ih =>
    obtain ⟨hfirst, hrest⟩ := List.nodup_cons.mp h
    rw [setAt]
    split
    next heq =>
      rw [List.map_cons, List.nodup_cons]
      exact ⟨heq ▸ hfirst, hrest⟩
    next hne =>
      rw [List.map_cons, List.nodup_cons]
      refine ⟨?_, ih hrest⟩
      intro hmem
      obtain ⟨entry, hentry, hkey⟩ := List.mem_map.mp hmem
      rcases mem_setAt hentry with rfl | hold
      · exact hne hkey.symm
      · exact hfirst (hkey ▸ List.mem_map_of_mem hold)

theorem setAt_of_new {key : String} (value : α) {entries : List (String × α)}
    (h : key ∉ entries.map Prod.fst) : setAt key value entries = entries ++ [(key, value)] := by
  induction entries with
  | nil => rfl
  | cons first rest ih =>
    rw [List.map_cons, List.mem_cons, not_or] at h
    rw [setAt, if_neg (Ne.symm h.1), ih h.2]
    rfl

theorem valueAt_map (names : List String) (f : String → α) (key : String) :
    valueAt key (names.map fun name => (name, f name)) =
      if key ∈ names then some (f key) else none := by
  induction names with
  | nil => rfl
  | cons name names ih =>
    rw [List.map_cons, valueAt, ih]
    by_cases hname : name = key
    · simp [hname]
    · simp [hname, Ne.symm hname]

theorem setAt_map {names : List String} (hnodup : names.Nodup) (f : String → α) {key : String}
    (hkey : key ∈ names) (value : α) :
    setAt key value (names.map fun name => (name, f name)) =
      names.map fun name => (name, if name = key then value else f name) := by
  induction names with
  | nil => cases hkey
  | cons name names ih =>
    obtain ⟨hnew, hrest⟩ := List.nodup_cons.mp hnodup
    rw [List.map_cons, List.map_cons, setAt]
    by_cases hname : name = key
    · subst hname
      have hsame : ∀ other ∈ names, other ≠ name := fun other hother heq => hnew (heq ▸ hother)
      rw [if_pos rfl, if_pos rfl]
      congr 1
      refine List.map_congr_left ?_
      intro other hother
      rw [if_neg (hsame other hother)]
    · rw [if_neg hname, if_neg hname, ih hrest]
      exact (List.mem_cons.mp hkey).resolve_left (Ne.symm hname)

end Entries

mutual

def rename (f : String → String) : Value → Value
  | .array items => .array (renameItems f items)
  | .object entries => .object (renameEntries f [] entries)
  | .null => .null
  | .bool b => .bool b
  | .number n => .number n
  | .string s => .string s

def renameItems (f : String → String) : List Value → List Value
  | [] => []
  | item :: rest => rename f item :: renameItems f rest

/-- The entries are added one by one to those of the result. -/
def renameEntries (f : String → String) (result : List (String × Value)) :
    List (String × Value) → List (String × Value)
  | [] => result
  | (key, value) :: rest => renameEntries f (setAt (f key) (rename f value) result) rest

end

section Rename

variable (f : String → String)

/-- The last value whose key is renamed to the given one. -/
def lastNamed (key : String) (entries : List (String × Value)) : Option Value :=
  (entries.reverse.find? fun entry => f entry.1 = key).map Prod.snd

/-- What is read from a renamed object under a key is the renamed value of the last entry
whose key became this one. -/
theorem valueAt_renameEntries (key : String) (entries result : List (String × Value)) :
    valueAt key (renameEntries f result entries) =
      ((lastNamed f key entries).map (rename f)).or (valueAt key result) := by
  induction entries generalizing result with
  | nil => rfl
  | cons entry rest ih =>
    obtain ⟨k, v⟩ := entry
    rw [renameEntries, ih, valueAt_setAt, lastNamed, lastNamed, List.reverse_cons,
      List.find?_append]
    cases rest.reverse.find? fun entry => f entry.1 = key with
    | some last => rfl
    | none => by_cases hkey : f k = key <;> simp [hkey]

theorem renameItems_eq_map (items : List Value) : renameItems f items = items.map (rename f) := by
  induction items with
  | nil => rfl
  | cons item rest ih => rw [renameItems, ih, List.map_cons]

/-- Renaming leaves the entries as they are. -/
structure Settled (entries : List (String × Value)) : Prop where
  nodup : (entries.map Prod.fst).Nodup
  key_eq : ∀ entry ∈ entries, f entry.1 = entry.1
  value_eq : ∀ entry ∈ entries, rename f entry.2 = entry.2

variable {f}

theorem Settled.setAt {entries : List (String × Value)} (h : Settled f entries) {key : String}
    {value : Value} (hkey : f key = key) (hvalue : rename f value = value) :
    Settled f (setAt key value entries) where
  nodup := nodup_setAt h.nodup
  key_eq := by
    intro entry hentry
    rcases mem_setAt hentry with rfl | hold
    · exact hkey
    · exact h.key_eq entry hold
  value_eq := by
    intro entry hentry
    rcases mem_setAt hentry with rfl | hold
    · exact hvalue
    · exact h.value_eq entry hold

theorem renameEntries_of_settled {entries result : List (String × Value)}
    (h : Settled f (result ++ entries)) : renameEntries f result entries = result ++ entries := by
  induction entries generalizing result with
  | nil => exact (List.append_nil result).symm
  | cons entry rest ih =>
    obtain ⟨key, value⟩ := entry
    have hmem : (key, value) ∈ result ++ (key, value) :: rest := by simp
    have hnew : key ∉ result.map Prod.fst := by
      have hnodup := h.nodup
      rw [List.map_append, List.map_cons] at hnodup
      intro hkey
      exact (List.nodup_append.mp hnodup).2.2 key hkey key List.mem_cons_self rfl
    have happend : result ++ (key, value) :: rest = (result ++ [(key, value)]) ++ rest := by simp
    rw [renameEntries, h.key_eq _ hmem, h.value_eq _ hmem, setAt_of_new value hnew]
    rw [happend] at h ⊢
    exact ih h

mutual

/-- A renaming that leaves its own results alone does so on values. -/
theorem rename_rename (hf : ∀ key, f (f key) = f key) : ∀ v, rename f (rename f v) = rename f v
  | .array items => by rw [rename, rename, renameItems_renameItems hf items]
  | .object entries => by
    rw [rename, rename, renameEntries_of_settled]
    · rfl
    · exact settled_renameEntries hf entries [] ⟨List.nodup_nil, nofun, nofun⟩
  | .null => rfl
  | .bool _ => rfl
  | .number _ => rfl
  | .string _ => rfl

theorem renameItems_renameItems (hf : ∀ key, f (f key) = f key) :
    ∀ items, renameItems f (renameItems f items) = renameItems f items
  | [] => rfl
  | item :: rest => by
    rw [renameItems, renameItems, rename_rename hf item, renameItems_renameItems hf rest]

theorem settled_renameEntries (hf : ∀ key, f (f key) = f key) :
    ∀ entries result, Settled f result → Settled f (renameEntries f result entries)
  | [], _, h => h
  | (key, value) :: rest, _, h =>
    settled_renameEntries hf rest _ (h.setAt (hf key) (rename_rename hf value))

end

/-- Renamings that agree on the entries of an object give the same entries. -/
theorem renameEntries_congr {g : String → String} {entries result : List (String × Value)}
    (h : ∀ entry ∈ entries, f entry.1 = g entry.1 ∧ rename f entry.2 = rename g entry.2) :
    renameEntries f result entries = renameEntries g result entries := by
  induction entries generalizing result with
  | nil => rfl
  | cons entry rest ih =>
    obtain ⟨hkey, hvalue⟩ := h entry List.mem_cons_self
    rw [renameEntries, renameEntries, hkey, hvalue]
    exact ih fun other hother => h other (List.mem_cons_of_mem _ hother)

end Rename

end AetherLens.KeyedValues
