import AetherLens.ProcessMap
import AetherLens.Runs
import Mathlib.Data.List.Induction

/-!
The refreshes that fill the process cache from the tables of the operating
system. A refresh inserts the rows it reads and removes nothing: a port that
has closed keeps its pid, and a pid that has a name keeps that name. What a
lookup answers after a refresh is computed from the cache before it.
-/
namespace AetherLens.ProcessRefresh

open ProcessMap Runs

/-- What the rows of the TCP and the UDP table share. -/
structure OwnerPidRow where
  dwLocalPort : UInt32
  dwOwningPid : UInt32
deriving DecidableEq, Repr

/-- The low half of the field, read in network byte order. -/
def OwnerPidRow.localPort (row : OwnerPidRow) : UInt16 :=
  let port := row.dwLocalPort.toUInt16
  port <<< 8 ||| port >>> 8

/-- The processes at one moment: which of them the engine may open, and the
base names of their modules. -/
structure System where
  openProcess : UInt32 → Bool
  moduleBaseName : UInt32 → List UInt8

/-- The name of the process that owns a pid, whether it may be opened or not. -/
def System.processName (system : System) (pid : UInt32) : Option String :=
  if 0 < (system.moduleBaseName pid).length then
    String.fromUTF8? ⟨(system.moduleBaseName pid).toArray⟩
  else none

def getProcessNameByPid (system : System) (pid : UInt32) : Option String :=
  if system.openProcess pid then system.processName pid else none

theorem processName_of_getProcessNameByPid {system : System} {pid : UInt32} {name : String}
    (h : getProcessNameByPid system pid = some name) : system.processName pid = some name := by
  unfold getProcessNameByPid at h
  split at h
  · exact h
  · cases h

def insertPort (cache : ProcessCache) (protocol : UInt8) (port : UInt16) (pid : UInt32) :
    ProcessCache :=
  { cache with portMap := Function.update cache.portMap (protocol, port) (some pid) }

/-- A name is asked only for a pid that has none. -/
def cacheName (system : System) (cache : ProcessCache) (pid : UInt32) : ProcessCache :=
  if (cache.nameCache pid).isSome then cache
  else
    match getProcessNameByPid system pid with
    | some name => cache.insertName pid name
    | none => cache

def refreshRow (system : System) (protocol : UInt8) (cache : ProcessCache) (row : OwnerPidRow) :
    ProcessCache :=
  if 0 < row.dwOwningPid then
    cacheName system (insertPort cache protocol row.localPort row.dwOwningPid) row.dwOwningPid
  else cache

def refreshRows (system : System) (protocol : UInt8) (cache : ProcessCache)
    (rows : List OwnerPidRow) : ProcessCache :=
  rows.foldl (refreshRow system protocol) cache

/-- A call for the table that fails leaves the cache as it is. -/
def refreshTable (system : System) (protocol : UInt8) (table : Option (List OwnerPidRow))
    (cache : ProcessCache) : ProcessCache :=
  match table with
  | some rows => refreshRows system protocol cache rows
  | none => cache

def refreshTcp (system : System) (table : Option (List OwnerPidRow)) (cache : ProcessCache) :
    ProcessCache := refreshTable system 6 table cache

def refreshUdp (system : System) (table : Option (List OwnerPidRow)) (cache : ProcessCache) :
    ProcessCache := refreshTable system 17 table cache

/-- The row is the one of an open port. -/
def OwnerPidRow.Lists (row : OwnerPidRow) (port : UInt16) : Prop :=
  0 < row.dwOwningPid ∧ row.localPort = port

instance (row : OwnerPidRow) (port : UInt16) : Decidable (row.Lists port) :=
  inferInstanceAs (Decidable (_ ∧ _))

/-- The owner of a port by the last row that has it. -/
def listedPid (rows : List OwnerPidRow) (port : UInt16) : Option UInt32 :=
  (rows.reverse.find? fun row => row.Lists port).map OwnerPidRow.dwOwningPid

theorem listedPid_snoc (rows : List OwnerPidRow) (row : OwnerPidRow) (port : UInt16) :
    listedPid (rows ++ [row]) port =
      if row.Lists port then some row.dwOwningPid else listedPid rows port := by
  unfold listedPid
  rw [List.reverse_append, List.reverse_singleton, List.singleton_append, List.find?_cons]
  by_cases h : row.Lists port
  · simp [h]
  · simp [h]

theorem row_of_listedPid {rows : List OwnerPidRow} {port : UInt16} {pid : UInt32}
    (h : listedPid rows port = some pid) :
    ∃ row ∈ rows, row.Lists port ∧ row.dwOwningPid = pid := by
  obtain ⟨row, hfind, hpid⟩ := Option.map_eq_some_iff.mp h
  exact ⟨row, List.mem_reverse.mp (List.mem_of_find?_eq_some hfind),
    by simpa using List.find?_some hfind, hpid⟩

theorem not_lists_of_listedPid {rows : List OwnerPidRow} {port : UInt16}
    (h : listedPid rows port = none) : ∀ row ∈ rows, ¬ row.Lists port := by
  intro row hrow
  simpa using List.find?_eq_none.mp (Option.map_eq_none_iff.mp h) row (List.mem_reverse.mpr hrow)

section Lookup

variable (system : System) (cache : ProcessCache)

/-- The name a lookup answers for a pid: the cached one, else the system's. -/
def knownName (pid : UInt32) : Option String :=
  (cache.nameCache pid).or (getProcessNameByPid system pid)

def lookup (protocol : UInt8) (port : UInt16) : Option String × ProcessCache :=
  cache.getProcessName (.windows (getProcessNameByPid system)) protocol port

theorem lookup_eq_bind (protocol : UInt8) (port : UInt16) :
    (lookup system cache protocol port).1 =
      (cache.portMap (protocol, port)).bind (knownName system cache) := by
  unfold lookup ProcessCache.getProcessName
  cases hpid : cache.portMap (protocol, port) with
  | none => rfl
  | some pid =>
    cases hname : cache.nameCache pid with
    | some name => simp [knownName, hname]
    | none =>
      cases hasked : getProcessNameByPid system pid with
      | none => simp [knownName, hname, hasked]
      | some name => simp [knownName, hname, hasked]

theorem knownName_cacheName (pid : UInt32) :
    knownName system (cacheName system cache pid) = knownName system cache := by
  funext other
  unfold cacheName
  split
  · rfl
  · rename_i hnone
    split
    · rename_i name hasked
      by_cases heq : other = pid
      · subst other
        simp_all [knownName, ProcessCache.insertName]
      · simp [knownName, ProcessCache.insertName, heq]
    · rfl

theorem portMap_cacheName (pid : UInt32) :
    (cacheName system cache pid).portMap = cache.portMap := by
  unfold cacheName
  split
  · rfl
  · split
    · rfl
    · rfl

theorem knownName_refreshRow (protocol : UInt8) (row : OwnerPidRow) :
    knownName system (refreshRow system protocol cache row) = knownName system cache := by
  unfold refreshRow
  split
  · rw [knownName_cacheName]
    rfl
  · rfl

theorem portMap_refreshRow (protocol : UInt8) (row : OwnerPidRow) (port : UInt16) :
    (refreshRow system protocol cache row).portMap (protocol, port) =
      if row.Lists port then some row.dwOwningPid else cache.portMap (protocol, port) := by
  unfold refreshRow
  by_cases hpos : 0 < row.dwOwningPid
  · rw [if_pos hpos, portMap_cacheName]
    by_cases hport : row.localPort = port
    · simp [insertPort, OwnerPidRow.Lists, hpos, hport]
    · have hne : port ≠ row.localPort := fun h => hport h.symm
      simp [insertPort, OwnerPidRow.Lists, hport, hne]
  · simp [OwnerPidRow.Lists, hpos]

/-- A refresh names nothing anew and nothing differently. -/
theorem knownName_refreshRows (protocol : UInt8) (rows : List OwnerPidRow) :
    knownName system (refreshRows system protocol cache rows) = knownName system cache := by
  induction rows using List.reverseRecOn with
  | nil => rfl
  | append_singleton rows row ih =>
    rw [refreshRows, List.foldl_append, List.foldl_cons, List.foldl_nil, knownName_refreshRow]
    exact ih

/-- A listed port is mapped to its owner, every other port as before. -/
theorem portMap_refreshRows (protocol : UInt8) (rows : List OwnerPidRow) (port : UInt16) :
    (refreshRows system protocol cache rows).portMap (protocol, port) =
      (listedPid rows port).or (cache.portMap (protocol, port)) := by
  induction rows using List.reverseRecOn with
  | nil => rfl
  | append_singleton rows row ih =>
    rw [refreshRows, List.foldl_append, List.foldl_cons, List.foldl_nil, portMap_refreshRow,
      listedPid_snoc]
    split
    · rfl
    · exact ih

/-- What a lookup right after a refresh answers, from the cache before it. -/
theorem lookup_refreshRows (protocol : UInt8) (rows : List OwnerPidRow) (port : UInt16) :
    (lookup system (refreshRows system protocol cache rows) protocol port).1 =
      ((listedPid rows port).or (cache.portMap (protocol, port))).bind
        (knownName system cache) := by
  rw [lookup_eq_bind, portMap_refreshRows, knownName_refreshRows]

end Lookup

/-- A table read, its protocol, and the processes that own its rows. -/
structure Refreshed where
  protocol : UInt8
  rows : List OwnerPidRow
  system : System

/-- Right after a refresh that succeeded the state holds what it read. -/
structure State where
  cache : ProcessCache
  refreshed : Option Refreshed

inductive Event
  | refreshTcp (system : System) (table : Option (List OwnerPidRow))
  | refreshUdp (system : System) (table : Option (List OwnerPidRow))
  | getProcessName (system : System) (protocol : UInt8) (port : UInt16)

/-- The table that a step reads, unless the call for it fails. -/
def Event.reads : Event → Option Refreshed
  | .refreshTcp system table => table.map fun rows => ⟨6, rows, system⟩
  | .refreshUdp system table => table.map fun rows => ⟨17, rows, system⟩
  | .getProcessName _ _ _ => none

def cacheAfter (cache : ProcessCache) : Event → ProcessCache
  | .refreshTcp system table => refreshTcp system table cache
  | .refreshUdp system table => refreshUdp system table cache
  | .getProcessName system protocol port => (lookup system cache protocol port).2

def machine : Machine State Event where
  start := ⟨ProcessCache.new, none⟩
  step s e := some ⟨cacheAfter s.cache e, e.reads⟩

/-- Right after a refresh every name answered is the name of a process that owns
the port in the table just read. -/
def FreshAfter (cache : ProcessCache) (r : Refreshed) : Prop :=
  ∀ port name, (lookup r.system cache r.protocol port).1 = some name →
    ∃ row ∈ r.rows, row.Lists port ∧ r.system.processName row.dwOwningPid = some name

def Fresh (s : State) : Prop := ∀ r, s.refreshed = some r → FreshAfter s.cache r

/-- What must hold of a table when it is read. A port that it does not list has
no pid, or one without a name in the cache and in the system. A name cached for
the owner of a port it lists is still the name of an owner of that port. -/
structure KeepsUp (cache : ProcessCache) (r : Refreshed) : Prop where
  closed : ∀ port pid, listedPid r.rows port = none →
    cache.portMap (r.protocol, port) = some pid →
      cache.nameCache pid = none ∧ getProcessNameByPid r.system pid = none
  reused : ∀ port pid name, listedPid r.rows port = some pid →
    cache.nameCache pid = some name →
      ∃ row ∈ r.rows, row.Lists port ∧ r.system.processName row.dwOwningPid = some name

/-- The condition on a step: the table that it reads meets `KeepsUp`. -/
def ReadsUp (s : State) (e : Event) : Prop := ∀ r, e.reads = some r → KeepsUp s.cache r

theorem freshAfter_refreshRows (cache : ProcessCache) (r : Refreshed) :
    FreshAfter (refreshRows r.system r.protocol cache r.rows) r ↔ KeepsUp cache r := by
  unfold FreshAfter
  simp only [lookup_refreshRows]
  constructor
  · intro h
    constructor
    · intro port pid hclosed hmapped
      have hnone : knownName r.system cache pid = none := by
        by_contra hsome
        obtain ⟨name, hname⟩ := Option.ne_none_iff_exists'.mp hsome
        obtain ⟨row, hrow, hlists, -⟩ := h port name (by simp [hclosed, hmapped, hname])
        exact not_lists_of_listedPid hclosed row hrow hlists
      exact Option.or_eq_none_iff.mp hnone
    · intro port pid name hlisted hcached
      exact h port name (by simp [hlisted, knownName, hcached])
  · rintro ⟨hclosed, hreused⟩ port name hname
    cases hlisted : listedPid r.rows port with
    | none =>
      rw [hlisted, Option.none_or] at hname
      obtain ⟨pid, hmapped, hknown⟩ := Option.bind_eq_some_iff.mp hname
      obtain ⟨hcached, hasked⟩ := hclosed port pid hlisted hmapped
      rw [knownName, hcached, hasked] at hknown
      cases hknown
    | some pid =>
      rw [hlisted, Option.some_or, Option.bind_some] at hname
      cases hcached : cache.nameCache pid with
      | some cached =>
        rw [knownName, hcached, Option.some_or] at hname
        cases hname
        exact hreused port pid name hlisted hcached
      | none =>
        rw [knownName, hcached, Option.none_or] at hname
        obtain ⟨row, hrow, hlists, rfl⟩ := row_of_listedPid hlisted
        exact ⟨row, hrow, hlists, processName_of_getProcessNameByPid hname⟩

/-- Nothing is stale after the first refresh. -/
theorem freshAfter_new (r : Refreshed) :
    FreshAfter (refreshRows r.system r.protocol ProcessCache.new r.rows) r := by
  rw [freshAfter_refreshRows]
  constructor
  · rintro port pid - ⟨⟩
  · rintro port pid name - ⟨⟩

/-- The cache is refreshed from the table that the step reads. -/
theorem cacheAfter_of_reads (cache : ProcessCache) {e : Event} {r : Refreshed}
    (h : e.reads = some r) :
    cacheAfter cache e = refreshRows r.system r.protocol cache r.rows := by
  cases e with
  | refreshTcp system table =>
    obtain ⟨rows, rfl, rfl⟩ := Option.map_eq_some_iff.mp h
    rfl
  | refreshUdp system table =>
    obtain ⟨rows, rfl, rfl⟩ := Option.map_eq_some_iff.mp h
    rfl
  | getProcessName system protocol port => cases h

theorem fresh_step_iff (s : State) (e : Event) :
    Fresh ⟨cacheAfter s.cache e, e.reads⟩ ↔ ReadsUp s e := by
  refine forall_congr' fun r => forall_congr' fun h => ?_
  rw [cacheAfter_of_reads s.cache h]
  exact freshAfter_refreshRows s.cache r

/-- The runs in which no refresh leaves a stale name are those in which every
table read keeps up with the cache. -/
theorem always_fresh_iff (es : List Event) :
    machine.Always Fresh es ↔ machine.Meets ReadsUp es := by
  obtain ⟨s, hs⟩ := machine.exists_run (fun _ _ => ⟨_, rfl⟩) es
  refine machine.always_iff_meets_of_step ?_ ?_ es s hs
  · rintro r ⟨⟩
  · rintro s e t ⟨⟩ -
    exact fresh_step_iff s e

/-- Port 5000 and its owner. -/
def row5000 : OwnerPidRow := ⟨0x8813, 77⟩

/-- Process 77, which the engine may open. -/
def process77 (name : String) : System where
  openProcess := fun pid => pid = 77
  moduleBaseName := fun pid => if pid = 77 then name.toUTF8.data.toList else []

/-- The port closes between two refreshes. -/
def closedPort : List Event :=
  [.refreshTcp (process77 "browser.exe") (some [row5000]),
    .refreshTcp (process77 "browser.exe") (some [])]

/-- Another process has the pid at the second refresh. -/
def reusedPid : List Event :=
  [.refreshTcp (process77 "browser.exe") (some [row5000]),
    .refreshTcp (process77 "updater.exe") (some [row5000])]

/-- In both runs the last refresh leaves the old name. -/
theorem stale_name_answered :
    ¬ machine.Always Fresh closedPort ∧ ¬ machine.Always Fresh reusedPid := by
  refine ⟨fun h => ?_, fun h => ?_⟩
  · obtain ⟨row, hrow, -⟩ := h closedPort (List.prefix_refl _) _ rfl _ rfl 5000 "browser.exe"
      (by decide)
    cases hrow
  · obtain ⟨row, hrow, -, hname⟩ := h reusedPid (List.prefix_refl _) _ rfl _ rfl 5000 "browser.exe"
      (by decide)
    rw [List.mem_singleton.mp hrow] at hname
    revert hname
    decide

end AetherLens.ProcessRefresh
