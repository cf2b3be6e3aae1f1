import AetherLens.Messages
import Mathlib.Data.List.Basic

/-!
The packet table and its bulk insert. A transaction that does not commit leaves
no row, so an attempt either appends the whole batch or changes no row. The
faults of an attempt say which of its steps throw.
-/
namespace AetherLens.AetherDb

open Messages

/-- A row of `packet_events` without its id, as the values bound to the parameters of the
insert; rows are listed in id order. The column of `latencyMs` is `REAL`, and its parameter
the 64-bit integer of the packet. -/
structure Row where
  processName : String
  localAddress : String
  remoteAddress : String
  protocol : String
  bytes : Int64
  outbound : ℕ
  eventTimeMs : Int64
  latencyMs : Int64
deriving DecidableEq, Repr

def row (item : PacketUpdate) : Row where
  processName := item.process
  localAddress := item.localAddress
  remoteAddress := item.remoteAddress
  protocol := item.protocol
  bytes := item.bytes
  outbound := if item.outbound then 1 else 0
  eventTimeMs := item.timestamp
  latencyMs := item.latencyMs

theorem row_injective : Function.Injective row := by
  intro item other h
  simp only [row, Row.mk.injEq] at h
  obtain ⟨hprocess, hlocal, hremote, hprotocol, hbytes, houtbound, htime, hlatency⟩ := h
  have hdirection : item.outbound = other.outbound := by
    cases hitem : item.outbound <;> cases hother : other.outbound <;> simp_all
  cases item
  cases other
  simp_all

/-- The rows behind a known table determine the packets. -/
theorem eq_of_rows {before : List Row} {items others : List PacketUpdate}
    (h : before ++ items.map row = before ++ others.map row) : items = others :=
  List.map_injective_iff.mpr row_injective (List.append_cancel_left h)

/-- The connection `_conn`: absent, open, or present but not open. -/
inductive Connection
  | null
  | opened
  | broken
deriving DecidableEq, Repr

structure Db where
  conn : Connection
  packetEvents : List Row
deriving DecidableEq, Repr

/-- Which steps of one attempt throw, and whether a failure leaves the
connection broken. `insert i` is about the item at index `i` of the batch. -/
structure Faults where
  openConnection : Bool
  beginTransaction : Bool
  insert : ℕ → Bool
  commit : Bool
  breaksConnection : Bool

def Faults.none : Faults := ⟨false, false, fun _ => false, false, false⟩

/-- `EnsureConnectedAsync`: the connection it leaves and whether it returns. -/
def ensureConnected (conn : Connection) (openFails : Bool) : Connection × Bool :=
  match conn with
  | .opened => (.opened, true)
  | _ => if openFails then (.broken, false) else (.opened, true)

/-- The rows of the open transaction, or nothing when an insert throws. -/
def insertItems (fails : ℕ → Bool) : ℕ → List PacketUpdate → Option (List Row)
  | _, [] => some []
  | i, item :: rest =>
    if fails i then none else (insertItems fails (i + 1) rest).map (row item :: ·)

/-- The database after a step has thrown inside an open connection. -/
def Db.afterFailure (db : Db) (faults : Faults) (conn : Connection) : Db :=
  { db with conn := if faults.breaksConnection then .broken else conn }

/-- One pass through the `try` block; the flag says whether it returns. -/
def attempt (faults : Faults) (db : Db) (batch : List PacketUpdate) : Db × Bool :=
  match ensureConnected db.conn faults.openConnection with
  | (conn, false) => ({ db with conn := conn }, false)
  | (conn, true) =>
    if faults.beginTransaction then (db.afterFailure faults conn, false)
    else match insertItems faults.insert 0 batch with
      | none => (db.afterFailure faults conn, false)
      | some rows =>
        if faults.commit then (db.afterFailure faults conn, false)
        else (⟨conn, db.packetEvents ++ rows⟩, true)

/-- `BulkInsertPacketsAsync`: the first failure discards the connection and
retries, the second one is thrown to the caller. -/
def bulkInsertPackets (first second : Faults) (db : Db) (batch : List PacketUpdate) :
    Db × Bool :=
  match attempt first db batch with
  | (db', true) => (db', true)
  | (db', false) => attempt second { db' with conn := .null } batch

theorem insertItems_eq_some {fails : ℕ → Bool} {i : ℕ} {batch : List PacketUpdate}
    {rows : List Row} (h : insertItems fails i batch = some rows) : rows = batch.map row := by
  induction batch generalizing i rows with
  | nil =>
    cases h
    rfl
  | cons item rest ih =>
    rw [insertItems] at h
    split at h
    · cases h
    · obtain ⟨tail, htail, rfl⟩ := Option.map_eq_some_iff.mp h
      rw [ih htail, List.map_cons]

/-- An attempt that returns has appended the batch, one that throws no row. -/
theorem attempt_packetEvents (faults : Faults) (db : Db) (batch : List PacketUpdate) :
    (attempt faults db batch).1.packetEvents =
      db.packetEvents ++ if (attempt faults db batch).2 then batch.map row else [] := by
  unfold attempt
  rcases ensureConnected db.conn faults.openConnection with ⟨conn, _ | _⟩
  · simp
  · by_cases hbegin : faults.beginTransaction
    · simp [hbegin, Db.afterFailure]
    · cases hrows : insertItems faults.insert 0 batch with
      | none => simp [hbegin, Db.afterFailure]
      | some rows =>
        by_cases hcommit : faults.commit
        · simp [hbegin, hcommit, Db.afterFailure]
        · simp [hbegin, hcommit, insertItems_eq_some hrows]

/-- The bulk insert is all or nothing, and its retry never inserts twice. -/
theorem bulkInsertPackets_packetEvents (first second : Faults) (db : Db)
    (batch : List PacketUpdate) :
    (bulkInsertPackets first second db batch).1.packetEvents =
      db.packetEvents ++
        if (bulkInsertPackets first second db batch).2 then batch.map row else [] := by
  have hfirst := attempt_packetEvents first db batch
  unfold bulkInsertPackets
  split
  next db' heq =>
    rw [heq] at hfirst
    exact hfirst
  next db' heq =>
    rw [heq] at hfirst
    have hsecond := attempt_packetEvents second { db' with conn := .null } batch
    simp only [Bool.false_eq_true, ite_false, List.append_nil] at hfirst
    rw [← hfirst]
    exact hsecond

/-- How a call of `BulkInsertPacketsAsync` ends: at its `return`, past the end of its
loop, or with an exception. -/
inductive Outcome
  | returned
  | leftLoop
  | threw
deriving DecidableEq, Repr

/-- The loop of `BulkInsertPacketsAsync` from `attempt = i` on, with `left` turns before
its bound. Only the exception of attempt 0 passes the filter of the handler. -/
def bulkInsertFrom (faults : ℕ → Faults) (batch : List PacketUpdate) :
    ℕ → ℕ → Db → Db × Outcome
  | 0, _, db => (db, .leftLoop)
  | left + 1, i, db =>
    match attempt (faults i) db batch with
    | (db', true) => (db', .returned)
    | (db', false) =>
      if i = 0 then bulkInsertFrom faults batch left (i + 1) { db' with conn := .null }
      else (db', .threw)

def bulkInsertPacketsAsync (faults : ℕ → Faults) (db : Db) (batch : List PacketUpdate) :
    Db × Outcome :=
  bulkInsertFrom faults batch 2 0 db

/-- No step of an attempt that starts from the connection `conn` throws. -/
def RunsAll (faults : Faults) (conn : Connection) (batch : List PacketUpdate) : Prop :=
  (conn = .opened ∨ faults.openConnection = false) ∧ faults.beginTransaction = false ∧
    (∀ i < batch.length, faults.insert i = false) ∧ faults.commit = false

theorem bulkInsertFrom_of_returns {faults : ℕ → Faults} {batch : List PacketUpdate}
    {left i : ℕ} {db db' : Db} (h : attempt (faults i) db batch = (db', true)) :
    bulkInsertFrom faults batch (left + 1) i db = (db', .returned) := by
  rw [bulkInsertFrom, h]

theorem bulkInsertFrom_of_fails {faults : ℕ → Faults} {batch : List PacketUpdate}
    {left i : ℕ} {db db' : Db} (h : attempt (faults i) db batch = (db', false)) :
    bulkInsertFrom faults batch (left + 1) i db =
      if i = 0 then bulkInsertFrom faults batch left (i + 1) { db' with conn := .null }
      else (db', .threw) := by
  rw [bulkInsertFrom, h]

theorem bulkInsertPacketsAsync_eq (faults : ℕ → Faults) (db : Db) (batch : List PacketUpdate) :
    bulkInsertPacketsAsync faults db batch =
      ((bulkInsertPackets (faults 0) (faults 1) db batch).1,
        if (bulkInsertPackets (faults 0) (faults 1) db batch).2 then .returned else .threw) := by
  unfold bulkInsertPacketsAsync bulkInsertPackets
  cases hfirst : attempt (faults 0) db batch with
  | mk db' returned =>
    cases returned with
    | true => simp [bulkInsertFrom_of_returns hfirst]
    | false =>
      rw [bulkInsertFrom_of_fails hfirst, if_pos rfl]
      cases hsecond : attempt (faults 1) { db' with conn := .null } batch with
      | mk db'' returned =>
        cases returned with
        | true => simp [bulkInsertFrom_of_returns hsecond, hsecond]
        | false => simp [bulkInsertFrom_of_fails hsecond, hsecond]

theorem ensureConnected_returns_iff (conn : Connection) (openFails : Bool) :
    (ensureConnected conn openFails).2 = true ↔ conn = .opened ∨ openFails = false := by
  cases conn <;> cases openFails <;> decide

/-- The inserts go through when none of the batch's own positions fails; those past its
end are never reached. -/
theorem insertItems_isSome_iff (fails : ℕ → Bool) (i : ℕ) (batch : List PacketUpdate) :
    (insertItems fails i batch).isSome ↔ ∀ k < batch.length, fails (i + k) = false := by
  induction batch generalizing i with
  | nil => simp [insertItems]
  | cons item rest ih =>
    have hsplit : (∀ k < (item :: rest).length, fails (i + k) = false) ↔
        fails i = false ∧ ∀ k < rest.length, fails (i + 1 + k) = false := by
      rw [List.length_cons, Nat.forall_lt_succ_left]
      simp only [Nat.add_zero, Nat.add_assoc, Nat.add_comm 1]
    rw [hsplit, ← ih (i + 1), insertItems]
    cases fails i <;> simp

theorem attempt_returns_iff (faults : Faults) (db : Db) (batch : List PacketUpdate) :
    (attempt faults db batch).2 = true ↔ RunsAll faults db.conn batch := by
  have hinsert := insertItems_isSome_iff faults.insert 0 batch
  simp only [Nat.zero_add] at hinsert
  unfold attempt RunsAll
  rw [← ensureConnected_returns_iff, ← hinsert]
  rcases ensureConnected db.conn faults.openConnection with ⟨conn, _ | _⟩
  · simp
  · cases faults.beginTransaction with
    | true => simp
    | false =>
      cases insertItems faults.insert 0 batch with
      | none => simp
      | some rows => cases faults.commit <;> simp

/-- The retry starts without a connection, whatever the first attempt left behind. -/
theorem bulkInsertPackets_returns_iff (first second : Faults) (db : Db)
    (batch : List PacketUpdate) :
    (bulkInsertPackets first second db batch).2 = true ↔
      RunsAll first db.conn batch ∨ RunsAll second .null batch := by
  have hfirst := attempt_returns_iff first db batch
  unfold bulkInsertPackets
  split
  next db' heq =>
    rw [heq] at hfirst
    exact iff_of_true rfl (Or.inl (hfirst.mp rfl))
  next db' heq =>
    rw [heq] at hfirst
    have hno : ¬ RunsAll first db.conn batch := fun h => Bool.false_ne_true (hfirst.mpr h)
    rw [attempt_returns_iff]
    exact (or_iff_right hno).symm

theorem bulkInsertPackets_fails_iff (first second : Faults) (db : Db)
    (batch : List PacketUpdate) :
    (bulkInsertPackets first second db batch).2 = false ↔
      ¬ RunsAll first db.conn batch ∧ ¬ RunsAll second .null batch := by
  rw [← not_or, ← bulkInsertPackets_returns_iff, Bool.not_eq_true]

/-- The call ends at its `return` exactly when one of the two attempts runs all its
steps, and the batch is then in the table once. In every other case it throws, so it
never runs past the loop, and the table is as before. -/
theorem bulkInsertPacketsAsync_atomic (faults : ℕ → Faults) (db : Db)
    (batch : List PacketUpdate) :
    ((bulkInsertPacketsAsync faults db batch).2 ≠ .threw ↔
      RunsAll (faults 0) db.conn batch ∨ RunsAll (faults 1) .null batch) ∧
    ((bulkInsertPacketsAsync faults db batch).2 ≠ .threw →
      (bulkInsertPacketsAsync faults db batch).2 = .returned ∧
      (bulkInsertPacketsAsync faults db batch).1.packetEvents =
        db.packetEvents ++ batch.map row) ∧
    ((bulkInsertPacketsAsync faults db batch).2 = .threw →
      (bulkInsertPacketsAsync faults db batch).1.packetEvents = db.packetEvents) := by
  have hreturns := bulkInsertPackets_returns_iff (faults 0) (faults 1) db batch
  have hrows := bulkInsertPackets_packetEvents (faults 0) (faults 1) db batch
  rw [bulkInsertPacketsAsync_eq, ← hreturns]
  cases hres : (bulkInsertPackets (faults 0) (faults 1) db batch).2 with
  | true =>
    rw [hres] at hrows
    exact ⟨by simp, fun _ => ⟨rfl, hrows⟩, by simp⟩
  | false =>
    rw [hres] at hrows
    refine ⟨by simp, by simp, fun _ => ?_⟩
    simpa using hrows

/-- The table after a call that returns tells which batch it was given. -/
theorem batch_eq_of_returned {faults : ℕ → Faults} {db : Db} {batch other : List PacketUpdate}
    (hreturned : (bulkInsertPacketsAsync faults db batch).2 = .returned)
    (hrows : (bulkInsertPacketsAsync faults db batch).1.packetEvents =
      db.packetEvents ++ other.map row) : batch = other := by
  have happended := bulkInsertPackets_packetEvents (faults 0) (faults 1) db batch
  rw [bulkInsertPacketsAsync_eq] at hreturned hrows
  have hok : (bulkInsertPackets (faults 0) (faults 1) db batch).2 = true := by
    by_contra hfails
    rw [if_neg hfails] at hreturned
    cases hreturned
  rw [if_pos hok] at happended
  exact eq_of_rows (happended.symm.trans hrows)

end AetherLens.AetherDb
