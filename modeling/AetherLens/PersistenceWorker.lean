import AetherLens.AetherDb
import AetherLens.LossyQueues
import AetherLens.Runs
import Mathlib.Data.List.Perm.Subperm

/-!
The persistence worker: a blocking read, a drain of up to 256 items, and a bulk
insert whose failure keeps the buffer for the next turn. The channel is written
concurrently and drops its oldest item when full. The drain evaluates `TryRead`
before it compares the size of the buffer, so an item can be taken and dropped.
-/
namespace AetherLens.PersistenceWorker

open Runs Messages AetherDb LossyQueues

def channelCapacity : ℕ := 50000

def batchLimit : ℕ := 256

/-- Where `ExecuteAsync` stands. -/
inductive Point
  | whileStart
  | reading
  | draining
  | inserting
  | delaying
  | finished
deriving DecidableEq, Repr

/-- `dequeued` is history: every item ever taken from the channel, in order. -/
structure State where
  channel : List PacketUpdate
  buffer : List PacketUpdate
  db : Db
  stopping : Bool
  point : Point
  dequeued : List PacketUpdate

inductive Event
  | write (item : PacketUpdate)
  | requestStop
  | checkToken
  | read
  | readCanceled
  | tryRead
  | bulkInsert (first second : Faults) (canceled : Bool)
  | delayDone
  | delayCanceled

/-- The end of the drain loop: the insert is guarded by `buffer.Count > 0`. -/
def afterDrain (s : State) : State :=
  { s with point := if 0 < s.buffer.length then .inserting else .whileStart }

/-- One turn of `while (_reader.TryRead(out var extra) && buffer.Count < 256)`. -/
def drain (s : State) : State :=
  match s.channel with
  | [] => afterDrain s
  | extra :: rest =>
    if s.buffer.length < batchLimit then
      { s with
        channel := rest
        dequeued := s.dequeued ++ [extra]
        buffer := s.buffer ++ [extra] }
    else afterDrain { s with channel := rest, dequeued := s.dequeued ++ [extra] }

/-- The insert and the two handlers: an exception of the token leaves the loop,
any other one is logged and followed by a delay. -/
def insertBuffer (first second : Faults) (canceled : Bool) (s : State) : State :=
  match bulkInsertPackets first second s.db s.buffer with
  | (db, true) => { s with db := db, buffer := [], point := .whileStart }
  | (db, false) =>
    { s with
      db := db
      point := if canceled && s.stopping then .finished else .delaying }

def step (s : State) : Event → Option State
  | .write item => some { s with channel := writeDropOldest channelCapacity s.channel item }
  | .requestStop => some { s with stopping := true }
  | .checkToken =>
    if s.point = .whileStart then
      some { s with point := if s.stopping then .finished else .reading }
    else none
  | .read =>
    match s.point, s.channel with
    | .reading, item :: rest =>
      some { s with
        channel := rest
        dequeued := s.dequeued ++ [item]
        buffer := s.buffer ++ [item]
        point := .draining }
    | _, _ => none
  | .readCanceled =>
    if s.point = .reading ∧ s.stopping then some { s with point := .finished } else none
  | .tryRead => if s.point = .draining then some (drain s) else none
  | .bulkInsert first second canceled =>
    if s.point = .inserting then some (insertBuffer first second canceled s) else none
  | .delayDone => if s.point = .delaying then some { s with point := .whileStart } else none
  | .delayCanceled =>
    if s.point = .delaying ∧ s.stopping then some { s with point := .finished } else none

theorem db_insertBuffer (first second : Faults) (canceled : Bool) (s : State) :
    (insertBuffer first second canceled s).db =
      (bulkInsertPackets first second s.db s.buffer).1 := by
  unfold insertBuffer
  split
  next heq => rw [heq]
  next heq => rw [heq]

/-- The worker over a database that may already hold rows. -/
def machine (db : Db) : Machine State Event where
  start := ⟨[], [], db, false, .whileStart, []⟩
  step := step

/-- Every item ever dequeued is a row inserted since the start or still in the
buffer, counting equal items as often as they occur. -/
def Kept (db : Db) (s : State) : Prop :=
  (db.packetEvents ++ s.dequeued.map row).Subperm
    (s.db.packetEvents ++ s.buffer.map row)

/-- A drain turn takes an item while the buffer is already full. -/
def TakesWhenFull (s : State) (e : Event) : Prop :=
  e = .tryRead ∧ s.point = .draining ∧ s.channel ≠ [] ∧ batchLimit ≤ s.buffer.length

/-- The item such a turn drops. -/
def droppedItem (x : State × Event) : Option PacketUpdate :=
  match x.2, x.1.point, x.1.channel with
  | .tryRead, .draining, extra :: _ =>
    if x.1.buffer.length < batchLimit then none else some extra
  | _, _, _ => none

def dropped (db : Db) (es : List Event) : List PacketUpdate :=
  ((machine db).steps es).filterMap droppedItem

theorem dropped_snoc (db : Db) {es : List Event} {s : State} (e : Event)
    (hrun : (machine db).run es = some s) :
    dropped db (es ++ [e]) = dropped db es ++ (droppedItem (s, e)).toList := by
  unfold dropped
  rw [(machine db).steps_snoc hrun, List.filterMap_append]
  cases h : droppedItem (s, e) <;> simp [h]

/-- What a step does to the items: it takes one, drops one or inserts the buffer, or
leaves all of them where they are. -/
inductive Moves (s : State) : Event → State → Prop
  | idle (e : Event) (t : State) (hkeeps : droppedItem (s, e) = none)
      (hdeq : t.dequeued = s.dequeued) (hdb : t.db = s.db) (hbuf : t.buffer = s.buffer) :
      Moves s e t
  | takes (e : Event) (t : State) (item : PacketUpdate) (hkeeps : droppedItem (s, e) = none)
      (hdeq : t.dequeued = s.dequeued ++ [item]) (hdb : t.db = s.db)
      (hbuf : t.buffer = s.buffer ++ [item]) : Moves s e t
  | drops (t : State) (item : PacketUpdate) (hdrops : droppedItem (s, .tryRead) = some item)
      (hdeq : t.dequeued = s.dequeued ++ [item]) (hdb : t.db = s.db)
      (hbuf : t.buffer = s.buffer) : Moves s .tryRead t
  | inserts (first second : Faults) (canceled : Bool) :
      Moves s (.bulkInsert first second canceled) (insertBuffer first second canceled s)

/-- The drain drops an item exactly in the turns that `droppedItem` lists. -/
theorem moves_drain {s : State} (hpoint : s.point = .draining) : Moves s .tryRead (drain s) := by
  unfold drain
  cases hchannel : s.channel with
  | nil => exact .idle _ _ (by simp [droppedItem, hpoint, hchannel]) rfl rfl rfl
  | cons extra rest =>
    by_cases hroom : s.buffer.length < batchLimit
    · simp only [hroom, if_true]
      exact .takes _ _ extra (by simp [droppedItem, hpoint, hchannel, hroom]) rfl rfl rfl
    · simp only [hroom, if_false]
      exact .drops _ extra (by simp [droppedItem, hpoint, hchannel, hroom]) rfl rfl rfl

theorem moves_of_step {s t : State} {e : Event} (hs : step s e = some t) : Moves s e t := by
  cases e with
  | write item =>
    cases hs
    exact .idle _ _ rfl rfl rfl rfl
  | requestStop =>
    cases hs
    exact .idle _ _ rfl rfl rfl rfl
  | checkToken =>
    obtain ⟨-, ht⟩ := Option.ite_none_right_eq_some.mp hs
    cases ht
    exact .idle _ _ rfl rfl rfl rfl
  | read =>
    simp only [step] at hs
    split at hs
    next item rest hpoint hchannel =>
      cases hs
      exact .takes _ _ item rfl rfl rfl rfl
    next => cases hs
  | readCanceled =>
    obtain ⟨-, ht⟩ := Option.ite_none_right_eq_some.mp hs
    cases ht
    exact .idle _ _ rfl rfl rfl rfl
  | tryRead =>
    obtain ⟨hpoint, ht⟩ := Option.ite_none_right_eq_some.mp hs
    cases ht
    exact moves_drain hpoint
  | bulkInsert first second canceled =>
    obtain ⟨-, ht⟩ := Option.ite_none_right_eq_some.mp hs
    cases ht
    exact .inserts first second canceled
  | delayDone =>
    obtain ⟨-, ht⟩ := Option.ite_none_right_eq_some.mp hs
    cases ht
    exact .idle _ _ rfl rfl rfl rfl
  | delayCanceled =>
    obtain ⟨-, ht⟩ := Option.ite_none_right_eq_some.mp hs
    cases ht
    exact .idle _ _ rfl rfl rfl rfl

/-- `kept` are the dequeued items that reached the table or the buffer, and
`lost` counts the others. -/
structure Inv (db : Db) (s : State) (kept : List PacketUpdate) (lost : ℕ) : Prop where
  sublist : kept.Sublist s.dequeued
  stored : s.db.packetEvents ++ s.buffer.map row = db.packetEvents ++ kept.map row
  count : s.dequeued.length = kept.length + lost

namespace Inv

variable {db : Db} {s t : State} {kept : List PacketUpdate} {lost : ℕ}

theorem start (db : Db) : Inv db (machine db).start [] 0 where
  sublist := List.Sublist.refl []
  stored := rfl
  count := rfl

/-- Moving the program point or the channel does not touch the invariant. -/
theorem frame (h : Inv db s kept lost) (hdeq : t.dequeued = s.dequeued)
    (hdb : t.db = s.db) (hbuf : t.buffer = s.buffer) : Inv db t kept lost where
  sublist := by
    rw [hdeq]
    exact h.sublist
  stored := by
    rw [hdb, hbuf]
    exact h.stored
  count := by
    rw [hdeq]
    exact h.count

theorem take (h : Inv db s kept lost) (item : PacketUpdate)
    (hdeq : t.dequeued = s.dequeued ++ [item]) (hdb : t.db = s.db)
    (hbuf : t.buffer = s.buffer ++ [item]) : Inv db t (kept ++ [item]) lost where
  sublist := by
    rw [hdeq]
    exact h.sublist.append (List.Sublist.refl [item])
  stored := by
    rw [hdb, hbuf, List.map_append, List.map_append, ← List.append_assoc, h.stored,
      List.append_assoc]
  count := by
    rw [hdeq, List.length_append, List.length_append, h.count]
    omega

theorem drop (h : Inv db s kept lost) (item : PacketUpdate)
    (hdeq : t.dequeued = s.dequeued ++ [item]) (hdb : t.db = s.db)
    (hbuf : t.buffer = s.buffer) : Inv db t kept (lost + 1) where
  sublist := by
    rw [hdeq]
    exact h.sublist.trans (List.sublist_append_left s.dequeued [item])
  stored := by
    rw [hdb, hbuf]
    exact h.stored
  count := by
    rw [hdeq, List.length_append, List.length_singleton, h.count]
    omega

/-- A bulk insert moves the whole buffer to the table or leaves both alone. -/
theorem insertBuffer (h : Inv db s kept lost) (first second : Faults) (canceled : Bool) :
    Inv db (insertBuffer first second canceled s) kept lost := by
  have hrows := bulkInsertPackets_packetEvents first second s.db s.buffer
  unfold PersistenceWorker.insertBuffer
  cases hres : bulkInsertPackets first second s.db s.buffer with
  | mk db' returned =>
    rw [hres] at hrows
    cases returned with
    | true =>
      refine ⟨h.sublist, ?_, h.count⟩
      have hstored := h.stored
      simp only [ite_true] at hrows
      rw [← hrows] at hstored
      simpa using hstored
    | false =>
      refine ⟨h.sublist, ?_, h.count⟩
      have hstored := h.stored
      simp only [Bool.false_eq_true, ite_false, List.append_nil] at hrows
      rw [← hrows] at hstored
      exact hstored

/-- A step loses at most the item that `droppedItem` lists. -/
theorem step {e : Event} (h : Inv db s kept lost) (hs : step s e = some t) :
    ∃ kept', Inv db t kept' (lost + (droppedItem (s, e)).toList.length) := by
  cases moves_of_step hs with
  | idle _ _ hkeeps hdeq hdb hbuf =>
    rw [hkeeps]
    exact ⟨kept, h.frame hdeq hdb hbuf⟩
  | takes _ _ item hkeeps hdeq hdb hbuf =>
    rw [hkeeps]
    exact ⟨kept ++ [item], h.take item hdeq hdb hbuf⟩
  | drops _ item hdrops hdeq hdb hbuf =>
    rw [hdrops]
    exact ⟨kept, h.drop item hdeq hdb hbuf⟩
  | inserts first second canceled => exact ⟨kept, h.insertBuffer first second canceled⟩

end Inv

theorem inv_run (db : Db) : ∀ es s, (machine db).run es = some s →
    ∃ kept, Inv db s kept (dropped db es).length := by
  apply (machine db).run_induction fun es s => ∃ kept, Inv db s kept (dropped db es).length
  · exact ⟨[], Inv.start db⟩
  · rintro es s e t hrun hstep ⟨kept, h⟩
    rw [dropped_snoc db e hrun, List.length_append]
    exact h.step hstep

theorem kept_iff_of_inv {db : Db} {s : State} {kept : List PacketUpdate} {lost : ℕ}
    (h : Inv db s kept lost) : Kept db s ↔ lost = 0 := by
  unfold Kept
  rw [h.stored]
  constructor
  · intro hsub
    have hlen := hsub.length_le
    have hcount := h.count
    simp only [List.length_append, List.length_map] at hlen
    omega
  · rintro rfl
    have heq : kept = s.dequeued := h.sublist.eq_of_length h.count.symm
    rw [heq]

theorem droppedItem_eq_none_iff (s : State) (e : Event) :
    droppedItem (s, e) = none ↔ ¬ TakesWhenFull s e := by
  unfold droppedItem TakesWhenFull
  cases e with
  | tryRead =>
    cases hpoint : s.point <;> cases hchannel : s.channel <;> simp
  | _ => simp

/-- At the start of the loop, and wherever else the worker stands, no dequeued
item is missing exactly when no item was ever taken with the buffer full. -/
theorem kept_iff (db : Db) (es : List Event) (s : State)
    (hrun : (machine db).run es = some s) :
    Kept db s ↔ (machine db).Meets (fun s e => ¬ TakesWhenFull s e) es := by
  obtain ⟨kept, hinv⟩ := inv_run db es s hrun
  rw [kept_iff_of_inv hinv, List.length_eq_zero_iff, dropped, List.filterMap_eq_nil_iff]
  exact forall₂_congr fun x _ => droppedItem_eq_none_iff x.1 x.2

def emptyDb : Db := ⟨.null, []⟩

def sampleItem : PacketUpdate :=
  ⟨"curl.exe", "10.0.0.5:40000", "1.1.1.1:443", "TCP", 64, true, 0, 0⟩

/-- Two items arrive, are read in one turn and stored at the second attempt. -/
def shortRun : List Event :=
  [.write sampleItem, .write sampleItem, .checkToken, .read, .tryRead, .tryRead,
    .bulkInsert { Faults.none with commit := true } Faults.none false]

theorem kept_iff_shortRun : ∃ s, (machine emptyDb).run shortRun = some s ∧
    Kept emptyDb s := by
  refine ⟨_, rfl, (kept_iff emptyDb shortRun _ rfl).mpr ?_⟩
  intro x hx
  rw [← droppedItem_eq_none_iff]
  have hnone : ((machine emptyDb).steps shortRun).all fun x =>
      (droppedItem x).isNone := by decide
  exact Option.isNone_iff_eq_none.mp (List.all_eq_true.mp hnone x hx)

/-- A backlog of 257 items: the drain takes the last one with the buffer full. -/
def backlogRun : List Event :=
  List.replicate 257 (.write sampleItem) ++ [.checkToken, .read] ++
    List.replicate 256 .tryRead ++ [.bulkInsert Faults.none Faults.none false]

theorem backlog_loses_item : ∃ s, (machine emptyDb).run backlogRun = some s ∧
    s.point = .whileStart ∧ s.dequeued.length = 257 ∧ s.db.packetEvents.length = 256 ∧
    s.buffer = [] ∧ ¬ Kept emptyDb s := by
  have hrun : ((machine emptyDb).run backlogRun).map (fun s =>
      (s.point, s.dequeued.length, s.db.packetEvents.length, s.buffer)) =
      some (.whileStart, 257, 256, []) := by decide +kernel
  obtain ⟨s, hs, hobs⟩ := Option.map_eq_some_iff.mp hrun
  obtain ⟨hpoint, hdeq, hrows, hbuf⟩ : s.point = .whileStart ∧ s.dequeued.length = 257 ∧
      s.db.packetEvents.length = 256 ∧ s.buffer = [] := by
    simpa only [Prod.mk.injEq] using hobs
  refine ⟨s, hs, hpoint, hdeq, hrows, hbuf, ?_⟩
  intro hkept
  have hlen := hkept.length_le
  simp only [List.length_append, List.length_map, hdeq, hrows, hbuf, emptyDb,
    List.length_nil] at hlen
  omega

/-- A step of the worker appends rows to the table or leaves it alone. -/
theorem packetEvents_step {s t : State} {e : Event} (hs : step s e = some t) :
    ∃ rows, t.db.packetEvents = s.db.packetEvents ++ rows := by
  have hsame : t.db = s.db → ∃ rows, t.db.packetEvents = s.db.packetEvents ++ rows := by
    intro hdb
    exact ⟨[], by rw [hdb, List.append_nil]⟩
  cases moves_of_step hs with
  | idle _ _ hkeeps hdeq hdb hbuf => exact hsame hdb
  | takes _ _ item hkeeps hdeq hdb hbuf => exact hsame hdb
  | drops _ item hdrops hdeq hdb hbuf => exact hsame hdb
  | inserts first second canceled =>
    rw [db_insertBuffer, bulkInsertPackets_packetEvents]
    exact ⟨_, rfl⟩

/-- The rows inserted since the start. -/
theorem packetEvents_run (db : Db) {es : List Event} {s : State}
    (hrun : (machine db).run es = some s) :
    ∃ rows, s.db.packetEvents = db.packetEvents ++ rows := by
  refine (machine db).run_invariant
    (fun s => ∃ rows, s.db.packetEvents = db.packetEvents ++ rows) ⟨[], by simp [machine]⟩ ?_ hrun
  rintro s e t hs ⟨rows, hrows⟩
  obtain ⟨new, hnew⟩ := packetEvents_step hs
  exact ⟨rows ++ new, by rw [hnew, hrows, List.append_assoc]⟩

/-- The table determines the items that were stored, and they are a subsequence of the
dequeued ones. -/
theorem existsUnique_stored (db : Db) {es : List Event} {s : State}
    (hrun : (machine db).run es = some s) :
    ∃! stored : List PacketUpdate, stored.Sublist s.dequeued ∧
      s.db.packetEvents = db.packetEvents ++ stored.map row := by
  obtain ⟨kept, hinv⟩ := inv_run db es s hrun
  obtain ⟨rows, hrows⟩ := packetEvents_run db hrun
  have hkept : rows ++ s.buffer.map row = kept.map row := by
    have hstored := hinv.stored
    rw [hrows, List.append_assoc] at hstored
    exact List.append_cancel_left hstored
  have htable : s.db.packetEvents = db.packetEvents ++ (kept.take rows.length).map row := by
    rw [hrows, List.map_take, ← hkept, List.take_left]
  refine ⟨kept.take rows.length, ⟨(List.take_sublist _ _).trans hinv.sublist, htable⟩, ?_⟩
  rintro other ⟨-, hother⟩
  exact eq_of_rows (hother.symm.trans htable)

/-- The rows inserted since the start are, in id order, those of a subsequence of the
dequeued items: none is stored twice and none overtakes another, whatever fails. -/
theorem rows_record_dequeued (db : Db) (es : List Event) (s : State)
    (hrun : (machine db).run es = some s) :
    ∃ stored : List PacketUpdate, stored.Sublist s.dequeued ∧
      s.db.packetEvents = db.packetEvents ++ stored.map row :=
  (existsUnique_stored db hrun).exists

/-- The first batch fails in both attempts; a second item joins it before the retry. -/
def failedBatchRun : List Event :=
  [.write sampleItem, .checkToken, .read, .tryRead,
    .bulkInsert { Faults.none with commit := true }
      { Faults.none with insert := fun i => i = 0 } false,
    .write { sampleItem with bytes := 65 }, .delayDone, .checkToken, .read, .tryRead,
    .bulkInsert Faults.none Faults.none false]

theorem rows_record_dequeued_failedBatch : ∃ s, (machine emptyDb).run failedBatchRun = some s ∧
    s.db.packetEvents = [row sampleItem, row { sampleItem with bytes := 65 }] ∧
    ∃ stored : List PacketUpdate, stored.Sublist s.dequeued ∧
      s.db.packetEvents = emptyDb.packetEvents ++ stored.map row :=
  ⟨_, rfl, rfl, rows_record_dequeued emptyDb failedBatchRun _ rfl⟩

/-- The buffer never holds more than 256 items, and no insert is handed more. -/
def BufferBounded (db : Db) (es : List Event) : Prop :=
  (machine db).Always (fun s => s.buffer.length ≤ batchLimit) es ∧
    (machine db).Meets (fun s e => (∃ first second canceled,
      e = .bulkInsert first second canceled) → s.buffer.length ≤ batchLimit) es

theorem length_drain_le {s : State} (hbound : s.buffer.length ≤ batchLimit) :
    (drain s).buffer.length ≤ batchLimit := by
  unfold drain
  cases s.channel with
  | nil => exact hbound
  | cons extra rest =>
    by_cases hroom : s.buffer.length < batchLimit
    · simp only [hroom, if_true, List.length_append, List.length_singleton]
      omega
    · simp only [hroom, if_false]
      exact hbound

/-- A failed insert keeps the whole buffer. -/
theorem length_insertBuffer_le (first second : Faults) (canceled : Bool) (s : State) :
    (insertBuffer first second canceled s).buffer.length ≤ s.buffer.length := by
  unfold insertBuffer
  split
  · exact Nat.zero_le _
  · exact Nat.le_refl _

/-- Only `ReadAsync` adds an item without a look at the size of the buffer. -/
theorem length_buffer_step {s t : State} {e : Event} (hs : step s e = some t)
    (hbound : s.buffer.length ≤ batchLimit) :
    t.buffer.length ≤ batchLimit ↔ (e = .read → s.buffer.length < batchLimit) := by
  cases e with
  | read =>
    simp only [step] at hs
    split at hs
    next item rest hpoint hchannel =>
      cases hs
      simp only [List.length_append, List.length_singleton, true_implies]
      exact Nat.succ_le_iff
    next => cases hs
  | tryRead =>
    obtain ⟨-, ht⟩ := Option.ite_none_right_eq_some.mp hs
    cases ht
    exact iff_of_true (length_drain_le hbound) nofun
  | bulkInsert first second canceled =>
    obtain ⟨-, ht⟩ := Option.ite_none_right_eq_some.mp hs
    cases ht
    exact iff_of_true ((length_insertBuffer_le first second canceled s).trans hbound) nofun
  | write item =>
    cases hs
    exact iff_of_true hbound nofun
  | requestStop =>
    cases hs
    exact iff_of_true hbound nofun
  | checkToken =>
    obtain ⟨-, ht⟩ := Option.ite_none_right_eq_some.mp hs
    cases ht
    exact iff_of_true hbound nofun
  | readCanceled =>
    obtain ⟨-, ht⟩ := Option.ite_none_right_eq_some.mp hs
    cases ht
    exact iff_of_true hbound nofun
  | delayDone =>
    obtain ⟨-, ht⟩ := Option.ite_none_right_eq_some.mp hs
    cases ht
    exact iff_of_true hbound nofun
  | delayCanceled =>
    obtain ⟨-, ht⟩ := Option.ite_none_right_eq_some.mp hs
    cases ht
    exact iff_of_true hbound nofun

theorem bufferBounded_iff_always (db : Db) {es : List Event} {s : State}
    (hrun : (machine db).run es = some s) :
    BufferBounded db es ↔ (machine db).Always (fun s => s.buffer.length ≤ batchLimit) es := by
  constructor
  · exact fun h => h.1
  · intro h
    refine ⟨h, (machine db).meets_of_always ?_ es s hrun h⟩
    intro s e hbound _
    exact hbound

/-- An attempt that cannot open its transaction. -/
def Faults.outage : Faults := { Faults.none with beginTransaction := true }

/-- The insert of a full buffer fails twice, and the next item is read on top of it. -/
def outageRun : List Event :=
  List.replicate 256 (.write sampleItem) ++ [.checkToken, .read] ++
    List.replicate 256 .tryRead ++
    [.bulkInsert Faults.outage Faults.outage false, .delayDone, .write sampleItem,
      .checkToken, .read, .tryRead]

theorem outage_overfills_buffer :
    (∃ s, (machine emptyDb).run outageRun = some s ∧ s.point = .inserting ∧
      s.buffer.length = 257) ∧ ¬ BufferBounded emptyDb outageRun := by
  have hrun : ((machine emptyDb).run outageRun).map (fun s => (s.point, s.buffer.length)) =
      some (.inserting, 257) := by decide +kernel
  obtain ⟨s, hs, hobs⟩ := Option.map_eq_some_iff.mp hrun
  obtain ⟨hpoint, hlen⟩ : s.point = .inserting ∧ s.buffer.length = 257 := by
    simpa only [Prod.mk.injEq] using hobs
  refine ⟨⟨s, hs, hpoint, hlen⟩, ?_⟩
  intro hbounded
  have hle := hbounded.1 outageRun (List.prefix_refl _) s hs
  simp only [hlen, batchLimit] at hle
  omega

/-- Both attempts to insert a full buffer fail. -/
def FullInsertFails (s : State) : Event → Prop
  | .bulkInsert first second _ => batchLimit ≤ s.buffer.length ∧
      ¬ RunsAll first s.db.conn s.buffer ∧ ¬ RunsAll second .null s.buffer
  | _ => False

/-- After a failed insert of a full buffer nothing is read any more. -/
def NoReadAfterFullFailure (db : Db) (es : List Event) : Prop :=
  ((machine db).steps es).Pairwise fun x y => FullInsertFails x.1 x.2 → y.2 ≠ .read

/-- The buffer is within its bound, and below it wherever the next item is read. -/
structure HasRoom (s : State) : Prop where
  bound : s.buffer.length ≤ batchLimit
  room : s.point ≠ .draining → s.point ≠ .inserting → s.buffer.length < batchLimit

namespace HasRoom

variable {s t : State}

/-- A step between two points at which the buffer has room. -/
theorem frame (h : HasRoom s) (hbuf : t.buffer = s.buffer) (hdraining : s.point ≠ .draining)
    (hinserting : s.point ≠ .inserting) : HasRoom t := by
  have hlt := h.room hdraining hinserting
  rw [← hbuf] at hlt
  exact ⟨hlt.le, fun _ _ => hlt⟩

theorem drain (h : HasRoom s) (hpoint : s.point = .draining) : HasRoom (drain s) := by
  refine ⟨length_drain_le h.bound, ?_⟩
  have hempty : ∀ u : State, (afterDrain u).point ≠ .inserting →
      (afterDrain u).buffer.length < batchLimit := by
    intro u hne
    by_cases hpos : 0 < u.buffer.length
    · simp [afterDrain, hpos] at hne
    · have hnil : u.buffer.length = 0 := Nat.eq_zero_of_not_pos hpos
      change u.buffer.length < batchLimit
      rw [hnil]
      decide
  unfold PersistenceWorker.drain
  cases s.channel with
  | nil => exact fun _ hinserting => hempty s hinserting
  | cons extra rest =>
    by_cases hroom : s.buffer.length < batchLimit
    · simp only [hroom, if_true]
      exact fun hdraining => absurd hpoint hdraining
    · simp only [hroom, if_false]
      exact fun _ hinserting => hempty _ hinserting

/-- After a failure the buffer is as it was, so it must not have been full. -/
theorem insertBuffer (h : HasRoom s) {first second : Faults} {canceled : Bool}
    (hok : ¬ FullInsertFails s (.bulkInsert first second canceled)) :
    HasRoom (insertBuffer first second canceled s) := by
  have hle := (length_insertBuffer_le first second canceled s).trans h.bound
  refine ⟨hle, fun _ _ => ?_⟩
  unfold PersistenceWorker.insertBuffer
  split
  next => exact Nat.zero_lt_succ _
  next heq =>
    by_contra hfull
    refine hok ⟨Nat.le_of_not_lt hfull, (bulkInsertPackets_fails_iff ..).mp ?_⟩
    rw [heq]

theorem step {e : Event} (h : HasRoom s) (hs : step s e = some t)
    (hok : ¬ FullInsertFails s e) : HasRoom t := by
  cases e with
  | write item =>
    cases hs
    exact ⟨h.bound, h.room⟩
  | requestStop =>
    cases hs
    exact ⟨h.bound, h.room⟩
  | checkToken =>
    obtain ⟨hpoint, ht⟩ := Option.ite_none_right_eq_some.mp hs
    cases ht
    exact h.frame rfl (by simp [hpoint]) (by simp [hpoint])
  | read =>
    simp only [PersistenceWorker.step] at hs
    split at hs
    next item rest hpoint hchannel =>
      cases hs
      have hlt := h.room (by simp [hpoint]) (by simp [hpoint])
      refine ⟨?_, fun hdraining => absurd rfl hdraining⟩
      rw [List.length_append, List.length_singleton]
      exact hlt
    next => cases hs
  | readCanceled =>
    obtain ⟨⟨hpoint, -⟩, ht⟩ := Option.ite_none_right_eq_some.mp hs
    cases ht
    exact h.frame rfl (by simp [hpoint]) (by simp [hpoint])
  | tryRead =>
    obtain ⟨hpoint, ht⟩ := Option.ite_none_right_eq_some.mp hs
    cases ht
    exact h.drain hpoint
  | bulkInsert first second canceled =>
    obtain ⟨-, ht⟩ := Option.ite_none_right_eq_some.mp hs
    cases ht
    exact h.insertBuffer hok
  | delayDone =>
    obtain ⟨hpoint, ht⟩ := Option.ite_none_right_eq_some.mp hs
    cases ht
    exact h.frame rfl (by simp [hpoint]) (by simp [hpoint])
  | delayCanceled =>
    obtain ⟨⟨hpoint, -⟩, ht⟩ := Option.ite_none_right_eq_some.mp hs
    cases ht
    exact h.frame rfl (by simp [hpoint]) (by simp [hpoint])

end HasRoom

/-- The buffer is full and its insert has failed, so that the next thing to happen to it
is that an item is read. -/
structure Stuck (s : State) : Prop where
  full : s.buffer.length = batchLimit
  not_draining : s.point ≠ .draining
  not_inserting : s.point ≠ .inserting

/-- Without a failed insert of a full buffer there is room, and after one there is none. -/
def Guarded (history : List (State × Event)) (s : State) : Prop :=
  (∀ x ∈ history, ¬ FullInsertFails x.1 x.2) ∧ HasRoom s ∨
    (∃ x ∈ history, FullInsertFails x.1 x.2) ∧ Stuck s

section Guarded

variable {history : List (State × Event)} {s t : State} {e : Event}

theorem buffer_read (h : step s .read = some t) :
    s.point = .reading ∧ t.buffer.length = s.buffer.length + 1 := by
  simp only [step] at h
  split at h
  next item rest hpoint hchannel =>
    cases h
    exact ⟨hpoint, by rw [List.length_append, List.length_singleton]⟩
  next => cases h

/-- A worker that is stuck stays so until it reads. -/
theorem Stuck.step (h : Stuck s) (hs : step s e = some t) (hread : e ≠ .read) : Stuck t := by
  obtain ⟨hfull, hdraining, hinserting⟩ := h
  cases e with
  | read => exact absurd rfl hread
  | write item =>
    cases hs
    exact ⟨hfull, hdraining, hinserting⟩
  | requestStop =>
    cases hs
    exact ⟨hfull, hdraining, hinserting⟩
  | tryRead =>
    obtain ⟨hpoint, -⟩ := Option.ite_none_right_eq_some.mp hs
    exact absurd hpoint hdraining
  | bulkInsert first second canceled =>
    obtain ⟨hpoint, -⟩ := Option.ite_none_right_eq_some.mp hs
    exact absurd hpoint hinserting
  | checkToken =>
    obtain ⟨-, ht⟩ := Option.ite_none_right_eq_some.mp hs
    cases ht
    cases hstopping : s.stopping <;> exact ⟨hfull, by simp, by simp⟩
  | _ =>
    obtain ⟨-, ht⟩ := Option.ite_none_right_eq_some.mp hs
    cases ht
    exact ⟨hfull, by simp, by simp⟩

/-- The step that fails to insert a full buffer. -/
theorem stuck_of_fullInsertFails (h : HasRoom s) (hs : step s e = some t)
    (hfails : FullInsertFails s e) : Stuck t := by
  cases e with
  | bulkInsert first second canceled =>
    obtain ⟨-, ht⟩ := Option.ite_none_right_eq_some.mp hs
    cases ht
    obtain ⟨hfull, hthrows⟩ := hfails
    have hfalse := (bulkInsertPackets_fails_iff first second s.db s.buffer).mpr hthrows
    unfold insertBuffer
    split
    next heq =>
      rw [heq] at hfalse
      cases hfalse
    next =>
      refine ⟨Nat.le_antisymm h.bound hfull, ?_, ?_⟩
      all_goals
        dsimp only
        split <;> simp
  | _ => cases hfails

/-- With the bound kept so far, only a read breaks it, and only after such a failure. -/
theorem Guarded.bound_iff (h : Guarded history s) (hs : step s e = some t)
    (hbound : s.buffer.length ≤ batchLimit) :
    t.buffer.length ≤ batchLimit ↔ ∀ x ∈ history, FullInsertFails x.1 x.2 → e ≠ .read := by
  rw [length_buffer_step hs hbound]
  constructor
  · rintro hread x hx hfailed rfl
    rcases h with ⟨hnone, -⟩ | ⟨-, hstuck⟩
    · exact hnone x hx hfailed
    · exact absurd hstuck.full (Nat.ne_of_lt (hread rfl))
  · rintro hno rfl
    rcases h with ⟨-, hroom⟩ | ⟨⟨x, hx, hfailed⟩, -⟩
    · have hpoint := (buffer_read hs).1
      exact hroom.room (by simp [hpoint]) (by simp [hpoint])
    · exact absurd rfl (hno x hx hfailed)

theorem Guarded.step (h : Guarded history s) (hs : step s e = some t)
    (hbound : t.buffer.length ≤ batchLimit) : Guarded (history ++ [(s, e)]) t := by
  rcases h with ⟨hnone, hroom⟩ | ⟨⟨x, hx, hfailed⟩, hstuck⟩
  · by_cases hfails : FullInsertFails s e
    · right
      have hlast : (s, e) ∈ history ++ [(s, e)] :=
        List.mem_append_right _ (List.mem_singleton_self _)
      exact ⟨⟨(s, e), hlast, hfails⟩, stuck_of_fullInsertFails hroom hs hfails⟩
    · left
      refine ⟨fun y hy => ?_, hroom.step hs hfails⟩
      rcases List.mem_append.mp hy with hold | hlast
      · exact hnone y hold
      · rw [List.mem_singleton.mp hlast]
        exact hfails
  · right
    refine ⟨⟨x, List.mem_append_left _ hx, hfailed⟩, hstuck.step hs ?_⟩
    rintro rfl
    have hfull := hstuck.full
    have hlen := (buffer_read hs).2
    omega

end Guarded

theorem guarded_start (db : Db) : Guarded [] (machine db).start :=
  Or.inl ⟨by simp, Nat.zero_le _, fun _ _ => Nat.zero_lt_succ _⟩

/-- The buffer stays within 256 items exactly in the runs where `ReadAsync` never delivers
an item to a buffer that is already full, and these are the runs where it delivers none
after the insert of a full buffer has failed. -/
theorem bufferBounded_iff (db : Db) (es : List Event) (s : State)
    (hrun : (machine db).run es = some s) :
    (BufferBounded db es ↔
      (machine db).Meets (fun s e => e = .read → s.buffer.length < batchLimit) es) ∧
    (BufferBounded db es ↔ NoReadAfterFullFailure db es) := by
  rw [bufferBounded_iff_always db hrun]
  constructor
  · exact (machine db).always_iff_meets_of_step (Nat.zero_le _)
      (fun _ _ _ hs hbound => length_buffer_step hs hbound) es s hrun
  · exact (machine db).always_iff_pairwise Guarded (guarded_start db)
      (fun _ _ _ _ hs hbound h => h.step hs hbound) (Nat.zero_le _)
      (fun _ _ _ _ hs hbound h => h.bound_iff hs hbound) es s hrun

/-- A turn in which one item arrives and its insert fails. -/
def outageTurn : List Event :=
  [.write sampleItem, .checkToken, .read, .tryRead,
    .bulkInsert Faults.outage Faults.outage false, .delayDone]

theorem attempt_outage (db : Db) (batch : List PacketUpdate) :
    (attempt Faults.outage db batch).2 = false := by
  unfold attempt
  rcases ensureConnected db.conn Faults.outage.openConnection with ⟨conn, _ | _⟩ <;> rfl

theorem insertBuffer_outage (s : State) :
    (insertBuffer Faults.outage Faults.outage false s).point = .delaying ∧
      (insertBuffer Faults.outage Faults.outage false s).buffer = s.buffer ∧
      (insertBuffer Faults.outage Faults.outage false s).channel = s.channel ∧
      (insertBuffer Faults.outage Faults.outage false s).stopping = s.stopping := by
  have hfails : (bulkInsertPackets Faults.outage Faults.outage s.db s.buffer).2 = false := by
    have hfirst := attempt_outage s.db s.buffer
    unfold bulkInsertPackets
    split
    next heq =>
      rw [heq] at hfirst
      cases hfirst
    next => exact attempt_outage _ _
  unfold insertBuffer
  split
  next heq =>
    rw [heq] at hfails
    cases hfails
  next => exact ⟨rfl, rfl, rfl, rfl⟩

/-- The worker between two turns of an outage: nothing is left to read. -/
structure Waiting (s : State) (held : ℕ) : Prop where
  channel : s.channel = []
  point : s.point = .whileStart
  stopping : s.stopping = false
  buffer : s.buffer.length = held

theorem Waiting.outageTurn {s : State} {held : ℕ} (h : Waiting s held) :
    ∃ t, outageTurn.foldlM step s = some t ∧ Waiting t (held + 1) := by
  obtain ⟨hchannel, hpoint, hstopping, hbuffer⟩ := h
  let full : State := { s with
    channel := []
    dequeued := s.dequeued ++ [sampleItem]
    buffer := s.buffer ++ [sampleItem]
    point := .inserting }
  have hdrained : [Event.write sampleItem, .checkToken, .read, .tryRead].foldlM step s =
      some full := by
    simp [step, drain, afterDrain, writeDropOldest, channelCapacity, hchannel, hpoint,
      hstopping, full]
  obtain ⟨hdelaying, hkeeps, hempty, hrunning⟩ := insertBuffer_outage full
  refine ⟨{ insertBuffer Faults.outage Faults.outage false full with point := .whileStart },
    ?_, hempty, rfl, hrunning.trans hstopping, ?_⟩
  · have hsplit : PersistenceWorker.outageTurn =
        [Event.write sampleItem, .checkToken, .read, .tryRead] ++
          [.bulkInsert Faults.outage Faults.outage false, .delayDone] := rfl
    rw [hsplit, List.foldlM_append, hdrained]
    simp [step, hdelaying, full]
  · change (insertBuffer Faults.outage Faults.outage false full).buffer.length = held + 1
    rw [hkeeps]
    simp [full, hbuffer]

/-- The item of a turn is read on top of the buffer before it. -/
theorem Waiting.buffer_of_read {s : State} {held : ℕ} (h : Waiting s held) {db : Db}
    {x : State × Event} (hx : x ∈ (machine db).stepsFrom s PersistenceWorker.outageTurn)
    (hread : x.2 = .read) : x.1.buffer.length = held := by
  obtain ⟨hchannel, hpoint, hstopping, hbuffer⟩ := h
  have hstart : [Event.write sampleItem, .checkToken].foldlM step s =
      some { s with channel := [sampleItem], point := .reading } := by
    simp [step, writeDropOldest, channelCapacity, hchannel, hpoint, hstopping]
  have hsplit : PersistenceWorker.outageTurn = [Event.write sampleItem, .checkToken] ++
      [.read, .tryRead, .bulkInsert Faults.outage Faults.outage false, .delayDone] := rfl
  rw [hsplit, (machine db).stepsFrom_append _ _ _ _ hstart] at hx
  rcases List.mem_append.mp hx with hbefore | hafter
  · have hmem := (machine db).mem_of_mem_stepsFrom hbefore
    rw [hread] at hmem
    simp at hmem
  · rcases List.mem_cons.mp hafter with rfl | hrest
    · exact hbuffer
    · have hmem : x.2 ∈ [.tryRead, .bulkInsert Faults.outage Faults.outage false, .delayDone] :=
        (machine db).mem_of_mem_stepsFrom hrest
      rw [hread] at hmem
      simp at hmem

/-- While every insert fails the buffer grows with every item that arrives, so no
number bounds it. -/
theorem outage_fills_buffer (db : Db) (n : ℕ) : ∃ s,
    (machine db).run (List.replicate n outageTurn).flatten = some s ∧ Waiting s n := by
  induction n with
  | zero => exact ⟨_, rfl, rfl, rfl, rfl, rfl⟩
  | succ n ih =>
    obtain ⟨s, hs, hwaiting⟩ := ih
    obtain ⟨t, ht, hnext⟩ := hwaiting.outageTurn
    refine ⟨t, ?_, hnext⟩
    rw [Machine.run] at hs ⊢
    rw [List.replicate_succ', List.flatten_append, List.foldlM_append, hs,
      List.flatten_singleton]
    exact ht

/-- As long as the buffer is not full yet, all that an outage reads finds room. -/
theorem meets_outage (db : Db) {n : ℕ} (h : n ≤ batchLimit) :
    (machine db).Meets (fun s e => e = .read → s.buffer.length < batchLimit)
      (List.replicate n outageTurn).flatten := by
  induction n with
  | zero => exact (machine db).meets_nil _
  | succ n ih =>
    obtain ⟨s, hs, hwaiting⟩ := outage_fills_buffer db n
    rw [List.replicate_succ', List.flatten_append, List.flatten_singleton]
    intro x hx
    rw [(machine db).steps_append hs] at hx
    rcases List.mem_append.mp hx with hold | hlast
    · exact ih (Nat.le_of_succ_le h) x hold
    · intro hread
      rw [hwaiting.buffer_of_read hlast hread]
      exact h

/-- Of 256 items each arrives after a failed insert of those before it. The last of the
inserts is one of a full buffer, and it fails too. -/
theorem bufferBounded_iff_outage : ∃ s,
    (machine emptyDb).run (List.replicate 256 outageTurn).flatten = some s ∧
    s.buffer.length = 256 ∧ BufferBounded emptyDb (List.replicate 256 outageTurn).flatten ∧
    NoReadAfterFullFailure emptyDb (List.replicate 256 outageTurn).flatten := by
  obtain ⟨s, hs, hwaiting⟩ := outage_fills_buffer emptyDb 256
  obtain ⟨hroom, horder⟩ := bufferBounded_iff emptyDb _ s hs
  have hbounded := hroom.mpr (meets_outage emptyDb (Nat.le_refl 256))
  exact ⟨s, hs, hwaiting.buffer, hbounded, horder.mp hbounded⟩

/-- The channel as a pipe from what was written to what was dequeued. -/
def channelPipe (written : List PacketUpdate) (s : State) : Pipe PacketUpdate :=
  ⟨written, s.channel, s.dequeued⟩

/-- The channel keeps its bound, and what is dequeued the order of what was written. -/
structure ChannelKept (written : List PacketUpdate) (s : State) : Prop where
  inOrder : (channelPipe written s).InOrder
  bounded : s.channel.length ≤ channelCapacity

namespace ChannelKept

variable {written : List PacketUpdate} {s t : State}

theorem frame (h : ChannelKept written s) (hchannel : t.channel = s.channel)
    (hdequeued : t.dequeued = s.dequeued) : ChannelKept written t := by
  refine ⟨?_, ?_⟩
  · have hpipe : channelPipe written t = channelPipe written s := by
      rw [channelPipe, hchannel, hdequeued]
      rfl
    rw [hpipe]
    exact h.inOrder
  · rw [hchannel]
    exact h.bounded

theorem take (h : ChannelKept written s) {item : PacketUpdate} {rest : List PacketUpdate}
    (hold : s.channel = item :: rest) (hchannel : t.channel = rest)
    (hdequeued : t.dequeued = s.dequeued ++ [item]) : ChannelKept written t := by
  have hpipe : channelPipe written t = ⟨written, rest, s.dequeued ++ [item]⟩ := by
    rw [channelPipe, hchannel, hdequeued]
  have hbounded := h.bounded
  rw [hold, List.length_cons] at hbounded
  refine ⟨?_, ?_⟩
  · rw [hpipe]
    exact h.inOrder.step (.leave item rest hold)
  · rw [hchannel]
    exact Nat.le_of_succ_le hbounded

theorem write (h : ChannelKept written s) (item : PacketUpdate) :
    ChannelKept (written ++ [item])
      { s with channel := writeDropOldest channelCapacity s.channel item } := by
  refine ⟨?_, length_writeDropOldest (by decide) h.bounded item⟩
  have hentered := h.inOrder.step (.enter item)
  exact hentered.step (.lose _ (writeDropOldest_sublist channelCapacity s.channel item))

theorem drain (h : ChannelKept written s) : ChannelKept written (drain s) := by
  unfold PersistenceWorker.drain
  split
  next => exact h.frame rfl rfl
  next extra rest hchannel =>
    split
    · exact h.take hchannel rfl rfl
    · exact h.take hchannel rfl rfl

/-- Of the other steps some take the oldest item and none puts one in. -/
theorem other {e : Event} (h : ChannelKept written s) (hstep : step s e = some t)
    (he : ∀ item, e ≠ .write item) : ChannelKept written t := by
  cases e with
  | write item => exact absurd rfl (he item)
  | requestStop =>
    cases hstep
    exact h.frame rfl rfl
  | read =>
    simp only [PersistenceWorker.step] at hstep
    split at hstep
    next item rest hpoint hchannel =>
      cases hstep
      exact h.take hchannel rfl rfl
    next => cases hstep
  | tryRead =>
    obtain ⟨-, heq⟩ := Option.ite_none_right_eq_some.mp hstep
    cases heq
    exact h.drain
  | bulkInsert first second canceled =>
    obtain ⟨-, heq⟩ := Option.ite_none_right_eq_some.mp hstep
    cases heq
    unfold insertBuffer
    split
    · exact h.frame rfl rfl
    · exact h.frame rfl rfl
  | _ =>
    obtain ⟨-, heq⟩ := Option.ite_none_right_eq_some.mp hstep
    cases heq
    exact h.frame rfl rfl

theorem writes (h : ChannelKept written s) {items : List PacketUpdate}
    (hrun : (items.map Event.write).foldlM PersistenceWorker.step s = some t) :
    ChannelKept (written ++ items) t := by
  induction items generalizing written s with
  | nil =>
    cases hrun
    rw [List.append_nil]
    exact h
  | cons item items ih =>
    rw [List.map_cons, List.foldlM_cons] at hrun
    obtain ⟨u, hu, hrest⟩ := Option.bind_eq_some_iff.mp hrun
    cases hu
    have hitems := ih (h.write item) hrest
    rwa [List.append_assoc] at hitems

end ChannelKept

end AetherLens.PersistenceWorker
