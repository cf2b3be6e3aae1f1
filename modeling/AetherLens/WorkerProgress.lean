import AetherLens.PersistenceWorker

/-!
What the persistence worker kept back after a failure. It reads before it inserts, so a
buffer that could not be stored waits for the next packet. When one has come and the
database takes rows again, the worker's own steps store all that it holds.
-/
namespace AetherLens.WorkerProgress

open AetherDb Messages PersistenceWorker Runs

/-- The worker's own steps while the database takes what it is given. -/
def Works : Event → Prop
  | .checkToken => True
  | .read => True
  | .tryRead => True
  | .bulkInsert first _ _ => first = .none
  | .delayDone => True
  | _ => False

theorem insertItems_none (i : ℕ) (batch : List PacketUpdate) :
    insertItems Faults.none.insert i batch = some (batch.map row) := by
  induction batch generalizing i with
  | nil => rfl
  | cons item rest ih =>
    rw [insertItems, ih]
    rfl

theorem attempt_none (db : Db) (batch : List PacketUpdate) :
    attempt .none db batch = (⟨.opened, db.packetEvents ++ batch.map row⟩, true) := by
  have hensure : ensureConnected db.conn Faults.none.openConnection = (.opened, true) := by
    cases db.conn <;> rfl
  unfold attempt
  rw [hensure]
  simp only [insertItems_none]
  rfl

/-- The state after the buffer has been stored. -/
def stored (s : State) : State :=
  { s with
    db := ⟨.opened, s.db.packetEvents ++ s.buffer.map row⟩
    buffer := []
    point := .whileStart }

theorem insertBuffer_none (s : State) : insertBuffer .none .none false s = stored s := by
  unfold insertBuffer bulkInsertPackets
  rw [attempt_none]
  rfl

section Steps

variable (db : Db) {s : State}

theorem leads_of_inserting (hpoint : s.point = .inserting) :
    (machine db).Leads Works s (stored s) := by
  refine .of_step (e := .bulkInsert .none .none false) ?_ rfl
  change (if s.point = .inserting then some (insertBuffer .none .none false s) else none) = _
  rw [if_pos hpoint, insertBuffer_none]

/-- All that the worker holds is in the table. -/
structure Stores (s t : State) : Prop where
  channel_nil : t.channel = []
  buffer_nil : t.buffer = []
  rows_eq : t.db.packetEvents = s.db.packetEvents ++ (s.buffer ++ s.channel).map row

theorem leads_of_draining (hpoint : s.point = .draining)
    (hfits : s.buffer.length + s.channel.length ≤ batchLimit) :
    ∃ t, (machine db).Leads Works s t ∧ Stores s t := by
  have hstep : (machine db).step s .tryRead = some (drain s) := if_pos hpoint
  induction hchannel : s.channel generalizing s with
  | nil =>
    have hdrain : drain s = afterDrain s := by rw [drain, hchannel]
    rw [hdrain] at hstep
    have hleads : (machine db).Leads Works s (afterDrain s) := .of_step hstep trivial
    by_cases hbuffer : 0 < s.buffer.length
    · rw [afterDrain, if_pos hbuffer] at hleads
      refine ⟨_, hleads.trans (leads_of_inserting db rfl), hchannel, rfl, ?_⟩
      rw [hchannel, List.append_nil]
      rfl
    · have hnil : s.buffer = [] := List.eq_nil_of_length_eq_zero (by omega)
      refine ⟨_, hleads, hchannel, hnil, ?_⟩
      rw [hchannel, hnil]
      exact (List.append_nil _).symm
  | cons extra rest ih =>
    rw [hchannel, List.length_cons] at hfits
    have hroom : s.buffer.length < batchLimit := by omega
    let u : State := { s with
      channel := rest
      dequeued := s.dequeued ++ [extra]
      buffer := s.buffer ++ [extra] }
    have hdrain : drain s = u := by
      simp only [drain, hchannel, hroom, if_true, u]
    rw [hdrain] at hstep
    have hfits' : u.buffer.length + u.channel.length ≤ batchLimit := by
      simp only [u, List.length_append, List.length_singleton]
      omega
    obtain ⟨t, hleads, hstores⟩ := ih (s := u) hpoint hfits' (if_pos hpoint) rfl
    refine ⟨t, (Machine.Leads.of_step hstep trivial).trans hleads, hstores.channel_nil,
      hstores.buffer_nil, ?_⟩
    rw [hstores.rows_eq, hchannel]
    simp [u]

theorem leads_of_reading (hpoint : s.point = .reading) (hchannel : s.channel ≠ [])
    (hfits : s.buffer.length + s.channel.length ≤ batchLimit) :
    ∃ t, (machine db).Leads Works s t ∧ Stores s t := by
  obtain ⟨item, rest, hitems⟩ := List.exists_cons_of_ne_nil hchannel
  let u : State := { s with
    channel := rest
    dequeued := s.dequeued ++ [item]
    buffer := s.buffer ++ [item]
    point := .draining }
  have hread : (machine db).step s .read = some u := by
    simp [machine, step, hpoint, hitems, u]
  rw [hitems, List.length_cons] at hfits
  have hfits' : u.buffer.length + u.channel.length ≤ batchLimit := by
    simp only [u, List.length_append, List.length_singleton]
    omega
  obtain ⟨t, hleads, hstores⟩ := leads_of_draining db (s := u) rfl hfits'
  refine ⟨t, (Machine.Leads.of_step hread trivial).trans hleads, hstores.channel_nil,
    hstores.buffer_nil, ?_⟩
  rw [hstores.rows_eq, hitems]
  simp [u]

theorem leads_of_whileStart (hpoint : s.point = .whileStart) (hstopping : s.stopping = false)
    (hchannel : s.channel ≠ []) (hfits : s.buffer.length + s.channel.length ≤ batchLimit) :
    ∃ t, (machine db).Leads Works s t ∧ Stores s t := by
  have hcheck : (machine db).step s .checkToken = some { s with point := .reading } := by
    simp [machine, step, hpoint, hstopping]
  obtain ⟨t, hleads, hstores⟩ := leads_of_reading db (s := { s with point := .reading }) rfl
    hchannel hfits
  exact ⟨t, (Machine.Leads.of_step hcheck trivial).trans hleads, hstores.channel_nil,
    hstores.buffer_nil, hstores.rows_eq⟩

/-- Wherever the worker stands, a packet in its channel lets it store all that it holds. -/
theorem leads_of_packet (hstopping : s.stopping = false) (hfinished : s.point ≠ .finished)
    (hchannel : s.channel ≠ []) (hfits : s.buffer.length + s.channel.length ≤ batchLimit) :
    ∃ t, (machine db).Leads Works s t ∧ Stores s t := by
  cases hpoint : s.point with
  | whileStart => exact leads_of_whileStart db hpoint hstopping hchannel hfits
  | reading => exact leads_of_reading db hpoint hchannel hfits
  | draining => exact leads_of_draining db hpoint hfits
  | inserting =>
    have hfits' : (stored s).buffer.length + (stored s).channel.length ≤ batchLimit :=
      (Nat.add_le_add_right (Nat.zero_le _) _).trans hfits
    obtain ⟨t, hleads, hstores⟩ := leads_of_whileStart db (s := stored s) rfl hstopping
      hchannel hfits'
    refine ⟨t, (leads_of_inserting db hpoint).trans hleads, hstores.channel_nil,
      hstores.buffer_nil, ?_⟩
    rw [hstores.rows_eq]
    simp [stored]
  | delaying =>
    have hdelay : (machine db).step s .delayDone = some { s with point := .whileStart } :=
      if_pos hpoint
    obtain ⟨t, hleads, hstores⟩ := leads_of_whileStart db
      (s := { s with point := .whileStart }) rfl hstopping hchannel hfits
    exact ⟨t, (Machine.Leads.of_step hdelay trivial).trans hleads, hstores.channel_nil,
      hstores.buffer_nil, hstores.rows_eq⟩
  | finished => exact absurd hpoint hfinished

end Steps

/-- In every state the worker can come to, whatever has failed before, one packet in the
channel is enough: with a database that takes rows, the worker's own steps store all that
it holds, in order, if one batch can hold it. Without a packet it cannot take a step. -/
theorem worker_catches_up (db : Db) (es : List Event) (s : State)
    (hrun : (machine db).run es = some s) (hstopping : s.stopping = false)
    (hfinished : s.point ≠ .finished) :
    (s.channel ≠ [] → s.buffer.length + s.channel.length ≤ batchLimit →
      ∃ later t, (∀ e ∈ later, Works e) ∧ (machine db).run (es ++ later) = some t ∧
        Stores s t) ∧
    (s.point = .reading → s.channel = [] → ∀ e, Works e → step s e = none) := by
  constructor
  · intro hchannel hfits
    obtain ⟨t, hleads, hstores⟩ := leads_of_packet db hstopping hfinished hchannel hfits
    obtain ⟨later, hworks, ht⟩ := hleads.run hrun
    exact ⟨later, t, hworks, ht, hstores⟩
  · intro hpoint hchannel e hworks
    cases e with
    | write => exact hworks.elim
    | requestStop => exact hworks.elim
    | readCanceled => exact hworks.elim
    | delayCanceled => exact hworks.elim
    | _ => simp [step, hpoint, hchannel]

/-- The database fails, and a second packet comes when it is back. -/
def recoveredRun : List Event := outageTurn ++ [.write { sampleItem with bytes := 65 }]

theorem worker_catches_up_recovered : ∃ s, (machine emptyDb).run recoveredRun = some s ∧
    s.buffer = [sampleItem] ∧
    ∃ later t, (∀ e ∈ later, Works e) ∧
      (machine emptyDb).run (recoveredRun ++ later) = some t ∧ Stores s t := by
  obtain ⟨s, hs, hbuffer, hchannel, hstopping, hpoint⟩ : ∃ s,
      (machine emptyDb).run recoveredRun = some s ∧ s.buffer = [sampleItem] ∧
      s.channel = [{ sampleItem with bytes := 65 }] ∧ s.stopping = false ∧
      s.point = .whileStart := ⟨_, rfl, rfl, rfl, rfl, rfl⟩
  have hcatches := worker_catches_up emptyDb recoveredRun s hs hstopping (by simp [hpoint])
  refine ⟨s, hs, hbuffer, hcatches.1 (by simp [hchannel]) ?_⟩
  rw [hbuffer, hchannel]
  decide

end AetherLens.WorkerProgress
