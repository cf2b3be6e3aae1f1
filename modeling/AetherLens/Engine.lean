import AetherLens.BlockingQueues
import AetherLens.Messages
import AetherLens.Runs

/-!
The engine between its traffic and its two broadcasts. One loop produces packets,
from captured frames or from a clock, and waits until a packet and its alert have
room in their queues before it takes the next turn. Two tasks take from the queues
and never wait for anything else. What the loop does in a turn is left open here.
-/
namespace AetherLens.Engine

open BlockingQueues BlockingQueue Messages Runs

def packetCapacity : ℕ := 4096

def suspiciousCapacity : ℕ := 1024

/-- What a turn of the producing loop comes to before it sends anything. -/
inductive Turn (σ : Type*)
  | ends
  | skips (next : σ)
  | produces (next : σ) (packet : CapturedPacket) (alert : Option SuspiciousConnection)

/-- A producing loop: its state, what a turn does with its input, and whether it
breaks when its alert is not taken. -/
structure Source (σ ι : Type*) where
  start : σ
  turn : σ → ι → Turn σ
  breaksOnAlert : Bool

inductive Point
  | turning
  | sendingPacket (packet : CapturedPacket) (alert : Option SuspiciousConnection)
  | sendingAlert (alert : SuspiciousConnection)
  | ended
deriving DecidableEq, Repr

/-- `produced` is the history of the turns whose packet has been sent. -/
structure State (σ : Type*) where
  source : σ
  point : Point
  packets : BlockingQueue CapturedPacket packetCapacity
  suspicious : BlockingQueue SuspiciousConnection suspiciousCapacity
  produced : List (CapturedPacket × Option SuspiciousConnection)

inductive Event (ι : Type*)
  | turn (input : ι)
  | sendPacket
  | sendAlert
  | receivePacket
  | receiveAlert
  | closePackets
  | closeAlerts

section Machine

variable {σ ι : Type*} (source : Source σ ι)

def afterPacket : Option SuspiciousConnection → Point
  | none => .turning
  | some alert => .sendingAlert alert

def State.take (s : State σ) : Turn σ → State σ
  | .ends => { s with point := .ended }
  | .skips next => { s with source := next }
  | .produces next packet alert =>
    { s with source := next, point := .sendingPacket packet alert }

def step (s : State σ) : Event ι → Option (State σ)
  | .turn input =>
    match s.point with
    | .turning => some (s.take (source.turn s.source input))
    | _ => none
  | .sendPacket =>
    match s.point with
    | .sendingPacket packet alert =>
      if s.packets.isOpen then
        (s.packets.send packet).map fun packets =>
          { s with
            packets := packets
            produced := s.produced ++ [(packet, alert)]
            point := afterPacket alert }
      else some { s with point := .ended }
    | _ => none
  | .sendAlert =>
    match s.point with
    | .sendingAlert alert =>
      if s.suspicious.isOpen then
        (s.suspicious.send alert).map fun suspicious =>
          { s with suspicious := suspicious, point := .turning }
      else some { s with point := if source.breaksOnAlert then .ended else .turning }
    | _ => none
  | .receivePacket => s.packets.receive.map fun x => { s with packets := x.2 }
  | .receiveAlert => s.suspicious.receive.map fun x => { s with suspicious := x.2 }
  | .closePackets => some { s with packets := s.packets.close }
  | .closeAlerts => some { s with suspicious := s.suspicious.close }

def start : State σ := ⟨source.start, .turning, .empty, .empty, []⟩

def machine : Machine (State σ) (Event ι) := ⟨start source, step source⟩

/-- What a step does, with its guard. -/
inductive Moves (s : State σ) : Event ι → State σ → Prop
  | ends (input : ι) (hpoint : s.point = .turning)
      (hturn : source.turn s.source input = .ends) :
      Moves s (.turn input) { s with point := .ended }
  | skips (input : ι) (next : σ) (hpoint : s.point = .turning)
      (hturn : source.turn s.source input = .skips next) :
      Moves s (.turn input) { s with source := next }
  | produces (input : ι) (next : σ) (packet : CapturedPacket)
      (alert : Option SuspiciousConnection) (hpoint : s.point = .turning)
      (hturn : source.turn s.source input = .produces next packet alert) :
      Moves s (.turn input) { s with source := next, point := .sendingPacket packet alert }
  | sendPacket (packet : CapturedPacket) (alert : Option SuspiciousConnection)
      (hpoint : s.point = .sendingPacket packet alert) (haccepts : s.packets.Accepts) :
      Moves s .sendPacket { s with
        packets := s.packets.push packet haccepts
        produced := s.produced ++ [(packet, alert)]
        point := afterPacket alert }
  | packetsGone (packet : CapturedPacket) (alert : Option SuspiciousConnection)
      (hpoint : s.point = .sendingPacket packet alert) (hclosed : s.packets.isOpen = false) :
      Moves s .sendPacket { s with point := .ended }
  | sendAlert (alert : SuspiciousConnection) (hpoint : s.point = .sendingAlert alert)
      (haccepts : s.suspicious.Accepts) :
      Moves s .sendAlert { s with
        suspicious := s.suspicious.push alert haccepts
        point := .turning }
  | alertsGone (alert : SuspiciousConnection) (hpoint : s.point = .sendingAlert alert)
      (hclosed : s.suspicious.isOpen = false) :
      Moves s .sendAlert { s with point := if source.breaksOnAlert then .ended else .turning }
  | receivePacket (packet : CapturedPacket) (rest : List CapturedPacket)
      (hitems : s.packets.items = packet :: rest) :
      Moves s .receivePacket { s with packets := s.packets.pop packet rest hitems }
  | receiveAlert (alert : SuspiciousConnection) (rest : List SuspiciousConnection)
      (hitems : s.suspicious.items = alert :: rest) :
      Moves s .receiveAlert { s with suspicious := s.suspicious.pop alert rest hitems }
  | closePackets : Moves s .closePackets { s with packets := s.packets.close }
  | closeAlerts : Moves s .closeAlerts { s with suspicious := s.suspicious.close }

variable {source}

theorem moves_of_turn {s t : State σ} {input : ι}
    (h : step source s (.turn input) = some t) : Moves source s (.turn input) t := by
  simp only [step] at h
  split at h
  next hpoint =>
    cases hturn : source.turn s.source input with
    | ends =>
      rw [hturn] at h
      cases h
      exact .ends input hpoint hturn
    | skips next =>
      rw [hturn] at h
      cases h
      exact .skips input next hpoint hturn
    | produces next packet alert =>
      rw [hturn] at h
      cases h
      exact .produces input next packet alert hpoint hturn
  next => cases h

theorem moves_of_sendPacket {s t : State σ} (h : step source s (.sendPacket : Event ι) = some t) :
    Moves source s .sendPacket t := by
  simp only [step] at h
  split at h
  next packet alert hpoint =>
    split at h
    next =>
      obtain ⟨packets, hsend, rfl⟩ := Option.map_eq_some_iff.mp h
      obtain ⟨haccepts, rfl⟩ := send_eq_some hsend
      exact .sendPacket packet alert hpoint haccepts
    next hclosed =>
      cases h
      exact .packetsGone packet alert hpoint (by simpa using hclosed)
  next => cases h

theorem moves_of_sendAlert {s t : State σ} (h : step source s (.sendAlert : Event ι) = some t) :
    Moves source s .sendAlert t := by
  simp only [step] at h
  split at h
  next alert hpoint =>
    split at h
    next =>
      obtain ⟨suspicious, hsend, rfl⟩ := Option.map_eq_some_iff.mp h
      obtain ⟨haccepts, rfl⟩ := send_eq_some hsend
      exact .sendAlert alert hpoint haccepts
    next hclosed =>
      cases h
      exact .alertsGone alert hpoint (by simpa using hclosed)
  next => cases h

theorem moves_of_step {s t : State σ} {e : Event ι} (h : (machine source).step s e = some t) :
    Moves source s e t := by
  cases e with
  | turn input => exact moves_of_turn h
  | sendPacket => exact moves_of_sendPacket h
  | sendAlert => exact moves_of_sendAlert h
  | receivePacket =>
    obtain ⟨⟨packet, packets⟩, hreceive, rfl⟩ := Option.map_eq_some_iff.mp h
    obtain ⟨rest, hitems, rfl⟩ := receive_eq_some hreceive
    exact .receivePacket packet rest hitems
  | receiveAlert =>
    obtain ⟨⟨alert, suspicious⟩, hreceive, rfl⟩ := Option.map_eq_some_iff.mp h
    obtain ⟨rest, hitems, rfl⟩ := receive_eq_some hreceive
    exact .receiveAlert alert rest hitems
  | closePackets =>
    cases h
    exact .closePackets
  | closeAlerts =>
    cases h
    exact .closeAlerts

theorem step_of_moves {s t : State σ} {e : Event ι} (h : Moves source s e t) :
    (machine source).step s e = some t := by
  cases h with
  | ends input hpoint hturn =>
    simp only [machine, step, hpoint, hturn]
    rfl
  | skips input next hpoint hturn =>
    obtain ⟨old, point, packets, suspicious, produced⟩ := s
    cases hpoint
    simp only [machine, step, hturn]
    rfl
  | produces input next packet alert hpoint hturn =>
    simp only [machine, step, hpoint, hturn]
    rfl
  | sendPacket packet alert hpoint haccepts =>
    simp only [machine, step, hpoint, haccepts.1, if_true, send_of_accepts haccepts]
    rfl
  | packetsGone packet alert hpoint hclosed =>
    simp [machine, step, hpoint, hclosed]
  | sendAlert alert hpoint haccepts =>
    simp only [machine, step, hpoint, haccepts.1, if_true, send_of_accepts haccepts]
    rfl
  | alertsGone alert hpoint hclosed =>
    simp [machine, step, hpoint, hclosed]
  | receivePacket packet rest hitems =>
    simp only [machine, step, receive_of_items hitems]
    rfl
  | receiveAlert alert rest hitems =>
    simp only [machine, step, receive_of_items hitems]
    rfl
  | closePackets => rfl
  | closeAlerts => rfl

/-- The alert that waits for room. -/
def Point.pending : Point → List SuspiciousConnection
  | .sendingAlert alert => [alert]
  | _ => []

theorem pending_afterPacket (alert : Option SuspiciousConnection) :
    (afterPacket alert).pending = alert.toList := by
  cases alert <;> rfl

/-- The queues have taken the packets of all turns, and of their alerts those that did
not find the receiver gone. -/
structure Inv (s : State σ) : Prop where
  packets_sent : s.packets.sent = s.produced.map Prod.fst
  alerts_sublist :
    (s.suspicious.sent ++ s.point.pending).Sublist (s.produced.filterMap Prod.snd)
  alerts_eq : s.suspicious.isOpen = true →
    s.suspicious.sent ++ s.point.pending = s.produced.filterMap Prod.snd

theorem inv_start : Inv (start source) := ⟨rfl, List.Sublist.refl _, fun _ => rfl⟩

/-- Nothing is pending where the loop is not sending an alert. -/
theorem Inv.goTo {s : State σ} (h : Inv s) {point : Point} (hold : s.point.pending = [])
    (hnew : point.pending = []) (next : σ) :
    Inv { s with source := next, point := point } := by
  refine ⟨h.packets_sent, ?_, ?_⟩
  · rw [hnew, ← hold]
    exact h.alerts_sublist
  · rw [hnew, ← hold]
    exact h.alerts_eq

theorem filterMap_snoc (produced : List (CapturedPacket × Option SuspiciousConnection))
    (packet : CapturedPacket) (alert : Option SuspiciousConnection) :
    (produced ++ [(packet, alert)]).filterMap Prod.snd =
      produced.filterMap Prod.snd ++ alert.toList := by
  cases alert <;> simp

theorem inv_step (s : State σ) (e : Event ι) (t : State σ)
    (hstep : (machine source).step s e = some t) (h : Inv s) : Inv t := by
  cases moves_of_step hstep with
  | ends input hpoint => exact h.goTo (by rw [hpoint]; rfl) rfl s.source
  | skips input next hpoint => exact ⟨h.packets_sent, h.alerts_sublist, h.alerts_eq⟩
  | produces input next packet alert hpoint => exact h.goTo (by rw [hpoint]; rfl) rfl next
  | sendPacket packet alert hpoint haccepts =>
    have hnone : s.point.pending = [] := by
      rw [hpoint]
      rfl
    have hsublist := h.alerts_sublist
    have heq := h.alerts_eq
    rw [hnone, List.append_nil] at hsublist heq
    refine ⟨?_, ?_, ?_⟩
    · change s.packets.sent ++ [packet] = _
      rw [h.packets_sent, List.map_append]
      rfl
    · rw [filterMap_snoc, pending_afterPacket]
      exact hsublist.append (List.Sublist.refl _)
    · intro hopen
      rw [filterMap_snoc, pending_afterPacket, ← heq hopen]
  | packetsGone packet alert hpoint => exact h.goTo (by rw [hpoint]; rfl) rfl s.source
  | sendAlert alert hpoint haccepts =>
    have hpending : s.point.pending = [alert] := by
      rw [hpoint]
      rfl
    have hsublist := h.alerts_sublist
    have heq := h.alerts_eq
    rw [hpending] at hsublist heq
    refine ⟨h.packets_sent, ?_, ?_⟩
    · simpa [Point.pending, push] using hsublist
    · simpa [Point.pending, push] using heq
  | alertsGone alert hpoint hclosed =>
    have hnew : (if source.breaksOnAlert then Point.ended else .turning).pending = [] := by
      split <;> rfl
    refine ⟨h.packets_sent, ?_, ?_⟩
    · rw [hnew, List.append_nil]
      exact (List.sublist_append_left _ _).trans h.alerts_sublist
    · intro hopen
      rw [hclosed] at hopen
      cases hopen
  | receivePacket => exact ⟨h.packets_sent, h.alerts_sublist, h.alerts_eq⟩
  | receiveAlert => exact ⟨h.packets_sent, h.alerts_sublist, h.alerts_eq⟩
  | closePackets => exact ⟨h.packets_sent, h.alerts_sublist, h.alerts_eq⟩
  | closeAlerts => exact ⟨h.packets_sent, h.alerts_sublist, nofun⟩

theorem inv_run {es : List (Event ι)} {s : State σ} (hs : (machine source).run es = some s) :
    Inv s :=
  (machine source).run_invariant Inv inv_start inv_step hs

/-- Every pair that is sent, or about to be, was produced by a turn. -/
def FromTurns (R : CapturedPacket → Option SuspiciousConnection → Prop) (s : State σ) : Prop :=
  (∀ x ∈ s.produced, R x.1 x.2) ∧
    ∀ packet alert, s.point = .sendingPacket packet alert → R packet alert

/-- What relates packet and alert in every turn relates all that is sent. -/
theorem fromTurns_run {R : CapturedPacket → Option SuspiciousConnection → Prop}
    (hR : ∀ state input next packet alert,
      source.turn state input = .produces next packet alert → R packet alert)
    {es : List (Event ι)} {s : State σ} (hs : (machine source).run es = some s) :
    FromTurns R s := by
  refine (machine source).run_invariant (FromTurns R) ⟨nofun, nofun⟩ ?_ hs
  intro s e t hstep h
  cases moves_of_step hstep with
  | ends => exact ⟨h.1, nofun⟩
  | skips => exact h
  | produces input next packet alert hpoint hturn =>
    refine ⟨h.1, ?_⟩
    intro packet' alert' heq
    cases heq
    exact hR _ _ _ _ _ hturn
  | sendPacket packet alert hpoint =>
    refine ⟨?_, ?_⟩
    · intro x hx
      rcases List.mem_append.mp hx with hold | hnew
      · exact h.1 x hold
      · rw [List.mem_singleton.mp hnew]
        exact h.2 packet alert hpoint
    · cases alert <;> nofun
  | packetsGone => exact ⟨h.1, nofun⟩
  | sendAlert => exact ⟨h.1, nofun⟩
  | alertsGone =>
    refine ⟨h.1, ?_⟩
    split <;> nofun
  | receivePacket => exact h
  | receiveAlert => exact h
  | closePackets => exact h
  | closeAlerts => exact h

/-- The input of the turn that the event takes. -/
def Event.input? : Event ι → Option ι
  | .turn input => some input
  | _ => none

def inputsOf (es : List (Event ι)) : List ι := es.filterMap Event.input?

variable (source) in
/-- What the loop produces of a list of inputs if nothing makes it wait. -/
def produce : σ → List ι → List (CapturedPacket × Option SuspiciousConnection)
  | _, [] => []
  | s, input :: inputs =>
    match source.turn s input with
    | .ends => []
    | .skips next => produce next inputs
    | .produces next packet alert => (packet, alert) :: produce next inputs

/-- The pair of the last turn, while its packet waits for room. -/
def Point.turned : Point → List (CapturedPacket × Option SuspiciousConnection)
  | .sendingPacket packet alert => [(packet, alert)]
  | _ => []

/-- The loop has produced what its inputs give, and would go on from its state. -/
def FollowsInputs (source : Source σ ι) (inputs : List ι) (s : State σ) : Prop :=
  if s.point = .ended then s.produced <+: produce source source.start inputs
  else ∀ later, produce source source.start (inputs ++ later) =
    s.produced ++ (s.point.turned ++ produce source s.source later)

theorem FollowsInputs.ends {inputs : List ι} {s : State σ} (h : FollowsInputs source inputs s)
    (hpoint : s.point ≠ .ended) (input : List ι) :
    FollowsInputs source (inputs ++ input) { s with point := .ended } := by
  rw [FollowsInputs, if_neg hpoint] at h
  rw [FollowsInputs, if_pos rfl, h input]
  exact List.prefix_append _ _

/-- Where nothing of a turn waits, the loop may stand anywhere else with nothing waiting. -/
theorem FollowsInputs.goTo {inputs : List ι} {s : State σ} (h : FollowsInputs source inputs s)
    (hpoint : s.point ≠ .ended) (hold : s.point.turned = []) {point : Point}
    (hnew : point.turned = [])
    (suspicious : BlockingQueues.BlockingQueue SuspiciousConnection suspiciousCapacity) :
    FollowsInputs source inputs { s with suspicious := suspicious, point := point } := by
  rw [FollowsInputs, if_neg hpoint] at h
  rw [FollowsInputs]
  split
  · have hinitial := h []
    rw [List.append_nil] at hinitial
    rw [hinitial]
    exact List.prefix_append _ _
  · intro later
    rw [h later, hold, hnew]

theorem inputsOf_snoc (es : List (Event ι)) (e : Event ι) :
    inputsOf (es ++ [e]) = inputsOf es ++ e.input?.toList := by
  rw [inputsOf, List.filterMap_append]
  cases h : e.input? <;> simp [inputsOf, h]

theorem turned_afterPacket (alert : Option SuspiciousConnection) :
    (afterPacket alert).turned = [] := by
  cases alert <;> rfl

theorem afterPacket_ne_ended (alert : Option SuspiciousConnection) :
    afterPacket alert ≠ .ended := by
  cases alert <;> nofun

/-- The queues and the two tasks make the loop wait but change nothing of what it
produces. -/
theorem followsInputs_run : ∀ (es : List (Event ι)) (s : State σ),
    (machine source).run es = some s → FollowsInputs source (inputsOf es) s := by
  apply (machine source).run_induction fun es s => FollowsInputs source (inputsOf es) s
  · exact fun later => rfl
  · intro es s e t _ hstep h
    rw [inputsOf_snoc]
    cases moves_of_step hstep with
    | ends input hpoint hturn => exact h.ends (by simp [hpoint]) [input]
    | skips input next hpoint hturn =>
      rw [FollowsInputs, if_neg (by simp [hpoint])] at h ⊢
      intro later
      rw [List.append_assoc, h]
      simp [Event.input?, produce, hturn]
    | produces input next packet alert hpoint hturn =>
      rw [FollowsInputs, if_neg (by simp [hpoint])] at h
      rw [FollowsInputs, if_neg (by simp)]
      intro later
      rw [List.append_assoc, h, hpoint]
      simp [Event.input?, produce, hturn, Point.turned]
    | sendPacket packet alert hpoint =>
      rw [FollowsInputs, if_neg (by simp [hpoint])] at h
      rw [FollowsInputs, if_neg (afterPacket_ne_ended alert)]
      intro later
      rw [turned_afterPacket]
      simp [Event.input?, h, hpoint, Point.turned]
    | packetsGone packet alert hpoint => exact h.ends (by simp [hpoint]) []
    | sendAlert alert hpoint haccepts =>
      simpa [Event.input?] using h.goTo (by simp [hpoint]) (by simp [hpoint, Point.turned]) rfl
        (s.suspicious.push alert haccepts)
    | alertsGone alert hpoint =>
      have hnew : (if source.breaksOnAlert then Point.ended else .turning).turned = [] := by
        split <;> rfl
      simpa [Event.input?] using h.goTo (by simp [hpoint]) (by simp [hpoint, Point.turned]) hnew
        s.suspicious
    | receivePacket => exact (List.append_nil (inputsOf es)).symm ▸ h
    | receiveAlert => exact (List.append_nil (inputsOf es)).symm ▸ h
    | closePackets => exact (List.append_nil (inputsOf es)).symm ▸ h
    | closeAlerts => exact (List.append_nil (inputsOf es)).symm ▸ h

/-- What has been produced is the first part of what the inputs give. -/
theorem produced_prefix {es : List (Event ι)} {s : State σ}
    (hs : (machine source).run es = some s) :
    s.produced <+: produce source source.start (inputsOf es) := by
  have hfollows := followsInputs_run es s hs
  rw [FollowsInputs] at hfollows
  split at hfollows
  · exact hfollows
  · have hinitial := hfollows []
    rw [List.append_nil] at hinitial
    rw [hinitial]
    exact List.prefix_append _ _

/-- What a step passes on to the packet task. -/
def givesPacket (s : State σ) : Event ι → List CapturedPacket
  | .receivePacket => s.packets.items.head?.toList
  | _ => []

/-- What a step passes on to the alert task. -/
def givesAlert (s : State σ) : Event ι → List SuspiciousConnection
  | .receiveAlert => s.suspicious.items.head?.toList
  | _ => []

theorem received_step {s t : State σ} {e : Event ι}
    (hstep : (machine source).step s e = some t) :
    t.packets.received = s.packets.received ++ givesPacket s e ∧
      t.suspicious.received = s.suspicious.received ++ givesAlert s e := by
  cases moves_of_step hstep with
  | receivePacket packet rest hitems =>
    simp [givesPacket, givesAlert, hitems, pop]
  | receiveAlert alert rest hitems =>
    simp [givesPacket, givesAlert, hitems, pop]
  | sendPacket => simp [givesPacket, givesAlert, push]
  | sendAlert => simp [givesPacket, givesAlert, push]
  | closePackets => simp [givesPacket, givesAlert, close]
  | closeAlerts => simp [givesPacket, givesAlert, close]
  | _ => simp [givesPacket, givesAlert]

end Machine

/-- A loop that produces what it is given. -/
def replay : Source Unit (CapturedPacket × Option SuspiciousConnection) where
  start := ()
  turn _ x := .produces () x.1 x.2
  breaksOnAlert := true

def telnetPacket : CapturedPacket :=
  ⟨"putty.exe", "10.0.0.5:50000", "192.0.2.7:23", "TCP", 60, 1000, true⟩

def telnetAlert : SuspiciousConnection :=
  ⟨"putty.exe", "192.0.2.7:23", "Outbound Telnet attempt", 0.96, 1000⟩

/-- The packet is received before its alert is sent. -/
def telnetRun : List (Event (CapturedPacket × Option SuspiciousConnection)) :=
  [.turn (telnetPacket, some telnetAlert), .sendPacket, .receivePacket, .sendAlert]

section Progress

variable {σ ι : Type*} {source : Source σ ι}

/-- The events by which a waiting send is served. -/
def Event.Serves : Event ι → Prop
  | .sendPacket => True
  | .sendAlert => True
  | .receivePacket => True
  | .receiveAlert => True
  | _ => False

/-- Sends and receives alone, at most `n` of them, lead from one state to the other. -/
def ServedTo (source : Source σ ι) (n : ℕ) (s t : State σ) : Prop :=
  (machine source).LeadsIn Event.Serves n s t

theorem ServedTo.of_moves {e : Event ι} {s t : State σ} (h : Moves source s e t)
    (hserves : e.Serves) : ServedTo source 1 s t :=
  .of_step (step_of_moves h) hserves

variable (source) in
/-- A packet that waits for room gets it from the next receive. -/
theorem servedTo_afterPacket {s : State σ} {packet : CapturedPacket}
    {alert : Option SuspiciousConnection} (hpoint : s.point = .sendingPacket packet alert) :
    ∃ t, ServedTo source 2 s t ∧ (t.point = afterPacket alert ∨ t.point = .ended) := by
  have hsend : ∀ u : State σ, u.point = .sendingPacket packet alert → u.packets.Accepts →
      ∃ t, ServedTo source 1 u t ∧ t.point = afterPacket alert := fun u hu haccepts =>
    ⟨_, .of_moves (.sendPacket packet alert hu haccepts) trivial, rfl⟩
  by_cases hopen : s.packets.isOpen = true
  · rcases accepts_or_pop (by decide) hopen with haccepts | ⟨x, rest, hitems, haccepts⟩
    · obtain ⟨t, ht, hafter⟩ := hsend s hpoint haccepts
      exact ⟨t, ht.mono (by omega), Or.inl hafter⟩
    · have hfirst : ServedTo source 1 s { s with packets := s.packets.pop x rest hitems } :=
        .of_moves (.receivePacket x rest hitems) trivial
      obtain ⟨t, ht, hafter⟩ := hsend { s with packets := s.packets.pop x rest hitems } hpoint
        haccepts
      exact ⟨t, hfirst.trans ht, Or.inl hafter⟩
  · have hclosed : s.packets.isOpen = false := by simpa using hopen
    refine ⟨{ s with point := .ended }, Machine.LeadsIn.mono ?_ (by omega : 1 ≤ 2), Or.inr rfl⟩
    exact ServedTo.of_moves (.packetsGone packet alert hpoint hclosed) trivial

variable (source) in
/-- An alert that waits for room gets it from the next receive. -/
theorem servedTo_afterAlert {s : State σ} {alert : SuspiciousConnection}
    (hpoint : s.point = .sendingAlert alert) :
    ∃ t, ServedTo source 2 s t ∧ (t.point = .turning ∨ t.point = .ended) := by
  have hsend : ∀ u : State σ, u.point = .sendingAlert alert → u.suspicious.Accepts →
      ∃ t, ServedTo source 1 u t ∧ t.point = .turning := fun u hu haccepts =>
    ⟨_, .of_moves (.sendAlert alert hu haccepts) trivial, rfl⟩
  by_cases hopen : s.suspicious.isOpen = true
  · rcases accepts_or_pop (by decide) hopen with haccepts | ⟨x, rest, hitems, haccepts⟩
    · obtain ⟨t, ht, hafter⟩ := hsend s hpoint haccepts
      exact ⟨t, ht.mono (by omega), Or.inl hafter⟩
    · have hfirst : ServedTo source 1 s { s with suspicious := s.suspicious.pop x rest hitems } :=
        .of_moves (.receiveAlert x rest hitems) trivial
      obtain ⟨t, ht, hafter⟩ := hsend { s with suspicious := s.suspicious.pop x rest hitems }
        hpoint haccepts
      exact ⟨t, hfirst.trans ht, Or.inl hafter⟩
  · have hclosed : s.suspicious.isOpen = false := by simpa using hopen
    refine ⟨{ s with point := if source.breaksOnAlert then .ended else .turning },
      Machine.LeadsIn.mono ?_ (by omega : 1 ≤ 2), ?_⟩
    · exact ServedTo.of_moves (.alertsGone alert hpoint hclosed) trivial
    · cases source.breaksOnAlert
      · exact Or.inl rfl
      · exact Or.inr rfl

/-- The engine never locks up: whatever waits for room, and however full the two queues
are, at most four sends and receives bring the producing loop to its next turn or to its
end. Neither queue waits for the other. -/
theorem engine_never_locks (s : State σ) :
    ∃ t, ServedTo source 4 s t ∧ (t.point = .turning ∨ t.point = .ended) := by
  cases hpoint : s.point with
  | turning => exact ⟨s, .refl 4 s, Or.inl hpoint⟩
  | ended => exact ⟨s, .refl 4 s, Or.inr hpoint⟩
  | sendingAlert alert =>
    obtain ⟨t, ht, hturn⟩ := servedTo_afterAlert source hpoint
    exact ⟨t, ht.mono (by omega), hturn⟩
  | sendingPacket packet alert =>
    obtain ⟨t, ht, hafter | hended⟩ := servedTo_afterPacket source hpoint
    · cases alert with
      | none => exact ⟨t, ht.mono (by omega), Or.inl hafter⟩
      | some alert =>
        obtain ⟨u, hu, hturn⟩ := servedTo_afterAlert source hafter
        exact ⟨u, ht.trans hu, hturn⟩
    · exact ⟨t, ht.mono (by omega), Or.inr hended⟩

end Progress

end AetherLens.Engine
