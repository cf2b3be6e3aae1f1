import AetherLens.CaptureLoop
import AetherLens.Engine

/-!
The capture thread as the producing loop of the engine. It sends into queues that
two tasks empty at their own pace, and that either task may leave. However the
steps of the three are mixed, what has been sent between two turns is what the
loop on its own sends for the same reads.
-/
namespace AetherLens.CaptureThread

open AddressText CaptureLoop Engine Messages PacketHeaders PacketParsing ProcessMap Runs
open SuspicionScoring

/-- A frame, with the clock and the cache as the parser finds them. -/
structure Frame where
  bytes : List UInt8
  now : Option ℕ
  cache : ProcessCache

/-- What `rx.next()` returns. -/
inductive Read
  | frame (f : Frame)
  | timedOut
  | failed

section Capture

variable (reader : HeaderReader) (platform : Platform) (localIps : Finset IpAddr)

def parseFrame (f : Frame) : Option CapturedPacket :=
  (parsePacket reader platform localIps f.cache f.now f.bytes).1

def capture : Source Unit Read where
  start := ()
  turn _ read :=
    match read with
    | .frame f =>
      match parseFrame reader platform localIps f with
      | none => .skips ()
      | some packet => .produces () packet (scoreSuspicious packet)
    | .timedOut => .ends
    | .failed => .ends
  breaksOnAlert := true

/-- The frame as the loop on its own meets it. -/
def Frame.arrival (f : Frame) (packetOpen suspiciousOpen : Bool) : Arrival :=
  ⟨f.bytes, f.now, f.cache, packetOpen, suspiciousOpen⟩

def toRead : ReadResult → Read
  | .frame arrival => .frame ⟨arrival.frame, arrival.now, arrival.cache⟩
  | .timedOut => .timedOut
  | .failed => .failed

def Engine.Event.read? : Event Read → Option Read
  | .turn read => some read
  | _ => none

def readsOf (es : List (Event Read)) : List Read := es.filterMap Engine.Event.read?

def sent (s : State Unit) : Sent := ⟨s.packets.sent, s.suspicious.sent⟩

/-- A receiver that is still there was there when the frame's packet was sent. -/
def Opened (s : State Unit) : ReadResult → Prop
  | .frame arrival => (s.packets.isOpen = true → arrival.packetOpen = true) ∧
      (s.suspicious.isOpen = true → arrival.suspiciousOpen = true)
  | .timedOut => True
  | .failed => True

/-- The loop goes on after these reads, having sent this. -/
def Continues (reads : List ReadResult) (before : Sent) : Prop :=
  ∀ later, captureLoop reader platform localIps (reads ++ later) =
    before.append (captureLoop reader platform localIps later)

/-- The reads of the run, each with the receivers as its sends found them, make the loop
on its own send the same. While a packet or an alert waits, the last read is not done. -/
inductive Refines (es : List (Event Read)) (s : State Unit) : Prop
  | turning (reads : List ReadResult) (hpoint : s.point = .turning)
      (hreads : reads.map toRead = readsOf es) (hopened : ∀ r ∈ reads, Opened s r)
      (hcontinues : Continues reader platform localIps reads (sent s))
  | sendingPacket (reads : List ReadResult) (f : Frame) (packet : CapturedPacket)
      (hpoint : s.point = .sendingPacket packet (scoreSuspicious packet))
      (hreads : reads.map toRead ++ [.frame f] = readsOf es)
      (hopened : ∀ r ∈ reads, Opened s r)
      (hparse : parseFrame reader platform localIps f = some packet)
      (hcontinues : Continues reader platform localIps reads (sent s))
  | sendingAlert (reads : List ReadResult) (f : Frame) (packet : CapturedPacket)
      (alert : SuspiciousConnection) (before : Sent) (hpoint : s.point = .sendingAlert alert)
      (hreads : reads.map toRead ++ [.frame f] = readsOf es)
      (hopened : ∀ r ∈ reads, Opened s r)
      (hparse : parseFrame reader platform localIps f = some packet)
      (hscore : scoreSuspicious packet = some alert)
      (hcontinues : Continues reader platform localIps reads before)
      (hsent : sent s = before.append ⟨[packet], []⟩)
  | ended (reads : List ReadResult) (hpoint : s.point = .ended)
      (hreads : reads.map toRead = readsOf es) (hopened : ∀ r ∈ reads, Opened s r)
      (hloop : captureLoop reader platform localIps reads = sent s)

end Capture

section Refinement

variable {reader : HeaderReader} {platform : Platform} {localIps : Finset IpAddr}

theorem append_nothing (before : Sent) : before.append .nothing = before := by
  simp [Sent.append, Sent.nothing]

theorem append_assoc (a b c : Sent) : (a.append b).append c = a.append (b.append c) := by
  simp [Sent.append]

theorem continues_nil : Continues reader platform localIps [] .nothing := fun _ => rfl

theorem Continues.snoc {reads : List ReadResult} {before more : Sent} {arrival : Arrival}
    (h : Continues reader platform localIps reads before)
    (hforward : forward reader platform localIps arrival = (more, true)) :
    Continues reader platform localIps (reads ++ [.frame arrival]) (before.append more) := by
  intro later
  rw [List.append_assoc, h, List.singleton_append, captureLoop, hforward, append_assoc]

theorem Continues.stops {reads : List ReadResult} {before more : Sent} {arrival : Arrival}
    (h : Continues reader platform localIps reads before)
    (hforward : forward reader platform localIps arrival = (more, false)) :
    captureLoop reader platform localIps (reads ++ [.frame arrival]) = before.append more := by
  rw [h, captureLoop, hforward]

theorem Continues.captureLoop_eq {reads : List ReadResult} {before : Sent}
    (h : Continues reader platform localIps reads before) :
    captureLoop reader platform localIps reads = before := by
  have hnil := h []
  rw [List.append_nil] at hnil
  rw [hnil]
  exact append_nothing before

section Forward

variable {f : Frame} {packet : CapturedPacket}

theorem forward_skipped (hparse : parseFrame reader platform localIps f = none)
    (packetOpen suspiciousOpen : Bool) :
    forward reader platform localIps (f.arrival packetOpen suspiciousOpen) =
      (.nothing, true) := by
  have hsame : parse reader platform localIps (f.arrival packetOpen suspiciousOpen) = none :=
    hparse
  rw [forward, hsame]

theorem forward_packetsGone (hparse : parseFrame reader platform localIps f = some packet)
    (suspiciousOpen : Bool) :
    forward reader platform localIps (f.arrival false suspiciousOpen) = (.nothing, false) := by
  have hsame : parse reader platform localIps (f.arrival false suspiciousOpen) = some packet :=
    hparse
  rw [forward, hsame]
  rfl

theorem forward_silent (hparse : parseFrame reader platform localIps f = some packet)
    (hscore : scoreSuspicious packet = none) (suspiciousOpen : Bool) :
    forward reader platform localIps (f.arrival true suspiciousOpen) =
      (⟨[packet], []⟩, true) := by
  have hsame : parse reader platform localIps (f.arrival true suspiciousOpen) = some packet :=
    hparse
  rw [forward, hsame]
  simp [Frame.arrival, hscore]

theorem forward_alert {alert : SuspiciousConnection}
    (hparse : parseFrame reader platform localIps f = some packet)
    (hscore : scoreSuspicious packet = some alert) :
    forward reader platform localIps (f.arrival true true) =
      (⟨[packet], [alert]⟩, true) := by
  have hsame : parse reader platform localIps (f.arrival true true) = some packet := hparse
  rw [forward, hsame]
  simp [Frame.arrival, hscore]

theorem forward_alertsGone {alert : SuspiciousConnection}
    (hparse : parseFrame reader platform localIps f = some packet)
    (hscore : scoreSuspicious packet = some alert) :
    forward reader platform localIps (f.arrival true false) = (⟨[packet], []⟩, false) := by
  have hsame : parse reader platform localIps (f.arrival true false) = some packet := hparse
  rw [forward, hsame]
  simp [Frame.arrival, hscore]

end Forward

theorem readsOf_turn (es : List (Event Read)) (read : Read) :
    readsOf (es ++ [.turn read]) = readsOf es ++ [read] := by
  simp [readsOf, Engine.Event.read?]

theorem readsOf_of_none (es : List (Event Read)) {e : Event Read}
    (he : Engine.Event.read? e = none) : readsOf (es ++ [e]) = readsOf es := by
  simp [readsOf, he]

/-- What the two tasks do changes neither what was sent nor how the loop stands. -/
theorem Refines.frame {es es' : List (Event Read)} {s t : State Unit}
    (h : Refines reader platform localIps es s) (hes : readsOf es' = readsOf es)
    (hpoint : t.point = s.point) (hsent : sent t = sent s)
    (hopened : ∀ r, Opened s r → Opened t r) : Refines reader platform localIps es' t := by
  cases h with
  | turning reads hp hreads ho hcontinues =>
    refine .turning reads (hpoint.trans hp) (hreads.trans hes.symm)
      (fun r hr => hopened r (ho r hr)) ?_
    rw [hsent]
    exact hcontinues
  | sendingPacket reads f packet hp hreads ho hparse hcontinues =>
    refine .sendingPacket reads f packet (hpoint.trans hp) (hreads.trans hes.symm)
      (fun r hr => hopened r (ho r hr)) hparse ?_
    rw [hsent]
    exact hcontinues
  | sendingAlert reads f packet alert before hp hreads ho hparse hscore hcontinues hs =>
    exact .sendingAlert reads f packet alert before (hpoint.trans hp) (hreads.trans hes.symm)
      (fun r hr => hopened r (ho r hr)) hparse hscore hcontinues (hsent.trans hs)
  | ended reads hp hreads ho hloop =>
    exact .ended reads (hpoint.trans hp) (hreads.trans hes.symm)
      (fun r hr => hopened r (ho r hr)) (hloop.trans hsent.symm)

theorem opened_snoc {s : State Unit} {reads : List ReadResult} {r : ReadResult}
    (h : ∀ x ∈ reads, Opened s x) (hr : Opened s r) : ∀ x ∈ reads ++ [r], Opened s x := by
  intro x hx
  rcases List.mem_append.mp hx with hold | hnew
  · exact h x hold
  · rw [List.mem_singleton.mp hnew]
    exact hr

theorem opened_arrival {s : State Unit} {f : Frame} {packetOpen suspiciousOpen : Bool}
    (hpackets : s.packets.isOpen = true → packetOpen = true)
    (hsuspicious : s.suspicious.isOpen = true → suspiciousOpen = true) :
    Opened s (.frame (f.arrival packetOpen suspiciousOpen)) := ⟨hpackets, hsuspicious⟩

theorem refines_turn {es : List (Event Read)} {s t : State Unit} {read : Read}
    (hstep : (machine (capture reader platform localIps)).step s (.turn read) = some t)
    (h : Refines reader platform localIps es s) :
    Refines reader platform localIps (es ++ [.turn read]) t := by
  have hturning : s.point = .turning → ∃ reads, reads.map toRead = readsOf es ∧
      (∀ r ∈ reads, Opened s r) ∧ Continues reader platform localIps reads (sent s) := by
    intro hpoint
    cases h with
    | turning reads _ hreads hopened hcontinues => exact ⟨reads, hreads, hopened, hcontinues⟩
    | sendingPacket _ _ _ hp => simp [hpoint] at hp
    | sendingAlert _ _ _ _ _ hp => simp [hpoint] at hp
    | ended _ hp => simp [hpoint] at hp
  cases moves_of_step hstep with
  | ends _ hpoint hturn =>
    obtain ⟨reads, hreads, hopened, hcontinues⟩ := hturning hpoint
    have hlast : ∀ r, toRead r = read → Opened s r →
        captureLoop reader platform localIps [r] = .nothing →
          Refines reader platform localIps (es ++ [.turn read]) { s with point := .ended } := by
      intro r hr hopen hstops
      refine .ended (reads ++ [r]) rfl ?_ (opened_snoc hopened hopen) ?_
      · rw [readsOf_turn, List.map_append, hreads, ← hr]
        rfl
      · rw [hcontinues, hstops, append_nothing]
        rfl
    cases read with
    | frame f =>
      simp only [capture] at hturn
      split at hturn <;> cases hturn
    | timedOut => exact hlast .timedOut rfl trivial rfl
    | failed => exact hlast .failed rfl trivial rfl
  | skips _ next hpoint hturn =>
    obtain ⟨reads, hreads, hopened, hcontinues⟩ := hturning hpoint
    cases read with
    | frame f =>
      cases hparse : parseFrame reader platform localIps f with
      | none =>
        refine .turning (reads ++ [.frame (f.arrival true true)]) hpoint ?_
          (opened_snoc hopened (opened_arrival (fun _ => rfl) fun _ => rfl)) ?_
        · rw [readsOf_turn, List.map_append, hreads]
          rfl
        · have hsnoc := hcontinues.snoc (forward_skipped hparse true true)
          rw [append_nothing] at hsnoc
          exact hsnoc
      | some packet => simp [capture, hparse] at hturn
    | timedOut => cases hturn
    | failed => cases hturn
  | produces _ next packet alert hpoint hturn =>
    obtain ⟨reads, hreads, hopened, hcontinues⟩ := hturning hpoint
    cases read with
    | frame f =>
      cases hparse : parseFrame reader platform localIps f with
      | none => simp [capture, hparse] at hturn
      | some parsed =>
        simp only [capture, hparse, Turn.produces.injEq] at hturn
        obtain ⟨-, rfl, rfl⟩ := hturn
        refine .sendingPacket reads f parsed rfl ?_ hopened hparse hcontinues
        rw [readsOf_turn, hreads]
    | timedOut => cases hturn
    | failed => cases hturn

theorem refines_sendPacket {es : List (Event Read)} {s t : State Unit}
    (hstep : (machine (capture reader platform localIps)).step s .sendPacket = some t)
    (h : Refines reader platform localIps es s) :
    Refines reader platform localIps (es ++ [.sendPacket]) t := by
  have hsending : ∀ packet alert, s.point = .sendingPacket packet alert →
      alert = scoreSuspicious packet ∧ ∃ reads f,
        reads.map toRead ++ [.frame f] = readsOf es ∧ (∀ r ∈ reads, Opened s r) ∧
          parseFrame reader platform localIps f = some packet ∧
            Continues reader platform localIps reads (sent s) := by
    intro packet alert hpoint
    cases h with
    | turning _ hp => simp [hpoint] at hp
    | sendingPacket reads f packet' hp hreads hopened hparse hcontinues =>
      rw [hpoint] at hp
      cases hp
      exact ⟨rfl, reads, f, hreads, hopened, hparse, hcontinues⟩
    | sendingAlert _ _ _ _ _ hp => simp [hpoint] at hp
    | ended _ hp => simp [hpoint] at hp
  have hevents : readsOf (es ++ [.sendPacket]) = readsOf es := readsOf_of_none es rfl
  cases moves_of_step hstep with
  | sendPacket packet alert hpoint haccepts =>
    obtain ⟨rfl, reads, f, hreads, hopened, hparse, hcontinues⟩ := hsending packet alert hpoint
    cases hscore : scoreSuspicious packet with
    | none =>
      refine .turning (reads ++ [.frame (f.arrival true true)]) rfl ?_
        (opened_snoc hopened (opened_arrival (fun _ => rfl) fun _ => rfl)) ?_
      · rw [hevents, ← hreads, List.map_append]
        rfl
      · have hsnoc := hcontinues.snoc (forward_silent hparse hscore true)
        rw [Sent.append, List.append_nil] at hsnoc
        exact hsnoc
    | some alert =>
      refine .sendingAlert reads f packet alert (sent s) rfl (hreads.trans hevents.symm) hopened
        hparse hscore hcontinues ?_
      simp [sent, Sent.append, BlockingQueues.BlockingQueue.push]
  | packetsGone packet alert hpoint hclosed =>
    obtain ⟨rfl, reads, f, hreads, hopened, hparse, hcontinues⟩ := hsending packet alert hpoint
    refine .ended (reads ++ [.frame (f.arrival false true)]) rfl ?_
      (opened_snoc hopened (opened_arrival ?_ fun _ => rfl)) ?_
    · rw [hevents, ← hreads, List.map_append]
      rfl
    · intro hopen
      rw [hclosed] at hopen
      cases hopen
    · rw [hcontinues.stops (forward_packetsGone hparse true), append_nothing]
      rfl

theorem refines_sendAlert {es : List (Event Read)} {s t : State Unit}
    (hstep : (machine (capture reader platform localIps)).step s .sendAlert = some t)
    (h : Refines reader platform localIps es s) :
    Refines reader platform localIps (es ++ [.sendAlert]) t := by
  have hsending : ∀ alert, s.point = .sendingAlert alert → ∃ reads f packet before,
      reads.map toRead ++ [.frame f] = readsOf es ∧ (∀ r ∈ reads, Opened s r) ∧
        parseFrame reader platform localIps f = some packet ∧
          scoreSuspicious packet = some alert ∧
            Continues reader platform localIps reads before ∧
              sent s = before.append ⟨[packet], []⟩ := by
    intro alert hpoint
    cases h with
    | turning _ hp => simp [hpoint] at hp
    | sendingPacket _ _ _ hp => simp [hpoint] at hp
    | sendingAlert reads f packet alert' before hp hreads hopened hparse hscore hcontinues hsent =>
      rw [hpoint] at hp
      cases hp
      exact ⟨reads, f, packet, before, hreads, hopened, hparse, hscore, hcontinues, hsent⟩
    | ended _ hp => simp [hpoint] at hp
  have hevents : readsOf (es ++ [.sendAlert]) = readsOf es := readsOf_of_none es rfl
  cases moves_of_step hstep with
  | sendAlert alert hpoint haccepts =>
    obtain ⟨reads, f, packet, before, hreads, hopened, hparse, hscore, hcontinues, hsent⟩ :=
      hsending alert hpoint
    refine .turning (reads ++ [.frame (f.arrival true true)]) rfl ?_
      (opened_snoc hopened (opened_arrival (fun _ => rfl) fun _ => rfl)) ?_
    · rw [hevents, ← hreads, List.map_append]
      rfl
    · have hafter : sent { s with
          suspicious := s.suspicious.push alert haccepts
          point := .turning } = before.append ⟨[packet], [alert]⟩ := by
        have hpackets := congrArg Sent.packets hsent
        have hsuspicious := congrArg Sent.suspicious hsent
        simp only [sent, Sent.append, List.append_nil] at hpackets hsuspicious
        simp [sent, Sent.append, BlockingQueues.BlockingQueue.push, hpackets, hsuspicious]
      rw [hafter]
      exact hcontinues.snoc (forward_alert hparse hscore)
  | alertsGone alert hpoint hclosed =>
    obtain ⟨reads, f, packet, before, hreads, hopened, hparse, hscore, hcontinues, hsent⟩ :=
      hsending alert hpoint
    refine .ended (reads ++ [.frame (f.arrival true false)]) rfl ?_
      (opened_snoc hopened (opened_arrival (fun _ => rfl) ?_)) ?_
    · rw [hevents, ← hreads, List.map_append]
      rfl
    · intro hopen
      rw [hclosed] at hopen
      cases hopen
    · rw [hcontinues.stops (forward_alertsGone hparse hscore), ← hsent]
      rfl

theorem refines_step (es : List (Event Read)) (s : State Unit) (e : Event Read) (t : State Unit)
    (_ : (machine (capture reader platform localIps)).run es = some s)
    (hstep : (machine (capture reader platform localIps)).step s e = some t)
    (h : Refines reader platform localIps es s) :
    Refines reader platform localIps (es ++ [e]) t := by
  cases e with
  | turn read => exact refines_turn hstep h
  | sendPacket => exact refines_sendPacket hstep h
  | sendAlert => exact refines_sendAlert hstep h
  | receivePacket =>
    cases moves_of_step hstep with
    | receivePacket => exact h.frame (readsOf_of_none es rfl) rfl rfl fun r hr => hr
  | receiveAlert =>
    cases moves_of_step hstep with
    | receiveAlert => exact h.frame (readsOf_of_none es rfl) rfl rfl fun r hr => hr
  | closePackets =>
    cases moves_of_step hstep
    refine h.frame (readsOf_of_none es rfl) rfl rfl ?_
    rintro (arrival | _ | _) hr
    · exact ⟨nofun, hr.2⟩
    · trivial
    · trivial
  | closeAlerts =>
    cases moves_of_step hstep
    refine h.frame (readsOf_of_none es rfl) rfl rfl ?_
    rintro (arrival | _ | _) hr
    · exact ⟨hr.1, nofun⟩
    · trivial
    · trivial

end Refinement

/-- However the two tasks receive, and whenever they leave, the capture thread has sent
between two turns, and when it ends, what the loop on its own sends for the same reads.
A task that has not left was there for all of them. -/
theorem engine_captures (reader : HeaderReader) (platform : Platform)
    (localIps : Finset IpAddr) (es : List (Event Read)) (s : State Unit)
    (hs : (machine (capture reader platform localIps)).run es = some s)
    (hpoint : s.point = .turning ∨ s.point = .ended) :
    ∃ reads, reads.map toRead = readsOf es ∧ (∀ r ∈ reads, Opened s r) ∧
      captureLoop reader platform localIps reads =
        ⟨s.packets.sent, s.suspicious.sent⟩ := by
  have hrefines : Refines reader platform localIps es s := by
    refine (machine (capture reader platform localIps)).run_induction
      (Refines reader platform localIps) ?_ refines_step es s hs
    exact .turning [] rfl rfl nofun continues_nil
  cases hrefines with
  | turning reads _ hreads hopened hcontinues =>
    exact ⟨reads, hreads, hopened, hcontinues.captureLoop_eq⟩
  | sendingPacket _ _ _ hp => simp [hp] at hpoint
  | sendingAlert _ _ _ _ _ hp => simp [hp] at hpoint
  | ended reads _ hreads hopened hloop => exact ⟨reads, hreads, hopened, hloop⟩

/-- An outbound RDP segment, with a clock and a cache that knows no process. -/
def rdpRead : Read := .frame ⟨rdpFrame, some 1000, .new⟩

def rdpPacket : CapturedPacket :=
  ⟨"system", "[fe80::1]:50000", "[fe80::23]:3389", "TCP", 74, 1000, true⟩

def rdpAlert : SuspiciousConnection :=
  ⟨"system", "[fe80::23]:3389", "Outbound RDP session", 0.85, 1000⟩

abbrev captureOnHost : Source Unit Read := capture rawBytes .other {.v6 linkLocalOne}

theorem turn_rdpRead :
    captureOnHost.turn () rdpRead = .produces () rdpPacket (some rdpAlert) := by
  have hparse : parseFrame rawBytes .other {.v6 linkLocalOne} ⟨rdpFrame, some 1000, .new⟩ =
      some rdpPacket := by decide
  have hport : remotePort rdpPacket.remoteAddr = 3389 := by decide
  have hscore : scoreSuspicious rdpPacket = some rdpAlert := by
    rw [scoreSuspicious, hport]
    rfl
  simp only [captureOnHost, capture, rdpRead, hparse, hscore]

/-- What follows the read: the packet task takes the packet and leaves before the next
read times out. -/
def rdpRest : List (Event Read) :=
  [.sendPacket, .receivePacket, .closePackets, .sendAlert, .turn .timedOut]

theorem run_rdp : ∃ s, (machine captureOnHost).run (.turn rdpRead :: rdpRest) = some s ∧
    s.point = .ended ∧ s.suspicious.sent = [rdpAlert] := by
  have hrun : (machine captureOnHost).run (.turn rdpRead :: rdpRest) =
      rdpRest.foldlM (machine captureOnHost).step
        ((start captureOnHost).take (captureOnHost.turn () rdpRead)) := rfl
  rw [turn_rdpRead] at hrun
  exact ⟨_, hrun, rfl, rfl⟩

theorem engine_captures_rdp : ∃ s,
    (machine captureOnHost).run (.turn rdpRead :: rdpRest) = some s ∧
    s.suspicious.sent = [rdpAlert] ∧
    ∃ reads, reads.map toRead = readsOf (.turn rdpRead :: rdpRest) ∧
      (∀ r ∈ reads, Opened s r) ∧ captureLoop rawBytes .other {.v6 linkLocalOne} reads =
        ⟨s.packets.sent, s.suspicious.sent⟩ := by
  obtain ⟨s, hs, hpoint, hsent⟩ := run_rdp
  have hcaptures := engine_captures rawBytes .other {.v6 linkLocalOne}
    (.turn rdpRead :: rdpRest) s
  exact ⟨s, hs, hsent, hcaptures hs (Or.inr hpoint)⟩

end AetherLens.CaptureThread
