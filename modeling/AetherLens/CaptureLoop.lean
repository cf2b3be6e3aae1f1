import AetherLens.SuspicionScoring

/-!
The loop of the capture thread. It skips the frames that the parser does not
take, stops when a receiver is closed, and stops at every error of a read. A
read times out after half a second without traffic, and the loop does not tell
this from a failure of the device.
-/
namespace AetherLens.CaptureLoop

open AddressText Messages PacketHeaders PacketParsing ProcessMap SuspicionScoring

/-- A frame, with the clock and the cache as the parser finds them, and whether
the two receivers are open when the loop sends to them. -/
structure Arrival where
  frame : List UInt8
  now : Option ℕ
  cache : ProcessCache
  packetOpen : Bool
  suspiciousOpen : Bool

/-- What `rx.next()` returns: a frame or an error. -/
inductive ReadResult
  | frame (arrival : Arrival)
  | timedOut
  | failed

/-- What was sent on the two channels. -/
structure Sent where
  packets : List CapturedPacket
  suspicious : List SuspiciousConnection
deriving DecidableEq, Repr

def Sent.nothing : Sent := ⟨[], []⟩

def Sent.append (sent later : Sent) : Sent :=
  ⟨sent.packets ++ later.packets, sent.suspicious ++ later.suspicious⟩

section Loop

variable (reader : HeaderReader) (platform : Platform) (localIps : Finset IpAddr)

def parse (arrival : Arrival) : Option CapturedPacket :=
  (parsePacket reader platform localIps arrival.cache arrival.now arrival.frame).1

/-- The body of the loop: what it sends, and whether the loop goes on. -/
def forward (arrival : Arrival) : Sent × Bool :=
  match parse reader platform localIps arrival with
  | none => (.nothing, true)
  | some packet =>
    if arrival.packetOpen then
      match scoreSuspicious packet with
      | none => (⟨[packet], []⟩, true)
      | some suspicious =>
        if arrival.suspiciousOpen then (⟨[packet], [suspicious]⟩, true)
        else (⟨[packet], []⟩, false)
    else (.nothing, false)

def captureLoop : List ReadResult → Sent
  | [] | .timedOut :: _ | .failed :: _ => .nothing
  | .frame arrival :: rest =>
    match forward reader platform localIps arrival with
    | (sent, true) => sent.append (captureLoop rest)
    | (sent, false) => sent

/-- The packets of all frames, in order and without those that do not parse. -/
def packetsOf (reads : List ReadResult) : List CapturedPacket :=
  reads.filterMap fun
    | .frame arrival => parse reader platform localIps arrival
    | .timedOut => none
    | .failed => none

/-- Every packet and the alerts of these packets. -/
def allOf (reads : List ReadResult) : Sent :=
  let packets := packetsOf reader platform localIps reads
  ⟨packets, packets.filterMap scoreSuspicious⟩

/-- The results of a working device with both receivers open. -/
def Regular : ReadResult → Prop
  | .frame arrival => arrival.packetOpen = true ∧ arrival.suspiciousOpen = true
  | .timedOut => True
  | .failed => False

/-- No frame that parses comes after a timeout. -/
def SilentAfterTimeout (reads : List ReadResult) : Prop :=
  ∀ before after, reads = before ++ .timedOut :: after →
    packetsOf reader platform localIps after = []

end Loop

section Forwarding

variable {reader : HeaderReader} {platform : Platform} {localIps : Finset IpAddr}

theorem packetsOf_append (before after : List ReadResult) :
    packetsOf reader platform localIps (before ++ after) =
      packetsOf reader platform localIps before ++ packetsOf reader platform localIps after :=
  List.filterMap_append

theorem packetsOf_frame (arrival : Arrival) (rest : List ReadResult) :
    packetsOf reader platform localIps (.frame arrival :: rest) =
      (parse reader platform localIps arrival).toList ++
        packetsOf reader platform localIps rest := by
  cases hparse : parse reader platform localIps arrival with
  | none => simp [packetsOf, hparse]
  | some packet => simp [packetsOf, hparse]

/-- With both receivers open a frame's packet and its alert are sent. -/
theorem forward_of_open {arrival : Arrival} (hopen : Regular (.frame arrival)) :
    forward reader platform localIps arrival =
      (⟨(parse reader platform localIps arrival).toList,
        (parse reader platform localIps arrival).toList.filterMap scoreSuspicious⟩, true) := by
  obtain ⟨hpacket, hsuspicious⟩ := hopen
  unfold forward
  cases parse reader platform localIps arrival with
  | none => rfl
  | some packet =>
    simp only [hpacket, hsuspicious, if_true]
    cases hscore : scoreSuspicious packet with
    | none => simp [hscore]
    | some suspicious => simp [hscore]

theorem allOf_frame (arrival : Arrival) (rest : List ReadResult) :
    allOf reader platform localIps (.frame arrival :: rest) =
      Sent.append ⟨(parse reader platform localIps arrival).toList,
        (parse reader platform localIps arrival).toList.filterMap scoreSuspicious⟩
          (allOf reader platform localIps rest) := by
  simp only [allOf, packetsOf_frame, List.filterMap_append, Sent.append]

theorem append_cancel_left {sent a b : Sent} : sent.append a = sent.append b ↔ a = b := by
  obtain ⟨packets, suspicious⟩ := a
  obtain ⟨packets', suspicious'⟩ := b
  simp [Sent.append]

theorem silentAfterTimeout_timedOut (rest : List ReadResult) :
    SilentAfterTimeout reader platform localIps (.timedOut :: rest) ↔
      packetsOf reader platform localIps rest = [] := by
  constructor
  · intro h
    exact h [] rest rfl
  · rintro hrest (_ | ⟨first, before⟩) after heq
    · cases heq
      exact hrest
    · obtain ⟨-, htail⟩ := List.cons_eq_cons.mp heq
      rw [htail, List.append_eq, packetsOf_append] at hrest
      exact (List.append_eq_nil_iff.mp hrest).2

theorem silentAfterTimeout_frame (arrival : Arrival) (rest : List ReadResult) :
    SilentAfterTimeout reader platform localIps (.frame arrival :: rest) ↔
      SilentAfterTimeout reader platform localIps rest := by
  constructor
  · intro h before after heq
    exact h (.frame arrival :: before) after (by rw [heq]; rfl)
  · rintro h (_ | ⟨first, before⟩) after heq
    · cases heq
    · obtain ⟨-, hrest⟩ := List.cons_eq_cons.mp heq
      exact h before after hrest

/-- While the device works and both receivers are open, all packets and alerts are sent
exactly when no frame that parses comes after a timeout. -/
theorem captureLoop_forwards_iff {reads : List ReadResult} (hreads : ∀ r ∈ reads, Regular r) :
    captureLoop reader platform localIps reads = allOf reader platform localIps reads ↔
      SilentAfterTimeout reader platform localIps reads := by
  induction reads with
  | nil => exact iff_of_true rfl fun before after heq => by simp at heq
  | cons r rest ih =>
    have hfirst := hreads r (List.mem_cons_self ..)
    have hrest : ∀ x ∈ rest, Regular x := fun x hx => hreads x (List.mem_cons_of_mem _ hx)
    cases r with
    | frame arrival =>
      rw [captureLoop, forward_of_open hfirst, allOf_frame, silentAfterTimeout_frame]
      exact append_cancel_left.trans (ih hrest)
    | timedOut =>
      rw [captureLoop, silentAfterTimeout_timedOut]
      constructor
      · intro h
        exact (congrArg Sent.packets h).symm
      · intro h
        have hall : packetsOf reader platform localIps (.timedOut :: rest) = [] := h
        rw [allOf, hall]
        rfl
    | failed => exact absurd hfirst id

end Forwarding

/-- An outbound RDP segment from the host. -/
def rdpArrival : Arrival := ⟨rdpFrame, some 1000, .new, true, true⟩

def sentOf (reads : List ReadResult) : Sent :=
  captureLoop rawBytes .other {.v6 linkLocalOne} reads

theorem captureLoop_forwards_iff_idleEnd :
    (sentOf [.frame rdpArrival, .timedOut]).packets.length = 1 ∧
      sentOf [.frame rdpArrival, .timedOut] =
        allOf rawBytes .other {.v6 linkLocalOne} [.frame rdpArrival, .timedOut] := by
  have hregular : ∀ r ∈ [ReadResult.frame rdpArrival, .timedOut], Regular r := by
    intro r hr
    rcases List.mem_cons.mp hr with rfl | hr
    · exact ⟨rfl, rfl⟩
    · rw [List.mem_singleton.mp hr]
      trivial
  refine ⟨by decide, (captureLoop_forwards_iff hregular).mpr ?_⟩
  rw [silentAfterTimeout_frame, silentAfterTimeout_timedOut]
  rfl

/-- After half a second without traffic the segment is not sent, nor is its alert. -/
theorem idle_ends_capture :
    sentOf [.timedOut, .frame rdpArrival] = .nothing ∧
      (allOf rawBytes .other {.v6 linkLocalOne} [.timedOut, .frame rdpArrival]).suspicious.map
        (·.reason) = ["Outbound RDP session"] ∧
      sentOf [.timedOut, .frame rdpArrival] ≠
        allOf rawBytes .other {.v6 linkLocalOne} [.timedOut, .frame rdpArrival] := by
  have hreason : (allOf rawBytes .other {.v6 linkLocalOne}
      [.timedOut, .frame rdpArrival]).suspicious.map (·.reason) = ["Outbound RDP session"] := by
    decide
  refine ⟨rfl, hreason, fun h => ?_⟩
  rw [← h] at hreason
  cases hreason

end AetherLens.CaptureLoop
