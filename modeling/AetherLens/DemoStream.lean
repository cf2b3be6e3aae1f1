import AetherLens.Engine
import AetherLens.SuspicionScoring
import Mathlib.Algebra.Group.Nat.Defs

/-!
The demo generator in the place of the capture thread. Every packet is made of a round
number and the clock, and at most every tenth one raises an alert. It is a loop of the
engine like the capture, so what it sends does not depend on when the two tasks take it.
-/
namespace AetherLens.DemoStream

open AddressText Engine Messages NumberText SuspicionScoring

def processes : List String :=
  ["chrome.exe", "code.exe", "spotify.exe", "svchost.exe", "powershell.exe", "nmap.exe",
    "curl.exe"]

def protocols : List String := ["TCP", "UDP", "TLSv1.3"]

def ips : List String := ["192.168.1.15", "192.168.1.22", "10.0.0.5"]

def remoteIps : List String :=
  ["142.250.185.78", "104.21.55.2", "40.114.177.156", "185.199.108.153", "1.1.1.1"]

/-- `xs[i % xs.len()]`. -/
def pick (xs : List String) (hpos : 0 < xs.length) (i : ℕ) : String :=
  xs.get ⟨i % xs.length, Nat.mod_lt i hpos⟩

/-- The text of an address and a port. -/
def withPort (ip : String) (port : ℕ) : String :=
  String.ofList (ip.toList ++ ':' :: decimal port)

/-- The process of a round. The sum is taken in 64 bits. -/
def procName (counter ts : UInt64) : String := pick processes (by decide) (ts + counter).toNat

def remotePortOf (ts : UInt64) : UInt16 := 80 + (ts % 5000).toUInt16

def packetOf (counter ts : UInt64) : CapturedPacket where
  process := procName counter ts
  localAddr := withPort (pick ips (by decide) counter.toNat) (40000 + counter.toNat % 10000)
  remoteAddr :=
    withPort (pick remoteIps (by decide) (ts.toNat / 10)) (remotePortOf ts).toNat
  protocol := pick protocols (by decide) ts.toNat
  bytes := 64 + ts % 1400
  timestamp := ts
  outbound := true

def isDangerous (name : String) : Bool := name = "nmap.exe" || name = "powershell.exe"

def alertOf (counter ts : UInt64) : Option SuspiciousConnection :=
  let name := procName counter ts
  if isDangerous name && counter.toNat % 10 = 0 then
    some {
      process := name
      remoteAddr := (packetOf counter ts).remoteAddr
      reason := if name = "nmap.exe" then "Port Scan Detected" else "Suspicious Payload"
      score := 0.95
      timestamp := ts }
  else if counter.toNat % 200 = 0 then
    some {
      process := "unknown_process.exe"
      remoteAddr := (packetOf counter ts).remoteAddr
      reason := "Unsigned Binary Connection"
      score := 0.75
      timestamp := ts }
  else none

/-- The generator reads the clock in every round, and goes on without the alert task. -/
def demo : Source UInt64 UInt64 where
  start := 0
  turn counter ts :=
    .produces (counter + 1) (packetOf (counter + 1) ts) (alertOf (counter + 1) ts)
  breaksOnAlert := false

/-- The packet and the alert of round `k`, the first being round one. -/
def round (k : ℕ) (ts : UInt64) : CapturedPacket × Option SuspiciousConnection :=
  (packetOf (UInt64.ofNat k) ts, alertOf (UInt64.ofNat k) ts)

theorem produce_eq (k : ℕ) (clocks : List UInt64) :
    produce demo (UInt64.ofNat k) clocks =
      (clocks.zipIdx (k + 1)).map fun x => round x.2 x.1 := by
  induction clocks generalizing k with
  | nil => rfl
  | cons ts clocks ih =>
    have hnext : UInt64.ofNat k + 1 = UInt64.ofNat (k + 1) := by simp
    change (packetOf (UInt64.ofNat k + 1) ts, alertOf (UInt64.ofNat k + 1) ts) ::
      produce demo (UInt64.ofNat k + 1) clocks = _
    rw [hnext, ih]
    rfl

/-- Round by round, what the generator has produced. -/
theorem produced_eq {es : List (Event UInt64)} {s : State UInt64}
    (hs : (machine demo).run es = some s) :
    ∃ clocks, clocks <+: inputsOf es ∧
      s.produced = (clocks.zipIdx 1).map fun x => round x.2 x.1 := by
  obtain ⟨rest, hrest⟩ := produced_prefix hs
  rw [show demo.start = UInt64.ofNat 0 from rfl, produce_eq] at hrest
  obtain ⟨rounds, later, hrounds, hproduced, -⟩ := List.map_eq_append_iff.mp hrest.symm
  obtain ⟨clocks, more, hinputs, rfl, -⟩ := List.zipIdx_eq_append_iff.mp hrounds
  exact ⟨clocks, ⟨more, hinputs.symm⟩, hproduced.symm⟩

/-- Alerts are raised in rounds whose number ends in zero. -/
theorem ten_dvd_of_alertOf {counter ts : UInt64} (h : (alertOf counter ts).isSome) :
    10 ∣ counter.toNat := by
  unfold alertOf at h
  by_cases hten : counter.toNat % 10 = 0
  · exact Nat.dvd_of_mod_eq_zero hten
  · have hmore : counter.toNat % 200 ≠ 0 := by omega
    simp [hten, hmore] at h

/-- At most every tenth round raises an alert, until the round number wraps around. -/
theorem alerts_of_rounds (k : ℕ) (clocks : List UInt64) (h : k + clocks.length < 2 ^ 64) :
    10 * (k / 10 + (((clocks.zipIdx (k + 1)).map fun x => round x.2 x.1).filterMap
      Prod.snd).length) ≤ k + clocks.length := by
  induction clocks generalizing k with
  | nil =>
    have hdiv := Nat.mul_div_le k 10
    simpa using hdiv
  | cons ts clocks ih =>
    rw [List.length_cons] at h ⊢
    have hrest := ih (k + 1) (by omega)
    rw [List.zipIdx_cons, List.map_cons, List.filterMap_cons]
    cases halert : (round (k + 1) ts).2 with
    | none =>
      dsimp only
      omega
    | some alert =>
      have hdvd := ten_dvd_of_alertOf (Option.isSome_of_eq_some halert)
      rw [UInt64.toNat_ofNat', Nat.mod_eq_of_lt (by omega)] at hdvd
      dsimp only [List.length_cons]
      omega

end AetherLens.DemoStream
