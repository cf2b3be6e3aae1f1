import Mathlib.Data.Rat.Defs

/-!
The records that travel from the core engine to the hub: a captured packet and
its alert, the protobuf message built from a packet, and the updates the hub
sends on. Strings are kept whole; integers have the width of the source.
-/
namespace AetherLens.Messages

structure CapturedPacket where
  process : String
  localAddr : String
  remoteAddr : String
  protocol : String
  bytes : UInt64
  timestamp : UInt64
  outbound : Bool
deriving DecidableEq, Repr

/-- The score is one of a few decimal constants, kept here as exact rationals. -/
structure SuspiciousConnection where
  process : String
  remoteAddr : String
  reason : String
  score : ℚ
  timestamp : UInt64
deriving DecidableEq, Repr

structure PacketMessage where
  process : String
  localAddr : String
  remoteAddr : String
  protocol : String
  bytes : UInt64
  timestamp : UInt64
  outbound : Bool
deriving DecidableEq, Repr

/-- The score travels as a double, exactly. -/
structure SuspiciousConnectionMessage where
  process : String
  remoteAddr : String
  reason : String
  score : ℚ
  timestamp : UInt64
deriving DecidableEq, Repr

/-- `latencyMs` is the 64-bit value that the record stores as a double. -/
structure PacketUpdate where
  process : String
  localAddress : String
  remoteAddress : String
  protocol : String
  bytes : Int64
  outbound : Bool
  timestamp : Int64
  latencyMs : Int64
deriving DecidableEq, Repr

structure ProcessBandwidthUpdate where
  process : String
  bytesPerSecond : ℤ
  packetsPerSecond : ℤ
  protocol : String
  timestamp : ℤ
  tier : String
deriving DecidableEq, Repr

/-- The message `process_packets` builds from a received packet. -/
def CapturedPacket.toMessage (p : CapturedPacket) : PacketMessage where
  process := p.process
  localAddr := p.localAddr
  remoteAddr := p.remoteAddr
  protocol := p.protocol
  bytes := p.bytes
  timestamp := p.timestamp
  outbound := p.outbound

/-- The message `process_suspicious` builds from a received alert. -/
def SuspiciousConnection.toMessage (a : SuspiciousConnection) : SuspiciousConnectionMessage where
  process := a.process
  remoteAddr := a.remoteAddr
  reason := a.reason
  score := a.score
  timestamp := a.timestamp

end AetherLens.Messages
