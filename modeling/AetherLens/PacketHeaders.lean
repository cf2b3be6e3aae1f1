import AetherLens.AddressText

/-!
What a frame's headers say. The header reader is a parameter: it gives, for
each layer, the fields the packet parser uses, or nothing when the bytes are
too few. One reader of raw bytes is given, for frames written out in full.
-/
namespace AetherLens.PacketHeaders

open AddressText

structure EthernetPacket where
  etherType : UInt16
  payload : List UInt8
deriving DecidableEq, Repr

structure Ipv4Packet where
  source : Ipv4Addr
  destination : Ipv4Addr
  nextLevelProtocol : UInt8
  payload : List UInt8
deriving DecidableEq, Repr

structure Ipv6Packet where
  source : Ipv6Addr
  destination : Ipv6Addr
  nextHeader : UInt8
  payload : List UInt8
deriving DecidableEq, Repr

/-- The ports of a TCP or UDP header. -/
structure TransportPacket where
  source : UInt16
  destination : UInt16
deriving DecidableEq, Repr

structure HeaderReader where
  ethernet : List UInt8 → Option EthernetPacket
  ipv4 : List UInt8 → Option Ipv4Packet
  ipv6 : List UInt8 → Option Ipv6Packet
  tcp : List UInt8 → Option TransportPacket
  udp : List UInt8 → Option TransportPacket

def etherTypeIpv4 : UInt16 := 0x0800

def etherTypeIpv6 : UInt16 := 0x86dd

def protocolTcp : UInt8 := 6

def protocolUdp : UInt8 := 17

section RawBytes

def byteAt (bytes : List UInt8) (i : ℕ) : UInt8 := bytes.getD i 0

def wordAt (bytes : List UInt8) (i : ℕ) : UInt16 :=
  (byteAt bytes i).toUInt16 <<< 8 ||| (byteAt bytes (i + 1)).toUInt16

/-- The bytes of a payload of the given length, or as many as there are. -/
def payloadAt (bytes : List UInt8) (start len : ℕ) : List UInt8 := (bytes.drop start).take len

def ipv4At (bytes : List UInt8) (i : ℕ) : Ipv4Addr :=
  ⟨byteAt bytes i, byteAt bytes (i + 1), byteAt bytes (i + 2), byteAt bytes (i + 3)⟩

def ipv6At (bytes : List UInt8) (i : ℕ) : Ipv6Addr :=
  ⟨(List.range 8).map fun k => wordAt bytes (i + 2 * k), by simp⟩

def readEthernet (bytes : List UInt8) : Option EthernetPacket :=
  if bytes.length < 14 then none else some ⟨wordAt bytes 12, bytes.drop 14⟩

def readIpv4 (bytes : List UInt8) : Option Ipv4Packet :=
  if bytes.length < 20 then none
  else
    let headerLength := 4 * (byteAt bytes 0 &&& 0xf).toNat
    some
      { source := ipv4At bytes 12
        destination := ipv4At bytes 16
        nextLevelProtocol := byteAt bytes 9
        payload := payloadAt bytes (20 + (headerLength - 20))
          ((wordAt bytes 2).toNat - headerLength) }

def readIpv6 (bytes : List UInt8) : Option Ipv6Packet :=
  if bytes.length < 40 then none
  else some
    { source := ipv6At bytes 8
      destination := ipv6At bytes 24
      nextHeader := byteAt bytes 6
      payload := payloadAt bytes 40 (wordAt bytes 4).toNat }

/-- Both transport headers start with their ports and differ in their least size. -/
def readPorts (minimumSize : ℕ) (bytes : List UInt8) : Option TransportPacket :=
  if bytes.length < minimumSize then none else some ⟨wordAt bytes 0, wordAt bytes 2⟩

def rawBytes : HeaderReader where
  ethernet := readEthernet
  ipv4 := readIpv4
  ipv6 := readIpv6
  tcp := readPorts 20
  udp := readPorts 8

/-- A TCP header behind its ports: a header of five words that asks for a connection. -/
def synFields : List UInt8 := List.replicate 8 0 ++ [0x50, 0x02] ++ List.replicate 6 0

end RawBytes

end AetherLens.PacketHeaders
