import AetherLens.SegmentText

/-!
Internet addresses, their texts and the texts of their endpoints. An
IPv4-mapped address ends in dotted decimal; every other IPv6 address is the
text of its segments. Addresses and endpoints are determined by their texts.
-/
namespace AetherLens.AddressText

open NumberText SegmentText

structure Ipv4Addr where
  a : UInt8
  b : UInt8
  c : UInt8
  d : UInt8
deriving DecidableEq, Repr

/-- Eight segments of sixteen bits. -/
structure Ipv6Addr where
  segments : List UInt16
  length_eq : segments.length = 8
deriving DecidableEq, Repr

inductive IpAddr
  | v4 (addr : Ipv4Addr)
  | v6 (addr : Ipv6Addr)
deriving DecidableEq, Repr

def Ipv4Addr.octets (addr : Ipv4Addr) : List UInt8 := [addr.a, addr.b, addr.c, addr.d]

def Ipv4Addr.display (addr : Ipv4Addr) : List Char :=
  ['.'].intercalate (addr.octets.map fun octet => decimal octet.toNat)

def Ipv6Addr.toIpv4Mapped (addr : Ipv6Addr) : Option Ipv4Addr :=
  match addr.segments with
  | [0, 0, 0, 0, 0, 0xffff, g, h] =>
    some ⟨(g >>> 8).toUInt8, g.toUInt8, (h >>> 8).toUInt8, h.toUInt8⟩
  | _ => none

def Ipv6Addr.display (addr : Ipv6Addr) : List Char :=
  match addr.toIpv4Mapped with
  | some mapped => "::ffff:".toList ++ mapped.display
  | none => displaySegments addr.segments

def IpAddr.display : IpAddr → List Char
  | .v4 addr => addr.display
  | .v6 addr => addr.display

/-- The text of an address with a port: IPv6 addresses stand in brackets. -/
def endpoint (addr : IpAddr) (port : UInt16) : List Char :=
  match addr with
  | .v4 addr => addr.display ++ ':' :: decimal port.toNat
  | .v6 addr => '[' :: (addr.display ++ ']' :: ':' :: decimal port.toNat)

theorem separator_notMem_decimalOctet (octet : UInt8) {c : Char} (hc : IsSeparator c) :
    c ∉ decimal octet.toNat := separator_notMem_decimal octet.toNat hc

theorem Ipv4Addr.splitOn_display (addr : Ipv4Addr) :
    addr.display.splitOn '.' = addr.octets.map fun octet => decimal octet.toNat := by
  apply List.splitOn_intercalate
  · intro text htext
    obtain ⟨octet, _, rfl⟩ := List.mem_map.mp htext
    exact separator_notMem_decimalOctet octet (by simp [IsSeparator])
  · simp [octets]

theorem Ipv4Addr.display_injective : Function.Injective Ipv4Addr.display := by
  intro x y h
  have hparts := congrArg (List.splitOn '.') h
  rw [x.splitOn_display, y.splitOn_display] at hparts
  have hoctets : x.octets = y.octets := by
    refine List.map_injective_iff.mpr ?_ hparts
    intro m n hmn
    exact UInt8.toNat_inj.mp (decimal_injective hmn)
  cases x
  cases y
  simpa [octets] using hoctets

theorem Ipv4Addr.separator_notMem_display (addr : Ipv4Addr) {c : Char} (hc : IsSeparator c)
    (hdot : c ≠ '.') : c ∉ addr.display := by
  apply notMem_intercalate hdot
  intro text htext
  obtain ⟨octet, _, rfl⟩ := List.mem_map.mp htext
  exact separator_notMem_decimalOctet octet hc

theorem Ipv4Addr.colon_notMem_display (addr : Ipv4Addr) : ':' ∉ addr.display :=
  addr.separator_notMem_display (by simp [IsSeparator]) (by decide)

theorem Ipv4Addr.dot_mem_display (addr : Ipv4Addr) : '.' ∈ addr.display := by
  simp [display, octets, List.intercalate_cons_cons]

theorem dot_notMem_subslice (chunk : List UInt16) : '.' ∉ subslice chunk := by
  apply notMem_intercalate (by decide)
  intro text htext
  obtain ⟨segment, _, rfl⟩ := List.mem_map.mp htext
  exact separator_notMem_hexSegment segment (by simp [IsSeparator])

theorem dot_notMem_displaySegments (segments : List UInt16) :
    '.' ∉ displaySegments segments := by
  unfold displaySegments
  by_cases hgap : 1 < (zeroes segments).len
  · simp [hgap, dot_notMem_subslice]
  · simp [hgap, dot_notMem_subslice]

/-- The two octets of a segment determine it. -/
theorem segment_eq_of_octets {g g' : UInt16} (hhigh : (g >>> 8).toUInt8 = (g' >>> 8).toUInt8)
    (hlow : g.toUInt8 = g'.toUInt8) : g = g' := by
  have hhigh' := congrArg UInt8.toNat hhigh
  have hlow' := congrArg UInt8.toNat hlow
  have hg := g.toNat_lt
  have hg' := g'.toNat_lt
  apply UInt16.toNat_inj.mp
  simp [Nat.shiftRight_eq_div_pow] at hhigh' hlow'
  omega

theorem Ipv6Addr.segments_of_toIpv4Mapped {addr : Ipv6Addr} {mapped : Ipv4Addr}
    (h : addr.toIpv4Mapped = some mapped) :
    ∃ g h : UInt16, addr.segments = [0, 0, 0, 0, 0, 0xffff, g, h] ∧
      mapped = ⟨(g >>> 8).toUInt8, g.toUInt8, (h >>> 8).toUInt8, h.toUInt8⟩ := by
  unfold toIpv4Mapped at h
  split at h
  next g h' heq =>
    cases h
    exact ⟨g, h', heq, rfl⟩
  next => cases h

theorem Ipv6Addr.display_of_mapped {addr : Ipv6Addr} {mapped : Ipv4Addr}
    (h : addr.toIpv4Mapped = some mapped) :
    addr.display = "::ffff:".toList ++ mapped.display := by
  simp only [display, h]

theorem Ipv6Addr.display_of_not_mapped {addr : Ipv6Addr} (h : addr.toIpv4Mapped = none) :
    addr.display = displaySegments addr.segments := by
  simp only [display, h]

/-- Only mapped addresses are written with dots. -/
theorem Ipv6Addr.display_mapped_ne {x y : Ipv6Addr} {mapped : Ipv4Addr}
    (hx : x.toIpv4Mapped = some mapped) (hy : y.toIpv4Mapped = none) :
    x.display ≠ y.display := by
  intro h
  have hdot : '.' ∈ y.display := by
    rw [← h, display_of_mapped hx]
    exact List.mem_append_right _ mapped.dot_mem_display
  rw [display_of_not_mapped hy] at hdot
  exact dot_notMem_displaySegments y.segments hdot

theorem Ipv6Addr.display_injective : Function.Injective Ipv6Addr.display := by
  intro x y h
  have heq : x.segments = y.segments := by
    cases hx : x.toIpv4Mapped with
    | some mx =>
      cases hy : y.toIpv4Mapped with
      | some my =>
        rw [display_of_mapped hx, display_of_mapped hy] at h
        have hmapped : mx = my := Ipv4Addr.display_injective (List.append_cancel_left h)
        obtain ⟨g, l, hxs, hmx⟩ := segments_of_toIpv4Mapped hx
        obtain ⟨g', l', hys, hmy⟩ := segments_of_toIpv4Mapped hy
        rw [hmx, hmy, Ipv4Addr.mk.injEq] at hmapped
        rw [hxs, hys, segment_eq_of_octets hmapped.1 hmapped.2.1,
          segment_eq_of_octets hmapped.2.2.1 hmapped.2.2.2]
      | none => exact absurd h (display_mapped_ne hx hy)
    | none =>
      cases hy : y.toIpv4Mapped with
      | some my => exact absurd h.symm (display_mapped_ne hy hx)
      | none =>
        rw [display_of_not_mapped hx, display_of_not_mapped hy] at h
        exact displaySegments_injective x.length_eq y.length_eq h
  cases x
  cases y
  simpa using heq

/-- Only IPv4 addresses are written with dots and without colons. -/
theorem Ipv4Addr.display_ne (addr : Ipv4Addr) (other : Ipv6Addr) :
    addr.display ≠ other.display := by
  intro h
  cases hmapped : other.toIpv4Mapped with
  | some mapped =>
    apply addr.colon_notMem_display
    rw [h, Ipv6Addr.display_of_mapped hmapped]
    exact List.mem_append_left _ List.mem_cons_self
  | none =>
    apply dot_notMem_displaySegments other.segments
    rw [← Ipv6Addr.display_of_not_mapped hmapped, ← h]
    exact addr.dot_mem_display

theorem IpAddr.display_injective : Function.Injective IpAddr.display := by
  intro x y h
  cases x with
  | v4 a =>
    cases y with
    | v4 b => exact congrArg IpAddr.v4 (Ipv4Addr.display_injective h)
    | v6 b => exact absurd h (a.display_ne b)
  | v6 a =>
    cases y with
    | v4 b => exact absurd h.symm (b.display_ne a)
    | v6 b => exact congrArg IpAddr.v6 (Ipv6Addr.display_injective h)

theorem colon_notMem_decimal (port : UInt16) : ':' ∉ decimal port.toNat :=
  separator_notMem_decimal port.toNat (by simp [IsSeparator])

theorem lastPart_endpoint (addr : IpAddr) (port : UInt16) :
    lastPart ':' (endpoint addr port) = decimal port.toNat := by
  cases addr with
  | v4 addr =>
    unfold endpoint
    rw [lastPart_append_cons, lastPart_of_notMem (colon_notMem_decimal port)]
  | v6 addr =>
    have hsplit : endpoint (.v6 addr) port =
        ('[' :: (addr.display ++ [']'])) ++ ':' :: decimal port.toNat := by
      simp [endpoint]
    rw [hsplit, lastPart_append_cons, lastPart_of_notMem (colon_notMem_decimal port)]

/-- The port survives being written behind an address and read back. -/
theorem parseU16_lastPart_endpoint (addr : IpAddr) (port : UInt16) :
    parseU16 (lastPart ':' (endpoint addr port)) = some port.toNat := by
  rw [lastPart_endpoint]
  exact parseU16_decimal port.toNat_lt

theorem bracket_notMem_endpoint_v4 (addr : Ipv4Addr) (port : UInt16) :
    '[' ∉ endpoint (.v4 addr) port := by
  have hdisplay : '[' ∉ addr.display :=
    addr.separator_notMem_display (by simp [IsSeparator]) (by decide)
  have hport : '[' ∉ decimal port.toNat :=
    separator_notMem_decimal port.toNat (by simp [IsSeparator])
  simp [endpoint, hdisplay, hport]

/-- An endpoint's text determines its address. -/
theorem eq_of_endpoint_eq {x y : IpAddr} {p q : UInt16} (h : endpoint x p = endpoint y q) :
    x = y := by
  cases x with
  | v4 x =>
    cases y with
    | v4 y =>
      have hparts := eq_of_append_cons_eq h (colon_notMem_decimal p) (colon_notMem_decimal q)
      rw [Ipv4Addr.display_injective hparts.1]
    | v6 y =>
      exact absurd (h ▸ List.mem_cons_self ..) (bracket_notMem_endpoint_v4 x p)
  | v6 x =>
    cases y with
    | v4 y =>
      exact absurd (h ▸ List.mem_cons_self ..) (bracket_notMem_endpoint_v4 y q)
    | v6 y =>
      have h' : (x.display ++ [']']) ++ ':' :: decimal p.toNat =
          (y.display ++ [']']) ++ ':' :: decimal q.toNat := by
        simpa [endpoint] using h
      have hparts := eq_of_append_cons_eq h' (colon_notMem_decimal p) (colon_notMem_decimal q)
      rw [Ipv6Addr.display_injective (List.append_cancel_right hparts.1)]

/-- The last segment of an address. -/
def Ipv6Addr.lastSegment (addr : Ipv6Addr) : UInt16 := addr.segments.getLastD 0

theorem Ipv6Addr.exists_segments (addr : Ipv6Addr) :
    ∃ init, addr.segments = init ++ [addr.lastSegment] := by
  have hne : addr.segments ≠ [] := List.ne_nil_of_length_pos (by rw [addr.length_eq]; omega)
  refine ⟨addr.segments.dropLast, ?_⟩
  have hlast : addr.lastSegment = addr.segments.getLast hne := by
    simp [lastSegment, List.getLastD_eq_getLast?, List.getLast?_eq_some_getLast hne]
  rw [hlast, List.dropLast_append_getLast]

theorem parseU16_lastPart_v4 (addr : Ipv4Addr) :
    parseU16 (lastPart ':' addr.display) = none := by
  rw [lastPart_of_notMem addr.colon_notMem_display]
  exact parseU16_of_dot addr.dot_mem_display

/-- Read as a port, the text of an IPv6 address without a port is the last segment
with its hexadecimal digits taken as decimal. -/
theorem port_lastPart_v6 (addr : Ipv6Addr) :
    (parseU16 (lastPart ':' addr.display)).getD 0 =
      if addr.toIpv4Mapped = none then (parseU16 (hexSegment addr.lastSegment)).getD 0
      else 0 := by
  cases h : addr.toIpv4Mapped with
  | some mapped =>
    have hsplit : addr.display = ("::ffff".toList) ++ ':' :: mapped.display := by
      rw [Ipv6Addr.display_of_mapped h]
      rfl
    rw [hsplit, lastPart_append_cons, parseU16_lastPart_v4]
    simp
  | none =>
    obtain ⟨init, hinit⟩ := addr.exists_segments
    rw [if_pos rfl, Ipv6Addr.display_of_not_mapped h, hinit]
    rcases lastPart_displaySegments init addr.lastSegment with hlast | ⟨hlast, hzero⟩
    · rw [hlast]
    · rw [hlast, hzero]
      rfl

end AetherLens.AddressText
