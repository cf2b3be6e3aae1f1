import AetherLens.NumberText
import Mathlib.Data.List.Induction

/-!
The text of a list of sixteen-bit segments: lower-case hexadecimal between
colons, with the first longest run of at least two zero segments cut to a
double colon. Eight segments are determined by their text.
-/
namespace AetherLens.SegmentText

open NumberText

/-- A run of zero segments. -/
structure Span where
  start : ℕ
  len : ℕ
deriving DecidableEq, Repr

/-- The state of the scan for zero runs: the index of the next segment, the
longest run so far and the run that ends here. -/
structure Scan where
  index : ℕ
  longest : Span
  current : Span

def Scan.next (s : Scan) (segment : UInt16) : Scan :=
  if segment = 0 then
    let current : Span :=
      ⟨if s.current.len = 0 then s.index else s.current.start, s.current.len + 1⟩
    ⟨s.index + 1, if s.longest.len < current.len then current else s.longest, current⟩
  else ⟨s.index + 1, s.longest, ⟨0, 0⟩⟩

def scanZeroes (segments : List UInt16) : Scan :=
  segments.foldl Scan.next ⟨0, ⟨0, 0⟩, ⟨0, 0⟩⟩

/-- The first of the longest runs of zero segments. -/
def zeroes (segments : List UInt16) : Span := (scanZeroes segments).longest

def hexSegment (segment : UInt16) : List Char := hex segment.toNat

/-- A colon-separated part of an address. -/
def subslice (chunk : List UInt16) : List Char := [':'].intercalate (chunk.map hexSegment)

/-- The text of an IPv6 address that is not IPv4-mapped. -/
def displaySegments (segments : List UInt16) : List Char :=
  let span := zeroes segments
  if 1 < span.len then
    subslice (segments.take span.start) ++
      ':' :: ':' :: subslice (segments.drop (span.start + span.len))
  else subslice segments

/-- The span is a run of zeros in the segments. -/
def Span.Covers (span : Span) (segments : List UInt16) : Prop :=
  ∃ pre suffix, segments = pre ++ List.replicate span.len 0 ++ suffix ∧
    (0 < span.len → pre.length = span.start)

theorem Span.Covers.snoc {span : Span} {segments : List UInt16} (h : span.Covers segments)
    (segment : UInt16) : span.Covers (segments ++ [segment]) := by
  obtain ⟨pre, suffix, heq, hstart⟩ := h
  exact ⟨pre, suffix ++ [segment], by rw [heq, List.append_assoc _ suffix], hstart⟩

/-- After a prefix has been scanned the longest run covers zero segments of it,
and the current run is a run at its end. -/
structure Scan.Valid (s : Scan) (segments : List UInt16) : Prop where
  index_eq : s.index = segments.length
  longest_covers : s.longest.Covers segments
  current_ends : ∃ pre, segments = pre ++ List.replicate s.current.len 0 ∧
    (0 < s.current.len → pre.length = s.current.start)

theorem Scan.Valid.next {s : Scan} {segments : List UInt16} (h : s.Valid segments)
    (segment : UInt16) : (s.next segment).Valid (segments ++ [segment]) := by
  obtain ⟨pre, hpre, hstart⟩ := h.current_ends
  unfold Scan.next
  by_cases hzero : segment = 0
  · subst hzero
    have hends : segments ++ [0] = pre ++ List.replicate (s.current.len + 1) 0 := by
      rw [List.replicate_succ', ← List.append_assoc, ← hpre]
    have hlen : pre.length = if s.current.len = 0 then s.index else s.current.start := by
      by_cases hcur : s.current.len = 0
      · rw [if_pos hcur, h.index_eq, hpre, hcur]
        simp
      · rw [if_neg hcur]
        exact hstart (Nat.pos_of_ne_zero hcur)
    refine ⟨?_, ?_, ?_⟩
    · simp [h.index_eq]
    · simp only [ite_true]
      split
      · exact ⟨pre, [], by simpa using hends, fun _ => hlen⟩
      · exact h.longest_covers.snoc 0
    · simp only [ite_true]
      exact ⟨pre, hends, fun _ => hlen⟩
  · simp only [hzero, ite_false]
    refine ⟨?_, h.longest_covers.snoc segment, ?_⟩
    · simp [h.index_eq]
    · exact ⟨segments ++ [segment], by simp, fun hpos => absurd hpos (Nat.lt_irrefl 0)⟩

theorem scanZeroes_valid (segments : List UInt16) : (scanZeroes segments).Valid segments := by
  induction segments using List.reverseRecOn with
  | nil =>
    exact ⟨rfl, ⟨[], [], rfl, fun hpos => absurd hpos (Nat.lt_irrefl 0)⟩,
      ⟨[], rfl, fun hpos => absurd hpos (Nat.lt_irrefl 0)⟩⟩
  | append_singleton segments segment ih =>
    unfold scanZeroes at ih ⊢
    rw [List.foldl_append]
    exact ih.next segment

/-- What a displayed address leaves out between its two parts is zero. -/
theorem zeroes_split (segments : List UInt16) (h : 0 < (zeroes segments).len) :
    segments = segments.take (zeroes segments).start ++
      List.replicate (zeroes segments).len 0 ++
        segments.drop ((zeroes segments).start + (zeroes segments).len) := by
  obtain ⟨pre, suffix, heq, hstart⟩ := (scanZeroes_valid segments).longest_covers
  have hlen : pre.length = (zeroes segments).start := hstart h
  change segments = pre ++ List.replicate (zeroes segments).len 0 ++ suffix at heq
  rw [← hlen]
  generalize (zeroes segments).len = len at heq ⊢
  subst heq
  have htake : (pre ++ List.replicate len 0 ++ suffix).take pre.length = pre := by
    rw [List.append_assoc, List.take_left]
  have hdrop : (pre ++ List.replicate len 0 ++ suffix).drop (pre.length + len) = suffix := by
    have hboth : pre.length + len = (pre ++ List.replicate len (0 : UInt16)).length := by
      rw [List.length_append, List.length_replicate]
    rw [hboth, List.drop_left]
  rw [htake, hdrop]

theorem hexSegment_injective : Function.Injective hexSegment := by
  intro x y h
  exact UInt16.toNat_inj.mp (hex_injective h)

theorem separator_notMem_hexSegment (segment : UInt16) {c : Char} (hc : IsSeparator c) :
    c ∉ hexSegment segment := separator_notMem_hex segment.toNat hc

theorem hexSegment_ne_nil (segment : UInt16) : hexSegment segment ≠ [] :=
  hex_ne_nil segment.toNat

/-- The parts of a subslice; the empty subslice is one empty part. -/
def parts (chunk : List UInt16) : List (List Char) :=
  if chunk = [] then [[]] else chunk.map hexSegment

theorem parts_of_ne_nil {chunk : List UInt16} (h : chunk ≠ []) :
    parts chunk = chunk.map hexSegment := if_neg h

theorem splitOn_subslice (chunk : List UInt16) :
    (subslice chunk).splitOn ':' = parts chunk := by
  by_cases h : chunk = []
  · subst h
    rfl
  · rw [parts_of_ne_nil h]
    apply List.splitOn_intercalate
    · intro text htext
      obtain ⟨segment, _, rfl⟩ := List.mem_map.mp htext
      exact separator_notMem_hexSegment segment (by simp [IsSeparator])
    · simpa using h

theorem splitOn_compressed (pre suffix : List UInt16) :
    (subslice pre ++ ':' :: ':' :: subslice suffix).splitOn ':' =
      parts pre ++ [] :: parts suffix := by
  have hinner : (':' :: subslice suffix).splitOn ':' = [] :: parts suffix := by
    rw [← splitOn_subslice suffix]
    exact List.splitOn_append_cons_self [] (subslice suffix)
  rw [List.splitOn_append_cons_self, splitOn_subslice, hinner]

theorem parts_reverse (chunk : List UInt16) : parts chunk.reverse = (parts chunk).reverse := by
  unfold parts
  by_cases h : chunk = [] <;> simp [h]

/-- The parts before the first empty one. -/
def leading (texts : List (List Char)) : List (List Char) := texts.takeWhile (· ≠ [])

theorem leading_parts (chunk : List UInt16) (rest : List (List Char)) :
    leading (parts chunk ++ [] :: rest) = chunk.map hexSegment := by
  by_cases h : chunk = []
  · subst h
    rfl
  · rw [parts_of_ne_nil h]
    unfold leading
    rw [List.takeWhile_append_of_pos]
    · simp
    · intro text htext
      obtain ⟨segment, _, rfl⟩ := List.mem_map.mp htext
      simpa using hexSegment_ne_nil segment

/-- A compressed text determines the segments on both sides of the gap. -/
theorem compressed_injective {pre suffix pre' suffix' : List UInt16}
    (h : subslice pre ++ ':' :: ':' :: subslice suffix =
      subslice pre' ++ ':' :: ':' :: subslice suffix') : pre = pre' ∧ suffix = suffix' := by
  have hparts := congrArg (List.splitOn ':') h
  rw [splitOn_compressed, splitOn_compressed] at hparts
  have hleft := congrArg leading hparts
  rw [leading_parts, leading_parts] at hleft
  have hright := congrArg (fun texts => leading texts.reverse) hparts
  simp only [List.reverse_append, List.reverse_cons, List.append_assoc, List.singleton_append,
    ← parts_reverse, leading_parts] at hright
  exact ⟨List.map_injective_iff.mpr hexSegment_injective hleft,
    List.reverse_injective (List.map_injective_iff.mpr hexSegment_injective hright)⟩

/-- A text with a gap is not one without. -/
theorem compressed_ne_subslice {pre suffix chunk : List UInt16} (hchunk : chunk ≠ []) :
    subslice pre ++ ':' :: ':' :: subslice suffix ≠ subslice chunk := by
  intro h
  have hparts := congrArg (List.splitOn ':') h
  rw [splitOn_compressed, splitOn_subslice, parts_of_ne_nil hchunk] at hparts
  have hmem : [] ∈ chunk.map hexSegment := by
    rw [← hparts]
    simp
  obtain ⟨segment, _, hnil⟩ := List.mem_map.mp hmem
  exact hexSegment_ne_nil segment hnil

theorem subslice_injective {chunk chunk' : List UInt16} (hchunk : chunk ≠ [])
    (hchunk' : chunk' ≠ []) (h : subslice chunk = subslice chunk') : chunk = chunk' := by
  have hparts := congrArg (List.splitOn ':') h
  rw [splitOn_subslice, splitOn_subslice, parts_of_ne_nil hchunk,
    parts_of_ne_nil hchunk'] at hparts
  exact List.map_injective_iff.mpr hexSegment_injective hparts

theorem displaySegments_injective {segments segments' : List UInt16}
    (hlen : segments.length = 8) (hlen' : segments'.length = 8)
    (h : displaySegments segments = displaySegments segments') : segments = segments' := by
  have hne : segments ≠ [] := List.ne_nil_of_length_pos (by omega)
  have hne' : segments' ≠ [] := List.ne_nil_of_length_pos (by omega)
  unfold displaySegments at h
  by_cases hgap : 1 < (zeroes segments).len
  · by_cases hgap' : 1 < (zeroes segments').len
    · simp only [hgap, hgap', ite_true] at h
      obtain ⟨hpre, hsuffix⟩ := compressed_injective h
      have hsplit := zeroes_split segments (by omega)
      have hsplit' := zeroes_split segments' (by omega)
      rw [← hpre, ← hsuffix] at hsplit'
      have hcount := congrArg List.length hsplit
      have hcount' := congrArg List.length hsplit'
      simp only [List.length_append, List.length_replicate, hlen, hlen'] at hcount hcount'
      have hzero : (zeroes segments).len = (zeroes segments').len := by omega
      rw [← hzero] at hsplit'
      exact hsplit.trans hsplit'.symm
    · simp only [hgap, hgap', ite_true, ite_false] at h
      exact absurd h (compressed_ne_subslice hne')
  · by_cases hgap' : 1 < (zeroes segments').len
    · simp only [hgap, hgap', ite_true, ite_false] at h
      exact absurd h.symm (compressed_ne_subslice hne)
    · simp only [hgap, hgap', ite_false] at h
      exact subslice_injective hne hne' h

/-- The last part of a text without dotted decimal is the last segment, unless
the segments end in the gap. -/
theorem lastPart_displaySegments (init : List UInt16) (last : UInt16) :
    lastPart ':' (displaySegments (init ++ [last])) = hexSegment last ∨
      lastPart ':' (displaySegments (init ++ [last])) = [] ∧ last = 0 := by
  unfold displaySegments
  by_cases hgap : 1 < (zeroes (init ++ [last])).len
  · have hsplit := zeroes_split (init ++ [last]) (by omega)
    simp only [hgap, ite_true]
    generalize (init ++ [last]).take (zeroes (init ++ [last])).start = pre at hsplit ⊢
    generalize (init ++ [last]).drop
      ((zeroes (init ++ [last])).start + (zeroes (init ++ [last])).len) = suffix at hsplit ⊢
    rw [lastPart_append_cons]
    rcases List.eq_nil_or_concat' suffix with rfl | ⟨front, x, rfl⟩
    · refine Or.inr ⟨rfl, ?_⟩
      obtain ⟨n, hn⟩ : ∃ n, (zeroes (init ++ [last])).len = n + 1 :=
        ⟨(zeroes (init ++ [last])).len - 1, by omega⟩
      rw [hn, List.append_nil, List.replicate_succ', ← List.append_assoc] at hsplit
      have hlast := congrArg List.getLast? hsplit
      simpa using hlast
    · have hlast := congrArg List.getLast? hsplit
      have heq : last = x := by
        simpa [← List.append_assoc] using hlast
      subst heq
      refine Or.inl ?_
      have hinner : (':' :: subslice (front ++ [last])).splitOn ':' =
          ([] :: front.map hexSegment) ++ [hexSegment last] := by
        have hcons := List.splitOn_append_cons_self (a := ':') [] (subslice (front ++ [last]))
        rw [List.nil_append] at hcons
        rw [hcons, splitOn_subslice]
        simp [parts]
      exact lastPart_eq hinner
  · refine Or.inl ?_
    simp only [hgap, ite_false]
    have hparts : (subslice (init ++ [last])).splitOn ':' =
        init.map hexSegment ++ [hexSegment last] := by
      rw [splitOn_subslice]
      simp [parts]
    exact lastPart_eq hparts

end AetherLens.SegmentText
