import AetherLens.AddressText

/-!
Which origins the default CORS policy admits. Besides the configured origins
and localhost these are the hosts that start with one of nine texts, which
stand for the private IPv4 ranges. On dotted quads they imply those ranges, up
to one text that lacks its dot; on other hosts they imply nothing.
-/
namespace AetherLens.CorsPolicy

open AddressText NumberText

structure Uri where
  host : String
  port : ℤ
deriving DecidableEq, Repr

/-- Characters that compare equal regardless of case have one image. Digits and
the dot have no case. -/
structure CaseFolding where
  fold : Char → Char
  caseless : ∀ c d, fold c = fold d → d.isDigit ∨ d = '.' → c = d

section Policy

variable (folding : CaseFolding)

def equalsIgnoreCase (text other : String) : Bool :=
  text.toList.map folding.fold == other.toList.map folding.fold

def startsWithIgnoreCase (text start : String) : Bool :=
  (start.toList.map folding.fold).isPrefixOf (text.toList.map folding.fold)

def localPrefixes : List String :=
  ["192.168.", "10.", "172.16.", "172.17.", "172.18.", "172.19.", "172.2", "172.30.", "172.31."]

variable (tryCreate : String → Option Uri) (corsOrigins : List String)

def isLocalDashboardOrigin (origin : String) : Bool :=
  match tryCreate origin with
  | none => false
  | some uri =>
    let isLocalHost := equalsIgnoreCase folding uri.host "localhost" ||
      uri.host == "127.0.0.1" ||
      localPrefixes.any (startsWithIgnoreCase folding uri.host)
    isLocalHost && (uri.port == 3000 || uri.port == 3001)

def isConfigured (origin : String) : Bool :=
  corsOrigins.any fun configured => equalsIgnoreCase folding configured origin

def isOriginAllowed (origin : String) : Bool :=
  isConfigured folding corsOrigins origin || isLocalDashboardOrigin folding tryCreate origin

end Policy

/-- The configured origins when the settings name none. -/
def defaultOrigins : List String := ["http://localhost:3000", "http://localhost:3001"]

/-- Loopback and the private ranges 10/8, 172.16/12 and 192.168/16. -/
def PrivateQuad (addr : Ipv4Addr) : Prop :=
  addr = ⟨127, 0, 0, 1⟩ ∨ addr.a.toNat = 10 ∨
    (addr.a.toNat = 172 ∧ 16 ≤ addr.b.toNat ∧ addr.b.toNat ≤ 31) ∨
    (addr.a.toNat = 192 ∧ addr.b.toNat = 168)

/-- The quads outside 172.16/12 whose text starts with 172.2. -/
def StrayQuad (addr : Ipv4Addr) : Prop :=
  addr.a.toNat = 172 ∧ (addr.b.toNat = 2 ∨ 200 ≤ addr.b.toNat)

theorem not_private_of_stray {addr : Ipv4Addr} (h : StrayQuad addr) : ¬ PrivateQuad addr := by
  obtain ⟨ha, hb⟩ := h
  intro hprivate
  rcases hprivate with rfl | hten | ⟨_, hlow, hhigh⟩ | ⟨hother, _⟩
  · cases ha
  · omega
  · omega
  · omega

section Folding

variable (folding : CaseFolding)

theorem isPrefix_of_map_isPrefix {start text : List Char}
    (hstart : ∀ c ∈ start, c.isDigit ∨ c = '.')
    (h : start.map folding.fold <+: text.map folding.fold) : start <+: text := by
  induction start generalizing text with
  | nil => exact List.nil_prefix
  | cons d start ih =>
    cases text with
    | nil => simp at h
    | cons c text =>
      rw [List.map_cons, List.map_cons, List.cons_prefix_cons] at h
      have hhead : c = d := folding.caseless c d h.1.symm (hstart d (List.mem_cons_self ..))
      rw [hhead, List.cons_prefix_cons]
      exact ⟨rfl, ih (fun x hx => hstart x (List.mem_cons_of_mem _ hx)) h.2⟩

theorem localPrefixes_caseless {start : String} (hstart : start ∈ localPrefixes) (c : Char)
    (hc : c ∈ start.toList) : c.isDigit ∨ c = '.' := by
  have hall : (localPrefixes.all fun start =>
      start.toList.all fun c => c.isDigit || c == '.') = true := by decide
  have hchar := List.all_eq_true.mp (List.all_eq_true.mp hall start hstart) c hc
  simpa using hchar

/-- Case plays no part in the tests for the prefixes. -/
theorem startsWithIgnoreCase_iff {start : String} (hstart : start ∈ localPrefixes)
    (text : String) : startsWithIgnoreCase folding text start = true ↔
      start.toList <+: text.toList := by
  unfold startsWithIgnoreCase
  rw [List.isPrefixOf_iff_prefix]
  constructor
  · exact isPrefix_of_map_isPrefix folding (localPrefixes_caseless hstart)
  · exact fun h => h.map folding.fold

/-- No host that starts with a prefix is localhost. -/
theorem not_localhost_of_start {start : String} (hstart : start ∈ localPrefixes) {host : String}
    (h : start.toList <+: host.toList) : equalsIgnoreCase folding host "localhost" = false := by
  have hhead : ∃ rest, start.toList = '1' :: rest := by
    have hall : ∀ start ∈ localPrefixes, start.toList.head? = some '1' := by decide
    exact List.head?_eq_some_iff.mp (hall start hstart)
  obtain ⟨rest, hrest⟩ := hhead
  rw [hrest] at h
  obtain ⟨suffix, hhost⟩ := h
  by_contra hequal
  rw [Bool.not_eq_false, equalsIgnoreCase, beq_iff_eq, ← hhost] at hequal
  have hfirst : folding.fold '1' = folding.fold 'l' := by
    have hheads := congrArg List.head? hequal
    simpa using hheads
  have hne := folding.caseless 'l' '1' hfirst.symm (Or.inl rfl)
  cases hne

end Folding

section Quads

theorem display_eq (addr : Ipv4Addr) :
    addr.display = decimal addr.a.toNat ++ '.' :: (decimal addr.b.toNat ++ '.' ::
      (decimal addr.c.toNat ++ '.' :: decimal addr.d.toNat)) := by
  simp [Ipv4Addr.display, Ipv4Addr.octets, List.intercalate_cons_cons]

theorem dot_notMem_decimal (n : ℕ) : '.' ∉ decimal n :=
  separator_notMem_decimal n (by simp [IsSeparator])

/-- A number and a dot in front of a text are matched digit by digit. -/
theorem decimal_dot_prefix_iff {m n : ℕ} {start text : List Char} :
    decimal m ++ '.' :: start <+: decimal n ++ '.' :: text ↔ m = n ∧ start <+: text := by
  constructor
  · intro ⟨suffix, h⟩
    rw [List.append_assoc, List.cons_append] at h
    obtain ⟨hnumber, hrest⟩ :=
      eq_of_first_parts h (dot_notMem_decimal m) (dot_notMem_decimal n)
    exact ⟨decimal_injective hnumber, suffix, hrest⟩
  · intro ⟨hnumber, suffix, hrest⟩
    exact ⟨suffix, by rw [hnumber, ← hrest, List.append_assoc, List.cons_append]⟩

theorem two_octets_of_start {addr : Ipv4Addr} {x y : ℕ}
    (h : decimal x ++ '.' :: (decimal y ++ ['.']) <+: addr.display) :
    addr.a.toNat = x ∧ addr.b.toNat = y := by
  rw [display_eq, decimal_dot_prefix_iff, decimal_dot_prefix_iff] at h
  exact ⟨h.1.symm, h.2.1.symm⟩

/-- The octets whose text starts with the digit two. -/
theorem octet_of_head_two {octet : UInt8} (h : (decimal octet.toNat).head? = some '2') :
    octet.toNat = 2 ∨ (20 ≤ octet.toNat ∧ octet.toNat ≤ 29) ∨ 200 ≤ octet.toNat := by
  have hall : ∀ n : Fin 256, (decimal n.val).head? = some '2' →
      n.val = 2 ∨ (20 ≤ n.val ∧ n.val ≤ 29) ∨ 200 ≤ n.val := by
    decide +kernel
  exact hall ⟨octet.toNat, octet.toNat_lt⟩ h

/-- The prefix without its dot admits the strays. -/
theorem quad_of_open_start {addr : Ipv4Addr} (h : "172.2".toList <+: addr.display) :
    PrivateQuad addr ∨ StrayQuad addr := by
  have htext : "172.2".toList = decimal 172 ++ '.' :: ['2'] := by decide
  rw [htext, display_eq, decimal_dot_prefix_iff] at h
  obtain ⟨ha, hsecond⟩ := h
  have hhead : (decimal addr.b.toNat).head? = some '2' := by
    obtain ⟨digit, digits, hdigits⟩ := List.exists_cons_of_ne_nil (decimal_ne_nil addr.b.toNat)
    rw [hdigits, List.cons_append, List.cons_prefix_cons] at hsecond
    rw [hdigits, List.head?_cons, ← hsecond.1]
  rcases octet_of_head_two hhead with htwo | ⟨hlow, hhigh⟩ | hlarge
  · exact Or.inr ⟨ha.symm, Or.inl htwo⟩
  · exact Or.inl (Or.inr (Or.inr (Or.inl ⟨ha.symm, by omega, by omega⟩)))
  · exact Or.inr ⟨ha.symm, Or.inr hlarge⟩

/-- The prefixes that give two octets in full. -/
theorem quad_of_full_start {addr : Ipv4Addr} {start : List Char} {x y : ℕ}
    (htext : start = decimal x ++ '.' :: (decimal y ++ ['.']))
    (hrange : (x = 172 ∧ 16 ≤ y ∧ y ≤ 31) ∨ (x = 192 ∧ y = 168))
    (h : start <+: addr.display) : PrivateQuad addr ∨ StrayQuad addr := by
  rw [htext] at h
  obtain ⟨ha, hb⟩ := two_octets_of_start h
  refine Or.inl (Or.inr (Or.inr ?_))
  rw [ha, hb]
  exact hrange

/-- On dotted quads the prefixes stand for the private ranges and the strays. -/
theorem quad_of_start {addr : Ipv4Addr} {start : String} (hstart : start ∈ localPrefixes)
    (h : start.toList <+: addr.display) : PrivateQuad addr ∨ StrayQuad addr := by
  simp only [localPrefixes, List.mem_cons, List.not_mem_nil, or_false] at hstart
  rcases hstart with rfl | rfl | rfl | rfl | rfl | rfl | rfl | rfl | rfl
  · exact quad_of_full_start (x := 192) (y := 168) (by decide) (by omega) h
  · have htext : "10.".toList = decimal 10 ++ '.' :: [] := by decide
    rw [htext, display_eq, decimal_dot_prefix_iff] at h
    exact Or.inl (Or.inr (Or.inl h.1.symm))
  · exact quad_of_full_start (x := 172) (y := 16) (by decide) (by omega) h
  · exact quad_of_full_start (x := 172) (y := 17) (by decide) (by omega) h
  · exact quad_of_full_start (x := 172) (y := 18) (by decide) (by omega) h
  · exact quad_of_full_start (x := 172) (y := 19) (by decide) (by omega) h
  · exact quad_of_open_start h
  · exact quad_of_full_start (x := 172) (y := 30) (by decide) (by omega) h
  · exact quad_of_full_start (x := 172) (y := 31) (by decide) (by omega) h

end Quads

section Allowed

variable (folding : CaseFolding) (tryCreate : String → Option Uri) (corsOrigins : List String)
  (origin : String)

def DashboardPort (uri : Uri) : Prop := uri.port = 3000 ∨ uri.port = 3001

/-- The host is localhost or the text of a private address. -/
def LocalHost (host : String) : Prop :=
  equalsIgnoreCase folding host "localhost" = true ∨
    ∃ addr : Ipv4Addr, host.toList = addr.display ∧ PrivateQuad addr

/-- The origin is admitted only when it is configured or a dashboard on a local host. -/
def OnlyLocalDashboards : Prop :=
  isOriginAllowed folding tryCreate corsOrigins origin = true →
    isConfigured folding corsOrigins origin = true ∨
      ∃ uri, tryCreate origin = some uri ∧ DashboardPort uri ∧ LocalHost folding uri.host

/-- The host starts like a private address and is a name, or a stray quad. -/
def StrayHost (host : String) : Prop :=
  (∃ start ∈ localPrefixes, start.toList <+: host.toList) ∧
    ∀ addr : Ipv4Addr, host.toList = addr.display → StrayQuad addr

theorem isLocalDashboardOrigin_iff :
    isLocalDashboardOrigin folding tryCreate origin = true ↔
      ∃ uri, tryCreate origin = some uri ∧ DashboardPort uri ∧
        (equalsIgnoreCase folding uri.host "localhost" = true ∨ uri.host = "127.0.0.1" ∨
          ∃ start ∈ localPrefixes, start.toList <+: uri.host.toList) := by
  unfold isLocalDashboardOrigin DashboardPort
  cases tryCreate origin with
  | none => simp
  | some uri =>
    have hany : localPrefixes.any (startsWithIgnoreCase folding uri.host) = true ↔
        ∃ start ∈ localPrefixes, start.toList <+: uri.host.toList := by
      rw [List.any_eq_true]
      constructor
      · intro ⟨start, hstart, h⟩
        exact ⟨start, hstart, (startsWithIgnoreCase_iff folding hstart uri.host).mp h⟩
      · intro ⟨start, hstart, h⟩
        exact ⟨start, hstart, (startsWithIgnoreCase_iff folding hstart uri.host).mpr h⟩
    simp only [Bool.and_eq_true, Bool.or_eq_true, beq_iff_eq, hany, Option.some.injEq,
      exists_eq_left', or_assoc]
    exact and_comm

theorem localHost_of_not_stray {host : String} (hstarts : ∃ start ∈ localPrefixes,
    start.toList <+: host.toList) (h : ¬ StrayHost host) : LocalHost folding host := by
  obtain ⟨start, hstart, hhost⟩ := hstarts
  by_contra hlocal
  refine h ⟨⟨start, hstart, hhost⟩, ?_⟩
  intro addr haddr
  rcases quad_of_start hstart (haddr ▸ hhost) with hprivate | hstray
  · exact absurd (Or.inr ⟨addr, haddr, hprivate⟩) hlocal
  · exact hstray

theorem not_localHost_of_stray {host : String} (h : StrayHost host) :
    ¬ LocalHost folding host := by
  obtain ⟨⟨start, hstart, hhost⟩, hquads⟩ := h
  intro hlocal
  rcases hlocal with hname | ⟨addr, haddr, hprivate⟩
  · rw [not_localhost_of_start folding hstart hhost] at hname
    cases hname
  · exact not_private_of_stray (hquads addr haddr) hprivate

/-- A foreign origin is admitted exactly when its host is a stray and its port is
one of the dashboard's. -/
theorem only_local_dashboards_iff :
    OnlyLocalDashboards folding tryCreate corsOrigins origin ↔
      ¬ (isConfigured folding corsOrigins origin = false ∧
        ∃ uri, tryCreate origin = some uri ∧ DashboardPort uri ∧ StrayHost uri.host) := by
  unfold OnlyLocalDashboards isOriginAllowed
  rw [Bool.or_eq_true, isLocalDashboardOrigin_iff]
  constructor
  · intro h ⟨hconfigured, uri, huri, hport, hstray⟩
    rcases h (Or.inr ⟨uri, huri, hport, Or.inr (Or.inr hstray.1)⟩) with hlisted | hdashboard
    · rw [hconfigured] at hlisted
      cases hlisted
    · obtain ⟨uri', huri', _, hlocal⟩ := hdashboard
      rw [huri, Option.some.injEq] at huri'
      subst huri'
      exact not_localHost_of_stray folding hstray hlocal
  · intro h hallowed
    by_cases hconfigured : isConfigured folding corsOrigins origin = true
    · exact Or.inl hconfigured
    · obtain ⟨uri, huri, hport, hhost⟩ := hallowed.resolve_left hconfigured
      refine Or.inr ⟨uri, huri, hport, ?_⟩
      rcases hhost with hname | hloopback | hstarts
      · exact Or.inl hname
      · refine Or.inr ⟨⟨127, 0, 0, 1⟩, ?_, Or.inl rfl⟩
        rw [hloopback]
        decide
      · apply localHost_of_not_stray folding hstarts
        intro hstray
        exact h ⟨Bool.not_eq_true _ ▸ hconfigured, uri, huri, hport, hstray⟩

end Allowed

theorem toUpper_eq_or (c : Char) :
    c.toUpper = c ∨ (97 ≤ c.toNat ∧ 65 ≤ c.toUpper.toNat) := by
  unfold Char.toUpper
  split
  next h =>
    have hlow : 97 ≤ c.val.toNat := UInt32.le_iff_toNat_le.mp h.1
    have hhigh : c.val.toNat ≤ 122 := UInt32.le_iff_toNat_le.mp h.2
    have hval : (c.val + 4294967264).toNat = (c.val.toNat + 4294967264) % 4294967296 :=
      UInt32.toNat_add c.val 4294967264
    refine Or.inr ⟨hlow, ?_⟩
    change 65 ≤ (c.val + 4294967264).toNat
    omega
  next => exact Or.inl rfl

theorem toNat_le_of_caseless {d : Char} (h : d.isDigit ∨ d = '.') : d.toNat ≤ 57 := by
  rcases h with hdigit | rfl
  · simp only [Char.isDigit, Bool.and_eq_true, decide_eq_true_eq, UInt32.le_iff_toNat_le]
      at hdigit
    exact hdigit.2
  · decide

/-- The case of the Latin letters. -/
def asciiFolding : CaseFolding where
  fold := Char.toUpper
  caseless := by
    intro c d h hd
    have hle := toNat_le_of_caseless hd
    have hd' : d.toUpper = d := by
      rcases toUpper_eq_or d with heq | hletter
      · exact heq
      · omega
    rw [hd'] at h
    rcases toUpper_eq_or c with heq | hletter
    · rw [← heq, h]
    · rw [h] at hletter
      omega

/-- The parts of the one URI below. -/
def createForeign (origin : String) : Option Uri :=
  if origin = "http://10.evil.com:3000" then some ⟨"10.evil.com", 3000⟩ else none

/-- A foreign name that starts with 10 and a dot is admitted. -/
theorem foreign_name_admitted :
    isOriginAllowed asciiFolding createForeign defaultOrigins "http://10.evil.com:3000" = true ∧
      ¬ OnlyLocalDashboards asciiFolding createForeign defaultOrigins
        "http://10.evil.com:3000" := by
  have hallowed : isOriginAllowed asciiFolding createForeign defaultOrigins
      "http://10.evil.com:3000" = true := by decide
  refine ⟨hallowed, ?_⟩
  intro h
  rcases h hallowed with hconfigured | ⟨uri, huri, _, hname | ⟨addr, haddr, _⟩⟩
  · have hnot : isConfigured asciiFolding defaultOrigins "http://10.evil.com:3000" = false := by
      decide
    rw [hnot] at hconfigured
    cases hconfigured
  · cases huri
    have hnot : equalsIgnoreCase asciiFolding "10.evil.com" "localhost" = false := by decide
    rw [hnot] at hname
    cases hname
  · cases huri
    have hletter : 'e' ∈ addr.display := by
      rw [← haddr]
      decide
    refine notMem_intercalate (by decide) ?_ hletter
    intro text htext hmem
    obtain ⟨octet, _, rfl⟩ := List.mem_map.mp htext
    have hdigit := Nat.isDigit_of_mem_toDigits (by omega) (by omega) hmem
    cases hdigit

end AetherLens.CorsPolicy
