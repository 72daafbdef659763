import FirelinkNet.Sockaddr
import FirelinkNet.Lib.Text

/-!
# Addresses as text

`firelink::inet_ntop` writes an address and its port as `address:port`, or as
`[address]:port` in IPv6; `firelink::inet_pton` reads these, and an address alone. It
finds the port by comparing the position of the last `:` with that of the last `.`, or
of the last `]`.

## The model

Texts are lists of characters, and a C string is one without a NUL. What the system's
own `::inet_ntop` and `::inet_pton` do is a parameter, `InetSystem`; what is assumed of
them is `InetSystem.Lawful`. A reader returns `none` where the source throws
(`std::stoi`) or where it takes the last character of an empty string.

## What is proved

* `inetPton_reads` — **whatever text the system accepts for an address is read back by
  the library**, alone or with any port, and so is what `inet_ntop` writes, in both
  families.
-/

namespace FirelinkNet

open Lib.Text

/-- A C string, without the NUL that ends it. -/
abbrev CString := {s : List Char // '\x00' ∉ s}

/-- `std::string::data`, for a function that takes a C string: up to the first NUL. -/
def cString (s : List Char) : CString :=
  ⟨s.takeWhile (· ≠ '\x00'), fun h => by simpa using List.mem_takeWhile_imp h⟩

@[simp] theorem cString_val (t : CString) : cString t.1 = t := by
  refine Subtype.ext (List.takeWhile_eq_self_iff.mpr fun c hc => ?_)
  exact decide_eq_true fun h : c = '\x00' => t.2 (h ▸ hc)

/-- `::inet_ntop` and `::inet_pton`, for either family: `none` where they fail. -/
structure InetSystem where
  /-- `::inet_ntop(AF_INET, …)`. -/
  ntop4 : Bytes 4 → Option CString
  /-- `::inet_ntop(AF_INET6, …)`. -/
  ntop6 : Bytes 16 → Option CString
  /-- `::inet_pton(AF_INET, …)`. -/
  pton4 : CString → Option (Bytes 4)
  /-- `::inet_pton(AF_INET6, …)`. -/
  pton6 : CString → Option (Bytes 16)

namespace InetSystem

/-- What is assumed of the system. -/
structure Lawful (sys : InetSystem) : Prop where
  /-- What `::inet_ntop` writes for an IPv4 address, `::inet_pton` reads back. -/
  ntop4_pton4 : ∀ a, ∃ t, sys.ntop4 a = some t ∧ sys.pton4 t = some a
  /-- What `::inet_ntop` writes for an IPv6 address, `::inet_pton` reads back. -/
  ntop6_pton6 : ∀ a, ∃ t, sys.ntop6 a = some t ∧ sys.pton6 t = some a
  /-- An IPv4 address has a dot. -/
  dot_mem : ∀ {t a}, sys.pton4 t = some a → '.' ∈ t.1
  /-- An IPv4 address has no colon. -/
  colon_notMem : ∀ {t a}, sys.pton4 t = some a → ':' ∉ t.1
  /-- An IPv6 address has no bracket. -/
  bracket_notMem : ∀ {t a}, sys.pton6 t = some a → '[' ∉ t.1 ∧ ']' ∉ t.1

variable (sys : InetSystem)

/-- `inet_ntop(const IPv4Address&)`. -/
def inetNtop4 (addr : IPv4Address) : List Char :=
  match sys.ntop4 addr.bytes with
  | none => []
  | some buf => buf.1 ++ [':'] ++ decimal addr.port.toNat

/-- `inet_ntop(const IPv6Address&)`. -/
def inetNtop6 (addr : IPv6Address) : List Char :=
  match sys.ntop6 addr.bytes with
  | none => []
  | some buf => ['['] ++ buf.1 ++ [']'] ++ [':'] ++ decimal addr.port.toNat

/-- `inet_ntop(AddressFamily, const Endpoint&)`. -/
def inetNtop (family : AddressFamily) (endpoint : Endpoint) : List Char :=
  if family = .ipv4 then sys.inetNtop4 endpoint.ipv4
  else if family = .ipv6 then sys.inetNtop6 endpoint.ipv6
  else []

/-- `static_cast<std::uint16_t>(std::stoi(…))`. -/
def readPort (s : List Char) : Option UInt16 := (stoi s).map fun n => n.toUInt32.toUInt16

/-- The end of `inet_pton(std::string_view, IPv4Address&)`, once the port is set. -/
def parse4 (trimmedAddr : List Char) (out : IPv4Address) : ErrorCode × IPv4Address :=
  match sys.pton4 (cString trimmedAddr) with
  | none => (.systemError, out)
  | some bytes => (.success, { out with bytes := bytes })

/-- `inet_pton(std::string_view, IPv4Address&)`. -/
def inetPton4 (str : List Char) (out : IPv4Address) : Option (ErrorCode × IPv4Address) :=
  let pos := rfind str ':'
  if pos ≠ npos ∧ pos > rfind str '.' then do
    let port ← readPort (str.drop (pos.untopD 0 + 1))
    pure (sys.parse4 (str.take (pos.untopD 0)) { out with port := port })
  else
    some (sys.parse4 str out)

/-- The end of `inet_pton(std::string_view, IPv6Address&)`, once the port is set. -/
def parse6 (trimmedAddr : List Char) (out : IPv6Address) : ErrorCode × IPv6Address :=
  match sys.pton6 (cString trimmedAddr) with
  | none => (.systemError, out)
  | some bytes => (.success, { out with bytes := bytes })

/-- `inet_pton(std::string_view, IPv6Address&)`. -/
def inetPton6 (str : List Char) (out : IPv6Address) : Option (ErrorCode × IPv6Address) :=
  let pos := rfind str ':'
  if pos ≠ npos ∧ pos > rfind str ']' then do
    let trimmedAddr ← popBack ((str.take (pos.untopD 0)).drop 1)
    let port ← readPort (str.drop (pos.untopD 0 + 1))
    pure (sys.parse6 trimmedAddr { out with port := port })
  else
    some (sys.parse6 str out)

/-- `inet_pton(AddressFamily, std::string_view, Endpoint&)`; `junk` is what the union of a fresh
`Endpoint` holds. -/
def inetPton (family : AddressFamily) (str : List Char) (junk : Bytes 18) (out : Endpoint) :
    Option (ErrorCode × Endpoint) :=
  if family = .ipv4 then do
    let (result, addr) ← sys.inetPton4 str (.any 0)
    pure (result, if result = .success then .ofIPv4 addr junk else out)
  else if family = .ipv6 then do
    let (result, addr) ← sys.inetPton6 str (.any 0)
    pure (result, if result = .success then .ofIPv6 addr else out)
  else
    some (.addressFamilyNotSupported, out)

/-! ### The split into address and port -/

@[simp] theorem readPort_decimal (p : UInt16) : readPort (decimal p.toNat) = some p := by
  have hlt : p.toNat < 65536 := p.toNat_lt
  rw [readPort, stoi_decimal (by omega), Option.map_some]
  congr 1
  apply UInt16.toNat_inj.mp
  rw [UInt32.toNat_toUInt16, Int32.ofInt_eq_ofNat, Int32.toUInt32_ofNat']
  simp only [UInt32.toNat_ofNat']
  omega

/-- The last colon is the one before the port. -/
theorem rfind_colon (t : List Char) (p : UInt16) :
    rfind (t ++ ':' :: decimal p.toNat) ':' = .some t.length :=
  rfind_append_of_notMem (notMem_decimal rfl)

/-- A character of the address that is no digit and no colon comes before that colon. -/
theorem rfind_lt_colon {t : List Char} {c : Char} (p : UInt16) (hc : c ∈ t) (hdigit : c.isDigit = false)
    (hcolon : c ≠ ':') : rfind (t ++ ':' :: decimal p.toNat) c < .some t.length := by
  have hport : c ∉ ':' :: decimal p.toNat := by
    rintro (_ | ⟨_, hc⟩)
    · exact hcolon rfl
    · exact notMem_decimal hdigit hc
  obtain ⟨n, hn, hfind⟩ := exists_rfind_append hc hport
  rw [hfind]
  exact WithTop.coe_lt_coe.mpr hn

/-- An address with a port, in IPv4. -/
theorem inetPton4_port {t : List Char} (p : UInt16) (out : IPv4Address) (hdot : '.' ∈ t) :
    sys.inetPton4 (t ++ [':'] ++ decimal p.toNat) out =
      some (sys.parse4 t { out with port := p }) := by
  have hpos := rfind_colon t p
  have hlt := rfind_lt_colon p hdot rfl (by decide)
  rw [List.append_assoc, List.singleton_append, inetPton4]
  simp only [hpos]
  rw [if_pos ⟨WithTop.coe_ne_top, hlt⟩, WithTop.untopD_coe, List.take_left]
  simp

/-- An address alone, in IPv4. -/
theorem inetPton4_bare {t : List Char} (out : IPv4Address) (hcolon : ':' ∉ t) :
    sys.inetPton4 t out = some (sys.parse4 t out) := by
  rw [inetPton4]
  exact if_neg fun h => h.1 (rfind_of_notMem hcolon)

/-- An address with a port, in IPv6. -/
theorem inetPton6_port (t : List Char) (p : UInt16) (out : IPv6Address) :
    sys.inetPton6 (['['] ++ t ++ [']'] ++ [':'] ++ decimal p.toNat) out =
      some (sys.parse6 t { out with port := p }) := by
  have hmem : ']' ∈ ['['] ++ t ++ [']'] := by simp
  have hpos := rfind_colon (['['] ++ t ++ [']']) p
  have hlt := rfind_lt_colon p hmem rfl (by decide)
  have hdrop : (['['] ++ t ++ [']']).drop 1 = t ++ [']'] := rfl
  have htext : ['['] ++ t ++ [']'] ++ [':'] ++ decimal p.toNat =
      ['['] ++ t ++ [']'] ++ ':' :: decimal p.toNat := List.append_assoc _ _ _
  rw [htext, inetPton6]
  simp only [hpos]
  rw [if_pos ⟨WithTop.coe_ne_top, hlt⟩, WithTop.untopD_coe, List.take_left, hdrop, popBack_concat]
  simp

/-- An address alone, in IPv6: its colons are not taken for the one before a port. -/
theorem inetPton6_bare {t : List Char} (out : IPv6Address) (hbracket : ']' ∉ t) :
    sys.inetPton6 t out = some (sys.parse6 t out) := by
  rw [inetPton6]
  simp only [rfind_of_notMem hbracket]
  exact if_neg fun h => not_top_lt h.2

section Read

variable {sys} {t : CString}

/-- What the system accepts is parsed. -/
theorem parse4_of_pton4 {a : Bytes 4} (h : sys.pton4 t = some a) (out : IPv4Address) :
    sys.parse4 t.1 out = (.success, { out with bytes := a }) := by
  rw [parse4, cString_val, h]

theorem parse6_of_pton6 {a : Bytes 16} (h : sys.pton6 t = some a) (out : IPv6Address) :
    sys.parse6 t.1 out = (.success, { out with bytes := a }) := by
  rw [parse6, cString_val, h]

/-- **What the library writes for an IPv4 address and port it reads back.** -/
theorem inetPton4_inetNtop4 (hsys : sys.Lawful) (a out : IPv4Address) :
    sys.inetPton4 (sys.inetNtop4 a) out = some (.success, a) := by
  obtain ⟨t, hntop, hpton⟩ := hsys.ntop4_pton4 a.bytes
  rw [inetNtop4, hntop]
  exact (sys.inetPton4_port a.port out (hsys.dot_mem hpton)).trans
    (congrArg some (parse4_of_pton4 hpton _))

/-- **And for an IPv6 address and port.** -/
theorem inetPton6_inetNtop6 (hsys : sys.Lawful) (a out : IPv6Address) :
    sys.inetPton6 (sys.inetNtop6 a) out = some (.success, a) := by
  obtain ⟨t, hntop, hpton⟩ := hsys.ntop6_pton6 a.bytes
  rw [inetNtop6, hntop]
  exact (sys.inetPton6_port t.1 a.port out).trans (congrArg some (parse6_of_pton6 hpton _))

/-- The IPv4 branch of `inet_pton(AddressFamily, …)`, when the text is read. -/
theorem inetPton_of_inetPton4 {str : List Char} {a : IPv4Address} (junk : Bytes 18) (out : Endpoint)
    (h : sys.inetPton4 str (.any 0) = some (.success, a)) :
    sys.inetPton .ipv4 str junk out = some (.success, .ofIPv4 a junk) := by
  simp [inetPton, h]

/-- The IPv6 branch. -/
theorem inetPton_of_inetPton6 {str : List Char} {a : IPv6Address} (junk : Bytes 18) (out : Endpoint)
    (h : sys.inetPton6 str (.any 0) = some (.success, a)) :
    sys.inetPton .ipv6 str junk out = some (.success, .ofIPv6 a) := by
  have hne : AddressFamily.ipv6 ≠ .ipv4 := by decide
  simp [inetPton, h, hne]

end Read

/-- The library reads `a` with port `p` from every form of the IPv4 address text `t`, into an
address and into an endpoint. -/
structure Reads4 (t : CString) (a : Bytes 4) (p : UInt16) : Prop where
  /-- `t:p`. -/
  port : ∀ out, sys.inetPton4 (t.1 ++ [':'] ++ decimal p.toNat) out = some (.success, ⟨a, p⟩)
  /-- `t`, which leaves the port as it is. -/
  bare : ∀ out, sys.inetPton4 t.1 out = some (.success, ⟨a, out.port⟩)
  /-- `t:p`, into an endpoint. -/
  endpoint : ∀ junk out, ∃ e, sys.inetPton .ipv4 (t.1 ++ [':'] ++ decimal p.toNat) junk out =
    some (.success, e) ∧ e.ipv4 = ⟨a, p⟩
  /-- `t`, into an endpoint. -/
  bareEndpoint : ∀ junk out, ∃ e, sys.inetPton .ipv4 t.1 junk out = some (.success, e) ∧
    e.ipv4 = ⟨a, 0⟩

/-- The library reads `a` with port `p` from every form of the IPv6 address text `t`. -/
structure Reads6 (t : CString) (a : Bytes 16) (p : UInt16) : Prop where
  /-- `[t]:p`. -/
  port : ∀ out, sys.inetPton6 (['['] ++ t.1 ++ [']'] ++ [':'] ++ decimal p.toNat) out =
    some (.success, ⟨a, p⟩)
  /-- `t`, which leaves the port as it is. -/
  bare : ∀ out, sys.inetPton6 t.1 out = some (.success, ⟨a, out.port⟩)
  /-- `[t]:p`, into an endpoint. -/
  endpoint : ∀ junk out, ∃ e, sys.inetPton .ipv6
    (['['] ++ t.1 ++ [']'] ++ [':'] ++ decimal p.toNat) junk out = some (.success, e) ∧
    e.ipv6 = ⟨a, p⟩
  /-- `t`, into an endpoint. -/
  bareEndpoint : ∀ junk out, ∃ e, sys.inetPton .ipv6 t.1 junk out = some (.success, e) ∧
    e.ipv6 = ⟨a, 0⟩

section Read

variable {sys} {t : CString}

theorem reads4 (hsys : sys.Lawful) {a : Bytes 4} (h : sys.pton4 t = some a) (p : UInt16) :
    sys.Reads4 t a p := by
  have hport : ∀ out, sys.inetPton4 (t.1 ++ [':'] ++ decimal p.toNat) out = some (.success, ⟨a, p⟩) :=
    fun out => (sys.inetPton4_port p out (hsys.dot_mem h)).trans (congrArg some (parse4_of_pton4 h _))
  have hbare : ∀ out, sys.inetPton4 t.1 out = some (.success, ⟨a, out.port⟩) :=
    fun out => (sys.inetPton4_bare out (hsys.colon_notMem h)).trans
      (congrArg some (parse4_of_pton4 h _))
  exact ⟨hport, hbare,
    fun junk out => ⟨_, inetPton_of_inetPton4 junk out (hport _), Endpoint.ipv4_ofIPv4 _ junk⟩,
    fun junk out => ⟨_, inetPton_of_inetPton4 junk out (hbare _), Endpoint.ipv4_ofIPv4 _ junk⟩⟩

theorem reads6 (hsys : sys.Lawful) {a : Bytes 16} (h : sys.pton6 t = some a) (p : UInt16) :
    sys.Reads6 t a p := by
  have hport : ∀ out, sys.inetPton6 (['['] ++ t.1 ++ [']'] ++ [':'] ++ decimal p.toNat) out =
      some (.success, ⟨a, p⟩) :=
    fun out => (sys.inetPton6_port t.1 p out).trans (congrArg some (parse6_of_pton6 h _))
  have hbare : ∀ out, sys.inetPton6 t.1 out = some (.success, ⟨a, out.port⟩) :=
    fun out => (sys.inetPton6_bare out (hsys.bracket_notMem h).2).trans
      (congrArg some (parse6_of_pton6 h _))
  exact ⟨hport, hbare,
    fun junk out => ⟨_, inetPton_of_inetPton6 junk out (hport _), Endpoint.ipv6_ofIPv6 _⟩,
    fun junk out => ⟨_, inetPton_of_inetPton6 junk out (hbare _), Endpoint.ipv6_ofIPv6 _⟩⟩

/-- **Every text that the system accepts for an address is read by the library**, alone and with any
port, and what `inet_ntop` writes for an endpoint `inet_pton` reads back, in both families. -/
theorem inetPton_reads (hsys : sys.Lawful) :
    (∀ t a p, sys.pton4 t = some a → sys.Reads4 t a p) ∧
    (∀ t a p, sys.pton6 t = some a → sys.Reads6 t a p) ∧
    (∀ e junk out, ∃ e', sys.inetPton .ipv4 (sys.inetNtop .ipv4 e) junk out = some (.success, e') ∧
      e'.ipv4 = e.ipv4) ∧
    ∀ e junk out, ∃ e', sys.inetPton .ipv6 (sys.inetNtop .ipv6 e) junk out = some (.success, e') ∧
      e'.ipv6 = e.ipv6 := by
  refine ⟨fun t a p h => reads4 hsys h p, fun t a p h => reads6 hsys h p, fun e junk out => ?_,
    fun e junk out => ?_⟩
  · exact ⟨_, inetPton_of_inetPton4 junk out (inetPton4_inetNtop4 hsys e.ipv4 (.any 0)),
      Endpoint.ipv4_ofIPv4 _ junk⟩
  · exact ⟨_, inetPton_of_inetPton6 junk out (inetPton6_inetNtop6 hsys e.ipv6 (.any 0)),
      Endpoint.ipv6_ofIPv6 _⟩

end Read

/-! ### A system that compresses nothing

It writes the four octets in decimal, or the eight groups in hexadecimal, and reads only what it
writes. -/

/-- The octets of an IPv4 address. -/
def octets4 (a : Bytes 4) : List ℕ := List.ofFn fun i => (a i).toNat

/-- The groups of an IPv6 address. -/
def groups6 (a : Bytes 16) : List ℕ :=
  List.ofFn fun i : Fin 8 => 256 * (a ⟨2 * i, by omega⟩).toNat + (a ⟨2 * i + 1, by omega⟩).toNat

/-- The IPv4 address with given octets. -/
def ofOctets4 (ns : List ℕ) : Bytes 4 := fun i => .ofNat (ns.getD i 0)

/-- The IPv6 address with given groups. -/
def ofGroups6 (ns : List ℕ) : Bytes 16 := fun i =>
  .ofNat (if i.1 % 2 = 0 then ns.getD (i / 2) 0 / 256 else ns.getD (i / 2) 0 % 256)

theorem ofOctets4_octets4 (a : Bytes 4) : ofOctets4 (octets4 a) = a := by
  funext i
  fin_cases i <;> simp [ofOctets4, octets4]

theorem ofGroups6_groups6 (a : Bytes 16) : ofGroups6 (groups6 a) = a := by
  have hhigh : ∀ x y : UInt8, UInt8.ofNat ((256 * x.toNat + y.toNat) / 256) = x := by
    intro x y
    have hy : y.toNat < 256 := y.toNat_lt
    rw [show (256 * x.toNat + y.toNat) / 256 = x.toNat by omega, UInt8.ofNat_toNat]
  have hlow : ∀ x y : UInt8, UInt8.ofNat ((256 * x.toNat + y.toNat) % 256) = y := by
    intro x y
    have hy : y.toNat < 256 := y.toNat_lt
    rw [show (256 * x.toNat + y.toNat) % 256 = y.toNat by omega, UInt8.ofNat_toNat]
  funext i
  fin_cases i <;> first | exact hhigh _ _ | exact hlow _ _

/-- The text of an IPv4 address. -/
def dotted (a : Bytes 4) : CString :=
  ⟨joinNumbers 10 '.' (octets4 a),
    notMem_joinNumbers (by decide) (by decide) (by decide) (by decide)⟩

/-- The text of an IPv6 address. -/
def grouped (a : Bytes 16) : CString :=
  ⟨joinNumbers 16 ':' (groups6 a),
    notMem_joinNumbers (by decide) (by decide) (by decide) (by decide)⟩

/-- The system. -/
def uncompressed : InetSystem where
  ntop4 a := some (dotted a)
  ntop6 a := some (grouped a)
  pton4 t :=
    let a := ofOctets4 (splitNumbers 10 '.' t.1)
    if t = dotted a then some a else none
  pton6 t :=
    let a := ofGroups6 (splitNumbers 16 ':' t.1)
    if t = grouped a then some a else none

theorem pton4_uncompressed {t : CString} {a : Bytes 4} :
    uncompressed.pton4 t = some a ↔ t = dotted a := by
  have hread : ofOctets4 (splitNumbers 10 '.' (dotted a).1) = a := by
    refine Eq.trans ?_ (ofOctets4_octets4 a)
    exact congrArg ofOctets4
      (splitNumbers_joinNumbers (by decide) (by decide) (by decide) (List.cons_ne_nil _ _))
  constructor
  · intro h
    obtain ⟨ht, h⟩ := Option.ite_none_right_eq_some.mp h
    exact Option.some.inj h ▸ ht
  · rintro rfl
    simp only [uncompressed]
    rw [hread, if_pos rfl]

theorem pton6_uncompressed {t : CString} {a : Bytes 16} :
    uncompressed.pton6 t = some a ↔ t = grouped a := by
  have hread : ofGroups6 (splitNumbers 16 ':' (grouped a).1) = a := by
    refine Eq.trans ?_ (ofGroups6_groups6 a)
    exact congrArg ofGroups6
      (splitNumbers_joinNumbers (by decide) (by decide) (by decide) (List.cons_ne_nil _ _))
  constructor
  · intro h
    obtain ⟨ht, h⟩ := Option.ite_none_right_eq_some.mp h
    exact Option.some.inj h ▸ ht
  · rintro rfl
    simp only [uncompressed]
    rw [hread, if_pos rfl]

theorem uncompressed_lawful : uncompressed.Lawful where
  ntop4_pton4 a := ⟨dotted a, rfl, pton4_uncompressed.mpr rfl⟩
  ntop6_pton6 a := ⟨grouped a, rfl, pton6_uncompressed.mpr rfl⟩
  dot_mem h := by
    rw [pton4_uncompressed.mp h]
    exact separator_mem_joinNumbers 10 '.' _ _ _
  colon_notMem h := by
    rw [pton4_uncompressed.mp h]
    exact notMem_joinNumbers (by decide) (by decide) (by decide) (by decide)
  bracket_notMem h := by
    rw [pton6_uncompressed.mp h]
    exact ⟨notMem_joinNumbers (by decide) (by decide) (by decide) (by decide),
      notMem_joinNumbers (by decide) (by decide) (by decide) (by decide)⟩

/-- `192.0.2.1:80` and `[2001:db8:1:2:3:4:5:6]:443`. -/
theorem inetPton_reads_uncompressed :
    (∃ e, uncompressed.inetPton .ipv4 "192.0.2.1:80".toList zeroMemory (.empty zeroMemory) =
      some (.success, e) ∧ e.ipv4 = ⟨![192, 0, 2, 1], 80⟩) ∧
    ∃ e, uncompressed.inetPton .ipv6 "[2001:db8:1:2:3:4:5:6]:443".toList zeroMemory
      (.empty zeroMemory) = some (.success, e) ∧
      e.ipv6 = ⟨![0x20, 0x01, 0x0d, 0xb8, 0, 1, 0, 2, 0, 3, 0, 4, 0, 5, 0, 6], 443⟩ :=
  ⟨((inetPton_reads uncompressed_lawful).1 (dotted ![192, 0, 2, 1]) _ 80
      (pton4_uncompressed.mpr rfl)).endpoint zeroMemory _,
    ((inetPton_reads uncompressed_lawful).2.1
      (grouped ![0x20, 0x01, 0x0d, 0xb8, 0, 1, 0, 2, 0, 3, 0, 4, 0, 5, 0, 6]) _ 443
      (pton6_uncompressed.mpr rfl)).endpoint zeroMemory _⟩

end InetSystem

end FirelinkNet
