import FirelinkNet.InetText
import FirelinkNet.Lib.Numeral

/-!
# Socket addresses as text

`WinSocket` has converters of its own between socket addresses and text, with the address
and the port in two strings: `addr_to_str`, `port_to_str` and `addr_and_port_to_str` one
way, `str_to_addr4` and `str_to_addr6` the other. The port is read by `strtol`, and an IPv4
text can be made an IPv6 address.

## The model

A `std::string_view` is a text and what stands after it in memory: the readers take `data()`
for a C string, and read on to the first NUL. `InetNtopA` and `InetPtonA` are the system's
own functions (`InetSystem`); what they do when they fail is `InetFailures`, and that a rejected
text is not written for is assumed where it is needed (`InetFailures.Silent`). A pointer that may
be null is an `Option`.

## What is proved

* `strToAddr_writes_iff` — **what the readers accept, and what it denotes**.
* `strToAddr_untouched_iff` — **what a failed read leaves**: the address of the text, without
  its port, when only the port is not accepted.
* `strToAddr_addrAndPortToStr` — **there and back**: an address and its port come back from
  their texts.
* `writers_agree`, `readers_agree` — **the two text layers agree**: these converters and
  `inet_ntop` and `inet_pton` write the same texts, and make the same socket addresses of
  them, but for the bytes that these readers do not write.
-/

namespace FirelinkNet

open Lib.Text

/-- `SOCKADDR_IN`. -/
abbrev SockaddrIn := Bytes 16

/-- `SOCKADDR_IN6`. -/
abbrev SockaddrIn6 := Bytes 28

/-- A storage that holds a socket address, and nothing else. -/
def storageOf {n : ℕ} (addr : Bytes n) : SockaddrStorage := copyMemory zeroMemory 0 addr

/-- `std::string_view`. -/
structure StringView where
  /-- Its characters. -/
  text : List Char
  /-- What stands after them in memory. -/
  rest : List Char

/-- `std::string_view::data`, for a function that takes a C string. -/
def StringView.data (v : StringView) : CString := cString (v.text ++ v.rest)

/-- The view of a C string, or of a `std::string`: a NUL stands after it. -/
def StringView.of (t : List Char) : StringView := ⟨t, ['\x00']⟩

/-- What the system does when it fails. -/
structure InetFailures where
  /-- `InetNtopA`, which returned a null pointer: the error. -/
  ntop : OsError
  /-- `InetPtonA(AF_INET, …)`, which returned -1: the error; `none` when it returned 0. -/
  pton4 : CString → Option OsError
  /-- `InetPtonA(AF_INET6, …)`. -/
  pton6 : CString → Option OsError
  /-- What `InetPtonA(AF_INET, …)` leaves at its destination. -/
  left4 : CString → Bytes 4 → Bytes 4
  /-- What `InetPtonA(AF_INET6, …)` leaves there. -/
  left6 : CString → Bytes 16 → Bytes 16

/-- `InetPtonA` does not write to its destination when it does not accept the text. -/
structure InetFailures.Silent (err : InetFailures) : Prop where
  left4 : ∀ t a, err.left4 t a = a
  left6 : ∀ t a, err.left6 t a = a

/-- A system that returns 0 for every text that it does not accept, and writes nothing. -/
def InetFailures.unwritten : InetFailures := ⟨.noBufs, fun _ => none, fun _ => none, fun _ a => a, fun _ a => a⟩

theorem InetFailures.silent_unwritten : InetFailures.unwritten.Silent := ⟨fun _ _ => rfl, fun _ _ => rfl⟩

/-- `sprintf_s(buffer, size, "%u", n)`; `none` when it does not fit. -/
def sprintfU (size n : ℕ) : Option (List Char) := if (decimal n).length < size then some (decimal n) else none

/-- `WinSocket::port_to_str`; the port is in network order. -/
def portToStr (port : UInt16) : List Char := (sprintfU 10 (htons port).toNat).getD []

/-- `IN6ADDR_SETV4MAPPED`, with an unspecified scope; the port is in network order. -/
def in6addrSetV4Mapped (a : Bytes 4) (port : UInt16) : SockaddrIn6 :=
  let addr : SockaddrIn6 := copyMemory zeroMemory 0 (storeWord afInet6)
  let addr := copyMemory addr 2 (storeWord port)
  let addr := copyMemory addr 18 (![0xff, 0xff] : Bytes 2)
  copyMemory addr 20 a

/-- How `str_to_addr4` and `str_to_addr6` read a port. -/
def strToPort (portStr : StringView) : Except ErrorCode UInt16 :=
  let port64 := strtol portStr.data.1
  if port64 > 65535 ∨ port64 < 0 then .error .invalidArgument
  else if port64 = 0 ∧ portStr.data.1 ≠ ['0'] then .error .systemError
  else .ok port64.toUInt32.toUInt16

namespace InetSystem

variable (sys : InetSystem) (err : InetFailures)

/-- `WinSocket::addr_to_str`. -/
def addrToStr : Option SockaddrStorage → List Char
  | none => []
  | some addr =>
    let res :=
      if ssFamily addr = afInet then sys.ntop4 (sinAddr addr)
      else if ssFamily addr = afInet6 then sys.ntop6 (sin6Addr addr)
      else none
    match res with
    | none => []
    | some buffer => buffer.1

/-- The end of `addr_and_port_to_str` in either family: what `InetNtopA` returned, and the port in host
order. -/
def textOf (buffer : Option CString) (port : UInt16) (addrStr portStr : List Char) :
    ErrorCode × List Char × List Char :=
  match buffer with
  | none => (err.ntop.toErrorCode, addrStr, portStr)
  | some addrBuffer =>
    match sprintfU 10 port.toNat with
    | none => (.systemError, addrStr, portStr)
    | some portBuffer => (.success, addrBuffer.1, portBuffer)

/-- `WinSocket::addr_and_port_to_str`: the code, and what it leaves in the two strings. -/
def addrAndPortToStr (addr : Option SockaddrStorage) (addrStr portStr : List Char) :
    ErrorCode × List Char × List Char :=
  match addr with
  | none => (.invalidArgument, addrStr, portStr)
  | some addr =>
    if ssFamily addr = afInet then textOf err (sys.ntop4 (sinAddr addr)) (sinPort addr) addrStr portStr
    else if ssFamily addr = afInet6 then textOf err (sys.ntop6 (sin6Addr addr)) (sinPort addr) addrStr portStr
    else (.addressFamilyNotSupported, addrStr, portStr)

/-- `WinSocket::str_to_addr4`: the code, and what it leaves at `addr`. -/
def strToAddr4 (addrStr portStr : StringView) (addr : Option SockaddrIn) : ErrorCode × Option SockaddrIn :=
  match addr with
  | none => (.invalidArgument, none)
  | some addr =>
    match sys.pton4 addrStr.data with
    | some a =>
      let addr := copyMemory addr 4 a
      match strToPort portStr with
      | .error e => (e, some addr)
      | .ok port =>
        let addr := copyMemory addr 2 (storeWord (htons port))
        (.success, some (copyMemory addr 0 (storeWord afInet)))
    | none =>
      let addr := copyMemory addr 4 (err.left4 addrStr.data (sinAddr (storageOf addr)))
      match err.pton4 addrStr.data with
      | none => (.invalidArgument, some addr)
      | some e => (e.toErrorCode, some addr)

/-- `WinSocket::str_to_addr6`. -/
def strToAddr6 (srcAddrFamily : AddressFamily) (srcAddrStr srcPortStr : StringView) (dstAddr : Option SockaddrIn6) :
    ErrorCode × Option SockaddrIn6 :=
  match dstAddr with
  | none => (.invalidArgument, none)
  | some dstAddr =>
    if srcAddrFamily = .ipv4 then
      let res := sys.strToAddr4 err srcAddrStr srcPortStr (some zeroMemory)
      let temp := res.2.getD zeroMemory
      if res.1 ≠ .success then (res.1, some dstAddr)
      else (.success, some (in6addrSetV4Mapped (sinAddr (storageOf temp)) (loadWord (temp 2) (temp 3))))
    else
      match sys.pton6 srcAddrStr.data with
      | some a =>
        let dstAddr := copyMemory dstAddr 8 a
        match strToPort srcPortStr with
        | .error e => (e, some dstAddr)
        | .ok port =>
          let dstAddr := copyMemory dstAddr 2 (storeWord (htons port))
          (.success, some (copyMemory dstAddr 0 (storeWord afInet6)))
      | none =>
        let dstAddr := copyMemory dstAddr 8 (err.left6 srcAddrStr.data (sin6Addr (storageOf dstAddr)))
        match err.pton6 srcAddrStr.data with
        | none => (.invalidArgument, some dstAddr)
        | some _ => (.systemError, some dstAddr)

end InetSystem

/-! ### Ports -/

/-- A port fits the buffer that it is written to. -/
theorem sprintfU_port (p : UInt16) : sprintfU 10 p.toNat = some (decimal p.toNat) := by
  have hlen : (decimal p.toNat).length ≤ 5 :=
    (Nat.length_toDigits_le_iff (by decide) (by decide)).mpr (lt_of_lt_of_le p.toNat_lt (by decide))
  exact if_pos (by omega)

/-- The texts that are accepted for a port: `0` alone, or a text that starts with a positive number, after
spaces and perhaps a plus sign. -/
def StringView.Port (v : StringView) (p : UInt16) : Prop :=
  (p = 0 ∧ v.data.1 = ['0']) ∨
    (0 < p.toNat ∧ ∃ ds, Starts v.data.1 ds ∧ Nat.ofDigitChars 10 ds 0 = p.toNat)

/-- A number that is accepted is not changed by the casts. -/
theorem toNat_port {n : Int32} (h₀ : 0 ≤ n.toInt) (h₁ : n.toInt ≤ 65535) :
    (n.toUInt32.toUInt16.toNat : ℤ) = n.toInt := by
  rw [UInt32.toNat_toUInt16]
  have hnat : (n.toUInt32.toNat : ℤ) = n.toInt := by
    have hmod : n.toInt = (n.toUInt32.toNat : ℤ).bmod (2 ^ 32) := BitVec.toInt_eq_toNat_bmod _
    have hlt : n.toUInt32.toNat < 2 ^ 32 := n.toUInt32.toNat_lt
    rw [Int.bmod_def] at hmod
    split at hmod <;> omega
  omega

/-- The number that is accepted is the one that the text starts with. -/
theorem strToPort_eq_ok {v : StringView} {p : UInt16} : strToPort v = .ok p ↔
    leadingNumber v.data.1 = p.toNat ∧ (p.toNat = 0 → v.data.1 = ['0']) := by
  have hval := toInt_strtol v.data.1
  have hgt : strtol v.data.1 > 65535 ↔ 65535 < (strtol v.data.1).toInt := Int32.lt_iff_toInt_lt
  have hlt : strtol v.data.1 < 0 ↔ (strtol v.data.1).toInt < 0 := Int32.lt_iff_toInt_lt
  have hzero : strtol v.data.1 = 0 ↔ (strtol v.data.1).toInt = 0 := Int32.toInt_inj.symm
  have hp : p.toNat < 65536 := p.toNat_lt
  unfold strToPort
  simp only [hgt, hlt, hzero]
  split_ifs with hbad hnone
  · refine ⟨nofun, fun ⟨hn, _⟩ => ?_⟩
    omega
  · refine ⟨nofun, fun ⟨hn, h0⟩ => absurd (h0 ?_) hnone.2⟩
    omega
  · have hport := toNat_port (n := strtol v.data.1) (by omega) (by omega)
    have hnum : leadingNumber v.data.1 = (strtol v.data.1).toInt := by omega
    rw [Except.ok.injEq, ← UInt16.toNat_inj, hnum, ← hport, Int.ofNat_inj]
    refine ⟨fun h => ⟨h, fun h0 => ?_⟩, fun h => h.1⟩
    by_contra hne
    exact hnone ⟨by omega, hne⟩

/-- **Which texts are accepted for a port, and as which.** -/
theorem strToPort_eq_ok_iff {v : StringView} {p : UInt16} : strToPort v = .ok p ↔ v.Port p := by
  have hp0 : p = 0 ↔ p.toNat = 0 := UInt16.toNat_inj.symm
  rw [strToPort_eq_ok, StringView.Port, hp0]
  rcases Nat.eq_zero_or_pos p.toNat with h0 | hpos
  · have hnum : v.data.1 = ['0'] → leadingNumber v.data.1 = 0 := by
      intro h
      rw [h]
      rfl
    simp only [h0, true_and, lt_irrefl, false_and, or_false, forall_const, Nat.cast_zero]
    exact ⟨fun h => h.2, fun h => ⟨hnum h, h⟩⟩
  · rw [leadingNumber_eq_iff hpos]
    simp only [hpos.ne', hpos, false_and, true_and, false_or, false_imp_iff, and_true]

/-- Neither the spaces nor what follows the number is looked at. -/
example : strToPort (.of "  +80/tcp".toList) = .ok 80 := by rfl

/-- A text that is not accepted is an error. -/
theorem strToPort_error {v : StringView} {e : ErrorCode} (h : strToPort v = .error e) :
    e ≠ .success ∧ ∀ p, ¬ v.Port p := by
  refine ⟨?_, fun p hp => ?_⟩
  · unfold strToPort at h
    dsimp only at h
    split_ifs at h <;> cases h <;> decide
  · rw [strToPort_eq_ok_iff.mpr hp] at h
    cases h

/-- A C string is read to its end. -/
@[simp] theorem StringView.data_of (t : CString) : (StringView.of t.1).data = t := by
  refine Subtype.ext (takeWhile_append_of_head (fun c hc => ?_) ?_)
  · exact decide_eq_true fun h : c = '\x00' => t.2 (h ▸ hc)
  · rintro c ⟨⟩
    rfl

/-- A port is accepted as it is written. -/
theorem port_decimal (p : UInt16) : (StringView.of (decimal p.toNat)).Port p := by
  have hdata : (StringView.of (decimal p.toNat)).data.1 = decimal p.toNat :=
    congrArg Subtype.val (StringView.data_of ⟨decimal p.toNat, notMem_decimal rfl⟩)
  rw [← strToPort_eq_ok_iff, strToPort_eq_ok, hdata, leadingNumber_decimal]
  refine ⟨rfl, fun h => ?_⟩
  rw [h]
  rfl

/-! ### What is written -/

/-- The IPv4-mapped IPv6 address, `::ffff:a`. -/
def v4Mapped (a : Bytes 4) : Bytes 16 := copyMemory (copyMemory zeroMemory 10 (![0xff, 0xff] : Bytes 2)) 12 a

/-- What `str_to_addr4` writes. -/
def put4 (addr : SockaddrIn) (a : Bytes 4) (p : UInt16) : SockaddrIn :=
  copyMemory (copyMemory (copyMemory addr 4 a) 2 (storeWord (htons p))) 0 (storeWord afInet)

/-- What `str_to_addr6` writes for an IPv6 text. -/
def put6 (addr : SockaddrIn6) (a : Bytes 16) (p : UInt16) : SockaddrIn6 :=
  copyMemory (copyMemory (copyMemory addr 8 a) 2 (storeWord (htons p))) 0 (storeWord afInet6)

section Put

variable (p : UInt16)

theorem ntohs_htons : htons (loadWord (storeWord (htons p) 0) (storeWord (htons p) 1)) = p := by
  rw [loadWord_storeWord, htons_htons]

theorem target_put4 (addr : SockaddrIn) (a : Bytes 4) : target (storageOf (put4 addr a p)) = .ipv4 ⟨a, p⟩ := by
  have hfamily : ssFamily (storageOf (put4 addr a p)) = afInet := loadWord_storeWord afInet
  have hport : sinPort (storageOf (put4 addr a p)) = p := ntohs_htons p
  have haddr : sinAddr (storageOf (put4 addr a p)) = a := by
    funext i
    fin_cases i <;> rfl
  rw [target, if_pos hfamily, hport, haddr]

theorem target_put6 (addr : SockaddrIn6) (a : Bytes 16) :
    target (storageOf (put6 addr a p)) = .ipv6 ⟨a, p⟩ (sin6ScopeId (storageOf addr)) := by
  have hfamily : ssFamily (storageOf (put6 addr a p)) = afInet6 := loadWord_storeWord afInet6
  have hport : sinPort (storageOf (put6 addr a p)) = p := ntohs_htons p
  have haddr : sin6Addr (storageOf (put6 addr a p)) = a := by
    funext i
    fin_cases i <;> rfl
  have hscope : sin6ScopeId (storageOf (put6 addr a p)) = sin6ScopeId (storageOf addr) := by
    funext i
    fin_cases i <;> rfl
  rw [target, if_neg (by rw [hfamily]; decide), if_pos hfamily, hport, haddr, hscope]

theorem target_v4Mapped (a : Bytes 4) :
    target (storageOf (in6addrSetV4Mapped a (htons p))) = .ipv6 ⟨v4Mapped a, p⟩ zeroMemory := by
  have hfamily : ssFamily (storageOf (in6addrSetV4Mapped a (htons p))) = afInet6 := loadWord_storeWord afInet6
  have hport : sinPort (storageOf (in6addrSetV4Mapped a (htons p))) = p := ntohs_htons p
  have haddr : sin6Addr (storageOf (in6addrSetV4Mapped a (htons p))) = v4Mapped a := by
    funext i
    fin_cases i <;> rfl
  have hscope : sin6ScopeId (storageOf (in6addrSetV4Mapped a (htons p))) = zeroMemory := by
    funext i
    fin_cases i <;> rfl
  rw [target, if_neg (by rw [hfamily]; decide), if_pos hfamily, hport, haddr, hscope]

end Put

namespace InetSystem

variable {sys : InetSystem} {err : InetFailures} {addrStr portStr : StringView}

/-! ### The readers -/

/-- **What `str_to_addr4` does**: it writes the address and the port that it accepts, the address alone when
it does not accept the port, and what the system leaves when that does not accept the address. -/
theorem strToAddr4_cases (sys : InetSystem) (err : InetFailures) (addrStr portStr : StringView)
    (addr : SockaddrIn) :
    (∃ a p, sys.pton4 addrStr.data = some a ∧ portStr.Port p ∧
      sys.strToAddr4 err addrStr portStr (some addr) = (.success, some (put4 addr a p))) ∨
    (∃ a e, sys.pton4 addrStr.data = some a ∧ (∀ p, ¬ portStr.Port p) ∧ e ≠ .success ∧
      sys.strToAddr4 err addrStr portStr (some addr) = (e, some (copyMemory addr 4 a))) ∨
    (∃ e, sys.pton4 addrStr.data = none ∧ e ≠ .success ∧ sys.strToAddr4 err addrStr portStr (some addr) =
      (e, some (copyMemory addr 4 (err.left4 addrStr.data (sinAddr (storageOf addr)))))) := by
  unfold strToAddr4
  dsimp only
  cases ha : sys.pton4 addrStr.data with
  | some a =>
    cases hp : strToPort portStr with
    | ok p => exact .inl ⟨a, p, rfl, strToPort_eq_ok_iff.mp hp, rfl⟩
    | error e =>
      obtain ⟨hne, hport⟩ := strToPort_error hp
      exact .inr (.inl ⟨a, e, rfl, hport, hne, rfl⟩)
  | none =>
    cases he : err.pton4 addrStr.data with
    | none => exact .inr (.inr ⟨_, rfl, by decide, rfl⟩)
    | some e => exact .inr (.inr ⟨_, rfl, e.toErrorCode_ne, rfl⟩)

/-- **What `str_to_addr6` does with an IPv6 text.** -/
theorem strToAddr6_cases (sys : InetSystem) (err : InetFailures) (addrStr portStr : StringView)
    (addr : SockaddrIn6) {family : AddressFamily} (hf : family ≠ .ipv4) :
    (∃ a p, sys.pton6 addrStr.data = some a ∧ portStr.Port p ∧
      sys.strToAddr6 err family addrStr portStr (some addr) = (.success, some (put6 addr a p))) ∨
    (∃ a e, sys.pton6 addrStr.data = some a ∧ (∀ p, ¬ portStr.Port p) ∧ e ≠ .success ∧
      sys.strToAddr6 err family addrStr portStr (some addr) = (e, some (copyMemory addr 8 a))) ∨
    (∃ e, sys.pton6 addrStr.data = none ∧ e ≠ .success ∧ sys.strToAddr6 err family addrStr portStr (some addr) =
      (e, some (copyMemory addr 8 (err.left6 addrStr.data (sin6Addr (storageOf addr)))))) := by
  unfold strToAddr6
  dsimp only
  rw [if_neg hf]
  cases ha : sys.pton6 addrStr.data with
  | some a =>
    cases hp : strToPort portStr with
    | ok p => exact .inl ⟨a, p, rfl, strToPort_eq_ok_iff.mp hp, rfl⟩
    | error e =>
      obtain ⟨hne, hport⟩ := strToPort_error hp
      exact .inr (.inl ⟨a, e, rfl, hport, hne, rfl⟩)
  | none =>
    cases he : err.pton6 addrStr.data with
    | none => exact .inr (.inr ⟨_, rfl, by decide, rfl⟩)
    | some e => exact .inr (.inr ⟨_, rfl, by decide, rfl⟩)

/-- **What it does with an IPv4 text**: it writes the whole address, or nothing. -/
theorem strToAddr6_mapped_cases (sys : InetSystem) (err : InetFailures) (addrStr portStr : StringView)
    (addr : SockaddrIn6) :
    (∃ a p, sys.pton4 addrStr.data = some a ∧ portStr.Port p ∧
      sys.strToAddr6 err .ipv4 addrStr portStr (some addr) = (.success, some (in6addrSetV4Mapped a (htons p)))) ∨
    (∃ e, (∀ a p, sys.pton4 addrStr.data = some a → ¬ portStr.Port p) ∧ e ≠ .success ∧
      sys.strToAddr6 err .ipv4 addrStr portStr (some addr) = (e, some addr)) := by
  unfold strToAddr6
  dsimp only
  rw [if_pos rfl]
  rcases strToAddr4_cases sys err addrStr portStr zeroMemory with ⟨a, p, ha, hp, heq⟩ |
    ⟨a, e, ha, hp, hne, heq⟩ | ⟨e, ha, hne, heq⟩ <;> rw [heq]
  · refine .inl ⟨a, p, ha, hp, ?_⟩
    have haddr : sinAddr (storageOf (put4 zeroMemory a p)) = a := by
      funext i
      fin_cases i <;> rfl
    have hport : loadWord (put4 zeroMemory a p 2) (put4 zeroMemory a p 3) = htons p := loadWord_storeWord (htons p)
    rw [if_neg (by simp), Option.getD_some, haddr, hport]
  · refine .inr ⟨e, fun a' p _ => hp p, hne, ?_⟩
    rw [if_pos hne]
  · refine .inr ⟨e, fun a p ha' => ?_, hne, ?_⟩
    · rw [ha] at ha'
      cases ha'
    · rw [if_pos hne]

/-- A reader succeeds, and leaves a socket address that denotes `d`. -/
def Writes {n : ℕ} (r : ErrorCode × Option (Bytes n)) (d : Target) : Prop :=
  r.1 = .success ∧ r.2.map (fun addr => target (storageOf addr)) = some d

theorem writes_success {n : ℕ} {addr : Bytes n} {d : Target} (h : target (storageOf addr) = d) :
    Writes (.success, some addr) d := ⟨rfl, congrArg some h⟩

/-- A text is accepted for one port only. -/
theorem port_unique {v : StringView} {p p' : UInt16} (h : v.Port p) (h' : v.Port p') : p = p' := by
  have hok := strToPort_eq_ok_iff.mpr h
  rw [strToPort_eq_ok_iff.mpr h'] at hok
  exact (Except.ok.inj hok).symm

/-- A reader that writes what `x` says, with an accepted port, and fails otherwise. -/
theorem writes_iff {n : ℕ} {α : Type} {r : ErrorCode × Option (Bytes n)} {x : Option α} {v : StringView}
    {f : α → UInt16 → Target} {d : Target}
    (h : (∃ a p, x = some a ∧ v.Port p ∧ Writes r (f a p)) ∨
      (∀ a p, x = some a → ¬ v.Port p) ∧ r.1 ≠ .success) :
    Writes r d ↔ ∃ a p, x = some a ∧ v.Port p ∧ d = f a p := by
  rcases h with ⟨a, p, ha, hp, hw⟩ | ⟨hno, hne⟩
  · constructor
    · intro hd
      exact ⟨a, p, ha, hp, Option.some.inj (hd.2.symm.trans hw.2)⟩
    · rintro ⟨a', p', ha', hp', rfl⟩
      cases ha.symm.trans ha'
      rwa [port_unique hp' hp]
  · constructor
    · intro hd
      exact absurd hd.1 hne
    · rintro ⟨a, p, ha, hp, -⟩
      exact absurd hp (hno a p ha)

section Accepted

variable (sys : InetSystem) (err : InetFailures) (addrStr portStr : StringView) (d : Target)

theorem writes_strToAddr4 (addr : SockaddrIn) : Writes (sys.strToAddr4 err addrStr portStr (some addr)) d ↔
    ∃ a p, sys.pton4 addrStr.data = some a ∧ portStr.Port p ∧ d = .ipv4 ⟨a, p⟩ := by
  refine writes_iff ?_
  rcases strToAddr4_cases sys err addrStr portStr addr with ⟨a, p, ha, hp, heq⟩ |
    ⟨a, e, ha, hp, hne, heq⟩ | ⟨e, ha, hne, heq⟩ <;> rw [heq]
  · exact .inl ⟨a, p, ha, hp, writes_success (target_put4 p addr a)⟩
  · exact .inr ⟨fun _ p _ => hp p, hne⟩
  · exact .inr ⟨fun a _ ha' => (Option.some_ne_none a (ha'.symm.trans ha)).elim, hne⟩

theorem writes_strToAddr6_mapped (addr : SockaddrIn6) :
    Writes (sys.strToAddr6 err .ipv4 addrStr portStr (some addr)) d ↔
      ∃ a p, sys.pton4 addrStr.data = some a ∧ portStr.Port p ∧ d = .ipv6 ⟨v4Mapped a, p⟩ zeroMemory := by
  refine writes_iff ?_
  rcases strToAddr6_mapped_cases sys err addrStr portStr addr with ⟨a, p, ha, hp, heq⟩ | ⟨e, hno, hne, heq⟩ <;>
    rw [heq]
  · exact .inl ⟨a, p, ha, hp, writes_success (target_v4Mapped p a)⟩
  · exact .inr ⟨hno, hne⟩

theorem writes_strToAddr6 {family : AddressFamily} (hf : family ≠ .ipv4) (addr : SockaddrIn6) :
    Writes (sys.strToAddr6 err family addrStr portStr (some addr)) d ↔
      ∃ a p, sys.pton6 addrStr.data = some a ∧ portStr.Port p ∧
        d = .ipv6 ⟨a, p⟩ (sin6ScopeId (storageOf addr)) := by
  refine writes_iff ?_
  rcases strToAddr6_cases sys err addrStr portStr addr hf with ⟨a, p, ha, hp, heq⟩ |
    ⟨a, e, ha, hp, hne, heq⟩ | ⟨e, ha, hne, heq⟩ <;> rw [heq]
  · exact .inl ⟨a, p, ha, hp, writes_success (target_put6 p addr a)⟩
  · exact .inr ⟨fun _ p _ => hp p, hne⟩
  · exact .inr ⟨fun a _ ha' => (Option.some_ne_none a (ha'.symm.trans ha)).elim, hne⟩

/-- **What the readers accept, and what it denotes.** `str_to_addr4` and `str_to_addr6` accept the address texts
that the system accepts with the port texts of `StringView.Port`, up to the first NUL that follows in memory, and no
others; they never reduce a number to make it a port. An IPv4 text denotes the mapped address in IPv6, and an IPv6 text
is taken in the scope that the address had before. -/
theorem strToAddr_writes_iff :
    (∀ addr, Writes (sys.strToAddr4 err addrStr portStr (some addr)) d ↔
      ∃ a p, sys.pton4 addrStr.data = some a ∧ portStr.Port p ∧ d = .ipv4 ⟨a, p⟩) ∧
    (∀ addr, Writes (sys.strToAddr6 err .ipv4 addrStr portStr (some addr)) d ↔
      ∃ a p, sys.pton4 addrStr.data = some a ∧ portStr.Port p ∧ d = .ipv6 ⟨v4Mapped a, p⟩ zeroMemory) ∧
    ∀ family, family ≠ .ipv4 → ∀ addr, Writes (sys.strToAddr6 err family addrStr portStr (some addr)) d ↔
      ∃ a p, sys.pton6 addrStr.data = some a ∧ portStr.Port p ∧
        d = .ipv6 ⟨a, p⟩ (sin6ScopeId (storageOf addr)) :=
  ⟨writes_strToAddr4 sys err addrStr portStr d, writes_strToAddr6_mapped sys err addrStr portStr d,
    fun _ hf => writes_strToAddr6 sys err addrStr portStr d hf⟩

end Accepted

/-! ### What a failure leaves -/

theorem copyMemory_sinAddr {addr : SockaddrIn} {a : Bytes 4} :
    copyMemory addr 4 a = addr ↔ a = sinAddr (storageOf addr) := by
  constructor
  · intro h
    rw [← h]
    funext i
    fin_cases i <;> rfl
  · rintro rfl
    funext i
    fin_cases i <;> rfl

theorem copyMemory_sin6Addr {addr : SockaddrIn6} {a : Bytes 16} :
    copyMemory addr 8 a = addr ↔ a = sin6Addr (storageOf addr) := by
  constructor
  · intro h
    rw [← h]
    funext i
    fin_cases i <;> rfl
  · rintro rfl
    funext i
    fin_cases i <;> rfl

/-- **What a failed read leaves**, when the system does not write what it does not accept. A reader that fails leaves
the address alone when the system does not accept the address text, and else the address of the text in it, with all
else as it was, the family and the port too; `str_to_addr6` leaves it alone in any case when it is given an IPv4
text. -/
theorem strToAddr_untouched_iff (sys : InetSystem) {err : InetFailures} (herr : err.Silent)
    (addrStr portStr : StringView) :
    (∀ addr, (sys.strToAddr4 err addrStr portStr (some addr)).1 ≠ .success →
      ((sys.strToAddr4 err addrStr portStr (some addr)).2 = some addr ↔
        ∀ a, sys.pton4 addrStr.data = some a → a = sinAddr (storageOf addr)) ∧
      ∀ a, sys.pton4 addrStr.data = some a →
        (sys.strToAddr4 err addrStr portStr (some addr)).2 = some (copyMemory addr 4 a)) ∧
    (∀ addr, (sys.strToAddr6 err .ipv4 addrStr portStr (some addr)).1 ≠ .success →
      (sys.strToAddr6 err .ipv4 addrStr portStr (some addr)).2 = some addr) ∧
    ∀ family, family ≠ .ipv4 → ∀ addr, (sys.strToAddr6 err family addrStr portStr (some addr)).1 ≠ .success →
      ((sys.strToAddr6 err family addrStr portStr (some addr)).2 = some addr ↔
        ∀ a, sys.pton6 addrStr.data = some a → a = sin6Addr (storageOf addr)) ∧
      ∀ a, sys.pton6 addrStr.data = some a →
        (sys.strToAddr6 err family addrStr portStr (some addr)).2 = some (copyMemory addr 8 a) := by
  refine ⟨fun addr hfail => ?_, fun addr hfail => ?_, fun family hf addr hfail => ?_⟩
  · rcases strToAddr4_cases sys err addrStr portStr addr with ⟨a, p, ha, hp, heq⟩ |
      ⟨a, e, ha, hp, hne, heq⟩ | ⟨e, ha, hne, heq⟩ <;> rw [heq] at hfail ⊢
    · exact absurd rfl hfail
    · rw [ha, Option.some.injEq, copyMemory_sinAddr]
      simp
    · have hkeep := copyMemory_sinAddr.mpr (herr.left4 addrStr.data (sinAddr (storageOf addr)))
      simp [ha, hkeep]
  · rcases strToAddr6_mapped_cases sys err addrStr portStr addr with ⟨a, p, ha, hp, heq⟩ | ⟨e, hno, hne, heq⟩ <;>
      rw [heq] at hfail ⊢
    exact absurd rfl hfail
  · rcases strToAddr6_cases sys err addrStr portStr addr hf with ⟨a, p, ha, hp, heq⟩ |
      ⟨a, e, ha, hp, hne, heq⟩ | ⟨e, ha, hne, heq⟩ <;> rw [heq] at hfail ⊢
    · exact absurd rfl hfail
    · rw [ha, Option.some.injEq, copyMemory_sin6Addr]
      simp
    · have hkeep := copyMemory_sin6Addr.mpr (herr.left6 addrStr.data (sin6Addr (storageOf addr)))
      simp [ha, hkeep]

/-- `192.0.2.1` with the port `http`, read to where there is another address. -/
theorem strToAddr_untouched_iff_http :
    let addr : SockaddrIn := put4 zeroMemory ![10, 0, 0, 1] 80
    let r := uncompressed.strToAddr4 .unwritten (.of (dotted ![192, 0, 2, 1]).1) (.of "http".toList) (some addr)
    r.1 = .systemError ∧ r.2 ≠ some addr ∧ r.2 = some (put4 zeroMemory ![192, 0, 2, 1] 80) := by
  intro addr r
  have ha : uncompressed.pton4 (StringView.of (dotted ![192, 0, 2, 1]).1).data = some ![192, 0, 2, 1] := by
    rw [StringView.data_of]
    exact pton4_uncompressed.mpr rfl
  have hr : r.1 = .systemError := by
    simp only [r, strToAddr4, ha]
    rfl
  obtain ⟨hiff, hleft⟩ := (strToAddr_untouched_iff uncompressed InetFailures.silent_unwritten _ _).1 addr
    (by rw [show (uncompressed.strToAddr4 .unwritten _ _ (some addr)).1 = .systemError from hr]; decide)
  refine ⟨hr, fun h => ?_, (hleft _ ha).trans (congrArg some ?_)⟩
  · exact absurd (hiff.mp h _ ha) (by decide)
  · funext i
    fin_cases i <;> rfl

/-! ### There and back -/

theorem addrAndPortToStr_inet {addr : SockaddrStorage} {t : CString} (hf : ssFamily addr = afInet)
    (ht : sys.ntop4 (sinAddr addr) = some t) (x y : List Char) :
    sys.addrAndPortToStr err (some addr) x y = (.success, t.1, decimal (sinPort addr).toNat) := by
  unfold addrAndPortToStr
  dsimp only
  rw [if_pos hf, ht, textOf, sprintfU_port]

theorem addrAndPortToStr_inet6 {addr : SockaddrStorage} {t : CString} (hf : ssFamily addr = afInet6)
    (ht : sys.ntop6 (sin6Addr addr) = some t) (x y : List Char) :
    sys.addrAndPortToStr err (some addr) x y = (.success, t.1, decimal (sinPort addr).toNat) := by
  unfold addrAndPortToStr
  dsimp only
  rw [if_neg (by rw [hf]; decide), if_pos hf, ht, textOf, sprintfU_port]

/-- **There and back.** What `addr_and_port_to_str` writes for a socket address of either family is read back as the
same address and port, whatever the strings and the address written to held before: an IPv4 address in both families,
and an IPv6 address in the scope that is there already, since the texts have none. -/
theorem strToAddr_addrAndPortToStr (hsys : sys.Lawful) (err : InetFailures) (sa : SockaddrStorage) (x y : List Char) :
    (ssFamily sa = afInet → ∃ t p, sys.addrAndPortToStr err (some sa) x y = (.success, t, p) ∧
      (∀ addr, Writes (sys.strToAddr4 err (.of t) (.of p) (some addr)) (target sa)) ∧
      ∀ addr, Writes (sys.strToAddr6 err .ipv4 (.of t) (.of p) (some addr))
        (.ipv6 ⟨v4Mapped (sinAddr sa), sinPort sa⟩ zeroMemory)) ∧
    (ssFamily sa = afInet6 → ∃ t p, sys.addrAndPortToStr err (some sa) x y = (.success, t, p) ∧
      ∀ addr, Writes (sys.strToAddr6 err .ipv6 (.of t) (.of p) (some addr))
        (.ipv6 ⟨sin6Addr sa, sinPort sa⟩ (sin6ScopeId (storageOf addr)))) := by
  refine ⟨fun hf => ?_, fun hf => ?_⟩
  · obtain ⟨t, hntop, hpton⟩ := hsys.ntop4_pton4 (sinAddr sa)
    have hread : sys.pton4 (StringView.of t.1).data = some (sinAddr sa) := by rw [StringView.data_of, hpton]
    have hport := port_decimal (sinPort sa)
    refine ⟨t.1, _, addrAndPortToStr_inet hf hntop x y, fun addr => ?_, fun addr => ?_⟩
    · refine (writes_strToAddr4 sys err _ _ _ addr).mpr ⟨_, _, hread, hport, ?_⟩
      rw [target, if_pos hf]
    · exact (writes_strToAddr6_mapped sys err _ _ _ addr).mpr ⟨_, _, hread, hport, rfl⟩
  · obtain ⟨t, hntop, hpton⟩ := hsys.ntop6_pton6 (sin6Addr sa)
    have hread : sys.pton6 (StringView.of t.1).data = some (sin6Addr sa) := by rw [StringView.data_of, hpton]
    refine ⟨t.1, _, addrAndPortToStr_inet6 hf hntop x y, fun addr => ?_⟩
    exact (writes_strToAddr6 sys err _ _ _ (by decide) addr).mpr
      ⟨_, _, hread, port_decimal (sinPort sa), rfl⟩

/-- `192.0.2.1`, port 80. -/
theorem strToAddr_addrAndPortToStr_dotted :
    let sa := (endpointToSockaddr .ipv4 (.ofIPv4 ⟨![192, 0, 2, 1], 80⟩ zeroMemory) zeroMemory).2
    let err : InetFailures := .unwritten
    ∃ t p, uncompressed.addrAndPortToStr err (some sa) [] [] = (.success, t, p) ∧
      Writes (uncompressed.strToAddr4 err (.of t) (.of p) (some zeroMemory)) (.ipv4 ⟨![192, 0, 2, 1], 80⟩) := by
  intro sa err
  obtain ⟨t, p, htext, hread, -⟩ :=
    (strToAddr_addrAndPortToStr uncompressed_lawful err sa [] []).1 (ssFamily_ipv4 _ _)
  refine ⟨t, p, htext, ?_⟩
  have hsa : target sa = .ipv4 ⟨![192, 0, 2, 1], 80⟩ := by
    rw [target_of_endpoint (.inl rfl), Endpoint.target, if_pos rfl, Endpoint.ipv4_ofIPv4]
  rw [← hsa]
  exact hread zeroMemory

/-! ### The two text layers -/

/-- **The two writers agree**: for a socket address of either family, `inet_ntop` of the endpoint that
`sockaddr_to_endpoint` makes of it is put together from the strings of `addr_and_port_to_str`, and these are what
`addr_to_str` and `port_to_str` return. -/
theorem writers_agree (hsys : sys.Lawful) (err : InetFailures) (sa : SockaddrStorage) (e : Endpoint) (x y : List Char)
    (hf : ssFamily sa = afInet ∨ ssFamily sa = afInet6) :
    ∃ t p, sys.addrAndPortToStr err (some sa) x y = (.success, t, p) ∧ sys.addrToStr (some sa) = t ∧
      portToStr (loadWord (sa 2) (sa 3)) = p ∧
      sys.inetNtop (addressFamily sa) (sockaddrToEndpoint sa e).2 =
        if ssFamily sa = afInet then t ++ [':'] ++ p else ['['] ++ t ++ [']'] ++ [':'] ++ p := by
  have hport : portToStr (loadWord (sa 2) (sa 3)) = decimal (sinPort sa).toNat := by
    show (sprintfU 10 (sinPort sa).toNat).getD [] = _
    rw [sprintfU_port, Option.getD_some]
  rcases hf with hf | hf
  · obtain ⟨t, hntop, -⟩ := hsys.ntop4_pton4 (sinAddr sa)
    refine ⟨t.1, _, addrAndPortToStr_inet hf hntop x y, ?_, hport, ?_⟩
    · unfold addrToStr
      dsimp only
      rw [if_pos hf, hntop]
    · rw [if_pos hf, addressFamily_inet hf, sockaddrToEndpoint_inet hf, inetNtop, if_pos rfl, Endpoint.ipv4_ofIPv4,
        inetNtop4, hntop]
  · have hne : ssFamily sa ≠ afInet := by
      rw [hf]
      decide
    obtain ⟨t, hntop, -⟩ := hsys.ntop6_pton6 (sin6Addr sa)
    refine ⟨t.1, _, addrAndPortToStr_inet6 hf hntop x y, ?_, hport, ?_⟩
    · unfold addrToStr
      dsimp only
      rw [if_neg hne, if_pos hf, hntop]
    · rw [if_neg hne, addressFamily_inet6 hf, sockaddrToEndpoint_inet6 hf, inetNtop, if_neg (by decide), if_pos rfl,
        Endpoint.ipv6_ofIPv6, inetNtop6, hntop]

/-- The texts of `[2001:db8:1:2:3:4:5:6]:443`. -/
theorem writers_agree_grouped :
    let sa := (endpointToSockaddr .ipv6 (.ofIPv6 ⟨![0x20, 0x01, 0x0d, 0xb8, 0, 1, 0, 2, 0, 3, 0, 4, 0, 5, 0, 6], 443⟩)
      zeroMemory).2
    let err : InetFailures := .unwritten
    ∃ t p, uncompressed.addrAndPortToStr err (some sa) [] [] = (.success, t, p) ∧
      uncompressed.inetNtop (addressFamily sa) (sockaddrToEndpoint sa (.empty zeroMemory)).2 =
        ['['] ++ t ++ [']'] ++ [':'] ++ p := by
  intro sa err
  have hf : ssFamily sa = afInet6 := ssFamily_ipv6 _ _
  obtain ⟨t, p, htext, -, -, hntop⟩ :=
    writers_agree uncompressed_lawful err sa (.empty zeroMemory) [] [] (.inr hf)
  refine ⟨t, p, htext, ?_⟩
  rwa [if_neg (by rw [hf]; decide)] at hntop

/-- **What `str_to_addr4` writes is what `endpoint_to_sockaddr` writes**: the first eight bytes. -/
theorem storageOf_put4 {e : Endpoint} {a : Bytes 4} {p : UInt16} (he : e.ipv4 = ⟨a, p⟩) (addr : SockaddrIn)
    (sa : SockaddrStorage) (i : Fin 128) : storageOf (put4 addr a p) i =
      if i.1 < 8 then (endpointToSockaddr .ipv4 e sa).2 i else storageOf addr i := by
  have hi := i.isLt
  simp only [storageOf, put4, endpointToSockaddr, he, if_true, copyMemory, zeroMemory]
  rcases lt_or_ge i.1 2 with h | h2
  · simp (disch := omega) only [dif_pos, dif_neg, if_pos]
    rfl
  rcases lt_or_ge i.1 4 with h | h4
  · simp (disch := omega) only [dif_pos, dif_neg, if_pos]
    rfl
  rcases lt_or_ge i.1 8 with h | h8
  · simp (disch := omega) only [dif_pos, dif_neg, if_pos]
    rfl
  · simp (disch := omega) only [dif_neg, if_neg]

/-- What `str_to_addr6` writes: all but the flow info and the scope. -/
theorem storageOf_put6 {e : Endpoint} {a : Bytes 16} {p : UInt16} (he : e.ipv6 = ⟨a, p⟩) (addr : SockaddrIn6)
    (sa : SockaddrStorage) (i : Fin 128) : storageOf (put6 addr a p) i =
      if i.1 < 4 ∨ 8 ≤ i.1 ∧ i.1 < 24 then (endpointToSockaddr .ipv6 e sa).2 i else storageOf addr i := by
  have hi := i.isLt
  have hne : AddressFamily.ipv6 ≠ .ipv4 := by decide
  simp only [storageOf, put6, endpointToSockaddr, he, hne, if_true, if_false, copyMemory, zeroMemory]
  rcases lt_or_ge i.1 2 with h | h2
  · simp (disch := omega) only [dif_pos, dif_neg, if_pos]
    rfl
  rcases lt_or_ge i.1 4 with h | h4
  · simp (disch := omega) only [dif_pos, dif_neg, if_pos]
    rfl
  rcases lt_or_ge i.1 8 with h | h8
  · simp (disch := omega) only [dif_neg, if_neg]
  rcases lt_or_ge i.1 24 with h | h24
  · simp (disch := omega) only [dif_pos, dif_neg, if_pos]
    rfl
  · simp (disch := omega) only [dif_neg, if_neg]

/-- `endpoint_to_sockaddr` zeroes the rest. -/
theorem endpointToSockaddr_ipv4_rest {e : Endpoint} {sa : SockaddrStorage} {i : Fin 128} (h : ¬ i.1 < 8) :
    (endpointToSockaddr .ipv4 e sa).2 i = 0 := by
  have hi := i.isLt
  simp (disch := omega) only [endpointToSockaddr, if_true, copyMemory, zeroMemory, dif_neg, dif_pos]

theorem endpointToSockaddr_ipv6_rest {e : Endpoint} {sa : SockaddrStorage} {i : Fin 128}
    (h : ¬ (i.1 < 4 ∨ 8 ≤ i.1 ∧ i.1 < 24)) : (endpointToSockaddr .ipv6 e sa).2 i = 0 := by
  have hi := i.isLt
  have hne : AddressFamily.ipv6 ≠ .ipv4 := by decide
  simp (disch := omega) only [endpointToSockaddr, hne, if_true, if_false, copyMemory, zeroMemory, dif_neg, dif_pos]

/-- The storage that holds a zeroed socket address is zeroed. -/
theorem storageOf_zeroMemory {n : ℕ} : storageOf (zeroMemory : Bytes n) = zeroMemory := by
  funext i
  simp only [storageOf, copyMemory, zeroMemory]
  exact dite_eq_right_iff.mpr fun _ => rfl

/-- **The two readers agree**: an address text that the system accepts, with any port, is made the same socket address
by `str_to_addr4` or `str_to_addr6` as by `inet_pton` and `endpoint_to_sockaddr`. The first two write to the family, the
port and the address, and leave every other byte as it was; so the two are the same byte for byte when the destination
of these was zeroed. -/
theorem readers_agree (hsys : sys.Lawful) (err : InetFailures) (p : UInt16) (junk : Bytes 18) (out : Endpoint)
    (sa : SockaddrStorage) :
    (∀ t a, sys.pton4 t = some a → ∃ e,
      sys.inetPton .ipv4 (t.1 ++ [':'] ++ decimal p.toNat) junk out = some (.success, e) ∧ ∀ dst, ∃ addr,
        sys.strToAddr4 err (.of t.1) (.of (decimal p.toNat)) (some dst) = (.success, some addr) ∧
        (∀ i, storageOf addr i = if i.1 < 8 then (endpointToSockaddr .ipv4 e sa).2 i else storageOf dst i) ∧
        (dst = zeroMemory → storageOf addr = (endpointToSockaddr .ipv4 e sa).2)) ∧
    ∀ t a, sys.pton6 t = some a → ∃ e,
      sys.inetPton .ipv6 (['['] ++ t.1 ++ [']'] ++ [':'] ++ decimal p.toNat) junk out = some (.success, e) ∧
        ∀ dst, ∃ addr,
        sys.strToAddr6 err .ipv6 (.of t.1) (.of (decimal p.toNat)) (some dst) = (.success, some addr) ∧
        (∀ i, storageOf addr i = if i.1 < 4 ∨ 8 ≤ i.1 ∧ i.1 < 24 then (endpointToSockaddr .ipv6 e sa).2 i
          else storageOf dst i) ∧
        (dst = zeroMemory → storageOf addr = (endpointToSockaddr .ipv6 e sa).2) := by
  refine ⟨fun t a ht => ?_, fun t a ht => ?_⟩
  · obtain ⟨e, hread, he⟩ := (reads4 hsys ht p).endpoint junk out
    refine ⟨e, hread, fun dst => ⟨put4 dst a p, ?_, storageOf_put4 he dst sa, ?_⟩⟩
    · simp only [strToAddr4, StringView.data_of, ht, strToPort_eq_ok_iff.mpr (port_decimal p), put4]
    · rintro rfl
      funext i
      rw [storageOf_put4 he, storageOf_zeroMemory]
      exact ite_eq_left_iff.mpr fun hrest => (endpointToSockaddr_ipv4_rest hrest).symm
  · obtain ⟨e, hread, he⟩ := (reads6 hsys ht p).endpoint junk out
    refine ⟨e, hread, fun dst => ⟨put6 dst a p, ?_, storageOf_put6 he dst sa, ?_⟩⟩
    · have hne : AddressFamily.ipv6 ≠ .ipv4 := by decide
      simp only [strToAddr6, hne, if_false, StringView.data_of, ht, strToPort_eq_ok_iff.mpr (port_decimal p), put6]
    · rintro rfl
      funext i
      rw [storageOf_put6 he, storageOf_zeroMemory]
      exact ite_eq_left_iff.mpr fun hrest => (endpointToSockaddr_ipv6_rest hrest).symm

/-- `192.0.2.1`, port 80, by either way; what stood in `sin_zero` is left there. -/
theorem readers_agree_dotted : ∃ e addr,
    uncompressed.inetPton .ipv4 ((dotted ![192, 0, 2, 1]).1 ++ [':'] ++ decimal (80 : UInt16).toNat) zeroMemory
      (.empty zeroMemory) = some (.success, e) ∧
    uncompressed.strToAddr4 .unwritten (.of (dotted ![192, 0, 2, 1]).1) (.of (decimal (80 : UInt16).toNat))
      (some fun _ => 0x11) = (.success, some addr) ∧
    (∀ i : Fin 128, i.1 < 8 → storageOf addr i = (endpointToSockaddr .ipv4 e zeroMemory).2 i) ∧
    storageOf addr 8 = 0x11 := by
  obtain ⟨e, hread, hdst⟩ := (readers_agree uncompressed_lawful .unwritten 80 zeroMemory (.empty zeroMemory)
    zeroMemory).1 (dotted ![192, 0, 2, 1]) _ (pton4_uncompressed.mpr rfl)
  obtain ⟨addr, hwrite, hbytes, -⟩ := hdst fun _ => 0x11
  exact ⟨e, addr, hread, hwrite, fun i hi => (hbytes i).trans (if_pos hi), (hbytes 8).trans (if_neg (by decide))⟩

end InetSystem

end FirelinkNet
