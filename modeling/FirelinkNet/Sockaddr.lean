import FirelinkNet.Endpoint
import Mathlib.Tactic.FinCases
import Mathlib.Tactic.IntervalCases

/-!
# Socket addresses and endpoints

`endpoint_to_sockaddr` copies the octets of an address, and `sockaddr_to_endpoint`
takes those of an IPv4 address out of a signed 32-bit word by arithmetic shifts;
ports are exchanged byte by byte on either way.

## The model

The fields of a `SOCKADDR_IN` and of a `SOCKADDR_IN6` are read off their bytes
(`sinPort`, `sinAddr`, `sin6Addr`, `sin6ScopeId`). What a socket address denotes is its
`Target`.

## What is proved

* `sockaddrToEndpoint_endpointToSockaddr` — **an endpoint comes back** from the socket
  address made of it, in either family, whatever the storage held.
* `target_of_endpoint` — the socket address made of an endpoint denotes what the endpoint does.
* `target_sockaddrToEndpoint` — the endpoint of a reported peer denotes that peer but for the
  scope id, which an endpoint does not keep.
-/

namespace FirelinkNet

/-! ### Words in memory -/

@[simp] theorem loadWord_storeWord (v : UInt16) : loadWord (storeWord v 0) (storeWord v 1) = v := by
  apply UInt16.toBitVec_inj.mp
  ext i hi
  simp only [loadWord, storeWord, Matrix.cons_val_zero, Matrix.cons_val_one, UInt16.toBitVec_or,
    UInt16.toBitVec_shiftLeft, UInt8.toBitVec_toUInt16, UInt16.toBitVec_toUInt8,
    UInt16.toBitVec_shiftRight]
  interval_cases i <;> simp [BitVec.getLsbD_eq_getElem]

@[simp] theorem htons_htons (v : UInt16) : htons (htons v) = v := by
  apply UInt16.toBitVec_inj.mp
  ext i hi
  simp only [htons, UInt16.toBitVec_or, UInt16.toBitVec_shiftLeft, UInt16.toBitVec_shiftRight]
  interval_cases i <;> simp

section Octets

variable (b₀ b₁ b₂ b₃ : UInt8)

/-! The octets of a word, whose sign the shifts carry along. -/

@[simp] theorem octet_zero : octet (loadInt32 b₀ b₁ b₂ b₃) 0 = b₀ := by
  apply UInt8.toBitVec_inj.mp
  ext i hi
  simp only [octet, loadInt32]
  interval_cases i <;> simp

@[simp] theorem octet_eight : octet (loadInt32 b₀ b₁ b₂ b₃) 8 = b₁ := by
  apply UInt8.toBitVec_inj.mp
  ext i hi
  simp only [octet, loadInt32]
  interval_cases i <;> simp [BitVec.getElem_sshiftRight]

@[simp] theorem octet_sixteen : octet (loadInt32 b₀ b₁ b₂ b₃) 16 = b₂ := by
  apply UInt8.toBitVec_inj.mp
  ext i hi
  simp only [octet, loadInt32]
  interval_cases i <;> simp [BitVec.getElem_sshiftRight]

@[simp] theorem octet_twentyFour : octet (loadInt32 b₀ b₁ b₂ b₃) 24 = b₃ := by
  apply UInt8.toBitVec_inj.mp
  ext i hi
  simp only [octet, loadInt32]
  interval_cases i <;> simp [BitVec.getElem_sshiftRight]

end Octets

/-! ### Endpoints -/

/-- An endpoint made from an IPv4 address holds it, whatever the union held before. -/
@[simp] theorem Endpoint.ipv4_ofIPv4 (a : IPv4Address) (junk : Bytes 18) :
    (Endpoint.ofIPv4 a junk).ipv4 = a := by
  obtain ⟨bytes, port⟩ := a
  have hbytes : (fun i : Fin 4 => (Endpoint.ofIPv4 ⟨bytes, port⟩ junk).raw (i.castLE (by decide))) =
      bytes := by
    funext i
    fin_cases i <;> rfl
  rw [Endpoint.ipv4, hbytes]
  exact congrArg (IPv4Address.mk bytes) (loadWord_storeWord port)

/-- So does one made from an IPv6 address. -/
@[simp] theorem Endpoint.ipv6_ofIPv6 (a : IPv6Address) : (Endpoint.ofIPv6 a).ipv6 = a := by
  obtain ⟨bytes, port⟩ := a
  have hbytes : (fun i : Fin 16 => (Endpoint.ofIPv6 ⟨bytes, port⟩).raw (i.castLE (by decide))) =
      bytes := by
    funext i
    fin_cases i <;> rfl
  rw [Endpoint.ipv6, hbytes]
  exact congrArg (IPv6Address.mk bytes) (loadWord_storeWord port)

/-! ### What a socket address denotes -/

/-- What a socket address denotes. -/
inductive Target where
  /-- An IPv4 address and a port. -/
  | ipv4 (a : IPv4Address)
  /-- An IPv6 address and a port, in a scope. -/
  | ipv6 (a : IPv6Address) (scopeId : Bytes 4)
  /-- Nothing, in any other family. -/
  | other (family : UInt16)

/-- The scope id of a target, when it has one. -/
def Target.scopeId : Target → Bytes 4
  | .ipv6 _ s => s
  | _ => zeroMemory

/-- The target of a socket address. -/
def target (addr : SockaddrStorage) : Target :=
  if ssFamily addr = afInet then .ipv4 ⟨sinAddr addr, sinPort addr⟩
  else if ssFamily addr = afInet6 then .ipv6 ⟨sin6Addr addr, sinPort addr⟩ (sin6ScopeId addr)
  else .other (ssFamily addr)

/-- The target without its scope id. -/
def Target.unscoped : Target → Target
  | .ipv6 a _ => .ipv6 a zeroMemory
  | t => t

/-- The target that an endpoint denotes in a family. -/
def Endpoint.target (family : AddressFamily) (e : Endpoint) : Target :=
  if family = .ipv4 then .ipv4 e.ipv4 else .ipv6 e.ipv6 zeroMemory

/-- The family of a socket address, as an `AddressFamily`. -/
def addressFamily (addr : SockaddrStorage) : AddressFamily := ⟨(ssFamily addr).toUInt32.toInt32⟩

/-! ### To a socket address -/

section

variable (e : Endpoint) (addr : SockaddrStorage)

theorem ssFamily_ipv4 : ssFamily (endpointToSockaddr .ipv4 e addr).2 = afInet :=
  loadWord_storeWord afInet

theorem ssFamily_ipv6 : ssFamily (endpointToSockaddr .ipv6 e addr).2 = afInet6 :=
  loadWord_storeWord afInet6

theorem sinPort_ipv4 : sinPort (endpointToSockaddr .ipv4 e addr).2 = e.ipv4.port := by
  show htons (loadWord (storeWord (htons e.ipv4.port) 0) (storeWord (htons e.ipv4.port) 1)) = _
  rw [loadWord_storeWord, htons_htons]

theorem sinPort_ipv6 : sinPort (endpointToSockaddr .ipv6 e addr).2 = e.ipv6.port := by
  show htons (loadWord (storeWord (htons e.ipv6.port) 0) (storeWord (htons e.ipv6.port) 1)) = _
  rw [loadWord_storeWord, htons_htons]

theorem sinAddr_ipv4 : sinAddr (endpointToSockaddr .ipv4 e addr).2 = e.ipv4.bytes := by
  funext i
  fin_cases i <;> rfl

theorem sin6Addr_ipv6 : sin6Addr (endpointToSockaddr .ipv6 e addr).2 = e.ipv6.bytes := by
  funext i
  fin_cases i <;> rfl

theorem sin6ScopeId_ipv6 : sin6ScopeId (endpointToSockaddr .ipv6 e addr).2 = zeroMemory := by
  funext i
  fin_cases i <;> rfl

end

/-- **What the socket address made of an endpoint denotes.** -/
theorem target_of_endpoint {family : AddressFamily} (hf : family.IsInet) (e : Endpoint)
    (addr : SockaddrStorage) : target (endpointToSockaddr family e addr).2 = e.target family := by
  rcases hf with rfl | rfl
  · rw [target, if_pos (ssFamily_ipv4 e addr), sinAddr_ipv4, sinPort_ipv4]
    rfl
  · rw [target, if_neg (by rw [ssFamily_ipv6]; decide), if_pos (ssFamily_ipv6 e addr), sin6Addr_ipv6,
      sinPort_ipv6, sin6ScopeId_ipv6]
    rfl

/-! ### From a socket address -/

theorem sockaddrToEndpoint_inet {addr : SockaddrStorage} (h : ssFamily addr = afInet)
    (e : Endpoint) : sockaddrToEndpoint addr e =
      (.success, .ofIPv4 ⟨sinAddr addr, sinPort addr⟩ zeroMemory) := by
  have hbytes : ![addr 4, addr 5, addr 6, addr 7] = sinAddr addr := by
    funext i
    fin_cases i <;> rfl
  rw [sockaddrToEndpoint, if_pos h, ← hbytes]
  simp only [octet_zero, octet_eight, octet_sixteen, octet_twentyFour]
  rfl

theorem sockaddrToEndpoint_inet6 {addr : SockaddrStorage} (h : ssFamily addr = afInet6)
    (e : Endpoint) : sockaddrToEndpoint addr e =
      (.success, .ofIPv6 ⟨sin6Addr addr, sinPort addr⟩) := by
  rw [sockaddrToEndpoint, if_neg (by rw [h]; decide), if_pos h]
  rfl

theorem sockaddrToEndpoint_eq_success_iff {addr : SockaddrStorage} {e : Endpoint} :
    (sockaddrToEndpoint addr e).1 = .success ↔ ssFamily addr = afInet ∨ ssFamily addr = afInet6 := by
  by_cases h4 : ssFamily addr = afInet
  · simp [sockaddrToEndpoint_inet h4, h4]
  by_cases h6 : ssFamily addr = afInet6
  · simp [sockaddrToEndpoint_inet6 h6, h6]
  · simp [sockaddrToEndpoint, h4, h6]

/-- **An endpoint comes back** from the socket address made of it: for every IPv4 and every IPv6
address, and whatever the storage and the endpoint written to held before. -/
theorem sockaddrToEndpoint_endpointToSockaddr :
    (∀ (a : IPv4Address) (junk : Bytes 18) (sa : SockaddrStorage) (e : Endpoint),
      let r := endpointToSockaddr .ipv4 (.ofIPv4 a junk) sa
      r.1 = .success ∧ (sockaddrToEndpoint r.2 e).1 = .success ∧
        (sockaddrToEndpoint r.2 e).2.active = .ipv4 ∧ (sockaddrToEndpoint r.2 e).2.ipv4 = a) ∧
    ∀ (a : IPv6Address) (sa : SockaddrStorage) (e : Endpoint),
      let r := endpointToSockaddr .ipv6 (.ofIPv6 a) sa
      r.1 = .success ∧ (sockaddrToEndpoint r.2 e).1 = .success ∧
        (sockaddrToEndpoint r.2 e).2.active = .ipv6 ∧ (sockaddrToEndpoint r.2 e).2.ipv6 = a := by
  constructor
  · intro a junk sa e r
    have hback := sockaddrToEndpoint_inet (ssFamily_ipv4 (.ofIPv4 a junk) sa) e
    rw [sinAddr_ipv4, sinPort_ipv4, Endpoint.ipv4_ofIPv4] at hback
    refine ⟨rfl, ?_, ?_, ?_⟩ <;> rw [hback]
    · rfl
    · exact Endpoint.ipv4_ofIPv4 a zeroMemory
  · intro a sa e r
    have hback := sockaddrToEndpoint_inet6 (ssFamily_ipv6 (.ofIPv6 a) sa) e
    rw [sin6Addr_ipv6, sinPort_ipv6, Endpoint.ipv6_ofIPv6] at hback
    refine ⟨rfl, ?_, ?_, ?_⟩ <;> rw [hback]
    · rfl
    · exact Endpoint.ipv6_ofIPv6 a

/-! ### And back to a socket address -/

theorem addressFamily_inet {addr : SockaddrStorage} (h : ssFamily addr = afInet) :
    addressFamily addr = .ipv4 := by
  rw [addressFamily, h]
  rfl

theorem addressFamily_inet6 {addr : SockaddrStorage} (h : ssFamily addr = afInet6) :
    addressFamily addr = .ipv6 := by
  rw [addressFamily, h]
  rfl

/-- The endpoint of a reported peer denotes that peer in its family, but for the scope id. -/
theorem target_sockaddrToEndpoint {addr : SockaddrStorage}
    (h : ssFamily addr = afInet ∨ ssFamily addr = afInet6) (e : Endpoint) :
    (addressFamily addr).IsInet ∧
      (sockaddrToEndpoint addr e).2.target (addressFamily addr) = (target addr).unscoped := by
  rcases h with h | h
  · rw [addressFamily_inet h, sockaddrToEndpoint_inet h, target, if_pos h]
    exact ⟨.inl rfl, congrArg Target.ipv4 (Endpoint.ipv4_ofIPv4 _ _)⟩
  · rw [addressFamily_inet6 h, sockaddrToEndpoint_inet6 h, target, if_neg (by rw [h]; decide),
      if_pos h]
    exact ⟨.inr rfl, congrArg (Target.ipv6 · zeroMemory) (Endpoint.ipv6_ofIPv6 _)⟩

end FirelinkNet
