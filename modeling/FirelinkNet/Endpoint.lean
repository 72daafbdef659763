import FirelinkNet.Types
import Mathlib.Data.Fin.VecNotation
import Mathlib.Data.Fintype.Pi

/-!
# Endpoints and socket addresses

An `Endpoint` is an untagged union of an IPv4 and an IPv6 address with a port; the
family is kept by the socket. A `SOCKADDR_STORAGE` is 128 bytes, laid out as
Windows lays out `SOCKADDR_IN` and `SOCKADDR_IN6` on a little-endian machine: the
family in bytes 0 and 1, the port in bytes 2 and 3, and the address from byte 4
(IPv4) or byte 8 (IPv6).
-/

namespace FirelinkNet

/-- `n` bytes of memory. -/
abbrev Bytes (n : ℕ) := Fin n → UInt8

/-- What `ZeroMemory` writes. -/
def zeroMemory {n : ℕ} : Bytes n := fun _ => 0

/-- `CopyMemory(dst + off, src, k)`. -/
def copyMemory {n k : ℕ} (dst : Bytes n) (off : ℕ) (src : Bytes k) : Bytes n := fun i =>
  if h : off ≤ i ∧ i - off < k then src ⟨i - off, h.2⟩ else dst i

/-- The bytes of a 16-bit word in memory. -/
def storeWord (v : UInt16) : Bytes 2 := ![v.toUInt8, (v >>> 8).toUInt8]

/-- The 16-bit word at an address. -/
def loadWord (lo hi : UInt8) : UInt16 := lo.toUInt16 ||| (hi.toUInt16 <<< 8)

/-- `htons`, and `ntohs`: the two bytes of a word exchanged. -/
def htons (v : UInt16) : UInt16 := (v <<< 8) ||| (v >>> 8)

/-- `firelink::IPv4Address`. -/
structure IPv4Address where
  /-- The octets, first first. -/
  bytes : Bytes 4
  /-- The port, in host order. -/
  port : UInt16
  deriving DecidableEq

/-- `IPv4Address::any`. -/
def IPv4Address.any (p : UInt16) : IPv4Address := ⟨zeroMemory, p⟩

/-- `firelink::IPv6Address`. -/
structure IPv6Address where
  /-- The octets, first first. -/
  bytes : Bytes 16
  /-- The port, in host order. -/
  port : UInt16
  deriving DecidableEq

/-- `IPv6Address::any`. -/
def IPv6Address.any (p : UInt16) : IPv6Address := ⟨zeroMemory, p⟩

/-- The member of the union that was written last. It is not part of the source's
object. -/
inductive Active where
  /-- Nothing was written. -/
  | none
  /-- `ipv4_`. -/
  | ipv4
  /-- `ipv6_`. -/
  | ipv6
  deriving DecidableEq

/-- `firelink::Endpoint`. -/
structure Endpoint where
  /-- The bytes of the union. -/
  raw : Bytes 18
  /-- The member written last. -/
  active : Active
  deriving DecidableEq

namespace Endpoint

/-- `Endpoint()`, which leaves the union as it finds it. -/
def empty (junk : Bytes 18) : Endpoint := ⟨junk, .none⟩

/-- `Endpoint(IPv4Address)`: the rest of the union is left as it is found. -/
def ofIPv4 (a : IPv4Address) (junk : Bytes 18) : Endpoint :=
  ⟨copyMemory (copyMemory junk 0 a.bytes) 4 (storeWord a.port), .ipv4⟩

/-- `Endpoint(IPv6Address)`. -/
def ofIPv6 (a : IPv6Address) : Endpoint :=
  ⟨copyMemory (copyMemory zeroMemory 0 a.bytes) 16 (storeWord a.port), .ipv6⟩

/-- `Endpoint::ipv4`. -/
def ipv4 (e : Endpoint) : IPv4Address :=
  ⟨fun i => e.raw (i.castLE (by decide)), loadWord (e.raw 4) (e.raw 5)⟩

/-- `Endpoint::ipv6`. -/
def ipv6 (e : Endpoint) : IPv6Address :=
  ⟨fun i => e.raw (i.castLE (by decide)), loadWord (e.raw 16) (e.raw 17)⟩

end Endpoint

/-- `SOCKADDR_STORAGE`. -/
abbrev SockaddrStorage := Bytes 128

/-- `AF_INET`, as the 16-bit `ADDRESS_FAMILY` of a socket address. -/
def afInet : UInt16 := 2

/-- `AF_INET6`. -/
def afInet6 : UInt16 := 23

/-- `ss_family`. -/
def ssFamily (addr : SockaddrStorage) : UInt16 := loadWord (addr 0) (addr 1)

/-- `sin_port`, and `sin6_port`, in host order. -/
def sinPort (addr : SockaddrStorage) : UInt16 := htons (loadWord (addr 2) (addr 3))

/-- `sin_addr`. -/
def sinAddr (addr : SockaddrStorage) : Bytes 4 := fun i => addr (i.natAdd 4 |>.castLE (by decide))

/-- `sin6_addr`. -/
def sin6Addr (addr : SockaddrStorage) : Bytes 16 := fun i => addr (i.natAdd 8 |>.castLE (by decide))

/-- `sin6_scope_id`. -/
def sin6ScopeId (addr : SockaddrStorage) : Bytes 4 := fun i =>
  addr (i.natAdd 24 |>.castLE (by decide))

/-- `WinSocket::endpoint_to_sockaddr`: the code, and what it leaves in `addr`. -/
def endpointToSockaddr (family : AddressFamily) (endpoint : Endpoint) (addr : SockaddrStorage) :
    ErrorCode × SockaddrStorage :=
  let addr := copyMemory addr 0 (zeroMemory : Bytes 128)
  if family = .ipv4 then
    let addr := copyMemory addr 0 (storeWord afInet)
    let addr := copyMemory addr 2 (storeWord (htons endpoint.ipv4.port))
    (.success, copyMemory addr 4 endpoint.ipv4.bytes)
  else if family = .ipv6 then
    let addr := copyMemory addr 0 (storeWord afInet6)
    let addr := copyMemory addr 8 endpoint.ipv6.bytes
    (.success, copyMemory addr 2 (storeWord (htons endpoint.ipv6.port)))
  else
    (.addressFamilyNotSupported, addr)

/-- The `int32_t` at four bytes. -/
def loadInt32 (b₀ b₁ b₂ b₃ : UInt8) : Int32 :=
  (b₀.toUInt32 ||| (b₁.toUInt32 <<< 8) ||| (b₂.toUInt32 <<< 16) ||| (b₃.toUInt32 <<< 24)).toInt32

/-- `(word >> n) & 0XFF`, narrowed to an octet; the shift is arithmetic. -/
def octet (word : Int32) (n : Int32) : UInt8 := ((word >>> n) &&& 0xFF).toUInt32.toUInt8

/-- `WinSocket::sockaddr_to_endpoint`: the code, and the endpoint, which stays as it was
when the family is neither of the two. -/
def sockaddrToEndpoint (addr : SockaddrStorage) (endpoint : Endpoint) : ErrorCode × Endpoint :=
  if ssFamily addr = afInet then
    let word := loadInt32 (addr 4) (addr 5) (addr 6) (addr 7)
    let ipv4Addr : IPv4Address :=
      ⟨![octet word 0, octet word 8, octet word 16, octet word 24],
        htons (loadWord (addr 2) (addr 3))⟩
    (.success, .ofIPv4 ipv4Addr zeroMemory)
  else if ssFamily addr = afInet6 then
    let ipv6Addr : IPv6Address :=
      ⟨fun i => addr (i.natAdd 8 |>.castLE (by decide)), htons (loadWord (addr 2) (addr 3))⟩
    (.success, .ofIPv6 ipv6Addr)
  else
    (.addressFamilyNotSupported, endpoint)

/-- An endpoint has a socket address in the two families that have them, and in no other. -/
theorem endpointToSockaddr_eq_success_iff {family : AddressFamily} {endpoint : Endpoint}
    {addr : SockaddrStorage} :
    (endpointToSockaddr family endpoint addr).1 = .success ↔ family.IsInet := by
  unfold endpointToSockaddr AddressFamily.IsInet
  dsimp only
  split_ifs with h4 h6
  · simp [h4]
  · simp [h6]
  · simp [h4, h6]

end FirelinkNet
