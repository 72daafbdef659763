import Mathlib.Data.Nat.Notation

/-!
# The library's types

The error codes, the families, types and protocols of sockets, and the names of
the objects of the operating system. The enumerations of the source are `enum
class … : int`: a value may be any 32-bit integer, and the library casts the
operating system's codes to them, so they are kept here as integers with named
values.
-/

namespace FirelinkNet

/-- `firelink::ErrorCode`. -/
structure ErrorCode where
  /-- The underlying `int`. -/
  code : Int32
  deriving DecidableEq, Repr

namespace ErrorCode

/-- `ErrorCode::SystemError`. -/
def systemError : ErrorCode := ⟨-1⟩
/-- `ErrorCode::Success`, which is `NO_ERROR`. -/
def success : ErrorCode := ⟨0⟩
/-- `ErrorCode::NotSupported`, which is `WSAVERNOTSUPPORTED`. -/
def notSupported : ErrorCode := ⟨10092⟩
/-- `ErrorCode::AddressFamilyNotSupported`, which is `WSAEAFNOSUPPORT`. -/
def addressFamilyNotSupported : ErrorCode := ⟨10047⟩
/-- `ErrorCode::InvalidArgument`, which is `WSAEINVAL`. -/
def invalidArgument : ErrorCode := ⟨10022⟩

/-- The code of a completion, `static_cast<ErrorCode>(static_cast<int>(io_result))`. -/
def ofULong (r : UInt32) : ErrorCode := ⟨r.toInt32⟩

@[simp] theorem systemError_ne : systemError ≠ success := by decide

@[simp] theorem addressFamilyNotSupported_ne : addressFamilyNotSupported ≠ success := by decide

end ErrorCode

/-- An error reported by a call of the operating system that failed: a code other than
`NO_ERROR`. -/
structure OsError where
  /-- The code. -/
  code : Int32
  /-- A failed call reports an error. -/
  ne_zero : code ≠ 0

/-- `WSAENOBUFS`. -/
def OsError.noBufs : OsError := ⟨10055, by decide⟩

/-- `static_cast<ErrorCode>(WSAGetLastError())`. -/
def OsError.toErrorCode (e : OsError) : ErrorCode := ⟨e.code⟩

@[simp] theorem OsError.toErrorCode_ne (e : OsError) : e.toErrorCode ≠ ErrorCode.success :=
  fun h => e.ne_zero (congrArg ErrorCode.code h)

/-- `ERROR_IO_PENDING`: the operation was accepted and has not completed. -/
def errorIoPending : Int32 := 997

/-- `firelink::AddressFamily`. -/
structure AddressFamily where
  /-- The underlying `int`. -/
  val : Int32
  deriving DecidableEq, Repr

namespace AddressFamily

/-- `AddressFamily::NotSupported`. -/
def notSupported : AddressFamily := ⟨-1⟩
/-- `AddressFamily::Unspecified`, which is `AF_UNSPEC`. -/
def unspecified : AddressFamily := ⟨0⟩
/-- `AddressFamily::IPv4`, which is `AF_INET`. -/
def ipv4 : AddressFamily := ⟨2⟩
/-- `AddressFamily::IPv6`, which is `AF_INET6`. -/
def ipv6 : AddressFamily := ⟨23⟩

/-- One of the two families that have socket addresses. -/
def IsInet (f : AddressFamily) : Prop := f = ipv4 ∨ f = ipv6

instance (f : AddressFamily) : Decidable f.IsInet := inferInstanceAs (Decidable (_ ∨ _))

end AddressFamily

/-- `firelink::SocketType`. -/
structure SocketType where
  /-- The underlying `int`. -/
  val : Int32
  deriving DecidableEq, Repr

/-- `SocketType::NotSupported`. -/
def SocketType.notSupported : SocketType := ⟨-1⟩
/-- `SocketType::Stream`. -/
def SocketType.stream : SocketType := ⟨1⟩
/-- `SocketType::Datagram`. -/
def SocketType.datagram : SocketType := ⟨2⟩

/-- `firelink::Protocol`. -/
structure Protocol where
  /-- The underlying `int`. -/
  val : Int32
  deriving DecidableEq, Repr

/-- `Protocol::NotSupported`. -/
def Protocol.notSupported : Protocol := ⟨-1⟩
/-- `Protocol::Tcp`. -/
def Protocol.tcp : Protocol := ⟨6⟩
/-- `Protocol::Udp`. -/
def Protocol.udp : Protocol := ⟨17⟩

/-! ### Names of objects -/

/-- A `WinSocket` object. -/
abbrev SockId := ℕ
/-- An `IOData` object; its address is that of its `OVERLAPPED`. -/
abbrev DataId := ℕ
/-- A closure on the heap (`heap_func`). -/
abbrev FuncId := ℕ
/-- A `PTP_POOL`. -/
abbrev PoolId := ℕ
/-- A `PTP_CLEANUP_GROUP`. -/
abbrev GroupId := ℕ
/-- A call of the library's interface, numbered. -/
abbrev CallId := ℕ
/-- A native socket; `none` is `INVALID_SOCKET`. -/
abbrev NativeHandle := Option ℕ
/-- A `PTP_IO`; `none` is the null pointer. -/
abbrev TpIo := Option ℕ

/-- The `std::span` of a buffer. -/
structure Span where
  /-- Where it is. -/
  data : ℕ
  /-- Its size. -/
  size : UInt64
  deriving DecidableEq, Repr

end FirelinkNet
