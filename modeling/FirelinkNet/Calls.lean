import FirelinkNet.Endpoint
import FirelinkNet.Lib.Threads

/-!
# The objects of the library and the calls of its code

The members of the library's classes, what user code does with its interface
(`ApiCall`), and the calls that the library's code makes (`Op`): of the operating
system, of the C++ run time for the objects that threads share, and of user code.
`Res` is the reply to a call, and `Ans` is what the environment decides in one.
What a call does is said in `World`.

A blocking call of the operating system is two calls here, one that begins it and
one that ends it.
-/

namespace FirelinkNet

open Lib

/-! ### The library's objects -/

/-- The alternative that `IOData::user_handler_` holds. -/
inductive HandlerKind where
  /-- `AcceptHandler`. -/
  | accept
  /-- `ConnectHandler`. -/
  | connect
  /-- `ReadHandler`. -/
  | read
  /-- `WriteHandler`. -/
  | write
  /-- `DisconnectHandler`. -/
  | disconnect
  deriving DecidableEq, Repr

/-- `IOData::user_handler_`: the alternative, and the user's function; an empty
`std::function` has none. -/
structure Handler where
  /-- The alternative. -/
  kind : HandlerKind
  /-- The function. -/
  func : Option ℕ
  deriving DecidableEq, Repr

/-- The members of a `WinSocket`. -/
structure WinSocket where
  /-- `socket_`. -/
  nativeSocket : NativeHandle
  /-- `socket_io_handle_`. -/
  socketIoHandle : TpIo
  /-- `addr_family_`. -/
  addrFamily : AddressFamily
  /-- `sock_type_`. -/
  sockType : SocketType
  /-- `protocol_`. -/
  protocol : Protocol
  /-- `is_bound_`. -/
  isBound : Bool
  deriving DecidableEq, Repr

/-- `WinSocket::WinSocket`. -/
def WinSocket.new : WinSocket :=
  ⟨none, none, .notSupported, .notSupported, .notSupported, false⟩

/-- `IOData`. -/
structure IOData where
  /-- `user_buffer_`. -/
  userBuffer : Span
  /-- `accept_address_buffer_`: the local and the peer address that `AcceptEx` wrote. -/
  acceptAddressBuffer : Option (SockaddrStorage × SockaddrStorage)
  /-- `local_win_addr_`. -/
  localWinAddr : SockaddrStorage
  /-- `peer_win_addr_`. -/
  peerWinAddr : SockaddrStorage
  /-- `socket_`. -/
  socket : SockId
  /-- `accept_socket_`. -/
  acceptSocket : Option SockId
  /-- `user_handler_`. -/
  userHandler : Handler
  /-- `error_code_`. -/
  errorCode : ErrorCode
  /-- `bytes_transferred_`. -/
  bytesTransferred : Int32

/-- `new IOData{}` with its owner and its handler. -/
def IOData.new (socket : SockId) (h : Handler) : IOData :=
  ⟨⟨0, 0⟩, none, zeroMemory, zeroMemory, socket, none, h, .success, 0⟩

/-- What an operation is for: the socket it is started on, the socket to accept on, and the
handler as `IOData` keeps it. -/
structure Request where
  /-- The socket. -/
  socket : SockId
  /-- The socket to accept on. -/
  acceptSocket : Option SockId
  /-- The handler. -/
  handler : Handler
  deriving DecidableEq, Repr

/-- The request that an `IOData` is for. -/
def IOData.request (d : IOData) : Request := ⟨d.socket, d.acceptSocket, d.userHandler⟩

/-- The sockets that an `IOData` holds a `shared_ptr` to, in its own members. One that a handler has captured is
user code's: user code drops it just before the `IOData`, or the closure, that has the handler is deleted. -/
def IOData.refs (d : IOData) : List SockId := d.socket :: d.acceptSocket.toList

/-- A place on the heap for an `IOData`. -/
inductive Cell where
  /-- Not allocated yet. -/
  | unborn
  /-- Allocated. -/
  | live (d : IOData)
  /-- Deleted. -/
  | freed

/-- The contents of a cell. Reading one that is not live gives nothing of use. -/
def Cell.get : Cell → IOData
  | .live d => d
  | _ => .new 0 ⟨.accept, none⟩

/-- The cell is allocated. -/
def Cell.isLive : Cell → Bool
  | .live _ => true
  | _ => false

/-- The contents of a cell are changed in place. -/
def Cell.map (f : IOData → IOData) : Cell → Cell
  | .live d => .live (f d)
  | c => c

/-- The arguments of a handler. -/
inductive Args where
  /-- Of an `AcceptHandler`. -/
  | accept (caller : SockId) (accepted : Option SockId) (localEp peerEp : Endpoint)
      (error : ErrorCode)
  /-- Of a `ConnectHandler`. -/
  | connect (caller : SockId) (error : ErrorCode)
  /-- Of a `ReadHandler`. -/
  | read (caller : SockId) (error : ErrorCode) (bytes : Int32)
  /-- Of a `WriteHandler`. -/
  | write (caller : SockId) (error : ErrorCode) (bytes : Int32)
  /-- Of a `DisconnectHandler`. -/
  | disconnect (caller : SockId) (error : ErrorCode)
  deriving DecidableEq

/-- The `shared_ptr`s among the arguments of a handler. -/
def Args.refs : Args → List SockId
  | .accept caller accepted _ _ _ => caller :: accepted.toList
  | .connect caller _ | .read caller _ _ | .write caller _ _ | .disconnect caller _ => [caller]

/-- A closure given to a thread pool: one of the five that `socket_io_routine` makes, or
one of the user's. -/
inductive Closure where
  /-- It calls the accept handler `f`. -/
  | accept (ioData : DataId) (f : ℕ) (localEp peerEp : Endpoint)
  /-- It calls the connect handler `f`. -/
  | connect (ioData : DataId) (f : ℕ)
  /-- It calls the read handler `f`. -/
  | read (ioData : DataId) (f : ℕ)
  /-- It calls the write handler `f`. -/
  | write (ioData : DataId) (f : ℕ)
  /-- It calls the disconnect handler `f`. -/
  | disconnect (ioData : DataId) (f : ℕ)
  /-- The user's own work. -/
  | user (work : ℕ)

/-- The `IOData` that a closure captures. -/
def Closure.ioData : Closure → Option DataId
  | .accept i _ _ _ | .connect i _ | .read i _ | .write i _ | .disconnect i _ => some i
  | .user _ => none

/-! ### The core and its thread pools -/

/-- One of the two thread pools. -/
inductive PoolKind where
  /-- For socket IO. -/
  | io
  /-- For the user's handlers. -/
  | user
  deriving DecidableEq, Repr

/-- `ThreadpoolRollback`. -/
inductive ThreadpoolRollback where
  /-- Nothing to undo. -/
  | none
  /-- The environment. -/
  | initEnviron
  /-- Also the pool. -/
  | createThreadpool
  /-- Also the cleanup group. -/
  | createCleanupGroup
  deriving DecidableEq, Repr

/-- `TP_CALLBACK_ENVIRON`. -/
structure Environ where
  /-- The pool. -/
  pool : Option PoolId
  /-- The cleanup group. -/
  group : Option GroupId
  deriving DecidableEq, Repr

/-- The four members of a `WinIOCore` for one thread pool. -/
structure PoolSlot where
  /-- `…_threadpool_environ_`. -/
  environ : Environ
  /-- `…_cleanup_group_`. -/
  cleanupGroup : Option GroupId
  /-- `…_threadpool_`. -/
  threadpool : Option PoolId
  /-- `…_rollback_`. -/
  rollback : ThreadpoolRollback
  deriving DecidableEq, Repr

/-- `IOCoreConfig`. -/
structure IOCoreConfig where
  /-- `io_threadpool_min_threads_`. -/
  ioMin : UInt32
  /-- `io_threadpool_max_threads_`. -/
  ioMax : UInt32
  /-- `user_threadpool_min_threads_`. -/
  userMin : UInt32
  /-- `user_threadpool_max_threads_`. -/
  userMax : UInt32
  deriving DecidableEq, Repr

/-- The members of a `WinIOCore`. -/
structure WinIOCore where
  /-- `conf_`. -/
  conf : IOCoreConfig
  /-- `stop_requested_`. -/
  stopRequested : Bool
  /-- The IO pool. -/
  io : PoolSlot
  /-- The user pool. -/
  user : PoolSlot
  deriving DecidableEq, Repr

/-- The members for a pool. -/
def WinIOCore.slot (c : WinIOCore) : PoolKind → PoolSlot
  | .io => c.io
  | .user => c.user

/-- Change the members for a pool. -/
def WinIOCore.setSlot (c : WinIOCore) (f : PoolSlot → PoolSlot) : PoolKind → WinIOCore
  | .io => { c with io := f c.io }
  | .user => { c with user := f c.user }

/-- The extension functions looked up with `WSAIoctl`. -/
inductive ExtFn where
  /-- `AcceptEx`. -/
  | acceptEx
  /-- `GetAcceptExSockaddrs`. -/
  | getAcceptExSockaddrs
  /-- `ConnectEx`. -/
  | connectEx
  /-- `DisconnectEx`. -/
  | disconnectEx
  deriving DecidableEq, Repr

/-! ### What user code does -/

/-- What user code does with the library: the calls of its interface, and what it does
with its own `shared_ptr`s. A handler is the user's function, `none` when it is empty. -/
inductive ApiCall where
  /-- `Socket::create`. -/
  | create
  /-- `Socket::socket`. -/
  | socket (x : SockId) (af : AddressFamily) (ty : SocketType) (pr : Protocol)
  /-- `Socket::bind`. -/
  | bind (x : SockId) (ep : Endpoint)
  /-- `Socket::close`. -/
  | close (x : SockId)
  /-- `Socket::accept`. -/
  | accept (x a : SockId)
  /-- `Socket::connect`. -/
  | connect (x : SockId) (dst : Endpoint)
  /-- `Socket::send_to`. -/
  | sendTo (x : SockId) (data : Span) (dst : Endpoint)
  /-- `Socket::start_accept`. -/
  | startAccept (x a : SockId) (h : Option ℕ)
  /-- `Socket::start_connect`. -/
  | startConnect (x : SockId) (dst : Endpoint) (h : Option ℕ)
  /-- `Socket::start_recv`. -/
  | startRecv (x : SockId) (buffer : Span) (h : Option ℕ)
  /-- `Socket::start_recv_from`. -/
  | startRecvFrom (x : SockId) (buffer : Span) (h : Option ℕ)
  /-- `Socket::start_send`. -/
  | startSend (x : SockId) (data : Span) (h : Option ℕ)
  /-- `Socket::start_send_to`. -/
  | startSendTo (x : SockId) (data : Span) (dst : Endpoint) (h : Option ℕ)
  /-- `Socket::start_disconnect`. -/
  | startDisconnect (x : SockId) (reuse : Bool) (h : Option ℕ)
  /-- `IOCore::post_io_work`. -/
  | postIoWork (work : ℕ)
  /-- `IOCore::post_user_work`. -/
  | postUserWork (work : ℕ)
  /-- `IOCore::initialize`. -/
  | initializeCore
  /-- `IOCore::release`. -/
  | releaseCore
  /-- Copy a `shared_ptr`. -/
  | copyRef (x : SockId)
  /-- Drop a `shared_ptr`. -/
  | dropRef (x : SockId)

namespace ApiCall

/-- The sockets that a call is made with: user code holds a `shared_ptr` to each for the
time of the call. -/
def sockets : ApiCall → List SockId
  | .socket x _ _ _ | .bind x _ | .close x | .connect x _ | .sendTo x _ _ | .startConnect x _ _
  | .startRecv x _ _ | .startRecvFrom x _ _ | .startSend x _ _ | .startSendTo x _ _ _
  | .startDisconnect x _ _ => [x]
  | .accept x a | .startAccept x a _ => [x, a]
  | _ => []

/-- What a `start_…` function asks for. -/
def start? : ApiCall → Option Request
  | .startAccept x a h => some ⟨x, some a, ⟨.accept, h⟩⟩
  | .startConnect x _ h => some ⟨x, none, ⟨.connect, h⟩⟩
  | .startRecv x _ h | .startRecvFrom x _ h => some ⟨x, none, ⟨.read, h⟩⟩
  | .startSend x _ h | .startSendTo x _ _ h => some ⟨x, none, ⟨.write, h⟩⟩
  | .startDisconnect x _ h => some ⟨x, none, ⟨.disconnect, h⟩⟩
  | _ => none

end ApiCall

/-! ### Calls -/

/-- What an address that is handed to Winsock is for. -/
inductive NameRole where
  /-- To bind the socket to. -/
  | own
  /-- The peer to connect or send to. -/
  | peer
  deriving DecidableEq, Repr

/-- An overlapped call of Winsock. -/
inductive IoRequest where
  /-- `AcceptEx`. -/
  | acceptEx (s accept : NativeHandle)
  /-- `ConnectEx`. -/
  | connectEx (s : NativeHandle) (name : SockaddrStorage)
  /-- `WSARecv`. -/
  | wsaRecv (s : NativeHandle) (buf : ℕ) (len : UInt32)
  /-- `WSARecvFrom`. -/
  | wsaRecvFrom (s : NativeHandle) (buf : ℕ) (len : UInt32)
  /-- `WSASend`. -/
  | wsaSend (s : NativeHandle) (buf : ℕ) (len : UInt32)
  /-- `WSASendTo`. -/
  | wsaSendTo (s : NativeHandle) (buf : ℕ) (len : UInt32) (dst : SockaddrStorage)
  /-- `DisconnectEx`. -/
  | disconnectEx (s : NativeHandle) (reuse : Bool)

/-- The address that an overlapped call hands to Winsock. -/
def IoRequest.name? : IoRequest → Option (NameRole × SockaddrStorage)
  | .connectEx _ name | .wsaSendTo _ _ _ name => some (.peer, name)
  | _ => none

/-- The native socket that has a local address once the call is accepted. -/
def IoRequest.binds : IoRequest → NativeHandle
  | .wsaSendTo s _ _ _ => s
  | _ => none

/-- An option set on a socket when an operation has completed. -/
inductive UpdateContext where
  /-- `SO_UPDATE_ACCEPT_CONTEXT`, with the listening socket. -/
  | accept (listener : NativeHandle)
  /-- `SO_UPDATE_CONNECT_CONTEXT`. -/
  | connect

/-- What `SO_PROTOCOL_INFO` says of a socket. -/
structure ProtocolInfo where
  /-- `iAddressFamily`. -/
  family : AddressFamily
  /-- `iSocketType`. -/
  type : SocketType
  /-- `iProtocol`. -/
  protocol : Protocol

/-- The result of `WaitForSingleObject`. -/
inductive WaitResult where
  /-- `WAIT_OBJECT_0`. -/
  | signalled
  /-- `WAIT_TIMEOUT`. -/
  | timeout
  /-- `WAIT_FAILED`, with the error it sets. -/
  | failed (e : OsError)
  /-- Any other. -/
  | other

/-- The error that a failed wait sets. -/
def WaitResult.error? : WaitResult → Option OsError
  | .failed e => some e
  | _ => none

/-- The calls that the library's code makes. -/
inductive Op where
  -- the library's interface
  /-- User code enters a function of the interface. -/
  | enter (c : ApiCall)
  /-- It returns. -/
  | leave (n : CallId) (r : ErrorCode)
  -- `std::shared_ptr<Socket>`
  /-- `std::make_shared<WinSocket>`. -/
  | makeSocket
  /-- A copy is made for user code. -/
  | copyRef (x : SockId)
  /-- One held by user code is dropped. -/
  | dropRef (x : SockId)
  /-- The destructor has ended and the object is gone. -/
  | destroyed (x : SockId)
  -- members of a `WinSocket`
  /-- Read the members other than `socket_io_handle_`. -/
  | readSocket (x : SockId)
  /-- Read `socket_io_handle_`. -/
  | readIoHandle (x : SockId)
  /-- Assign to members. -/
  | writeSocket (x : SockId) (f : WinSocket → WinSocket)
  -- `IOData`
  /-- `new IOData`. -/
  | newIOData (d : IOData)
  /-- Read the members. -/
  | readIOData (i : DataId)
  /-- Assign to members. -/
  | writeIOData (i : DataId) (d : IOData)
  /-- `delete io_data`. -/
  | deleteIOData (i : DataId)
  /-- The user's handler is called with the members of `io_data`. -/
  | invoke (i : DataId) (f : ℕ) (args : Args)
  -- closures
  /-- `new std::move_only_function<void()>`. -/
  | newFunc (c : Closure)
  /-- `std::invoke(*f)`. -/
  | invokeFunc (f : FuncId)
  /-- The body of the user's own work. -/
  | userWork (work : ℕ)
  /-- `delete f`. -/
  | deleteFunc (f : FuncId)
  /-- `TrySubmitThreadpoolCallback` with the environment of a pool. -/
  | trySubmitThreadpoolCallback (f : FuncId) (c : Closure) (k : PoolKind)
  /-- `GetLastError`. -/
  | getLastError
  /-- A thread pool callback returns to its pool. -/
  | callbackReturn
  -- TP_IO
  /-- `socket_io_handle_ = CreateThreadpoolIo(…)`, with the environment of the IO pool. -/
  | createThreadpoolIo (x : SockId) (s : NativeHandle)
  /-- `StartThreadpoolIo`. -/
  | startThreadpoolIo (io : TpIo)
  /-- `CancelThreadpoolIo`. -/
  | cancelThreadpoolIo (io : TpIo)
  /-- `WaitForThreadpoolIoCallbacks` begins. -/
  | waitForThreadpoolIoCallbacks (io : TpIo)
  /-- `WaitForThreadpoolIoCallbacks` returns. -/
  | waitedForThreadpoolIoCallbacks (io : TpIo)
  /-- `CloseThreadpoolIo`. -/
  | closeThreadpoolIo (io : TpIo)
  -- Winsock
  /-- `WSAStartup`. -/
  | wsaStartup (version : UInt16)
  /-- `WSACleanup`. -/
  | wsaCleanup
  /-- `WSASocketW`. -/
  | wsaSocketW (af : AddressFamily) (ty : SocketType) (pr : Protocol)
  /-- `closesocket`. -/
  | closesocket (s : NativeHandle)
  /-- `::accept`. -/
  | accept (s : NativeHandle)
  /-- `getsockopt` of `SO_PROTOCOL_INFO`. -/
  | getProtocolInfo (s : NativeHandle)
  /-- `::bind`. -/
  | bind (s : NativeHandle) (name : SockaddrStorage)
  /-- `::connect`. -/
  | connect (s : NativeHandle) (name : SockaddrStorage)
  /-- `::sendto`. -/
  | sendto (s : NativeHandle) (buf : ℕ) (len : Int32) (dst : SockaddrStorage)
  /-- `recvfrom`. -/
  | recvfrom (s : NativeHandle) (buf : ℕ) (len : Int32)
  /-- `::send`. -/
  | send (s : NativeHandle) (buf : ℕ) (len : Int32)
  /-- `::recv`. -/
  | recv (s : NativeHandle) (buf : ℕ) (len : Int32)
  /-- `::getpeername`. -/
  | getpeername (s : NativeHandle)
  /-- `setsockopt`, when an operation has completed. -/
  | setsockopt (s : NativeHandle) (u : UpdateContext)
  /-- `GetAcceptExSockaddrs`. -/
  | getAcceptExSockaddrs (buffer : Option (SockaddrStorage × SockaddrStorage))
  /-- Is the pointer to an extension function set? -/
  | extFn (fn : ExtFn)
  /-- `WSAIoctl`, which sets the pointer. -/
  | wsaIoctl (s : NativeHandle) (fn : ExtFn)
  /-- An overlapped call, after `StartThreadpoolIo(io)`. -/
  | overlapped (req : IoRequest) (i : DataId) (io : TpIo)
  -- the core
  /-- `std::make_unique<WinIOCore>(config)`. -/
  | makeCore (conf : IOCoreConfig)
  /-- `WinIOCore::~WinIOCore`, which does nothing more. -/
  | destroyCore
  /-- `io_core_.lock()`. -/
  | lockIoCore
  /-- Read the members of the core. -/
  | readCore
  /-- Assign to the members for a pool. -/
  | writeSlot (k : PoolKind) (f : PoolSlot → PoolSlot)
  /-- `InterlockedExchange(&stop_requested_, v)`. -/
  | exchangeStop (v : Bool)
  /-- `InitializeThreadpoolEnvironment`. -/
  | initializeThreadpoolEnvironment (k : PoolKind)
  /-- `CreateThreadpool`. -/
  | createThreadpool
  /-- `SetThreadpoolThreadMaximum`. -/
  | setThreadpoolThreadMaximum (p : PoolId) (n : UInt32)
  /-- `SetThreadpoolThreadMinimum`. -/
  | setThreadpoolThreadMinimum (p : PoolId) (n : UInt32)
  /-- `CreateThreadpoolCleanupGroup`. -/
  | createThreadpoolCleanupGroup
  /-- `SetThreadpoolCallbackPool`. -/
  | setThreadpoolCallbackPool (k : PoolKind) (p : PoolId)
  /-- `SetThreadpoolCallbackCleanupGroup`, with no cleanup callback. -/
  | setThreadpoolCallbackCleanupGroup (k : PoolKind) (g : GroupId)
  /-- `CreateThread`, of the cleanup thread of a group. -/
  | createThread (g : Option GroupId)
  /-- `WaitForSingleObject`. -/
  | waitForSingleObject (thread : ℕ) (ms : UInt32)
  /-- `CloseHandle`. -/
  | closeHandle (thread : ℕ)
  /-- `CloseThreadpoolCleanupGroupMembers(…, TRUE, …)` begins. -/
  | closeThreadpoolCleanupGroupMembers (g : Option GroupId)
  /-- `CloseThreadpoolCleanupGroupMembers` returns. -/
  | closedThreadpoolCleanupGroupMembers (g : Option GroupId)
  /-- A cleanup thread ends. -/
  | exitThread (thread : ℕ)
  /-- `CloseThreadpoolCleanupGroup`. -/
  | closeThreadpoolCleanupGroup (g : Option GroupId)
  /-- `CloseThreadpool`. -/
  | closeThreadpool (p : Option PoolId)
  /-- `DestroyThreadpoolEnvironment`. -/
  | destroyThreadpoolEnvironment (k : PoolKind)

/-- A socket whose last `shared_ptr` was dropped, with its members as its destructor
finds them. -/
abbrev Dead := SockId × WinSocket

/-- The reply to a call. A call of the operating system that can fail replies with its
error or its result. -/
@[reducible] def Res : Op → Type
  | .enter _ => CallId
  | .makeSocket => SockId
  | .dropRef _ | .deleteIOData _ => List Dead
  | .readSocket _ => WinSocket
  | .readIoHandle _ => TpIo
  | .newIOData _ => DataId
  | .readIOData _ => IOData
  | .invoke _ _ _ | .userWork _ => List ApiCall
  | .newFunc _ => FuncId
  | .trySubmitThreadpoolCallback _ _ _ | .lockIoCore | .extFn _ => Bool
  | .getLastError => Int32
  | .createThreadpoolIo _ _ | .wsaCleanup | .closesocket _ | .bind _ _ | .connect _ _
  | .setsockopt _ _ | .wsaIoctl _ _ | .overlapped _ _ _ | .setThreadpoolThreadMinimum _ _ =>
    Except OsError Unit
  | .wsaStartup _ => Except OsError UInt16
  | .wsaSocketW _ _ _ | .accept _ | .sendto _ _ _ _ | .send _ _ _ | .recv _ _ _ => Except OsError ℕ
  | .recvfrom _ _ _ => Except OsError (ℕ × SockaddrStorage)
  | .getpeername _ => Except OsError SockaddrStorage
  | .getProtocolInfo _ => Except OsError ProtocolInfo
  | .getAcceptExSockaddrs _ => Option (SockaddrStorage × SockaddrStorage)
  | .readCore => WinIOCore
  | .createThreadpool => Except OsError PoolId
  | .createThreadpoolCleanupGroup => Except OsError GroupId
  | .createThread _ => Except OsError ℕ
  | .waitForSingleObject _ _ => WaitResult
  | _ => Unit

/-- What the environment decides in a call. Each call looks at the part that concerns it;
as it stands, `{}` lets every call succeed. -/
structure Ans where
  /-- The error, when the call fails. -/
  error : Option OsError := none
  /-- The version that `WSAStartup` reports. -/
  version : UInt16 := 0x0202
  /-- What `SO_PROTOCOL_INFO` reports. -/
  info : ProtocolInfo := ⟨.ipv4, .stream, .tcp⟩
  /-- The number of bytes sent or received. -/
  bytes : ℕ := 0
  /-- The address of the peer. -/
  peer : SockaddrStorage := zeroMemory
  /-- The result of a wait. -/
  wait : WaitResult := .signalled
  /-- What the constructor of the core leaves in the members it does not set. -/
  junk : PoolSlot := ⟨⟨none, none⟩, none, none, .none⟩
  /-- What a destructor leaves in the thread's last error, when it changes it. -/
  lastError : Option Int32 := none
  /-- What user code does when it is called. -/
  calls : List ApiCall := []

/-- A program of the library. -/
abbrev Prog (α : Type) := Lib.Prog Op Res α

/-- One call. -/
abbrev op (o : Op) : Prog (Res o) := Lib.Prog.op o

end FirelinkNet
