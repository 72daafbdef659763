import FirelinkNet.WinIOCore

/-!
# `WinSocket`

The functions of `win_socket.cpp`, as programs: opening and closing a socket, the
seven `start_…` functions, and `socket_io_routine`, which the IO pool runs when an
operation has completed. `x` is the object that a function is called on.

When the last `shared_ptr` to a socket is dropped, the thread that drops it runs
the destructor then and there (`destroyAll`).
-/

namespace FirelinkNet

namespace WinSocket

/-! ### References -/

/-- `WaitForThreadpoolIoCallbacks(io, FALSE); CloseThreadpoolIo(io);`. -/
def waitAndClose (io : TpIo) : Prog Unit := do
  op (.waitForThreadpoolIoCallbacks io)
  op (.waitedForThreadpoolIoCallbacks io)
  op (.closeThreadpoolIo io)

/-- `WinSocket::~WinSocket`. -/
def destroy (dead : Dead) : Prog Unit := do
  if dead.2.socketIoHandle.isSome then
    waitAndClose dead.2.socketIoHandle
  op (.destroyed dead.1)

/-- Destroy the sockets whose last `shared_ptr` was dropped. -/
def destroyAll : List Dead → Prog Unit
  | [] => return ()
  | d :: ds => do
    destroy d
    destroyAll ds

/-- Drop a `shared_ptr` to each of the sockets. -/
def dropRefs : List SockId → Prog Unit
  | [] => return ()
  | x :: xs => do
    destroyAll (← op (.dropRef x))
    dropRefs xs

/-- `delete io_data`. -/
def deleteIOData (i : DataId) : Prog Unit := do
  destroyAll (← op (.deleteIOData i))

/-! ### The synchronous interface -/

/-- `WinSocket::socket`. -/
def socket (x : SockId) (addrFamily : AddressFamily) (sockType : SocketType)
    (protocol : Protocol) : Prog ErrorCode := do
  match ← op (.wsaSocketW addrFamily sockType protocol) with
  | .error e =>
    op (.writeSocket x fun s => { s with nativeSocket := none })
    return e.toErrorCode
  | .ok h =>
    op (.writeSocket x fun s => { s with nativeSocket := some h })
    if ← op .lockIoCore then
      match ← op (.createThreadpoolIo x (some h)) with
      | .error e =>
        let _ ← op (.closesocket (some h))
        op (.writeSocket x fun s => { s with nativeSocket := none })
        return e.toErrorCode
      | .ok () =>
        op (.writeSocket x fun s =>
          { s with addrFamily := addrFamily, sockType := sockType, protocol := protocol })
        return .success
    else
      let _ ← op (.closesocket (some h))
      op (.writeSocket x fun s => { s with nativeSocket := none })
      return .systemError

/-- `WinSocket::bind`. -/
def bind (x : SockId) (endpoint : Endpoint) : Prog ErrorCode := do
  let r := endpointToSockaddr (← op (.readSocket x)).addrFamily endpoint zeroMemory
  if r.1 ≠ .success then
    return r.1
  match ← op (.bind (← op (.readSocket x)).nativeSocket r.2) with
  | .error e => return e.toErrorCode
  | .ok () =>
    op (.writeSocket x fun s => { s with isBound := true })
    return .success

/-- `WinSocket::close`, once the TP_IO is closed: the native socket is closed and the members
are reset. -/
def closeNative (x : SockId) : Prog ErrorCode := do
  let s := (← op (.readSocket x)).nativeSocket
  let err ← if s.isSome then do
      match ← op (.closesocket s) with
      | .error e => pure e.toErrorCode
      | .ok () => pure .success
    else pure .success
  op (.writeSocket x fun s => { WinSocket.new with socketIoHandle := s.socketIoHandle })
  return err

/-- `WinSocket::close`. -/
def close (x : SockId) : Prog ErrorCode := do
  let io ← op (.readIoHandle x)
  if io.isSome then
    waitAndClose io
    op (.writeSocket x fun s => { s with socketIoHandle := none })
  closeNative x

/-- `WinSocket::accept`. -/
def accept (x acceptSocket : SockId) : Prog ErrorCode := do
  match ← op (.accept (← op (.readSocket x)).nativeSocket) with
  | .error e => return e.toErrorCode
  | .ok s =>
    match ← op (.getProtocolInfo (some s)) with
    | .error e =>
      let _ ← op (.closesocket (some s))
      return e.toErrorCode
    | .ok info =>
      op (.writeSocket acceptSocket fun a => { a with
        addrFamily := info.family, sockType := info.type, protocol := info.protocol,
        nativeSocket := some s })
      if ← op .lockIoCore then
        match ← op (.createThreadpoolIo acceptSocket (some s)) with
        | .error e =>
          let _ ← close acceptSocket
          return e.toErrorCode
        | .ok () =>
          op (.writeSocket acceptSocket fun a => { a with isBound := true })
          return .success
      else
        let _ ← close acceptSocket
        return .systemError

/-- `WinSocket::connect`. -/
def connect (x : SockId) (dst : Endpoint) : Prog ErrorCode := do
  let r := endpointToSockaddr (← op (.readSocket x)).addrFamily dst zeroMemory
  if r.1 ≠ .success then
    return r.1
  match ← op (.connect (← op (.readSocket x)).nativeSocket r.2) with
  | .error e => return e.toErrorCode
  | .ok () =>
    op (.writeSocket x fun s => { s with isBound := true })
    return .success

/-- `WinSocket::send_to`: the number of bytes sent, or -1. -/
def sendTo (x : SockId) (data : Span) (dst : Endpoint) : Prog Int32 := do
  let r := endpointToSockaddr (← op (.readSocket x)).addrFamily dst zeroMemory
  if r.1 ≠ .success then
    return -1
  match ← op (.sendto (← op (.readSocket x)).nativeSocket data.data data.size.toUInt32.toInt32 r.2)
    with
  | .error _ => return -1
  | .ok n =>
    op (.writeSocket x fun s => { s with isBound := true })
    return .ofNat n

/-- `WinSocket::recv`: the number of bytes received, or -1. -/
def recv (x : SockId) (buffer : Span) : Prog Int32 := do
  match ← op (.recv (← op (.readSocket x)).nativeSocket buffer.data buffer.size.toUInt32.toInt32) with
  | .error _ => return -1
  | .ok n => return .ofNat n

/-- `WinSocket::send`: the number of bytes sent, or -1. -/
def send (x : SockId) (data : Span) : Prog Int32 := do
  match ← op (.send (← op (.readSocket x)).nativeSocket data.data data.size.toUInt32.toInt32) with
  | .error _ => return -1
  | .ok n => return .ofNat n

/-- `WinSocket::recv_from`: the number of bytes received, or -1, and what it leaves in `peer`. -/
def recvFrom (x : SockId) (buffer : Span) (peer : Endpoint) : Prog (Int32 × Endpoint) := do
  match ← op (.recvfrom (← op (.readSocket x)).nativeSocket buffer.data
    buffer.size.toUInt32.toInt32) with
  | .error _ => return (-1, peer)
  | .ok (n, addr) =>
    let r := sockaddrToEndpoint addr peer
    if r.1 ≠ .success then
      return (-1, r.2)
    return (.ofNat n, r.2)

/-- `WinSocket::get_peer_name`: the code, and what it leaves in `ep`. -/
def getPeerName (x : SockId) (ep : Endpoint) : Prog (ErrorCode × Endpoint) := do
  match ← op (.getpeername (← op (.readSocket x)).nativeSocket) with
  | .error e => return (e.toErrorCode, ep)
  | .ok addr => return sockaddrToEndpoint addr ep

/-! ### The asynchronous interface -/

/-- The end of every `start_…` function: announce the operation to the TP_IO, make the
overlapped call, and undo both when the kernel does not accept it. -/
def startIo (x : SockId) (ioData : DataId) (request : Prog IoRequest) : Prog ErrorCode := do
  let io ← op (.readIoHandle x)
  op (.startThreadpoolIo io)
  let req ← request
  match ← op (.overlapped req ioData io) with
  | .ok () => return .success
  | .error e =>
    if e.code ≠ errorIoPending then
      deleteIOData ioData
      op (.cancelThreadpoolIo (← op (.readIoHandle x)))
      return e.toErrorCode
    else
      return .success

/-- `WinSocket::start_accept`, from the allocation on. -/
def startAcceptIo (x acceptSocket : SockId) (handler : Option ℕ) : Prog ErrorCode := do
  let ioData ← op (.newIOData
    { IOData.new x ⟨.accept, handler⟩ with acceptSocket := some acceptSocket })
  startIo x ioData do
    let a ← op (.readSocket ((← op (.readIOData ioData)).acceptSocket.getD acceptSocket))
    return .acceptEx (← op (.readSocket x)).nativeSocket a.nativeSocket

/-- `WinSocket::start_accept`. -/
def startAccept (x acceptSocket : SockId) (handler : Option ℕ) : Prog ErrorCode := do
  if (← op (.readSocket acceptSocket)).nativeSocket.isNone then
    let this ← op (.readSocket x)
    let res ← socket acceptSocket this.addrFamily this.sockType this.protocol
    if res ≠ .success then
      return res
  startAcceptIo x acceptSocket handler

/-- The implicit bind of `start_connect`: `ConnectEx` requires a bound socket. -/
def bindForConnect (x : SockId) (any : Endpoint) : Prog ErrorCode := do
  if (← op (.readSocket x)).isBound then
    return .success
  else
    bind x any

/-- `WinSocket::start_connect`. -/
def startConnect (x : SockId) (dst : Endpoint) (handler : Option ℕ) : Prog ErrorCode := do
  let ioData ← op (.newIOData (.new x ⟨.connect, handler⟩))
  let r := endpointToSockaddr (← op (.readSocket x)).addrFamily dst zeroMemory
  op (.writeIOData ioData { IOData.new x ⟨.connect, handler⟩ with peerWinAddr := r.2 })
  if r.1 ≠ .success then
    return r.1
  let err ←
    if ssFamily r.2 = afInet then bindForConnect x (.ofIPv4 (.any 0) zeroMemory)
    else if ssFamily r.2 = afInet6 then bindForConnect x (.ofIPv6 (.any 0))
    else pure .success
  if err ≠ .success then
    return err
  startIo x ioData do
    let d ← op (.readIOData ioData)
    return .connectEx (← op (.readSocket x)).nativeSocket d.peerWinAddr

/-- `WinSocket::start_recv`. -/
def startRecv (x : SockId) (buffer : Span) (handler : Option ℕ) : Prog ErrorCode := do
  let ioData ← op (.newIOData { IOData.new x ⟨.read, handler⟩ with userBuffer := buffer })
  startIo x ioData do
    return .wsaRecv (← op (.readSocket x)).nativeSocket buffer.data buffer.size.toUInt32

/-- `WinSocket::start_recv_from`. -/
def startRecvFrom (x : SockId) (buffer : Span) (handler : Option ℕ) : Prog ErrorCode := do
  let ioData ← op (.newIOData { IOData.new x ⟨.read, handler⟩ with userBuffer := buffer })
  startIo x ioData do
    return .wsaRecvFrom (← op (.readSocket x)).nativeSocket buffer.data buffer.size.toUInt32

/-- `WinSocket::start_send`. -/
def startSend (x : SockId) (data : Span) (handler : Option ℕ) : Prog ErrorCode := do
  let ioData ← op (.newIOData { IOData.new x ⟨.write, handler⟩ with userBuffer := data })
  startIo x ioData do
    return .wsaSend (← op (.readSocket x)).nativeSocket data.data data.size.toUInt32

/-- `WinSocket::start_send_to`. -/
def startSendTo (x : SockId) (data : Span) (dst : Endpoint) (handler : Option ℕ) :
    Prog ErrorCode := do
  let ioData ← op (.newIOData { IOData.new x ⟨.write, handler⟩ with userBuffer := data })
  let r := endpointToSockaddr (← op (.readSocket x)).addrFamily dst zeroMemory
  op (.writeIOData ioData
    { IOData.new x ⟨.write, handler⟩ with userBuffer := data, peerWinAddr := r.2 })
  if r.1 ≠ .success then
    return r.1
  startIo x ioData do
    let d ← op (.readIOData ioData)
    return .wsaSendTo (← op (.readSocket x)).nativeSocket data.data data.size.toUInt32 d.peerWinAddr

/-- `WinSocket::start_disconnect`. -/
def startDisconnect (x : SockId) (reuseSocket : Bool) (handler : Option ℕ) : Prog ErrorCode := do
  let ioData ← op (.newIOData (.new x ⟨.disconnect, handler⟩))
  startIo x ioData do
    return .disconnectEx (← op (.readSocket x)).nativeSocket reuseSocket

end WinSocket

/-! ### User code -/

/-- A function of the interface, called by user code: it holds a `shared_ptr` to the sockets
it calls it on until it has returned. -/
def interfaceCall (c : ApiCall) (body : Prog ErrorCode) : Prog Unit := do
  let n ← op (.enter c)
  let r ← body
  op (.leave n r)
  WinSocket.dropRefs c.sockets

/-- The function of the interface that a call is of. The -1 that `send_to` returns when it fails
is read as an error. -/
def ApiCall.body : ApiCall → Prog ErrorCode
  | .socket x af ty pr => WinSocket.socket x af ty pr
  | .bind x ep => WinSocket.bind x ep
  | .close x => WinSocket.close x
  | .accept x a => WinSocket.accept x a
  | .connect x dst => WinSocket.connect x dst
  | .sendTo x b dst => do
    return if (← WinSocket.sendTo x b dst) = -1 then .systemError else .success
  | .startAccept x a h => WinSocket.startAccept x a h
  | .startConnect x dst h => WinSocket.startConnect x dst h
  | .startRecv x b h => WinSocket.startRecv x b h
  | .startRecvFrom x b h => WinSocket.startRecvFrom x b h
  | .startSend x b h => WinSocket.startSend x b h
  | .startSendTo x b dst h => WinSocket.startSendTo x b dst h
  | .startDisconnect x r h => WinSocket.startDisconnect x r h
  | .postIoWork n => WinIOCore.postIoWork (.user n)
  | .postUserWork n => WinIOCore.postUserWork (.user n)
  | .initializeCore => WinIOCore.initializeCore
  | .releaseCore => WinIOCore.releaseCore
  | .create | .copyRef _ | .dropRef _ => return .success

/-- What user code does, as a program. -/
def ApiCall.run : ApiCall → Prog Unit
  | .create => do
    let _ ← op .makeSocket
  | .copyRef x => op (.copyRef x)
  | .dropRef x => WinSocket.dropRefs [x]
  | c => interfaceCall c c.body

/-- Several, one after another. -/
def runCalls : List ApiCall → Prog Unit
  | [] => return ()
  | c :: cs => do
    c.run
    runCalls cs

namespace WinSocket

/-! ### Completion -/

/-- The user's handler is called, does what it does, and its arguments are destroyed. -/
def callHandler (ioData : DataId) (f : ℕ) (args : Args) : Prog Unit := do
  let calls ← op (.invoke ioData f args)
  runCalls calls
  dropRefs args.refs

/-- The call of the handler that a closure of `socket_io_routine` makes; `socket_io_routine`
makes the same call itself when the closure could not be posted. -/
def callUserHandler : Closure → Prog Unit
  | .accept i f localEp peerEp => do
    let d ← op (.readIOData i)
    callHandler i f (.accept d.socket d.acceptSocket localEp peerEp d.errorCode)
  | .connect i f => do
    let d ← op (.readIOData i)
    callHandler i f (.connect d.socket d.errorCode)
  | .read i f => do
    let d ← op (.readIOData i)
    callHandler i f (.read d.socket d.errorCode d.bytesTransferred)
  | .write i f => do
    let d ← op (.readIOData i)
    callHandler i f (.write d.socket d.errorCode d.bytesTransferred)
  | .disconnect i f => do
    let d ← op (.readIOData i)
    callHandler i f (.disconnect d.socket d.errorCode)
  | .user n => do
    runCalls (← op (.userWork n))

/-- The body of a closure: the handler is called, and `io_data` is deleted. -/
def runClosure (c : Closure) : Prog Unit := do
  callUserHandler c
  match c.ioData with
  | some i => deleteIOData i
  | none => return ()

/-- An error that is not to overwrite an earlier one. -/
def noteError (ioData : DataId) (err : ErrorCode) : Prog Unit := do
  if err ≠ .success then
    let d ← op (.readIOData ioData)
    if d.errorCode = .success then
      op (.writeIOData ioData { d with errorCode := err })

/-- `WinSocket::update_accept_socket_context`. -/
def updateAcceptSocketContext (listenSocket acceptSocket : SockId) : Prog ErrorCode := do
  let l ← op (.readSocket listenSocket)
  let a ← op (.readSocket acceptSocket)
  match ← op (.setsockopt a.nativeSocket (.accept l.nativeSocket)) with
  | .error e => return e.toErrorCode
  | .ok () => return .success

/-- `WinSocket::update_connect_socket_context`. -/
def updateConnectSocketContext (connectSocket : SockId) : Prog ErrorCode := do
  let s ← op (.readSocket connectSocket)
  match ← op (.setsockopt s.nativeSocket .connect) with
  | .error e => return e.toErrorCode
  | .ok () => return .success

/-- `WinSocket::get_acceptex_sockaddrs`, into the addresses of `io_data`. -/
def getAcceptexSockaddrs (ioData : DataId) : Prog ErrorCode := do
  let d ← op (.readIOData ioData)
  match ← op (.getAcceptExSockaddrs d.acceptAddressBuffer) with
  | none => return .systemError
  | some (l, p) =>
    op (.writeIOData ioData { d with localWinAddr := l, peerWinAddr := p })
    return .success

/-- Hand the handler over to the user pool, or call it when that fails. Whether it was
handed over is the result. When the core is gone the handler is not called. -/
def deliver (ioData : DataId) (c : Closure) : Prog Bool := do
  if ← op .lockIoCore then
    let err ← WinIOCore.postUserWork c
    if err = .success then
      return true
    else
      noteError ioData err
      callUserHandler c
      return false
  else
    return false

/-- The accept branch, once the context of the accepted socket is updated: the addresses are retrieved
and converted, and the handler is delivered. -/
def deliverAccept (ioData : DataId) : Option ℕ → Prog Bool
  | none => return false
  | some f => do
    noteError ioData (← getAcceptexSockaddrs ioData)
    let d ← op (.readIOData ioData)
    let localEp := sockaddrToEndpoint d.localWinAddr (.empty zeroMemory)
    noteError ioData localEp.1
    let peerEp := sockaddrToEndpoint d.peerWinAddr (.empty zeroMemory)
    noteError ioData peerEp.1
    deliver ioData (.accept ioData f localEp.2 peerEp.2)

/-- The accept branch of `socket_io_routine`. -/
def visitAccept (ioData : DataId) (caller : SockId) (handler : Option ℕ) : Prog Bool := do
  match (← op (.readIOData ioData)).acceptSocket with
  | some a => noteError ioData (← updateAcceptSocketContext caller a)
  | none => noteError ioData .systemError
  deliverAccept ioData handler

/-- The connect branch of `socket_io_routine`. -/
def visitConnect (ioData : DataId) (caller : SockId) (handler : Option ℕ) : Prog Bool := do
  noteError ioData (← updateConnectSocketContext caller)
  match handler with
  | none => return false
  | some f => deliver ioData (.connect ioData f)

/-- The read, write and disconnect branches of `socket_io_routine`, which differ in the
closure. -/
def visitPlain (ioData : DataId) (handler : Option ℕ) (c : DataId → ℕ → Closure) : Prog Bool :=
  match handler with
  | none => return false
  | some f => deliver ioData (c ioData f)

/-- The `std::visit` of `socket_io_routine`: whether the work was posted. -/
def visit (ioData : DataId) (caller : SockId) (h : Handler) : Prog Bool :=
  match h.kind with
  | .accept => visitAccept ioData caller h.func
  | .connect => visitConnect ioData caller h.func
  | .read => visitPlain ioData h.func .read
  | .write => visitPlain ioData h.func .write
  | .disconnect => visitPlain ioData h.func .disconnect

/-- `WinSocket::socket_io_routine`. -/
def socketIoRoutine (overlapped : Option DataId) (ioResult : UInt32) (nBytesTransferred : UInt64) :
    Prog Unit := do
  match overlapped with
  | none => return ()
  | some ioData =>
    let d ← op (.readIOData ioData)
    op (.writeIOData ioData { d with
      bytesTransferred := nBytesTransferred.toUInt32.toInt32
      errorCode := .ofULong ioResult })
    if ← visit ioData d.socket d.userHandler then
      return ()
    else
      deleteIOData ioData

end WinSocket

end FirelinkNet
