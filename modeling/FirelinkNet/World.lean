import FirelinkNet.Calls

/-!
# The world of the library

What the library's code shares, and what its calls do to it: the `WinSocket`
objects and the references to them, the `IOData` objects on the heap, the members
of the `WinIOCore`, the thread pool objects, the native sockets, and the operations
pending in the kernel.

The operating system is as documented: an overlapped call accepts an operation
when it succeeds or reports `ERROR_IO_PENDING`; a TP_IO belongs to the cleanup
group of the environment it was created with; `CloseThreadpoolCleanupGroupMembers`
closes the members of the group, discards the callbacks that have not started (no
cleanup callback is registered) and returns when none is running;
`WaitForThreadpoolIoCallbacks` returns when no callback of the object is queued or
running, and does not wait for the kernel.

Nothing stops the code from misusing what it is given: misuse is recorded in
`World.faults`, and it is for the theorems to say when there is none.
-/

namespace FirelinkNet

open Lib

/-- An operation accepted by the kernel that has not completed. -/
structure PendingIo where
  /-- Its `OVERLAPPED`. -/
  data : DataId
  /-- The TP_IO that its completion goes to, and the cleanup group of that. -/
  io : TpIo
  group : Option GroupId
  deriving DecidableEq, Repr

/-- What the kernel reports, and writes, when an operation completes. -/
structure Completion where
  /-- `io_result`. -/
  ioResult : UInt32
  /-- `n_bytes_transferred`. -/
  nBytesTransferred : UInt64
  /-- For `AcceptEx`, what it wrote to the address buffer. -/
  addrs : Option (SockaddrStorage × SockaddrStorage)
  /-- For `WSARecvFrom`, the address of the peer. -/
  peer : SockaddrStorage

/-- A completion on its way to `socket_io_routine`. -/
structure IoCallback where
  /-- `overlapped`. -/
  data : DataId
  /-- `io`, and its cleanup group. -/
  io : TpIo
  group : Option GroupId
  /-- `io_result`. -/
  ioResult : UInt32
  /-- `n_bytes_transferred`. -/
  nBytesTransferred : UInt64
  deriving DecidableEq, Repr

/-- A closure submitted to a thread pool. -/
structure Work where
  /-- Where the closure is on the heap. -/
  func : FuncId
  /-- The closure. -/
  closure : Closure
  /-- The pool. -/
  kind : PoolKind
  /-- The cleanup group of the environment it was submitted with. -/
  group : Option GroupId
  /-- The members of the group were being closed when it was submitted. -/
  late : Bool

/-- What the calls that `socket_io_routine` makes on a completion reported. -/
structure Reports where
  /-- The error of `setsockopt`, in `update_accept_socket_context` or `update_connect_socket_context`. -/
  update : ErrorCode
  /-- `GetAcceptExSockaddrs` found the two addresses. -/
  parsed : Bool
  /-- `GetLastError`, when the handler could not be posted. -/
  post : ErrorCode

/-- None was made. -/
def Reports.none : Reports := ⟨.success, false, .success⟩

/-- A call is made, and this is its reply. -/
def Reports.hear (ρ : Reports) : (o : Op) → Res o → Reports
  | .setsockopt _ _, .ok () => { ρ with update := .success }
  | .setsockopt _ _, .error e => { ρ with update := e.toErrorCode }
  | .getAcceptExSockaddrs _, r => { ρ with parsed := r.isSome }
  | .getLastError, e => { ρ with post := ⟨e⟩ }
  | _, _ => ρ

/-- What a thread pool thread is running. -/
inductive Task where
  /-- `socket_io_routine` on a completion. -/
  | io (cb : IoCallback)
  /-- A closure. -/
  | work (q : Work)

/-- The cleanup group of a task. -/
def Task.group : Task → Option GroupId
  | .io cb => cb.group
  | .work q => q.group

/-- A task is a callback of the TP_IO. -/
def Task.isOf (h : ℕ) : Task → Bool
  | .io cb => cb.io = some h
  | .work _ => false

/-- A cleanup thread of `release_threadpool`. -/
structure Helper where
  /-- The group whose members it closes. -/
  group : Option GroupId
  /-- It has started. -/
  started : Bool
  /-- It has ended. -/
  done : Bool
  deriving DecidableEq, Repr

/-- A misuse. -/
inductive Fault where
  /-- An `IOData` was used, or deleted, when it was not live. -/
  | useAfterFree (i : DataId)
  /-- A TP_IO call on the null pointer. -/
  | nullTpIo
  /-- A TP_IO call on a TP_IO that is closed. -/
  | closedTpIo (h : ℕ)
  /-- A thread that runs a callback of a TP_IO waits for the callbacks of that TP_IO. -/
  | selfWait (h : ℕ)
  /-- A function of the interface closed a TP_IO with an operation in flight. -/
  | closedInFlight (h : ℕ)
  /-- A callback was submitted with an environment whose pool or cleanup group is closed. -/
  | closedPool (k : PoolKind)
  /-- A cleanup group, or the pool it serves, was closed before its members were. -/
  | membersOpen (g : GroupId)
  /-- `release` returned `Success` with a callback queued or running. -/
  | notQuiescent
  /-- `ConnectEx` was called on a socket without a local address. -/
  | connectUnbound
  /-- `start_connect` called `bind` on a socket with a local address. -/
  | connectRebound
  deriving DecidableEq, Repr

/-- The world. -/
structure World where
  /-- The calls of the interface, and what they returned. -/
  calls : CallId → Option ApiCall
  results : CallId → Option ErrorCode
  nextCall : CallId
  /-- The core as a call found it when it was entered. -/
  coreAt : CallId → WinIOCore
  /-- The call that a thread is in. -/
  cur : ℕ → Option CallId
  /-- The `WinSocket` objects, and the `shared_ptr`s that user code holds to them. -/
  socks : SockId → Option WinSocket
  nextSock : SockId
  userRefs : SockId → ℕ
  /-- The `IOData` objects, and for each the call that allocated it, the overlapped call made
  with it, whether the kernel accepted that, its completion, what was reported when that was processed, whether its
  handler was offered to the user pool, the calls of the handler and its deletions. -/
  heap : DataId → Cell
  nextData : DataId
  opOf : DataId → Option CallId
  requests : DataId → Option IoRequest
  accepted : DataId → Bool
  completions : DataId → Option Completion
  reports : DataId → Reports
  posted : DataId → Bool
  invocations : DataId → List (ℕ × Args)
  frees : DataId → ℕ
  /-- The closures on the heap: what was submitted of each, and how often it was run and
  deleted. -/
  nextFunc : FuncId
  works : FuncId → Option Work
  executed : FuncId → ℕ
  funcFrees : FuncId → ℕ
  /-- The last error of a thread. -/
  lastError : ℕ → Int32
  /-- The operations pending in the kernel, the completions queued to the IO pool, the
  closures queued to either pool, and what the pools' threads are running. -/
  kernel : List PendingIo
  ioQueue : List IoCallback
  queue : List Work
  running : List (ℕ × Task)
  /-- The TP_IOs: the socket each was created for, the native socket, its cleanup group, and how
  often it was closed; for a call, its `StartThreadpoolIo`s and `CancelThreadpoolIo`s; and the threads
  between `WaitForThreadpoolIoCallbacks` and `CloseThreadpoolIo`. -/
  nextTp : ℕ
  tpSock : ℕ → SockId
  tpHandle : ℕ → NativeHandle
  tpGroup : ℕ → Option GroupId
  tpCloses : ℕ → ℕ
  tpStarts : CallId → ℕ
  tpCancels : CallId → ℕ
  waiters : List (ℕ × ℕ)
  /-- Winsock: the successful `WSAStartup`s, the `WSACleanup`s, the native sockets, how often
  each was closed and whether it has a local address, the addresses handed over, and the extension
  functions found. -/
  startups : ℕ
  cleanups : ℕ
  nextHandle : ℕ
  sockCloses : ℕ → ℕ
  bound : ℕ → Bool
  addresses : List (NameRole × SockaddrStorage)
  extFns : ExtFn → Bool
  /-- The core: whether a `shared_ptr` to it is left, and its members. -/
  coreAlive : Bool
  core : WinIOCore
  /-- The pools and groups, how often each was closed, and the group that serves a pool; the
  environments are numbered by their initialization. -/
  nextPool : PoolId
  nextGroup : GroupId
  poolCloses : PoolId → ℕ
  groupCloses : GroupId → ℕ
  poolGroup : PoolId → Option GroupId
  environOpens : PoolKind → ℕ
  environCloses : PoolKind → ℕ → ℕ
  /-- `CloseThreadpoolCleanupGroupMembers` has begun, and has returned. -/
  membersBegun : GroupId → Bool
  membersDone : GroupId → Bool
  helpers : List Helper
  /-- The misuses so far. -/
  faults : List Fault

/-- Change a function at one place. -/
abbrev upd {α β : Type} [DecidableEq α] (f : α → β) (a : α) (b : β) : α → β := Function.update f a b

/-- Count one more for what is named, if anything is. -/
def bump (f : ℕ → ℕ) : Option ℕ → ℕ → ℕ
  | some h => upd f h (f h + 1)
  | none => f

/-- Mark what is named, if anything is. -/
def mark (f : ℕ → Bool) : Option ℕ → ℕ → Bool
  | some h => upd f h true
  | none => f

namespace World

/-- Record a misuse, if there was one. -/
def check (w : World) (bad : Bool) (f : Fault) : World :=
  { w with faults := if bad then f :: w.faults else w.faults }

/-- The `IOData` holds a `shared_ptr` to `x`. -/
def refersTo (w : World) (i : DataId) (x : SockId) : Bool :=
  match w.heap i with
  | .live d => d.refs.contains x
  | _ => false

/-- Some `shared_ptr` to `x` is left. -/
def referenced (w : World) (x : SockId) : Bool :=
  decide (0 < w.userRefs x) || (List.range w.nextData).any fun i => w.refersTo i x

/-- Of the sockets named, those that no `shared_ptr` is left to, with their members. -/
def dead (w : World) (xs : List SockId) : List Dead :=
  xs.dedup.filterMap fun x =>
    if w.referenced x then none else (w.socks x).map fun s => (x, s)

/-- Give user code a `shared_ptr` to each of the sockets. -/
def addRefs (w : World) (xs : List SockId) : World :=
  { w with userRefs := fun x => w.userRefs x + xs.count x }

/-- The cleanup group of a TP_IO. -/
def groupOfIo (w : World) : TpIo → Option GroupId
  | some h => w.tpGroup h
  | none => none

/-- A callback of the group is running. -/
def groupRunning (w : World) (g : GroupId) : Bool :=
  w.running.any fun r => r.2.group = some g

/-- A callback of the group is queued. -/
def groupQueued (w : World) (g : GroupId) : Bool :=
  (w.ioQueue.any fun cb => cb.group = some g) || w.queue.any fun q => q.group = some g

/-- A callback of the TP_IO is queued or running. -/
def ioActive (w : World) (h : ℕ) : Bool :=
  (w.ioQueue.any fun cb => cb.io = some h) || w.running.any fun r => Task.isOf h r.2

/-- An operation of the TP_IO is pending in the kernel. -/
def ioPending (w : World) (h : ℕ) : Bool := w.kernel.any fun e => e.io = some h

/-- Thread `t` is running a callback of the TP_IO. -/
def inCallback (w : World) (t h : ℕ) : Bool := w.running.any fun r => r.1 = t && Task.isOf h r.2

/-- The pool or the cleanup group of an environment is closed. -/
def environClosed (w : World) (e : Environ) : Bool :=
  (e.pool.any fun p => 0 < w.poolCloses p) || e.group.any fun g => 0 < w.groupCloses g

/-- A TP_IO call is made on `io`: misuse when it is null or closed. -/
def useIo (w : World) (io : TpIo) : World :=
  w.check (io.all fun h => 0 < w.tpCloses h) ((io.map .closedTpIo).getD .nullTpIo)

/-- An `IOData` is used: misuse when it is not live. -/
def useData (w : World) (i : DataId) : World := w.check (!(w.heap i).isLive) (.useAfterFree i)

/-- An overlapped call's answer says that the kernel accepted the operation. -/
def accepts : Option OsError → Bool
  | none => true
  | some e => e.code = errorIoPending

/-- The result of a call that can fail. -/
def result {α : Type} (a : Ans) (r : α) : Except OsError α :=
  match a.error with
  | some e => .error e
  | none => .ok r

/-- The last errors, after a call of thread `t` that may have failed. -/
def setLastError (w : World) (t : ℕ) : Option OsError → ℕ → Int32
  | some e => upd w.lastError t e.code
  | none => w.lastError

/-- `user_handler_` is an `AcceptHandler`: its call moves `accept_socket_` out. -/
def moveAccept (d : IOData) : IOData :=
  if d.userHandler.kind = .accept then { d with acceptSocket := none } else d

/-- Both pools of the core have neither a queued nor a running callback. -/
def quiescent (w : World) : Bool :=
  [w.core.io.cleanupGroup, w.core.user.cleanupGroup].all fun g =>
    g.all fun g => !w.groupQueued g && !w.groupRunning g

/-- `delete io_data`: the sockets that it held the last `shared_ptr` to are to be destroyed. -/
def deleteIOData (w : World) (i : DataId) : List Dead × World :=
  let w' := { w.useData i with heap := upd w.heap i .freed, frees := upd w.frees i (w.frees i + 1) }
  (if (w.heap i).isLive then w'.dead (w.heap i).get.refs else [], w')

/-- User code's function is called with arguments made from `io_data`. -/
def invoke (w : World) (i : DataId) (f : ℕ) (args : Args) : World :=
  { w with
    faults := (w.useData i).faults
    userRefs := (w.addRefs args.refs).userRefs
    invocations := upd w.invocations i (w.invocations i ++ [(f, args)])
    heap := upd w.heap i ((w.heap i).map moveAccept) }

/-- A closure as it is submitted with the environment of a pool. -/
def work (w : World) (f : FuncId) (c : Closure) (k : PoolKind) : Work :=
  ⟨f, c, k, (w.core.slot k).environ.group, (w.core.slot k).environ.group.any w.membersBegun⟩

/-- `TrySubmitThreadpoolCallback`. -/
def trySubmit (w : World) (t : ℕ) (f : FuncId) (c : Closure) (k : PoolKind) (a : Ans) : World :=
  { w.check (w.environClosed (w.core.slot k).environ) (.closedPool k) with
    queue := if a.error.isNone then w.queue ++ [w.work f c k] else w.queue
    works := if a.error.isNone then upd w.works f (some (w.work f c k)) else w.works
    posted := mark w.posted c.ioData
    lastError := w.setLastError t a.error }

/-- `CreateThreadpoolIo`, assigned to `socket_io_handle_` of `x`. -/
def createIo (w : World) (x : SockId) (s : NativeHandle) (ok : Bool) : World :=
  { w with
    socks := upd w.socks x ((w.socks x).map fun s =>
      { s with socketIoHandle := if ok then some w.nextTp else none })
    nextTp := if ok then w.nextTp + 1 else w.nextTp
    tpSock := if ok then upd w.tpSock w.nextTp x else w.tpSock
    tpHandle := if ok then upd w.tpHandle w.nextTp s else w.tpHandle
    tpGroup := if ok then upd w.tpGroup w.nextTp w.core.io.environ.group else w.tpGroup }

/-- `WaitForThreadpoolIoCallbacks` begins, called by thread `t`. -/
def waitIo (w : World) (t : ℕ) (io : TpIo) : World :=
  { w with
    faults := ((w.useIo io).check (io.any fun h => w.inCallback t h) (.selfWait (io.getD 0))).faults
    waiters := io.toList.map ((t, ·)) ++ w.waiters }

/-- `CloseThreadpoolIo`, called by thread `t`. -/
def closeIo (w : World) (t : ℕ) (io : TpIo) : World :=
  { w with
    faults := ((w.useIo io).check
      (io.any fun h => (w.cur t).isSome && (w.ioPending h || w.ioActive h))
      (.closedInFlight (io.getD 0))).faults
    tpCloses := bump w.tpCloses io
    waiters := w.waiters.filter fun p => p.1 ≠ t ∨ some p.2 ≠ io }

/-- `CloseThreadpoolCleanupGroupMembers(g, TRUE, …)` begins: it closes the TP_IOs of the
group that are open, and discards the callbacks that have not started. -/
def closeMembers (w : World) (g : GroupId) : World :=
  { w with
    tpCloses := fun h =>
      if h < w.nextTp ∧ w.tpGroup h = some g ∧ w.tpCloses h = 0 then 1 else w.tpCloses h
    ioQueue := w.ioQueue.filter fun cb => cb.group ≠ some g
    queue := w.queue.filter fun q => q.group ≠ some g
    membersBegun := upd w.membersBegun g true }

/-- `CloseThreadpoolCleanupGroup`. -/
def closeGroup (w : World) (g : Option GroupId) : World :=
  { w.check (g.any fun g => !w.membersDone g) (.membersOpen (g.getD 0)) with
    groupCloses := bump w.groupCloses g }

/-- `CloseThreadpool`. -/
def closePool (w : World) (p : Option PoolId) : World :=
  let g := p.bind w.poolGroup
  { w.check (g.any fun g => !w.membersDone g) (.membersOpen (g.getD 0)) with
    poolCloses := bump w.poolCloses p }

/-- User code enters a function of the interface. -/
def enterCall (w : World) (t : ℕ) (c : ApiCall) : World :=
  { w.addRefs c.sockets with
    calls := upd w.calls w.nextCall (some c)
    nextCall := w.nextCall + 1
    coreAt := upd w.coreAt w.nextCall w.core
    cur := upd w.cur t (some w.nextCall) }

/-- The function returns `r`. -/
def leaveCall (w : World) (t : ℕ) (n : CallId) (r : ErrorCode) : World :=
  { w.check ((w.calls n matches some .releaseCore) && r = .success && !w.quiescent)
      .notQuiescent with
    results := upd w.results n (some r)
    cur := upd w.cur t none }

/-- `std::make_shared<WinSocket>`. -/
def makeSocket (w : World) : World :=
  { w.addRefs [w.nextSock] with
    socks := upd w.socks w.nextSock (some .new)
    nextSock := w.nextSock + 1 }

/-- User code drops a `shared_ptr`. -/
def dropRef (w : World) (x : SockId) : World :=
  { w with userRefs := upd w.userRefs x (w.userRefs x - 1) }

/-- The members of a socket are changed, or the socket is gone. -/
def setSocket (w : World) (x : SockId) (f : Option WinSocket → Option WinSocket) : World :=
  { w with socks := upd w.socks x (f (w.socks x)) }

/-- `new IOData`, within the call that thread `t` is in. -/
def newIOData (w : World) (t : ℕ) (d : IOData) : World :=
  { w with
    heap := upd w.heap w.nextData (.live d)
    nextData := w.nextData + 1
    opOf := upd w.opOf w.nextData (w.cur t) }

/-- The members of an `IOData` are assigned. -/
def writeIOData (w : World) (i : DataId) (d : IOData) : World :=
  { w.useData i with heap := upd w.heap i ((w.heap i).map fun _ => d) }

/-- A closure is put on the heap. -/
def newFunc (w : World) : World := { w with nextFunc := w.nextFunc + 1 }

/-- A closure is run. -/
def runFunc (w : World) (f : FuncId) : World :=
  { w with executed := upd w.executed f (w.executed f + 1) }

/-- The last error of thread `t` is changed. -/
def leaveError (w : World) (t : ℕ) (e : Option Int32) : World :=
  { w with lastError := upd w.lastError t (e.getD (w.lastError t)) }

/-- `delete f`. -/
def deleteFunc (w : World) (t : ℕ) (f : FuncId) (e : Option Int32) : World :=
  { w.leaveError t e with funcFrees := upd w.funcFrees f (w.funcFrees f + 1) }

/-- The callback that thread `t` runs returns. -/
def callbackReturn (w : World) (t : ℕ) : World :=
  { w with running := w.running.filter (·.1 ≠ t) }

/-- `StartThreadpoolIo`, within the call that thread `t` is in. -/
def startIo (w : World) (t : ℕ) (io : TpIo) : World :=
  { w.useIo io with tpStarts := bump w.tpStarts (w.cur t) }

/-- `CancelThreadpoolIo`, within the call that thread `t` is in. -/
def cancelIo (w : World) (t : ℕ) (io : TpIo) : World :=
  { w.useIo io with tpCancels := bump w.tpCancels (w.cur t) }

/-- `WSAStartup`. -/
def startup (w : World) (ok : Bool) : World :=
  { w with startups := if ok then w.startups + 1 else w.startups }

/-- `WSACleanup`. -/
def cleanup (w : World) : World := { w with cleanups := w.cleanups + 1 }

/-- A native socket is opened; an accepted one has a local address. -/
def openHandle (w : World) (named ok : Bool) : World :=
  { w with
    nextHandle := if ok then w.nextHandle + 1 else w.nextHandle
    bound := if ok then upd w.bound w.nextHandle named else w.bound }

/-- A native socket is closed. -/
def closeHandle (w : World) (s : NativeHandle) (ok : Bool) : World :=
  { w with sockCloses := if ok then bump w.sockCloses s else w.sockCloses }

/-- The native socket has a local address. -/
def isNamed (w : World) : NativeHandle → Bool
  | some h => w.bound h
  | none => false

/-- Thread `t` is in `start_connect`. -/
def connecting (w : World) (t : ℕ) : Bool :=
  (w.cur t).any fun n => w.calls n matches some (.startConnect _ _ _)

/-- An address is handed to Winsock with a native socket, which has a local address when the call
succeeds. -/
def handOver (w : World) (s : NativeHandle) (name : NameRole × SockaddrStorage) (ok : Bool) : World :=
  { w with
    addresses := name :: w.addresses
    bound := if ok then mark w.bound s else w.bound }

/-- `::bind`, called by thread `t`. -/
def bindHandle (w : World) (t : ℕ) (s : NativeHandle) (name : SockaddrStorage) (ok : Bool) : World :=
  (w.check (w.connecting t && w.isNamed s) .connectRebound).handOver s (.own, name) ok

/-- The call is `ConnectEx`, on a socket without a local address. -/
def connectsUnbound (w : World) : IoRequest → Bool
  | .connectEx s _ => !w.isNamed s
  | _ => false

/-- An overlapped call is made with an `IOData`, and the kernel accepts it or not. -/
def request (w : World) (i : DataId) (req : IoRequest) (ok : Bool) : World :=
  { w.check (w.connectsUnbound req) .connectUnbound with
    requests := upd w.requests i (some req)
    addresses := req.name?.toList ++ w.addresses
    bound := if ok then mark w.bound req.binds else w.bound }

/-- The pointer to an extension function is set. -/
def setExtFn (w : World) (fn : ExtFn) (ok : Bool) : World :=
  { w with extFns := if ok then upd w.extFns fn true else w.extFns }

/-- An overlapped call: the operation is pending when the kernel accepts it. -/
def submit (w : World) (i : DataId) (io : TpIo) (ok : Bool) : World :=
  { w with
    kernel := if ok then w.kernel ++ [⟨i, io, w.groupOfIo io⟩] else w.kernel
    accepted := if ok then upd w.accepted i true else w.accepted }

/-- The core is replaced. -/
def setCore (w : World) (alive : Bool) (c : WinIOCore) : World :=
  { w with coreAlive := alive, core := c }

/-- The members of the core for a pool are assigned. -/
def setSlot (w : World) (k : PoolKind) (f : PoolSlot → PoolSlot) : World :=
  { w with core := w.core.setSlot f k }

/-- `InitializeThreadpoolEnvironment`. -/
def openEnviron (w : World) (k : PoolKind) : World :=
  { w.setSlot k fun s => { s with environ := ⟨none, none⟩ } with
    environOpens := upd w.environOpens k (w.environOpens k + 1) }

/-- `CreateThreadpool`. -/
def openPool (w : World) (ok : Bool) : World :=
  { w with nextPool := if ok then w.nextPool + 1 else w.nextPool }

/-- `CreateThreadpoolCleanupGroup`. -/
def openGroup (w : World) (ok : Bool) : World :=
  { w with nextGroup := if ok then w.nextGroup + 1 else w.nextGroup }

/-- `SetThreadpoolCallbackCleanupGroup`. -/
def setEnvironGroup (w : World) (k : PoolKind) (g : GroupId) : World :=
  { w.setSlot k fun s => { s with environ := { s.environ with group := some g } } with
    poolGroup := fun p =>
      if (w.core.slot k).environ.pool = some p then some g else w.poolGroup p }

/-- `CreateThread`, called by thread `t`. -/
def createThread (w : World) (t : ℕ) (g : Option GroupId) (e : Option OsError) : World :=
  { w with
    helpers := if e.isNone then w.helpers ++ [⟨g, false, false⟩] else w.helpers
    lastError := w.setLastError t e }

/-- `WaitForSingleObject`, called by thread `t`. -/
def waitThread (w : World) (t : ℕ) (r : WaitResult) : World :=
  { w with lastError := w.setLastError t r.error? }

/-- `CloseThreadpoolCleanupGroupMembers` returns. -/
def closedMembers (w : World) (g : Option GroupId) : World :=
  { w with membersDone := mark w.membersDone g }

/-- A cleanup thread ends. -/
def exitThread (w : World) (k : ℕ) : World :=
  { w with helpers := w.helpers.modify k fun h => { h with done := true } }

/-- `DestroyThreadpoolEnvironment`. -/
def closeEnviron (w : World) (k : PoolKind) : World :=
  { w with
    environCloses := upd w.environCloses k (bump (w.environCloses k) (some (w.environOpens k))) }

/-- The `IOData` that thread `t` runs `socket_io_routine` on, when it is in no call of the interface. -/
def handled (w : World) (t : ℕ) : Option DataId :=
  if (w.cur t).isSome then none
  else (w.running.find? fun r => r.1 = t).bind fun r =>
    match r.2 with
    | .io cb => some cb.data
    | .work _ => none

/-- What a call of `socket_io_routine` reported is put on record. -/
def report (w : World) (t : ℕ) (o : Op) (r : Res o) : World :=
  { w with
    reports := match w.handled t with
      | some i => upd w.reports i ((w.reports i).hear o r)
      | none => w.reports }

theorem report_of_none {w : World} {t : ℕ} {o : Op} {r : Res o} (h : w.handled t = none) : w.report t o r = w := by
  unfold report
  rw [h]

theorem report_of_some {w : World} {t : ℕ} {o : Op} {r : Res o} {i : DataId} (h : w.handled t = some i) :
    w.report t o r = { w with reports := upd w.reports i ((w.reports i).hear o r) } := by
  unfold report
  rw [h]

/-- What a call does when thread `t` makes it and the environment answers `a`. -/
def reply (w : World) (t : ℕ) : (o : Op) → Ans → Res o × World
  | .enter c, _ => (w.nextCall, w.enterCall t c)
  | .leave n r, _ => ((), w.leaveCall t n r)
  | .makeSocket, _ => (w.nextSock, w.makeSocket)
  | .copyRef x, _ => ((), w.addRefs [x])
  | .dropRef x, _ => ((w.dropRef x).dead [x], w.dropRef x)
  | .destroyed x, _ => ((), w.setSocket x fun _ => none)
  | .readSocket x, _ => ((w.socks x).getD .new, w)
  | .readIoHandle x, _ => (((w.socks x).getD .new).socketIoHandle, w)
  | .writeSocket x f, _ => ((), w.setSocket x (Option.map f))
  | .newIOData d, _ => (w.nextData, w.newIOData t d)
  | .readIOData i, _ => ((w.heap i).get, w.useData i)
  | .writeIOData i d, _ => ((), w.writeIOData i d)
  | .deleteIOData i, _ => w.deleteIOData i
  | .invoke i f args, a => (a.calls, w.invoke i f args)
  | .newFunc _, _ => (w.nextFunc, w.newFunc)
  | .invokeFunc f, _ => ((), w.runFunc f)
  | .userWork _, a => (a.calls, w)
  | .deleteFunc f, a => ((), w.deleteFunc t f a.lastError)
  | .trySubmitThreadpoolCallback f c k, a => (a.error.isNone, w.trySubmit t f c k a)
  | .getLastError, _ => (w.lastError t, w.report t .getLastError (w.lastError t))
  | .callbackReturn, _ => ((), w.callbackReturn t)
  | .createThreadpoolIo x s, a => (result a (), w.createIo x s a.error.isNone)
  | .startThreadpoolIo io, _ => ((), w.startIo t io)
  | .cancelThreadpoolIo io, _ => ((), w.cancelIo t io)
  | .waitForThreadpoolIoCallbacks io, _ => ((), w.waitIo t io)
  | .waitedForThreadpoolIoCallbacks _, _ => ((), w)
  | .closeThreadpoolIo io, _ => ((), w.closeIo t io)
  | .wsaStartup _, a => (result a a.version, w.startup a.error.isNone)
  | .wsaCleanup, a => (result a (), w.cleanup)
  | .wsaSocketW _ _ _, a => (result a w.nextHandle, w.openHandle false a.error.isNone)
  | .closesocket s, a => (result a (), w.closeHandle s a.error.isNone)
  | .accept _, a => (result a w.nextHandle, w.openHandle true a.error.isNone)
  | .getProtocolInfo _, a => (result a a.info, w)
  | .bind s name, a => (result a (), w.bindHandle t s name a.error.isNone)
  | .connect s name, a => (result a (), w.handOver s (.peer, name) a.error.isNone)
  | .sendto s _ _ dst, a => (result a a.bytes, w.handOver s (.peer, dst) a.error.isNone)
  | .recvfrom _ _ _, a => (result a (a.bytes, a.peer), w)
  | .send _ _ _, a => (result a a.bytes, w)
  | .recv _ _ _, a => (result a a.bytes, w)
  | .getpeername _, a => (result a a.peer, w)
  | .setsockopt s u, a => (result a (), w.report t (.setsockopt s u) (result a ()))
  | .getAcceptExSockaddrs buffer, a =>
    let r := if a.error.isNone then buffer else none
    (r, w.report t (.getAcceptExSockaddrs buffer) r)
  | .extFn fn, _ => (w.extFns fn, w)
  | .wsaIoctl _ fn, a => (result a (), w.setExtFn fn a.error.isNone)
  | .overlapped req i io, a =>
    (result a (), (w.submit i io (accepts a.error)).request i req (accepts a.error))
  | .makeCore conf, a => ((), w.setCore true ⟨conf, false, a.junk, a.junk⟩)
  | .destroyCore, _ => ((), w.setCore false w.core)
  | .lockIoCore, _ => (w.coreAlive, w)
  | .readCore, _ => (w.core, w)
  | .writeSlot k f, _ => ((), w.setSlot k f)
  | .exchangeStop v, _ => ((), w.setCore w.coreAlive { w.core with stopRequested := v })
  | .initializeThreadpoolEnvironment k, _ => ((), w.openEnviron k)
  | .createThreadpool, a => (result a w.nextPool, w.openPool a.error.isNone)
  | .setThreadpoolThreadMaximum _ _, _ => ((), w)
  | .setThreadpoolThreadMinimum _ _, a => (result a (), w)
  | .createThreadpoolCleanupGroup, a => (result a w.nextGroup, w.openGroup a.error.isNone)
  | .setThreadpoolCallbackPool k p, _ =>
    ((), w.setSlot k fun s => { s with environ := { s.environ with pool := some p } })
  | .setThreadpoolCallbackCleanupGroup k g, _ => ((), w.setEnvironGroup k g)
  | .createThread g, a => (result a w.helpers.length, w.createThread t g a.error)
  | .waitForSingleObject _ _, a => (a.wait, w.waitThread t a.wait)
  | .closeHandle _, a => ((), w.leaveError t a.lastError)
  | .closeThreadpoolCleanupGroupMembers g, _ => ((), (g.map w.closeMembers).getD w)
  | .closedThreadpoolCleanupGroupMembers g, _ => ((), w.closedMembers g)
  | .exitThread k, _ => ((), w.exitThread k)
  | .closeThreadpoolCleanupGroup g, _ => ((), w.closeGroup g)
  | .closeThreadpool p, _ => ((), w.closePool p)
  | .destroyThreadpoolEnvironment k, _ => ((), w.closeEnviron k)

theorem mem_dead {w : World} {xs : List SockId} {d : Dead} :
    d ∈ w.dead xs ↔ d.1 ∈ xs ∧ w.referenced d.1 = false ∧ w.socks d.1 = some d.2 := by
  obtain ⟨x, s⟩ := d
  simp only [dead, List.mem_filterMap, List.mem_dedup]
  constructor
  · rintro ⟨y, hy, h⟩
    split_ifs at h with hr
    obtain ⟨s', hs', heq⟩ := Option.map_eq_some_iff.mp h
    cases heq
    exact ⟨hy, by simpa using hr, hs'⟩
  · rintro ⟨hx, hr, hs⟩
    exact ⟨x, hx, by simp [hr, hs]⟩

/-- The misuse that a call of thread `t` is, if any. -/
def causes (w : World) (t : ℕ) : Op → Fault → Prop
  | .readIOData i, .useAfterFree j | .writeIOData i _, .useAfterFree j
  | .deleteIOData i, .useAfterFree j | .invoke i _ _, .useAfterFree j => j = i ∧ (w.heap i).isLive = false
  | .startThreadpoolIo io, .nullTpIo | .cancelThreadpoolIo io, .nullTpIo
  | .waitForThreadpoolIoCallbacks io, .nullTpIo | .closeThreadpoolIo io, .nullTpIo => io = none
  | .startThreadpoolIo io, .closedTpIo h | .cancelThreadpoolIo io, .closedTpIo h
  | .waitForThreadpoolIoCallbacks io, .closedTpIo h | .closeThreadpoolIo io, .closedTpIo h =>
    io = some h ∧ 0 < w.tpCloses h
  | .waitForThreadpoolIoCallbacks io, .selfWait h => io = some h ∧ w.inCallback t h = true
  | .closeThreadpoolIo io, .closedInFlight h =>
    io = some h ∧ (w.cur t).isSome ∧ (w.ioPending h = true ∨ w.ioActive h = true)
  | .trySubmitThreadpoolCallback _ _ k, .closedPool k' =>
    k' = k ∧ w.environClosed (w.core.slot k).environ = true
  | .closeThreadpoolCleanupGroup g, .membersOpen g' => g = some g' ∧ w.membersDone g' = false
  | .closeThreadpool p, .membersOpen g => p.bind w.poolGroup = some g ∧ w.membersDone g = false
  | .leave n r, .notQuiescent =>
    w.calls n = some .releaseCore ∧ r = .success ∧ w.quiescent = false
  | .bind s _, .connectRebound => w.connecting t = true ∧ w.isNamed s = true
  | .overlapped req _ _, .connectUnbound => w.connectsUnbound req = true
  | _, _ => False

theorem mem_check {w : World} {bad : Bool} {f g : Fault} :
    g ∈ (w.check bad f).faults ↔ (bad = true ∧ g = f) ∨ g ∈ w.faults := by
  cases bad <;> simp [check]

/-- **Every misuse has its cause.** -/
theorem mem_faults_reply {w : World} {t : ℕ} {o : Op} {a : Ans} {f : Fault}
    (h : f ∈ (w.reply t o a).2.faults) : f ∈ w.faults ∨ w.causes t o f := by
  have hio : ∀ {io : TpIo} {g : Fault}, g ∈ (w.useIo io).faults →
      g ∈ w.faults ∨ (g = .nullTpIo ∧ io = none) ∨ ∃ h, g = .closedTpIo h ∧ io = some h ∧
        0 < w.tpCloses h := by
    intro io g hg
    rcases mem_check.mp hg with ⟨hb, rfl⟩ | hg
    · cases io with
      | none => exact .inr (.inl ⟨rfl, rfl⟩)
      | some h => exact .inr (.inr ⟨h, rfl, rfl, by simpa using hb⟩)
    · exact .inl hg
  have hdata : ∀ {i : DataId} {g : Fault}, g ∈ (w.useData i).faults →
      g ∈ w.faults ∨ (g = .useAfterFree i ∧ (w.heap i).isLive = false) := by
    intro i g hg
    rcases mem_check.mp hg with ⟨hb, rfl⟩ | hg
    · exact .inr ⟨rfl, by simpa using hb⟩
    · exact .inl hg
  cases o with
  | leave n r =>
    rcases mem_check.mp h with ⟨hb, rfl⟩ | h
    · refine .inr ?_
      simp only [Bool.and_eq_true, Bool.not_eq_true', decide_eq_true_eq] at hb
      obtain ⟨⟨hn, hr⟩, hq⟩ := hb
      refine ⟨?_, hr, hq⟩
      cases hc : w.calls n with
      | none => simp [hc] at hn
      | some c => cases c <;> simp [hc] at hn ⊢
    · exact .inl h
  | readIOData i => exact (hdata h).imp_right fun ⟨h₁, h₂⟩ => by subst h₁; exact ⟨rfl, h₂⟩
  | writeIOData i d => exact (hdata h).imp_right fun ⟨h₁, h₂⟩ => by subst h₁; exact ⟨rfl, h₂⟩
  | deleteIOData i => exact (hdata h).imp_right fun ⟨h₁, h₂⟩ => by subst h₁; exact ⟨rfl, h₂⟩
  | invoke i f args => exact (hdata h).imp_right fun ⟨h₁, h₂⟩ => by subst h₁; exact ⟨rfl, h₂⟩
  | trySubmitThreadpoolCallback g c k =>
    rcases mem_check.mp h with ⟨hb, rfl⟩ | h
    · exact .inr ⟨rfl, hb⟩
    · exact .inl h
  | startThreadpoolIo io =>
    rcases hio h with hf | ⟨rfl, hnull⟩ | ⟨_, rfl, hclosed⟩
    · exact .inl hf
    · exact .inr hnull
    · exact .inr hclosed
  | cancelThreadpoolIo io =>
    rcases hio h with hf | ⟨rfl, hnull⟩ | ⟨_, rfl, hclosed⟩
    · exact .inl hf
    · exact .inr hnull
    · exact .inr hclosed
  | waitForThreadpoolIoCallbacks io =>
    rcases mem_check.mp h with ⟨hb, rfl⟩ | h
    · cases io with
      | none => simp at hb
      | some g => exact .inr ⟨rfl, by simpa using hb⟩
    · rcases hio h with hf | ⟨rfl, hnull⟩ | ⟨_, rfl, hclosed⟩
      · exact .inl hf
      · exact .inr hnull
      · exact .inr hclosed
  | closeThreadpoolIo io =>
    rcases mem_check.mp h with ⟨hb, rfl⟩ | h
    · cases io with
      | none => simp at hb
      | some g => exact .inr ⟨rfl, by simpa using hb⟩
    · rcases hio h with hf | ⟨rfl, hnull⟩ | ⟨_, rfl, hclosed⟩
      · exact .inl hf
      · exact .inr hnull
      · exact .inr hclosed
  | closeThreadpoolCleanupGroup g =>
    rcases mem_check.mp h with ⟨hb, rfl⟩ | h
    · cases g with
      | none => simp at hb
      | some g => exact .inr ⟨rfl, by simpa using hb⟩
    · exact .inl h
  | closeThreadpool p =>
    rcases mem_check.mp h with ⟨hb, rfl⟩ | h
    · cases hg : p.bind w.poolGroup with
      | none => simp [hg] at hb
      | some g => exact .inr ⟨hg, by simpa [hg] using hb⟩
    · exact .inl h
  | bind s name =>
    rcases mem_check.mp h with ⟨hb, rfl⟩ | h
    · exact .inr (Bool.and_eq_true_iff.mp hb)
    · exact .inl h
  | overlapped req i io =>
    rcases mem_check.mp h with ⟨hb, rfl⟩ | h
    · exact .inr hb
    · exact .inl h
  | closeThreadpoolCleanupGroupMembers g => cases g <;> exact .inl h
  | _ => exact .inl h

/-- User code calls the library only on sockets that it holds a `shared_ptr` to. -/
def holdsRefs (w : World) : Op → Bool
  | .enter c => c.sockets.all fun x => 0 < w.userRefs x
  | .copyRef x | .dropRef x => 0 < w.userRefs x
  | _ => true

/-- A call can return now: the waits return when what they wait for is so. -/
def returns (w : World) : Op → Ans → Bool
  | .waitedForThreadpoolIoCallbacks (some h), _ => !w.ioActive h
  | .waitForSingleObject k _, a =>
    match a.wait with
    | .signalled => (w.helpers[k]?).any (·.done)
    | _ => true
  | .closedThreadpoolCleanupGroupMembers (some g), _ => !w.groupRunning g
  | _, _ => true

end World

/-- The host of the library's programs. -/
def host : Host Op Res World Ans :=
  ⟨fun w _ o a => w.holdsRefs o && w.returns o a, World.reply⟩

/-- The host of a program that runs alone: nothing else happens meanwhile, and what a call
waits for is left to the answer. -/
def serialHost : Host Op Res World Ans := ⟨fun w _ o _ => w.holdsRefs o, World.reply⟩

end FirelinkNet
