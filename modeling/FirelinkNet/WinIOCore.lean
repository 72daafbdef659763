import FirelinkNet.World

/-!
# `WinIOCore`

The functions of `win_io_core.cpp`, as programs: setting up and releasing the two
thread pools, Winsock and its extension functions, and posting work to a pool.
-/

namespace FirelinkNet

namespace WinIOCore

/-- The version of Winsock that the library asks for, 2.2. -/
def winsockVersionRequested : UInt16 := 0x0202

/-- `FIRELINK_IO_THREADPOOL_CLEANUP_TIMEOUT_MS`, and the same for the user pool. -/
def threadpoolCleanupTimeoutMs : UInt32 := 5000

/-! ### Setting up -/

/-- `WinIOCore::initialize_threadpool`. -/
def initializeThreadpool (threadsMin threadsMax : UInt32) (k : PoolKind) : Prog ErrorCode := do
  op (.initializeThreadpoolEnvironment k)
  op (.writeSlot k fun s => { s with rollback := .initEnviron })
  match ← op .createThreadpool with
  | .error e =>
    op (.writeSlot k fun s => { s with threadpool := none })
    return e.toErrorCode
  | .ok p =>
    op (.writeSlot k fun s => { s with threadpool := some p, rollback := .createThreadpool })
    op (.setThreadpoolThreadMaximum p threadsMax)
    match ← op (.setThreadpoolThreadMinimum p threadsMin) with
    | .error e => return e.toErrorCode
    | .ok () =>
      match ← op .createThreadpoolCleanupGroup with
      | .error e =>
        op (.writeSlot k fun s => { s with cleanupGroup := none })
        return e.toErrorCode
      | .ok g =>
        op (.writeSlot k fun s => { s with cleanupGroup := some g, rollback := .createCleanupGroup })
        op (.setThreadpoolCallbackPool k p)
        op (.setThreadpoolCallbackCleanupGroup k g)
        return .success

/-- One of the four lookups of `get_extended_socket_functions`; on failure the dummy socket is
closed and the error is the result. -/
def lookupExtFn (dummySocket : NativeHandle) (fn : ExtFn) : Prog (Option ErrorCode) := do
  if ← op (.extFn fn) then
    return none
  else
    match ← op (.wsaIoctl dummySocket fn) with
    | .ok () => return none
    | .error e =>
      let _ ← op (.closesocket dummySocket)
      return some e.toErrorCode

/-- The lookups, one after another, up to the first that fails. -/
def lookupExtFns (dummySocket : NativeHandle) : List ExtFn → Prog (Option ErrorCode)
  | [] => return none
  | fn :: fns => do
    match ← lookupExtFn dummySocket fn with
    | some e => return some e
    | none => lookupExtFns dummySocket fns

/-- `WinIOCore::get_extended_socket_functions`. -/
def getExtendedSocketFunctions : Prog ErrorCode := do
  match ← op (.wsaSocketW .ipv4 .stream ⟨0⟩) with
  | .error e => return e.toErrorCode
  | .ok s =>
    match ← lookupExtFns (some s) [.acceptEx, .getAcceptExSockaddrs, .connectEx, .disconnectEx] with
    | some e => return e
    | none =>
      match ← op (.closesocket (some s)) with
      | .error e => return e.toErrorCode
      | .ok () => return .success

/-- `WinIOCore::initialize`. -/
def initializeCore : Prog ErrorCode := do
  match ← op (.wsaStartup winsockVersionRequested) with
  | .error e => return e.toErrorCode
  | .ok version =>
    if version ≠ winsockVersionRequested then
      return .notSupported
    let err ← getExtendedSocketFunctions
    if err ≠ .success then
      return err
    let conf := (← op .readCore).conf
    let err ← initializeThreadpool conf.ioMin conf.ioMax .io
    if err ≠ .success then
      return err
    let err ← initializeThreadpool conf.userMin conf.userMax .user
    if err ≠ .success then
      return err
    op (.exchangeStop false)
    return .success

/-- `IOCore::create`: the code that it returns, or `Success` and the core. -/
def create (config : IOCoreConfig) : Prog ErrorCode := do
  op (.makeCore config)
  let ec ← initializeCore
  if ec ≠ .success then
    op .destroyCore
    return ec
  return .success

/-! ### Releasing -/

/-- The cleanup thread that `release_threadpool` starts. -/
def cleanupThread (thread : ℕ) (g : Option GroupId) : Prog Unit := do
  op (.closeThreadpoolCleanupGroupMembers g)
  op (.closedThreadpoolCleanupGroupMembers g)
  op (.exitThread thread)

/-- The first part of `release_threadpool`: start the cleanup thread, and wait for it for a
limited time. -/
def joinCleanupThread (timeoutMs : UInt32) (g : Option GroupId) : Prog ErrorCode := do
  match ← op (.createThread g) with
  | .error _ => return ⟨← op .getLastError⟩
  | .ok thread =>
    let res ← op (.waitForSingleObject thread timeoutMs)
    op (.closeHandle thread)
    match res with
    | .signalled => return .success
    | .timeout => return .success
    | .failed _ => return ⟨← op .getLastError⟩
    | .other => return .systemError

/-- `case ThreadpoolRollback::InitEnviron`. -/
def releaseEnviron (k : PoolKind) : Prog Unit := do
  op (.destroyThreadpoolEnvironment k)
  op (.writeSlot k fun s => { s with rollback := .none })

/-- `case ThreadpoolRollback::CreateThreadpool`, which falls through. -/
def releasePool (k : PoolKind) (threadpool : Option PoolId) : Prog Unit := do
  op (.closeThreadpool threadpool)
  op (.writeSlot k fun s => { s with rollback := .initEnviron })
  releaseEnviron k

/-- `case ThreadpoolRollback::CreateCleanupGroup`, which falls through. -/
def releaseGroup (timeoutMs : UInt32) (k : PoolKind) (cleanupGroup : Option GroupId)
    (threadpool : Option PoolId) : Prog ErrorCode := do
  let returnVal ← joinCleanupThread timeoutMs cleanupGroup
  op (.closeThreadpoolCleanupGroup cleanupGroup)
  op (.writeSlot k fun s => { s with rollback := .createThreadpool })
  releasePool k threadpool
  return returnVal

/-- `WinIOCore::release_threadpool`. -/
def releaseThreadpool (timeoutMs : UInt32) (k : PoolKind) (cleanupGroup : Option GroupId)
    (threadpool : Option PoolId) : Prog ErrorCode := do
  let returnVal ← match ((← op .readCore).slot k).rollback with
    | .createCleanupGroup => releaseGroup timeoutMs k cleanupGroup threadpool
    | .createThreadpool => do
      releasePool k threadpool
      pure .success
    | .initEnviron => do
      releaseEnviron k
      pure .success
    | .none => pure .success
  op (.writeSlot k fun s => { s with rollback := .none })
  return returnVal

/-- `WinIOCore::release`. -/
def releaseCore : Prog ErrorCode := do
  let slot := (← op .readCore).user
  let result ← releaseThreadpool threadpoolCleanupTimeoutMs .user slot.cleanupGroup slot.threadpool
  if result ≠ .success then
    return result
  let slot := (← op .readCore).io
  let result ← releaseThreadpool threadpoolCleanupTimeoutMs .io slot.cleanupGroup slot.threadpool
  if result ≠ .success then
    return result
  match ← op .wsaCleanup with
  | .error e => return e.toErrorCode
  | .ok () => return .success

/-! ### Posting work -/

/-- `WinIOCore::post_io_work` and `WinIOCore::post_user_work`, which differ in the pool. -/
def postWork (k : PoolKind) (func : Closure) : Prog ErrorCode := do
  let heapFunc ← op (.newFunc func)
  if ← op (.trySubmitThreadpoolCallback heapFunc func k) then
    return .success
  else
    op (.deleteFunc heapFunc)
    return ⟨← op .getLastError⟩

/-- `WinIOCore::post_io_work`. -/
def postIoWork (func : Closure) : Prog ErrorCode := postWork .io func

/-- `WinIOCore::post_user_work`. -/
def postUserWork (func : Closure) : Prog ErrorCode := postWork .user func

end WinIOCore

end FirelinkNet
