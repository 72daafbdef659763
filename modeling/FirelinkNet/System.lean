import FirelinkNet.WinSocket

/-!
# The system

The library at work: any number of user threads, the threads of the two pools,
the cleanup threads of `release`, and the kernel. An `Event` is what happens of
itself; every other step is a call that a thread makes (`Lib.Threads`).

A completed operation is queued to its TP_IO (`complete`), and a thread of the IO
pool takes it up (`dispatchIo`); operations complete, and are taken up, in any
order. The same goes for the closures posted to the pools (`dispatchWork`).
-/

namespace FirelinkNet

open Lib

/-- The callback of a TP_IO, on a thread of the IO pool. -/
def ioCallback (cb : IoCallback) : Prog Unit := do
  WinSocket.socketIoRoutine (some cb.data) cb.ioResult cb.nBytesTransferred
  op .callbackReturn

/-- The callback that `post_io_work` and `post_user_work` submit: `std::invoke(*f); delete f;`. -/
def workCallback (q : Work) : Prog Unit := do
  op (.invokeFunc q.func)
  WinSocket.runClosure q.closure
  op (.deleteFunc q.func)
  op .callbackReturn

/-- What happens of itself. -/
inductive Event where
  /-- User code starts a thread that makes these calls. -/
  | spawn (calls : List ApiCall)
  /-- The `k`-th pending operation completes. -/
  | complete (k : ℕ) (c : Completion)
  /-- A thread of the IO pool takes up the `k`-th completion. -/
  | dispatchIo (k : ℕ)
  /-- A thread of a pool takes up the `k`-th closure. -/
  | dispatchWork (k : ℕ)
  /-- The `k`-th cleanup thread starts. -/
  | startCleanup (k : ℕ)
  /-- User code drops the last `shared_ptr` to the core. -/
  | dropIoCore

/-- What the kernel writes to an `IOData` when its operation completes. -/
def IOData.fill (d : IOData) (c : Completion) : IOData :=
  match d.userHandler.kind with
  | .accept => { d with acceptAddressBuffer := c.addrs }
  | .read => { d with peerWinAddr := c.peer }
  | _ => d

namespace World

/-- The native socket that `AcceptEx` accepts on. -/
def acceptedBy (w : World) (i : DataId) : NativeHandle :=
  match w.requests i with
  | some (.acceptEx _ accept) => accept
  | _ => none

/-- The operation `e`, the `k`-th pending, completes; the socket of a successful `AcceptEx` has a
local address. -/
def complete (w : World) (k : ℕ) (e : PendingIo) (c : Completion) : World :=
  { w with
    kernel := w.kernel.eraseIdx k
    ioQueue := w.ioQueue ++ [⟨e.data, e.io, e.group, c.ioResult, c.nBytesTransferred⟩]
    completions := upd w.completions e.data (some c)
    heap := upd w.heap e.data ((w.heap e.data).map (·.fill c))
    bound := if c.ioResult = 0 then mark w.bound (w.acceptedBy e.data) else w.bound }

/-- The state after an event, and the thread that it starts, which is thread `n`. -/
def event (w : World) (n : ℕ) : Event → Option (World × Option (Prog Unit))
  | .spawn calls => some (w, some (runCalls calls))
  | .complete k c => (w.kernel[k]?).map fun e => (w.complete k e c, none)
  | .dispatchIo k =>
    (w.ioQueue[k]?).map fun cb =>
      ({ w with ioQueue := w.ioQueue.eraseIdx k, running := (n, .io cb) :: w.running },
        some (ioCallback cb))
  | .dispatchWork k =>
    (w.queue[k]?).map fun q =>
      ({ w with queue := w.queue.eraseIdx k, running := (n, .work q) :: w.running },
        some (workCallback q))
  | .startCleanup k =>
    match w.helpers[k]? with
    | some h =>
      if h.started then none
      else some ({ w with helpers := w.helpers.set k { h with started := true } },
        some (WinIOCore.cleanupThread k h.group))
    | none => none
  | .dropIoCore => some ({ w with coreAlive := false }, none)

/-- What an event does: the state after it, and the thread it starts. -/
inductive EventStep (w : World) (n : ℕ) : Event → World → Option (Prog Unit) → Prop where
  | spawn (calls : List ApiCall) : EventStep w n (.spawn calls) w (some (runCalls calls))
  | complete {k : ℕ} {e : PendingIo} (c : Completion) (hk : w.kernel[k]? = some e) :
      EventStep w n (.complete k c) (w.complete k e c) none
  | dispatchIo {k : ℕ} {cb : IoCallback} (hk : w.ioQueue[k]? = some cb) :
      EventStep w n (.dispatchIo k)
        { w with ioQueue := w.ioQueue.eraseIdx k, running := (n, .io cb) :: w.running }
        (some (ioCallback cb))
  | dispatchWork {k : ℕ} {q : Work} (hk : w.queue[k]? = some q) :
      EventStep w n (.dispatchWork k)
        { w with queue := w.queue.eraseIdx k, running := (n, .work q) :: w.running }
        (some (workCallback q))
  | startCleanup {k : ℕ} {h : Helper} (hk : w.helpers[k]? = some h) (hs : h.started = false) :
      EventStep w n (.startCleanup k)
        { w with helpers := w.helpers.set k { h with started := true } }
        (some (WinIOCore.cleanupThread k h.group))
  | dropIoCore : EventStep w n .dropIoCore { w with coreAlive := false } none

theorem event_step {w w' : World} {n : ℕ} {e : Event} {p : Option (Prog Unit)}
    (h : w.event n e = some (w', p)) : w.EventStep n e w' p := by
  cases e with
  | spawn cs => cases h; exact .spawn cs
  | complete k c =>
    obtain ⟨e, hk, heq⟩ := Option.map_eq_some_iff.mp h
    cases heq
    exact .complete c hk
  | dispatchIo k =>
    obtain ⟨cb, hk, heq⟩ := Option.map_eq_some_iff.mp h
    cases heq
    exact .dispatchIo hk
  | dispatchWork k =>
    obtain ⟨q, hk, heq⟩ := Option.map_eq_some_iff.mp h
    cases heq
    exact .dispatchWork hk
  | startCleanup k =>
    simp only [event] at h
    split at h
    · rename_i hp hk
      split_ifs at h with hs
      cases h
      exact .startCleanup hk (by simpa using hs)
    · cases h
  | dropIoCore => cases h; exact .dropIoCore

/-! ### Where it starts -/

/-- Before anything was done. -/
def blank : World where
  calls _ := none
  results _ := none
  nextCall := 0
  coreAt _ := ⟨⟨0, 0, 0, 0⟩, false, ⟨⟨none, none⟩, none, none, .none⟩, ⟨⟨none, none⟩, none, none, .none⟩⟩
  cur _ := none
  socks _ := none
  nextSock := 0
  userRefs _ := 0
  heap _ := .unborn
  nextData := 0
  opOf _ := none
  requests _ := none
  accepted _ := false
  completions _ := none
  reports _ := .none
  posted _ := false
  invocations _ := []
  frees _ := 0
  nextFunc := 0
  works _ := none
  executed _ := 0
  funcFrees _ := 0
  lastError _ := 0
  kernel := []
  ioQueue := []
  queue := []
  running := []
  nextTp := 0
  tpSock _ := 0
  tpHandle _ := none
  tpGroup _ := none
  tpCloses _ := 0
  tpStarts _ := 0
  tpCancels _ := 0
  waiters := []
  startups := 0
  cleanups := 0
  nextHandle := 0
  sockCloses _ := 0
  bound _ := false
  addresses := []
  extFns _ := false
  coreAlive := false
  core := ⟨⟨0, 0, 0, 0⟩, false, ⟨⟨none, none⟩, none, none, .none⟩, ⟨⟨none, none⟩, none, none, .none⟩⟩
  nextPool := 0
  nextGroup := 0
  poolCloses _ := 0
  groupCloses _ := 0
  poolGroup _ := none
  environOpens _ := 0
  environCloses _ _ := 0
  membersBegun _ := false
  membersDone _ := false
  helpers := []
  faults := []

/-- What `IOCore::create` leaves: Winsock is started, the dummy socket was opened and closed,
and each pool has its thread pool and its cleanup group. -/
def start (conf : IOCoreConfig) : World :=
  { blank with
    startups := 1
    nextHandle := 1
    sockCloses := upd (fun _ => 0) 0 1
    bound := upd (fun _ => false) 0 false
    extFns := upd (upd (upd (upd (fun _ => false) .acceptEx true) .getAcceptExSockaddrs true)
      .connectEx true) .disconnectEx true
    coreAlive := true
    core := ⟨conf, false, ⟨⟨some 0, some 0⟩, some 0, some 0, .createCleanupGroup⟩,
      ⟨⟨some 1, some 1⟩, some 1, some 1, .createCleanupGroup⟩⟩
    nextPool := 2
    nextGroup := 2
    poolGroup := fun p =>
      if some 1 = some p then some 1 else if some 0 = some p then some 0 else none
    environOpens := upd (upd (fun _ => 0) .io 1) .user 1 }

end World

/-- **The start is what `IOCore::create` leaves** when nothing fails. -/
theorem create_eval (conf : IOCoreConfig) :
    (WinIOCore.create conf).eval host 0 .blank (List.replicate 34 {}) =
      some (.success, .start conf) := rfl

/-- The machine that runs the library. -/
def machine : Machine Op Res World Ans Event := { host with env := World.event }

/-- A state of the machine. -/
abbrev State := Sys Op Res World

/-- A condition on the steps of a run. -/
abbrev RunGuard := Guard Op World Ans Event

/-- The core was created, and no thread has been started. -/
def State.start (conf : IOCoreConfig) : State := ⟨.start conf, []⟩

end FirelinkNet
