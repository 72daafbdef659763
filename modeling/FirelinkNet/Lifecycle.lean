import FirelinkNet.System

/-!
# The life of an operation

An operation is carried by one `IOData` from the `start_…` function that allocates it
to the `delete` that ends it. On the way it is in one place at a time: with the thread
in the `start_…` function, in the kernel, in the queue of the IO pool, with the thread
that runs `socket_io_routine` on it, in the queue of the user pool, with the thread
that runs its closure. This is the model of that life, apart from the code: the places
(`Place`), what is on record about an operation in each (`Place.Ok`), and the moves
from one to the next. `Ownership` shows that the code makes no other moves.

## What is proved

* `Place.Ok.submit`, …, `Place.Ok.free` — **each move keeps the record right**. In
  particular the arguments that a handler is called with are those of its own
  operation, and the error is the first one that was reported of that
  (`Place.Ok.invoke`, `Args.Of`).
-/

namespace FirelinkNet

open Lib

/-! ### Errors -/

/-- The first error of a list, if there is one. -/
def firstError : List ErrorCode → ErrorCode
  | [] => .success
  | e :: es => if e = .success then firstError es else e

theorem firstError_append (as bs : List ErrorCode) :
    firstError (as ++ bs) = if firstError as = .success then firstError bs else firstError as := by
  induction as with
  | nil => rfl
  | cons a as ih =>
    rw [List.cons_append, firstError, firstError]
    by_cases ha : a = .success
    · rw [if_pos ha, if_pos ha, ih]
    · rw [if_neg ha, if_neg ha, if_neg ha]

@[simp] theorem firstError_singleton (e : ErrorCode) : firstError [e] = e := by
  rw [firstError]
  by_cases he : e = .success
  · rw [if_pos he, he, firstError]
  · rw [if_neg he]

theorem firstError_eq_success_iff {es : List ErrorCode} :
    firstError es = .success ↔ ∀ e ∈ es, e = .success := by
  induction es with
  | nil => simp [firstError]
  | cons e es ih =>
    rw [firstError, List.forall_mem_cons]
    by_cases he : e = .success
    · rw [if_pos he, ih]
      exact ⟨fun h => ⟨he, h⟩, fun h => h.2⟩
    · rw [if_neg he]
      exact ⟨fun h => absurd h he, fun h => h.1⟩

theorem firstError_append_success (es : List ErrorCode) : firstError (es ++ [.success]) = firstError es := by
  rw [firstError_append, firstError_singleton]
  split
  · exact Eq.symm ‹_›
  · rfl

/-- The code that the conversion of an address returns. -/
def conversionError (addr : SockaddrStorage) : ErrorCode := (sockaddrToEndpoint addr (.empty zeroMemory)).1

/-- What the update of the context of an accepted socket comes to: that there is no socket is an error. -/
def Reports.accepted (ρ : Reports) (acceptSocket : Option SockId) : ErrorCode :=
  if acceptSocket.isSome then ρ.update else .systemError

/-- What `get_acceptex_sockaddrs` returned. -/
def Reports.retrieved (ρ : Reports) : ErrorCode := if ρ.parsed then .success else .systemError

/-! ### The arguments of a handler -/

/-- What `sockaddr_to_endpoint` makes of an address. -/
def endpointOf (addr : SockaddrStorage) : Endpoint := (sockaddrToEndpoint addr (.empty zeroMemory)).2

/-- The closure of `socket_io_routine` that calls the handler `f`. -/
def IOData.closure (d : IOData) (i : DataId) (f : ℕ) : Closure :=
  match d.userHandler.kind with
  | .accept => .accept i f (endpointOf d.localWinAddr) (endpointOf d.peerWinAddr)
  | .connect => .connect i f
  | .read => .read i f
  | .write => .write i f
  | .disconnect => .disconnect i f

@[simp] theorem IOData.closure_ioData (d : IOData) (i : DataId) (f : ℕ) :
    (d.closure i f).ioData = some i := by
  unfold IOData.closure
  split <;> rfl

/-- The arguments that the handler is called with. -/
def IOData.args (d : IOData) : Args :=
  match d.userHandler.kind with
  | .accept => .accept d.socket d.acceptSocket (endpointOf d.localWinAddr)
      (endpointOf d.peerWinAddr) d.errorCode
  | .connect => .connect d.socket d.errorCode
  | .read => .read d.socket d.errorCode d.bytesTransferred
  | .write => .write d.socket d.errorCode d.bytesTransferred
  | .disconnect => .disconnect d.socket d.errorCode

/-- The arguments are those of the operation that asked for `q`, completed with `c`, and was processed with the
reports `ρ`: its sockets, its count of bytes, the addresses that the kernel wrote for it, if they were retrieved, and
the first error that there was, which is `Success` if there was none. -/
def Args.Of (q : Request) (c : Completion) (ρ : Reports) : Args → Prop
  | .accept caller accepted localEp peerEp e => q.handler.kind = .accept ∧ caller = q.socket ∧
      accepted = q.acceptSocket ∧ ∃ l p, localEp = endpointOf l ∧ peerEp = endpointOf p ∧
        (if ρ.parsed then c.addrs = some (l, p) else l = zeroMemory ∧ p = zeroMemory) ∧
        e = firstError [.ofULong c.ioResult, ρ.accepted q.acceptSocket, ρ.retrieved, conversionError l,
          conversionError p, ρ.post]
  | .connect caller e => q.handler.kind = .connect ∧ caller = q.socket ∧
      e = firstError [.ofULong c.ioResult, ρ.update, ρ.post]
  | .read caller e bytes => q.handler.kind = .read ∧ caller = q.socket ∧
      e = firstError [.ofULong c.ioResult, ρ.post] ∧ bytes = c.nBytesTransferred.toUInt32.toInt32
  | .write caller e bytes => q.handler.kind = .write ∧ caller = q.socket ∧
      e = firstError [.ofULong c.ioResult, ρ.post] ∧ bytes = c.nBytesTransferred.toUInt32.toInt32
  | .disconnect caller e => q.handler.kind = .disconnect ∧ caller = q.socket ∧
      e = firstError [.ofULong c.ioResult, ρ.post]

/-! ### The contents of an `IOData` -/

/-- The addresses of an `AcceptEx` have not been retrieved. -/
def IOData.Blank (d : IOData) : Prop :=
  d.userHandler.kind = .accept → d.localWinAddr = zeroMemory ∧ d.peerWinAddr = zeroMemory

/-- The kernel has filled the address buffer of an `AcceptEx`. -/
def IOData.Filled (d : IOData) (c : Completion) : Prop :=
  d.userHandler.kind = .accept → d.acceptAddressBuffer = c.addrs

/-- An error is noted, unless there is one already. -/
def IOData.note (d : IOData) (e : ErrorCode) : IOData :=
  if e ≠ .success ∧ d.errorCode = .success then { d with errorCode := e } else d

section Note

variable (d : IOData) (e : ErrorCode)

@[simp] theorem IOData.note_request : (d.note e).request = d.request := by
  unfold note; split <;> rfl

@[simp] theorem IOData.note_userHandler : (d.note e).userHandler = d.userHandler :=
  congrArg Request.handler (d.note_request e)

@[simp] theorem IOData.note_acceptSocket : (d.note e).acceptSocket = d.acceptSocket :=
  congrArg Request.acceptSocket (d.note_request e)

@[simp] theorem IOData.note_acceptAddressBuffer :
    (d.note e).acceptAddressBuffer = d.acceptAddressBuffer := by
  unfold note; split <;> rfl

@[simp] theorem IOData.note_localWinAddr : (d.note e).localWinAddr = d.localWinAddr := by
  unfold note; split <;> rfl

@[simp] theorem IOData.note_peerWinAddr : (d.note e).peerWinAddr = d.peerWinAddr := by
  unfold note; split <;> rfl

@[simp] theorem IOData.note_bytesTransferred :
    (d.note e).bytesTransferred = d.bytesTransferred := by
  unfold note; split <;> rfl

/-- The first error stays. -/
theorem IOData.note_errorCode : (d.note e).errorCode = firstError [d.errorCode, e] := by
  unfold note
  rw [firstError, firstError_singleton]
  by_cases hd : d.errorCode = .success
  · rw [if_pos hd]
    by_cases he : e = .success
    · rw [if_neg fun h => h.1 he, hd, he]
    · rw [if_pos ⟨he, hd⟩]
  · rw [if_neg hd, if_neg fun h => hd h.2]

end Note

/-- The count of bytes was taken over, and these errors were noted. -/
structure IOData.Taken (d : IOData) (nBytesTransferred : UInt64) (es : List ErrorCode) : Prop where
  bytes : d.bytesTransferred = nBytesTransferred.toUInt32.toInt32
  error : d.errorCode = firstError es

theorem IOData.Taken.note {d : IOData} {b : UInt64} {es : List ErrorCode} (h : d.Taken b es) (e : ErrorCode) :
    (d.note e).Taken b (es ++ [e]) := by
  refine ⟨by simpa using h.bytes, ?_⟩
  rw [IOData.note_errorCode, h.error, firstError_append, firstError, firstError_singleton]

/-- The errors that `socket_io_routine` notes, in order, before the handler is posted. -/
def IOData.errors (d : IOData) (ioResult : UInt32) (ρ : Reports) : List ErrorCode :=
  .ofULong ioResult ::
    match d.userHandler.kind with
    | .accept =>
      [ρ.accepted d.acceptSocket, ρ.retrieved, conversionError d.localWinAddr, conversionError d.peerWinAddr]
    | .connect => [ρ.update]
    | _ => []

/-- The addresses of an `AcceptEx` are those that were found, if any were. -/
def IOData.Retrieved (d : IOData) (ρ : Reports) : Prop :=
  if ρ.parsed then d.acceptAddressBuffer = some (d.localWinAddr, d.peerWinAddr)
  else d.localWinAddr = zeroMemory ∧ d.peerWinAddr = zeroMemory

theorem IOData.Retrieved.note {d : IOData} {ρ : Reports} (h : d.Retrieved ρ) (e : ErrorCode) :
    (d.note e).Retrieved ρ := by
  simpa [IOData.Retrieved] using h

/-- `socket_io_routine` has taken over the outcome of a completion, and, for an `AcceptEx`, the
addresses. -/
structure IOData.Settled (d : IOData) (ioResult : UInt32) (nBytesTransferred : UInt64) (ρ : Reports) : Prop
    extends d.Taken nBytesTransferred (d.errors ioResult ρ ++ [ρ.post]) where
  addrs : d.userHandler.kind = .accept → d.Retrieved ρ

theorem IOData.Taken.settled {d : IOData} {r : UInt32} {b : UInt64} {ρ : Reports} (h : d.Taken b (d.errors r ρ))
    (hp : ρ.post = .success) (ha : d.userHandler.kind = .accept → d.Retrieved ρ) : d.Settled r b ρ :=
  ⟨⟨h.bytes, by rw [hp, firstError_append_success, h.error]⟩, ha⟩

/-- The handler could not be posted. -/
theorem IOData.Settled.note {d : IOData} {r : UInt32} {b : UInt64} {ρ : Reports} (h : d.Settled r b ρ)
    (hp : ρ.post = .success) (e : ErrorCode) : (d.note e).Settled r b { ρ with post := e } := by
  have herrors : (d.note e).errors r { ρ with post := e } = d.errors r ρ := by
    simp only [IOData.errors, IOData.note_userHandler, IOData.note_acceptSocket, IOData.note_localWinAddr,
      IOData.note_peerWinAddr]
    rfl
  have htaken : d.Taken b (d.errors r ρ) :=
    ⟨h.bytes, h.error.trans (by rw [hp, firstError_append_success])⟩
  exact ⟨herrors.symm ▸ htaken.note e, fun hk => (h.addrs (by simpa using hk)).note e⟩

theorem IOData.Blank.note {d : IOData} (h : d.Blank) (e : ErrorCode) : (d.note e).Blank := by
  intro hk
  simpa using h (by simpa using hk)

/-- A callback is for this completion. -/
def IoCallback.Of (cb : IoCallback) (c : Completion) : Prop :=
  cb.ioResult = c.ioResult ∧ cb.nBytesTransferred = c.nBytesTransferred

theorem IOData.Blank.fill {d : IOData} {c : Completion} (h : d.Blank) : (d.fill c).Blank := by
  unfold IOData.fill
  cases hk : d.userHandler.kind with
  | accept => exact fun _ => h hk
  | read => exact fun h' => nomatch hk.symm.trans h'
  | _ => exact h

theorem IOData.filled_fill (d : IOData) (c : Completion) : (d.fill c).Filled c := by
  unfold IOData.fill
  cases hk : d.userHandler.kind with
  | accept => exact fun _ => rfl
  | read => exact fun h' => nomatch hk.symm.trans h'
  | _ => exact fun h' => nomatch hk.symm.trans h'

@[simp] theorem IOData.fill_request (d : IOData) (c : Completion) :
    (d.fill c).request = d.request := by
  unfold IOData.fill
  split <;> rfl

/-- **The arguments of the handler are those of the operation.** -/
theorem IOData.Settled.args_of {d : IOData} {c : Completion} {ρ : Reports} (hf : d.Filled c)
    (h : d.Settled c.ioResult c.nBytesTransferred ρ) : d.args.Of d.request c ρ := by
  have herror := h.error
  unfold IOData.errors at herror
  unfold IOData.args
  cases hk : d.userHandler.kind with
  | accept =>
    rw [hk] at herror
    refine ⟨hk, rfl, rfl, d.localWinAddr, d.peerWinAddr, rfl, rfl, ?_, herror⟩
    rw [← hf hk]
    exact h.addrs hk
  | connect =>
    rw [hk] at herror
    exact ⟨hk, rfl, herror⟩
  | read =>
    rw [hk] at herror
    exact ⟨hk, rfl, herror, h.bytes⟩
  | write =>
    rw [hk] at herror
    exact ⟨hk, rfl, herror, h.bytes⟩
  | disconnect =>
    rw [hk] at herror
    exact ⟨hk, rfl, herror⟩

/-! ### Places -/

/-- What is on record about an operation. -/
structure Item where
  /-- Its `IOData`. -/
  cell : Cell
  /-- What it is for. -/
  request : Option Request
  /-- The kernel accepted it. -/
  accepted : Bool
  /-- Its completion. -/
  completion : Option Completion
  /-- What was reported when that was processed. -/
  reports : Reports
  /-- Its handler was offered to the user pool. -/
  posted : Bool
  /-- The calls of its handler. -/
  invocations : List (ℕ × Args)
  /-- How often its `IOData` was deleted. -/
  frees : ℕ

/-- What the world has on record about the operations and the calls that start them. -/
structure Ledger where
  calls : CallId → Option ApiCall
  results : CallId → Option ErrorCode
  nextCall : CallId
  cur : ℕ → Option CallId
  tpStarts : CallId → ℕ
  tpCancels : CallId → ℕ
  heap : DataId → Cell
  nextData : DataId
  opOf : DataId → Option CallId
  accepted : DataId → Bool
  completions : DataId → Option Completion
  reports : DataId → Reports
  posted : DataId → Bool
  invocations : DataId → List (ℕ × Args)
  frees : DataId → ℕ
  kernel : List PendingIo
  ioQueue : List IoCallback
  queue : List Work
  running : List (ℕ × Task)

/-- The ledger of a world. -/
def World.ledger (w : World) : Ledger :=
  ⟨w.calls, w.results, w.nextCall, w.cur, w.tpStarts, w.tpCancels, w.heap, w.nextData, w.opOf,
    w.accepted, w.completions, w.reports, w.posted, w.invocations, w.frees, w.kernel, w.ioQueue, w.queue,
    w.running⟩

/-- What an operation asked for. -/
def Ledger.requestOf (g : Ledger) (i : DataId) : Option Request :=
  (g.opOf i).bind fun n => (g.calls n).bind ApiCall.start?

/-- What is on record about an operation. -/
def Ledger.item (g : Ledger) (i : DataId) : Item :=
  ⟨g.heap i, g.requestOf i, g.accepted i, g.completions i, g.reports i, g.posted i, g.invocations i, g.frees i⟩

/-- Where an operation is, and the contents of its `IOData`. -/
inductive Place where
  /-- Nowhere yet. -/
  | unborn
  /-- With thread `t`, which is in the `start_…` function. -/
  | starting (t : ℕ) (d : IOData)
  /-- In the kernel. -/
  | kernel (e : PendingIo) (d : IOData)
  /-- In the queue of the IO pool. -/
  | arrived (cb : IoCallback) (d : IOData)
  /-- With thread `t`, which runs `socket_io_routine`: what has been reported, has the handler been
  offered to the user pool, and has it been called? -/
  | handling (t : ℕ) (cb : IoCallback) (d : IOData) (ρ : Reports) (posted called : Bool)
  /-- In the queue of the user pool. -/
  | queued (q : Work) (d : IOData)
  /-- With thread `t`, which runs the closure: has the handler been called? -/
  | calling (t : ℕ) (d : IOData) (called : Bool)
  /-- Its `IOData` is deleted. -/
  | freed
  /-- Its `IOData` was left behind. -/
  | lost

/-- What a run is known to be like. -/
structure Mode where
  /-- The core is alive, and its pools are not being released. -/
  alive : Bool
  /-- `GetLastError` tells that a submission failed. -/
  honest : Bool
  /-- `start_connect` and `start_send_to` make no early return. -/
  clean : Bool

/-- The handler was called, once, with the arguments of the operation. -/
def Told (q : Request) (c : Completion) (ρ : Reports) (calls : List (ℕ × Args)) : Prop :=
  ∃ f args, q.handler.func = some f ∧ calls = [(f, args)] ∧ args.Of q c ρ

namespace Place

/-- What is on record about an operation, by its place. -/
def Ok (m : Mode) (v : Item) : Place → Prop
  | .unborn => v = ⟨.unborn, none, false, none, .none, false, [], 0⟩
  | .starting _ d => v = ⟨.live d, some d.request, false, none, .none, false, [], 0⟩ ∧ d.Blank
  | .kernel _ d => v = ⟨.live d, some d.request, true, none, .none, false, [], 0⟩ ∧ d.Blank
  | .arrived cb d => ∃ c, v = ⟨.live d, some d.request, true, some c, .none, false, [], 0⟩ ∧ d.Blank ∧
      d.Filled c ∧ cb.Of c
  | .handling _ cb d ρ posted false => ∃ c,
      v = ⟨.live d, some d.request, true, some c, ρ, posted, [], 0⟩ ∧ d.Filled c ∧ cb.Of c
  | .queued _ d | .calling _ d false => ∃ c ρ,
      v = ⟨.live d, some d.request, true, some c, ρ, true, [], 0⟩ ∧ d.Filled c ∧
        d.Settled c.ioResult c.nBytesTransferred ρ ∧ d.userHandler.func ≠ none
  | .handling _ _ d _ _ true | .calling _ d true => ∃ q c ρ posted calls,
      v = ⟨.live d, some q, true, some c, ρ, posted, calls, 0⟩ ∧ Told q c ρ calls
  | .freed => ∃ q accepted completion ρ posted calls,
      v = ⟨.freed, some q, accepted, completion, ρ, posted, calls, 1⟩ ∧
        (accepted = false ∧ completion = none ∧ calls = [] ∨
          accepted = true ∧ ∃ c, completion = some c ∧
            (calls = [] ∧ (q.handler.func = none ∨ m.alive = false) ∨ Told q c ρ calls))
  | .lost => ∃ d q accepted completion ρ posted calls,
      v = ⟨.live d, some q, accepted, completion, ρ, posted, calls, 0⟩ ∧
        (accepted = false ∧ m.clean = false ∧ completion = none ∧ calls = [] ∨
          accepted = true ∧ (m.alive = false ∨ m.honest = false) ∧
            (calls = [] ∨ ∃ c, completion = some c ∧ Told q c ρ calls))

namespace Ok

variable {m : Mode} {v : Item} {t : ℕ} {d d' : IOData} {cb : IoCallback} {c : Completion}
  {ρ : Reports} {posted called : Bool} {f : ℕ} {e : PendingIo} {q : Work}

/-- The handler was not called, or it was called once. -/
theorem told {p : Place} (h : p.Ok m v) : v.invocations = [] ∨
    ∃ q c, v.request = some q ∧ v.completion = some c ∧ Told q c v.reports v.invocations := by
  cases p with
  | unborn => rw [h]; exact .inl rfl
  | starting t d => rw [h.1]; exact .inl rfl
  | kernel e d => rw [h.1]; exact .inl rfl
  | arrived cb d => obtain ⟨c, rfl, -⟩ := h; exact .inl rfl
  | queued q d => obtain ⟨c, ρ, rfl, -⟩ := h; exact .inl rfl
  | handling t cb d ρ posted called =>
    cases called with
    | false => obtain ⟨c, rfl, -⟩ := h; exact .inl rfl
    | true => obtain ⟨q, c, ρ, posted, calls, rfl, htold⟩ := h; exact .inr ⟨q, c, rfl, rfl, htold⟩
  | calling t d called =>
    cases called with
    | false => obtain ⟨c, ρ, rfl, -⟩ := h; exact .inl rfl
    | true => obtain ⟨q, c, ρ, posted, calls, rfl, htold⟩ := h; exact .inr ⟨q, c, rfl, rfl, htold⟩
  | freed =>
    obtain ⟨q, acc, comp, ρ, posted, calls, rfl, ⟨-, -, hnil⟩ | ⟨-, c, rfl, ⟨hnil, -⟩ | htold⟩⟩ := h
    · exact .inl hnil
    · exact .inl hnil
    · exact .inr ⟨q, c, rfl, rfl, htold⟩
  | lost =>
    obtain ⟨d, q, acc, comp, ρ, posted, calls, rfl, ⟨-, -, -, hnil⟩ | ⟨-, -, hnil | ⟨c, rfl, htold⟩⟩⟩ := h
    · exact .inl hnil
    · exact .inl hnil
    · exact .inr ⟨q, c, rfl, rfl, htold⟩

/-- An `IOData` is deleted once when it is not live any more, and not before. -/
theorem frees {p : Place} (h : p.Ok m v) (hp : p ≠ .unborn) :
    v.frees = if v.cell.isLive then 0 else 1 := by
  cases p with
  | unborn => exact absurd rfl hp
  | starting t d => rw [h.1]; rfl
  | kernel e d => rw [h.1]; rfl
  | arrived cb d => obtain ⟨c, rfl, -⟩ := h; rfl
  | queued q d => obtain ⟨c, ρ, rfl, -⟩ := h; rfl
  | handling t cb d ρ posted called =>
    cases called with
    | false => obtain ⟨c, rfl, -⟩ := h; rfl
    | true => obtain ⟨q, c, ρ, posted, calls, rfl, -⟩ := h; rfl
  | calling t d called =>
    cases called with
    | false => obtain ⟨c, ρ, rfl, -⟩ := h; rfl
    | true => obtain ⟨q, c, ρ, posted, calls, rfl, -⟩ := h; rfl
  | freed => obtain ⟨q, acc, comp, ρ, posted, calls, rfl, -⟩ := h; rfl
  | lost => obtain ⟨d, q, acc, comp, ρ, posted, calls, rfl, -⟩ := h; rfl

/-! ### Moves -/

/-- The `start_…` function fills in what it allocated. -/
theorem fillIn (h : (starting t d).Ok m v) (hr : d'.request = d.request) (hb : d'.Blank) :
    (starting t d').Ok m { v with cell := .live d' } := by
  obtain ⟨rfl, -⟩ := h
  exact ⟨by rw [hr], hb⟩

/-- The kernel accepts the operation. -/
theorem submit (h : (starting t d).Ok m v) (e : PendingIo) : (kernel e d).Ok m { v with accepted := true } := by
  obtain ⟨rfl, hb⟩ := h
  exact ⟨rfl, hb⟩

/-- It completes. -/
theorem complete (h : (kernel e d).Ok m v) (hc : cb.Of c) :
    (arrived cb (d.fill c)).Ok m { v with cell := .live (d.fill c), completion := some c } := by
  obtain ⟨rfl, hb⟩ := h
  exact ⟨c, by rw [d.fill_request], hb.fill, d.filled_fill c, hc⟩

/-- A thread of the IO pool takes it up. -/
theorem handle (h : (arrived cb d).Ok m v) (t : ℕ) : (handling t cb d .none false false).Ok m v := by
  obtain ⟨c, rfl, -, hf, hc⟩ := h
  exact ⟨c, rfl, hf, hc⟩

/-- `socket_io_routine` takes over the outcome. -/
theorem settle (h : (handling t cb d ρ posted false).Ok m v) (hr : d'.request = d.request)
    (ha : d'.acceptAddressBuffer = d.acceptAddressBuffer) :
    (handling t cb d' ρ posted false).Ok m { v with cell := .live d' } := by
  obtain ⟨c, rfl, hf, hc⟩ := h
  have hk : d'.userHandler = d.userHandler := congrArg Request.handler hr
  exact ⟨c, by rw [hr], fun h' => ha.trans (hf (by rwa [← hk])), hc⟩

/-- A call that `socket_io_routine` makes has reported something. -/
theorem report (h : (handling t cb d ρ posted false).Ok m v) (ρ' : Reports) :
    (handling t cb d ρ' posted false).Ok m { v with reports := ρ' } := by
  obtain ⟨c, rfl, hf, hc⟩ := h
  exact ⟨c, rfl, hf, hc⟩

/-- The handler is posted to the user pool. -/
theorem post (h : (handling t cb d ρ posted false).Ok m v) (q : Work)
    (hs : d.Settled cb.ioResult cb.nBytesTransferred ρ) (hf : d.userHandler.func ≠ none) :
    (queued q d).Ok m { v with posted := true } := by
  obtain ⟨c, rfl, hfill, hr, hn⟩ := h
  rw [hr, hn] at hs
  exact ⟨c, ρ, rfl, hfill, hs, hf⟩

/-- The user pool refuses it. -/
theorem refuse (h : (handling t cb d ρ posted false).Ok m v) :
    (handling t cb d ρ true false).Ok m { v with posted := true } := by
  obtain ⟨c, rfl, hf, hc⟩ := h
  exact ⟨c, rfl, hf, hc⟩

/-- `socket_io_routine` calls the handler itself. -/
theorem invoke (h : (handling t cb d ρ posted false).Ok m v) (d' : IOData)
    (hs : d.Settled cb.ioResult cb.nBytesTransferred ρ) (hf : d.userHandler.func = some f) :
    (handling t cb d' ρ posted true).Ok m
      { v with cell := .live d', invocations := v.invocations ++ [(f, d.args)] } := by
  obtain ⟨c, rfl, hfill, hr, hn⟩ := h
  rw [hr, hn] at hs
  exact ⟨d.request, c, ρ, posted, _, rfl, f, d.args, hf, rfl, hs.args_of hfill⟩

/-- A thread of the user pool takes up the closure. -/
theorem call (h : (queued q d).Ok m v) (t : ℕ) : (calling t d false).Ok m v := h

/-- The closure calls the handler. -/
theorem invoked (h : (calling t d false).Ok m v) (d' : IOData) (hf : d.userHandler.func = some f) :
    (calling t d' true).Ok m
      { v with cell := .live d', invocations := v.invocations ++ [(f, d.args)] } := by
  obtain ⟨c, ρ, rfl, hfill, hs, -⟩ := h
  exact ⟨d.request, c, ρ, true, _, rfl, f, d.args, hf, rfl, hs.args_of hfill⟩

/-- The operation was not accepted, and its `IOData` is deleted. -/
theorem abandon (h : (starting t d).Ok m v) :
    freed.Ok m { v with cell := .freed, frees := v.frees + 1 } := by
  obtain ⟨rfl, -⟩ := h
  exact ⟨_, _, _, _, _, _, rfl, .inl ⟨rfl, rfl, rfl⟩⟩

/-- `socket_io_routine` deletes the `IOData`. -/
theorem free (h : (handling t cb d ρ posted called).Ok m v)
    (hd : called = true ∨ d.userHandler.func = none ∨ m.alive = false) :
    freed.Ok m { v with cell := .freed, frees := v.frees + 1 } := by
  cases called with
  | false =>
    obtain ⟨c, rfl, -, -⟩ := h
    refine ⟨_, _, _, _, _, _, rfl, .inr ⟨rfl, c, rfl, .inl ⟨rfl, ?_⟩⟩⟩
    exact hd.resolve_left nofun
  | true =>
    obtain ⟨q, c, ρ', posted, calls, rfl, hold⟩ := h
    exact ⟨_, _, _, _, _, _, rfl, .inr ⟨rfl, c, rfl, .inr hold⟩⟩

/-- The closure deletes it. -/
theorem done (h : (calling t d true).Ok m v) :
    freed.Ok m { v with cell := .freed, frees := v.frees + 1 } := by
  obtain ⟨q, c, ρ', posted, calls, rfl, hold⟩ := h
  exact ⟨_, _, _, _, _, _, rfl, .inr ⟨rfl, c, rfl, .inr hold⟩⟩

/-- An early return leaves the `IOData` behind. -/
theorem leak (h : (starting t d).Ok m v) (hm : m.clean = false) : lost.Ok m v := by
  obtain ⟨rfl, -⟩ := h
  exact ⟨_, _, _, _, _, _, _, rfl, .inl ⟨rfl, hm, rfl, rfl⟩⟩

/-- The thread that runs `socket_io_routine` leaves it behind. -/
theorem leave (h : (handling t cb d ρ posted called).Ok m v) (hm : m.alive = false ∨ m.honest = false) :
    lost.Ok m v := by
  cases called with
  | false =>
    obtain ⟨c, rfl, -, -⟩ := h
    exact ⟨_, _, _, _, _, _, _, rfl, .inr ⟨rfl, hm, .inl rfl⟩⟩
  | true =>
    obtain ⟨q, c, ρ', posted, calls, rfl, hold⟩ := h
    exact ⟨_, _, _, _, _, _, _, rfl, .inr ⟨rfl, hm, .inr ⟨c, rfl, hold⟩⟩⟩

/-- A completion is discarded. -/
theorem discard (h : (arrived cb d).Ok m v) (hm : m.alive = false) : lost.Ok m v := by
  obtain ⟨c, rfl, -⟩ := h
  exact ⟨_, _, _, _, _, _, _, rfl, .inr ⟨rfl, .inl hm, .inl rfl⟩⟩

/-- A closure is discarded. -/
theorem cancel (h : (queued q d).Ok m v) (hm : m.alive = false) : lost.Ok m v := by
  obtain ⟨c, ρ, rfl, -⟩ := h
  exact ⟨_, _, _, _, _, _, _, rfl, .inr ⟨rfl, .inl hm, .inl rfl⟩⟩

end Ok

end Place

end FirelinkNet
