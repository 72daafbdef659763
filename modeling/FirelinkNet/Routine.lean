import FirelinkNet.Lifecycle

/-!
# What `socket_io_routine` delivers

`socket_io_routine` on one completion, whatever else happens meanwhile. The thread that
runs it is the only one to use the `IOData` (`Ownership`); everything else that it asks
for is answered by the rest of the system, as that likes. The answers that matter are
`Replies`, and what becomes of the operation is its `Fate`.

## What is proved

* `Routine.reply_world` — **the machine is such a rest of the system**.
* `delivers_iff` — **when a handler is delivered**: it is posted or called, if and only if
  `io_core_` can be locked and a failed submission is reported as an error.
* `first_error_wins` — **the first error wins**: the handler is called with the first error
  there was, by `socket_io_routine` and by the closure alike.
* `Routine.errors_eq` — **the errors are those of the accounts** (`Lifecycle`).
-/

namespace FirelinkNet

open Lib

namespace Routine

/-! ### The rest of the system -/

/-- What `socket_io_routine` is told before the handler is called. -/
structure Replies where
  /-- `setsockopt`. -/
  update : Except OsError Unit
  /-- `GetAcceptExSockaddrs` finds the two addresses. -/
  parsed : Bool
  /-- `io_core_` can be locked. -/
  locked : Bool
  /-- `TrySubmitThreadpoolCallback`. -/
  submitted : Bool
  /-- `GetLastError`, when that fails. -/
  lastError : Int32

/-- What becomes of an operation. -/
structure Fate where
  /-- Its `IOData`. -/
  data : IOData
  /-- The closure that was queued, before the `IOData` was deleted. -/
  queued : Option Closure
  /-- The first call of the handler, before the `IOData` was deleted. -/
  called : Option (ℕ × Args)
  /-- The `IOData` is deleted. -/
  deleted : Bool

/-- As its completion is taken up. -/
def Fate.new (d : IOData) : Fate := ⟨d, none, none, false⟩

/-- The handler is called. -/
def Fate.call (s : Fate) (f : ℕ) (args : Args) : Fate :=
  { s with
    data := World.moveAccept s.data
    called := s.called <|> if s.deleted then none else some (f, args) }

/-- A closure is offered to the user pool. -/
def Fate.post (s : Fate) (c : Closure) (ok : Bool) : Fate :=
  { s with queued := s.queued <|> if ok && !s.deleted then some c else none }

/-- An answer of `Replies`, for as long as the handler was not called; what user code is told
after that is left open. -/
def Fate.pick {α : Type} (s : Fate) (told other : α) : α := if s.called.isNone then told else other

/-- What the rest of the system answers, to any call. -/
abbrev Oracle := (o : Op) → Res o

/-- What a call does to the operation of the `IOData` `i`. -/
def reply (i : DataId) (e : Replies) (s : Fate) : (o : Op) → Oracle → Res o × Fate
  | .readIOData j, x => (if j = i then s.data else x (.readIOData j), s)
  | .writeIOData j d, _ => ((), if j = i then { s with data := d } else s)
  | .deleteIOData j, x => (x (.deleteIOData j), if j = i then { s with deleted := true } else s)
  | .invoke j f args, x => (x (.invoke j f args), if j = i then s.call f args else s)
  | .setsockopt h u, x => (s.pick e.update (x (.setsockopt h u)), s)
  | .getAcceptExSockaddrs b, x =>
    (s.pick (if e.parsed then b else none) (x (.getAcceptExSockaddrs b)), s)
  | .lockIoCore, x => (s.pick e.locked (x .lockIoCore), s)
  | .trySubmitThreadpoolCallback f c k, x =>
    (s.pick e.submitted (x (.trySubmitThreadpoolCallback f c k)),
      s.pick (s.post c e.submitted) s)
  | .getLastError, x => (s.pick e.lastError (x .getLastError), s)
  | o, x => (x o, s)

/-- The rest of the system. -/
def rest (i : DataId) (e : Replies) : Host Op Res Fate Oracle :=
  ⟨fun _ _ _ _ => true, fun s _ => reply i e s⟩

/-! ### The machine -/

/-- What the world has on record of an operation, while its `IOData` is live. -/
def fate (w : World) (i : DataId) (d : IOData) : Fate :=
  ⟨d, (w.queue.find? fun q => q.closure.ioData = some i).map (·.closure), (w.invocations i).head?, false⟩

/-- What a call of thread `t` is told, when the environment answers `a`. -/
def replies (w : World) (t : ℕ) (a : Ans) : Replies :=
  ⟨World.result a (), a.error.isNone, w.coreAlive, a.error.isNone, w.lastError t⟩

/-- The calls that `socket_io_routine` makes, up to that of the handler. -/
def Makes (i : DataId) : Op → Prop
  | .readIOData j | .writeIOData j _ | .invoke j _ _ => j = i
  | .trySubmitThreadpoolCallback _ c _ => c.ioData = some i
  | .readSocket _ | .setsockopt _ _ | .getAcceptExSockaddrs _ | .lockIoCore | .newFunc _ | .deleteFunc _
  | .getLastError => True
  | _ => False

theorem pick_none {s : Fate} {α : Type} (hn : s.called = none) (told other : α) : s.pick told other = told := by
  rw [Fate.pick, hn]
  rfl

/-- **The machine is such a rest of the system**: it answers the calls of `socket_io_routine` alike, and does
the same to the operation. -/
theorem reply_world {w : World} {t : ℕ} {i : DataId} {d : IOData} {o : Op} {a : Ans}
    (hlive : w.heap i = .live d) (hn : w.invocations i = []) (ho : Makes i o) :
    ∃ d', (w.reply t o a).2.heap i = .live d' ∧
      (rest i (replies w t a)).reply (fate w i d) t o (fun o => (w.reply t o a).1) =
        ((w.reply t o a).1, fate (w.reply t o a).2 i d') := by
  have hcalled : (fate w i d).called = none := congrArg List.head? hn
  have hpick : ∀ {α : Type} (told other : α), (fate w i d).pick told other = told := pick_none hcalled
  cases o with
  | readIOData j =>
    cases ho
    refine ⟨d, hlive, Prod.ext ?_ rfl⟩
    show (if i = i then d else _) = (w.heap i).get
    rw [if_pos rfl, hlive]
    rfl
  | writeIOData j d' =>
    cases ho
    refine ⟨d', ?_, Prod.ext rfl (if_pos rfl)⟩
    show Function.update w.heap i _ i = _
    rw [Function.update_self, hlive]
    rfl
  | invoke j f args =>
    cases ho
    refine ⟨World.moveAccept d, ?_, Prod.ext rfl ?_⟩
    · show Function.update w.heap i _ i = _
      rw [Function.update_self, hlive]
      rfl
    · show (if i = i then (fate w i d).call f args else _) = _
      rw [if_pos rfl, Fate.call, hcalled]
      show _ = Fate.mk _ _ (Function.update w.invocations i _ i).head? _
      rw [Function.update_self, hn]
      rfl
  | trySubmitThreadpoolCallback f c k =>
    refine ⟨d, hlive, Prod.ext (hpick _ _) ?_⟩
    show (fate w i d).pick _ _ = _
    rw [hpick]
    have hc : (w.work f c k).closure.ioData = some i := ho
    have hsub : (replies w t a).submitted = a.error.isNone := rfl
    show Fate.mk _ _ _ _ = Fate.mk _ (Option.map _ (List.find? _ (if a.error.isNone then _ else _))) _ _
    cases he : a.error.isNone with
    | true =>
      rw [if_pos rfl, List.find?_append, List.find?_singleton, if_pos (decide_eq_true hc), Option.map_or, fate,
        hsub, he]
      cases w.queue.find? fun q => q.closure.ioData = some i <;> rfl
    | false =>
      rw [if_neg Bool.false_ne_true, fate, hsub, he]
      cases w.queue.find? fun q => q.closure.ioData = some i <;> rfl
  | readSocket x => exact ⟨d, hlive, rfl⟩
  | setsockopt h u => exact ⟨d, hlive, Prod.ext (hpick _ _) rfl⟩
  | getAcceptExSockaddrs b => exact ⟨d, hlive, Prod.ext (hpick _ _) rfl⟩
  | lockIoCore => exact ⟨d, hlive, Prod.ext (hpick _ _) rfl⟩
  | getLastError => exact ⟨d, hlive, Prod.ext (hpick _ _) rfl⟩
  | newFunc c => exact ⟨d, hlive, rfl⟩
  | deleteFunc g => exact ⟨d, hlive, rfl⟩
  | _ => cases ho

/-! ### What is noted -/

/-- What `update_accept_socket_context` and `update_connect_socket_context` return. -/
def Replies.updated (e : Replies) : ErrorCode :=
  match e.update with
  | .error x => x.toErrorCode
  | .ok () => .success

/-- The same, for the accept branch: that there is no accept socket is an error. -/
def acceptUpdated (d : IOData) (e : Replies) : ErrorCode :=
  match d.acceptSocket with
  | some _ => e.updated
  | none => .systemError

/-- The addresses that `GetAcceptExSockaddrs` finds. -/
def addrs (d : IOData) (e : Replies) : Option (SockaddrStorage × SockaddrStorage) :=
  if e.parsed then d.acceptAddressBuffer else none

/-- The addresses are copied to the `IOData`. -/
def retrieve (d : IOData) : Option (SockaddrStorage × SockaddrStorage) → IOData
  | some (l, p) => { d with localWinAddr := l, peerWinAddr := p }
  | none => d

/-- What `get_acceptex_sockaddrs` returns. -/
def retrieveError : Option (SockaddrStorage × SockaddrStorage) → ErrorCode
  | some _ => .success
  | none => .systemError

/-- What there is to report when the handler is to be called, in order. -/
def errors (d : IOData) (ioResult : UInt32) (e : Replies) : List ErrorCode :=
  .ofULong ioResult ::
    match d.userHandler.kind with
    | .accept => [acceptUpdated d e, retrieveError (addrs d e),
        conversionError (retrieve d (addrs d e)).localWinAddr,
        conversionError (retrieve d (addrs d e)).peerWinAddr]
    | .connect => [e.updated]
    | _ => []

/-- **The accounts have the same errors.** -/
theorem errors_eq (d : IOData) (ioResult : UInt32) (e : Replies) (post : ErrorCode) :
    errors d ioResult e = (retrieve d (addrs d e)).errors ioResult ⟨e.updated, (addrs d e).isSome, post⟩ := by
  have hrequest : (retrieve d (addrs d e)).request = d.request := by
    cases addrs d e <;> rfl
  have hkind : (retrieve d (addrs d e)).userHandler.kind = d.userHandler.kind :=
    congrArg (fun q => q.handler.kind) hrequest
  have hsock : (retrieve d (addrs d e)).acceptSocket = d.acceptSocket := congrArg Request.acceptSocket hrequest
  unfold errors IOData.errors
  rw [hkind, hsock]
  cases d.userHandler.kind with
  | accept =>
    have hupdate : acceptUpdated d e = Reports.accepted ⟨e.updated, (addrs d e).isSome, post⟩ d.acceptSocket := by
      unfold acceptUpdated
      cases d.acceptSocket <;> rfl
    have hretrieve : retrieveError (addrs d e) = Reports.retrieved ⟨e.updated, (addrs d e).isSome, post⟩ := by
      cases haddrs : addrs d e <;> simp [retrieveError, Reports.retrieved]
    rw [hupdate, hretrieve]
  | _ => rfl

/-- The `IOData` with an outcome: the count of bytes, the addresses of an accept, and an error. -/
def outcome (d : IOData) (n : UInt64) (a : Option (SockaddrStorage × SockaddrStorage)) (err : ErrorCode) :
    IOData :=
  { retrieve d a with bytesTransferred := n.toUInt32.toInt32, errorCode := err }

/-- The outcome that the handler is told. -/
def finalOutcome (d : IOData) (n : UInt64) (e : Replies) (err : ErrorCode) : IOData :=
  outcome d n (if d.userHandler.kind = .accept then addrs d e else none) err

variable {i : DataId} {d : IOData} {f t : ℕ} {r : UInt32} {n : UInt64} {e : Replies} {s : Fate}
  {a : Option (SockaddrStorage × SockaddrStorage)} {es : List ErrorCode} {err : ErrorCode} {c : Closure}

theorem outcome_note : (outcome d n a (firstError es)).note err = outcome d n a (firstError (es ++ [err])) := by
  rw [firstError_append, firstError_singleton, IOData.note]
  by_cases hes : firstError es = .success
  · rw [if_pos hes]
    by_cases herr : err = .success
    · rw [if_neg fun h => h.1 herr, herr, hes]
    · rw [if_pos ⟨herr, hes⟩]
      rfl
  · rw [if_neg fun h => hes h.2, if_neg hes]

/-! ### One call after another -/

section Calls

variable {α : Type} {Q : α → Fate → Prop}

theorem always_read {k : IOData → Prog α} (hk : (k s.data).Always (rest i e) t Q s) :
    (op (.readIOData i) >>= k).Always (rest i e) t Q s := by
  refine Prog.Always.op_bind fun x _ => ?_
  have hreply : ((rest i e).reply s t (.readIOData i) x).1 = s.data := if_pos rfl
  rw [hreply]
  exact hk

theorem always_write {k : Unit → Prog α} (hk : (k ()).Always (rest i e) t Q { s with data := d }) :
    (op (.writeIOData i d) >>= k).Always (rest i e) t Q s := by
  refine Prog.Always.op_bind fun x _ => ?_
  have hreply : ((rest i e).reply s t (.writeIOData i d) x).2 = { s with data := d } := if_pos rfl
  rw [hreply]
  exact hk

/-- A call that leaves the operation alone. -/
theorem always_other {o : Op} {k : Res o → Prog α} (ho : ∀ x, ((rest i e).reply s t o x).2 = s)
    (hk : ∀ y, (k y).Always (rest i e) t Q s) : (op o >>= k).Always (rest i e) t Q s := by
  refine Prog.Always.op_bind fun x _ => ?_
  rw [ho x]
  exact hk _

/-- A call whose reply is one of `Replies`. -/
theorem always_told {o : Op} {y : Res o} {k : Res o → Prog α} (hn : s.called = none)
    (ho : ∀ x, ((rest i e).reply s t o x).2 = s) (hy : ∀ x, ((rest i e).reply s t o x).1 = s.pick y (x o))
    (hk : (k y).Always (rest i e) t Q s) : (op o >>= k).Always (rest i e) t Q s := by
  refine Prog.Always.op_bind fun x _ => ?_
  rw [ho x, hy x, pick_none hn]
  exact hk

end Calls

theorem always_noteError {Q : Unit → Fate → Prop} (hQ : Q () { s with data := s.data.note err }) :
    (WinSocket.noteError i err).Always (rest i e) t Q s := by
  unfold WinSocket.noteError
  unfold IOData.note at hQ
  by_cases herr : err = .success
  · rw [if_neg (not_not_intro herr)]
    rwa [if_neg fun h => h.1 herr] at hQ
  · rw [if_pos herr]
    refine always_read ?_
    by_cases hs : s.data.errorCode = .success
    · rw [if_pos hs]
      rw [if_pos ⟨herr, hs⟩] at hQ
      exact always_write hQ
    · rw [if_neg hs]
      rwa [if_neg fun h => hs h.2] at hQ

theorem always_updateConnect {x : SockId} {Q : ErrorCode → Fate → Prop} (hn : s.called = none)
    (hQ : Q e.updated s) : (WinSocket.updateConnectSocketContext x).Always (rest i e) t Q s := by
  refine always_other (fun _ => rfl) fun _ => ?_
  refine always_told (y := e.update) hn (fun _ => rfl) (fun _ => rfl) ?_
  unfold Replies.updated at hQ
  cases he : e.update with
  | error x => rw [he] at hQ; exact hQ
  | ok y => rw [he] at hQ; exact hQ

theorem always_updateAccept {x y : SockId} {Q : ErrorCode → Fate → Prop} (hn : s.called = none)
    (hQ : Q e.updated s) : (WinSocket.updateAcceptSocketContext x y).Always (rest i e) t Q s := by
  refine always_other (fun _ => rfl) fun _ => always_other (fun _ => rfl) fun _ => ?_
  refine always_told (y := e.update) hn (fun _ => rfl) (fun _ => rfl) ?_
  unfold Replies.updated at hQ
  cases he : e.update with
  | error x => rw [he] at hQ; exact hQ
  | ok y => rw [he] at hQ; exact hQ

theorem always_getAcceptexSockaddrs {Q : ErrorCode → Fate → Prop} (hn : s.called = none)
    (hQ : Q (retrieveError (addrs s.data e))
      { s with data := retrieve s.data (addrs s.data e) }) :
    (WinSocket.getAcceptexSockaddrs i).Always (rest i e) t Q s := by
  refine always_read (always_told (y := addrs s.data e) hn (fun _ => rfl) (fun _ => rfl) ?_)
  cases ha : addrs s.data e with
  | none =>
    rw [ha] at hQ
    exact hQ
  | some a =>
    rw [ha] at hQ
    exact always_write hQ

/-! ### Calling the handler -/

/-- Once the handler was called, nothing more becomes of the operation but its deletion. -/
theorem called_reply {p : ℕ × Args} (hs : s.called = some p) (o : Op) (x : Oracle) :
    ((rest i e).reply s t o x).2.called = some p ∧ ((rest i e).reply s t o x).2.queued = s.queued := by
  cases o with
  | writeIOData j d =>
    show (if j = i then _ else _ : Fate).called = _ ∧ (if j = i then _ else _ : Fate).queued = _
    split <;> exact ⟨hs, rfl⟩
  | deleteIOData j =>
    show (if j = i then _ else _ : Fate).called = _ ∧ (if j = i then _ else _ : Fate).queued = _
    split <;> exact ⟨hs, rfl⟩
  | invoke j f args =>
    show (if j = i then _ else _ : Fate).called = _ ∧ (if j = i then _ else _ : Fate).queued = _
    split
    · rw [Fate.call, hs]
      exact ⟨rfl, rfl⟩
    · exact ⟨hs, rfl⟩
  | trySubmitThreadpoolCallback f c k =>
    show (s.pick _ s).called = _ ∧ (s.pick _ s).queued = _
    rw [Fate.pick, hs]
    exact ⟨hs, rfl⟩
  | _ => exact ⟨hs, rfl⟩

theorem all_true {α : Type} (p : Prog α) : p.All fun _ => True := by
  induction p with
  | ret a => trivial
  | call o k ih => exact ⟨trivial, ih⟩

/-- The handler was called with these arguments, and no closure was queued. -/
def Fate.Inline (f : ℕ) (args : Args) (s : Fate) : Prop := s.called = some (f, args) ∧ s.queued = none

/-- Whatever follows, the call of the handler stays the first. -/
theorem always_inline {α : Type} (p : Prog α) {args : Args} (hs : s.Inline f args) :
    p.Always (rest i e) t (fun _ => Fate.Inline f args) s := by
  refine .of_all (all_true p) (fun s o x _ _ hs => ?_) hs
  obtain ⟨hcalled, hqueued⟩ := called_reply hs.1 o x
  exact ⟨hcalled, hqueued.trans hs.2⟩

theorem always_callHandler {args : Args} (hn : s.called = none) (hq : s.queued = none)
    (hd : s.deleted = false) :
    (WinSocket.callHandler i f args).Always (rest i e) t (fun _ => Fate.Inline f args) s := by
  refine Prog.Always.op_bind fun x _ => always_inline _ ?_
  show (if i = i then s.call f args else s).Inline f args
  rw [if_pos rfl]
  refine ⟨?_, hq⟩
  rw [Fate.call, hn, hd]
  rfl

/-- **The closure of an `IOData` calls its handler with its own arguments.** -/
theorem always_callUserHandler (hc : s.data.closure i f = c) (hn : s.called = none) (hq : s.queued = none)
    (hd : s.deleted = false) :
    (WinSocket.callUserHandler c).Always (rest i e) t (fun _ => Fate.Inline f s.data.args) s := by
  subst hc
  unfold IOData.closure IOData.args
  cases s.data.userHandler.kind <;> exact always_read (always_callHandler hn hq hd)

theorem closure_note (d : IOData) (err : ErrorCode) : (d.note err).closure i f = d.closure i f := by
  simp [IOData.closure]

/-- What `deliver` comes to. -/
inductive Handed (c : Closure) (f : ℕ) (d : IOData) (e : Replies) : Bool → Fate → Prop
  /-- The core is gone. -/
  | gone : e.locked = false → Handed c f d e false (.new d)
  /-- The closure is queued. -/
  | queued : e.locked = true → e.submitted = true → Handed c f d e true ⟨d, some c, none, false⟩
  /-- It is not, and nobody is told. -/
  | silent : e.locked = true → e.submitted = false → e.lastError = 0 → Handed c f d e true (.new d)
  /-- The handler is called at once. -/
  | inline {s : Fate} : e.locked = true → e.submitted = false → e.lastError ≠ 0 →
      s.Inline f (d.note ⟨e.lastError⟩).args → Handed c f d e false s

theorem always_deliver (hc : d.closure i f = c) :
    (WinSocket.deliver i c).Always (rest i e) t (Handed c f d e) (.new d) := by
  refine always_told (y := e.locked) rfl (fun _ => rfl) (fun _ => rfl) ?_
  cases hlock : e.locked with
  | false => exact .gone hlock
  | true =>
    simp only [if_true]
    rw [Prog.always_bind]
    refine always_other (fun _ => rfl) fun heapFunc => Prog.Always.op_bind fun x _ => ?_
    show Prog.Always _ _ (if e.submitted then _ else _) _ (Fate.post (.new d) c e.submitted)
    cases hsub : e.submitted with
    | true => exact .queued hlock hsub
    | false =>
      refine always_other (fun _ => rfl) fun _ => ?_
      refine always_told (y := e.lastError) rfl (fun _ => rfl) (fun _ => rfl) ?_
      show Prog.Always _ _ (if ErrorCode.mk e.lastError = .success then _ else _) _ _
      by_cases herr : ErrorCode.mk e.lastError = .success
      · rw [if_pos herr]
        exact .silent hlock hsub (congrArg ErrorCode.code herr)
      · rw [if_neg herr]
        refine Prog.always_bind.mpr (always_noteError ?_)
        refine Prog.Always.bind (always_callUserHandler ((closure_note d _).trans hc) rfl rfl rfl) ?_
        intro _ s hs
        exact .inline hlock hsub (fun h => herr (by rw [h]; rfl)) hs

/-! ### The whole routine -/

theorem addrs_outcome : addrs (outcome d n none err) e = addrs d e := rfl

theorem retrieve_eq_outcome {b : UInt64} : retrieve (outcome d b none err) a = outcome d b a err := by
  cases a <;> rfl

/-- The data of the operation when the handler is to be called. -/
abbrev final (d : IOData) (r : UInt32) (n : UInt64) (e : Replies) : IOData :=
  finalOutcome d n e (firstError (errors d r e))

@[simp] theorem outcome_userHandler : (outcome d n a err).userHandler = d.userHandler := by
  cases a <;> rfl

theorem closure_accept (hk : d.userHandler.kind = .accept) : (outcome d n a err).closure i f =
    .accept i f (endpointOf (outcome d n a err).localWinAddr) (endpointOf (outcome d n a err).peerWinAddr) := by
  rw [IOData.closure, outcome_userHandler, hk]

theorem always_visitAccept {Q : Bool → Fate → Prop} {x : SockId} (hk : d.userHandler.kind = .accept)
    (hQ : (WinSocket.deliver i ((final d r n e).closure i f)).Always (rest i e) t Q (.new (final d r n e))) :
    (WinSocket.visitAccept i x (some f)).Always (rest i e) t Q
      (.new (outcome d n none (firstError [.ofULong r]))) := by
  have hfinal : final d r n e = outcome d n (addrs d e) (firstError ([.ofULong r] ++ [acceptUpdated d e] ++
      [retrieveError (addrs d e)] ++
      [conversionError (retrieve d (addrs d e)).localWinAddr] ++
      [conversionError (retrieve d (addrs d e)).peerWinAddr])) := by
    rw [final, finalOutcome, if_pos hk, errors, hk]
    rfl
  rw [hfinal, closure_accept hk] at hQ
  have hrest : (WinSocket.deliverAccept i (some f)).Always (rest i e) t Q
      (.new (outcome d n none (firstError ([.ofULong r] ++ [acceptUpdated d e])))) := by
    refine Prog.always_bind.mpr (always_getAcceptexSockaddrs rfl ?_)
    refine Prog.always_bind.mpr (always_noteError (always_read ?_))
    refine Prog.always_bind.mpr (always_noteError ?_)
    refine Prog.always_bind.mpr (always_noteError ?_)
    dsimp only [Fate.new]
    rw [addrs_outcome, retrieve_eq_outcome, outcome_note, outcome_note, outcome_note]
    exact hQ
  refine always_read ?_
  cases hsock : d.acceptSocket with
  | none =>
    have hupd : acceptUpdated d e = .systemError := by rw [acceptUpdated, hsock]
    rw [hupd, ← outcome_note] at hrest
    show Prog.Always _ _ (match d.acceptSocket with | some a => _ | none => _) _ _
    rw [hsock]
    exact Prog.always_bind.mpr (always_noteError hrest)
  | some y =>
    have hupd : acceptUpdated d e = e.updated := by rw [acceptUpdated, hsock]
    rw [hupd, ← outcome_note] at hrest
    show Prog.Always _ _ (match d.acceptSocket with | some a => _ | none => _) _ _
    rw [hsock]
    exact Prog.always_bind.mpr (always_updateAccept rfl
      (Prog.always_bind.mpr (always_noteError hrest)))

theorem always_visitConnect {Q : Bool → Fate → Prop} {x : SockId} (hk : d.userHandler.kind = .connect)
    (hQ : (WinSocket.deliver i ((final d r n e).closure i f)).Always (rest i e) t Q (.new (final d r n e))) :
    (WinSocket.visitConnect i x (some f)).Always (rest i e) t Q
      (.new (outcome d n none (firstError [.ofULong r]))) := by
  have hfinal : final d r n e = outcome d n none (firstError ([.ofULong r] ++ [e.updated])) := by
    rw [final, finalOutcome, if_neg (by rw [hk]; nofun), errors, hk]
    rfl
  have hclosure : (final d r n e).closure i f = .connect i f := by
    rw [hfinal, IOData.closure, outcome_userHandler, hk]
  rw [hclosure, hfinal, ← outcome_note] at hQ
  exact Prog.always_bind.mpr (always_updateConnect rfl (Prog.always_bind.mpr (always_noteError hQ)))

/-- `socket_io_routine` takes over the outcome, and then there is the handler to deliver. -/
theorem always_visit {Q : Bool → Fate → Prop} {x : SockId} (hf : d.userHandler.func = some f)
    (hQ : (WinSocket.deliver i ((final d r n e).closure i f)).Always (rest i e) t Q (.new (final d r n e))) :
    (WinSocket.visit i x d.userHandler).Always (rest i e) t Q
      (.new (outcome d n none (firstError [.ofULong r]))) := by
  unfold WinSocket.visit
  rw [hf]
  cases hk : d.userHandler.kind with
  | accept => exact always_visitAccept hk hQ
  | connect => exact always_visitConnect hk hQ
  | read =>
    rw [final, finalOutcome, errors, IOData.closure, outcome_userHandler, hk] at hQ
    exact hQ
  | write =>
    rw [final, finalOutcome, errors, IOData.closure, outcome_userHandler, hk] at hQ
    exact hQ
  | disconnect =>
    rw [final, finalOutcome, errors, IOData.closure, outcome_userHandler, hk] at hQ
    exact hQ

/-- The `IOData` was deleted, and nothing had become of the handler. -/
def Fate.Dropped (s : Fate) : Prop := s.deleted = true ∧ s.called = none ∧ s.queued = none

/-- Nothing becomes of it after that. -/
theorem dropped_reply (hs : s.Dropped) (o : Op) (x : Oracle) : ((rest i e).reply s t o x).2.Dropped := by
  obtain ⟨hd, hn, hq⟩ := hs
  cases o with
  | writeIOData j d =>
    show (if j = i then _ else _ : Fate).Dropped
    split <;> exact ⟨hd, hn, hq⟩
  | deleteIOData j =>
    show (if j = i then _ else _ : Fate).Dropped
    split
    · exact ⟨rfl, hn, hq⟩
    · exact ⟨hd, hn, hq⟩
  | invoke j f args =>
    show (if j = i then _ else _ : Fate).Dropped
    split
    · exact ⟨hd, by rw [Fate.call, hn, hd]; rfl, hq⟩
    · exact ⟨hd, hn, hq⟩
  | trySubmitThreadpoolCallback f c k =>
    show (s.pick (s.post c e.submitted) s).Dropped
    rw [pick_none hn]
    exact ⟨hd, hn, by rw [Fate.post, hq, hd, Bool.not_true, Bool.and_false]; rfl⟩
  | _ => exact ⟨hd, hn, hq⟩

/-- How `socket_io_routine` ends. -/
inductive Ends (i : DataId) (d : IOData) (f : ℕ) (r : UInt32) (n : UInt64) (e : Replies) (s : Fate) : Prop
  /-- The core is gone: the `IOData` is deleted, and that is all. -/
  | gone : e.locked = false → s.Dropped → Ends i d f r n e s
  /-- The closure is queued. -/
  | queued : e.locked = true → e.submitted = true →
      s = ⟨final d r n e, some ((final d r n e).closure i f), none, false⟩ → Ends i d f r n e s
  /-- It is not, and nobody is told. -/
  | silent : e.locked = true → e.submitted = false → e.lastError = 0 → s = .new (final d r n e) →
      Ends i d f r n e s
  /-- The handler was called at once. -/
  | inline : e.locked = true → e.submitted = false → e.lastError ≠ 0 →
      s.Inline f ((final d r n e).note ⟨e.lastError⟩).args → Ends i d f r n e s

/-- **What `socket_io_routine` does**, whatever it is told. -/
theorem always_socketIoRoutine (hf : d.userHandler.func = some f) :
    (WinSocket.socketIoRoutine (some i) r n).Always (rest i e) t (fun _ => Ends i d f r n e) (.new d) := by
  refine always_read (always_write (Prog.always_bind.mpr ?_))
  show Prog.Always _ _ (WinSocket.visit i d.socket d.userHandler) _ (Fate.new (outcome d n none (.ofULong r)))
  rw [← firstError_singleton (.ofULong r)]
  refine always_visit hf (Prog.Always.mono (always_deliver rfl) ?_)
  intro posted s hs
  cases hs with
  | gone hlock =>
    refine Prog.Always.mono ?_ fun _ _ => Ends.gone hlock
    refine Prog.Always.op_bind fun x _ => ?_
    refine .of_all (all_true _) (fun _ o x _ _ hs => dropped_reply hs o x) ?_
    show (if i = i then _ else _ : Fate).Dropped
    rw [if_pos rfl]
    exact ⟨rfl, rfl, rfl⟩
  | queued hlock hsub => exact .queued hlock hsub rfl
  | silent hlock hsub herr => exact .silent hlock hsub herr rfl
  | inline hlock hsub herr hs =>
    exact Prog.Always.mono (always_inline _ hs) fun _ _ => Ends.inline hlock hsub herr

/-- The handler was queued or called, before the `IOData` was deleted. -/
def Fate.Delivered (s : Fate) : Prop := s.queued.isSome ∨ s.called.isSome

/-- The arguments of the handler, given the error. -/
def arguments (d : IOData) (n : UInt64) (e : Replies) (err : ErrorCode) : Args :=
  match d.userHandler.kind with
  | .accept => .accept d.socket d.acceptSocket (endpointOf (retrieve d (addrs d e)).localWinAddr)
      (endpointOf (retrieve d (addrs d e)).peerWinAddr) err
  | .connect => .connect d.socket err
  | .read => .read d.socket err n.toUInt32.toInt32
  | .write => .write d.socket err n.toUInt32.toInt32
  | .disconnect => .disconnect d.socket err

theorem args_finalOutcome : (finalOutcome d n e err).args = arguments d n e err := by
  rw [finalOutcome, IOData.args, arguments, outcome_userHandler]
  cases hk : d.userHandler.kind with
  | accept =>
    dsimp only
    rw [if_pos rfl]
    cases addrs d e <;> rfl
  | _ => rfl

theorem args_note : ((final d r n e).note err).args = arguments d n e (firstError (errors d r e ++ [err])) := by
  rw [← args_finalOutcome]
  exact congrArg IOData.args outcome_note

/-- Some run of a program there is. -/
theorem not_always_of_always_not {α : Type} {p : Prog α} {Q : α → Fate → Prop}
    (h : p.Always (rest i e) t (fun a s => ¬ Q a s) s) : ¬ p.Always (rest i e) t Q s := by
  intro h'
  obtain ⟨xs, a, s', he⟩ := Prog.exists_eval (h := rest i e) (t := t)
    (x := fun o => (World.reply .blank 0 o {}).1) (fun _ _ => rfl) p s
  exact Prog.always_iff_eval.mp h xs a s' he (Prog.always_iff_eval.mp h' xs a s' he)

theorem Ends.delivered_iff (h : Ends i d f r n e s) :
    s.Delivered ↔ e.locked = true ∧ (e.submitted = true ∨ e.lastError ≠ 0) := by
  cases h with
  | gone hlock hs =>
    obtain ⟨-, hn, hq⟩ := hs
    simp [Fate.Delivered, hlock, hn, hq]
  | queued hlock hsub hs => simp [Fate.Delivered, hlock, hsub, hs]
  | silent hlock hsub herr hs => simp [Fate.Delivered, hlock, hsub, herr, hs, Fate.new]
  | inline hlock hsub herr hs => simp [Fate.Delivered, hlock, herr, hs.1]

theorem not_always_delivered (hf : d.userHandler.func = some f)
    (hcond : ¬ (e.locked = true ∧ (e.submitted = true ∨ e.lastError ≠ 0))) :
    ¬ (WinSocket.socketIoRoutine (some i) r n).Always (rest i e) t (fun _ => Fate.Delivered) (.new d) :=
  not_always_of_always_not
    (Prog.Always.mono (always_socketIoRoutine hf) fun _ _ hs => mt hs.delivered_iff.mp hcond)

end Routine

open Routine

/-! ### When a handler is delivered -/

/-- **When a handler is delivered.** `socket_io_routine` posts the handler of the operation or calls it,
before it deletes the `IOData`, if and only if `io_core_` can be locked, and the closure is queued or a failed
submission is reported as an error. -/
theorem delivers_iff {i : DataId} {d : IOData} {f t : ℕ} {r : UInt32} {n : UInt64} {e : Replies}
    (hf : d.userHandler.func = some f) :
    (WinSocket.socketIoRoutine (some i) r n).Always (rest i e) t (fun _ => Fate.Delivered) (.new d) ↔
      e.locked = true ∧ (e.submitted = true ∨ e.lastError ≠ 0) := by
  constructor
  · intro h
    by_contra hcond
    exact not_always_delivered hf hcond h
  · intro hcond
    exact Prog.Always.mono (always_socketIoRoutine hf) fun _ _ hs => hs.delivered_iff.mpr hcond

/-- The user pool refuses the handler of a read, with `ERROR_NOT_ENOUGH_MEMORY`: it is called at once. -/
theorem delivers_iff_refused : (WinSocket.socketIoRoutine (some 0) 0 16).Always
    (rest 0 ⟨.ok (), true, true, false, 8⟩) 0 (fun _ => Fate.Delivered) (.new (.new 0 ⟨.read, some 7⟩)) :=
  (delivers_iff rfl).mpr ⟨rfl, .inr (by decide)⟩

/-- The core is gone when a read completes: its handler is neither posted nor called. -/
theorem not_delivers_gone : ¬ ∀ (i : DataId) (d : IOData) (f t : ℕ) (r : UInt32) (n : UInt64) (e : Replies),
    d.userHandler.func = some f →
      (WinSocket.socketIoRoutine (some i) r n).Always (rest i e) t (fun _ => Fate.Delivered) (.new d) := by
  intro h
  exact not_always_delivered rfl (by decide)
    (h 0 (.new 0 ⟨.read, some 7⟩) 7 0 0 16 ⟨.ok (), true, false, true, 0⟩ rfl)

/-! ### The first error -/

/-- An accept without an error has the two addresses of the connection. -/
theorem Routine.exists_addrs {d : IOData} {r : UInt32} {n : UInt64} {e : Replies}
    (hk : d.userHandler.kind = .accept) (herr : firstError (errors d r e) = .success) :
    ∃ l p, d.acceptAddressBuffer = some (l, p) ∧ conversionError l = .success ∧ conversionError p = .success ∧
      arguments d n e .success = .accept d.socket d.acceptSocket (endpointOf l) (endpointOf p) .success := by
  have hall := firstError_eq_success_iff.mp herr
  rw [errors, hk] at hall
  simp only [List.forall_mem_cons] at hall
  obtain ⟨-, -, hret, hl, hp, -⟩ := hall
  cases ha : addrs d e with
  | none =>
    rw [ha] at hret
    exact absurd hret ErrorCode.systemError_ne
  | some a =>
    obtain ⟨l, p⟩ := a
    rw [ha] at hl hp
    have hbuf : d.acceptAddressBuffer = some (l, p) := by
      unfold addrs at ha
      split at ha
      · exact ha
      · cases ha
    refine ⟨l, p, hbuf, hl, hp, ?_⟩
    rw [arguments, hk, ha]
    rfl

/-- **The first error wins.** A handler that `socket_io_routine` calls is told the first error there was, that
of the failed submission last; a handler that it posts is told the first error, without that, when its closure
runs, and the other arguments are the same; and one of the two there is, where the handler is to be delivered
(`delivers_iff`). There is no error if and only if all went well, and then an accept handler is told the two
addresses of the connection. -/
theorem first_error_wins {i : DataId} {d : IOData} {f t : ℕ} {r : UInt32} {n : UInt64} {e : Replies}
    (hf : d.userHandler.func = some f) :
    (WinSocket.socketIoRoutine (some i) r n).Always (rest i e) t (fun _ s =>
        (∀ call, s.called = some call →
          call = (f, arguments d n e (firstError (errors d r e ++ [⟨e.lastError⟩])))) ∧
        (∀ c, s.queued = some c → ∀ u k, (WinSocket.runClosure c).Always (rest i u) k (fun _ s' =>
          s'.called = some (f, arguments d n e (firstError (errors d r e)))) (.new s.data)) ∧
        (e.locked = true → e.submitted = true ∨ e.lastError ≠ 0 → s.Delivered)) (.new d) ∧
      (∀ es, firstError es = .success ↔ ∀ x ∈ es, x = .success) ∧
      (d.userHandler.kind = .accept → firstError (errors d r e) = .success →
        ∃ l p, d.acceptAddressBuffer = some (l, p) ∧ conversionError l = .success ∧
          conversionError p = .success ∧ arguments d n e .success =
            .accept d.socket d.acceptSocket (endpointOf l) (endpointOf p) .success) := by
  refine ⟨?_, fun es => firstError_eq_success_iff, fun hk herr => ?_⟩
  · refine Prog.Always.mono (always_socketIoRoutine hf) fun _ s hs => ?_
    rw [← and_assoc]
    refine ⟨?_, fun hlock hsub => hs.delivered_iff.mpr ⟨hlock, hsub⟩⟩
    cases hs with
    | gone hlock hs =>
      obtain ⟨-, hn, hq⟩ := hs
      refine ⟨fun call hcall => ?_, fun c hc => ?_⟩
      · cases hn.symm.trans hcall
      · cases hq.symm.trans hc
    | queued hlock hsub hs =>
      subst hs
      refine ⟨nofun, fun c hc u k => ?_⟩
      cases hc
      refine Prog.Always.bind (always_callUserHandler rfl rfl rfl rfl) fun _ s' hs' => ?_
      rw [← args_finalOutcome]
      exact Prog.Always.mono (always_inline _ hs') fun _ _ h => h.1
    | silent hlock hsub herr hs =>
      subst hs
      exact ⟨nofun, nofun⟩
    | inline hlock hsub herr hs =>
      refine ⟨fun call hcall => ?_, fun c hc => nomatch hs.2.symm.trans hc⟩
      cases hcall.symm.trans hs.1
      rw [args_note]
  · exact exists_addrs hk herr

/-- An accept fails with `ERROR_NETNAME_DELETED`, and so do the update of its context and the retrieval of its
addresses: the handler is told the first. -/
theorem first_error_wins_accept : (WinSocket.socketIoRoutine (some 0) 64 0).Always
    (rest 0 ⟨.error .noBufs, false, true, false, 8⟩) 0
    (fun _ s => s.Delivered ∧ ∀ call, s.called = some call → call = (7, .accept 0 (some 1)
      (endpointOf zeroMemory) (endpointOf zeroMemory) (.ofULong 64)))
    (.new { IOData.new 0 ⟨.accept, some 7⟩ with acceptSocket := some 1 }) :=
  Prog.Always.mono (first_error_wins (f := 7) rfl).1 fun _ _ hs => ⟨hs.2.2 rfl (.inr (by decide)), hs.1⟩

end FirelinkNet
