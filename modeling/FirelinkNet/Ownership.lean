import FirelinkNet.Lifecycle
import FirelinkNet.Tame

/-!
# Who has an `IOData`

What a thread knows about the `IOData` it has. In a call of the interface that is the
one the call has allocated (`Frame`); in a callback it is the one whose completion, or
whose closure, the thread runs (`Job`). An `IOData` is used by the thread that has it
and by no other, and it is given away only as the life of an operation (`Lifecycle`)
allows: `logic` says so, call by call.

## What is proved

* `Ownership.keeps_run` — a call of the interface ends with nothing in hand, whatever
  it returns, and an operation it reports as started was accepted.
* `Ownership.wp_ioCallback`, `Ownership.wp_workCallback` — `socket_io_routine` and the
  closures use, hand over and delete the `IOData` they have, and nothing else.
-/

namespace FirelinkNet

open Lib

/-- The `IOData` that a callback is about. -/
def Task.data : Task → Option DataId
  | .io cb => some cb.data
  | .work q => q.closure.ioData

/-- A function of the interface that posts work. -/
def ApiCall.posts : ApiCall → Bool
  | .postIoWork _ | .postUserWork _ => true
  | _ => false

/-- A function of the interface that needs an address of the family of its socket. -/
def ApiCall.addresses : ApiCall → Bool
  | .startConnect _ _ _ | .startSendTo _ _ _ _ => true
  | _ => false

/-- The overlapped call that a `start_…` function makes: its own, and on the span it is given. -/
def ApiCall.Makes : ApiCall → IoRequest → Prop
  | .startAccept _ _ _, .acceptEx _ _ | .startConnect _ _ _, .connectEx _ _
  | .startDisconnect _ _ _, .disconnectEx _ _ => True
  | .startRecv _ b _, .wsaRecv _ buf len | .startRecvFrom _ b _, .wsaRecvFrom _ buf len
  | .startSend _ b _, .wsaSend _ buf len | .startSendTo _ b _ _, .wsaSendTo _ buf len _ =>
    buf = b.data ∧ len = b.size.toUInt32
  | _, _ => False

namespace Ownership

/-! ### What a thread knows -/

/-- How far a call of the interface is with its operation. -/
inductive Stage where
  /-- It has not begun one. -/
  | none
  /-- It has the `IOData`. -/
  | held (i : DataId) (d : IOData)
  /-- The kernel accepted the operation. -/
  | submitted (i : DataId)
  /-- The `IOData` is deleted. -/
  | deleted (i : DataId)

/-- A call of the interface under way. -/
structure Frame where
  /-- Its number. -/
  id : CallId
  /-- The call. -/
  call : ApiCall
  /-- Its operation. -/
  stage : Stage
  /-- Its `StartThreadpoolIo`s. -/
  starts : ℕ
  /-- Its `CancelThreadpoolIo`s. -/
  cancels : ℕ

/-- A callback under way. -/
structure Job where
  /-- What runs. -/
  task : Task
  /-- The contents of the `IOData`, while it has it. -/
  held : Option IOData
  /-- The handler was offered to the user pool. -/
  posted : Bool
  /-- The handler was called. -/
  called : Bool
  /-- The closure was run. -/
  ran : Bool
  /-- The closure was deleted. -/
  freed : Bool
  /-- What was reported while it processed the completion. -/
  reports : Reports

/-- What a thread knows. -/
structure Local where
  /-- The call of the interface that it is in. -/
  frame : Option Frame
  /-- The callback that it runs. -/
  job : Option Job
  /-- The closure that it has put on the heap and not yet given away. -/
  func : Option FuncId

/-- The contents of the `IOData` in hand. -/
def Local.data? (l : Local) : Option IOData :=
  match l.frame with
  | some ⟨_, _, .held _ d, _, _⟩ => some d
  | some _ => none
  | none => l.job.bind (·.held)

/-- The `IOData` in hand is `i`, and `d` is what it holds. -/
def Local.Has (l : Local) (i : DataId) (d : IOData) : Prop :=
  (∃ f, l.frame = some f ∧ f.stage = .held i d) ∨
    l.frame = none ∧ ∃ j, l.job = some j ∧ j.task.data = some i ∧ j.held = some d

/-- The stage of the call is changed. -/
def Local.setStage (l : Local) (s : Stage) : Local :=
  { l with frame := l.frame.map fun f => { f with stage := s } }

/-- The callback is changed. -/
def Local.setJob (l : Local) (g : Job → Job) : Local := { l with job := l.job.map g }

/-- The `IOData` in hand is assigned to. -/
def Local.write (l : Local) (i : DataId) (d : IOData) : Local :=
  match l.frame with
  | some _ => l.setStage (.held i d)
  | none => l.setJob fun j => { j with held := some d }

/-- The `IOData` in hand is deleted. -/
def Local.delete (l : Local) (i : DataId) : Local :=
  match l.frame with
  | some _ => l.setStage (.deleted i)
  | none => l.setJob fun j => { j with held := none }

/-- A closure was offered to a pool. -/
def Local.submit (l : Local) (ok : Bool) : Local :=
  match l.frame with
  | some _ => { l with func := if ok then none else l.func }
  | none => { l.setJob fun j => { j with posted := true, held := if ok then none else j.held } with
      func := if ok then none else l.func }

/-- Outside the calls of the interface, a thread makes such a call only to process a completion: it has the `IOData`,
and has not called the handler. -/
def Local.Processes (l : Local) : Prop :=
  l.frame = none → ∀ j, l.job = some j → ∃ cb d, j.task = .io cb ∧ j.held = some d ∧ j.called = false

/-- It is told the reply. -/
def Local.report (l : Local) (o : Op) (r : Res o) : Local :=
  match l.frame with
  | some _ => l
  | none => l.setJob fun j => { j with reports := j.reports.hear o r }

/-- The closure is deleted: one that was not given away, or the one that runs. -/
def Local.deleteFunc (l : Local) : Local :=
  match l.func with
  | some _ => { l with func := none }
  | none => l.setJob fun j => { j with freed := true }

/-- The reply to an overlapped call says that the kernel accepted the operation. -/
def submits : Except OsError Unit → Bool
  | .ok _ => true
  | .error e => e.code = errorIoPending

/-- The call may return `r`: a `start_…` function returns `Success` when the kernel has accepted
its operation, and an error when it has not; then its `StartThreadpoolIo`s are cancelled, and its
`IOData` is deleted unless the run is one with early returns. -/
def Frame.CanReturn (m : Mode) (f : Frame) (r : ErrorCode) : Prop :=
  f.call.start?.isSome → (r = .success → ∃ i, f.stage = .submitted i) ∧
    (r ≠ .success → f.starts = f.cancels ∧ (∀ i, f.stage ≠ .submitted i) ∧
      (m.clean = true → ∀ i d, f.stage ≠ .held i d))

/-- The callback may return. -/
def Job.CanReturn (m : Mode) (j : Job) : Prop :=
  match j.task with
  | .io _ => m.honest = true → j.held = none
  | .work _ => j.held = none ∧ j.ran = true ∧ j.freed = true

/-- What a call needs. -/
def pre (m : Mode) (l : Local) : Op → Prop
  | .enter _ => l.frame = none
  | .leave n r => ∃ f, l.frame = some f ∧ f.id = n ∧ f.CanReturn m r
  | .newIOData d => ∃ f, l.frame = some f ∧ f.stage = .none ∧ f.call.start? = some d.request ∧ d.Blank
  | .readIOData i => ∃ d, l.Has i d
  | .writeIOData i d => (∃ f d₀, l.frame = some f ∧ f.stage = .held i d₀ ∧
      d.request = d₀.request ∧ d.Blank) ∨
    l.frame = none ∧ ∃ j cb d₀, l.job = some j ∧ j.task = .io cb ∧ cb.data = i ∧ j.held = some d₀ ∧
      j.called = false ∧ d.request = d₀.request ∧ d.acceptAddressBuffer = d₀.acceptAddressBuffer
  | .deleteIOData i => (∃ f d, l.frame = some f ∧ f.stage = .held i d) ∨
    l.frame = none ∧ ∃ j d, l.job = some j ∧ j.task.data = some i ∧ j.held = some d ∧
      (j.called = true ∨ (∃ cb, j.task = .io cb) ∧ (d.userHandler.func = none ∨ m.alive = false))
  | .invoke i f args => l.frame = none ∧ ∃ j d, l.job = some j ∧ j.task.data = some i ∧
      j.held = some d ∧ j.called = false ∧ d.userHandler.func = some f ∧ args = d.args ∧
        ∀ cb, j.task = .io cb → d.Settled cb.ioResult cb.nBytesTransferred j.reports
  | .newFunc _ => l.func = none
  | .invokeFunc f => l.frame = none ∧ ∃ j q, l.job = some j ∧ j.task = .work q ∧ q.func = f ∧
      j.ran = false
  | .deleteFunc f => l.func = some f ∨ l.func = none ∧ l.frame = none ∧ ∃ j q, l.job = some j ∧
      j.task = .work q ∧ q.func = f ∧ j.freed = false
  | .trySubmitThreadpoolCallback f c _ => l.func = some f ∧
    ((∃ fr, l.frame = some fr ∧ fr.call.posts = true ∧ c.ioData = none) ∨
      l.frame = none ∧ ∃ j cb d g, l.job = some j ∧ j.task = .io cb ∧ j.held = some d ∧
        j.posted = false ∧ j.called = false ∧ d.userHandler.func = some g ∧
          c = d.closure cb.data g ∧ d.Settled cb.ioResult cb.nBytesTransferred j.reports)
  | .callbackReturn => l.frame = none ∧ ∃ j, l.job = some j ∧ j.CanReturn m
  | .startThreadpoolIo _ | .cancelThreadpoolIo _ => l.frame.isSome
  | .overlapped req i _ => ∃ f d, l.frame = some f ∧ f.stage = .held i d ∧ f.call.Makes req
  | .makeCore _ | .destroyCore => False
  | .getLastError | .setsockopt _ _ | .getAcceptExSockaddrs _ => l.Processes
  | _ => True

/-- What holds of the reply. -/
def given (m : Mode) (l : Local) : (o : Op) → Res o → Prop
  | .readIOData _, d => l.data? = some d
  | .lockIoCore, alive => m.alive = true → alive = true
  | .getLastError, e => m.honest = true → e ≠ 0
  | .getAcceptExSockaddrs buffer, r => r = none ∨ r = buffer
  | .readSocket _, s => m.clean = true → (l.frame.any (·.call.addresses)) = true → s.addrFamily.IsInet
  | .bind _ _, r => m.clean = true → (l.frame.any (·.call.addresses)) = true → r = .ok ()
  | _, _ => True

/-- What is known after the reply. -/
def post (l : Local) : (o : Op) → Res o → Local
  | .enter c, n => { l with frame := some ⟨n, c, .none, 0, 0⟩ }
  | .leave _ _, _ => { l with frame := none }
  | .newIOData d, i => l.setStage (.held i d)
  | .writeIOData i d, _ => l.write i d
  | .deleteIOData i, _ => l.delete i
  | .invoke _ _ _, _ => l.setJob fun j => { j with called := true, held := j.held.map World.moveAccept }
  | .newFunc _, f => { l with func := some f }
  | .invokeFunc _, _ => l.setJob fun j => { j with ran := true }
  | .deleteFunc _, _ => l.deleteFunc
  | .trySubmitThreadpoolCallback _ _ _, ok => l.submit ok
  | .callbackReturn, _ => { l with job := none }
  | .startThreadpoolIo _, _ => { l with frame := l.frame.map fun f => { f with starts := f.starts + 1 } }
  | .cancelThreadpoolIo _, _ =>
    { l with frame := l.frame.map fun f => { f with cancels := f.cancels + 1 } }
  | .overlapped _ i _, r => if submits r then l.setStage (.submitted i) else l
  | .getLastError, e => l.report .getLastError e
  | .setsockopt s u, r => l.report (.setsockopt s u) r
  | .getAcceptExSockaddrs b, r => l.report (.getAcceptExSockaddrs b) r
  | _, _ => l

/-- Who may use an `IOData`, and how. -/
def logic (m : Mode) : Logic Op Res Local := ⟨pre m, given m, post⟩

variable {m : Mode} {l : Local}

/-! ### Calls that concern no operation -/

/-- The thread is in a call of the interface, or it runs no callback. -/
def Local.Apart (l : Local) : Prop := l.frame = none → l.job = none

theorem Local.Apart.of_frame {f : Frame} {job : Option Job} {func : Option FuncId} :
    Local.Apart ⟨some f, job, func⟩ := nofun

theorem Local.Apart.processes (hl : l.Apart) : l.Processes := fun hf j hj => by
  rw [hl hf] at hj
  cases hj

theorem Local.Apart.report (hl : l.Apart) (o : Op) (r : Res o) : l.report o r = l := by
  obtain ⟨frame, job, func⟩ := l
  cases frame with
  | some f => rfl
  | none =>
    obtain rfl : job = none := hl rfl
    rfl

theorem aside {o : Op} (ho : o.Aside) (hl : l.Apart) :
    (logic m).pre l o ∧ ∀ r, (logic m).given l o r → (logic m).post l o r = l := by
  cases o with
  | getLastError | setsockopt _ _ | getAcceptExSockaddrs _ => exact ⟨hl.processes, fun r _ => hl.report _ r⟩
  | _ => first | exact ⟨trivial, fun _ _ => rfl⟩ | cases ho

theorem keeps_aside {α : Type} {p : Prog α} (hp : p.All Op.Aside) (hl : l.Apart) : (logic m).Keeps p l :=
  .of_all hp fun _ ho => aside ho hl

theorem keeps_still {α : Type} {p : Prog α} (hp : p.All Op.Still) (hl : l.Apart) : (logic m).Keeps p l :=
  keeps_aside (hp.mono fun _ ho => ho.1.aside) hl

theorem keeps_socket (x : SockId) (af : AddressFamily) (ty : SocketType) (pr : Protocol) (hl : l.Apart) :
    (logic m).Keeps (WinSocket.socket x af ty pr) l :=
  keeps_aside ((WinSocket.opens_socket x af ty pr).mono fun _ ho => ho.quiet.aside) hl

theorem keeps_waitAndClose (io : TpIo) : (logic m).Keeps (WinSocket.waitAndClose io) l :=
  ⟨trivial, fun _ _ => ⟨trivial, fun _ _ => ⟨trivial, fun _ _ => rfl⟩⟩⟩

theorem keeps_destroyAll (ds : List Dead) : (logic m).Keeps (WinSocket.destroyAll ds) l := by
  induction ds with
  | nil => exact (logic m).keeps_pure () l
  | cons d ds ih =>
    have hend : (logic m).Keeps (op (.destroyed d.1)) l := ⟨trivial, fun _ _ => rfl⟩
    have hdestroy : (logic m).Keeps (WinSocket.destroy d) l := by
      unfold WinSocket.destroy
      split
      · exact (keeps_waitAndClose _).bind fun _ => hend
      · exact hend
    exact hdestroy.bind fun _ => ih

theorem keeps_dropRefs (xs : List SockId) : (logic m).Keeps (WinSocket.dropRefs xs) l := by
  induction xs with
  | nil => exact (logic m).keeps_pure () l
  | cons x xs ih => exact ⟨trivial, fun ds _ => (keeps_destroyAll ds).bind fun _ => ih⟩

theorem keeps_close (x : SockId) (hl : l.Apart) : (logic m).Keeps (WinSocket.close x) l := by
  have hend : (logic m).Keeps (WinSocket.closeNative x) l :=
    keeps_still (WinSocket.still_closeNative x) hl
  rw [WinSocket.close, Prog.op_bind]
  refine ⟨trivial, fun io _ => ?_⟩
  show (logic m).Keeps _ l
  dsimp only
  split
  · exact (keeps_waitAndClose io).bind fun _ => ⟨trivial, fun _ _ => hend⟩
  · exact hend

theorem keeps_accept (x a : SockId) (hl : l.Apart) : (logic m).Keeps (WinSocket.accept x a) l := by
  refine ⟨trivial, fun s _ => ⟨trivial, fun r _ => ?_⟩⟩
  rcases r with e | s
  · exact (logic m).keeps_pure _ l
  refine ⟨trivial, fun r _ => ?_⟩
  rcases r with e | info
  · exact ⟨trivial, fun _ _ => (logic m).keeps_pure _ l⟩
  refine ⟨trivial, fun _ _ => ⟨trivial, fun alive _ => ?_⟩⟩
  cases alive with
  | false => exact (keeps_close a hl).bind fun _ => (logic m).keeps_pure _ l
  | true =>
    refine ⟨trivial, fun r _ => ?_⟩
    rcases r with e | _
    · exact (keeps_close a hl).bind fun _ => (logic m).keeps_pure _ l
    · exact ⟨trivial, fun _ _ => (logic m).keeps_pure _ l⟩

/-! ### Calls of the interface -/

/-- A call has ended, and may return `r`. -/
def Ends (m : Mode) (n : CallId) (c : ApiCall) (job : Option Job) (r : ErrorCode) (l : Local) : Prop :=
  ∃ f, l = ⟨some f, job, none⟩ ∧ f.id = n ∧ f.call = c ∧ f.CanReturn m r

variable {n : CallId} {c : ApiCall} {job : Option Job} {i : DataId} {d : IOData}

/-- An error before anything was announced, with nothing in hand. -/
theorem ends_early {r : ErrorCode} {stage : Stage} (hr : r ≠ .success)
    (hs : ∀ i, stage ≠ .submitted i) (hc : m.clean = true → ∀ i d, stage ≠ .held i d) :
    Ends m n c job r ⟨some ⟨n, c, stage, 0, 0⟩, job, none⟩ :=
  ⟨_, rfl, rfl, rfl, fun _ => ⟨fun h => absurd h hr, fun _ => ⟨rfl, hs, hc⟩⟩⟩

theorem has_held {stage : Stage} {s k : ℕ} {func : Option FuncId} (h : stage = .held i d) :
    ∃ d, Local.Has ⟨some ⟨n, c, stage, s, k⟩, job, func⟩ i d :=
  ⟨d, .inl ⟨_, rfl, h⟩⟩

/-- The overlapped call is made ready, and is the one that the function makes. -/
def Readies (m : Mode) (c : ApiCall) (request : Prog IoRequest) (l : Local) : Prop :=
  (logic m).wp request (fun req l' => c.Makes req ∧ l' = l) l

theorem wp_startIo {x : SockId} {request : Prog IoRequest}
    (hr : Readies m c request ⟨some ⟨n, c, .held i d, 1, 0⟩, job, none⟩) :
    (logic m).wp (WinSocket.startIo x i request) (Ends m n c job)
      ⟨some ⟨n, c, .held i d, 0, 0⟩, job, none⟩ := by
  refine Logic.op_bind trivial fun io _ => Logic.op_bind rfl fun _ _ =>
    Logic.wp_bind.mpr (Logic.wp_mono hr ?_)
  rintro req _ ⟨hreq, rfl⟩
  refine Logic.op_bind ⟨_, d, rfl, rfl, hreq⟩ fun r _ => ?_
  have hok : Ends m n c job .success ⟨some ⟨n, c, .submitted i, 1, 0⟩, job, none⟩ :=
    ⟨_, rfl, rfl, rfl, fun _ => ⟨fun _ => ⟨i, rfl⟩, fun h => absurd rfl h⟩⟩
  rcases r with e | _
  · by_cases he : e.code = errorIoPending
    · have hs : submits (.error e) = true := decide_eq_true he
      show (logic m).wp (if e.code ≠ errorIoPending then _ else pure ErrorCode.success) _
        (if submits (.error e) then _ else _)
      rw [if_neg (not_not_intro he), if_pos hs]
      exact hok
    · have hs : ¬ submits (.error e) = true := fun h => he (of_decide_eq_true h)
      show (logic m).wp (if e.code ≠ errorIoPending then _ else pure ErrorCode.success) _
        (if submits (.error e) then _ else _)
      rw [if_pos he, if_neg hs]
      refine Logic.wp_bind.mpr (Logic.op_bind (.inl ⟨_, d, rfl, rfl⟩) fun ds _ =>
        Logic.wp_mono (keeps_destroyAll ds) ?_)
      rintro _ _ rfl
      refine Logic.op_bind trivial fun _ _ => Logic.op_bind rfl fun _ _ => ⟨_, rfl, rfl, rfl,
        fun _ => ⟨fun h => absurd h e.toErrorCode_ne, fun _ => ⟨rfl, nofun, fun _ => nofun⟩⟩⟩
  · exact hok

/-- A `start_…` function that allocates, and announces the operation at once. -/
theorem wp_newIo {x : SockId} {request : DataId → Prog IoRequest} (hq : c.start? = some d.request)
    (hb : d.Blank)
    (hr : ∀ i, Readies m c (request i) ⟨some ⟨n, c, .held i d, 1, 0⟩, job, none⟩) :
    (logic m).wp (do
      let i ← op (.newIOData d)
      WinSocket.startIo x i (request i)) (Ends m n c job) ⟨some ⟨n, c, .none, 0, 0⟩, job, none⟩ :=
  ⟨⟨_, rfl, rfl, hq, hb⟩, fun i _ => wp_startIo (hr i)⟩

theorem wp_startAccept {x a : SockId} {f : Option ℕ} :
    (logic m).wp (WinSocket.startAccept x a f) (Ends m n (.startAccept x a f) job)
      ⟨some ⟨n, .startAccept x a f, .none, 0, 0⟩, job, none⟩ := by
  have hio : (logic m).wp (WinSocket.startAcceptIo x a f) (Ends m n (.startAccept x a f) job)
      ⟨some ⟨n, .startAccept x a f, .none, 0, 0⟩, job, none⟩ := by
    refine wp_newIo rfl (fun _ => ⟨rfl, rfl⟩) fun i => ?_
    exact ⟨has_held rfl, fun _ _ => ⟨trivial, fun _ _ => ⟨trivial, fun _ _ => ⟨trivial, rfl⟩⟩⟩⟩
  refine Logic.op_bind trivial fun s _ => ?_
  split
  · refine Logic.op_bind trivial fun this _ =>
      (keeps_socket _ _ _ _ .of_frame).seq fun e => ?_
    split
    · exact ends_early ‹_› nofun fun _ => nofun
    · exact hio
  · exact hio

theorem wp_bindForConnect {x : SockId} {any : Endpoint}
    (hl : (l.frame.any (·.call.addresses)) = true) :
    (logic m).wp (WinSocket.bindForConnect x any)
      (fun e l' => l' = l ∧ (m.clean = true → e = .success)) l := by
  rw [WinSocket.bindForConnect, Prog.op_bind]
  refine ⟨trivial, fun s _ => ?_⟩
  dsimp only
  split
  · exact ⟨rfl, fun _ => rfl⟩
  rw [WinSocket.bind, Prog.op_bind]
  refine ⟨trivial, fun s hs => ?_⟩
  dsimp only
  split
  · rename_i hne
    exact ⟨rfl, fun hm => absurd (endpointToSockaddr_eq_success_iff.mpr (hs hm hl)) hne⟩
  refine ⟨trivial, fun s _ => ⟨trivial, fun r hr => ?_⟩⟩
  rcases r with e | _
  · exact ⟨rfl, fun hm => by cases hr hm hl⟩
  · exact ⟨trivial, fun _ _ => ⟨rfl, fun _ => rfl⟩⟩

theorem wp_startConnect {x : SockId} {dst : Endpoint} {f : Option ℕ} :
    (logic m).wp (WinSocket.startConnect x dst f) (Ends m n (.startConnect x dst f) job)
      ⟨some ⟨n, .startConnect x dst f, .none, 0, 0⟩, job, none⟩ := by
  refine Logic.op_bind ⟨_, rfl, rfl, rfl, nofun⟩ fun i _ => Logic.op_bind trivial fun s hs =>
    Logic.op_bind (.inl ⟨_, _, rfl, rfl, rfl, nofun⟩) fun _ _ => ?_
  dsimp only
  split
  · rename_i hne
    exact ends_early hne nofun fun hm =>
      absurd (endpointToSockaddr_eq_success_iff.mpr (hs hm rfl)) hne
  have hio : ∀ {d}, (logic m).wp (WinSocket.startIo x i do
      let d ← op (.readIOData i)
      return .connectEx (← op (.readSocket x)).nativeSocket d.peerWinAddr)
      (Ends m n (.startConnect x dst f) job)
      ⟨some ⟨n, .startConnect x dst f, .held i d, 0, 0⟩, job, none⟩ :=
    wp_startIo ⟨has_held rfl, fun _ _ => ⟨trivial, fun _ _ => ⟨trivial, rfl⟩⟩⟩
  have hend : ∀ {d} {e : ErrorCode}, (m.clean = true → e = .success) →
      (logic m).wp (if e ≠ .success then pure e else WinSocket.startIo x i do
        let d ← op (.readIOData i)
        return .connectEx (← op (.readSocket x)).nativeSocket d.peerWinAddr)
        (Ends m n (.startConnect x dst f) job)
        ⟨some ⟨n, .startConnect x dst f, .held i d, 0, 0⟩, job, none⟩ := by
    intro d e he
    split
    · rename_i hne
      exact ends_early hne nofun fun hm => absurd (he hm) hne
    · exact hio
  split
  · refine Logic.wp_bind.mpr (Logic.wp_mono (wp_bindForConnect rfl) ?_)
    rintro e _ ⟨rfl, he⟩
    exact hend he
  split
  · refine Logic.wp_bind.mpr (Logic.wp_mono (wp_bindForConnect rfl) ?_)
    rintro e _ ⟨rfl, he⟩
    exact hend he
  · exact hend fun _ => rfl

theorem wp_startSendTo {x : SockId} {b : Span} {dst : Endpoint} {f : Option ℕ} :
    (logic m).wp (WinSocket.startSendTo x b dst f) (Ends m n (.startSendTo x b dst f) job)
      ⟨some ⟨n, .startSendTo x b dst f, .none, 0, 0⟩, job, none⟩ := by
  refine Logic.op_bind ⟨_, rfl, rfl, rfl, nofun⟩ fun i _ => Logic.op_bind trivial fun s hs =>
    Logic.op_bind (.inl ⟨_, _, rfl, rfl, rfl, nofun⟩) fun _ _ => ?_
  dsimp only
  split
  · rename_i hne
    exact ends_early hne nofun fun hm =>
      absurd (endpointToSockaddr_eq_success_iff.mpr (hs hm rfl)) hne
  · exact wp_startIo ⟨has_held rfl, fun _ _ => ⟨trivial, fun _ _ => ⟨⟨rfl, rfl⟩, rfl⟩⟩⟩

theorem wp_postWork {k : PoolKind} {w : ℕ} (hc : c.posts = true) :
    (logic m).Keeps (WinIOCore.postWork k (.user w)) ⟨some ⟨n, c, .none, 0, 0⟩, job, none⟩ := by
  refine ⟨rfl, fun f _ => ⟨⟨rfl, .inl ⟨_, rfl, hc, rfl⟩⟩, fun ok _ => ?_⟩⟩
  cases ok with
  | true => exact rfl
  | false => exact ⟨.inl rfl, fun _ _ => ⟨Local.Apart.of_frame.processes, fun _ _ => rfl⟩⟩

/-- **The function of a call ends with a result that it may return.** -/
theorem wp_body (c : ApiCall) : (logic m).wp c.body (Ends m n c job)
    ⟨some ⟨n, c, .none, 0, 0⟩, job, none⟩ := by
  have hkeep : c.start? = none →
      (logic m).Keeps c.body ⟨some ⟨n, c, .none, 0, 0⟩, job, none⟩ →
        (logic m).wp c.body (Ends m n c job) ⟨some ⟨n, c, .none, 0, 0⟩, job, none⟩ := by
    intro hs hk
    refine Logic.wp_mono hk ?_
    rintro r _ rfl
    exact ⟨_, rfl, rfl, rfl, fun h => by simp [hs] at h⟩
  have hread : ∀ {x : SockId} {k : WinSocket → IoRequest} {i d}, (∀ s, c.Makes (k s)) →
      Readies m c (do return k (← op (.readSocket x)))
        ⟨some ⟨n, c, .held i d, 1, 0⟩, job, none⟩ := fun h => ⟨trivial, fun s _ => ⟨h s, rfl⟩⟩
  cases c with
  | create => exact hkeep rfl ((logic m).keeps_pure _ _)
  | socket x af ty pr => exact hkeep rfl (keeps_socket x af ty pr .of_frame)
  | bind x ep => exact hkeep rfl (keeps_still (WinSocket.still_bind x ep) .of_frame)
  | close x => exact hkeep rfl (keeps_close x .of_frame)
  | accept x a => exact hkeep rfl (keeps_accept x a .of_frame)
  | connect x dst => exact hkeep rfl (keeps_still (WinSocket.still_connect x dst) .of_frame)
  | sendTo x b dst =>
    exact hkeep rfl (keeps_still ((WinSocket.still_sendTo x b dst).bind fun _ => trivial) .of_frame)
  | startAccept x a f => exact wp_startAccept
  | startConnect x dst f => exact wp_startConnect
  | startRecv x b f => exact wp_newIo rfl nofun fun _ => hread fun _ => ⟨rfl, rfl⟩
  | startRecvFrom x b f => exact wp_newIo rfl nofun fun _ => hread fun _ => ⟨rfl, rfl⟩
  | startSend x b f => exact wp_newIo rfl nofun fun _ => hread fun _ => ⟨rfl, rfl⟩
  | startSendTo x b dst f => exact wp_startSendTo
  | startDisconnect x r f => exact wp_newIo rfl nofun fun _ => hread fun _ => trivial
  | postIoWork w => exact hkeep rfl (wp_postWork rfl)
  | postUserWork w => exact hkeep rfl (wp_postWork rfl)
  | initializeCore => exact hkeep rfl (keeps_aside WinIOCore.aside_initializeCore .of_frame)
  | releaseCore => exact hkeep rfl (keeps_aside WinIOCore.aside_releaseCore .of_frame)
  | copyRef x => exact hkeep rfl ((logic m).keeps_pure _ _)
  | dropRef x => exact hkeep rfl ((logic m).keeps_pure _ _)

theorem keeps_interfaceCall (c : ApiCall) :
    (logic m).Keeps (interfaceCall c c.body) ⟨none, job, none⟩ := by
  refine Logic.op_bind rfl fun n _ => Logic.wp_bind.mpr (Logic.wp_mono (wp_body c) ?_)
  rintro r _ ⟨f, rfl, hn, -, hr⟩
  exact ⟨⟨f, rfl, hn, hr⟩, fun _ _ => keeps_dropRefs _⟩

/-- **What user code does leaves it with what it had.** -/
theorem keeps_run (c : ApiCall) : (logic m).Keeps c.run ⟨none, job, none⟩ := by
  cases c with
  | create => exact ⟨trivial, fun _ _ => rfl⟩
  | copyRef x => exact ⟨trivial, fun _ _ => rfl⟩
  | dropRef x => exact keeps_dropRefs _
  | _ => exact keeps_interfaceCall _

theorem keeps_runCalls (cs : List ApiCall) : (logic m).Keeps (runCalls cs) ⟨none, job, none⟩ := by
  induction cs with
  | nil => exact (logic m).keeps_pure () _
  | cons c cs ih => exact (keeps_run c).bind fun _ => ih

/-! ### Callbacks -/

/-- A thread runs `socket_io_routine`. -/
@[reducible] def atIo (cb : IoCallback) (held : Option IOData) (ρ : Reports) (posted called : Bool) : Local :=
  ⟨none, some ⟨.io cb, held, posted, called, false, false, ρ⟩, none⟩

variable {cb : IoCallback} {ρ : Reports} {posted : Bool} {f : ℕ} {es : List ErrorCode}

theorem wp_callHandler {j : Job} (hi : j.task.data = some i) (hd : j.held = some d)
    (hc : j.called = false) (hf : d.userHandler.func = some f)
    (hs : ∀ cb, j.task = .io cb → d.Settled cb.ioResult cb.nBytesTransferred j.reports) :
    (logic m).wp (WinSocket.callHandler i f d.args) (fun _ l' => l' =
      ⟨none, some { j with called := true, held := some (World.moveAccept d) }, none⟩)
      ⟨none, some j, none⟩ := by
  refine Logic.op_bind ⟨rfl, j, d, rfl, hi, hd, hc, hf, rfl, hs⟩ fun cs _ => ?_
  refine (keeps_runCalls cs).seq fun _ => Logic.wp_mono (keeps_dropRefs _) ?_
  rintro _ _ rfl
  simp only [hd, Option.map_some]

/-- The closure of an operation calls its handler. -/
theorem wp_callUserHandler {j : Job} (hi : j.task.data = some i) (hd : j.held = some d)
    (hc : j.called = false) (hf : d.userHandler.func = some f)
    (hs : ∀ cb, j.task = .io cb → d.Settled cb.ioResult cb.nBytesTransferred j.reports) :
    (logic m).wp (WinSocket.callUserHandler (d.closure i f)) (fun _ l' => l' =
      ⟨none, some { j with called := true, held := some (World.moveAccept d) }, none⟩)
      ⟨none, some j, none⟩ := by
  have hread : (logic m).pre ⟨none, some j, none⟩ (.readIOData i) := ⟨d, .inr ⟨rfl, j, rfl, hi, hd⟩⟩
  have hsame : ∀ d', (logic m).given ⟨none, some j, none⟩ (.readIOData i) d' → d = d' := by
    intro d' h
    have h' : j.held = some d' := h
    exact Option.some.inj (hd.symm.trans h')
  have hcall := wp_callHandler (m := m) hi hd hc hf hs
  unfold IOData.closure
  unfold IOData.args at hcall
  cases hk : d.userHandler.kind <;> simp only [hk] at hcall ⊢ <;>
    exact Logic.op_bind hread fun d' h => by rw [← hsame d' h]; exact hcall

/-- `delete io_data`, at the end of a callback. -/
theorem wp_delete {j : Job} (hi : j.task.data = some i) (hd : j.held = some d)
    (hc : j.called = true ∨ (∃ cb, j.task = .io cb) ∧ (d.userHandler.func = none ∨ m.alive = false)) :
    (logic m).wp (WinSocket.deleteIOData i) (fun _ l' => l' = ⟨none, some { j with held := none }, none⟩)
      ⟨none, some j, none⟩ :=
  Logic.op_bind (.inr ⟨rfl, j, d, rfl, hi, hd, hc⟩) fun ds _ => keeps_destroyAll ds

/-- **A closure calls its handler and deletes its `IOData`.** -/
theorem wp_workCallback {q : Work} (hq : q.closure = d.closure i f) (hf : d.userHandler.func = some f) :
    (logic m).wp (workCallback q) (fun _ _ => True)
      ⟨none, some ⟨.work q, some d, true, false, false, false, .none⟩, none⟩ := by
  have hi : Task.data (.work q) = some i := by rw [Task.data, hq, IOData.closure_ioData]
  refine Logic.op_bind ⟨rfl, _, q, rfl, rfl, rfl, rfl⟩ fun _ _ => Logic.wp_bind.mpr ?_
  rw [WinSocket.runClosure, hq, IOData.closure_ioData]
  refine Logic.wp_bind.mpr (Logic.wp_mono (wp_callUserHandler hi rfl rfl hf nofun) ?_)
  rintro _ _ rfl
  refine Logic.wp_mono (wp_delete hi rfl (.inl rfl)) ?_
  rintro _ _ rfl
  exact Logic.op_bind (.inr ⟨rfl, rfl, _, q, rfl, rfl, rfl, rfl⟩) fun _ _ =>
    ⟨⟨rfl, _, rfl, rfl, rfl, rfl⟩, fun _ _ => trivial⟩

/-- **So does the user's own work**, which has none. -/
theorem wp_workCallback_user {q : Work} {n : ℕ} (hq : q.closure = .user n) :
    (logic m).wp (workCallback q) (fun _ _ => True)
      ⟨none, some ⟨.work q, none, true, false, false, false, .none⟩, none⟩ := by
  refine Logic.op_bind ⟨rfl, _, q, rfl, rfl, rfl, rfl⟩ fun _ _ => Logic.wp_bind.mpr ?_
  rw [WinSocket.runClosure, hq]
  refine Logic.wp_bind.mpr (Logic.op_bind trivial fun cs _ => Logic.wp_mono (keeps_runCalls cs) ?_)
  rintro _ _ rfl
  exact Logic.op_bind (.inr ⟨rfl, rfl, _, q, rfl, rfl, rfl, rfl⟩) fun _ _ =>
    ⟨⟨rfl, _, rfl, rfl, rfl, rfl⟩, fun _ _ => trivial⟩

theorem pre_read {called : Bool} :
    (logic m).pre (atIo cb (some d) ρ posted called) (.readIOData cb.data) :=
  ⟨d, .inr ⟨rfl, _, rfl, rfl, rfl⟩⟩

theorem pre_write {d' : IOData} (hr : d'.request = d.request)
    (ha : d'.acceptAddressBuffer = d.acceptAddressBuffer) :
    (logic m).pre (atIo cb (some d) ρ posted false) (.writeIOData cb.data d') :=
  .inr ⟨rfl, _, cb, d, rfl, rfl, rfl, rfl, rfl, hr, ha⟩

theorem processes_atIo : (atIo cb (some d) ρ posted false).Processes := by
  rintro - j ⟨⟩
  exact ⟨cb, d, rfl, rfl, rfl⟩

theorem wp_noteError (e : ErrorCode) : (logic m).wp (WinSocket.noteError cb.data e)
    (fun _ l' => l' = atIo cb (some (d.note e)) ρ posted false) (atIo cb (some d) ρ posted false) := by
  unfold WinSocket.noteError
  by_cases he : e = .success
  · rw [if_neg (not_not_intro he)]
    have hn : d.note e = d := if_neg fun h => h.1 he
    rw [hn]
    rfl
  rw [if_pos he]
  refine Logic.op_bind pre_read fun d' h => ?_
  obtain rfl : d = d' := Option.some.inj h
  by_cases hd : d.errorCode = .success
  · rw [if_pos hd]
    have hn : d.note e = { d with errorCode := e } := if_pos ⟨he, hd⟩
    rw [hn]
    exact ⟨pre_write rfl rfl, fun _ _ => rfl⟩
  · rw [if_neg hd]
    have hn : d.note e = d := if_neg fun h => hd h.2
    rw [hn]
    rfl

/-- How `socket_io_routine` ends: the handler was handed over, or it was called, or it is not to be
called; only in the last two cases does the thread still have the `IOData`. -/
def Visited (m : Mode) (cb : IoCallback) (handedOver : Bool) (l : Local) : Prop :=
  (handedOver = true ∧ ∃ held ρ, l = atIo cb held ρ true false ∧ (m.honest = true → held = none)) ∨
    handedOver = false ∧ ∃ d ρ posted called, l = atIo cb (some d) ρ posted called ∧
      (called = true ∨ d.userHandler.func = none ∨ m.alive = false)

theorem wp_deliver (hs : d.Settled cb.ioResult cb.nBytesTransferred ρ) (hp : ρ.post = .success)
    (hf : d.userHandler.func = some f) :
    (logic m).wp (WinSocket.deliver cb.data (d.closure cb.data f)) (Visited m cb)
      (atIo cb (some d) ρ false false) := by
  refine Logic.op_bind trivial fun alive ha => ?_
  cases alive with
  | false =>
    refine .inr ⟨rfl, d, ρ, false, false, rfl, .inr (.inr ?_)⟩
    cases hm : m.alive with
    | false => rfl
    | true => exact nomatch ha hm
  | true =>
    refine Logic.wp_bind.mpr (Logic.op_bind rfl fun g _ => Logic.op_bind
      ⟨rfl, .inr ⟨rfl, _, cb, d, f, rfl, rfl, rfl, rfl, rfl, hf, rfl, hs⟩⟩ fun ok _ => ?_)
    cases ok with
    | true => exact .inl ⟨rfl, none, ρ, rfl, fun _ => rfl⟩
    | false =>
      refine Logic.op_bind (.inl rfl) fun _ _ => Logic.op_bind processes_atIo fun e he => ?_
      show (logic m).wp (if (⟨e⟩ : ErrorCode) = .success then _ else _) _
        (atIo cb (some d) { ρ with post := ⟨e⟩ } true false)
      split
      · rename_i h
        exact .inl ⟨rfl, some d, _, rfl, fun hm => absurd (congrArg ErrorCode.code h) (he hm)⟩
      · refine Logic.wp_bind.mpr (Logic.wp_mono (wp_noteError ⟨e⟩) ?_)
        rintro _ _ rfl
        have hclosure : (d.note ⟨e⟩).closure cb.data f = d.closure cb.data f := by
          simp [IOData.closure]
        have hcall := wp_callUserHandler (m := m) (i := cb.data) (f := f) (d := d.note ⟨e⟩)
          (j := ⟨.io cb, some (d.note ⟨e⟩), true, false, false, false, { ρ with post := ⟨e⟩ }⟩) rfl rfl rfl
          (by rw [IOData.note_userHandler, hf])
          (fun cb' h => by cases h; exact hs.note hp ⟨e⟩)
        rw [hclosure] at hcall
        refine Logic.wp_bind.mpr (Logic.wp_mono hcall ?_)
        rintro _ _ rfl
        exact .inr ⟨rfl, _, _, true, true, rfl, .inl rfl⟩

/-- The context of an accepted socket is updated, and what `setsockopt` reports is returned. -/
theorem wp_updateAcceptSocketContext (x y : SockId) :
    (logic m).wp (WinSocket.updateAcceptSocketContext x y)
      (fun e l' => l' = atIo cb (some d) { ρ with update := e } false false) (atIo cb (some d) ρ false false) := by
  refine Logic.op_bind trivial fun _ _ => Logic.op_bind trivial fun _ _ => Logic.op_bind processes_atIo fun r _ => ?_
  cases r <;> rfl

theorem wp_updateConnectSocketContext (x : SockId) :
    (logic m).wp (WinSocket.updateConnectSocketContext x)
      (fun e l' => l' = atIo cb (some d) { ρ with update := e } false false) (atIo cb (some d) ρ false false) := by
  refine Logic.op_bind trivial fun _ _ => Logic.op_bind processes_atIo fun r _ => ?_
  cases r <;> rfl

/-- The addresses of an `AcceptEx` are retrieved, or an error says that they were not. -/
theorem wp_getAcceptexSockaddrs (ht : d.Taken cb.nBytesTransferred es) (hk : d.userHandler.kind = .accept)
    (hb : d.Blank) :
    (logic m).wp (WinSocket.getAcceptexSockaddrs cb.data) (fun e l' => ∃ d' parsed,
      l' = atIo cb (some d') { ρ with parsed := parsed } false false ∧ d'.request = d.request ∧
        d'.Taken cb.nBytesTransferred es ∧ e = (if parsed then .success else .systemError) ∧
        d'.Retrieved { ρ with parsed := parsed }) (atIo cb (some d) ρ false false) := by
  refine Logic.op_bind pre_read fun d' h => ?_
  obtain rfl : d = d' := Option.some.inj h
  refine Logic.op_bind processes_atIo fun r hr => ?_
  rcases r with _ | ⟨l, p⟩
  · exact ⟨d, false, rfl, rfl, ht, rfl, hb hk⟩
  · have hbuf : d.acceptAddressBuffer = some (l, p) := (hr.resolve_left nofun).symm
    exact Logic.op_bind (pre_write rfl rfl) fun _ _ => ⟨_, true, rfl, rfl, ⟨ht.bytes, ht.error⟩, rfl, hbuf⟩

theorem wp_deliverAccept (ht : d.Taken cb.nBytesTransferred [.ofULong cb.ioResult, ρ.accepted d.acceptSocket])
    (hp : ρ.post = .success) (hb : d.Blank) (hk : d.userHandler.kind = .accept) :
    (logic m).wp (WinSocket.deliverAccept cb.data d.userHandler.func) (Visited m cb)
      (atIo cb (some d) ρ false false) := by
  cases hf : d.userHandler.func with
  | none => exact .inr ⟨rfl, d, ρ, false, false, rfl, .inr (.inl hf)⟩
  | some f =>
    refine Logic.wp_bind.mpr (Logic.wp_mono (wp_getAcceptexSockaddrs ht hk hb) ?_)
    rintro e _ ⟨d', parsed, rfl, hr, ht', rfl, haddrs⟩
    have hh : d'.userHandler = d.userHandler := congrArg Request.handler hr
    have hsock : d'.acceptSocket = d.acceptSocket := congrArg Request.acceptSocket hr
    refine Logic.wp_bind.mpr (Logic.wp_mono (wp_noteError _) ?_)
    rintro _ _ rfl
    refine Logic.op_bind pre_read fun d₃ h => ?_
    obtain rfl : d'.note _ = d₃ := Option.some.inj h
    refine Logic.wp_bind.mpr (Logic.wp_mono (wp_noteError _) ?_)
    rintro _ _ rfl
    refine Logic.wp_bind.mpr (Logic.wp_mono (wp_noteError _) ?_)
    rintro _ _ rfl
    have htaken := ((ht'.note (if parsed then .success else .systemError)).note
      (conversionError d'.localWinAddr)).note (conversionError d'.peerWinAddr)
    have hset := IOData.Taken.settled (r := cb.ioResult) (ρ := { ρ with parsed := parsed })
      (by simpa [IOData.errors, hh, hk, hsock, Reports.retrieved, Reports.accepted] using htaken) hp
      fun _ => ((haddrs.note _).note _).note _
    have hdel := wp_deliver (m := m) (f := f) hset hp (by simp [hh, hf])
    simpa only [IOData.closure, IOData.note_userHandler, hh, hk, IOData.note_localWinAddr,
      IOData.note_peerWinAddr, endpointOf, conversionError] using hdel

theorem wp_visitAccept {x : SockId} (ht : d.Taken cb.nBytesTransferred [.ofULong cb.ioResult]) (hb : d.Blank)
    (hk : d.userHandler.kind = .accept) :
    (logic m).wp (WinSocket.visitAccept cb.data x d.userHandler.func) (Visited m cb)
      (atIo cb (some d) .none false false) := by
  have hend : ∀ (e : ErrorCode) {ρ : Reports}, e = ρ.accepted d.acceptSocket → ρ.post = .success →
      (logic m).wp (WinSocket.deliverAccept cb.data d.userHandler.func) (Visited m cb)
        (atIo cb (some (d.note e)) ρ false false) := by
    intro e ρ he hp
    have hdel := wp_deliverAccept (m := m) (d := d.note e) (ρ := ρ) (by simpa [he] using ht.note e) hp (hb.note e)
      (by simpa using hk)
    rwa [IOData.note_userHandler] at hdel
  refine Logic.op_bind pre_read fun d' h => ?_
  obtain rfl : d = d' := Option.some.inj h
  dsimp only
  split
  · rename_i a ha
    refine Logic.wp_bind.mpr (Logic.wp_mono (wp_updateAcceptSocketContext _ a) ?_)
    rintro e _ rfl
    refine Logic.wp_bind.mpr (Logic.wp_mono (wp_noteError e) ?_)
    rintro _ _ rfl
    exact hend e (by rw [ha]; rfl) rfl
  · rename_i ha
    refine Logic.wp_bind.mpr (Logic.wp_mono (wp_noteError _) ?_)
    rintro _ _ rfl
    exact hend _ (by rw [ha]; rfl) rfl

theorem wp_visit {x : SockId} (ht : d.Taken cb.nBytesTransferred [.ofULong cb.ioResult]) (hb : d.Blank) :
    (logic m).wp (WinSocket.visit cb.data x d.userHandler) (Visited m cb)
      (atIo cb (some d) .none false false) := by
  have hnone : ∀ (d' : IOData) ρ, d'.userHandler.func = none →
      Visited m cb false (atIo cb (some d') ρ false false) := fun d' ρ hf =>
    .inr ⟨rfl, d', ρ, false, false, rfl, .inr (.inl hf)⟩
  have hplain : ∀ g : DataId → ℕ → Closure, d.userHandler.kind ≠ .accept → d.userHandler.kind ≠ .connect →
      (∀ f, g cb.data f = d.closure cb.data f) →
        (logic m).wp (WinSocket.visitPlain cb.data d.userHandler.func g) (Visited m cb)
          (atIo cb (some d) .none false false) := by
    intro g hk hk' hg
    unfold WinSocket.visitPlain
    cases hf : d.userHandler.func with
    | none => exact hnone d _ hf
    | some f =>
      show (logic m).wp (WinSocket.deliver cb.data (g cb.data f)) _ _
      rw [hg f]
      have herrors : d.errors cb.ioResult .none = [.ofULong cb.ioResult] := by
        unfold IOData.errors
        cases hkind : d.userHandler.kind <;> first | rfl | contradiction
      exact wp_deliver (IOData.Taken.settled (herrors.symm ▸ ht) rfl fun h => absurd h hk) rfl hf
  unfold WinSocket.visit
  cases hk : d.userHandler.kind with
  | accept => exact wp_visitAccept ht hb hk
  | connect =>
    refine Logic.wp_bind.mpr (Logic.wp_mono (wp_updateConnectSocketContext x) ?_)
    rintro e _ rfl
    refine Logic.wp_bind.mpr (Logic.wp_mono (wp_noteError e) ?_)
    rintro _ _ rfl
    cases hf : d.userHandler.func with
    | none => exact hnone _ _ (by simpa using hf)
    | some f =>
      have herrors : (d.note e).errors cb.ioResult { Reports.none with update := e } =
          [.ofULong cb.ioResult] ++ [e] := by
        simp [IOData.errors, hk]
      have hset : (d.note e).Settled cb.ioResult cb.nBytesTransferred { Reports.none with update := e } :=
        IOData.Taken.settled (herrors ▸ ht.note e) rfl fun h => by simp [hk] at h
      have hdel := wp_deliver (m := m) (f := f) hset rfl (by simpa using hf)
      simpa only [IOData.closure, IOData.note_userHandler, hk] using hdel
  | read => exact hplain _ (by simp [hk]) (by simp [hk]) fun f => by simp [IOData.closure, hk]
  | write => exact hplain _ (by simp [hk]) (by simp [hk]) fun f => by simp [IOData.closure, hk]
  | disconnect => exact hplain _ (by simp [hk]) (by simp [hk]) fun f => by simp [IOData.closure, hk]

/-- **`socket_io_routine` hands its `IOData` over or deletes it.** -/
theorem wp_ioCallback (hb : d.Blank) :
    (logic m).wp (ioCallback cb) (fun _ _ => True) (atIo cb (some d) .none false false) := by
  refine Logic.wp_bind.mpr (Logic.op_bind pre_read fun d' h => ?_)
  obtain rfl : d = d' := Option.some.inj h
  refine Logic.op_bind (pre_write rfl rfl) fun _ _ => Logic.wp_bind.mpr (Logic.wp_mono (wp_visit
    (d := { d with
      bytesTransferred := cb.nBytesTransferred.toUInt32.toInt32
      errorCode := .ofULong cb.ioResult }) ⟨rfl, (firstError_singleton _).symm⟩ hb) ?_)
  rintro _ _ (⟨rfl, held, ρ, rfl, hh⟩ | ⟨rfl, d', ρ, posted, called, rfl, hc⟩)
  · exact ⟨⟨rfl, _, rfl, hh⟩, fun _ _ => trivial⟩
  · refine Logic.wp_mono (wp_delete rfl rfl (hc.imp_right fun hc => ⟨⟨cb, rfl⟩, hc⟩)) ?_
    rintro _ _ rfl
    exact ⟨⟨rfl, _, rfl, fun _ => rfl⟩, fun _ _ => trivial⟩

end Ownership

end FirelinkNet
