import FirelinkNet.Lib.Product
import FirelinkNet.Lifetime
import FirelinkNet.Serial
import Mathlib.Algebra.Order.BigOperators.Group.Finset

/-!
# The life of a `WinSocket`

A `WinSocket` lives as long as there is a `shared_ptr` to it. User code holds one for the time
of a call; an `IOData` holds one for the time of its operation, so that `socket_io_routine` and
the closures find the object, and hand it to the handler, when user code has let go of it. The
thread that drops the last one runs the destructor.

Calls on one object may overlap here, and the core may be released, set up again or dropped. All
that is asked of user code is that it does not drop the `shared_ptr` that a call in progress was
made through (`guard`).

## What is proved

* `socket_alive` — **no function of the library touches an object that is gone**: each read of, or
  assignment to, the members of a `WinSocket`, in a call of the interface or in a callback, is of an
  object that is there and referred to; so are the objects that a handler is given; and the
  destructor of an object runs when nothing refers to it, and once.
-/

namespace FirelinkNet

open Lib

/-- The object whose members a call reads or assigns to. -/
def Op.touches : Op → Option SockId
  | .readSocket x | .readIoHandle x | .writeSocket x _ | .createThreadpoolIo x _ => some x
  | _ => none

namespace Objects

/-! ### What a thread knows -/

/-- What a thread knows. -/
structure Local where
  /-- The sockets of the call of the interface that it is in. -/
  call : List SockId
  /-- The sockets that the `IOData` in its hands refers to, when it has just looked. -/
  data : List SockId
  /-- The objects that it is to destroy. -/
  dying : List Dead

/-- A thread that is in a call on these sockets, or in none. -/
@[reducible] def within (xs : List SockId) : Local := ⟨xs, [], []⟩

/-- A thread that is in no call. -/
@[reducible] def idle : Local := within []

/-- What a call needs. -/
def pre (l : Local) : Op → Prop
  | .enter _ => l = idle
  | .leave _ _ | .dropRef _ | .deleteIOData _ => l.dying = []
  | .readSocket x | .readIoHandle x | .writeSocket x _ | .createThreadpoolIo x _ => x ∈ l.call ∨ x ∈ l.data
  | .destroyed x => ∃ d ds, l.dying = d :: ds ∧ d.1 = x
  | _ => True

/-- What holds of the reply: an `IOData` goes on to refer to what it did. -/
def given (l : Local) : (o : Op) → Res o → Prop
  | .readIOData _, d => ∀ x ∈ l.data, x ∈ d.refs
  | _, _ => True

/-- What is known after the reply. -/
def post (l : Local) : (o : Op) → Res o → Local
  | .enter c, _ => within c.sockets
  | .leave _ _, _ => idle
  | .dropRef _, ds | .deleteIOData _, ds => ⟨l.call, [], ds⟩
  | .destroyed _, _ => ⟨l.call, [], l.dying.tail⟩
  | .readIOData _, d => { l with data := d.refs }
  | .writeIOData _ _, _ | .readSocket _, _ => l
  | _, _ => { l with data := [] }

/-- Who may touch an object. -/
def logic : Logic Op Res Local := ⟨pre, given, post⟩

/-- A call that touches no object but these, and drops no reference. -/
def On (xs : List SockId) : Op → Prop
  | .readSocket x | .readIoHandle x | .writeSocket x _ | .createThreadpoolIo x _ => x ∈ xs
  | .enter _ | .leave _ _ | .dropRef _ | .deleteIOData _ | .destroyed _ | .readIOData _ => False
  | _ => True

variable {xs : List SockId} {x a : SockId}

theorem on {o : Op} (ho : On xs o) :
    logic.pre (within xs) o ∧ ∀ r, logic.given (within xs) o r → logic.post (within xs) o r = within xs := by
  cases o <;> first | exact ⟨trivial, fun _ _ => rfl⟩ | exact ⟨.inl ho, fun _ _ => rfl⟩ | exact ho.elim

theorem keeps_on {α : Type} {p : Prog α} (hp : p.All (On xs)) : logic.Keeps p (within xs) := .of_all hp fun _ => on

theorem on_ofCore {α : Type} {p : Prog α} (hp : p.All Op.OfCore) : p.All (On xs) := by
  refine hp.mono fun o ho => ?_
  cases o <;> trivial

/-! ### Destructors -/

theorem wp_destroyAll (ds : List Dead) :
    logic.wp (WinSocket.destroyAll ds) (fun _ l => l = within xs) ⟨xs, [], ds⟩ := by
  induction ds with
  | nil => rfl
  | cons d ds ih =>
    refine Logic.wp_bind.mpr ?_
    unfold WinSocket.destroy
    split
    · exact ⟨trivial, fun _ _ => ⟨trivial, fun _ _ => ⟨trivial, fun _ _ => ⟨⟨d, ds, rfl, rfl⟩, fun _ _ => ih⟩⟩⟩⟩
    · exact ⟨⟨d, ds, rfl, rfl⟩, fun _ _ => ih⟩

theorem wp_destroyAll_bind {α : Type} {ds : List Dead} {f : Unit → Prog α} {Q : α → Local → Prop}
    (hf : logic.wp (f ()) Q (within xs)) : logic.wp (WinSocket.destroyAll ds >>= f) Q ⟨xs, [], ds⟩ := by
  refine Logic.wp_bind.mpr (Logic.wp_mono (wp_destroyAll ds) ?_)
  rintro _ _ rfl
  exact hf

theorem keeps_dropRefs (ys : List SockId) : logic.Keeps (WinSocket.dropRefs ys) (within xs) := by
  induction ys with
  | nil => exact logic.keeps_pure () _
  | cons y ys ih => exact ⟨rfl, fun ds _ => wp_destroyAll_bind ih⟩

/-! ### Calls of the interface -/

theorem on_socket (hx : x ∈ xs) (af : AddressFamily) (ty : SocketType) (pr : Protocol) :
    (WinSocket.socket x af ty pr).All (On xs) := by
  refine ⟨trivial, fun r => ?_⟩
  rcases r with e | h
  · exact ⟨hx, fun _ => trivial⟩
  refine ⟨hx, fun _ => ⟨trivial, fun alive => ?_⟩⟩
  cases alive with
  | false => exact ⟨trivial, fun _ => ⟨hx, fun _ => trivial⟩⟩
  | true =>
    refine ⟨hx, fun r => ?_⟩
    rcases r with e | _
    · exact ⟨trivial, fun _ => ⟨hx, fun _ => trivial⟩⟩
    · exact ⟨hx, fun _ => trivial⟩

theorem on_bind (hx : x ∈ xs) (ep : Endpoint) : (WinSocket.bind x ep).All (On xs) := by
  rw [WinSocket.bind, Prog.op_bind]
  refine ⟨hx, fun s => ?_⟩
  dsimp only
  split
  · exact trivial
  refine ⟨hx, fun s => ⟨trivial, fun r => ?_⟩⟩
  rcases r with e | _
  · exact trivial
  · exact ⟨hx, fun _ => trivial⟩

theorem on_connect (hx : x ∈ xs) (dst : Endpoint) : (WinSocket.connect x dst).All (On xs) := by
  rw [WinSocket.connect, Prog.op_bind]
  refine ⟨hx, fun s => ?_⟩
  dsimp only
  split
  · exact trivial
  refine ⟨hx, fun s => ⟨trivial, fun r => ?_⟩⟩
  rcases r with e | _
  · exact trivial
  · exact ⟨hx, fun _ => trivial⟩

theorem on_sendTo (hx : x ∈ xs) (b : Span) (dst : Endpoint) : (WinSocket.sendTo x b dst).All (On xs) := by
  rw [WinSocket.sendTo, Prog.op_bind]
  refine ⟨hx, fun s => ?_⟩
  dsimp only
  split
  · exact trivial
  refine ⟨hx, fun s => ⟨trivial, fun r => ?_⟩⟩
  rcases r with e | _
  · exact trivial
  · exact ⟨hx, fun _ => trivial⟩

theorem on_closeNative (hx : x ∈ xs) : (WinSocket.closeNative x).All (On xs) := by
  rw [WinSocket.closeNative, Prog.op_bind]
  refine ⟨hx, fun s => ?_⟩
  dsimp only
  split
  · refine ⟨trivial, fun r => ?_⟩
    rcases r with e | _ <;> exact ⟨hx, fun _ => trivial⟩
  · exact ⟨hx, fun _ => trivial⟩

theorem on_close (hx : x ∈ xs) : (WinSocket.close x).All (On xs) := by
  rw [WinSocket.close, Prog.op_bind]
  refine ⟨hx, fun io => ?_⟩
  dsimp only
  split
  · exact ⟨trivial, fun _ => ⟨trivial, fun _ => ⟨trivial, fun _ => ⟨hx, fun _ => on_closeNative hx⟩⟩⟩⟩
  · exact on_closeNative hx

theorem on_accept (hx : x ∈ xs) (ha : a ∈ xs) : (WinSocket.accept x a).All (On xs) := by
  refine ⟨hx, fun s => ⟨trivial, fun r => ?_⟩⟩
  rcases r with e | s
  · exact trivial
  refine ⟨trivial, fun r => ?_⟩
  rcases r with e | info
  · exact ⟨trivial, fun _ => trivial⟩
  refine ⟨ha, fun _ => ⟨trivial, fun alive => ?_⟩⟩
  cases alive with
  | false => exact (on_close ha).bind fun _ => trivial
  | true =>
    refine ⟨ha, fun r => ?_⟩
    rcases r with e | _
    · exact (on_close ha).bind fun _ => trivial
    · exact ⟨ha, fun _ => trivial⟩

theorem on_bindForConnect (hx : x ∈ xs) (any : Endpoint) : (WinSocket.bindForConnect x any).All (On xs) := by
  rw [WinSocket.bindForConnect, Prog.op_bind]
  refine ⟨hx, fun s => ?_⟩
  dsimp only
  split
  · exact trivial
  · exact on_bind hx any

theorem on_postWork (k : PoolKind) (c : Closure) : (WinIOCore.postWork k c).All (On xs) := by
  refine ⟨trivial, fun f => ⟨trivial, fun ok => ?_⟩⟩
  cases ok with
  | true => exact trivial
  | false => exact ⟨trivial, fun _ => ⟨trivial, fun _ => trivial⟩⟩

theorem on_lookupExtFns (s : NativeHandle) (fns : List ExtFn) : (WinIOCore.lookupExtFns s fns).All (On xs) := by
  induction fns with
  | nil => exact trivial
  | cons fn fns ih =>
    refine ⟨trivial, fun found => ?_⟩
    cases found with
    | true => exact ih
    | false =>
      refine ⟨trivial, fun r => ?_⟩
      rcases r with e | _
      · exact ⟨trivial, fun _ => trivial⟩
      · exact ih

theorem on_getExtendedSocketFunctions : WinIOCore.getExtendedSocketFunctions.All (On xs) := by
  refine ⟨trivial, fun r => ?_⟩
  rcases r with e | s
  · exact trivial
  refine (on_lookupExtFns _ _).bind fun found => ?_
  cases found with
  | some e => exact trivial
  | none =>
    refine ⟨trivial, fun r => ?_⟩
    rcases r with e | _ <;> exact trivial

theorem on_initializeCore : WinIOCore.initializeCore.All (On xs) := by
  have hpool : ∀ (n m : UInt32) (k : PoolKind), (WinIOCore.initializeThreadpool n m k).All (On xs) := fun n m k =>
    on_ofCore (WinIOCore.ofCore_initializeThreadpool n m k)
  refine ⟨trivial, fun r => ?_⟩
  rcases r with e | v
  · exact trivial
  show Lib.Prog.All _ (if v ≠ _ then _ else _)
  split
  · exact trivial
  refine on_getExtendedSocketFunctions.bind fun e => ?_
  split
  · exact trivial
  refine ⟨trivial, fun c => (hpool _ _ _).bind fun e => ?_⟩
  split
  · exact trivial
  refine (hpool _ _ _).bind fun e => ?_
  split
  · exact trivial
  · exact ⟨trivial, fun _ => trivial⟩

/-- The overlapped call is made ready from the sockets of the call, and from what the `IOData` refers to. -/
def Readies (xs : List SockId) (request : Prog IoRequest) : Prop :=
  logic.wp request (fun _ l => ∃ ys, l = ⟨xs, ys, []⟩) (within xs)

theorem keeps_startIo {i : DataId} {request : Prog IoRequest} (hx : x ∈ xs) (hr : Readies xs request) :
    logic.Keeps (WinSocket.startIo x i request) (within xs) := by
  refine Logic.op_bind (.inl hx) fun io _ => Logic.op_bind trivial fun _ _ =>
    Logic.wp_bind.mpr (Logic.wp_mono hr ?_)
  rintro req _ ⟨ys, rfl⟩
  refine Logic.op_bind trivial fun r _ => ?_
  rcases r with e | _
  · show logic.Keeps (if e.code ≠ errorIoPending then _ else _) (within xs)
    split
    · exact ⟨rfl, fun ds _ => wp_destroyAll_bind ⟨.inl hx, fun _ _ => ⟨trivial, fun _ _ => rfl⟩⟩⟩
    · exact logic.keeps_pure _ _
  · exact logic.keeps_pure _ _

/-- A `start_…` function that allocates, and announces the operation at once. -/
theorem keeps_newIo {d : IOData} {request : DataId → Prog IoRequest} (hx : x ∈ xs)
    (hr : ∀ i, Readies xs (request i)) : logic.Keeps (do
      let i ← op (.newIOData d)
      WinSocket.startIo x i (request i)) (within xs) :=
  ⟨trivial, fun i _ => keeps_startIo hx (hr i)⟩

/-- The request is made from the members of the socket. -/
theorem readies_read (hx : x ∈ xs) (k : WinSocket → IoRequest) :
    Readies xs (do return k (← op (.readSocket x))) := ⟨.inl hx, fun _ _ => ⟨[], rfl⟩⟩

/-- The request is made from the members of the socket and of the `IOData`. -/
theorem readies_data {i : DataId} (hx : x ∈ xs) (k : IOData → WinSocket → IoRequest) :
    Readies xs (do
      let d ← op (.readIOData i)
      return k d (← op (.readSocket x))) :=
  ⟨trivial, fun d _ => ⟨.inl hx, fun _ _ => ⟨d.refs, rfl⟩⟩⟩

theorem keeps_startAcceptIo (hx : x ∈ xs) (ha : a ∈ xs) (f : Option ℕ) :
    logic.Keeps (WinSocket.startAcceptIo x a f) (within xs) := by
  refine keeps_newIo hx fun i => ⟨trivial, fun d _ => ⟨?_, fun _ _ => ⟨.inl hx, fun _ _ => ⟨d.refs, rfl⟩⟩⟩⟩
  show d.acceptSocket.getD a ∈ xs ∨ d.acceptSocket.getD a ∈ d.refs
  cases hd : d.acceptSocket with
  | none => exact .inl ha
  | some b => exact .inr (by simp [IOData.refs, hd])

theorem keeps_startAccept (hx : x ∈ xs) (ha : a ∈ xs) (f : Option ℕ) :
    logic.Keeps (WinSocket.startAccept x a f) (within xs) := by
  rw [WinSocket.startAccept, Prog.op_bind]
  refine ⟨.inl ha, fun s _ => ?_⟩
  dsimp only
  split
  · refine Logic.op_bind (.inl hx) fun this _ => (keeps_on (on_socket ha _ _ _)).seq fun e => ?_
    split
    · exact logic.keeps_pure _ _
    · exact keeps_startAcceptIo hx ha f
  · exact keeps_startAcceptIo hx ha f

theorem keeps_startConnect (hx : x ∈ xs) (dst : Endpoint) (f : Option ℕ) :
    logic.Keeps (WinSocket.startConnect x dst f) (within xs) := by
  refine Logic.op_bind trivial fun i _ => Logic.op_bind (.inl hx) fun s _ => Logic.op_bind trivial fun _ _ => ?_
  have hend : ∀ e : ErrorCode, logic.Keeps (if e ≠ .success then pure e else WinSocket.startIo x i do
      let d ← op (.readIOData i)
      return .connectEx (← op (.readSocket x)).nativeSocket d.peerWinAddr) (within xs) := by
    intro e
    split
    · exact logic.keeps_pure _ _
    · exact keeps_startIo hx (readies_data hx fun d s => .connectEx s.nativeSocket d.peerWinAddr)
  show logic.Keeps _ (within xs)
  dsimp only
  split
  · exact logic.keeps_pure _ _
  split
  · exact (keeps_on (on_bindForConnect hx _)).bind hend
  split
  · exact (keeps_on (on_bindForConnect hx _)).bind hend
  · exact hend .success

theorem keeps_startSendTo (hx : x ∈ xs) (b : Span) (dst : Endpoint) (f : Option ℕ) :
    logic.Keeps (WinSocket.startSendTo x b dst f) (within xs) := by
  refine Logic.op_bind trivial fun i _ => Logic.op_bind (.inl hx) fun s _ => Logic.op_bind trivial fun _ _ => ?_
  show logic.Keeps _ (within xs)
  split
  · exact logic.keeps_pure _ _
  · exact keeps_startIo hx (readies_data hx fun d s =>
      .wsaSendTo s.nativeSocket b.data b.size.toUInt32 d.peerWinAddr)

/-- **A function of the interface touches the sockets that it was called with, and no others.** -/
theorem keeps_body (c : ApiCall) : logic.Keeps c.body (within c.sockets) := by
  have hfst : ∀ {x : SockId} {ys : List SockId}, x ∈ x :: ys := List.mem_cons_self
  have hsnd : ∀ {x y : SockId}, y ∈ [x, y] := List.mem_cons_of_mem _ List.mem_cons_self
  cases c with
  | socket x af ty pr => exact keeps_on (on_socket hfst af ty pr)
  | bind x ep => exact keeps_on (on_bind hfst ep)
  | close x => exact keeps_on (on_close hfst)
  | accept x a => exact keeps_on (on_accept hfst hsnd)
  | connect x dst => exact keeps_on (on_connect hfst dst)
  | sendTo x b dst => exact keeps_on ((on_sendTo hfst b dst).bind fun _ => trivial)
  | startAccept x a f => exact keeps_startAccept hfst hsnd f
  | startConnect x dst f => exact keeps_startConnect hfst dst f
  | startRecv x b f => exact keeps_newIo hfst fun _ => readies_read hfst _
  | startRecvFrom x b f => exact keeps_newIo hfst fun _ => readies_read hfst _
  | startSend x b f => exact keeps_newIo hfst fun _ => readies_read hfst _
  | startSendTo x b dst f => exact keeps_startSendTo hfst b dst f
  | startDisconnect x r f => exact keeps_newIo hfst fun _ => readies_read hfst _
  | postIoWork n => exact keeps_on (on_postWork _ _)
  | postUserWork n => exact keeps_on (on_postWork _ _)
  | initializeCore => exact keeps_on on_initializeCore
  | releaseCore => exact keeps_on (on_ofCore WinIOCore.ofCore_releaseCore)
  | create => exact logic.keeps_pure _ _
  | copyRef x => exact logic.keeps_pure _ _
  | dropRef x => exact logic.keeps_pure _ _

theorem keeps_interfaceCall (c : ApiCall) : logic.Keeps (interfaceCall c c.body) idle :=
  Logic.op_bind rfl fun _ _ => (keeps_body c).seq fun _ => ⟨rfl, fun _ _ => keeps_dropRefs _⟩

theorem keeps_run (c : ApiCall) : logic.Keeps c.run idle := by
  cases c with
  | create => exact ⟨trivial, fun _ _ => rfl⟩
  | copyRef x => exact ⟨trivial, fun _ _ => rfl⟩
  | dropRef x => exact keeps_dropRefs _
  | _ => exact keeps_interfaceCall _

theorem keeps_runCalls (cs : List ApiCall) : logic.Keeps (runCalls cs) idle := by
  induction cs with
  | nil => exact logic.keeps_pure () _
  | cons c cs ih => exact (keeps_run c).bind fun _ => ih

/-! ### Callbacks -/

/-- A thread is in no call, and destroys nothing. -/
def Out (l : Local) : Prop := l.call = [] ∧ l.dying = []

/-- A program that a thread runs outside of a call, and that leaves it there. -/
def StaysOut {α : Type} (p : Prog α) (l : Local) : Prop := logic.wp p (fun _ => Out) l

variable {l : Local}

theorem out_idle : Out idle := ⟨rfl, rfl⟩

theorem Out.eq (hl : Out l) : l = ⟨[], l.data, []⟩ := by
  obtain ⟨call, data, dying⟩ := l
  obtain ⟨rfl, rfl⟩ := hl
  rfl

/-- A call that touches no object, and drops no reference. -/
def Outside : Op → Prop
  | .readIOData _ => True
  | o => On [] o

theorem staysOut_of_all {α : Type} {p : Prog α} (hp : p.All Outside) (hl : Out l) : StaysOut p l := by
  refine Logic.wp_of_all hp (fun l o ho hl => ?_) hl
  obtain ⟨hcall, hdying⟩ := hl
  cases o <;> first | exact ⟨trivial, fun _ _ => ⟨hcall, hdying⟩⟩ | exact ho.elim | cases ho

theorem StaysOut.bind {α β : Type} {p : Prog α} {f : α → Prog β} (hp : StaysOut p l)
    (hf : ∀ a l, Out l → StaysOut (f a) l) : StaysOut (p >>= f) l :=
  Logic.wp_bind.mpr (Logic.wp_mono hp hf)

theorem outside_of_on {α : Type} {p : Prog α} (hp : p.All (On [])) : p.All Outside := by
  refine hp.mono fun o ho => ?_
  cases o <;> first | exact trivial | exact ho

theorem outside_noteError (i : DataId) (e : ErrorCode) : (WinSocket.noteError i e).All Outside := by
  unfold WinSocket.noteError
  split
  · refine ⟨trivial, fun d => ?_⟩
    show Lib.Prog.All _ (if d.errorCode = _ then _ else _)
    split
    · exact ⟨trivial, fun _ => trivial⟩
    · exact trivial
  · exact trivial

theorem outside_getAcceptexSockaddrs (i : DataId) : (WinSocket.getAcceptexSockaddrs i).All Outside := by
  refine ⟨trivial, fun d => ⟨trivial, fun r => ?_⟩⟩
  cases r with
  | none => exact trivial
  | some _ => exact ⟨trivial, fun _ => trivial⟩

theorem staysOut_noteError (hl : Out l) (i : DataId) (e : ErrorCode) : StaysOut (WinSocket.noteError i e) l :=
  staysOut_of_all (outside_noteError i e) hl

theorem staysOut_deleteIOData (hl : Out l) (i : DataId) : StaysOut (WinSocket.deleteIOData i) l := by
  rw [hl.eq]
  refine ⟨rfl, fun ds _ => Logic.wp_mono (wp_destroyAll ds) ?_⟩
  rintro _ _ rfl
  exact out_idle

theorem staysOut_callHandler (hl : Out l) (i : DataId) (f : ℕ) (args : Args) :
    StaysOut (WinSocket.callHandler i f args) l := by
  rw [hl.eq]
  refine ⟨trivial, fun cs _ => (keeps_runCalls cs).seq fun _ => Logic.wp_mono (keeps_dropRefs _) ?_⟩
  rintro _ _ rfl
  exact out_idle

theorem staysOut_callUserHandler (hl : Out l) (c : Closure) : StaysOut (WinSocket.callUserHandler c) l := by
  cases c with
  | user n =>
    rw [hl.eq]
    refine ⟨trivial, fun cs _ => Logic.wp_mono (keeps_runCalls cs) ?_⟩
    rintro _ _ rfl
    exact out_idle
  | _ => exact ⟨trivial, fun d _ => staysOut_callHandler hl _ _ _⟩

theorem staysOut_deliver (hl : Out l) (i : DataId) (c : Closure) : StaysOut (WinSocket.deliver i c) l := by
  refine Logic.op_bind trivial fun alive _ => ?_
  cases alive with
  | false => exact hl
  | true =>
    refine StaysOut.bind (staysOut_of_all (outside_of_on (on_postWork .user c)) hl) fun e l hl => ?_
    split
    · exact hl
    · exact (staysOut_noteError hl i e).bind fun _ l hl => (staysOut_callUserHandler hl c).bind fun _ _ hl => hl

theorem staysOut_updateAcceptSocketContext (hl : Out l) (hx : x ∈ l.data) (ha : a ∈ l.data) :
    StaysOut (WinSocket.updateAcceptSocketContext x a) l := by
  refine ⟨.inr hx, fun _ _ => ⟨.inr ha, fun _ _ => ⟨trivial, fun r _ => ?_⟩⟩⟩
  rcases r with e | _ <;> exact hl

theorem staysOut_updateConnectSocketContext (hl : Out l) (hx : x ∈ l.data) :
    StaysOut (WinSocket.updateConnectSocketContext x) l := by
  refine ⟨.inr hx, fun _ _ => ⟨trivial, fun r _ => ?_⟩⟩
  rcases r with e | _ <;> exact hl

theorem staysOut_deliverAccept (hl : Out l) (i : DataId) (f : Option ℕ) :
    StaysOut (WinSocket.deliverAccept i f) l := by
  cases f with
  | none => exact hl
  | some f =>
    refine StaysOut.bind (staysOut_of_all (outside_getAcceptexSockaddrs i) hl) fun e l hl =>
      (staysOut_noteError hl i e).bind fun _ l hl => Logic.op_bind trivial fun d _ => ?_
    have hlook : Out { l with data := d.refs } := hl
    exact (staysOut_noteError hlook i _).bind fun _ l hl => (staysOut_noteError hl i _).bind fun _ l hl =>
      staysOut_deliver hl i _

/-- **The accept branch** touches the two sockets that the `IOData` refers to. -/
theorem staysOut_visitAccept (hl : Out l) (hx : x ∈ l.data) (i : DataId) (f : Option ℕ) :
    StaysOut (WinSocket.visitAccept i x f) l := by
  refine Logic.op_bind trivial fun d hd => ?_
  have hlook : Out { l with data := d.refs } := hl
  cases ha : d.acceptSocket with
  | none => exact (staysOut_noteError hlook i _).bind fun _ l hl => staysOut_deliverAccept hl i f
  | some a =>
    have hmem : a ∈ d.refs := by simp [IOData.refs, ha]
    exact (staysOut_updateAcceptSocketContext hlook (hd x hx) hmem).bind fun e l hl =>
      (staysOut_noteError hl i e).bind fun _ l hl => staysOut_deliverAccept hl i f

theorem staysOut_visitConnect (hl : Out l) (hx : x ∈ l.data) (i : DataId) (f : Option ℕ) :
    StaysOut (WinSocket.visitConnect i x f) l := by
  refine (staysOut_updateConnectSocketContext hl hx).bind fun e l hl =>
    (staysOut_noteError hl i e).bind fun _ l hl => ?_
  cases f with
  | none => exact hl
  | some f => exact staysOut_deliver hl i _

theorem staysOut_visitPlain (hl : Out l) (i : DataId) (f : Option ℕ) (c : DataId → ℕ → Closure) :
    StaysOut (WinSocket.visitPlain i f c) l := by
  cases f with
  | none => exact hl
  | some f => exact staysOut_deliver hl i _

theorem staysOut_visit (hl : Out l) (hx : x ∈ l.data) (i : DataId) (h : Handler) :
    StaysOut (WinSocket.visit i x h) l := by
  unfold WinSocket.visit
  cases h.kind with
  | accept => exact staysOut_visitAccept hl hx i _
  | connect => exact staysOut_visitConnect hl hx i _
  | read => exact staysOut_visitPlain hl i _ _
  | write => exact staysOut_visitPlain hl i _ _
  | disconnect => exact staysOut_visitPlain hl i _ _

/-- **`socket_io_routine` touches the sockets that its `IOData` refers to, and no others.** -/
theorem staysOut_ioCallback (cb : IoCallback) : StaysOut (ioCallback cb) idle := by
  refine StaysOut.bind ?_ fun _ l hl => ⟨trivial, fun _ _ => hl⟩
  refine Logic.op_bind trivial fun d _ => Logic.op_bind trivial fun _ _ => ?_
  refine StaysOut.bind (staysOut_visit (l := ⟨[], d.refs, []⟩) ⟨rfl, rfl⟩ List.mem_cons_self _ _) fun posted l hl => ?_
  cases posted with
  | true => exact hl
  | false => exact staysOut_deleteIOData hl _

/-- **A closure touches none.** -/
theorem staysOut_workCallback (q : Work) : StaysOut (workCallback q) idle := by
  refine Logic.op_bind trivial fun _ _ => StaysOut.bind ?_ fun _ l hl =>
    ⟨trivial, fun _ _ => ⟨trivial, fun _ _ => hl⟩⟩
  refine (staysOut_callUserHandler out_idle q.closure).bind fun _ l hl => ?_
  cases q.closure.ioData with
  | none => exact hl
  | some i => exact staysOut_deleteIOData hl i

/-- A thread that is started has what it needs. -/
theorem wp_event {w w' : World} {n : ℕ} {e : Event} {p : Option (Prog Unit)} (h : w.event n e = some (w', p)) :
    ∀ q ∈ p, logic.wp q (fun _ _ => True) idle := by
  have hout : ∀ {q : Prog Unit}, StaysOut q idle → logic.wp q (fun _ _ => True) idle := fun hq =>
    Logic.wp_mono hq fun _ _ _ => trivial
  rintro q hq
  cases hq
  cases World.event_step h with
  | spawn cs => exact Logic.wp_mono (keeps_runCalls cs) fun _ _ _ => trivial
  | dispatchIo _ => exact hout (staysOut_ioCallback _)
  | dispatchWork _ => exact hout (staysOut_workCallback _)
  | startCleanup _ _ =>
    exact Logic.wp_mono (keeps_on (on_ofCore (WinIOCore.ofCore_cleanupThread _ _))) fun _ _ _ => trivial

end Objects

/-! ### The references that are lent -/

namespace World

/-- The `shared_ptr`s to `x` that the call `n` was made with, until it returns. -/
def lentTo (w : World) (x : SockId) (n : CallId) : ℕ :=
  if (w.results n).isNone then (w.calls n).elim 0 (·.sockets.count x) else 0

/-- The `shared_ptr`s to `x` that the calls in progress were made with. -/
def lent (w : World) (x : SockId) : ℕ := ∑ n ∈ Finset.range w.nextCall, w.lentTo x n

variable {w w' : World} {x : SockId}

theorem lent_eq (hcalls : w'.calls = w.calls) (hresults : w'.results = w.results)
    (hnext : w'.nextCall = w.nextCall) : w'.lent x = w.lent x := by
  unfold lent lentTo
  rw [hcalls, hresults, hnext]

theorem lent_enterCall (t : ℕ) (c : ApiCall) : (w.enterCall t c).lent x ≤ w.lent x + c.sockets.count x := by
  have hold : ∀ n ∈ Finset.range w.nextCall, (w.enterCall t c).lentTo x n = w.lentTo x n := by
    intro n hn
    have hcall : (w.enterCall t c).calls n = w.calls n :=
      Function.update_of_ne (Nat.ne_of_lt (Finset.mem_range.mp hn)) ..
    rw [lentTo, lentTo, hcall]
    rfl
  have hnew : (w.enterCall t c).lentTo x w.nextCall ≤ c.sockets.count x := by
    have hcall : (w.enterCall t c).calls w.nextCall = some c := Function.update_self ..
    rw [lentTo, hcall]
    split
    · exact le_rfl
    · exact Nat.zero_le _
  have hsum : (w.enterCall t c).lent x =
      ∑ n ∈ Finset.range w.nextCall, (w.enterCall t c).lentTo x n + (w.enterCall t c).lentTo x w.nextCall :=
    Finset.sum_range_succ ..
  rw [hsum, Finset.sum_congr rfl hold]
  exact Nat.add_le_add_left hnew _

theorem lent_leaveCall (t : ℕ) (n : CallId) (r : ErrorCode) : (w.leaveCall t n r).lent x ≤ w.lent x := by
  refine Finset.sum_le_sum fun n' _ => ?_
  by_cases hn : n' = n
  · have hres : (w.leaveCall t n r).results n' = some r := by
      rw [hn]
      exact Function.update_self ..
    rw [lentTo, hres]
    exact Nat.zero_le _
  · have hres : (w.leaveCall t n r).results n' = w.results n' := Function.update_of_ne hn ..
    rw [lentTo, lentTo, hres]
    exact le_rfl

/-- A call in progress has the sockets that it was made with. -/
theorem lent_pos {n : CallId} {c : ApiCall} (hn : n < w.nextCall) (hc : w.calls n = some c)
    (hr : w.results n = none) (hx : x ∈ c.sockets) : 0 < w.lent x := by
  have hone : w.lentTo x n = c.sockets.count x := by
    rw [lentTo, hr, hc]
    rfl
  have hle : w.lentTo x n ≤ w.lent x :=
    Finset.single_le_sum (fun _ _ => Nat.zero_le _) (Finset.mem_range.mpr hn)
  exact Nat.lt_of_lt_of_le (hone ▸ List.count_pos_iff.mpr hx) hle

/-- The world, but for the calls of the interface. -/
def outOfCalls (w : World) : World :=
  { w with calls := fun _ => none, nextCall := 0, cur := fun _ => none }

/-- References are made from references. -/
theorem referenced_addRefs {xs : List SockId} (hx : ∀ y ∈ xs, w.referenced y = true)
    (h : (w.addRefs xs).referenced x = true) : w.referenced x = true := by
  rcases referenced_iff.mp h with h | h
  · by_cases hmem : x ∈ xs
    · exact hx x hmem
    · have h' : 0 < w.userRefs x + xs.count x := h
      rw [List.count_eq_zero_of_not_mem hmem] at h'
      exact referenced_of_userRefs h'
  · exact referenced_iff.mpr (.inr h)

theorem referenced_dropRef {y : SockId} (hx : 0 < w.userRefs x) (h : (w.dropRef x).referenced y = true) :
    w.referenced y = true := by
  rcases referenced_iff.mp h with h | h
  · by_cases hy : y = x
    · exact referenced_of_userRefs (hy ▸ hx)
    · have hsame : (w.dropRef x).userRefs y = w.userRefs y := Function.update_of_ne hy ..
      exact referenced_of_userRefs (hsame ▸ h)
  · exact referenced_iff.mpr (.inr h)

theorem referenced_deleteIOData {i : DataId} (h : (w.deleteIOData i).2.referenced x = true) :
    w.referenced x = true := by
  rcases referenced_iff.mp h with h | ⟨j, hj, h⟩
  · exact referenced_of_userRefs h
  obtain ⟨d, hd, hx⟩ := refersTo_iff.mp h
  have hd' : Function.update w.heap i .freed j = .live d := hd
  by_cases hji : j = i
  · rw [hji, Function.update_self] at hd'
    cases hd'
  · rw [Function.update_of_ne hji] at hd'
    exact referenced_iff.mpr (.inr ⟨j, hj, refersTo_iff.mpr ⟨d, hd', hx⟩⟩)

theorem referenced_newIOData {t : ℕ} {d : IOData} (hd : ∀ y ∈ d.refs, w.referenced y = true)
    (h : (w.newIOData t d).referenced x = true) : w.referenced x = true := by
  rcases referenced_iff.mp h with h | ⟨i, hi, h⟩
  · exact referenced_of_userRefs h
  obtain ⟨d', hd', hx⟩ := refersTo_iff.mp h
  have hd'' : Function.update w.heap w.nextData (.live d) i = .live d' := hd'
  by_cases hin : i = w.nextData
  · rw [hin, Function.update_self] at hd''
    cases hd''
    exact hd x hx
  · rw [Function.update_of_ne hin] at hd''
    exact referenced_iff.mpr (.inr ⟨i, Nat.lt_of_le_of_ne (Nat.le_of_lt_succ hi) hin,
      refersTo_iff.mpr ⟨d', hd'', hx⟩⟩)

end World

namespace Objects

/-! ### What each thread may touch is there -/

/-- What a thread may touch is lent to the call that it is in, or referred to by the `IOData` in its hands. -/
structure Covers (l : Ownership.Local) (l' : Local) : Prop where
  call : ∀ x ∈ l'.call, ∃ c, l.frame.map (·.call) = some c ∧ x ∈ c.sockets
  data : ∀ x ∈ l'.data, ∃ i d, l.Has i d ∧ x ∈ d.refs

variable {m : Mode} {w w' : World} {g : ℕ → Ownership.Local} {ls : ℕ → Ownership.Local × Local} {t : ℕ} {o : Op}

theorem covers_idle (l : Ownership.Local) : Covers l idle := ⟨nofun, nofun⟩

/-- A call within a call of the interface leaves that as it is. -/
theorem call_post {l : Ownership.Local} (r : Res o) (ho : o.Within) :
    ((Ownership.logic m).post l o r).frame.map (·.call) = l.frame.map (·.call) := by
  have hstage : ∀ st, (l.setStage st).frame.map (·.call) = l.frame.map (·.call) := fun st => by
    cases hf : l.frame <;> simp [Ownership.Local.setStage, hf]
  obtain ⟨frame, job, func⟩ := l
  cases o with
  | enter c => exact ho.elim
  | leave n r => exact ho.elim
  | newIOData d => exact hstage _
  | writeIOData i d => cases frame <;> rfl
  | deleteIOData i => cases frame <;> rfl
  | deleteFunc f => cases func <;> rfl
  | trySubmitThreadpoolCallback f c k => cases frame <;> rfl
  | startThreadpoolIo io => cases frame <;> rfl
  | cancelThreadpoolIo io => cases frame <;> rfl
  | overlapped req i io =>
    show Option.map _ (if Ownership.submits r then _ else _ : Ownership.Local).frame = _
    split
    · exact hstage _
    · rfl
  | getLastError | setsockopt _ _ | getAcceptExSockaddrs _ => cases frame <;> rfl
  | _ => rfl

/-- A thread has one `IOData` in its hands. -/
theorem has_unique {l : Ownership.Local} {i i' : DataId} {d d' : IOData} (h : l.Has i d) (h' : l.Has i' d') :
    i = i' ∧ d = d' := by
  rcases h with ⟨f, hf, hs⟩ | ⟨hf, j, hj, hi, hd⟩
  · rcases h' with ⟨f', hf', hs'⟩ | ⟨hf', -⟩
    · cases hf.symm.trans hf'
      cases hs.symm.trans hs'
      exact ⟨rfl, rfl⟩
    · cases hf.symm.trans hf'
  · rcases h' with ⟨f', hf', -⟩ | ⟨-, j', hj', hi', hd'⟩
    · cases hf.symm.trans hf'
    · cases hj.symm.trans hj'
      exact ⟨Option.some.inj (hi.symm.trans hi'), Option.some.inj (hd.symm.trans hd')⟩

/-- What a thread assigns to is the `IOData` in its hands, which goes on to refer to what it did. -/
theorem has_write {l : Ownership.Local} {i : DataId} {d : IOData} (h : (Ownership.logic m).pre l (.writeIOData i d)) :
    ∃ d₀, l.Has i d₀ ∧ (l.write i d).Has i d ∧ d.refs = d₀.refs := by
  rcases h with ⟨f, d₀, hf, hs, hr, -⟩ | ⟨hf, j, cb, d₀, hj, hk, rfl, hd, -, hr, -⟩
  · refine ⟨d₀, .inl ⟨f, hf, hs⟩, ?_, Lifetime.refs_eq hr⟩
    rw [Ownership.Local.write_of_some hf]
    refine .inl ⟨{ f with stage := .held i d }, ?_, rfl⟩
    rw [Ownership.Local.setStage, hf]
    rfl
  · have hi : j.task.data = some cb.data := by
      rw [hk]
      rfl
    refine ⟨d₀, .inr ⟨hf, j, hj, hi, hd⟩, ?_, Lifetime.refs_eq hr⟩
    rw [Ownership.Local.write_of_none hf]
    refine .inr ⟨hf, { j with held := some d }, ?_, hi, rfl⟩
    rw [Ownership.Local.setJob, hj]
    rfl

/-- **The reply is as promised**: what a thread knew of the `IOData` in its hands is so. -/
theorem Covers.given {l : Ownership.Local} {l' : Local} (hC : Covers l l') {i : DataId} {d : IOData}
    (h : l.Has i d) : ∀ x ∈ l'.data, x ∈ d.refs := by
  intro x hx
  obtain ⟨i', d', h', hx'⟩ := hC.data x hx
  exact (has_unique h' h).2 ▸ hx'

/-- **A call keeps what a thread may touch within what is lent to it.** -/
theorem Covers.run {l' : Local} (hC : Covers (g t) l') (hI : Ownership.Inv m w g)
    (hpre : (Ownership.logic m).pre (g t) o) (a : Ans) :
    Covers ((Ownership.logic m).post (g t) o (w.reply t o a).1) (logic.post l' o (w.reply t o a).1) := by
  have hcall : o.Within → ∀ x ∈ l'.call, ∃ c,
      ((Ownership.logic m).post (g t) o (w.reply t o a).1).frame.map (·.call) = some c ∧ x ∈ c.sockets := by
    intro ho
    rw [call_post _ ho]
    exact hC.call
  cases o with
  | enter c => exact ⟨fun x hx => ⟨c, rfl, hx⟩, nofun⟩
  | leave n r => exact covers_idle _
  | readIOData i =>
    obtain ⟨d, hd⟩ := hpre
    have hget : (w.heap i).get = d := by rw [(hI.live hd).1]; rfl
    exact ⟨hC.call, fun x hx => ⟨i, d, hd, hget ▸ hx⟩⟩
  | writeIOData i d =>
    obtain ⟨d₀, h₀, h, hrefs⟩ := has_write hpre
    refine ⟨hcall trivial, fun x hx => ⟨i, d, h, ?_⟩⟩
    rw [hrefs]
    exact hC.given h₀ x hx
  | readSocket x => exact hC
  | _ => exact ⟨hcall trivial, nofun⟩

/-- What threads are to destroy. -/
def doomed (ls : ℕ → Ownership.Local × Local) (t : ℕ) : Lifetime.Local := ⟨none, none, none, (ls t).2.dying⟩

/-- Each object that is referred to is there, and each that a thread is to destroy is not referred to; what a
thread may touch is covered, and what is lent to calls in progress is not dropped. -/
structure Safe (w : World) (ls : ℕ → Ownership.Local × Local) : Prop where
  covers : ∀ t, Covers (ls t).1 (ls t).2
  held : Lifetime.Held w.outOfCalls (doomed ls)
  lent : ∀ x, w.lent x ≤ w.userRefs x

theorem doomed_update (l : Ownership.Local) (l' : Local) :
    doomed (Function.update ls t (l, l')) = Function.update (doomed ls) t ⟨none, none, none, l'.dying⟩ := by
  funext t'
  by_cases h : t' = t
  · rw [doomed, h, Function.update_self, Function.update_self]
  · rw [doomed, Function.update_of_ne h, Function.update_of_ne h]
    rfl

theorem Safe.userRefs_pos (hS : Safe w ls) (hI : Ownership.Inv m w fun t => (ls t).1) {f : Ownership.Frame}
    {x : SockId} (hf : (ls t).1.frame = some f) (hx : x ∈ f.call.sockets) : 0 < w.userRefs x := by
  obtain ⟨hcall, hres, -⟩ := hI.calls.frame t f hf
  have hlt : f.id < w.nextCall := by
    by_contra hge
    have hnone := (hI.calls.fresh f.id (Nat.le_of_not_lt hge)).1
    rw [hcall] at hnone
    cases hnone
  exact Nat.lt_of_lt_of_le (World.lent_pos hlt hcall hres hx) (hS.lent x)

theorem referenced_has (hI : Ownership.Inv m w g) {i : DataId} {d : IOData} (h : (g t).Has i d) :
    ∀ x ∈ d.refs, w.referenced x = true :=
  Lifetime.Known.referenced (Lifetime.live_of hI) (hI.live h).1

/-- **What a thread may touch is referred to.** -/
theorem Safe.referenced (hS : Safe w ls) (hI : Ownership.Inv m w fun t => (ls t).1) {x : SockId}
    (h : x ∈ (ls t).2.call ∨ x ∈ (ls t).2.data) : w.referenced x = true := by
  rcases h with h | h
  · obtain ⟨c, hc, hx⟩ := (hS.covers t).call x h
    obtain ⟨f, hf, rfl⟩ := Option.map_eq_some_iff.mp hc
    exact World.referenced_of_userRefs (hS.userRefs_pos hI hf hx)
  · obtain ⟨i, d, hd, hx⟩ := (hS.covers t).data x h
    exact referenced_has (g := fun t => (ls t).1) hI hd x hx

/-- An object that is found without a reference when one is dropped had one before. -/
theorem Safe.drop {ds : List Dead} {l : Ownership.Local} {xs : List SockId} (hS : Safe w ls)
    (hsocks : w'.socks = w.socks) (hsock : w'.nextSock = w.nextSock)
    (href : ∀ x, w'.referenced x = true → w.referenced x = true)
    (hds : ∀ d ∈ ds, w.referenced d.1 = true ∧ w'.referenced d.1 = false) (hnodup : (ds.map Prod.fst).Nodup) :
    Lifetime.Held w'.outOfCalls (doomed (Function.update ls t (l, ⟨xs, [], ds⟩))) := by
  rw [doomed_update]
  refine Lifetime.Held.drop hS.held rfl rfl rfl hsocks hsock ?_ href hds hnodup
  rintro t x ⟨n, c, hc, -⟩
  cases hc

/-- A call that takes no reference away, and makes none to an object without one. -/
theorem Safe.mono {l : Ownership.Local} {l' : Local} (hS : Safe w ls) (hl : l'.dying = (ls t).2.dying)
    (hle : ∀ x, w.userRefs x ≤ w'.userRefs x) (href : ∀ x, w'.referenced x = true → w.referenced x = true)
    (hsocks : ∀ x, (w'.socks x).isSome = (w.socks x).isSome) (hsock : w'.nextSock = w.nextSock) :
    Lifetime.Held w'.outOfCalls (doomed (Function.update ls t (l, l'))) := by
  rw [doomed_update]
  exact Lifetime.Held.mono hS.held (Lifetime.same_update ⟨rfl, hl⟩) rfl rfl rfl
    (fun x hx => Nat.lt_of_lt_of_le hx (hle x)) href hsocks hsock

/-- What is deleted is there. -/
theorem has_delete {l : Ownership.Local} {i : DataId} (hpre : (Ownership.logic m).pre l (.deleteIOData i)) :
    ∃ d, l.Has i d := by
  rcases hpre with ⟨f, d, hf, hs⟩ | ⟨hf, j, d, hj, hi, hd, -⟩
  · exact ⟨d, .inl ⟨f, hf, hs⟩⟩
  · exact ⟨d, .inr ⟨hf, j, hj, hi, hd⟩⟩

theorem deleteIOData_dead {i : DataId} {d : IOData} (hheap : w.heap i = .live d) :
    (w.deleteIOData i).1 = (w.deleteIOData i).2.dead d.refs := by
  show (if (w.heap i).isLive then (w.deleteIOData i).2.dead (w.heap i).get.refs else []) = _
  rw [hheap]
  rfl

/-- **A call destroys no object that is referred to, and refers to none that is gone.** -/
theorem Safe.held_run (hS : Safe w ls) (hI : Ownership.Inv m w fun t => (ls t).1)
    (hpre : (Ownership.logic m).pre (ls t).1 o) (hpre' : logic.pre (ls t).2 o) (hu : w.holdsRefs o = true) (a : Ans) :
    Lifetime.Held (w.reply t o a).2.outOfCalls (doomed (Function.update ls t
      (((Ownership.logic m).prod logic).post (ls t) o (w.reply t o a).1))) := by
  have hhas : ∀ {i d}, (ls t).1.Has i d → ∀ x ∈ d.refs, w.referenced x = true := fun h =>
    referenced_has (g := fun t => (ls t).1) hI h
  cases o with
  | enter c =>
    refine hS.mono (congrArg Local.dying hpre').symm (fun x => Nat.le_add_right ..) (fun x => ?_) (fun _ => rfl) rfl
    exact World.referenced_addRefs fun y hy =>
      World.referenced_of_userRefs (of_decide_eq_true (List.all_eq_true.mp hu y hy))
  | leave n r => exact hS.mono hpre'.symm (fun _ => le_rfl) (fun _ => id) (fun _ => rfl) rfl
  | makeSocket =>
    show Lifetime.Held _ (doomed (Function.update ls t (_, _)))
    rw [doomed_update]
    exact (Function.update_eq_self t (doomed ls)).symm ▸ Lifetime.Held.makeSocket hS.held
  | copyRef x =>
    refine hS.mono rfl (fun y => Nat.le_add_right ..) (fun y => World.referenced_addRefs fun z hz => ?_)
      (fun _ => rfl) rfl
    rw [List.mem_singleton.mp hz]
    exact World.referenced_of_userRefs (of_decide_eq_true hu)
  | dropRef x =>
    refine hS.drop rfl rfl (fun y => World.referenced_dropRef (of_decide_eq_true hu)) (fun d hd => ?_)
      (World.nodup_dead ..)
    obtain ⟨hx, hr, -⟩ := World.mem_dead.mp hd
    exact ⟨World.referenced_of_userRefs (List.mem_singleton.mp hx ▸ of_decide_eq_true hu), hr⟩
  | deleteIOData i =>
    obtain ⟨d, hd⟩ := has_delete hpre
    have hdead := deleteIOData_dead (hI.live hd).1
    refine hS.drop rfl rfl (fun y => World.referenced_deleteIOData) (fun d' hd' => ?_) ?_
    · obtain ⟨hx, hr, -⟩ := World.mem_dead.mp (hdead ▸ hd')
      exact ⟨hhas hd _ hx, hr⟩
    · show ((w.deleteIOData i).1.map Prod.fst).Nodup
      rw [hdead]
      exact World.nodup_dead ..
  | destroyed x =>
    obtain ⟨d, ds, hd, rfl⟩ := hpre'
    show Lifetime.Held _ (doomed (Function.update ls t (_, _)))
    rw [doomed_update]
    exact Lifetime.Held.destroyed hS.held hd rfl (congrArg List.tail hd)
  | writeSocket x f =>
    exact hS.mono rfl (fun _ => le_rfl) (fun _ => id) Lifetime.isSome_setSocket rfl
  | createThreadpoolIo x s =>
    exact hS.mono rfl (fun _ => le_rfl) (fun _ => id) Lifetime.isSome_setSocket rfl
  | newIOData d =>
    obtain ⟨f, hf, -, hstart, -⟩ := hpre
    refine hS.mono rfl (fun _ => le_rfl) (fun x => World.referenced_newIOData fun y hy => ?_) (fun _ => rfl) rfl
    exact World.referenced_of_userRefs (hS.userRefs_pos hI hf (Lifetime.refs_start hstart y hy))
  | writeIOData i d =>
    obtain ⟨d₀, h₀, -, hrefs⟩ := has_write hpre
    refine hS.mono rfl (fun _ => le_rfl) (fun x => ?_) (fun _ => rfl) rfl
    exact @World.referenced_map w (w.writeIOData i d) i x (fun _ => d) rfl rfl
      (fun _ hy => World.referenced_of_userRefs hy) fun _ _ y hy => hhas h₀ y (hrefs ▸ hy)
  | invoke i f args =>
    obtain ⟨hf, j, d, hj, hi, hd, -, -, rfl, -⟩ := hpre
    have hd' : (ls t).1.Has i d := .inr ⟨hf, j, hj, hi, hd⟩
    refine hS.mono rfl (fun _ => Nat.le_add_right ..) (fun x => ?_) (fun _ => rfl) rfl
    refine @World.referenced_map w (w.invoke i f d.args) i x World.moveAccept rfl rfl (fun y hy => ?_)
      fun d₁ hd₁ y hy => ?_
    · exact World.referenced_addRefs (fun z hz => hhas hd' z (Lifetime.refs_args d z hz))
        (World.referenced_of_userRefs hy)
    · exact Lifetime.Known.referenced (Lifetime.live_of hI) hd₁ y (Lifetime.refs_moveAccept d₁ y hy)
  | closeThreadpoolCleanupGroupMembers g =>
    cases g <;> exact hS.mono rfl (fun _ => le_rfl) (fun _ => id) (fun _ => rfl) rfl
  | _ =>
    cases w
    exact hS.mono rfl (fun _ => le_rfl) (fun _ => id) (fun _ => rfl) rfl

/-- A `shared_ptr` that is dropped is not one that a call in progress was made with. -/
def mayDrop (w : World) : Op → Bool
  | .dropRef x => decide (w.lent x < w.userRefs x)
  | _ => true

/-- The condition on a run. -/
def guard : RunGuard := .ofBool (fun w _ o _ => mayDrop w o) fun _ _ => true

theorem Safe.lent_run (hS : Safe w ls) (hg : mayDrop w o = true) (a : Ans) (x : SockId) :
    (w.reply t o a).2.lent x ≤ (w.reply t o a).2.userRefs x := by
  have hsame : ∀ {w' : World}, w'.calls = w.calls → w'.results = w.results → w'.nextCall = w.nextCall →
      w.userRefs x ≤ w'.userRefs x → w'.lent x ≤ w'.userRefs x := by
    intro w' hcalls hresults hnext hle
    rw [World.lent_eq hcalls hresults hnext]
    exact (hS.lent x).trans hle
  cases o with
  | enter c => exact (World.lent_enterCall t c).trans (Nat.add_le_add_right (hS.lent x) _)
  | leave n r => exact (World.lent_leaveCall t n r).trans (hS.lent x)
  | makeSocket => exact hsame rfl rfl rfl (Nat.le_add_right ..)
  | copyRef y => exact hsame rfl rfl rfl (Nat.le_add_right ..)
  | invoke i f args => exact hsame rfl rfl rfl (Nat.le_add_right ..)
  | dropRef y =>
    by_cases hxy : x = y
    · have hlt : w.lent x < w.userRefs x := hxy ▸ of_decide_eq_true hg
      have huser : (w.dropRef y).userRefs x = w.userRefs x - 1 := by
        rw [hxy]
        exact Function.update_self ..
      show (w.dropRef y).lent x ≤ (w.dropRef y).userRefs x
      rw [huser, World.lent_eq rfl rfl rfl]
      exact Nat.le_sub_one_of_lt hlt
    · have huser : (w.dropRef y).userRefs x = w.userRefs x := Function.update_of_ne hxy ..
      exact hsame rfl rfl rfl (Nat.le_of_eq huser.symm)
  | closeThreadpoolCleanupGroupMembers g => cases g <;> exact hsame rfl rfl rfl le_rfl
  | _ => exact hsame rfl rfl rfl le_rfl

theorem Safe.event {n : ℕ} {e : Event} {p : Option (Prog Unit)} {l : Ownership.Local} (hS : Safe w ls)
    (hlive : ∀ i, (w.heap i).isLive = true → i < w.nextData) (hn : (ls n).2 = idle)
    (he : w.event n e = some (w', p)) : Safe w' (Function.update ls n (l, idle)) := by
  have hcovers : ∀ t, Covers (Function.update ls n (l, idle) t).1 (Function.update ls n (l, idle) t).2 := by
    intro t
    by_cases ht : t = n
    · rw [ht, Function.update_self]
      exact covers_idle l
    · rw [Function.update_of_ne ht]
      exact hS.covers t
  have hdoomed : doomed (Function.update ls n (l, idle)) = doomed ls := by
    rw [doomed_update]
    have hself : doomed ls n = ⟨none, none, none, []⟩ := by rw [doomed, hn]
    rw [← hself, Function.update_eq_self]
  refine ⟨hcovers, ?_, ?_⟩
  · rw [hdoomed]
    cases World.event_step he with
    | @complete k e c hk =>
      refine Lifetime.Held.mono hS.held (fun _ => ⟨rfl, rfl⟩) rfl rfl rfl (fun _ => id) (fun x => ?_)
        (fun _ => rfl) rfl
      refine @World.referenced_map w (w.complete k e c) e.data x (·.fill c) rfl rfl
        (fun _ hy => World.referenced_of_userRefs hy) fun d hd y hy => ?_
      rw [Lifetime.refs_fill] at hy
      exact Lifetime.Known.referenced hlive hd y hy
    | _ => exact Lifetime.Held.mono hS.held (fun _ => ⟨rfl, rfl⟩) rfl rfl rfl (fun _ => id) (fun _ => id) (fun _ => rfl) rfl
  · cases World.event_step he <;> exact hS.lent

/-- **Each step keeps it.** -/
theorem proof : machine.Proof ((Ownership.logic Ownership.anyMode).prod logic) guard (⟨none, none, none⟩, idle)
    fun w ls => Ownership.Inv Ownership.anyMode w (fun t => (ls t).1) ∧ Safe w ls := by
  have hown := ((Ownership.proof Ownership.anyMode).guard Ownership.guard_anyMode_le).guard (Guard.free_le guard)
  refine hown.prod ?_ ?_
  · intro w ls t o a hI hS hpre hpre' hg hr _
    have hrefs : w.holdsRefs o = true := (Bool.and_eq_true_iff.mp hr).1
    refine ⟨?_, fun t' => ?_, hS.held_run hI hpre hpre' hrefs a, hS.lent_run hg a⟩
    · cases o with
      | readIOData i =>
        obtain ⟨d, hd⟩ := hpre
        have hheap : w.heap i = .live d := (hI.live hd).1
        show ∀ x ∈ (ls t).2.data, x ∈ (w.heap i).get.refs
        rw [hheap]
        exact (hS.covers t).given hd
      | _ => trivial
    · by_cases ht : t' = t
      · rw [ht, Function.update_self]
        exact Covers.run (g := fun t => (ls t).1) (hS.covers t) hI hpre a
      · rw [Function.update_of_ne ht]
        exact hS.covers t'
  · intro w ls n e w' p l hI hS hn _ he
    exact ⟨idle, hS.event (Lifetime.live_of hI) (congrArg Prod.snd hn) he, fun _ => rfl, wp_event he⟩

theorem safe_start (conf : IOCoreConfig) : Safe (World.start conf) fun _ => (⟨none, none, none⟩, idle) where
  covers _ := covers_idle _
  held := ⟨fun _ => rfl, nofun, fun _ _ _ h => (Lifetime.Local.owns_idle h).elim,
    fun _ _ h => (Lifetime.Local.owns_idle (.inl h)).elim, fun _ _ h => (Lifetime.Local.owns_idle (.inr h)).elim,
    fun _ => List.nodup_nil, nofun, fun _ _ => rfl⟩
  lent _ := le_rfl

end Objects

/-- **No function of the library touches an object that is gone**, in a run that meets the condition: what it
reads or assigns to is there and referred to, and so is what a handler is given; and an object is destroyed once,
when nothing refers to it. -/
theorem socket_alive {conf : IOCoreConfig} {s : State} {t : ℕ} {o : Op} {k : Res o → Prog Unit}
    (h : machine.Reach Objects.guard (State.start conf) s) (ht : s.threads[t]? = some (.call o k)) :
    (∀ x, o.touches = some x → s.w.referenced x = true ∧ (s.w.socks x).isSome = true) ∧
      (∀ i f args, o = .invoke i f args → ∀ x ∈ args.refs,
        s.w.referenced x = true ∧ (s.w.socks x).isSome = true) ∧
        ∀ x, o = .destroyed x → s.w.referenced x = false ∧ (s.w.socks x).isSome = true := by
  obtain ⟨ls, ⟨hI, hS⟩, hpre, hpre'⟩ :=
    (Objects.proof.holds ⟨Ownership.Inv.start Ownership.anyMode conf, Objects.safe_start conf⟩ h).pre ht
  have hthere : ∀ {x}, s.w.referenced x = true → s.w.referenced x = true ∧ (s.w.socks x).isSome = true :=
    fun hx => ⟨hx, hS.held.there _ hx⟩
  refine ⟨fun x hx => hthere (hS.referenced (t := t) hI ?_), fun i f args ho x hx => ?_, fun x ho => ?_⟩
  · cases o with
    | readSocket y => cases hx; exact hpre'
    | readIoHandle y => cases hx; exact hpre'
    | writeSocket y f => cases hx; exact hpre'
    | createThreadpoolIo y n => cases hx; exact hpre'
    | _ => cases hx
  · subst ho
    obtain ⟨hf, j, d, hj, hi, hd, -, -, rfl, -⟩ := hpre
    exact hthere (Objects.referenced_has (g := fun t => (ls t).1) hI (.inr ⟨hf, j, hj, hi, hd⟩) x
      (Lifetime.refs_args d x hx))
  · subst ho
    obtain ⟨d, ds, hd, rfl⟩ := hpre'
    have hmem : d ∈ (ls t).2.dying := hd ▸ List.mem_cons_self
    exact hS.held.gone t d.1 ⟨d, hmem, rfl⟩

/-- The object that a thread is about to touch. -/
def nextTouch : Prog Unit → Option SockId
  | .call o _ => o.touches
  | .ret _ => none

theorem call_of_nextTouch {p : Prog Unit} {x : SockId} (h : nextTouch p = some x) :
    ∃ o k, p = .call o k ∧ o.touches = some x := by
  cases p with
  | call o k => exact ⟨o, k, rfl, h⟩
  | ret a => cases h

/-- User code lets go of a socket that is connecting, and `socket_io_routine` finds the object. -/
theorem socket_alive_connecting : ∃ s : State, machine.Reach Objects.guard (State.start ⟨0, 0, 0, 0⟩) s ∧
    s.w.userRefs 0 = 0 ∧ s.w.referenced 0 = true ∧ (s.w.socks 0).isSome = true := by
  obtain ⟨s, hs, hp⟩ := Machine.exists_reach_of_fire (m := machine) (g := Objects.guard)
    (s := State.start ⟨0, 0, 0, 0⟩) (P := fun s => decide (s.w.userRefs 0 = 0) &&
      decide ((s.threads[1]?).bind nextTouch = some 0)) Machine.allows_checks
    (l := .env (.spawn [.create, .socket 0 .ipv4 .stream .tcp,
        .startConnect 0 (.ofIPv4 (.any 0) zeroMemory) (some 7), .dropRef 0]) ::
      List.replicate 26 (.run 0 {}) ++ [.env (.complete 0 ⟨0, 0, none, zeroMemory⟩), .env (.dispatchIo 0),
        .run 1 {}, .run 1 {}]) (by decide +kernel)
  obtain ⟨huser, htouch⟩ := Bool.and_eq_true_iff.mp hp
  obtain ⟨p, ht, hx⟩ := Option.bind_eq_some_iff.mp (of_decide_eq_true htouch)
  obtain ⟨o, k, rfl, ho⟩ := call_of_nextTouch hx
  exact ⟨s, hs, of_decide_eq_true huser, (socket_alive hs ht).1 0 ho⟩

end FirelinkNet
