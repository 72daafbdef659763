import FirelinkNet.System

/-!
# Knowledge that programs give back

Much of what there is to know about a thread is known only within one function:
that it waits for a TP_IO, say, or that it is closing a pool. A logic of such
knowledge is given back by each block of calls on a TP_IO (`Blocks`), or is `Tame`: the calls
that no such result follows (`Op.Plain`) leave the knowledge as it is, destructors
and `close` give it back, and a call of the interface gives back at its end what it
was given at its start.

## What is proved

* `Blocks.run`, `Blocks.socketIoRoutine`, `Blocks.runClosure` — **everything that user
  code and the pools do gives the knowledge back**. A result about one of the
  functions that are followed then needs no proof about the others.
* `Tame.blocks` — a tame logic is one of these.
-/

namespace FirelinkNet

open Lib

/-! ### Calls that are not followed -/

/-- A sort of calls. -/
inductive OpSort where
  /-- Calls that leave every knowledge as it is. -/
  | quiet
  /-- Calls on an `IOData`, on a closure, or within an operation of a TP_IO. -/
  | data
  /-- Calls on the core and its pools. -/
  | core
  /-- Calls that begin or end a piece of knowledge, or drop a reference. -/
  | followed
  deriving DecidableEq

/-- The sort of a call. -/
def Op.sort : Op → OpSort
  | .newIOData _ | .readIOData _ | .writeIOData _ _ | .invoke _ _ _ | .newFunc _ | .invokeFunc _
  | .deleteFunc _ | .trySubmitThreadpoolCallback _ _ _ | .startThreadpoolIo _
  | .cancelThreadpoolIo _ | .overlapped _ _ _ => .data
  | .readCore | .writeSlot _ _ | .exchangeStop _
  | .initializeThreadpoolEnvironment _ | .createThreadpool | .setThreadpoolThreadMaximum _ _
  | .setThreadpoolThreadMinimum _ _ | .createThreadpoolCleanupGroup | .setThreadpoolCallbackPool _ _
  | .setThreadpoolCallbackCleanupGroup _ _ | .createThread _ | .waitForSingleObject _ _
  | .closeHandle _ | .closeThreadpoolCleanupGroupMembers _ | .closedThreadpoolCleanupGroupMembers _
  | .exitThread _ | .closeThreadpoolCleanupGroup _ | .closeThreadpool _
  | .destroyThreadpoolEnvironment _ => .core
  | .enter _ | .leave _ _ | .dropRef _ | .deleteIOData _ | .callbackReturn
  | .waitForThreadpoolIoCallbacks _ | .waitedForThreadpoolIoCallbacks _
  | .closeThreadpoolIo _ | .makeCore _ | .destroyCore => .followed
  | _ => .quiet

/-- A call that leaves every knowledge as it is. -/
def Op.Quiet (o : Op) : Prop := o.sort = .quiet

/-- A call that is not followed, and not of the core. -/
def Op.Plain (o : Op) : Prop := (match o.sort with | .quiet | .data => true | _ => false) = true

/-- A call that is not followed, and concerns no operation. -/
def Op.Aside (o : Op) : Prop := (match o.sort with | .quiet | .core => true | _ => false) = true

/-- A call that is not followed. -/
def Op.Unfollowed (o : Op) : Prop := o.sort ≠ .followed

/-- A call that concerns no TP_IO, and leaves the members `socket_io_handle_` alone. -/
def Op.Apart : Op → Prop
  | .writeSocket _ f => ∀ s, (f s).socketIoHandle = s.socketIoHandle
  | .readIoHandle _ | .createThreadpoolIo _ _ | .destroyed _ | .startThreadpoolIo _
  | .cancelThreadpoolIo _ | .overlapped _ _ _ => False
  | _ => True

/-- A quiet call that concerns no TP_IO. -/
def Op.Still (o : Op) : Prop := o.Quiet ∧ o.Apart

/-- A plain call that concerns no TP_IO. -/
def Op.Mild (o : Op) : Prop := o.Plain ∧ o.Apart

/-- A call that only reads. -/
def Op.Reads : Op → Prop
  | .readSocket _ | .readIOData _ => True
  | _ => False

/-- A call of the function that opens a TP_IO for `x`. -/
def Op.Opens (x : SockId) (o : Op) : Prop := o.Still ∨ ∃ s, o = .createThreadpoolIo x s

/-- A call that setting up the core, or releasing it, makes, on no socket. -/
def Op.OfCore (o : Op) : Prop :=
  (match o with
    | .wsaStartup _ | .wsaCleanup | .getLastError => true
    | o => decide (o.sort = .core)) = true

theorem Op.Quiet.plain {o : Op} (h : o.Quiet) : o.Plain := by
  unfold Op.Plain
  rw [h]

theorem Op.Quiet.aside {o : Op} (h : o.Quiet) : o.Aside := by
  unfold Op.Aside
  rw [h]

theorem Op.Still.mild {o : Op} (h : o.Still) : o.Mild := ⟨h.1.plain, h.2⟩

theorem Op.Reads.plain {o : Op} (h : o.Reads) : o.Plain := by
  cases o <;> first | rfl | exact h.elim

theorem Op.Opens.quiet {x : SockId} {o : Op} (h : o.Opens x) : o.Quiet := by
  rcases h with h | ⟨s, rfl⟩
  · exact h.1
  · rfl

theorem Op.OfCore.aside {o : Op} (h : o.OfCore) : o.Aside := by
  cases o <;> first | rfl | cases h

theorem Op.Plain.unfollowed {o : Op} (h : o.Plain) : o.Unfollowed := by
  intro hs
  rw [Op.Plain, hs] at h
  cases h

theorem Op.Aside.unfollowed {o : Op} (h : o.Aside) : o.Unfollowed := by
  intro hs
  rw [Op.Aside, hs] at h
  cases h

namespace WinIOCore

theorem mild_postWork (k : PoolKind) (c : Closure) : (postWork k c).All Op.Mild := by
  refine ⟨⟨rfl, trivial⟩, fun f => ⟨⟨rfl, trivial⟩, fun ok => ?_⟩⟩
  cases ok with
  | true => exact trivial
  | false => exact ⟨⟨rfl, trivial⟩, fun _ => ⟨⟨rfl, trivial⟩, fun _ => trivial⟩⟩

theorem ofCore_initializeThreadpool (a b : UInt32) (k : PoolKind) :
    (initializeThreadpool a b k).All Op.OfCore := by
  refine ⟨rfl, fun _ => ⟨rfl, fun _ => ⟨rfl, fun r => ?_⟩⟩⟩
  rcases r with e | p
  · exact ⟨rfl, fun _ => trivial⟩
  refine ⟨rfl, fun _ => ⟨rfl, fun _ => ⟨rfl, fun r => ?_⟩⟩⟩
  rcases r with e | _
  · exact trivial
  refine ⟨rfl, fun r => ?_⟩
  rcases r with e | g
  · exact ⟨rfl, fun _ => trivial⟩
  · exact ⟨rfl, fun _ => ⟨rfl, fun _ => ⟨rfl, fun _ => trivial⟩⟩⟩

theorem aside_lookupExtFns (s : NativeHandle) (fns : List ExtFn) :
    (lookupExtFns s fns).All Op.Aside := by
  induction fns with
  | nil => exact trivial
  | cons fn fns ih =>
    refine ⟨rfl, fun found => ?_⟩
    cases found with
    | true => exact ih
    | false =>
      refine ⟨rfl, fun r => ?_⟩
      rcases r with e | _
      · exact ⟨rfl, fun _ => trivial⟩
      · exact ih

theorem aside_getExtendedSocketFunctions :
    getExtendedSocketFunctions.All Op.Aside := by
  refine ⟨rfl, fun r => ?_⟩
  rcases r with e | s
  · exact trivial
  refine (aside_lookupExtFns _ _).bind fun found => ?_
  cases found with
  | some e => exact trivial
  | none =>
    refine ⟨rfl, fun r => ?_⟩
    rcases r with e | _ <;> exact trivial

theorem aside_initializeCore : initializeCore.All Op.Aside := by
  refine ⟨rfl, fun r => ?_⟩
  rcases r with e | v
  · exact trivial
  show Lib.Prog.All _ (if v ≠ _ then _ else _)
  split
  · exact trivial
  refine aside_getExtendedSocketFunctions.bind fun e => ?_
  split
  · exact trivial
  refine ⟨rfl, fun c => ((ofCore_initializeThreadpool _ _ _).mono fun _ => Op.OfCore.aside).bind fun e => ?_⟩
  split
  · exact trivial
  refine ((ofCore_initializeThreadpool _ _ _).mono fun _ => Op.OfCore.aside).bind fun e => ?_
  split
  · exact trivial
  · exact ⟨rfl, fun _ => trivial⟩

theorem ofCore_cleanupThread (k : ℕ) (g : Option GroupId) :
    (cleanupThread k g).All Op.OfCore :=
  ⟨rfl, fun _ => ⟨rfl, fun _ => ⟨rfl, fun _ => trivial⟩⟩⟩

theorem ofCore_joinCleanupThread (ms : UInt32) (g : Option GroupId) :
    (joinCleanupThread ms g).All Op.OfCore := by
  refine ⟨rfl, fun r => ?_⟩
  rcases r with e | k
  · exact ⟨rfl, fun _ => trivial⟩
  refine ⟨rfl, fun res => ⟨rfl, fun _ => ?_⟩⟩
  cases res with
  | failed e => exact ⟨rfl, fun _ => trivial⟩
  | _ => exact trivial

theorem ofCore_releasePool (k : PoolKind) (p : Option PoolId) :
    (releasePool k p).All Op.OfCore :=
  ⟨rfl, fun _ => ⟨rfl, fun _ => ⟨rfl, fun _ => ⟨rfl, fun _ => trivial⟩⟩⟩⟩

theorem ofCore_releaseGroup (ms : UInt32) (k : PoolKind) (g : Option GroupId)
    (p : Option PoolId) : (releaseGroup ms k g p).All Op.OfCore :=
  (ofCore_joinCleanupThread ms g).bind fun _ =>
    ⟨rfl, fun _ => ⟨rfl, fun _ => (ofCore_releasePool k p).bind fun _ => trivial⟩⟩

theorem ofCore_releaseThreadpool (ms : UInt32) (k : PoolKind) (g : Option GroupId)
    (p : Option PoolId) : (releaseThreadpool ms k g p).All Op.OfCore := by
  rw [releaseThreadpool, Prog.op_bind]
  refine ⟨rfl, fun c => ?_⟩
  dsimp only
  split
  · exact (ofCore_releaseGroup ms k g p).bind fun _ => ⟨rfl, fun _ => trivial⟩
  · exact (ofCore_releasePool k p).bind fun _ => ⟨rfl, fun _ => trivial⟩
  · exact ⟨rfl, fun _ => ⟨rfl, fun _ => ⟨rfl, fun _ => trivial⟩⟩⟩
  · exact ⟨rfl, fun _ => trivial⟩

theorem ofCore_releaseCore : releaseCore.All Op.OfCore := by
  refine ⟨rfl, fun c => (ofCore_releaseThreadpool _ _ _ _).bind fun e => ?_⟩
  split
  · exact trivial
  refine ⟨rfl, fun c => (ofCore_releaseThreadpool _ _ _ _).bind fun e => ?_⟩
  split
  · exact trivial
  refine ⟨rfl, fun r => ?_⟩
  rcases r with e | _ <;> exact trivial

theorem aside_cleanupThread (k : ℕ) (g : Option GroupId) : (cleanupThread k g).All Op.Aside :=
  (ofCore_cleanupThread k g).mono fun _ => Op.OfCore.aside

theorem aside_releaseCore : releaseCore.All Op.Aside :=
  ofCore_releaseCore.mono fun _ => Op.OfCore.aside

end WinIOCore

namespace WinSocket

theorem opens_socket (x : SockId) (af : AddressFamily) (ty : SocketType) (pr : Protocol) :
    (socket x af ty pr).All (Op.Opens x) := by
  have hwrite : ∀ f : WinSocket → WinSocket, (∀ s, (f s).socketIoHandle = s.socketIoHandle) →
      Op.Opens x (.writeSocket x f) := fun f hf => .inl ⟨rfl, hf⟩
  refine ⟨.inl ⟨rfl, trivial⟩, fun r => ?_⟩
  rcases r with e | h
  · exact ⟨hwrite _ fun _ => rfl, fun _ => trivial⟩
  refine ⟨hwrite _ fun _ => rfl, fun _ => ⟨.inl ⟨rfl, trivial⟩, fun alive => ?_⟩⟩
  cases alive with
  | false => exact ⟨.inl ⟨rfl, trivial⟩, fun _ => ⟨hwrite _ fun _ => rfl, fun _ => trivial⟩⟩
  | true =>
    refine ⟨.inr ⟨_, rfl⟩, fun r => ?_⟩
    rcases r with e | _
    · exact ⟨.inl ⟨rfl, trivial⟩, fun _ => ⟨hwrite _ fun _ => rfl, fun _ => trivial⟩⟩
    · exact ⟨hwrite _ fun _ => rfl, fun _ => trivial⟩

theorem still_bind (x : SockId) (ep : Endpoint) : (bind x ep).All Op.Still := by
  rw [bind, Prog.op_bind]
  refine ⟨⟨rfl, trivial⟩, fun s => ?_⟩
  dsimp only
  split
  · exact trivial
  refine ⟨⟨rfl, trivial⟩, fun s => ⟨⟨rfl, trivial⟩, fun r => ?_⟩⟩
  rcases r with e | _
  · exact trivial
  · exact ⟨⟨rfl, fun _ => rfl⟩, fun _ => trivial⟩

theorem still_connect (x : SockId) (dst : Endpoint) : (connect x dst).All Op.Still := by
  rw [connect, Prog.op_bind]
  refine ⟨⟨rfl, trivial⟩, fun s => ?_⟩
  dsimp only
  split
  · exact trivial
  refine ⟨⟨rfl, trivial⟩, fun s => ⟨⟨rfl, trivial⟩, fun r => ?_⟩⟩
  rcases r with e | _
  · exact trivial
  · exact ⟨⟨rfl, fun _ => rfl⟩, fun _ => trivial⟩

theorem still_sendTo (x : SockId) (b : Span) (dst : Endpoint) : (sendTo x b dst).All Op.Still := by
  rw [sendTo, Prog.op_bind]
  refine ⟨⟨rfl, trivial⟩, fun s => ?_⟩
  dsimp only
  split
  · exact trivial
  refine ⟨⟨rfl, trivial⟩, fun s => ⟨⟨rfl, trivial⟩, fun r => ?_⟩⟩
  rcases r with e | _
  · exact trivial
  · exact ⟨⟨rfl, fun _ => rfl⟩, fun _ => trivial⟩

theorem still_closeNative (x : SockId) : (closeNative x).All Op.Still := by
  rw [closeNative, Prog.op_bind]
  refine ⟨⟨rfl, trivial⟩, fun s => ?_⟩
  dsimp only
  split
  · refine ⟨⟨rfl, trivial⟩, fun r => ?_⟩
    rcases r with e | _ <;> exact ⟨⟨rfl, fun _ => rfl⟩, fun _ => trivial⟩
  · exact ⟨⟨rfl, fun _ => rfl⟩, fun _ => trivial⟩

theorem still_bindForConnect (x : SockId) (any : Endpoint) :
    (bindForConnect x any).All Op.Still := by
  rw [bindForConnect, Prog.op_bind]
  refine ⟨⟨rfl, trivial⟩, fun s => ?_⟩
  dsimp only
  split
  · exact trivial
  · exact still_bind x any

theorem mild_noteError (i : DataId) (e : ErrorCode) : (noteError i e).All Op.Mild := by
  unfold noteError
  split
  · refine ⟨⟨rfl, trivial⟩, fun d => ?_⟩
    show Lib.Prog.All _ (if d.errorCode = _ then _ else _)
    split
    · exact ⟨⟨rfl, trivial⟩, fun _ => trivial⟩
    · exact trivial
  · exact trivial

theorem still_updateAcceptSocketContext (x a : SockId) :
    (updateAcceptSocketContext x a).All Op.Still := by
  refine ⟨⟨rfl, trivial⟩, fun _ => ⟨⟨rfl, trivial⟩, fun _ => ⟨⟨rfl, trivial⟩, fun r => ?_⟩⟩⟩
  rcases r with e | _ <;> exact trivial

theorem still_updateConnectSocketContext (x : SockId) :
    (updateConnectSocketContext x).All Op.Still := by
  refine ⟨⟨rfl, trivial⟩, fun _ => ⟨⟨rfl, trivial⟩, fun r => ?_⟩⟩
  rcases r with e | _ <;> exact trivial

theorem mild_getAcceptexSockaddrs (i : DataId) : (getAcceptexSockaddrs i).All Op.Mild := by
  refine ⟨⟨rfl, trivial⟩, fun d => ⟨⟨rfl, trivial⟩, fun r => ?_⟩⟩
  rcases r with _ | ⟨l, p⟩
  · exact trivial
  · exact ⟨⟨rfl, trivial⟩, fun _ => trivial⟩

end WinSocket

/-! ### Knowledge that blocks give back -/

/-- A function of the interface that may close the TP_IO of a socket. -/
def ApiCall.closes : ApiCall → Bool
  | .close _ | .accept _ _ => true
  | _ => false

/-- A function of the interface that sets up or releases the core. -/
def ApiCall.OfCore : ApiCall → Prop
  | .initializeCore | .releaseCore => True
  | _ => False

/-- Where the core is not followed either, setting it up and releasing it leave the knowledge as
it is. -/
theorem ApiCall.OfCore.keeps {L : Type} {lg : Logic Op Res L} {l : L} {c : ApiCall} (hc : c.OfCore)
    (h : ∀ o : Op, o.Aside → lg.pre l o ∧ ∀ r, lg.given l o r → lg.post l o r = l) :
    lg.Keeps c.body l := by
  cases c with
  | initializeCore => exact .of_all WinIOCore.aside_initializeCore h
  | releaseCore => exact .of_all WinIOCore.aside_releaseCore h
  | _ => exact hc.elim

/-- Knowledge that is given back by each block of calls on a TP_IO. `In` holds of what a thread knows
between the blocks, and `Out` when it is not in a call of the interface either. -/
structure Blocks {L : Type} (lg : Logic Op Res L) (In Out : L → Prop) : Prop where
  /-- Calls that concern no TP_IO leave it as it is. -/
  mild : ∀ {l o}, In l → o.Mild → lg.pre l o ∧ ∀ r, lg.given l o r → lg.post l o r = l
  /-- Dropping a reference gives it back, when the sockets that this destroys are gone. -/
  dropRef : ∀ {l x}, In l → lg.Keeps (op (.dropRef x) >>= WinSocket.destroyAll) l
  /-- So does deleting an `IOData`. -/
  deleteIOData : ∀ {l i}, In l → lg.Keeps (WinSocket.deleteIOData i) l
  /-- A call of the interface can be entered from outside. -/
  out : ∀ {l}, Out l → In l
  enter : ∀ {l c}, Out l → lg.pre l (.enter c) ∧
    ∀ n, lg.given l (.enter c) n → In (lg.post l (.enter c) n)
  /-- Leaving it undoes what entering it did. -/
  leave : ∀ {l c n r}, Out l → lg.given l (.enter c) n → ¬ c.OfCore →
    lg.pre (lg.post l (.enter c) n) (.leave n r) ∧
      lg.post (lg.post l (.enter c) n) (.leave n r) () = l
  /-- Within a call on a socket, a TP_IO can be opened for it, -/
  create : ∀ {l c n x s}, Out l → lg.given l (.enter c) n → x ∈ c.sockets →
    lg.Keeps (op (.createThreadpoolIo x s)) (lg.post l (.enter c) n)
  /-- an operation can be started on it, -/
  startIo : ∀ {l c n x i request}, Out l → lg.given l (.enter c) n → x ∈ c.sockets →
    request.All Op.Reads → lg.Keeps (WinSocket.startIo x i request) (lg.post l (.enter c) n)
  /-- and in some of the calls it can be closed. -/
  close : ∀ {l c n x}, Out l → lg.given l (.enter c) n → c.closes = true → x ∈ c.sockets →
    lg.Keeps (WinSocket.close x) (lg.post l (.enter c) n)
  /-- Setting up and releasing the core end in knowledge that can be left. -/
  core : ∀ {l c n}, Out l → lg.given l (.enter c) n → c.OfCore →
    lg.wp c.body (fun r l' => lg.pre l' (.leave n r) ∧ lg.post l' (.leave n r) () = l)
      (lg.post l (.enter c) n)

namespace Blocks

variable {L : Type} {lg : Logic Op Res L} {In Out : L → Prop} {l : L} (h : Blocks lg In Out)

include h

theorem of_mild {α : Type} {p : Prog α} (hl : In l) (hp : p.All Op.Mild) : lg.Keeps p l :=
  .of_all hp fun _ ho => h.mild hl ho

theorem of_still {α : Type} {p : Prog α} (hl : In l) (hp : p.All Op.Still) : lg.Keeps p l :=
  h.of_mild hl (hp.mono fun _ => Op.Still.mild)

theorem call {α : Type} {o : Op} {f : Res o → Prog α} (hl : In l) (ho : o.Plain) (ha : o.Apart)
    (hf : ∀ r, lg.Keeps (f r) l) : lg.Keeps (op o >>= f) l :=
  (h.of_mild hl (Prog.all_op.mpr ⟨ho, ha⟩)).bind hf

theorem dropRefs (hl : In l) (xs : List SockId) : lg.Keeps (WinSocket.dropRefs xs) l := by
  induction xs with
  | nil => exact lg.keeps_pure () l
  | cons x xs ih => exact (h.dropRef hl).bind fun _ => ih

section Call

variable {c : ApiCall} {n : CallId} (ho : Out l) (hn : lg.given l (.enter c) n)

include ho hn

theorem inside : In (lg.post l (.enter c) n) := (h.enter ho).2 n hn

theorem socket {x : SockId} (hx : x ∈ c.sockets) (af : AddressFamily) (ty : SocketType)
    (pr : Protocol) : lg.Keeps (WinSocket.socket x af ty pr) (lg.post l (.enter c) n) := by
  refine .of_all (WinSocket.opens_socket x af ty pr) fun o hop => ?_
  rcases hop with hop | ⟨s, rfl⟩
  · exact h.mild (h.inside ho hn) hop.mild
  · exact h.create ho hn hx

theorem startAccept {x a : SockId} (hx : x ∈ c.sockets) (ha : a ∈ c.sockets) (f : Option ℕ) :
    lg.Keeps (WinSocket.startAccept x a f) (lg.post l (.enter c) n) := by
  have hl := h.inside ho hn
  have hio : lg.Keeps (WinSocket.startAcceptIo x a f) (lg.post l (.enter c) n) :=
    h.call hl rfl trivial fun i => h.startIo ho hn hx
      ⟨trivial, fun _ => ⟨trivial, fun _ => ⟨trivial, fun _ => trivial⟩⟩⟩
  refine h.call hl rfl trivial fun s => ?_
  split
  · refine h.call hl rfl trivial fun this => (h.socket ho hn ha _ _ _).bind fun e => ?_
    split
    · exact lg.keeps_pure _ _
    · exact hio
  · exact hio

theorem startConnect {x : SockId} (hx : x ∈ c.sockets) (dst : Endpoint) (f : Option ℕ) :
    lg.Keeps (WinSocket.startConnect x dst f) (lg.post l (.enter c) n) := by
  have hl := h.inside ho hn
  refine h.call hl rfl trivial fun i => h.call hl rfl trivial fun s => h.call hl rfl trivial fun _ => ?_
  dsimp only
  have hend : ∀ err : ErrorCode, lg.Keeps (if err ≠ .success then pure err else
      WinSocket.startIo x i do
        let d ← op (.readIOData i)
        return .connectEx (← op (.readSocket x)).nativeSocket d.peerWinAddr)
      (lg.post l (.enter c) n) := by
    intro err
    split
    · exact lg.keeps_pure _ _
    · exact h.startIo ho hn hx ⟨trivial, fun _ => ⟨trivial, fun _ => trivial⟩⟩
  split
  · exact lg.keeps_pure _ _
  split
  · exact (h.of_still hl (WinSocket.still_bindForConnect _ _)).bind hend
  split
  · exact (h.of_still hl (WinSocket.still_bindForConnect _ _)).bind hend
  · exact hend .success

theorem startSendTo {x : SockId} (hx : x ∈ c.sockets) (b : Span) (dst : Endpoint) (f : Option ℕ) :
    lg.Keeps (WinSocket.startSendTo x b dst f) (lg.post l (.enter c) n) := by
  have hl := h.inside ho hn
  refine h.call hl rfl trivial fun i => h.call hl rfl trivial fun s => h.call hl rfl trivial fun _ => ?_
  split
  · exact lg.keeps_pure _ _
  · exact h.startIo ho hn hx ⟨trivial, fun _ => ⟨trivial, fun _ => trivial⟩⟩

theorem accept {x a : SockId} (hc : c.closes = true) (ha : a ∈ c.sockets) :
    lg.Keeps (WinSocket.accept x a) (lg.post l (.enter c) n) := by
  have hl := h.inside ho hn
  have hclose := h.close ho hn hc ha
  refine h.call hl rfl trivial fun s => h.call hl rfl trivial fun r => ?_
  rcases r with e | s
  · exact lg.keeps_pure _ _
  refine h.call hl rfl trivial fun r => ?_
  rcases r with e | info
  · exact h.call hl rfl trivial fun _ => lg.keeps_pure _ _
  refine h.call hl rfl (fun _ => rfl) fun _ => h.call hl rfl trivial fun alive => ?_
  cases alive with
  | false => exact hclose.bind fun _ => lg.keeps_pure _ _
  | true =>
    refine (h.create ho hn ha).bind fun r => ?_
    rcases r with e | _
    · exact hclose.bind fun _ => lg.keeps_pure _ _
    · exact h.call hl rfl (fun _ => rfl) fun _ => lg.keeps_pure _ _

/-- The function of a call that does not concern the core. -/
theorem body (hcore : ¬ c.OfCore) : lg.Keeps c.body (lg.post l (.enter c) n) := by
  have hl := h.inside ho hn
  have hstart : ∀ {d x} {k : WinSocket → IoRequest}, x ∈ c.sockets → lg.Keeps (do
      let i ← op (.newIOData d)
      WinSocket.startIo x i do
        return k (← op (.readSocket x))) (lg.post l (.enter c) n) := fun {_ x _} hx =>
    h.call hl rfl trivial fun i => h.startIo ho hn hx ⟨trivial, fun _ => trivial⟩
  cases c with
  | close x => exact h.close ho hn rfl (List.mem_singleton_self x)
  | accept x a => exact h.accept ho hn rfl (List.mem_of_mem_tail (List.mem_singleton_self a))
  | initializeCore => exact (hcore trivial).elim
  | releaseCore => exact (hcore trivial).elim
  | create => exact lg.keeps_pure _ _
  | copyRef x => exact lg.keeps_pure _ _
  | dropRef x => exact lg.keeps_pure _ _
  | socket x af ty pr => exact h.socket ho hn (List.mem_singleton_self x) af ty pr
  | bind x ep => exact h.of_still hl (WinSocket.still_bind x ep)
  | connect x dst => exact h.of_still hl (WinSocket.still_connect x dst)
  | sendTo x b dst =>
    exact h.of_still hl ((WinSocket.still_sendTo x b dst).bind fun _ => trivial)
  | startAccept x a f =>
    exact h.startAccept ho hn List.mem_cons_self (List.mem_of_mem_tail (List.mem_singleton_self a)) f
  | startConnect x dst f => exact h.startConnect ho hn (List.mem_singleton_self x) dst f
  | startRecv x b f => exact hstart (List.mem_singleton_self x)
  | startRecvFrom x b f => exact hstart (List.mem_singleton_self x)
  | startSend x b f => exact hstart (List.mem_singleton_self x)
  | startSendTo x b dst f => exact h.startSendTo ho hn (List.mem_singleton_self x) b dst f
  | startDisconnect x r f => exact hstart (List.mem_singleton_self x)
  | postIoWork n => exact h.of_mild hl (WinIOCore.mild_postWork _ _)
  | postUserWork n => exact h.of_mild hl (WinIOCore.mild_postWork _ _)

end Call

/-- A call of the interface gives the knowledge back. -/
theorem interfaceCall (ho : Out l) (c : ApiCall) :
    lg.Keeps (FirelinkNet.interfaceCall c c.body) l := by
  rw [FirelinkNet.interfaceCall, Prog.op_bind]
  refine ⟨(h.enter ho).1, fun n hn => ?_⟩
  have hbody : lg.wp c.body (fun r l' => lg.pre l' (.leave n r) ∧ lg.post l' (.leave n r) () = l)
      (lg.post l (.enter c) n) := by
    by_cases hcore : c.OfCore
    · exact h.core ho hn hcore
    have hkeep : lg.Keeps c.body (lg.post l (.enter c) n) → lg.wp c.body (fun r l' =>
        lg.pre l' (.leave n r) ∧ lg.post l' (.leave n r) () = l) (lg.post l (.enter c) n) := by
      intro hk
      refine Logic.wp_mono hk ?_
      rintro r _ rfl
      exact h.leave ho hn hcore
    exact hkeep (h.body ho hn hcore)
  refine Logic.wp_bind.mpr (Logic.wp_mono hbody ?_)
  rintro r l' ⟨hpre, hpost⟩
  rw [Prog.op_bind]
  refine ⟨hpre, fun _ _ => ?_⟩
  rw [hpost]
  exact h.dropRefs (h.out ho) _

/-- **What user code does gives the knowledge back.** -/
theorem run (ho : Out l) (c : ApiCall) : lg.Keeps c.run l := by
  cases c with
  | create => exact h.call (h.out ho) rfl trivial fun _ => lg.keeps_pure _ l
  | copyRef x => exact h.call (h.out ho) rfl trivial fun _ => lg.keeps_pure _ l
  | dropRef x => exact h.dropRefs (h.out ho) _
  | _ => exact h.interfaceCall ho _

theorem runCalls (ho : Out l) (cs : List ApiCall) : lg.Keeps (FirelinkNet.runCalls cs) l := by
  induction cs with
  | nil => exact lg.keeps_pure () l
  | cons c cs ih => exact (h.run ho c).bind fun _ => ih

theorem callHandler (ho : Out l) (i : DataId) (f : ℕ) (args : Args) :
    lg.Keeps (WinSocket.callHandler i f args) l :=
  h.call (h.out ho) rfl trivial fun cs => (h.runCalls ho cs).bind fun _ => h.dropRefs (h.out ho) _

theorem callUserHandler (ho : Out l) (c : Closure) :
    lg.Keeps (WinSocket.callUserHandler c) l := by
  cases c with
  | user n => exact h.call (h.out ho) rfl trivial fun cs => h.runCalls ho cs
  | _ => exact h.call (h.out ho) rfl trivial fun d => h.callHandler ho _ _ _

/-- **So do the closures given to the pools.** -/
theorem runClosure (ho : Out l) (c : Closure) : lg.Keeps (WinSocket.runClosure c) l := by
  refine (h.callUserHandler ho c).bind fun _ => ?_
  cases c.ioData with
  | some i => exact h.deleteIOData (h.out ho)
  | none => exact lg.keeps_pure () l

theorem deliver (ho : Out l) (i : DataId) (c : Closure) :
    lg.Keeps (WinSocket.deliver i c) l := by
  refine h.call (h.out ho) rfl trivial fun alive => ?_
  cases alive with
  | false => exact lg.keeps_pure _ l
  | true =>
    refine (h.of_mild (h.out ho) (WinIOCore.mild_postWork _ _)).bind fun e => ?_
    split
    · exact lg.keeps_pure _ l
    · exact (h.of_mild (h.out ho) (WinSocket.mild_noteError _ _)).bind fun _ =>
        (h.callUserHandler ho c).bind fun _ => lg.keeps_pure _ l

theorem visitAccept (ho : Out l) (i : DataId) (x : SockId) (f : Option ℕ) :
    lg.Keeps (WinSocket.visitAccept i x f) l := by
  have hnote : ∀ e, lg.Keeps (WinSocket.noteError i e) l := fun e =>
    h.of_mild (h.out ho) (WinSocket.mild_noteError i e)
  have hend : lg.Keeps (WinSocket.deliverAccept i f) l := by
    cases f with
    | none => exact lg.keeps_pure _ l
    | some f =>
      exact (h.of_mild (h.out ho) (WinSocket.mild_getAcceptexSockaddrs i)).bind fun e =>
        (hnote e).bind fun _ => h.call (h.out ho) rfl trivial fun d => (hnote _).bind fun _ =>
          (hnote _).bind fun _ => h.deliver ho _ _
  refine h.call (h.out ho) rfl trivial fun d => ?_
  dsimp only
  split
  · exact (h.of_still (h.out ho) (WinSocket.still_updateAcceptSocketContext _ _)).bind fun e =>
      (hnote e).bind fun _ => hend
  · exact (hnote _).bind fun _ => hend

theorem visit (ho : Out l) (i : DataId) (x : SockId) (hd : Handler) :
    lg.Keeps (WinSocket.visit i x hd) l := by
  have hplain : ∀ f c, lg.Keeps (WinSocket.visitPlain i f c) l := by
    intro f c
    cases f with
    | none => exact lg.keeps_pure _ l
    | some f => exact h.deliver ho _ _
  unfold WinSocket.visit
  cases hd.kind with
  | accept => exact h.visitAccept ho i x _
  | connect =>
    refine (h.of_still (h.out ho) (WinSocket.still_updateConnectSocketContext x)).bind fun e =>
      (h.of_mild (h.out ho) (WinSocket.mild_noteError i e)).bind fun _ => ?_
    cases hd.func with
    | none => exact lg.keeps_pure _ l
    | some f => exact h.deliver ho _ _
  | _ => exact hplain _ _

/-- **So does `socket_io_routine`.** -/
theorem socketIoRoutine (ho : Out l) (o : Option DataId) (r : UInt32) (n : UInt64) :
    lg.Keeps (WinSocket.socketIoRoutine o r n) l := by
  cases o with
  | none => exact lg.keeps_pure () l
  | some i =>
    refine h.call (h.out ho) rfl trivial fun d => h.call (h.out ho) rfl trivial fun _ =>
      (h.visit ho i d.socket d.userHandler).bind fun posted => ?_
    split
    · exact lg.keeps_pure () l
    · exact h.deleteIOData (h.out ho)

/-- **So does every thread that an event starts**, when the callbacks can return and the cleanup
threads have what they need. -/
theorem event {w w' : World} {n : ℕ} {e : Event} {q : Prog Unit} (ho : Out l)
    (hret : lg.pre l .callbackReturn)
    (hclean : ∀ k g, e = .startCleanup k → lg.wp (WinIOCore.cleanupThread k g) (fun _ _ => True) l)
    (he : w.event n e = some (w', some q)) : lg.wp q (fun _ _ => True) l := by
  have hend : lg.wp (op .callbackReturn : Prog Unit) (fun _ _ => True) l :=
    ⟨hret, fun _ _ => trivial⟩
  cases World.event_step he with
  | spawn cs => exact Logic.wp_mono (h.runCalls ho cs) fun _ _ _ => trivial
  | dispatchIo hk => exact (h.socketIoRoutine ho _ _ _).seq fun _ => hend
  | dispatchWork hk =>
    have hl := h.out ho
    exact Logic.Keeps.seq (h.of_mild hl (Prog.all_op.mpr ⟨rfl, trivial⟩)) fun _ =>
      (h.runClosure ho _).seq fun _ =>
        Logic.Keeps.seq (h.of_mild hl (Prog.all_op.mpr ⟨rfl, trivial⟩)) fun _ => hend
  | startCleanup hk hs => exact hclean _ _ rfl

end Blocks

/-! ### Tame logics -/

/-- Knowledge that is given back, where a TP_IO is followed only while it is waited for and closed.
`In` holds of what a thread knows between the blocks that are followed, and `Out` when it is not in
a call of the interface either. -/
structure Tame {L : Type} (lg : Logic Op Res L) (In Out : L → Prop) : Prop where
  /-- Plain calls leave it as it is. -/
  plain : ∀ {l o}, In l → o.Plain → lg.pre l o ∧ ∀ r, lg.given l o r → lg.post l o r = l
  /-- So does dropping a reference, and the TP_IOs of the sockets that this destroys can be
  waited for and closed. -/
  dropRef : ∀ {l x}, In l → lg.pre l (.dropRef x) ∧ ∀ ds, lg.given l (.dropRef x) ds →
    lg.post l (.dropRef x) ds = l ∧
      ∀ d ∈ ds, lg.Keeps (WinSocket.waitAndClose d.2.socketIoHandle) l
  /-- So does deleting an `IOData`. -/
  deleteIOData : ∀ {l i}, In l → lg.pre l (.deleteIOData i) ∧
    ∀ ds, lg.given l (.deleteIOData i) ds → lg.post l (.deleteIOData i) ds = l ∧
      ∀ d ∈ ds, lg.Keeps (WinSocket.waitAndClose d.2.socketIoHandle) l
  /-- A call of the interface can be entered from outside. -/
  out : ∀ {l}, Out l → In l
  enter : ∀ {l c}, Out l → lg.pre l (.enter c) ∧
    ∀ n, lg.given l (.enter c) n → In (lg.post l (.enter c) n)
  /-- Leaving it undoes what entering it did. -/
  leave : ∀ {l c n r}, Out l → lg.given l (.enter c) n → ¬ c.OfCore →
    lg.pre (lg.post l (.enter c) n) (.leave n r) ∧
      lg.post (lg.post l (.enter c) n) (.leave n r) () = l
  /-- Within a call that may close a TP_IO, the one that was read can be waited for and closed. -/
  close : ∀ {l c n x io}, Out l → lg.given l (.enter c) n → c.closes = true →
    lg.given (lg.post l (.enter c) n) (.readIoHandle x) io →
      lg.Keeps (WinSocket.waitAndClose io) (lg.post l (.enter c) n)
  /-- Setting up and releasing the core end in knowledge that can be left. -/
  core : ∀ {l c n}, Out l → lg.given l (.enter c) n → c.OfCore →
    lg.wp c.body (fun r l' => lg.pre l' (.leave n r) ∧ lg.post l' (.leave n r) () = l)
      (lg.post l (.enter c) n)

namespace Tame

variable {L : Type} {lg : Logic Op Res L} {In Out : L → Prop} {l : L} (h : Tame lg In Out)

include h

theorem of_plain {α : Type} {p : Prog α} (hl : In l) (hp : p.All Op.Plain) : lg.Keeps p l :=
  .of_all hp fun _ ho => h.plain hl ho

theorem call {α : Type} {o : Op} {f : Res o → Prog α} (hl : In l) (ho : o.Plain)
    (hf : ∀ r, lg.Keeps (f r) l) : lg.Keeps (op o >>= f) l :=
  (h.of_plain hl (Prog.all_op.mpr ho)).bind hf

theorem destroyAll {ds : List Dead} (hl : In l)
    (hd : ∀ d ∈ ds, lg.Keeps (WinSocket.waitAndClose d.2.socketIoHandle) l) :
    lg.Keeps (WinSocket.destroyAll ds) l := by
  induction ds with
  | nil => exact lg.keeps_pure () l
  | cons d ds ih =>
    have hend : lg.Keeps (op (.destroyed d.1)) l := h.of_plain hl (Prog.all_op.mpr rfl)
    have hdestroy : lg.Keeps (WinSocket.destroy d) l := by
      unfold WinSocket.destroy
      split
      · exact (hd d List.mem_cons_self).bind fun _ => hend
      · exact hend
    exact hdestroy.bind fun _ => ih fun d' h' => hd d' (List.mem_cons_of_mem _ h')

theorem delete (hl : In l) (i : DataId) : lg.Keeps (WinSocket.deleteIOData i) l := by
  refine ⟨(h.deleteIOData hl).1, fun ds hds => ?_⟩
  obtain ⟨heq, hd⟩ := (h.deleteIOData hl).2 ds hds
  rw [heq]
  exact h.destroyAll hl hd

theorem startIo (hl : In l) (x : SockId) (i : DataId) {request : Prog IoRequest}
    (hr : request.All Op.Plain) : lg.Keeps (WinSocket.startIo x i request) l := by
  refine h.call hl rfl fun io => h.call hl rfl fun _ =>
    (h.of_plain hl hr).bind fun req => h.call hl rfl fun r => ?_
  rcases r with e | _
  · dsimp only
    split
    · exact (h.delete hl i).bind fun _ => h.call hl rfl fun io => h.call hl rfl fun _ =>
        lg.keeps_pure _ l
    · exact lg.keeps_pure _ l
  · exact lg.keeps_pure _ l

theorem closeSocket {n : CallId} {c : ApiCall} (ho : Out l) (hn : lg.given l (.enter c) n)
    (hc : c.closes = true) (x : SockId) : lg.Keeps (WinSocket.close x) (lg.post l (.enter c) n) := by
  have hl := (h.enter ho).2 n hn
  have hend := h.of_plain hl ((WinSocket.still_closeNative x).mono fun _ ho => ho.1.plain)
  have hread := h.plain (o := .readIoHandle x) hl rfl
  rw [WinSocket.close, Prog.op_bind]
  refine ⟨hread.1, fun io hio => ?_⟩
  have hclose := h.close ho hn hc hio
  rw [hread.2 io hio]
  dsimp only
  split
  · exact hclose.bind fun _ => h.call hl rfl fun _ => hend
  · exact hend

/-- **Where only waiting and closing are followed, every block gives the knowledge back.** -/
theorem blocks : Blocks lg In Out where
  mild hl ho := h.plain hl ho.1
  dropRef hl := by
    refine ⟨(h.dropRef hl).1, fun ds hds => ?_⟩
    obtain ⟨heq, hd⟩ := (h.dropRef hl).2 ds hds
    rw [heq]
    exact h.destroyAll hl hd
  deleteIOData hl := h.delete hl _
  out := h.out
  enter := h.enter
  leave := h.leave
  create ho hn _ := h.of_plain ((h.enter ho).2 _ hn) (Prog.all_op.mpr rfl)
  startIo ho hn _ hr := h.startIo ((h.enter ho).2 _ hn) _ _ (hr.mono fun _ => Op.Reads.plain)
  close ho hn hc _ := h.closeSocket ho hn hc _
  core := h.core

end Tame

end FirelinkNet
