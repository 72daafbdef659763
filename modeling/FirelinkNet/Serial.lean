import FirelinkNet.Tame
import FirelinkNet.Lib.Atomic

/-!
# Calls one at a time

What a sequence of calls of the interface keeps, on any number of sockets and from any
number of threads, when no two calls overlap. Callbacks of the pools, and the destructors
that run when a reference is dropped, go on between the calls; what a call waits for is
left open, as it depends on them.

## The model

A step is allowed when no other call is in progress (`World.alone`, `World.between`), when
the answers of Winsock are as documented (`World.winsock`), and when a `Discipline`, which a
result states for itself, allows it.

## What is proved

* `Discipline.Keeps.holds` — **what every call restores holds between the calls**. A call
  is verified by running its body alone (`Discipline.host`); what the callbacks and the
  destructors do is looked at call by call (`Op.Calm`).
-/

namespace FirelinkNet

open Lib

/-! ### Which steps are taken -/

namespace World

/-- No call of the interface is in progress. -/
def between (w : World) : Bool := (List.range w.nextCall).all fun n => (w.results n).isSome

/-- No call of the interface is in progress but the one that thread `t` is in. -/
def alone (w : World) (t : ℕ) : Bool :=
  (List.range w.nextCall).all fun n => (w.results n).isSome || w.cur t = some n

/-- What is documented of Winsock's answers: there is no socket of a family, type or protocol -1, and
nothing can be done with `INVALID_SOCKET`. -/
def winsock : Op → Ans → Bool
  | .wsaSocketW af ty pr, a =>
    a.error.isSome || (af ≠ .notSupported && ty ≠ .notSupported && pr ≠ .notSupported)
  | .getProtocolInfo _, a => a.error.isSome ||
    (a.info.family ≠ .notSupported && a.info.type ≠ .notSupported &&
      a.info.protocol ≠ .notSupported)
  | .bind none _, a | .connect none _, a | .sendto none _ _ _, a | .accept none, a => a.error.isSome
  | _, _ => true

/-- The call that thread `t` is in. -/
def callOf (w : World) (t : ℕ) : Option ApiCall := (w.cur t).bind w.calls

end World

/-- The machine on which waits may return at any time. -/
def serialMachine : Machine Op Res World Ans Event := { serialHost with env := World.event }

/-- What is asked of the calls that the library's code makes, and of what happens of itself. -/
structure Discipline where
  /-- Of a call. -/
  run : World → ℕ → Op → Ans → Bool
  /-- Of an event. -/
  env : World → Event → Bool

namespace Discipline

/-- Nothing is asked. -/
def free : Discipline := ⟨fun _ _ _ _ => true, fun _ _ => true⟩

variable (d : Discipline)

/-- The calls that are allowed. -/
def check (w : World) (t : ℕ) (o : Op) (a : Ans) : Bool :=
  w.alone t && World.winsock o a && d.run w t o a

/-- The steps that are allowed. -/
def guard : RunGuard := .ofBool d.check fun w e => w.between && d.env w e

/-- The host of a call that runs alone. -/
def host : Host Op Res World Ans := serialMachine.checked d.check

end Discipline

theorem Discipline.check_run {d : Discipline} {w : World} {t : ℕ} {o : Op} {a : Ans}
    (h : d.check w t o a = true) : d.run w t o a = true := (Bool.and_eq_true_iff.mp h).2

theorem Discipline.check_winsock {d : Discipline} {w : World} {t : ℕ} {o : Op} {a : Ans}
    (h : d.check w t o a = true) : World.winsock o a = true :=
  (Bool.and_eq_true_iff.mp (Bool.and_eq_true_iff.mp h).1).2

/-- A call of Winsock with a native socket that succeeds is with one that there is. -/
theorem Discipline.native_of_check {d : Discipline} {w : World} {t : ℕ} {o : NativeHandle → Op} {a : Ans}
    {s : NativeHandle} (ho : ∀ a, World.winsock (o none) a = a.error.isSome)
    (h : d.check w t (o s) a = true) (he : a.error = none) : ∃ n, s = some n := by
  have hwin := check_winsock h
  cases s with
  | none =>
    rw [ho, he] at hwin
    cases hwin
  | some n => exact ⟨n, rfl⟩

theorem Discipline.always_op {d : Discipline} {t : ℕ} {o : Op} {α : Type} {f : Res o → Prog α}
    {Q : α → World → Prop} {w : World} (h : ∀ a, d.check w t o a = true →
      (f (w.reply t o a).1).Always d.host t Q (w.reply t o a).2) :
    (op o >>= f).Always d.host t Q w :=
  fun a ha => h a (Bool.and_eq_true_iff.mp ha).1

/-! ### Calls that change no socket -/

/-- A call that is made within a call of the interface. -/
def Op.Within : Op → Prop
  | .enter _ | .leave _ _ => False
  | _ => True

/-- A call that changes neither a socket that there is nor what Winsock knows of it. -/
def Op.calm : Op → Bool
  | .enter _ | .leave _ _ | .writeSocket _ _ | .createThreadpoolIo _ _ | .wsaSocketW _ _ _
  | .closesocket _ | .accept _ | .bind _ _ | .connect _ _ | .sendto _ _ _ _
  | .overlapped (.connectEx _ _) _ _ | .makeCore _ | .destroyCore => false
  | _ => true

/-- A call that changes neither a socket that there is nor what Winsock knows of it. -/
def Op.Calm (o : Op) : Prop := o.calm = true

theorem Op.Calm.within {o : Op} (h : o.Calm) : o.Within := by
  cases o with
  | enter _ => cases h
  | leave _ _ => cases h
  | _ => trivial

theorem Op.Unfollowed.within {o : Op} (h : o.Unfollowed) : o.Within := by
  cases o with
  | enter _ => exact (h rfl).elim
  | leave _ _ => exact (h rfl).elim
  | _ => trivial

theorem Op.OfCore.calm {o : Op} (h : o.OfCore) : o.Calm := by
  cases o <;> first | rfl | cases h

/-- Within a call, the calls of the interface stay as they are. -/
theorem World.calls_reply {w : World} {t : ℕ} {o : Op} {a : Ans} (ho : o.Within) :
    (w.reply t o a).2.cur = w.cur ∧ (w.reply t o a).2.nextCall = w.nextCall ∧
      (w.reply t o a).2.results = w.results ∧ (w.reply t o a).2.calls = w.calls := by
  cases o with
  | enter _ => exact ho.elim
  | leave _ _ => exact ho.elim
  | closeThreadpoolCleanupGroupMembers g => cases g <;> exact ⟨rfl, rfl, rfl, rfl⟩
  | _ => exact ⟨rfl, rfl, rfl, rfl⟩

namespace WinSocket

theorem calm_destroyAll (ds : List Dead) : (destroyAll ds).All Op.Calm := by
  induction ds with
  | nil => exact trivial
  | cons d ds ih =>
    refine Prog.All.bind ?_ fun _ => ih
    unfold destroy
    split
    · exact ⟨rfl, fun _ => ⟨rfl, fun _ => ⟨rfl, fun _ => ⟨rfl, fun _ => trivial⟩⟩⟩⟩
    · exact ⟨rfl, fun _ => trivial⟩

theorem calm_dropRefs (xs : List SockId) : (dropRefs xs).All Op.Calm := by
  induction xs with
  | nil => exact trivial
  | cons x xs ih => exact ⟨rfl, fun ds => (calm_destroyAll ds).bind fun _ => ih⟩

theorem calm_deleteIOData (i : DataId) : (deleteIOData i).All Op.Calm :=
  ⟨rfl, fun ds => calm_destroyAll ds⟩

theorem calm_noteError (i : DataId) (e : ErrorCode) : (noteError i e).All Op.Calm := by
  unfold noteError
  split
  · refine ⟨rfl, fun d => ?_⟩
    show Lib.Prog.All _ (if d.errorCode = _ then _ else _)
    split
    · exact ⟨rfl, fun _ => trivial⟩
    · exact trivial
  · exact trivial

theorem calm_postWork (k : PoolKind) (c : Closure) : (WinIOCore.postWork k c).All Op.Calm := by
  refine ⟨rfl, fun f => ⟨rfl, fun ok => ?_⟩⟩
  cases ok with
  | true => exact trivial
  | false => exact ⟨rfl, fun _ => ⟨rfl, fun _ => trivial⟩⟩

theorem calm_updateAcceptSocketContext (x a : SockId) :
    (updateAcceptSocketContext x a).All Op.Calm := by
  refine ⟨rfl, fun _ => ⟨rfl, fun _ => ⟨rfl, fun r => ?_⟩⟩⟩
  rcases r with e | _ <;> exact trivial

theorem calm_updateConnectSocketContext (x : SockId) :
    (updateConnectSocketContext x).All Op.Calm := by
  refine ⟨rfl, fun _ => ⟨rfl, fun r => ?_⟩⟩
  rcases r with e | _ <;> exact trivial

theorem calm_getAcceptexSockaddrs (i : DataId) : (getAcceptexSockaddrs i).All Op.Calm := by
  refine ⟨rfl, fun d => ⟨rfl, fun r => ?_⟩⟩
  rcases r with _ | ⟨l, p⟩
  · exact trivial
  · exact ⟨rfl, fun _ => trivial⟩

/-- The calls of the end of a `start_…` function, but for the overlapped call, are calm. -/
theorem all_startIo {P : Op → Prop} (hP : ∀ o : Op, o.Calm → P o) {x : SockId} {i : DataId}
    {request : Prog IoRequest} (h : ∀ {f : IoRequest → Prog ErrorCode},
      (∀ req, (∀ io, P (.overlapped req i io)) → (f req).All P) → (request >>= f).All P) :
    (startIo x i request).All P := by
  refine ⟨hP _ rfl, fun io => ⟨hP _ rfl, fun _ => h fun req hreq => ⟨hreq io, fun r => ?_⟩⟩⟩
  rcases r with e | _
  · show Lib.Prog.All _ (if e.code ≠ errorIoPending then _ else _)
    split
    · exact ((calm_deleteIOData i).mono hP).bind fun _ => ⟨hP _ rfl, fun _ => ⟨hP _ rfl, fun _ => trivial⟩⟩
    · exact trivial
  · exact trivial

theorem calm_startIo {x : SockId} {i : DataId} {request : Prog IoRequest}
    (h : ∀ {f : IoRequest → Prog ErrorCode}, (∀ req, (∀ io, Op.Calm (.overlapped req i io)) →
      (f req).All Op.Calm) → (request >>= f).All Op.Calm) : (startIo x i request).All Op.Calm :=
  all_startIo (fun _ => id) h

theorem calm_startAcceptIo (x a : SockId) (f : Option ℕ) : (startAcceptIo x a f).All Op.Calm :=
  ⟨rfl, fun _ => calm_startIo fun hf =>
    ⟨rfl, fun _ => ⟨rfl, fun _ => ⟨rfl, fun _ => hf _ fun _ => rfl⟩⟩⟩⟩

theorem calm_startRecv (x : SockId) (b : Span) (f : Option ℕ) : (startRecv x b f).All Op.Calm :=
  ⟨rfl, fun _ => calm_startIo fun hf => ⟨rfl, fun _ => hf _ fun _ => rfl⟩⟩

theorem calm_startRecvFrom (x : SockId) (b : Span) (f : Option ℕ) :
    (startRecvFrom x b f).All Op.Calm :=
  ⟨rfl, fun _ => calm_startIo fun hf => ⟨rfl, fun _ => hf _ fun _ => rfl⟩⟩

theorem calm_startSend (x : SockId) (b : Span) (f : Option ℕ) : (startSend x b f).All Op.Calm :=
  ⟨rfl, fun _ => calm_startIo fun hf => ⟨rfl, fun _ => hf _ fun _ => rfl⟩⟩

theorem calm_startSendTo (x : SockId) (b : Span) (dst : Endpoint) (f : Option ℕ) :
    (startSendTo x b dst f).All Op.Calm := by
  rw [startSendTo, Prog.op_bind]
  refine ⟨rfl, fun i => ⟨rfl, fun s => ⟨rfl, fun _ => ?_⟩⟩⟩
  dsimp only
  split
  · exact trivial
  · exact calm_startIo fun hf => ⟨rfl, fun _ => ⟨rfl, fun _ => hf _ fun _ => rfl⟩⟩

theorem calm_startDisconnect (x : SockId) (reuse : Bool) (f : Option ℕ) :
    (startDisconnect x reuse f).All Op.Calm :=
  ⟨rfl, fun _ => calm_startIo fun hf => ⟨rfl, fun _ => hf _ fun _ => rfl⟩⟩

end WinSocket

/-! ### Within a call -/

section Within

theorem within_of_still {α : Type} {p : Prog α} (h : p.All Op.Still) : p.All Op.Within :=
  h.mono fun _ ho => ho.1.plain.unfollowed.within

theorem within_of_calm {α : Type} {p : Prog α} (h : p.All Op.Calm) : p.All Op.Within :=
  h.mono fun _ => Op.Calm.within

namespace WinSocket

theorem within_socket (x : SockId) (af : AddressFamily) (ty : SocketType) (pr : Protocol) :
    (socket x af ty pr).All Op.Within :=
  (opens_socket x af ty pr).mono fun _ ho => ho.quiet.plain.unfollowed.within

theorem within_close (x : SockId) : (close x).All Op.Within := by
  rw [close, Prog.op_bind]
  refine ⟨trivial, fun io => ?_⟩
  dsimp only
  split
  · exact ⟨trivial, fun _ => ⟨trivial, fun _ => ⟨trivial, fun _ => ⟨trivial, fun _ =>
      within_of_still (still_closeNative x)⟩⟩⟩⟩
  · exact within_of_still (still_closeNative x)

theorem within_accept (x a : SockId) : (accept x a).All Op.Within := by
  refine ⟨trivial, fun s => ⟨trivial, fun r => ?_⟩⟩
  rcases r with e | h
  · exact trivial
  refine ⟨trivial, fun r => ?_⟩
  rcases r with e | info
  · exact ⟨trivial, fun _ => trivial⟩
  refine ⟨trivial, fun _ => ⟨trivial, fun alive => ?_⟩⟩
  cases alive with
  | false => exact (within_close a).bind fun _ => trivial
  | true =>
    refine ⟨trivial, fun r => ?_⟩
    rcases r with e | _
    · exact (within_close a).bind fun _ => trivial
    · exact ⟨trivial, fun _ => trivial⟩

theorem within_startAccept (x a : SockId) (f : Option ℕ) : (startAccept x a f).All Op.Within := by
  rw [startAccept, Prog.op_bind]
  refine ⟨trivial, fun s => ?_⟩
  dsimp only
  split
  · refine ⟨trivial, fun this => (within_socket a _ _ _).bind fun r => ?_⟩
    split
    · exact trivial
    · exact within_of_calm (calm_startAcceptIo x a f)
  · exact within_of_calm (calm_startAcceptIo x a f)

theorem within_startConnect (x : SockId) (dst : Endpoint) (f : Option ℕ) :
    (startConnect x dst f).All Op.Within := by
  have hio : ∀ i e, Lib.Prog.All Op.Within (if e ≠ ErrorCode.success then return e else
      startIo x i do
        let d ← op (.readIOData i)
        return .connectEx (← op (.readSocket x)).nativeSocket d.peerWinAddr) := by
    intro i e
    split
    · exact trivial
    · exact all_startIo (fun _ => Op.Calm.within) fun hf =>
        ⟨trivial, fun _ => ⟨trivial, fun _ => hf _ fun _ => trivial⟩⟩
  rw [startConnect, Prog.op_bind]
  refine ⟨trivial, fun i => ⟨trivial, fun s => ⟨trivial, fun _ => ?_⟩⟩⟩
  dsimp only
  split
  · exact trivial
  split
  · exact (within_of_still (still_bindForConnect x _)).bind (hio i)
  · split
    · exact (within_of_still (still_bindForConnect x _)).bind (hio i)
    · exact hio i .success

end WinSocket

/-- The functions of the interface do not call one another through it. -/
theorem ApiCall.within_body (c : ApiCall) : c.body.All Op.Within := by
  cases c with
  | socket x af ty pr => exact WinSocket.within_socket x af ty pr
  | bind x ep => exact within_of_still (WinSocket.still_bind x ep)
  | close x => exact WinSocket.within_close x
  | accept x a => exact WinSocket.within_accept x a
  | connect x dst => exact within_of_still (WinSocket.still_connect x dst)
  | sendTo x b dst => exact (within_of_still (WinSocket.still_sendTo x b dst)).bind fun _ => trivial
  | startAccept x a f => exact WinSocket.within_startAccept x a f
  | startConnect x dst f => exact WinSocket.within_startConnect x dst f
  | startRecv x b f => exact within_of_calm (WinSocket.calm_startRecv x b f)
  | startRecvFrom x b f => exact within_of_calm (WinSocket.calm_startRecvFrom x b f)
  | startSend x b f => exact within_of_calm (WinSocket.calm_startSend x b f)
  | startSendTo x b dst f => exact within_of_calm (WinSocket.calm_startSendTo x b dst f)
  | startDisconnect x r f => exact within_of_calm (WinSocket.calm_startDisconnect x r f)
  | postIoWork n => exact within_of_calm (WinSocket.calm_postWork .io (.user n))
  | postUserWork n => exact within_of_calm (WinSocket.calm_postWork .user (.user n))
  | initializeCore =>
    exact WinIOCore.aside_initializeCore.mono fun _ ho => ho.unfollowed.within
  | releaseCore => exact WinIOCore.aside_releaseCore.mono fun _ ho => ho.unfollowed.within
  | create | copyRef _ | dropRef _ => exact trivial

end Within

/-! ### What every call restores -/

/-- Thread `t` is in a call of the interface, and no other is. -/
def World.Busy (w : World) (t : ℕ) : Prop :=
  ∃ n, w.cur t = some n ∧ n < w.nextCall ∧ w.results n = none ∧ (∀ t' ≠ t, w.cur t' = none) ∧
    ∀ m, w.nextCall ≤ m → w.results m = none

/-- No thread is in a call of the interface. -/
def World.Idle (w : World) : Prop :=
  (∀ t, w.cur t = none) ∧ ∀ n, w.nextCall ≤ n → w.results n = none

namespace World

variable {w : World} {t : ℕ}

theorem Busy.reply {o : Op} {a : Ans} (h : w.Busy t) (ho : o.Within) : (w.reply t o a).2.Busy t := by
  obtain ⟨hcur, hnext, hres, -⟩ := calls_reply (w := w) (t := t) (a := a) ho
  unfold Busy
  rwa [hcur, hnext, hres]

theorem Idle.reply {o : Op} {a : Ans} (h : w.Idle) (ho : o.Within) : (w.reply t o a).2.Idle := by
  obtain ⟨hcur, hnext, hres, -⟩ := calls_reply (w := w) (t := t) (a := a) ho
  unfold Idle
  rwa [hcur, hnext, hres]

theorem Idle.enter (h : w.Idle) (t : ℕ) (c : ApiCall) : (w.enterCall t c).Busy t := by
  refine ⟨w.nextCall, Function.update_self .., Nat.lt_succ_self _, h.2 _ le_rfl, fun t' ht' => ?_,
    fun m hm => h.2 m (Nat.le_of_succ_le hm)⟩
  exact (Function.update_of_ne ht' ..).trans (h.1 t')

theorem callOf_enterCall (w : World) (t : ℕ) (c : ApiCall) : (w.enterCall t c).callOf t = some c := by
  simp [callOf, enterCall]

theorem Busy.leave {n : CallId} {r : ErrorCode} (h : w.Busy t) (hn : n < w.nextCall) :
    (w.leaveCall t n r).Idle := by
  obtain ⟨-, -, -, -, hcur, hres⟩ := h
  refine ⟨fun t' => ?_, fun m hm => ?_⟩
  · by_cases ht' : t' = t
    · exact ht' ▸ Function.update_self ..
    · exact (Function.update_of_ne ht' ..).trans (hcur t' ht')
  · exact (Function.update_of_ne (Nat.ne_of_gt (Nat.lt_of_lt_of_le hn hm)) ..).trans (hres m hm)

theorem Busy.eq_of_alone {t' : ℕ} (h : w.Busy t) (ha : w.alone t' = true) : t' = t := by
  obtain ⟨n, hn, hlt, hres, hcur, -⟩ := h
  have hmem := List.all_eq_true.mp ha n (List.mem_range.mpr hlt)
  simp only [hres, Option.isSome_none, Bool.false_or, decide_eq_true_eq] at hmem
  by_contra hne
  rw [hcur t' hne] at hmem
  cases hmem

theorem Busy.not_between (h : w.Busy t) : w.between = false := by
  obtain ⟨n, -, hlt, hres, -⟩ := h
  rw [Bool.eq_false_iff]
  intro hb
  have hmem := List.all_eq_true.mp hb n (List.mem_range.mpr hlt)
  rw [hres] at hmem
  cases hmem

theorem Idle.event {w' : World} {n : ℕ} {e : Event} {p : Option (Prog Unit)} (h : w.Idle)
    (he : w.EventStep n e w' p) : w'.Idle := by
  cases he with
  | _ => exact h

end World

namespace Discipline

variable {d : Discipline} {J : World → Prop}

/-- What is to be shown of a property: what callbacks and destructors do keeps it, each function of
the interface restores it, and events keep it. -/
structure Keeps (d : Discipline) (J : World → Prop) : Prop where
  /-- A calm call keeps it. -/
  calm : ∀ {w t o a}, o.Calm → J w → d.check w t o a = true → J (w.reply t o a).2
  /-- A function of the interface restores it. -/
  body : ∀ {w t c a}, J w → d.check w t (.enter c) a = true →
    c.body.Always d.host t (fun _ => J) (w.enterCall t c)
  /-- It is not about the calls of the interface. -/
  leave : ∀ {w t n r}, J w → J (w.leaveCall t n r)
  /-- An event keeps it. -/
  event : ∀ {w w' n e p}, J w → d.env w e = true → w.EventStep n e w' p → J w'

/-- Between the calls. -/
abbrev Between (J : World → Prop) (w : World) : Prop := J w ∧ w.Idle

namespace Keeps

variable (h : d.Keeps J)
include h

section

variable (t : ℕ)

/-- What stays outside of calls. -/
theorem outside_calm {α : Type} {p : Prog α} (hp : p.All Op.Calm) :
    serialMachine.Outside d.check (Between J) World.Busy t p :=
  .of_all hp fun _ _ _ ho hw hc _ => ⟨h.calm ho hw.1 hc, hw.2.reply ho.within⟩

theorem outside_op {o : Op} (ho : o.Calm) :
    serialMachine.Outside d.check (Between J) World.Busy t (op o) :=
  h.outside_calm t ⟨ho, fun _ => trivial⟩

theorem outside_seq {α : Type} {o : Op} {f : Res o → Prog α} (ho : o.Calm)
    (hf : ∀ r, serialMachine.Outside d.check (Between J) World.Busy t (f r)) :
    serialMachine.Outside d.check (Between J) World.Busy t (op o >>= f) :=
  (h.outside_op t ho).bind hf

/-- **A call of the interface.** -/
theorem outside_interfaceCall (c : ApiCall) :
    serialMachine.Outside d.check (Between J) World.Busy t (interfaceCall c c.body) := by
  refine Machine.Outside.sect (P := Op.Within) (fun _ => c.within_body)
    (fun w o a ho hb => hb.reply ho) (fun w a hw hc _ => ?_)
    (fun _ _ _ => h.outside_calm t (WinSocket.calm_dropRefs c.sockets))
  have hnext : c.body.Always d.host t (fun _ w' => w'.nextCall = w.nextCall + 1) (w.enterCall t c) :=
    .of_all c.within_body (fun _ _ _ ho _ h => (World.calls_reply ho).2.1.trans h) rfl
  refine ⟨hw.2.enter t c, ((h.body hw.1 hc).and hnext).mono fun r w' hJ hb a' => ?_⟩
  have hn : w.nextCall < w'.nextCall := by
    rw [hJ.2]
    exact Nat.lt_succ_self _
  exact ⟨h.leave hJ.1, hb.leave hn⟩

theorem outside_run (c : ApiCall) :
    serialMachine.Outside d.check (Between J) World.Busy t c.run := by
  cases c with
  | create => exact h.outside_op t rfl
  | copyRef x => exact h.outside_op t rfl
  | dropRef x => exact h.outside_calm t (WinSocket.calm_dropRefs [x])
  | _ => exact h.outside_interfaceCall t _

theorem outside_runCalls (cs : List ApiCall) :
    serialMachine.Outside d.check (Between J) World.Busy t (runCalls cs) := by
  induction cs with
  | nil => exact .pure ()
  | cons c cs ih => exact (h.outside_run t c).bind fun _ => ih

theorem outside_callUserHandler (c : Closure) :
    serialMachine.Outside d.check (Between J) World.Busy t (WinSocket.callUserHandler c) := by
  have hcall : ∀ i f args,
      serialMachine.Outside d.check (Between J) World.Busy t (WinSocket.callHandler i f args) :=
    fun i f args => h.outside_seq t rfl fun calls => (h.outside_runCalls t calls).bind fun _ =>
      h.outside_calm t (WinSocket.calm_dropRefs args.refs)
  cases c with
  | user n => exact h.outside_seq t rfl fun calls => h.outside_runCalls t calls
  | _ => exact h.outside_seq t rfl fun _ => hcall _ _ _

theorem outside_runClosure (c : Closure) :
    serialMachine.Outside d.check (Between J) World.Busy t (WinSocket.runClosure c) := by
  refine (h.outside_callUserHandler t c).bind fun _ => ?_
  split
  · exact h.outside_calm t (WinSocket.calm_deleteIOData _)
  · exact .pure ()

theorem outside_deliver (i : DataId) (c : Closure) :
    serialMachine.Outside d.check (Between J) World.Busy t (WinSocket.deliver i c) := by
  refine h.outside_seq t rfl fun alive => ?_
  split
  · refine (h.outside_calm t (WinSocket.calm_postWork .user c)).bind fun e => ?_
    split
    · exact .pure true
    · exact (h.outside_calm t (WinSocket.calm_noteError i e)).bind fun _ =>
        (h.outside_callUserHandler t c).bind fun _ => .pure false
  · exact .pure false

theorem outside_visitAccept (i : DataId) (x : SockId) (f : Option ℕ) :
    serialMachine.Outside d.check (Between J) World.Busy t (WinSocket.visitAccept i x f) := by
  have hnote := fun e => h.outside_calm t (WinSocket.calm_noteError i e)
  have hrest : serialMachine.Outside d.check (Between J) World.Busy t (WinSocket.deliverAccept i f) := by
    cases f with
    | none => exact .pure false
    | some f =>
      exact (h.outside_calm t (WinSocket.calm_getAcceptexSockaddrs i)).bind fun e =>
        (hnote e).bind fun _ => h.outside_seq t rfl fun _ => (hnote _).bind fun _ =>
          (hnote _).bind fun _ => h.outside_deliver t i _
  refine h.outside_seq t rfl fun s => ?_
  dsimp only
  split
  · exact (h.outside_calm t (WinSocket.calm_updateAcceptSocketContext x _)).bind fun e =>
      (hnote e).bind fun _ => hrest
  · exact (hnote _).bind fun _ => hrest

theorem outside_visit (i : DataId) (x : SockId) (hd : Handler) :
    serialMachine.Outside d.check (Between J) World.Busy t (WinSocket.visit i x hd) := by
  have hplain : ∀ c, serialMachine.Outside d.check (Between J) World.Busy t
      (WinSocket.visitPlain i hd.func c) := by
    intro c
    unfold WinSocket.visitPlain
    split
    · exact .pure false
    · exact h.outside_deliver t i _
  unfold WinSocket.visit
  split
  · exact h.outside_visitAccept t i x _
  · refine (h.outside_calm t (WinSocket.calm_updateConnectSocketContext x)).bind fun e =>
      (h.outside_calm t (WinSocket.calm_noteError i e)).bind fun _ => ?_
    exact hplain .connect
  · exact hplain _
  · exact hplain _
  · exact hplain _

theorem outside_socketIoRoutine (o : Option DataId) (r : UInt32) (n : UInt64) :
    serialMachine.Outside d.check (Between J) World.Busy t (WinSocket.socketIoRoutine o r n) := by
  cases o with
  | none => exact .pure ()
  | some i =>
    refine h.outside_seq t rfl fun s => h.outside_seq t rfl fun _ =>
      (h.outside_visit t i _ _).bind fun posted => ?_
    split
    · exact .pure ()
    · exact h.outside_calm t (WinSocket.calm_deleteIOData i)

end

/-- What is done outside of calls, and in them, keeps it between them. -/
theorem atomic : serialMachine.Atomic d.check (fun w e => w.between && d.env w e) (Between J)
    World.Busy where
  alone hb hr := hb.eq_of_alone (Bool.and_eq_true_iff.mp (Bool.and_eq_true_iff.mp hr).1).1
  still hb := by rw [hb.not_between, Bool.false_and]
  env {w n e w' p} hw he hs := by
    have hstep := World.event_step hs
    refine ⟨⟨h.event hw.1 (Bool.and_eq_true_iff.mp he).2 hstep, hw.2.event hstep⟩, fun q hq => ?_⟩
    cases hstep with
    | spawn cs =>
      cases hq
      exact h.outside_runCalls n cs
    | complete c hk => cases hq
    | dispatchIo hk =>
      cases hq
      exact (h.outside_socketIoRoutine n _ _ _).bind fun _ => h.outside_op n rfl
    | dispatchWork hk =>
      cases hq
      exact h.outside_seq n rfl fun _ => (h.outside_runClosure n _).bind fun _ =>
        h.outside_seq n rfl fun _ => h.outside_op n rfl
    | startCleanup hk hs =>
      cases hq
      exact h.outside_calm n ((WinIOCore.ofCore_cleanupThread _ _).mono fun _ => Op.OfCore.calm)
    | dropIoCore => cases hq

/-- **What every call restores holds between the calls.** -/
theorem holds {conf : IOCoreConfig} (h₀ : J (.start conf)) {s : State}
    (hs : serialMachine.Reach d.guard (State.start conf) s) (hb : s.w.between = true) : J s.w := by
  rcases h.atomic.good ⟨h₀, fun _ => rfl, fun _ _ => rfl⟩ hs with hJ | ⟨t, ht⟩
  · exact hJ.1
  · rw [ht.not_between] at hb
    cases hb

end Keeps

end Discipline

end FirelinkNet
