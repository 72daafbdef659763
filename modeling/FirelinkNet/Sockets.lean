import FirelinkNet.Serial
import FirelinkNet.Sockaddr

/-!
# What the calls do to the sockets

The members of the `WinSocket` objects, and what the operating system knows of their native
sockets, as the calls of the interface change them one at a time.

## The model

`Sockets` is that part of the world. A function of the interface is read off it in full: each
way in which it can end, with the sockets as it leaves them.

## What is proved

* `always_socket`, `always_bind`, `always_connect`, `always_sendTo`, `always_close`,
  `always_accept`, `always_startAccept`, `always_startConnect` — the ways in which these
  functions end.
* `Kept.holds` — what they all restore holds between the calls.
-/

namespace FirelinkNet

open Lib

/-- A misuse of a local address. -/
def Fault.misnames : Fault → Bool
  | .connectUnbound | .connectRebound => true
  | _ => false

/-- The sockets, and what the operating system knows of them. -/
structure Sockets where
  /-- The `WinSocket` objects. -/
  objects : SockId → Option WinSocket
  nextObject : SockId
  /-- The native sockets, how often each was closed, and whether it has a local address. -/
  nextHandle : ℕ
  closes : ℕ → ℕ
  bound : ℕ → Bool
  /-- The native socket that a TP_IO was created for. -/
  nextTp : ℕ
  tpHandle : ℕ → NativeHandle
  /-- A local address was misused. -/
  misnamed : Bool

namespace Sockets

/-- An object is created. -/
def create (v : Sockets) : Sockets :=
  { v with objects := upd v.objects v.nextObject (some .new), nextObject := v.nextObject + 1 }

/-- The members of an object are changed, or the object is gone. -/
def set (v : Sockets) (x : SockId) (f : Option WinSocket → Option WinSocket) : Sockets :=
  { v with objects := upd v.objects x (f (v.objects x)) }

/-- A native socket is opened. -/
def openHandle (v : Sockets) (named : Bool) : Sockets :=
  { v with nextHandle := v.nextHandle + 1, bound := upd v.bound v.nextHandle named }

/-- A native socket is closed. -/
def closeHandle (v : Sockets) (s : NativeHandle) (ok : Bool) : Sockets :=
  { v with closes := if ok then bump v.closes s else v.closes }

/-- A native socket has a local address from now on. -/
def name (v : Sockets) (s : NativeHandle) (ok : Bool) : Sockets :=
  { v with bound := if ok then mark v.bound s else v.bound }

/-- A TP_IO is created for a native socket. -/
def createTp (v : Sockets) (s : NativeHandle) : Sockets :=
  { v with nextTp := v.nextTp + 1, tpHandle := upd v.tpHandle v.nextTp s }

/-- A local address is misused, if it is. -/
def misname (v : Sockets) (bad : Bool) : Sockets := { v with misnamed := bad || v.misnamed }

/-- The members of `x`. -/
def members (v : Sockets) (x : SockId) : WinSocket := (v.objects x).getD .new

/-- The native socket has a local address. -/
def isNamed (v : Sockets) : NativeHandle → Bool
  | some h => v.bound h
  | none => false

@[simp] theorem set_set (v : Sockets) (x : SockId) (f g : Option WinSocket → Option WinSocket) :
    (v.set x f).set x g = v.set x fun m => g (f m) := by
  simp [set]

theorem set_congr {v : Sockets} {x : SockId} {f g : Option WinSocket → Option WinSocket}
    (h : f (v.objects x) = g (v.objects x)) : v.set x f = v.set x g := by
  rw [set, set, h]

@[simp] theorem objects_set (v : Sockets) (x : SockId) (f : Option WinSocket → Option WinSocket) :
    (v.set x f).objects x = f (v.objects x) := Function.update_self ..

theorem objects_set_ne (v : Sockets) {x y : SockId} (f : Option WinSocket → Option WinSocket)
    (h : y ≠ x) : (v.set x f).objects y = v.objects y := Function.update_of_ne h ..

@[simp] theorem objects_create (v : Sockets) : v.create.objects v.nextObject = some .new :=
  Function.update_self ..

theorem objects_create_ne (v : Sockets) {x : SockId} (h : x ≠ v.nextObject) :
    v.create.objects x = v.objects x := Function.update_of_ne h ..

theorem closes_closeHandle (v : Sockets) (h n : ℕ) :
    (v.closeHandle (some h) true).closes n = if n = h then v.closes h + 1 else v.closes n :=
  Function.update_apply ..

@[simp] theorem closeHandle_none (v : Sockets) (ok : Bool) : v.closeHandle none ok = v := by
  cases ok <;> rfl

/-- The objects were created, and hold native sockets that were opened, each its own. -/
structure Distinct (v : Sockets) : Prop where
  /-- The objects that there are have been created. -/
  created : ∀ x, v.nextObject ≤ x → v.objects x = none
  /-- What an object holds was opened. -/
  opened : ∀ x m h, v.objects x = some m → m.nativeSocket = some h → h < v.nextHandle
  /-- One object holds it. -/
  one : ∀ x y m m' h, v.objects x = some m → v.objects y = some m' → m.nativeSocket = some h →
    m'.nativeSocket = some h → x = y

/-- Objects keep what they hold, but for one that may hold what is opened now. -/
theorem Distinct.step {v v' : Sockets} {x : SockId} (h : v.Distinct)
    (hold : ∀ y m n, v'.objects y = some m → m.nativeSocket = some n →
      (∃ m', v.objects y = some m' ∧ m'.nativeSocket = some n) ∨
        (y = x ∧ n = v.nextHandle ∧ n < v'.nextHandle))
    (hnext : v.nextHandle ≤ v'.nextHandle) (hcreated : ∀ y, v'.nextObject ≤ y → v'.objects y = none) :
    v'.Distinct := by
  refine ⟨hcreated, fun y m n hy hn => ?_, fun y z m m' n hy hz hn hn' => ?_⟩
  · rcases hold y m n hy hn with ⟨m₁, hy', hn'⟩ | ⟨-, -, hlt⟩
    · exact (h.opened y m₁ n hy' hn').trans_le hnext
    · exact hlt
  · rcases hold y m n hy hn with ⟨m₁, hy₁, hn₁⟩ | ⟨rfl, rfl, -⟩
    · rcases hold z m' n hz hn' with ⟨m₂, hz₂, hn₂⟩ | ⟨-, rfl, -⟩
      · exact h.one y z m₁ m₂ n hy₁ hz₂ hn₁ hn₂
      · exact absurd (h.opened y m₁ _ hy₁ hn₁) (Nat.lt_irrefl _)
    · rcases hold z m' _ hz hn' with ⟨m₂, hz₂, hn₂⟩ | ⟨rfl, -, -⟩
      · exact absurd (h.opened z m₂ _ hz₂ hn₂) (Nat.lt_irrefl _)
      · rfl

theorem Distinct.set {v : Sockets} {x : SockId} {f : Option WinSocket → Option WinSocket}
    (h : v.Distinct) (hnone : f none = none)
    (hf : ∀ m n, f (v.objects x) = some m → m.nativeSocket = some n →
      ∃ m', v.objects x = some m' ∧ m'.nativeSocket = some n) : (v.set x f).Distinct := by
  refine h.step (x := x) (fun y m n hy hn => .inl ?_) le_rfl fun y hy => ?_
  · by_cases hyx : y = x
    · subst hyx
      exact hf m n (by rwa [objects_set] at hy) hn
    · exact ⟨m, by rwa [objects_set_ne v f hyx] at hy, hn⟩
  · by_cases hyx : y = x
    · rw [hyx, objects_set, h.created x (hyx ▸ hy), hnone]
    · exact (objects_set_ne v f hyx).trans (h.created y hy)

/-- The members of an object change, and `socket_` is what it was, or nothing. -/
theorem Distinct.set_map {v : Sockets} {x : SockId} {g : WinSocket → WinSocket} (h : v.Distinct)
    (hg : ∀ m, v.objects x = some m →
      (g m).nativeSocket = m.nativeSocket ∨ (g m).nativeSocket = none) :
    (v.set x (Option.map g)).Distinct := by
  refine h.set rfl fun m n hm hn => ?_
  obtain ⟨m', hm', rfl⟩ := Option.map_eq_some_iff.mp hm
  rcases hg m' hm' with heq | heq
  · exact ⟨m', hm', heq ▸ hn⟩
  · rw [heq] at hn
    cases hn

theorem Distinct.openHandle {v : Sockets} (h : v.Distinct) (named : Bool) :
    (v.openHandle named).Distinct :=
  h.step (x := 0) (fun _ m _ hy hn => .inl ⟨m, hy, hn⟩) (Nat.le_succ _) h.created

/-- A native socket is opened, and an object holds it. -/
theorem Distinct.take {v : Sockets} {x : SockId} {named : Bool} {g : WinSocket → WinSocket}
    (h : v.Distinct) (hg : ∀ m, v.objects x = some m → (g m).nativeSocket = some v.nextHandle) :
    ((v.openHandle named).set x (Option.map g)).Distinct := by
  refine h.step (x := x) (fun y m n hy hn => ?_) (Nat.le_succ _) fun y hy => ?_
  · by_cases hyx : y = x
    · subst hyx
      rw [objects_set] at hy
      obtain ⟨m', hm', rfl⟩ := Option.map_eq_some_iff.mp hy
      rw [hg m' hm'] at hn
      cases hn
      exact .inr ⟨rfl, rfl, Nat.lt_succ_self _⟩
    · exact .inl ⟨m, by rwa [objects_set_ne (v.openHandle named) _ hyx] at hy, hn⟩
  · by_cases hyx : y = x
    · rw [hyx, objects_set, show (v.openHandle named).objects x = none from h.created x (hyx ▸ hy)]
      rfl
    · exact (objects_set_ne (v.openHandle named) _ hyx).trans (h.created y hy)

theorem Distinct.create {v : Sockets} (h : v.Distinct) : v.create.Distinct := by
  refine h.step (x := v.nextObject) (fun y m n hy hn => .inl ?_) le_rfl fun y hy => ?_
  · by_cases hyx : y = v.nextObject
    · rw [hyx, objects_create] at hy
      cases hy
      cases hn
    · exact ⟨m, by rwa [objects_create_ne v hyx] at hy, hn⟩
  · have hlt : v.nextObject < y := hy
    exact (objects_create_ne v (Nat.ne_of_gt hlt)).trans (h.created y hlt.le)

end Sockets

/-- The sockets of a world. -/
def World.sockets (w : World) : Sockets where
  objects := w.socks
  nextObject := w.nextSock
  nextHandle := w.nextHandle
  closes := w.sockCloses
  bound := w.bound
  nextTp := w.nextTp
  tpHandle := w.tpHandle
  misnamed := w.faults.any Fault.misnames

section Updates

variable (w : World) (x : SockId) (s : NativeHandle) (f : Option WinSocket → Option WinSocket)

@[simp] theorem World.sockets_setSocket : (w.setSocket x f).sockets = w.sockets.set x f := rfl

@[simp] theorem World.sockets_openHandle (named : Bool) :
    (w.openHandle named true).sockets = w.sockets.openHandle named := rfl

@[simp] theorem World.sockets_closeHandle (ok : Bool) :
    (w.closeHandle s ok).sockets = w.sockets.closeHandle s ok := rfl

@[simp] theorem World.sockets_createIo_true : (w.createIo x s true).sockets =
    (w.sockets.createTp s).set x
      (Option.map fun m => { m with socketIoHandle := some w.sockets.nextTp }) := rfl

@[simp] theorem World.sockets_createIo_false : (w.createIo x s false).sockets =
    w.sockets.set x (Option.map fun m => { m with socketIoHandle := none }) := rfl

@[simp] theorem World.sockets_handOver (n : NameRole × SockaddrStorage) (ok : Bool) :
    (w.handOver s n ok).sockets = w.sockets.name s ok := rfl

theorem World.isNamed_sockets : w.sockets.isNamed s = w.isNamed s := by
  cases s <;> rfl

theorem World.sockets_bindHandle (t : ℕ) (addr : SockaddrStorage) (ok : Bool) :
    (w.bindHandle t s addr ok).sockets =
      (w.sockets.misname (w.connecting t && w.sockets.isNamed s)).name s ok := by
  rw [isNamed_sockets]
  cases hbad : w.connecting t && w.isNamed s with
  | false => simp only [bindHandle, hbad]; rfl
  | true => simp only [bindHandle, hbad]; rfl

@[simp] theorem Sockets.closeHandle_set (v : Sockets) (ok : Bool) :
    (v.set x f).closeHandle s ok = (v.closeHandle s ok).set x f := rfl

@[simp] theorem Sockets.createTp_set (v : Sockets) :
    (v.set x f).createTp s = (v.createTp s).set x f := rfl

@[simp] theorem Sockets.nextTp_set (v : Sockets) : (v.set x f).nextTp = v.nextTp := rfl

@[simp] theorem Sockets.nextTp_openHandle (v : Sockets) (named : Bool) :
    (v.openHandle named).nextTp = v.nextTp := rfl

end Updates

theorem World.sockets_check {w : World} {bad : Bool} {f : Fault} (hf : f.misnames = false) :
    (w.check bad f).sockets = w.sockets := by
  cases bad with
  | false => rfl
  | true => simp [sockets, check, hf]

/-- A misuse of a TP_IO is none of a local address. -/
theorem World.sockets_useIo (w : World) (io : TpIo) : (w.useIo io).sockets = w.sockets := by
  cases io with
  | none => exact sockets_check rfl
  | some h => exact sockets_check rfl

/-- What `ConnectEx` does to the sockets. -/
theorem World.sockets_connectEx (w : World) (s : NativeHandle) (addr : SockaddrStorage) (t : ℕ)
    (i : DataId) (io : TpIo) (a : Ans) : (w.reply t (.overlapped (.connectEx s addr) i io) a).2.sockets =
      w.sockets.misname !w.sockets.isNamed s := by
  have hnamed : (w.submit i io (accepts a.error)).isNamed s = w.isNamed s := by cases s <;> rfl
  rw [isNamed_sockets]
  simp only [reply, request, connectsUnbound, hnamed]
  cases w.isNamed s <;> cases accepts a.error <;> rfl

/-- **What a calm call does to the sockets.** -/
theorem World.sockets_calm {w : World} {t : ℕ} {o : Op} {a : Ans} (ho : o.Calm) :
    (w.reply t o a).2.sockets = match o with
      | .makeSocket => w.sockets.create
      | .destroyed x => w.sockets.set x fun _ => none
      | .overlapped req _ _ => w.sockets.name req.binds (accepts a.error)
      | _ => w.sockets := by
  cases o with
  | readIOData i => exact sockets_check rfl
  | writeIOData i d => exact sockets_check (w := w) (f := .useAfterFree i) rfl
  | deleteIOData i => exact sockets_check (w := w) (f := .useAfterFree i) rfl
  | invoke i f args => exact sockets_check (w := w) (f := .useAfterFree i) rfl
  | trySubmitThreadpoolCallback f c k => exact sockets_check (w := w) (f := .closedPool k) rfl
  | startThreadpoolIo io => exact sockets_useIo w io
  | cancelThreadpoolIo io => exact sockets_useIo w io
  | waitForThreadpoolIoCallbacks io =>
    exact (sockets_check (w := w.useIo io) (f := .selfWait _) rfl).trans (sockets_useIo w io)
  | closeThreadpoolIo io =>
    exact (sockets_check (w := w.useIo io) (f := .closedInFlight _) rfl).trans (sockets_useIo w io)
  | closeThreadpoolCleanupGroup g => exact sockets_check (w := w) (f := .membersOpen _) rfl
  | closeThreadpool p => exact sockets_check (w := w) (f := .membersOpen _) rfl
  | closeThreadpoolCleanupGroupMembers g => cases g <;> rfl
  | overlapped req i io =>
    cases req with
    | connectEx s name => cases ho
    | _ => rfl
  | enter c => cases ho
  | leave n r => cases ho
  | writeSocket x f => cases ho
  | createThreadpoolIo x s => cases ho
  | wsaSocketW af ty pr => cases ho
  | closesocket s => cases ho
  | accept s => cases ho
  | bind s name => cases ho
  | connect s name => cases ho
  | sendto s b n dst => cases ho
  | _ => rfl

/-! ### One call -/

namespace Discipline

variable {d : Discipline} {t : ℕ} {w : World} {x : SockId}

section Calls

variable {α : Type} {Q : α → World → Prop}

theorem always_readSocket {f : WinSocket → Prog α}
    (h : (f (w.sockets.members x)).Always d.host t Q w) :
    (op (.readSocket x) >>= f).Always d.host t Q w := fun _ _ => h

theorem always_readIoHandle {f : TpIo → Prog α}
    (h : (f (w.sockets.members x).socketIoHandle).Always d.host t Q w) :
    (op (.readIoHandle x) >>= f).Always d.host t Q w := fun _ _ => h

theorem always_writeSocket {g : WinSocket → WinSocket} {f : Unit → Prog α}
    (h : (f ()).Always d.host t Q (w.setSocket x (Option.map g))) :
    (op (.writeSocket x g) >>= f).Always d.host t Q w := fun _ _ => h

theorem always_lockIoCore {f : Bool → Prog α}
    (h : ∀ a, d.check w t .lockIoCore a = true → (f w.coreAlive).Always d.host t Q w) :
    (op .lockIoCore >>= f).Always d.host t Q w := always_op h

theorem always_closesocket {s : NativeHandle} {f : Except OsError Unit → Prog α}
    (h : ∀ a r, d.check w t (.closesocket s) a = true →
      (f r).Always d.host t Q (w.closeHandle s a.error.isNone)) :
    (op (.closesocket s) >>= f).Always d.host t Q w := always_op fun a ha => h a _ ha

/-- A call that can fail does, or it does not. -/
theorem always_result {β : Type} {a : Ans} {v : β} {W : Bool → World} {f : Except OsError β → Prog α}
    (herr : ∀ e, a.error = some e → (f (.error e)).Always d.host t Q (W false))
    (hok : a.error = none → (f (.ok v)).Always d.host t Q (W true)) :
    (f (World.result a v)).Always d.host t Q (W a.error.isNone) := by
  rcases he : a.error with _ | e
  · simp only [World.result, he]
    exact hok he
  · simp only [World.result, he]
    exact herr e he

theorem always_wsaSocketW {af : AddressFamily} {ty : SocketType} {pr : Protocol}
    {f : Except OsError ℕ → Prog α}
    (herr : ∀ a e, d.check w t (.wsaSocketW af ty pr) a = true → a.error = some e →
      (f (.error e)).Always d.host t Q w)
    (hok : ∀ a, d.check w t (.wsaSocketW af ty pr) a = true → a.error = none →
      (f (.ok w.nextHandle)).Always d.host t Q (w.openHandle false true)) :
    (op (.wsaSocketW af ty pr) >>= f).Always d.host t Q w :=
  always_op fun a ha => always_result (W := w.openHandle false) (herr a · ha) (hok a ha)

theorem always_accept_op {s : NativeHandle} {f : Except OsError ℕ → Prog α}
    (herr : ∀ e, (f (.error e)).Always d.host t Q w)
    (hok : ∀ a, d.check w t (.accept s) a = true → a.error = none →
      (f (.ok w.nextHandle)).Always d.host t Q (w.openHandle true true)) :
    (op (.accept s) >>= f).Always d.host t Q w :=
  always_op fun a ha => always_result (W := w.openHandle true) (fun e _ => herr e) (hok a ha)

theorem always_getProtocolInfo {s : NativeHandle} {f : Except OsError ProtocolInfo → Prog α}
    (herr : ∀ e, (f (.error e)).Always d.host t Q w)
    (hok : ∀ a, d.check w t (.getProtocolInfo s) a = true → a.error = none →
      (f (.ok a.info)).Always d.host t Q w) :
    (op (.getProtocolInfo s) >>= f).Always d.host t Q w :=
  always_op fun a ha => always_result (W := fun _ => w) (fun e _ => herr e) (hok a ha)

theorem always_createThreadpoolIo {s : NativeHandle} {f : Except OsError Unit → Prog α}
    (herr : ∀ a e, d.check w t (.createThreadpoolIo x s) a = true → a.error = some e →
      (f (.error e)).Always d.host t Q (w.createIo x s false))
    (hok : (f (.ok ())).Always d.host t Q (w.createIo x s true)) :
    (op (.createThreadpoolIo x s) >>= f).Always d.host t Q w :=
  always_op fun a ha => always_result (W := w.createIo x s) (herr a · ha) fun _ => hok

theorem always_bind_op {s : NativeHandle} {addr : SockaddrStorage} {f : Except OsError Unit → Prog α}
    (herr : ∀ e, (f (.error e)).Always d.host t Q (w.bindHandle t s addr false))
    (hok : ∀ a, d.check w t (.bind s addr) a = true → a.error = none →
      (f (.ok ())).Always d.host t Q (w.bindHandle t s addr true)) :
    (op (.bind s addr) >>= f).Always d.host t Q w :=
  always_op fun a ha => always_result (W := w.bindHandle t s addr) (fun e _ => herr e) (hok a ha)

theorem always_connect_op {s : NativeHandle} {addr : SockaddrStorage}
    {f : Except OsError Unit → Prog α}
    (herr : ∀ e, (f (.error e)).Always d.host t Q (w.handOver s (.peer, addr) false))
    (hok : ∀ a, d.check w t (.connect s addr) a = true → a.error = none →
      (f (.ok ())).Always d.host t Q (w.handOver s (.peer, addr) true)) :
    (op (.connect s addr) >>= f).Always d.host t Q w :=
  always_op fun a ha => always_result (W := w.handOver s (.peer, addr)) (fun e _ => herr e) (hok a ha)

theorem always_sendto_op {s : NativeHandle} {buf : ℕ} {len : Int32} {addr : SockaddrStorage}
    {f : Except OsError ℕ → Prog α}
    (herr : ∀ e, (f (.error e)).Always d.host t Q (w.handOver s (.peer, addr) false))
    (hok : ∀ a, d.check w t (.sendto s buf len addr) a = true → a.error = none →
      (f (.ok a.bytes)).Always d.host t Q (w.handOver s (.peer, addr) true)) :
    (op (.sendto s buf len addr) >>= f).Always d.host t Q w :=
  always_op fun a ha => always_result (W := w.handOver s (.peer, addr)) (fun e _ => herr e) (hok a ha)

end Calls

/-! ### The ways in which a function ends -/

/-- Assign to `socket_`. -/
abbrev setNative (s : NativeHandle) : Option WinSocket → Option WinSocket :=
  Option.map fun m => { m with nativeSocket := s }

/-- The world of `socket` once `WSASocketW` has succeeded and `socket_` is assigned. -/
abbrev opened (w : World) (x : SockId) : World :=
  (w.openHandle false true).setSocket x (setNative (some w.nextHandle))

section Socket

variable {af : AddressFamily} {ty : SocketType} {pr : Protocol} {Q : ErrorCode → Sockets → Prop}

/-- **`socket`**: `WSASocketW` fails, the core is gone, the TP_IO cannot be created, or the socket is
open. -/
theorem always_socket
    (hfail : ∀ a e, d.check w t (.wsaSocketW af ty pr) a = true → a.error = some e →
      Q e.toErrorCode (w.sockets.set x (setNative none)))
    (hlock : ∀ b c, d.check (opened w x) t .lockIoCore b = true → w.coreAlive = false →
      d.check (opened w x) t (.closesocket (some w.nextHandle)) c = true →
      Q .systemError (((w.sockets.openHandle false).closeHandle (some w.nextHandle)
        c.error.isNone).set x (setNative none)))
    (hio : ∀ b c e, d.check (opened w x) t (.createThreadpoolIo x (some w.nextHandle)) b = true →
      b.error = some e →
      d.check ((opened w x).createIo x (some w.nextHandle) false) t
        (.closesocket (some w.nextHandle)) c = true →
      Q e.toErrorCode (((w.sockets.openHandle false).closeHandle (some w.nextHandle)
        c.error.isNone).set x (Option.map fun m =>
          { m with nativeSocket := none, socketIoHandle := none })))
    (hdone : ∀ a, d.check w t (.wsaSocketW af ty pr) a = true → a.error = none →
      Q .success (((w.sockets.openHandle false).createTp (some w.nextHandle)).set x
        (Option.map fun m => { m with
          nativeSocket := some w.nextHandle, socketIoHandle := some w.sockets.nextTp,
          addrFamily := af, sockType := ty, protocol := pr }))) :
    (WinSocket.socket x af ty pr).Always d.host t (fun r w' => Q r w'.sockets) w := by
  refine always_wsaSocketW (fun a e ha he => always_writeSocket (hfail a e ha he)) fun a ha he => ?_
  refine always_writeSocket (always_lockIoCore fun b hb => ?_)
  change Lib.Prog.Always _ _ (if w.coreAlive then _ else _) _ _
  split
  · refine always_createThreadpoolIo (fun b' e hb' he' => ?_) (always_writeSocket ?_)
    · refine always_closesocket fun c r hc => always_writeSocket ?_
      simpa [Function.comp_def] using hio b' c e hb' he' hc
    · simpa [Function.comp_def] using hdone a ha he
  · rename_i hcore
    refine always_closesocket fun c r hc => always_writeSocket ?_
    simpa [Function.comp_def] using hlock b c hb (Bool.eq_false_iff.mpr hcore) hc

end Socket

section Close

variable {Q : ErrorCode → Sockets → Prop}

/-- `closesocket` was called on the native socket, when there is one, and succeeded or not. -/
def Closes (d : Discipline) (t : ℕ) (s : NativeHandle) (ok : Bool) : Prop :=
  ∀ h, s = some h → ∃ w a, d.check w t (.closesocket s) a = true ∧ ok = a.error.isNone

/-- What `close` assigns to the members other than `socket_io_handle_`. -/
def reset (m : WinSocket) : WinSocket :=
  ⟨none, m.socketIoHandle, .notSupported, .notSupported, .notSupported, false⟩

theorem always_closeNative (hQ : ∀ e ok, Closes d t (w.sockets.members x).nativeSocket ok →
    Q e ((w.sockets.closeHandle (w.sockets.members x).nativeSocket ok).set x (Option.map reset))) :
    (WinSocket.closeNative x).Always d.host t (fun r w' => Q r w'.sockets) w := by
  refine always_readSocket ?_
  dsimp only
  split
  · refine always_closesocket fun a r ha => ?_
    rcases r with e | _
    · exact always_writeSocket (hQ _ _ fun _ _ => ⟨w, a, ha, rfl⟩)
    · exact always_writeSocket (hQ _ _ fun _ _ => ⟨w, a, ha, rfl⟩)
  · rename_i hnone
    rw [Option.not_isSome_iff_eq_none] at hnone
    have hend := hQ .success true fun h hs => by rw [hnone] at hs; cases hs
    rw [hnone, Sockets.closeHandle_none] at hend
    exact always_writeSocket hend

theorem always_waitAndClose {α : Type} {io : TpIo} {f : Unit → Prog α} {R : α → World → Prop}
    (h : ∀ w', w'.sockets = w.sockets → (f ()).Always d.host t R w') :
    (WinSocket.waitAndClose io >>= f).Always d.host t R w := by
  refine always_op fun a _ => always_op fun b _ => always_op fun c _ => h _ ?_
  have hwait : (w.reply t (.waitForThreadpoolIoCallbacks io) a).2.sockets = w.sockets :=
    World.sockets_calm (o := .waitForThreadpoolIoCallbacks io) rfl
  exact (World.sockets_calm (o := .closeThreadpoolIo io) rfl).trans hwait

/-- **`close`** leaves the object as its constructor does, however it ends. -/
theorem always_close (hQ : ∀ e ok, Closes d t (w.sockets.members x).nativeSocket ok →
    Q e ((w.sockets.closeHandle (w.sockets.members x).nativeSocket ok).set x
      (Option.map fun _ => .new))) :
    (WinSocket.close x).Always d.host t (fun r w' => Q r w'.sockets) w := by
  refine always_readIoHandle ?_
  dsimp only
  split
  · refine always_waitAndClose fun w' hw' => always_writeSocket (always_closeNative ?_)
    have hnative : ((w'.sockets.set x (Option.map fun m =>
        { m with socketIoHandle := none })).members x).nativeSocket =
          (w.sockets.members x).nativeSocket := by
      rw [hw', Sockets.members, Sockets.members, Sockets.objects_set]
      cases w.sockets.objects x <;> rfl
    intro e ok hok
    rw [World.sockets_setSocket, hnative] at hok ⊢
    simpa [Function.comp_def, hw', reset, WinSocket.new] using hQ e ok hok
  · rename_i hio
    rw [Option.not_isSome_iff_eq_none] at hio
    refine always_closeNative fun e ok hok => ?_
    have hreset : (w.sockets.objects x).map reset = (w.sockets.objects x).map fun _ => .new := by
      rw [Sockets.members] at hio
      cases hx : w.sockets.objects x with
      | none => rfl
      | some m =>
        rw [hx] at hio
        rw [Option.map_some, Option.map_some, reset, show m.socketIoHandle = none from hio]
        rfl
    rw [Sockets.set_congr (v := w.sockets.closeHandle _ ok) hreset]
    exact hQ e ok hok

end Close

section Accept

variable {a : SockId} {Q : ErrorCode → Sockets → Prop}

/-- **`accept`**: nothing is accepted, the accepted socket has no protocol information, the accepting
object is closed again, or it is open. -/
theorem always_accept (hfail : ∀ e, Q e w.sockets)
    (hinfo : ∀ e c, d.check (w.openHandle true true) t (.closesocket (some w.nextHandle)) c = true →
      Q e ((w.sockets.openHandle true).closeHandle (some w.nextHandle) c.error.isNone))
    (hclosed : ∀ b e s ok,
      d.check (w.openHandle true true) t (.getProtocolInfo (some w.nextHandle)) b = true →
      b.error = none → s = some w.nextHandle ∨ w.sockets.objects a = none → Closes d t s ok →
      Q e (((w.sockets.openHandle true).closeHandle s ok).set a (Option.map fun _ => .new)))
    (hdone : ∀ b, d.check (w.openHandle true true) t (.getProtocolInfo (some w.nextHandle)) b = true →
      b.error = none → Q .success (((w.sockets.openHandle true).createTp (some w.nextHandle)).set a
        (Option.map fun _ => ⟨some w.nextHandle, some w.sockets.nextTp, b.info.family, b.info.type,
          b.info.protocol, true⟩))) :
    (WinSocket.accept x a).Always d.host t (fun r w' => Q r w'.sockets) w := by
  refine always_readSocket (always_accept_op (fun e => hfail _) fun _ _ _ => ?_)
  refine always_getProtocolInfo (fun e => always_closesocket fun c r hc => hinfo _ c hc) fun b hb he => ?_
  have hclose : ∀ (e : ErrorCode) (w' : World) (g : WinSocket → WinSocket),
      w'.sockets = (w.sockets.openHandle true).set a (Option.map g) →
      (∀ m, (g m).nativeSocket = some w.nextHandle) →
      (WinSocket.close a >>= fun _ => pure e).Always d.host t (fun r w' => Q r w'.sockets) w' := by
    intro e w' g hw' hg
    suffices h : (WinSocket.close a).Always d.host t (fun _ w'' => Q e w''.sockets) w' from
      h.bind fun _ _ hQ => hQ
    refine always_close (Q := fun _ v => Q e v) fun _ ok hok => ?_
    have hnative : (w'.sockets.members a).nativeSocket = some w.nextHandle ∨
        w.sockets.objects a = none := by
      rw [hw', Sockets.members, Sockets.objects_set]
      cases ha : w.sockets.objects a with
      | none => exact .inr rfl
      | some m =>
        refine .inl ?_
        rw [show (w.sockets.openHandle true).objects a = some m from ha]
        exact hg m
    have hend := hclosed b e _ ok hb he hnative hok
    generalize (w'.sockets.members a).nativeSocket = s at hend ⊢
    rw [hw', Sockets.closeHandle_set, Sockets.set_set]
    simpa [Function.comp_def] using hend
  refine always_writeSocket (always_lockIoCore fun _ _ => ?_)
  change Lib.Prog.Always _ _ (if w.coreAlive then _ else _) _ _
  split
  · refine always_createThreadpoolIo (fun b' e hb' he' => ?_) (always_writeSocket ?_)
    · refine hclose e.toErrorCode _ (fun m => { m with
        addrFamily := b.info.family, sockType := b.info.type, protocol := b.info.protocol,
        nativeSocket := some w.nextHandle, socketIoHandle := none }) ?_ fun _ => rfl
      simp [Function.comp_def]
    · simpa [Function.comp_def] using hdone b hb he
  · exact hclose .systemError _ _ rfl fun _ => rfl

end Accept

section Naming

/-- `is_bound_ = true`. -/
abbrev setBound : Option WinSocket → Option WinSocket :=
  Option.map fun m => { m with isBound := true }

/-- `start_connect` binds a socket that has a local address. -/
abbrev rebinds (w : World) (t : ℕ) (x : SockId) : Bool :=
  w.connecting t && w.sockets.isNamed (w.sockets.members x).nativeSocket

/-- **`bind`**: there is no address to bind to, the native socket is not bound, or it is. -/
theorem always_bind {ep : Endpoint} {Q : ErrorCode → Sockets → Prop}
    (hsame : ∀ e, e ≠ .success → Q e w.sockets)
    (hfail : ∀ e, e ≠ .success → Q e (w.sockets.misname (rebinds w t x)))
    (hok : ∀ addr a, d.check w t (.bind (w.sockets.members x).nativeSocket addr) a = true →
      a.error = none → Q .success (((w.sockets.misname (rebinds w t x)).name
        (w.sockets.members x).nativeSocket true).set x setBound)) :
    (WinSocket.bind x ep).Always d.host t (fun r w' => Q r w'.sockets) w := by
  refine always_readSocket ?_
  dsimp only
  split
  · rename_i hne
    exact hsame _ hne
  refine always_readSocket (always_bind_op (fun e => ?_) fun a ha he => always_writeSocket ?_)
  · have hv := w.sockets_bindHandle (w.sockets.members x).nativeSocket t
      (endpointToSockaddr (w.sockets.members x).addrFamily ep zeroMemory).2 false
    change Q e.toErrorCode (World.sockets _)
    rw [hv]
    exact hfail e.toErrorCode e.toErrorCode_ne
  · have hv := w.sockets_bindHandle (w.sockets.members x).nativeSocket t
      (endpointToSockaddr (w.sockets.members x).addrFamily ep zeroMemory).2 true
    rw [Prog.pure_eq, Prog.always_ret, World.sockets_setSocket, hv]
    exact hok _ a ha he

/-- **`connect`**: there is no address to connect to, the native socket is not connected, or it is. -/
theorem always_connect {dst : Endpoint} {Q : ErrorCode → Sockets → Prop} (hsame : ∀ e, Q e w.sockets)
    (hok : ∀ addr a, d.check w t (.connect (w.sockets.members x).nativeSocket addr) a = true →
      a.error = none →
        Q .success ((w.sockets.name (w.sockets.members x).nativeSocket true).set x setBound)) :
    (WinSocket.connect x dst).Always d.host t (fun r w' => Q r w'.sockets) w := by
  refine always_readSocket ?_
  dsimp only
  split
  · exact hsame _
  exact always_readSocket (always_connect_op (fun e => hsame _) fun a ha he =>
    always_writeSocket (hok _ a ha he))

/-- **`send_to`**: there is no address to send to, nothing is sent, or something is. -/
theorem always_sendTo {b : Span} {dst : Endpoint} {Q : Sockets → Prop} (hsame : Q w.sockets)
    (hok : ∀ buf len addr a,
      d.check w t (.sendto (w.sockets.members x).nativeSocket buf len addr) a = true →
      a.error = none →
        Q ((w.sockets.name (w.sockets.members x).nativeSocket true).set x setBound)) :
    (WinSocket.sendTo x b dst).Always d.host t (fun _ w' => Q w'.sockets) w := by
  refine always_readSocket ?_
  dsimp only
  split
  · exact hsame
  exact always_readSocket (always_sendto_op (fun e => hsame) fun a ha he =>
    always_writeSocket (hok _ _ _ a ha he))

end Naming

section Start

variable {J K : World → Prop}

/-- What calm calls keep, a program of calm calls keeps. -/
theorem always_calm {α : Type} {p : Prog α} (hp : p.All Op.Calm)
    (hcalm : ∀ {w o a}, o.Calm → J w → d.check w t o a = true → J (w.reply t o a).2) (hw : J w) :
    p.Always d.host t (fun _ => J) w :=
  .of_all hp (fun _ _ _ ho hc h => hcalm ho h (Bool.and_eq_true_iff.mp hc).1) hw

/-- **`start_accept`** opens the accepting object when it is not open. -/
theorem always_startAccept {a : SockId} {f : Option ℕ}
    (hcalm : ∀ {w o a}, o.Calm → J w → d.check w t o a = true → J (w.reply t o a).2)
    (hsocket : (w.sockets.members a).nativeSocket = none →
      ∀ af ty pr, (WinSocket.socket a af ty pr).Always d.host t (fun _ => J) w) (hw : J w) :
    (WinSocket.startAccept x a f).Always d.host t (fun _ => J) w := by
  have hio : ∀ w', J w' → (WinSocket.startAcceptIo x a f).Always d.host t (fun _ => J) w' :=
    fun w' hw' => always_calm (WinSocket.calm_startAcceptIo x a f) hcalm hw'
  refine always_readSocket ?_
  dsimp only
  split
  · rename_i hnone
    refine always_readSocket ((hsocket (Option.isNone_iff_eq_none.mp hnone) _ _ _).bind ?_)
    intro r w' hw'
    split
    · exact hw'
    · exact hio w' hw'
  · exact hio w hw

/-- The implicit bind of `start_connect`. -/
theorem always_bindForConnect {any : Endpoint} {Q : ErrorCode → World → Prop}
    (hbound : (w.sockets.members x).isBound = true → Q .success w)
    (hbind : (w.sockets.members x).isBound = false → (WinSocket.bind x any).Always d.host t Q w) :
    (WinSocket.bindForConnect x any).Always d.host t Q w := by
  refine always_readSocket ?_
  split
  · rename_i hb
    exact hbound hb
  · rename_i hb
    exact hbind (Bool.eq_false_iff.mpr hb)

/-- The end of `start_connect`. -/
def connectIo (x : SockId) (i : DataId) : Prog ErrorCode :=
  WinSocket.startIo x i do
    let d ← op (.readIOData i)
    return .connectEx (← op (.readSocket x)).nativeSocket d.peerWinAddr

/-- **`start_connect`** makes the overlapped call when the socket was bound, then or earlier. -/
theorem always_startConnect {dst : Endpoint} {f : Option ℕ}
    (hcalm : ∀ {w o a}, o.Calm → J w → d.check w t o a = true → J (w.reply t o a).2)
    (hbind : ∀ any {w}, J w → (WinSocket.bindForConnect x any).Always d.host t
      (fun r w' => J w' ∧ (r = .success → K w')) w)
    (hio : ∀ i {w}, J w → K w → (connectIo x i).Always d.host t (fun _ => J) w) (hw : J w) :
    (WinSocket.startConnect x dst f).Always d.host t (fun _ => J) w := by
  have hend : ∀ i e w', J w' ∧ (e = .success → K w') → Lib.Prog.Always d.host t
      (if e ≠ ErrorCode.success then pure e else connectIo x i) (fun _ => J) w' := by
    intro i e w' hw'
    split
    · exact hw'.1
    · rename_i hsucc
      exact hio i hw'.1 (hw'.2 (not_not.mp hsucc))
  refine always_op fun a ha => ?_
  have hw₁ := hcalm (o := .newIOData _) rfl hw ha
  generalize (w.reply t (.newIOData (.new x ⟨.connect, f⟩)) a) = r at hw₁ ⊢
  obtain ⟨i, w₁⟩ := r
  refine always_readSocket (always_op fun b hb => ?_)
  have hw₂ := hcalm (o := .writeIOData _ _) rfl hw₁ hb
  dsimp only
  split
  · exact hw₂
  rename_i hsucc
  have hfamily := endpointToSockaddr_eq_success_iff.mp (not_not.mp hsucc)
  rcases hfamily with h4 | h6
  · rw [h4] at hw₂ ⊢
    rw [if_pos (ssFamily_ipv4 _ _)]
    exact (hbind _ hw₂).bind (hend i)
  · rw [h6] at hw₂ ⊢
    rw [if_neg (by rw [ssFamily_ipv6]; decide), if_pos (ssFamily_ipv6 _ _)]
    exact (hbind _ hw₂).bind (hend i)

/-- **The `ConnectEx` of `start_connect`**, on a socket of which `P` is known. -/
theorem always_connectIo {I P : Sockets → Prop} {i : DataId}
    (hcalm : ∀ {w o a}, o.Calm → I w.sockets → d.check w t o a = true → I (w.reply t o a).2.sockets)
    (hconnect : ∀ {v}, I v → P v → I (v.misname !v.isNamed (v.members x).nativeSocket))
    (hI : I w.sockets) (hP : P w.sockets) :
    (connectIo x i).Always d.host t (fun _ w' => I w'.sockets) w := by
  refine always_readIoHandle (always_op fun a _ => ?_)
  have hv₁ : (w.reply t (.startThreadpoolIo (w.sockets.members x).socketIoHandle) a).2.sockets =
      w.sockets := World.sockets_calm (o := .startThreadpoolIo _) rfl
  generalize (w.reply t (.startThreadpoolIo (w.sockets.members x).socketIoHandle) a).2 = w₁ at hv₁ ⊢
  refine always_op fun b _ => ?_
  have hv₂ : (w₁.reply t (.readIOData i) b).2.sockets = w.sockets :=
    (World.sockets_calm (o := .readIOData i) rfl).trans hv₁
  generalize w₁.reply t (.readIOData i) b = r at hv₂ ⊢
  obtain ⟨data, w₂⟩ := r
  refine always_readSocket (always_op fun c _ => ?_)
  have hv₃ := w₂.sockets_connectEx (w₂.sockets.members x).nativeSocket data.peerWinAddr t i
    (w.sockets.members x).socketIoHandle c
  have hI₃ := hconnect hI hP
  rw [← show w₂.sockets = w.sockets from hv₂] at hI₃
  rw [← hv₃] at hI₃
  generalize w₂.reply t (.overlapped _ i _) c = r at hI₃ ⊢
  obtain ⟨e, w₃⟩ := r
  refine always_calm (J := fun w => I w.sockets) ?_ hcalm hI₃
  rcases e with e | _
  · show Lib.Prog.All _ (if e.code ≠ errorIoPending then _ else _)
    split
    · exact (WinSocket.calm_deleteIOData i).bind fun _ => ⟨rfl, fun _ => ⟨rfl, fun _ => trivial⟩⟩
    · exact trivial
  · exact trivial

end Start

end Discipline

/-! ### Between the calls -/

/-- A function of the interface that may change a socket that there is. -/
def ApiCall.changes : ApiCall → Bool
  | .socket _ _ _ _ | .bind _ _ | .close _ | .accept _ _ | .connect _ _ | .sendTo _ _ _
  | .startAccept _ _ _ | .startConnect _ _ _ | .initializeCore => true
  | _ => false

theorem ApiCall.calm_body {c : ApiCall} (hc : c.changes = false) : c.body.All Op.Calm := by
  cases c with
  | startRecv x b f => exact WinSocket.calm_startRecv x b f
  | startRecvFrom x b f => exact WinSocket.calm_startRecvFrom x b f
  | startSend x b f => exact WinSocket.calm_startSend x b f
  | startSendTo x b dst f => exact WinSocket.calm_startSendTo x b dst f
  | startDisconnect x r f => exact WinSocket.calm_startDisconnect x r f
  | postIoWork n => exact WinSocket.calm_postWork .io (.user n)
  | postUserWork n => exact WinSocket.calm_postWork .user (.user n)
  | releaseCore => exact WinIOCore.ofCore_releaseCore.mono fun _ => Op.OfCore.calm
  | create => exact trivial
  | copyRef _ => exact trivial
  | dropRef _ => exact trivial
  | _ => cases hc

namespace Discipline

/-- What callbacks and destructors do keeps a property of the sockets. -/
structure Calms (d : Discipline) (I : Sockets → Prop) : Prop where
  /-- Creating an object keeps it. -/
  create : ∀ {v}, I v → I v.create
  /-- So does destroying one. -/
  destroyed : ∀ {w t x a}, I w.sockets → d.check w t (.destroyed x) a = true →
    I (w.sockets.set x fun _ => none)
  /-- So does an overlapped call other than `ConnectEx`. -/
  overlapped : ∀ {w t req i io a}, I w.sockets → d.check w t (.overlapped req i io) a = true →
    I (w.sockets.name req.binds (World.accepts a.error))

theorem Calms.calm {d : Discipline} {I : Sockets → Prop} (h : d.Calms I) {w : World} {t : ℕ} {o : Op}
    {a : Ans} (ho : o.Calm) (hw : I w.sockets) (hc : d.check w t o a = true) :
    I (w.reply t o a).2.sockets := by
  rw [World.sockets_calm ho]
  split
  · exact h.create hw
  · exact h.destroyed hw hc
  · exact h.overlapped hw hc
  · exact hw

/-- A lookup of `get_extended_socket_functions` closes the dummy socket when it fails. -/
theorem always_lookupExtFn {d : Discipline} {w : World} {t : ℕ} {s : NativeHandle} {fn : ExtFn}
    {R : Option ErrorCode → World → Prop} (hnone : ∀ w', w'.sockets = w.sockets → R none w')
    (hsome : ∀ e w' ok, Closes d t s ok → w'.sockets = w.sockets.closeHandle s ok → R (some e) w') :
    (WinIOCore.lookupExtFn s fn).Always d.host t R w := by
  refine always_op fun _ _ => ?_
  change Lib.Prog.Always d.host t (if w.extFns fn then _ else _) R w
  split
  · exact hnone w rfl
  refine always_op fun a _ => ?_
  have hv : (w.reply t (.wsaIoctl s fn) a).2.sockets = w.sockets :=
    World.sockets_calm (o := .wsaIoctl s fn) rfl
  generalize w.reply t (.wsaIoctl s fn) a = r at hv ⊢
  obtain ⟨e | _, w'⟩ := r
  · refine always_closesocket fun c r hc => ?_
    exact hsome e.toErrorCode (w'.closeHandle s c.error.isNone) c.error.isNone
      (fun _ _ => ⟨w', c, hc, rfl⟩) (congrArg (Sockets.closeHandle · s c.error.isNone) hv)
  · exact hnone w' hv

theorem always_lookupExtFns {d : Discipline} {w : World} {t : ℕ} {s : NativeHandle} {fns : List ExtFn}
    {R : Option ErrorCode → World → Prop} (hnone : ∀ w', w'.sockets = w.sockets → R none w')
    (hsome : ∀ e w' ok, Closes d t s ok → w'.sockets = w.sockets.closeHandle s ok → R (some e) w') :
    (WinIOCore.lookupExtFns s fns).Always d.host t R w := by
  induction fns generalizing w with
  | nil => exact hnone w rfl
  | cons fn fns ih =>
    refine Prog.always_bind.mpr (always_lookupExtFn (fun w' hw' => ?_) fun e w' ok hok hw' => ?_)
    · exact ih (fun w'' hw'' => hnone w'' (hw''.trans hw')) fun e w'' ok hok hw'' =>
        hsome e w'' ok hok (hw''.trans (congrArg (Sockets.closeHandle · s ok) hw'))
    · exact hsome e w' ok hok hw'

/-- **`initialize`** opens a native socket, the dummy, and closes it again. -/
theorem Calms.always_initializeCore {d : Discipline} {I : Sockets → Prop} (h : d.Calms I) {w : World}
    {t : ℕ} (hdummy : ∀ {v ok}, I v → Closes d t (some v.nextHandle) ok →
      I ((v.openHandle false).closeHandle (some v.nextHandle) ok)) (hw : I w.sockets) :
    WinIOCore.initializeCore.Always d.host t (fun _ w' => I w'.sockets) w := by
  have hpool : ∀ a b k {w' : World}, I w'.sockets →
      (WinIOCore.initializeThreadpool a b k).Always d.host t (fun _ w' => I w'.sockets) w' :=
    fun a b k w' hw' => always_calm (J := fun w => I w.sockets)
      ((WinIOCore.ofCore_initializeThreadpool a b k).mono fun _ => Op.OfCore.calm) h.calm hw'
  have hfns : ∀ {w' : World}, I w'.sockets →
      WinIOCore.getExtendedSocketFunctions.Always d.host t (fun _ w' => I w'.sockets) w' := by
    intro w' hw'
    refine always_wsaSocketW (fun _ _ _ _ => hw') fun _ _ _ => ?_
    refine (always_lookupExtFns (w := w'.openHandle false true) (R := fun r w'' => (r = none → w''.sockets = w'.sockets.openHandle false) ∧
      (r ≠ none → I w''.sockets)) (fun w'' hw'' => ⟨fun _ => hw'', fun h => (h rfl).elim⟩)
      fun e w'' ok hok hw'' => ⟨nofun, fun _ => hw'' ▸ hdummy hw' hok⟩).bind ?_
    rintro (_ | e) w'' ⟨hopened, hclosed⟩
    · refine always_closesocket fun c r hc => ?_
      have hend : I (w''.closeHandle (some w'.nextHandle) c.error.isNone).sockets := by
        rw [World.sockets_closeHandle, hopened rfl]
        exact hdummy hw' fun _ _ => ⟨_, c, hc, rfl⟩
      rcases r with e | _ <;> exact hend
    · exact hclosed nofun
  refine always_op fun a ha => ?_
  have hw₁ := h.calm (o := .wsaStartup _) rfl hw ha
  generalize w.reply t (.wsaStartup _) a = r at hw₁ ⊢
  obtain ⟨e | version, w₁⟩ := r
  · exact hw₁
  dsimp only
  split
  · exact hw₁
  refine (hfns hw₁).bind fun e w₂ hw₂ => ?_
  split
  · exact hw₂
  refine always_op fun _ _ => (hpool _ _ _ hw₂).bind fun e w₃ hw₃ => ?_
  split
  · exact hw₃
  refine (hpool _ _ _ hw₃).bind fun e w₄ hw₄ => ?_
  split
  · exact hw₄
  · exact always_op fun _ _ => hw₄

/-- What is to be shown of a property of the sockets. -/
structure Kept (d : Discipline) (I : Sockets → Prop) : Prop extends Calms d I where
  /-- A function of the interface that may change a socket restores it. -/
  body : ∀ {w t c a}, c.changes = true → I w.sockets → d.check w t (.enter c) a = true →
    c.body.Always d.host t (fun _ w' => I w'.sockets) (w.enterCall t c)
  /-- The completion of an operation keeps it. -/
  complete : ∀ {w k e c}, I w.sockets → d.env w (.complete k c) = true → w.kernel[k]? = some e →
    I (w.sockets.name (w.acceptedBy e.data) (c.ioResult = 0))

namespace Kept

variable {d : Discipline} {I : Sockets → Prop} (h : d.Kept I)
include h

theorem keeps : d.Keeps fun w => I w.sockets where
  calm := h.calm
  body {w t c a} hw hc := by
    cases hchanges : c.changes with
    | true => exact h.body hchanges hw hc
    | false => exact always_calm (ApiCall.calm_body hchanges) h.calm hw
  leave {w t n r} hw := by
    have hv : (w.leaveCall t n r).sockets = w.sockets :=
      World.sockets_check (w := w) (f := .notQuiescent) rfl
    rwa [hv]
  event {w w' n e p} hw he hs := by
    cases hs with
    | @complete k e c hk =>
      have hv : (w.complete k e c).sockets = w.sockets.name (w.acceptedBy e.data) (c.ioResult = 0) := by
        simp [World.complete, World.sockets, Sockets.name]
      rw [hv]
      exact h.complete hw he hk
    | _ => exact hw

/-- **What the functions restore holds between the calls.** -/
theorem holds {conf : IOCoreConfig} (h₀ : I (World.start conf).sockets) {s : State}
    (hs : serialMachine.Reach d.guard (State.start conf) s) (hb : s.w.between = true) :
    I s.w.sockets := h.keeps.holds h₀ hs hb

end Kept

end Discipline

end FirelinkNet
