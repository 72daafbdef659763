import FirelinkNet.System

/-!
# Starting an operation without a TP_IO

`socket_io_handle_` is null in an object that was never opened, could not be opened, or was closed.
`close` and `~WinSocket` look at it before they use it; the `start_…` functions do not. They allocate
an `IOData` and call `StartThreadpoolIo`, which must not be called with a null pointer.

## What is proved

* `refused_null_iff` — a `start_…` function that is called on an object without a TP_IO **refuses
  cleanly exactly when it is `start_accept`, which has to open the accepting object first, and that
  object cannot be opened**, or is the object itself and `AcceptEx` is refused.
* `not_refused_startRecv` — `start_recv` does not, on an object that was just created.
-/

namespace FirelinkNet

open Lib

/-- How often a function was called with a null TP_IO. -/
def World.nulls (w : World) : ℕ := w.faults.count .nullTpIo

/-- The function returned an error, called nothing with a null TP_IO, and left no `IOData`. -/
structure Refused (w : World) (r : ErrorCode) (w' : World) : Prop where
  /-- It returned an error. -/
  error : r ≠ .success
  /-- It called nothing with a null TP_IO. -/
  nulls : w'.nulls = w.nulls
  /-- What it allocated was freed. -/
  freed : ∀ i, w.nextData ≤ i → i < w'.nextData → (w'.heap i).isLive = false

/-- The function called something with a null TP_IO, or left an `IOData`. -/
def Misused (w w' : World) : Prop :=
  w.nulls < w'.nulls ∨ (w.nextData < w'.nextData ∧ (w'.heap w.nextData).isLive = true)

theorem Misused.not_refused {w w' : World} {r : ErrorCode} (h : Misused w w') : ¬ Refused w r w' := by
  intro hr
  rcases h with hlt | ⟨hnew, hlive⟩
  · exact absurd hr.nulls (Nat.ne_of_gt hlt)
  · rw [hr.freed _ le_rfl hnew] at hlive
    cases hlive

theorem refused_congr {w w₁ w' : World} {r : ErrorCode} (hn : w₁.nulls = w.nulls)
    (hd : w₁.nextData = w.nextData) : Refused w₁ r w' ↔ Refused w r w' := by
  constructor
  · exact fun h => ⟨h.error, h.nulls.trans hn, fun i hi => h.freed i (hd ▸ hi)⟩
  · exact fun h => ⟨h.error, h.nulls.trans hn.symm, fun i hi => h.freed i (hd ▸ hi)⟩

/-! ### Nothing is forgotten -/

theorem World.nulls_check (w : World) (bad : Bool) (f : Fault) : w.nulls ≤ (w.check bad f).nulls := by
  cases bad with
  | false => exact le_rfl
  | true => exact List.count_le_count_cons

theorem World.nulls_check_ne (w : World) (bad : Bool) {f : Fault} (hf : f ≠ .nullTpIo) :
    (w.check bad f).nulls = w.nulls := by
  cases bad with
  | false => rfl
  | true => exact List.count_cons_of_ne hf

theorem World.nulls_useIo_some (w : World) (h : ℕ) : (w.useIo (some h)).nulls = w.nulls :=
  nulls_check_ne w _ nofun

theorem World.nulls_waitIo_some (w : World) (t h : ℕ) : (w.waitIo t (some h)).nulls = w.nulls :=
  (nulls_check_ne (w.useIo (some h)) _ (f := .selfWait h) nofun).trans (w.nulls_useIo_some h)

theorem World.nulls_closeIo_some (w : World) (t h : ℕ) : (w.closeIo t (some h)).nulls = w.nulls :=
  (nulls_check_ne (w.useIo (some h)) _ (f := .closedInFlight h) nofun).trans (w.nulls_useIo_some h)

theorem World.nulls_useIo (w : World) (io : TpIo) : w.nulls ≤ (w.useIo io).nulls := nulls_check ..

/-- A call with a null TP_IO stays on record. -/
theorem World.nulls_reply (w : World) (t : ℕ) (o : Op) (a : Ans) : w.nulls ≤ (w.reply t o a).2.nulls := by
  cases o with
  | leave n r => exact nulls_check w _ _
  | readIOData i => exact nulls_check w _ _
  | writeIOData i d => exact nulls_check w _ _
  | deleteIOData i => exact nulls_check w _ _
  | invoke i f args => exact nulls_check w _ _
  | trySubmitThreadpoolCallback f c k => exact nulls_check w _ _
  | startThreadpoolIo io => exact nulls_useIo w io
  | cancelThreadpoolIo io => exact nulls_useIo w io
  | waitForThreadpoolIoCallbacks io => exact (nulls_useIo w io).trans (nulls_check _ _ _)
  | closeThreadpoolIo io => exact (nulls_useIo w io).trans (nulls_check _ _ _)
  | closeThreadpoolCleanupGroup g => exact nulls_check w _ _
  | closeThreadpool p => exact nulls_check w _ _
  | bind s name => exact nulls_check w _ _
  | overlapped req i io => exact nulls_check (w.submit i io (accepts a.error)) _ _
  | closeThreadpoolCleanupGroupMembers g => cases g <;> exact le_rfl
  | _ => exact le_rfl

/-- The object has no TP_IO. -/
def World.WithoutIo (w : World) (x : SockId) : Prop := ∃ m, w.socks x = some m ∧ m.socketIoHandle = none

theorem World.WithoutIo.get {w : World} {x : SockId} (h : w.WithoutIo x) :
    ((w.socks x).getD .new).socketIoHandle = none := by
  obtain ⟨m, hm, hio⟩ := h
  rw [hm]
  exact hio

namespace WinSocket

variable {w : World} {t : ℕ} {x : SockId}

/-- Whatever a program does, what is on record stays. -/
theorem always_nulls {α : Type} (p : Prog α) {n : ℕ} (hn : n ≤ w.nulls) :
    p.Always serialHost t (fun _ w' => n ≤ w'.nulls) w := by
  have hall : p.All fun _ => True := by
    induction p with
    | ret a => exact trivial
    | call o k ih => exact ⟨trivial, ih⟩
  exact .of_all hall (fun w o a _ _ h => h.trans (w.nulls_reply t o a)) hn

/-- **The end of a `start_…` function on an object without a TP_IO** calls `StartThreadpoolIo` with a null
pointer. -/
theorem nulls_startIo {i : DataId} {request : Prog IoRequest} (hx : w.WithoutIo x) :
    (startIo x i request).Always serialHost t (fun _ w' => w.nulls < w'.nulls) w := by
  refine Prog.Always.op_bind fun a _ => Prog.Always.op_bind fun b _ => ?_
  have hstart : w.nulls < (w.startIo t ((w.socks x).getD .new).socketIoHandle).nulls := by
    rw [hx.get]
    exact Nat.lt_of_lt_of_eq (Nat.lt_succ_self _) List.count_cons_self.symm
  exact always_nulls _ hstart

/-- A `start_…` function that allocates, and announces the operation at once. -/
theorem misused_newIo {d : IOData} {request : DataId → Prog IoRequest} (hx : w.WithoutIo x) :
    (op (.newIOData d) >>= fun i => startIo x i (request i)).Always serialHost t
      (fun _ w' => Misused w w') w :=
  Prog.Always.op_bind fun _ _ =>
    (nulls_startIo (w := w.newIOData t d) hx).mono fun _ _ h => .inl h

/-- An `IOData` was allocated, and the object still has no TP_IO. -/
structure Allocated (w₀ : World) (x : SockId) (w : World) : Prop where
  withoutIo : w.WithoutIo x
  nulls : w₀.nulls ≤ w.nulls
  next : w₀.nextData < w.nextData
  live : (w.heap w₀.nextData).isLive = true

theorem Allocated.misused {w₀ : World} (h : Allocated w₀ x w) : Misused w₀ w := .inr ⟨h.next, h.live⟩

theorem Allocated.startIo {w₀ : World} {i : DataId} {request : Prog IoRequest} (h : Allocated w₀ x w) :
    (startIo x i request).Always serialHost t (fun _ w' => Misused w₀ w') w :=
  (nulls_startIo h.withoutIo).mono fun _ _ hlt => .inl (h.nulls.trans_lt hlt)

theorem allocated_newIOData (d d' : IOData) (hx : w.WithoutIo x) :
    Allocated w x ((w.newIOData t d).writeIOData w.nextData d') := by
  refine ⟨hx, World.nulls_check .., Nat.lt_succ_self _, ?_⟩
  simp [World.writeIOData, World.newIOData, World.useData, World.check, upd, Cell.isLive, Cell.map]

/-- Binding the object changes neither. -/
theorem Allocated.bindForConnect {w₀ : World} {any : Endpoint} (h : Allocated w₀ x w) :
    (bindForConnect x any).Always serialHost t (fun _ => Allocated w₀ x) w := by
  have hwrite : ∀ {w : World}, Allocated w₀ x w →
      Allocated w₀ x (w.setSocket x (Option.map fun m => { m with isBound := true })) := by
    rintro w ⟨⟨m, hm, hio⟩, hnulls, hnext, hlive⟩
    refine ⟨⟨{ m with isBound := true }, ?_, hio⟩, hnulls, hnext, hlive⟩
    rw [World.setSocket, hm]
    exact Function.update_self ..
  have hbind : ∀ s name ok, Allocated w₀ x (w.bindHandle t s name ok) := fun s name ok =>
    ⟨h.withoutIo, h.nulls.trans (World.nulls_check ..), h.next, h.live⟩
  refine Prog.Always.op_bind fun _ _ => ?_
  split
  · exact h
  refine Prog.Always.op_bind fun _ _ => ?_
  dsimp only
  split
  · exact h
  refine Prog.Always.op_bind fun _ _ => Prog.Always.op_bind fun a _ => ?_
  have hw := hbind ((w.socks x).getD .new).nativeSocket
    (endpointToSockaddr ((w.socks x).getD .new).addrFamily any zeroMemory).2 a.error.isNone
  split
  · exact hw
  · exact Prog.Always.op_bind fun _ _ => hwrite hw

section

attribute [local irreducible] Prog.Always

theorem misused_startConnect {dst : Endpoint} {f : Option ℕ} (hx : w.WithoutIo x) :
    (startConnect x dst f).Always serialHost t (fun _ w' => Misused w w') w := by
  refine Prog.Always.op_bind fun _ _ => Prog.Always.op_bind fun _ _ => Prog.Always.op_bind fun _ _ => ?_
  have h := allocated_newIOData (t := t) (.new x ⟨.connect, f⟩)
    { IOData.new x ⟨.connect, f⟩ with peerWinAddr :=
      (endpointToSockaddr ((w.socks x).getD .new).addrFamily dst zeroMemory).2 } hx
  have hend : ∀ e w', Allocated w x w' → Lib.Prog.Always serialHost t
      (if e ≠ ErrorCode.success then pure e else startIo x w.nextData do
        let d ← op (.readIOData w.nextData)
        return .connectEx (← op (.readSocket x)).nativeSocket d.peerWinAddr)
      (fun _ w' => Misused w w') w' := by
    intro e w' hw'
    split
    · exact Prog.always_ret.mpr hw'.misused
    · exact hw'.startIo
  change Lib.Prog.Always serialHost t (if _ ≠ ErrorCode.success then _ else _) _ _
  split
  · exact Prog.always_ret.mpr h.misused
  dsimp only
  split
  · exact h.bindForConnect.bind hend
  · split
    · exact h.bindForConnect.bind hend
    · exact hend .success _ h

theorem misused_startSendTo {b : Span} {dst : Endpoint} {f : Option ℕ} (hx : w.WithoutIo x) :
    (startSendTo x b dst f).Always serialHost t (fun _ w' => Misused w w') w := by
  refine Prog.Always.op_bind fun _ _ => Prog.Always.op_bind fun _ _ => Prog.Always.op_bind fun _ _ => ?_
  have h := allocated_newIOData (t := t) { IOData.new x ⟨.write, f⟩ with userBuffer := b }
    { IOData.new x ⟨.write, f⟩ with userBuffer := b, peerWinAddr :=
      (endpointToSockaddr ((w.socks x).getD .new).addrFamily dst zeroMemory).2 } hx
  change Lib.Prog.Always serialHost t (if _ ≠ ErrorCode.success then _ else _) _ _
  split
  · exact Prog.always_ret.mpr h.misused
  · exact h.startIo

end

/-! ### Calls that can fail -/

section Calls

variable {α : Type} {as : List Ans} {b : α} {w' : World}

/-- A call that can fail does, or it does not. -/
theorem eval_result {β : Type} {y : Ans} (v : β) (W : Bool → World) {f : Except OsError β → Prog α}
    (he : (f (World.result y v)).eval serialHost t (W y.error.isNone) as = some (b, w')) :
    (∃ e, y.error = some e ∧ (f (.error e)).eval serialHost t (W false) as = some (b, w')) ∨
      (y.error = none ∧ (f (.ok v)).eval serialHost t (W true) as = some (b, w')) := by
  rcases hy : y.error with _ | e
  · simp only [World.result, hy] at he
    exact .inr ⟨rfl, he⟩
  · simp only [World.result, hy] at he
    exact .inl ⟨e, rfl, he⟩

/-- `::accept`, and how its caller goes on. -/
theorem eval_accept_op {s : NativeHandle} {f : Except OsError ℕ → Prog α}
    (he : (op (.accept s) >>= f).eval serialHost t w as = some (b, w')) : ∃ y ys, as = y :: ys ∧
      ((∃ e, y.error = some e ∧ (f (.error e)).eval serialHost t w ys = some (b, w')) ∨
        (y.error = none ∧
          (f (.ok w.nextHandle)).eval serialHost t (w.openHandle true true) ys = some (b, w'))) := by
  obtain ⟨y, ys, rfl, he'⟩ := Prog.eval_op_bind he
  exact ⟨y, ys, rfl, eval_result w.nextHandle (w.openHandle true) he'⟩

/-- `WSASocketW`, and how its caller goes on. -/
theorem eval_wsaSocketW {af : AddressFamily} {ty : SocketType} {pr : Protocol}
    {f : Except OsError ℕ → Prog α}
    (he : (op (.wsaSocketW af ty pr) >>= f).eval serialHost t w as = some (b, w')) : ∃ y ys, as = y :: ys ∧
      ((∃ e, y.error = some e ∧ (f (.error e)).eval serialHost t w ys = some (b, w')) ∨
        (y.error = none ∧
          (f (.ok w.nextHandle)).eval serialHost t (w.openHandle false true) ys = some (b, w'))) := by
  obtain ⟨y, ys, rfl, he'⟩ := Prog.eval_op_bind he
  exact ⟨y, ys, rfl, eval_result w.nextHandle (w.openHandle false) he'⟩

/-- `getsockopt`, and how its caller goes on. -/
theorem eval_getProtocolInfo {s : NativeHandle} {f : Except OsError ProtocolInfo → Prog α}
    (he : (op (.getProtocolInfo s) >>= f).eval serialHost t w as = some (b, w')) : ∃ y ys, as = y :: ys ∧
      ((∃ e, y.error = some e ∧ (f (.error e)).eval serialHost t w ys = some (b, w')) ∨
        (y.error = none ∧ (f (.ok y.info)).eval serialHost t w ys = some (b, w'))) := by
  obtain ⟨y, ys, rfl, he'⟩ := Prog.eval_op_bind he
  exact ⟨y, ys, rfl, eval_result y.info (fun _ => w) he'⟩

/-- `CreateThreadpoolIo`, and how its caller goes on. -/
theorem eval_createThreadpoolIo {a : SockId} {s : NativeHandle} {f : Except OsError Unit → Prog α}
    (he : (op (.createThreadpoolIo a s) >>= f).eval serialHost t w as = some (b, w')) :
    ∃ y ys, as = y :: ys ∧
      ((∃ e, y.error = some e ∧
          (f (.error e)).eval serialHost t (w.createIo a s false) ys = some (b, w')) ∨
        (y.error = none ∧ (f (.ok ())).eval serialHost t (w.createIo a s true) ys = some (b, w'))) := by
  obtain ⟨y, ys, rfl, he'⟩ := Prog.eval_op_bind he
  exact ⟨y, ys, rfl, eval_result () (w.createIo a s) he'⟩

end Calls

/-! ### `start_accept` -/

/-- The answer to the `n`-th call is an error. -/
def failsAt (as : List Ans) (n : ℕ) : Bool := (as[n]?).any fun a => a.error.isSome

/-- The operating system does not let `socket` open the object: its first call is `WSASocketW`, its
fourth `CreateThreadpoolIo`. -/
def refusesToOpen (w : World) (as : List Ans) : Bool := failsAt as 0 || !w.coreAlive || failsAt as 3

theorem socket_refused {a : SockId} {af : AddressFamily} {ty : SocketType} {pr : Protocol} {ys : List Ans}
    {e : ErrorCode} {w₁ : World} (he : (socket a af ty pr).eval serialHost t w ys = some (e, w₁)) :
    (e ≠ .success ∧ refusesToOpen w ys = true) ∨
      (e = .success ∧ refusesToOpen w ys = false ∧ ys.length = 5) := by
  obtain ⟨y₀, ys₁, rfl, ⟨e₀, h₀, he₁⟩ | ⟨h₀, he₁⟩⟩ := eval_wsaSocketW he
  · obtain ⟨y₁, ys₂, rfl, he₂⟩ := Prog.eval_op_bind he₁
    cases (Prog.eval_pure he₂).2
    exact .inl ⟨e₀.toErrorCode_ne, by simp [refusesToOpen, failsAt, h₀]⟩
  obtain ⟨y₁, ys₂, rfl, he₂⟩ := Prog.eval_op_bind he₁
  obtain ⟨y₂, ys₃, rfl, he₃⟩ := Prog.eval_op_bind he₂
  change Lib.Prog.eval serialHost t (if w.coreAlive then _ else _) _ _ = _ at he₃
  cases hcore : w.coreAlive with
  | true =>
    rw [hcore, if_pos rfl] at he₃
    obtain ⟨y₃, ys₄, rfl, ⟨e₃, h₃, he₄⟩ | ⟨h₃, he₄⟩⟩ := eval_createThreadpoolIo he₃
    · obtain ⟨y₄, ys₅, rfl, he₅⟩ := Prog.eval_op_bind he₄
      obtain ⟨y₅, ys₆, rfl, he₆⟩ := Prog.eval_op_bind he₅
      cases (Prog.eval_pure he₆).2
      exact .inl ⟨e₃.toErrorCode_ne, by simp [refusesToOpen, failsAt, h₃]⟩
    · obtain ⟨y₄, ys₅, rfl, he₅⟩ := Prog.eval_op_bind he₄
      obtain ⟨rfl, hr⟩ := Prog.eval_pure he₅
      cases hr
      exact .inr ⟨rfl, by simp [refusesToOpen, failsAt, h₀, h₃, hcore], rfl⟩
  | false =>
    rw [hcore, if_neg Bool.false_ne_true] at he₃
    obtain ⟨y₃, ys₄, rfl, he₄⟩ := Prog.eval_op_bind he₃
    obtain ⟨y₄, ys₅, rfl, he₅⟩ := Prog.eval_op_bind he₄
    cases (Prog.eval_pure he₅).2
    exact .inl ⟨ErrorCode.systemError_ne, by simp [refusesToOpen, hcore]⟩

/-- What opening `a` leaves as it was. -/
structure Spared (w : World) (a : SockId) (w' : World) : Prop where
  nulls : w'.nulls = w.nulls
  next : w'.nextData = w.nextData
  refs : w'.userRefs = w.userRefs
  others : ∀ x, x ≠ a → w'.socks x = w.socks x
  there : ∀ m, w.socks a = some m → ∃ m', w'.socks a = some m'

theorem Spared.set {a : SockId} {w' : World} (h : Spared w a w') (g : WinSocket → WinSocket) :
    Spared w a (w'.setSocket a (Option.map g)) := by
  refine ⟨h.nulls, h.next, h.refs, fun x hx => ?_, fun m hm => ?_⟩
  · exact (Function.update_of_ne hx ..).trans (h.others x hx)
  · obtain ⟨m', hm'⟩ := h.there m hm
    refine ⟨g m', ?_⟩
    rw [World.setSocket, hm']
    exact Function.update_self ..

theorem Spared.closeHandle {a : SockId} {w' : World} (h : Spared w a w') (s : NativeHandle) (ok : Bool) :
    Spared w a (w'.closeHandle s ok) := ⟨h.nulls, h.next, h.refs, h.others, h.there⟩

theorem Spared.createIo {a : SockId} {w' : World} (h : Spared w a w') (s : NativeHandle) (ok : Bool) :
    Spared w a (w'.createIo a s ok) := by
  obtain ⟨hnulls, hnext, hrefs, hothers, hthere⟩ := h.set fun m => { m with
    socketIoHandle := if ok then some w'.nextTp else none }
  exact ⟨hnulls, hnext, hrefs, hothers, hthere⟩

/-- The TP_IO is there from `CreateThreadpoolIo` on. -/
theorem io_createIo {a : SockId} {w' : World} {m : WinSocket} (hm : w'.socks a = some m) (s : NativeHandle)
    (g : WinSocket → WinSocket) (hg : ∀ m, (g m).socketIoHandle = m.socketIoHandle) :
    ∃ m' h, ((w'.createIo a s true).setSocket a (Option.map g)).socks a = some m' ∧
      m'.socketIoHandle = some h := by
  refine ⟨g { m with socketIoHandle := some w'.nextTp }, w'.nextTp, ?_, hg _⟩
  simp [World.setSocket, World.createIo, upd, hm]

/-- `socket` on `a`: an object that is open has a TP_IO. -/
theorem spared_socket {a : SockId} {af : AddressFamily} {ty : SocketType} {pr : Protocol} :
    (socket a af ty pr).Always serialHost t (fun r w' => Spared w a w' ∧ (r = .success →
      ∀ m, w.socks a = some m → ∃ m' h, w'.socks a = some m' ∧ m'.socketIoHandle = some h)) w := by
  refine Prog.Always.op_bind fun y₀ _ => ?_
  have h₀ : Spared w a (w.openHandle false y₀.error.isNone) :=
    ⟨rfl, rfl, rfl, fun _ _ => rfl, fun m hm => ⟨m, hm⟩⟩
  split
  · rename_i e _
    exact Prog.Always.op_bind fun _ _ => ⟨h₀.set _, fun h => absurd h e.toErrorCode_ne⟩
  rename_i h _
  have h₁ := h₀.set fun s => { s with nativeSocket := some h }
  refine Prog.Always.op_bind fun _ _ => Prog.Always.op_bind fun _ _ => ?_
  split
  · refine Prog.Always.op_bind fun y₃ _ => ?_
    have h₃ := h₁.createIo (some h) y₃.error.isNone
    split
    · rename_i e _
      exact Prog.Always.op_bind fun c _ => Prog.Always.op_bind fun _ _ =>
        ⟨(h₃.closeHandle _ _).set _, fun h => absurd h e.toErrorCode_ne⟩
    · rename_i hok
      refine Prog.Always.op_bind fun _ _ => ⟨h₃.set _, fun _ m hm => ?_⟩
      obtain ⟨m₁, hm₁⟩ := h₁.there m hm
      have hnone : y₃.error = none := by
        change World.result y₃ () = .ok () at hok
        rw [World.result] at hok
        split at hok
        · cases hok
        · assumption
      have hio := io_createIo hm₁ (some h) fun s => { s with addrFamily := af, sockType := ty, protocol := pr }
      rw [show true = y₃.error.isNone from (Option.isNone_iff_eq_none.mpr hnone).symm] at hio
      exact hio fun _ => rfl
  · exact Prog.Always.op_bind fun c _ => Prog.Always.op_bind fun _ _ =>
      ⟨(h₁.closeHandle _ _).set _, nofun⟩

/-- An `IOData` was freed, and the object is as it was. -/
structure Undone (w : World) (x : SockId) (i : DataId) (w' : World) : Prop where
  nulls : w'.nulls = w.nulls
  next : w'.nextData = w.nextData
  freed : (w'.heap i).isLive = false
  same : w'.socks x = w.socks x

/-- Destroying other objects changes neither. -/
theorem Undone.destroyAll {i : DataId} {w' : World} {ds : List Dead} (h : Undone w x i w')
    (hds : ∀ d ∈ ds, d.1 ≠ x) : (destroyAll ds).Always serialHost t (fun _ => Undone w x i) w' := by
  have hdestroyed : ∀ {d : Dead} {w' : World}, d.1 ≠ x → Undone w x i w' →
      Undone w x i (w'.setSocket d.1 fun _ => none) := fun hd h =>
    ⟨h.nulls, h.next, h.freed, (Function.update_of_ne hd.symm ..).trans h.same⟩
  induction ds generalizing w' with
  | nil => exact h
  | cons d ds ih =>
    obtain ⟨hd, hrest⟩ := List.forall_mem_cons.mp hds
    suffices hone : (destroy d).Always serialHost t (fun _ => Undone w x i) w' from
      hone.bind fun _ _ h => ih h hrest
    rw [destroy]
    split
    · rename_i hsome
      obtain ⟨n, hn⟩ := Option.isSome_iff_exists.mp hsome
      rw [hn]
      refine Prog.Always.op_bind fun _ _ => Prog.Always.op_bind fun _ _ => Prog.Always.op_bind fun _ _ => ?_
      exact fun _ _ => hdestroyed hd ⟨((World.nulls_closeIo_some _ t n).trans
        (w'.nulls_waitIo_some t n)).trans h.nulls, h.next, h.freed, h.same⟩
    · exact fun _ _ => hdestroyed hd h

/-- Deleting an `IOData` destroys no object that user code has a `shared_ptr` to. -/
theorem ne_of_mem_deleteIOData {i : DataId} {d : Dead} (hd : d ∈ (w.deleteIOData i).1)
    (hrefs : 0 < w.userRefs x) : d.1 ≠ x := by
  rintro rfl
  simp only [World.deleteIOData] at hd
  split at hd
  · have href := (World.mem_dead.mp hd).2.1
    simp only [World.referenced, Bool.or_eq_false_iff, decide_eq_false_iff_not] at href
    exact href.1 hrefs
  · cases hd

/-- **Undoing** frees the `IOData`, and tells the TP_IO, which is there. -/
theorem undone_cancel {i : DataId} {e : ErrorCode} {m : WinSocket} {h : ℕ} (hm : w.socks x = some m)
    (hio : m.socketIoHandle = some h) (hrefs : 0 < w.userRefs x) :
    (deleteIOData i >>= fun _ => op (.readIoHandle x) >>= fun io => op (.cancelThreadpoolIo io) >>=
      fun _ => pure e).Always serialHost t (fun r w' => r = e ∧ Undone w x i w') w := by
  have hfree : Undone w x i (w.deleteIOData i).2 :=
    ⟨w.nulls_check_ne _ nofun, rfl, by simp [World.deleteIOData, upd, Cell.isLive], rfl⟩
  have hdel : (deleteIOData i).Always serialHost t (fun _ => Undone w x i) w :=
    fun _ _ => hfree.destroyAll fun d hd => ne_of_mem_deleteIOData hd hrefs
  refine hdel.bind fun _ w' h' => Prog.Always.op_bind fun _ _ => Prog.Always.op_bind fun _ _ => ⟨rfl, ?_⟩
  have hhandle : ((w'.socks x).getD .new).socketIoHandle = some h := by
    rw [h'.same, hm]
    exact hio
  have hcancel : (w'.cancelIo t ((w'.socks x).getD .new).socketIoHandle).nulls = w'.nulls := by
    rw [hhandle]
    exact w'.nulls_useIo_some h
  exact ⟨hcancel.trans h'.nulls, h'.next, h'.freed, h'.same⟩

/-- The answer to the `n`-th call refuses an overlapped call. -/
def refusesAt (as : List Ans) (n : ℕ) : Bool := (as[n]?).any fun a => !World.accepts a.error

/-- An `IOData` was allocated, and nothing else has changed. -/
structure Pending (w W : World) : Prop where
  nulls : W.nulls = w.nulls
  next : W.nextData = w.nextData + 1
  socks : W.socks = w.socks
  refs : W.userRefs = w.userRefs

/-- The operation was not accepted: the `IOData` is freed, and nothing is left. -/
theorem Pending.refused {W w' : World} {e : OsError} {m : WinSocket} {h : ℕ} {zs : List Ans} {r : ErrorCode}
    (hW : Pending w W) (hm : w.socks x = some m) (hio : m.socketIoHandle = some h)
    (hrefs : 0 < w.userRefs x)
    (he : (deleteIOData w.nextData >>= fun _ => op (.readIoHandle x) >>= fun io =>
      op (.cancelThreadpoolIo io) >>= fun _ => pure e.toErrorCode).eval serialHost t W zs = some (r, w')) :
    Refused w r w' := by
  have hrefs' : 0 < W.userRefs x := by rwa [hW.refs]
  obtain ⟨rfl, hU⟩ := Prog.always_iff_eval.mp
    (undone_cancel (i := w.nextData) (by rw [hW.socks, hm]) hio hrefs') _ _ _ he
  refine ⟨e.toErrorCode_ne, hU.nulls.trans hW.nulls, fun i hle hlt => ?_⟩
  rw [hU.next, hW.next] at hlt
  rw [show i = w.nextData from Nat.le_antisymm (Nat.le_of_lt_succ hlt) hle]
  exact hU.freed

/-- The end of a `start_…` function, from the overlapped call on. -/
def requestIo (x : SockId) (i : DataId) (io : TpIo) (req : IoRequest) : Prog ErrorCode := do
  match ← op (.overlapped req i io) with
  | .ok () => return .success
  | .error e =>
    if e.code ≠ errorIoPending then
      deleteIOData i
      op (.cancelThreadpoolIo (← op (.readIoHandle x)))
      return e.toErrorCode
    else
      return .success

theorem startIo_eq (i : DataId) (request : Prog IoRequest) : startIo x i request =
    op (.readIoHandle x) >>= fun io => op (.startThreadpoolIo io) >>= fun _ =>
      request >>= fun req => requestIo x i io req := by
  rw [startIo]
  congr 1
  funext io
  congr 1
  funext _
  congr 1
  funext req
  rw [requestIo]
  congr 1
  funext res
  rcases res with e | _
  · rfl
  · rfl

/-- It is undone when the operation is not accepted. -/
theorem Pending.requestIo {W w' : World} {m : WinSocket} {h : ℕ} {io : TpIo} {req : IoRequest} {z : Ans}
    {zs : List Ans} {r : ErrorCode} (hW : Pending w W) (hm : w.socks x = some m)
    (hio : m.socketIoHandle = some h) (hrefs : 0 < w.userRefs x)
    (he : (requestIo x w.nextData io req).eval serialHost t W (z :: zs) = some (r, w')) :
    Refused w r w' ↔ World.accepts z.error = false := by
  obtain ⟨_, _, heq, he'⟩ := Prog.eval_op_bind he
  cases heq
  have hW' : Pending w (serialHost.reply W t (.overlapped req w.nextData io) z).2 :=
    ⟨(World.nulls_check_ne (W.submit _ io _) _ (f := .connectUnbound) nofun).trans hW.nulls, hW.next,
      hW.socks, hW.refs⟩
  have hres : (serialHost.reply W t (.overlapped req w.nextData io) z).1 = World.result z () := rfl
  rw [hres] at he'
  generalize (serialHost.reply W t (.overlapped req w.nextData io) z).2 = W' at hW' he'
  have hsuccess : World.accepts z.error = true →
      (pure .success : Prog ErrorCode).eval serialHost t W' zs = some (r, w') →
        (Refused w r w' ↔ World.accepts z.error = false) := by
    intro hz hend
    obtain ⟨-, hr⟩ := Prog.eval_pure hend
    cases hr
    exact ⟨fun h => absurd rfl h.error, fun hz' => absurd (hz.symm.trans hz') nofun⟩
  rcases hz : z.error with _ | e
  · simp only [World.result, hz] at he'
    exact hz ▸ hsuccess (by rw [hz]; rfl) he'
  · simp only [World.result, hz] at he'
    split at he'
    · rename_i hcode
      exact ⟨fun _ => by simpa [World.accepts] using hcode, fun _ => hW'.refused hm hio hrefs he'⟩
    · rename_i hcode
      exact hz ▸ hsuccess (by rw [hz]; simpa [World.accepts] using hcode) he'

/-- `start_accept` on an object that has a TP_IO, into the object itself. -/
theorem refused_startAcceptIo {f : Option ℕ} {m : WinSocket} {h : ℕ} {zs : List Ans} {r : ErrorCode}
    {w' : World} (hm : w.socks x = some m) (hio : m.socketIoHandle = some h) (hrefs : 0 < w.userRefs x)
    (he : (startAcceptIo x x f).eval serialHost t w zs = some (r, w')) :
    Refused w r w' ↔ refusesAt zs 6 = true := by
  obtain ⟨z₀, zs₁, rfl, he₁⟩ := Prog.eval_op_bind he
  change Lib.Prog.eval serialHost t (startIo x w.nextData _) (w.newIOData t _) zs₁ = _ at he₁
  rw [startIo_eq] at he₁
  generalize hw₁ : w.newIOData t _ = w₁ at he₁
  have h₁ : Pending w w₁ := hw₁ ▸ ⟨rfl, rfl, rfl, rfl⟩
  have hhandle : ((w₁.socks x).getD .new).socketIoHandle = some h := by
    rw [h₁.socks, hm]
    exact hio
  obtain ⟨z₁, zs₂, rfl, he₂⟩ := Prog.eval_op_bind he₁
  obtain ⟨z₂, zs₃, rfl, he₃⟩ := Prog.eval_op_bind he₂
  change Lib.Prog.eval serialHost t _ (w₁.startIo t ((w₁.socks x).getD .new).socketIoHandle) zs₃ = _ at he₃
  rw [hhandle] at he₃
  generalize hw₂ : w₁.startIo t (some h) = w₂ at he₃
  have h₂ : Pending w w₂ := hw₂ ▸ ⟨(w₁.nulls_useIo_some h).trans h₁.nulls, h₁.next, h₁.socks, h₁.refs⟩
  obtain ⟨z₃, zs₄, rfl, he₄⟩ := Prog.eval_op_bind he₃
  change Lib.Prog.eval serialHost t _ (w₂.useData w.nextData) zs₄ = _ at he₄
  generalize hw₃ : w₂.useData w.nextData = w₃ at he₄
  have h₃ : Pending w w₃ := hw₃ ▸
    ⟨(w₂.nulls_check_ne _ (f := .useAfterFree w.nextData) nofun).trans h₂.nulls, h₂.next, h₂.socks, h₂.refs⟩
  obtain ⟨z₄, zs₅, rfl, he₅⟩ := Prog.eval_op_bind he₄
  obtain ⟨z₅, zs₆, rfl, he₆⟩ := Prog.eval_op_bind he₅
  change Lib.Prog.eval serialHost t (requestIo x w.nextData _ _) w₃ zs₆ = _ at he₆
  obtain ⟨z₆, zs₇, rfl, -⟩ := Prog.eval_op_bind he₆
  rw [h₃.requestIo hm hio hrefs he₆]
  simp [refusesAt]

theorem refusesToOpen_append {ys : List Ans} (zs : List Ans) (hlen : ys.length = 5) :
    refusesToOpen w (ys ++ zs) = refusesToOpen w ys := by
  rw [refusesToOpen, refusesToOpen, failsAt, failsAt, failsAt, failsAt,
    List.getElem?_append_left (by omega), List.getElem?_append_left (by omega)]

theorem refusesAt_append (ys zs : List Ans) (n : ℕ) :
    refusesAt (ys ++ zs) (ys.length + n) = refusesAt zs n := by
  rw [refusesAt, refusesAt, List.getElem?_append_right (Nat.le_add_right _ _), Nat.add_sub_cancel_left]

/-- **`start_accept`** opens the accepting object when it is not open, and returns when that fails. -/
theorem refused_startAccept_iff {a : SockId} {f : Option ℕ} {as : List Ans} {r : ErrorCode} {w' : World}
    (hx : w.WithoutIo x) (hrefs : 0 < w.userRefs x)
    (he : (startAccept x a f).eval serialHost t w as = some (r, w')) :
    Refused w r w' ↔ ((w.socks a).getD .new).nativeSocket.isNone = true ∧
      (refusesToOpen w (as.drop 2) = true ∨ (a = x ∧ refusesAt as 13 = true)) := by
  have hmisused : ∀ {W : World} {zs : List Ans}, W.WithoutIo x → W.nulls = w.nulls →
      W.nextData = w.nextData → (startAcceptIo x a f).eval serialHost t W zs = some (r, w') →
        ¬ Refused w r w' := by
    intro W zs hW hnulls hnext hend
    have hbad := Prog.always_iff_eval.mp (misused_newIo hW) _ _ _ hend
    rw [Misused, hnulls, hnext] at hbad
    exact Misused.not_refused hbad
  obtain ⟨b₀, as₁, rfl, he₁⟩ := Prog.eval_op_bind he
  change Lib.Prog.eval serialHost t (if ((w.socks a).getD .new).nativeSocket.isNone then _ else _) w as₁ =
    _ at he₁
  split at he₁
  · rename_i hnone
    obtain ⟨b₁, as₂, rfl, he₂⟩ := Prog.eval_op_bind he₁
    obtain ⟨ys, zs, e, w₁, rfl, hsocket, hend⟩ := Prog.eval_bind.mp he₂
    obtain ⟨hspared, hopen⟩ := Prog.always_iff_eval.mp spared_socket _ _ _ hsocket
    rcases socket_refused hsocket with ⟨hne, hrefuse⟩ | ⟨rfl, hno, hlen⟩
    · rw [if_pos hne] at hend
      obtain ⟨rfl, hr⟩ := Prog.eval_pure hend
      cases hr
      refine ⟨fun _ => ⟨hnone, .inl ?_⟩, fun _ => ⟨hne, hspared.nulls, fun i hle hlt => ?_⟩⟩
      · rwa [List.drop_succ_cons, List.drop_succ_cons, List.drop_zero, List.append_nil]
      · rw [hspared.next] at hlt
        exact absurd hle (Nat.not_le_of_lt hlt)
    · rw [if_neg (not_not.mpr rfl)] at hend
      have hopens : refusesToOpen w ((b₀ :: b₁ :: (ys ++ zs)).drop 2) = false :=
        (refusesToOpen_append zs hlen).trans hno
      rw [hopens]
      by_cases hax : a = x
      · subst hax
        obtain ⟨m, hm, -⟩ := hx
        obtain ⟨m', h, hm', hio⟩ := hopen rfl m hm
        have hpos : 0 < w₁.userRefs a := by rwa [hspared.refs]
        have hiff := refused_startAcceptIo hm' hio hpos hend
        have hat : refusesAt (b₀ :: b₁ :: (ys ++ zs)) 13 = refusesAt zs 6 := by
          have hshift := refusesAt_append (b₀ :: b₁ :: ys) zs 6
          rwa [List.length_cons, List.length_cons, hlen] at hshift
        rw [hat, ← hiff, refused_congr hspared.nulls hspared.next]
        exact ⟨fun h => ⟨hnone, .inr ⟨rfl, h⟩⟩, fun h => h.2.elim nofun And.right⟩
      · have hx₁ : w₁.WithoutIo x := by
          obtain ⟨m, hm, hio⟩ := hx
          exact ⟨m, (hspared.others x (Ne.symm hax)).trans hm, hio⟩
        refine ⟨fun h => absurd h (hmisused hx₁ hspared.nulls hspared.next hend), fun h => ?_⟩
        exact h.2.elim nofun fun h => absurd h.1 hax
  · rename_i hnone
    refine ⟨fun h => absurd h (hmisused hx rfl rfl he₁), fun h => absurd h.1 hnone⟩

end WinSocket

/-- A `start_…` function on an object without a TP_IO refuses cleanly: it is `start_accept`, the accepting
object is not open, and the operating system does not let `socket` open it, or it is the object itself
and `AcceptEx`, the fourteenth call, is refused. -/
def ApiCall.Refusable (w : World) (as : List Ans) : ApiCall → Prop
  | .startAccept x a _ => ((w.socks a).getD .new).nativeSocket.isNone = true ∧
      (WinSocket.refusesToOpen w (as.drop 2) = true ∨ (a = x ∧ WinSocket.refusesAt as 13 = true))
  | _ => False

section

attribute [local irreducible] Prog.Always

/-- **When a `start_…` function on an object without a TP_IO refuses cleanly**, in whatever state the rest
of the world is. The caller holds a `shared_ptr` to the object. -/
theorem refused_null_iff {c : ApiCall} {q : Request} (hc : c.start? = some q) {w : World} {t : ℕ}
    (hx : w.WithoutIo q.socket) (hrefs : 0 < w.userRefs q.socket) {as : List Ans} {r : ErrorCode}
    {w' : World} (he : c.body.eval serialHost t w as = some (r, w')) :
    Refused w r w' ↔ c.Refusable w as := by
  have hnever : ∀ {p : Prog ErrorCode}, p.Always serialHost t (fun _ w' => Misused w w') w →
      p.eval serialHost t w as = some (r, w') → (Refused w r w' ↔ False) := fun hp he =>
    iff_false_intro (Prog.always_iff_eval.mp hp _ _ _ he).not_refused
  cases c with
  | startAccept x a f =>
    cases hc
    exact WinSocket.refused_startAccept_iff hx hrefs he
  | startConnect x dst f =>
    cases hc
    exact hnever (WinSocket.misused_startConnect hx) he
  | startSendTo x b dst f =>
    cases hc
    exact hnever (WinSocket.misused_startSendTo hx) he
  | startRecv x b f =>
    cases hc
    exact hnever (WinSocket.misused_newIo hx) he
  | startRecvFrom x b f =>
    cases hc
    exact hnever (WinSocket.misused_newIo hx) he
  | startSend x b f =>
    cases hc
    exact hnever (WinSocket.misused_newIo hx) he
  | startDisconnect x b f =>
    cases hc
    exact hnever (WinSocket.misused_newIo hx) he
  | _ => cases hc

end

/-- Two objects were created, and the one is to accept into the other, which `WSASocketW` refuses to open. -/
theorem refused_null_startAccept : ∃ r w',
    (ApiCall.startAccept 0 1 none).body.eval serialHost 0 (World.start ⟨0, 0, 0, 0⟩).makeSocket.makeSocket
      [{}, {}, { error := some .noBufs }, {}] = some (r, w') ∧
    Refused (World.start ⟨0, 0, 0, 0⟩).makeSocket.makeSocket r w' := by
  have he : ∃ r w', (ApiCall.startAccept 0 1 none).body.eval serialHost 0
      (World.start ⟨0, 0, 0, 0⟩).makeSocket.makeSocket [{}, {}, { error := some .noBufs }, {}] =
        some (r, w') := ⟨_, _, rfl⟩
  obtain ⟨r, w', he⟩ := he
  exact ⟨r, w', he, (refused_null_iff rfl ⟨.new, rfl, rfl⟩ (by decide) he).mpr ⟨rfl, .inl rfl⟩⟩

/-- An object was just created, and `start_recv` is called on it; `WSARecv` fails with `WSAENOTSOCK`. -/
theorem not_refused_startRecv : ¬ ∀ conf (s : State), machine.Reach .free (State.start conf) s →
    ∀ (c : ApiCall) (q : Request), c.start? = some q → s.w.WithoutIo q.socket →
      0 < s.w.userRefs q.socket → ∀ t as r w', c.body.eval serialHost t s.w as = some (r, w') →
        Refused s.w r w' := by
  intro h
  obtain ⟨s, hs, hp⟩ := Machine.exists_reach_of_fire (m := machine) (g := .free)
    (s := State.start ⟨0, 0, 0, 0⟩)
    (P := fun s => (s.w.socks 0).any (·.socketIoHandle.isNone) && (decide (0 < s.w.userRefs 0) &&
      ((ApiCall.startRecv 0 ⟨0, 16⟩ none).body.eval serialHost 0 s.w
        [{}, {}, {}, {}, { error := some ⟨10038, by decide⟩ }, {}, {}, {}]).any fun p =>
          p.2.nulls != s.w.nulls))
    Machine.allows_free (l := [.env (.spawn [.create]), .run 0 {}]) (by decide +kernel)
  obtain ⟨hx, hp⟩ := Bool.and_eq_true_iff.mp hp
  obtain ⟨hrefs, he⟩ := Bool.and_eq_true_iff.mp hp
  obtain ⟨m, hm, hio⟩ := (Option.any_eq_true _ _).mp hx
  obtain ⟨⟨r, w'⟩, he, hnulls⟩ := (Option.any_eq_true _ _).mp he
  have hrefused := h _ s hs _ _ rfl ⟨m, hm, Option.isNone_iff_eq_none.mp hio⟩ (of_decide_eq_true hrefs)
    _ _ _ _ he
  exact bne_iff_ne.mp hnulls hrefused.nulls

end FirelinkNet
