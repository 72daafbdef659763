import FirelinkNet.NullIo

/-!
# A failed accept

`accept` and `start_accept` are given the object that the connection goes into. Both change it before
their last step that can fail. `accept` assigns the accepted socket to its members, and calls `close` on
it when there is no TP_IO for that socket; `start_accept` opens it when it is not open, and does not close
it again when `AcceptEx` fails.

## What is proved

* `leftAsItWas_iff` — **when a failed accept leaves the object as it was** and closes what it obtained, for
  every state of the object and whatever fails.
* `not_leftAsItWas_startAccept` — `start_accept` leaves an object open that was not, when `AcceptEx` fails.
-/

namespace FirelinkNet

open Lib

/-- The object has the members that it had, and what was obtained was closed. -/
structure LeftAsItWas (w : World) (a : SockId) (w' : World) : Prop where
  /-- The members of the object. -/
  members : w'.socks a = w.socks a
  /-- The native sockets that were opened. -/
  handles : ∀ h, w.nextHandle ≤ h → h < w'.nextHandle → w.sockCloses h < w'.sockCloses h
  /-- The TP_IOs that were created. -/
  tpIos : ∀ h, w.nextTp ≤ h → h < w'.nextTp → w.tpCloses h < w'.tpCloses h

variable {w w' : World} {t : ℕ} {x a : SockId} {m : WinSocket} {r : ErrorCode}

/-- Nothing was obtained. -/
theorem leftAsItWas_of_same (hm : w'.socks a = w.socks a) (hh : w'.nextHandle = w.nextHandle)
    (ht : w'.nextTp = w.nextTp) : LeftAsItWas w a w' := by
  refine ⟨hm, fun h hle hlt => ?_, fun h hle hlt => ?_⟩
  · rw [hh] at hlt
    exact absurd hle (Nat.not_le_of_lt hlt)
  · rw [ht] at hlt
    exact absurd hle (Nat.not_le_of_lt hlt)

/-- One native socket was opened, and `closesocket` was called on it. -/
theorem leftAsItWas_iff_closed {ok : Bool} (hm : w'.socks a = w.socks a)
    (hh : w'.nextHandle = w.nextHandle + 1) (ht : w'.nextTp = w.nextTp)
    (hc : w'.sockCloses = if ok then bump w.sockCloses (some w.nextHandle) else w.sockCloses) :
    LeftAsItWas w a w' ↔ ok = true := by
  constructor
  · intro h
    have hlt := h.handles w.nextHandle le_rfl (hh ▸ Nat.lt_succ_self _)
    by_contra hok
    rw [hc, if_neg hok] at hlt
    exact absurd hlt (Nat.lt_irrefl _)
  · intro hok
    refine ⟨hm, fun h hle hlt => ?_, fun h hle hlt => ?_⟩
    · rw [hh] at hlt
      have heq : h = w.nextHandle := Nat.le_antisymm (Nat.le_of_lt_succ hlt) hle
      rw [hc, if_pos hok, heq]
      simp [bump]
    · rw [ht] at hlt
      exact absurd hle (Nat.not_le_of_lt hlt)

namespace WinSocket

/-! ### `close` -/

theorem socks_set {g : WinSocket → WinSocket} (hm : w.socks a = some m) :
    (w.setSocket a (Option.map g)).socks a = some (g m) := by
  simp [World.setSocket, upd, hm]

/-- **`close`** leaves the object as its constructor does. -/
theorem socks_close (hm : w.socks a = some m) :
    (close a).Always serialHost t (fun _ w' => w'.socks a = some .new) w := by
  have hnative : ∀ {w' : World} {m' : WinSocket}, w'.socks a = some m' → m'.socketIoHandle = none →
      (closeNative a).Always serialHost t (fun _ w' => w'.socks a = some .new) w' := by
    intro w' m' hm' hio
    refine Prog.Always.op_bind fun _ _ => ?_
    dsimp only
    have hwrite : ∀ (W : World) (e : ErrorCode), W.socks a = some m' →
        (op (.writeSocket a fun s => { WinSocket.new with socketIoHandle := s.socketIoHandle }) >>=
          fun _ => pure e).Always serialHost t (fun _ w' => w'.socks a = some .new) W := by
      intro W e hW
      refine Prog.Always.op_bind fun _ _ => ?_
      refine (socks_set hW).trans ?_
      rw [hio]
      rfl
    split
    · refine Prog.Always.op_bind fun c _ => ?_
      split
      · exact hwrite _ _ hm'
      · exact hwrite _ _ hm'
    · exact hwrite _ _ hm'
  refine Prog.Always.op_bind fun _ _ => ?_
  change Lib.Prog.Always serialHost t (if ((w.socks a).getD .new).socketIoHandle.isSome then _ else _) _ w
  rw [hm]
  split
  · refine Prog.Always.op_bind fun _ _ => Prog.Always.op_bind fun _ _ => Prog.Always.op_bind fun _ _ =>
      Prog.Always.op_bind fun _ _ => ?_
    exact hnative (socks_set (w := World.closeIo _ t _) hm) rfl
  · rename_i hio
    exact hnative hm (Option.not_isSome_iff_eq_none.mp hio)

/-- `close` on an object that has a native socket and no TP_IO: its third call is `closesocket`. -/
theorem eval_close {h : ℕ} {zs : List Ans} (hm : w.socks a = some m) (hio : m.socketIoHandle = none)
    (hs : m.nativeSocket = some h) (he : (close a).eval serialHost t w zs = some (r, w')) :
    w'.nextHandle = w.nextHandle ∧ w'.nextTp = w.nextTp ∧
      w'.sockCloses = if !failsAt zs 2 then bump w.sockCloses (some h) else w.sockCloses := by
  obtain ⟨z₀, zs₁, rfl, he₁⟩ := Prog.eval_op_bind he
  change Lib.Prog.eval serialHost t (if ((w.socks a).getD .new).socketIoHandle.isSome then _ else _) w zs₁ =
    _ at he₁
  rw [hm, Option.getD_some, hio, Option.isSome_none, if_neg Bool.false_ne_true] at he₁
  obtain ⟨z₁, zs₂, rfl, he₂⟩ := Prog.eval_op_bind he₁
  change Lib.Prog.eval serialHost t (if ((w.socks a).getD .new).nativeSocket.isSome then
    op (.closesocket ((w.socks a).getD .new).nativeSocket) >>= _ else _) w zs₂ = _ at he₂
  rw [hm, Option.getD_some, hs, Option.isSome_some, if_pos rfl] at he₂
  obtain ⟨z₂, zs₃, rfl, he₃⟩ := Prog.eval_op_bind he₂
  have hend : ∀ {e : ErrorCode}, (op (.writeSocket a fun s =>
      { WinSocket.new with socketIoHandle := s.socketIoHandle }) >>= fun _ => pure e).eval serialHost t
        (w.closeHandle (some h) z₂.error.isNone) zs₃ = some (r, w') →
      w' = (w.closeHandle (some h) z₂.error.isNone).setSocket a (Option.map fun s =>
        { WinSocket.new with socketIoHandle := s.socketIoHandle }) := by
    intro e hend
    obtain ⟨z₃, zs₄, rfl, he₄⟩ := Prog.eval_op_bind hend
    cases (Prog.eval_pure he₄).2
    rfl
  have hw' := by
    split at he₃
    · exact hend he₃
    · exact hend he₃
  subst hw'
  refine ⟨rfl, rfl, ?_⟩
  have hfails : failsAt (z₀ :: z₁ :: z₂ :: zs₃) 2 = z₂.error.isSome := rfl
  rw [hfails, Option.not_isSome]
  rfl

/-! ### `accept` -/

/-- A native socket was opened and assigned to the object, which has the members `m` now, and nothing was
closed. -/
structure Assigned (w : World) (a : SockId) (m : WinSocket) (W : World) : Prop where
  socks : W.socks a = some m
  native : m.nativeSocket = some w.nextHandle
  next : W.nextHandle = w.nextHandle + 1
  nextTp : W.nextTp = w.nextTp
  closes : W.sockCloses = w.sockCloses

theorem Assigned.createIo_false {W : World} (hW : Assigned w a m W) (s : NativeHandle) :
    Assigned w a { m with socketIoHandle := none } (W.createIo a s false) :=
  ⟨socks_set hW.socks, hW.native, hW.next, hW.nextTp, hW.closes⟩

/-- **`close` after the assignment** leaves the object as it was when it was as its constructor left it. -/
theorem Assigned.close {W : World} {m' : WinSocket} {e : ErrorCode} {zs : List Ans} (hW : Assigned w a m' W)
    (hm : w.socks a = some m) (hio : m = .new → m'.socketIoHandle = none)
    (he : (close a >>= fun _ => pure e).eval serialHost t W zs = some (r, w')) :
    LeftAsItWas w a w' ↔ m = .new ∧ failsAt zs 2 = false := by
  obtain ⟨ys, zs', e', w₁, rfl, hclose, hend⟩ := Prog.eval_bind.mp he
  obtain ⟨rfl, hr⟩ := Prog.eval_pure hend
  cases hr
  rw [List.append_nil]
  have hnew := Prog.always_iff_eval.mp (socks_close hW.socks) _ _ _ hclose
  by_cases hmn : m = .new
  · obtain ⟨hnext, htp, hcloses⟩ := eval_close hW.socks (hio hmn) hW.native hclose
    rw [hW.closes] at hcloses
    rw [leftAsItWas_iff_closed (hnew.trans (hmn ▸ hm.symm)) (hnext.trans hW.next) (htp.trans hW.nextTp)
      hcloses]
    simp [hmn]
  · refine ⟨fun h => absurd ?_ hmn, fun h => absurd h.1 hmn⟩
    exact Option.some.inj (hm.symm.trans (h.members.symm.trans hnew))

/-- **`closesocket` after the assignment**, and `socket_ = INVALID_SOCKET`. -/
theorem Assigned.closesocket {W : World} (hW : Assigned w a m W) (y : Ans) :
    LeftAsItWas w a ((W.closeHandle (some w.nextHandle) y.error.isNone).setSocket a
      (Option.map fun s => { s with nativeSocket := none })) ↔
        w.socks a = some { m with nativeSocket := none } ∧ y.error.isSome = false := by
  have hset := socks_set (w := W.closeHandle (some w.nextHandle) y.error.isNone)
    (g := fun s => { s with nativeSocket := none }) hW.socks
  by_cases hm : w.socks a = some { m with nativeSocket := none }
  · refine (leftAsItWas_iff_closed (hset.trans hm.symm) hW.next hW.nextTp
      (congrArg (fun f => if y.error.isNone then bump f (some w.nextHandle) else f) hW.closes)).trans ?_
    simp [hm]
  · exact ⟨fun h => absurd (h.members.symm.trans hset) hm, fun h => absurd h.1 hm⟩

/-- A failing `accept` leaves an object with the members `m` as it was: nothing is accepted; or the accepted
socket has no protocol information, and is closed; or the object is as its constructor leaves it, and `close`
closes the accepted socket. The second call is `::accept`, the third `getsockopt`. -/
def Unaccepts (w : World) (m : WinSocket) (as : List Ans) : Prop :=
  failsAt as 1 = true ∨ (failsAt as 2 = true ∧ failsAt as 3 = false) ∨
    (failsAt as 2 = false ∧ m = .new ∧ failsAt as (if w.coreAlive then 8 else 7) = false)

/-- **`accept`**. -/
theorem leftAsItWas_accept_iff {as : List Ans} (hm : w.socks a = some m)
    (he : (accept x a).eval serialHost t w as = some (r, w')) (hr : r ≠ .success) :
    LeftAsItWas w a w' ↔ Unaccepts w m as := by
  obtain ⟨y₀, as₁, rfl, he₁⟩ := Prog.eval_op_bind he
  obtain ⟨y₁, as₂, rfl, ⟨e₁, h₁, he₂⟩ | ⟨h₁, he₂⟩⟩ := eval_accept_op he₁
  · cases (Prog.eval_pure he₂).2
    exact ⟨fun _ => .inl (by simp [failsAt, h₁]), fun _ => leftAsItWas_of_same rfl rfl rfl⟩
  obtain ⟨y₂, as₃, rfl, ⟨e₂, h₂, he₃⟩ | ⟨h₂, he₃⟩⟩ := eval_getProtocolInfo he₂
  · obtain ⟨y₃, as₄, rfl, he₄⟩ := Prog.eval_op_bind he₃
    cases (Prog.eval_pure he₄).2
    refine Iff.trans (b := y₃.error.isNone = true) (leftAsItWas_iff_closed rfl rfl rfl rfl) ?_
    simp [Unaccepts, failsAt, h₁, h₂]
  obtain ⟨y₃, as₄, rfl, he₄⟩ := Prog.eval_op_bind he₃
  obtain ⟨y₄, as₅, rfl, he₅⟩ := Prog.eval_op_bind he₄
  have hW : Assigned w a ⟨some w.nextHandle, m.socketIoHandle, y₂.info.family, y₂.info.type,
      y₂.info.protocol, m.isBound⟩ ((w.openHandle true true).setSocket a (Option.map fun a => { a with
        addrFamily := y₂.info.family, sockType := y₂.info.type, protocol := y₂.info.protocol,
        nativeSocket := some w.nextHandle })) :=
    ⟨socks_set (w := w.openHandle true true) hm, rfl, rfl, rfl, rfl⟩
  change Lib.Prog.eval serialHost t (if w.coreAlive then _ else _) _ as₅ = _ at he₅
  cases hcore : w.coreAlive with
  | false =>
    rw [hcore, if_neg Bool.false_ne_true] at he₅
    rw [hW.close hm (fun h => by rw [h]; rfl) he₅]
    simp [Unaccepts, failsAt, h₁, h₂, hcore]
  | true =>
    rw [hcore, if_pos rfl] at he₅
    obtain ⟨y₅, as₆, rfl, ⟨e₅, -, he₆⟩ | ⟨-, he₆⟩⟩ := eval_createThreadpoolIo he₅
    · rw [(hW.createIo_false (some w.nextHandle)).close hm (fun _ => rfl) he₆]
      simp [Unaccepts, failsAt, h₁, h₂, hcore]
    · obtain ⟨y₆, as₇, rfl, he₇⟩ := Prog.eval_op_bind he₆
      cases (Prog.eval_pure he₇).2
      exact absurd rfl hr

/-! ### `start_accept` -/

/-- A failing `start_accept` leaves an object with the members `m` as it was: it is open already; or
`WSASocketW`, the third call, fails; or the core is gone, and the new socket is closed; or there is no TP_IO
for the new socket, which is closed, and there was none before. -/
def Unopens (w : World) (m : WinSocket) (as : List Ans) : Prop :=
  m.nativeSocket.isSome = true ∨ failsAt as 2 = true ∨ (w.coreAlive = false ∧ failsAt as 5 = false) ∨
    (w.coreAlive = true ∧ failsAt as 5 = true ∧ m.socketIoHandle = none ∧ failsAt as 6 = false)

/-- An object that was not open, and is opened, stays so. -/
theorem not_unopens {as : List Ans} (hs : m.nativeSocket = none) (ho : refusesToOpen w (as.drop 2) = false) :
    ¬ Unopens w m as := by
  simp only [refusesToOpen, failsAt, List.getElem?_drop, Bool.or_eq_false_iff, Bool.not_eq_false'] at ho
  obtain ⟨⟨h₂, hcore⟩, h₅⟩ := ho
  rintro (h | h | ⟨h, -⟩ | ⟨-, h, -⟩)
  · rw [hs] at h
    cases h
  · exact absurd (h₂.symm.trans h) Bool.false_ne_true
  · exact absurd (h.symm.trans hcore) Bool.false_ne_true
  · exact absurd (h₅.symm.trans h) Bool.false_ne_true

/-- **`socket`** that fails on an object without a native socket. -/
theorem leftAsItWas_socket_iff {af : AddressFamily} {ty : SocketType} {pr : Protocol} {ys : List Ans}
    (hm : w.socks a = some m) (hs : m.nativeSocket = none)
    (he : (socket a af ty pr).eval serialHost t w ys = some (r, w')) (hr : r ≠ .success) :
    LeftAsItWas w a w' ↔ failsAt ys 0 = true ∨ (w.coreAlive = false ∧ failsAt ys 3 = false) ∨
      (w.coreAlive = true ∧ failsAt ys 3 = true ∧ m.socketIoHandle = none ∧ failsAt ys 4 = false) := by
  obtain ⟨_, io, af', ty', pr', bd⟩ := m
  cases hs
  obtain ⟨y₀, ys₁, rfl, ⟨e₀, h₀, he₁⟩ | ⟨h₀, he₁⟩⟩ := eval_wsaSocketW he
  · obtain ⟨y₁, ys₂, rfl, he₂⟩ := Prog.eval_op_bind he₁
    cases (Prog.eval_pure he₂).2
    refine iff_of_true (leftAsItWas_of_same ?_ rfl rfl) (.inl (by simp [failsAt, h₀]))
    exact (socks_set hm).trans hm.symm
  obtain ⟨y₁, ys₂, rfl, he₂⟩ := Prog.eval_op_bind he₁
  obtain ⟨y₂, ys₃, rfl, he₃⟩ := Prog.eval_op_bind he₂
  have hW : Assigned w a ⟨some w.nextHandle, io, af', ty', pr', bd⟩ ((w.openHandle false true).setSocket a
      (Option.map fun s => { s with nativeSocket := some w.nextHandle })) :=
    ⟨socks_set (w := w.openHandle false true) hm, rfl, rfl, rfl, rfl⟩
  change Lib.Prog.eval serialHost t (if w.coreAlive then _ else _) _ ys₃ = _ at he₃
  cases hcore : w.coreAlive with
  | false =>
    rw [hcore, if_neg Bool.false_ne_true] at he₃
    obtain ⟨y₃, ys₄, rfl, he₄⟩ := Prog.eval_op_bind he₃
    obtain ⟨y₄, ys₅, rfl, he₅⟩ := Prog.eval_op_bind he₄
    cases (Prog.eval_pure he₅).2
    refine (hW.closesocket y₃).trans ?_
    rw [hm]
    simp [failsAt, h₀]
  | true =>
    rw [hcore, if_pos rfl] at he₃
    obtain ⟨y₃, ys₄, rfl, ⟨e₃, h₃, he₄⟩ | ⟨-, he₄⟩⟩ := eval_createThreadpoolIo he₃
    · obtain ⟨y₄, ys₅, rfl, he₅⟩ := Prog.eval_op_bind he₄
      obtain ⟨y₅, ys₆, rfl, he₆⟩ := Prog.eval_op_bind he₅
      cases (Prog.eval_pure he₆).2
      refine ((hW.createIo_false (some w.nextHandle)).closesocket y₄).trans ?_
      rw [hm]
      simp [failsAt, h₀, h₃]
    · obtain ⟨y₄, ys₅, rfl, he₅⟩ := Prog.eval_op_bind he₄
      cases (Prog.eval_pure he₅).2
      exact absurd rfl hr

/-- The object is as it was, and nothing was obtained. -/
structure Unmoved (w : World) (a : SockId) (w' : World) : Prop where
  members : w'.socks a = w.socks a
  handles : w'.nextHandle = w.nextHandle
  tpIos : w'.nextTp = w.nextTp
  refs : w'.userRefs a = w.userRefs a

/-- A call that concerns neither the members of an object nor the `shared_ptr`s that user code has to it. -/
def apart : Op → Bool
  | .readSocket _ | .readIoHandle _ | .newIOData _ | .readIOData _ | .deleteIOData _ | .startThreadpoolIo _
  | .cancelThreadpoolIo _ | .waitForThreadpoolIoCallbacks _ | .waitedForThreadpoolIoCallbacks _
  | .closeThreadpoolIo _ | .overlapped _ _ _ => true
  | _ => false

theorem Unmoved.reply {o : Op} {y : Ans} (h : Unmoved w a w') (ho : apart o = true) :
    Unmoved w a (w'.reply t o y).2 := by
  obtain ⟨hmembers, hhandles, htpIos, hrefs⟩ := h
  cases w'
  cases o with
  | readSocket x => exact ⟨hmembers, hhandles, htpIos, hrefs⟩
  | readIoHandle x => exact ⟨hmembers, hhandles, htpIos, hrefs⟩
  | newIOData d => exact ⟨hmembers, hhandles, htpIos, hrefs⟩
  | readIOData i => exact ⟨hmembers, hhandles, htpIos, hrefs⟩
  | deleteIOData i => exact ⟨hmembers, hhandles, htpIos, hrefs⟩
  | startThreadpoolIo io => exact ⟨hmembers, hhandles, htpIos, hrefs⟩
  | cancelThreadpoolIo io => exact ⟨hmembers, hhandles, htpIos, hrefs⟩
  | waitForThreadpoolIoCallbacks io => exact ⟨hmembers, hhandles, htpIos, hrefs⟩
  | waitedForThreadpoolIoCallbacks io => exact ⟨hmembers, hhandles, htpIos, hrefs⟩
  | closeThreadpoolIo io => exact ⟨hmembers, hhandles, htpIos, hrefs⟩
  | overlapped req i io => exact ⟨hmembers, hhandles, htpIos, hrefs⟩
  | _ => cases ho

theorem Unmoved.op_bind {α : Type} {o : Op} {f : Res o → Prog α} {Q : α → World → Prop}
    (h : Unmoved w a w') (ho : apart o = true)
    (hf : ∀ r W, Unmoved w a W → (f r).Always serialHost t Q W) :
    (op o >>= f).Always serialHost t Q w' := fun _ _ => hf _ _ (h.reply ho)

/-- Destroying other objects does not move it. -/
theorem Unmoved.destroyAll {ds : List Dead} (h : Unmoved w a w') (hds : ∀ d ∈ ds, d.1 ≠ a) :
    (destroyAll ds).Always serialHost t (fun _ => Unmoved w a) w' := by
  have hdestroyed : ∀ {d : Dead} {W : World}, d.1 ≠ a → Unmoved w a W →
      Unmoved w a (W.setSocket d.1 fun _ => none) := fun hd h =>
    ⟨(Function.update_of_ne hd.symm ..).trans h.members, h.handles, h.tpIos, h.refs⟩
  induction ds generalizing w' with
  | nil => exact h
  | cons d ds ih =>
    obtain ⟨hd, hrest⟩ := List.forall_mem_cons.mp hds
    suffices hone : (destroy d).Always serialHost t (fun _ => Unmoved w a) w' from
      hone.bind fun _ _ h => ih h hrest
    rw [destroy]
    split
    · exact h.op_bind rfl fun _ _ h => h.op_bind rfl fun _ _ h => h.op_bind rfl fun _ _ h _ _ =>
        hdestroyed hd h
    · exact fun _ _ => hdestroyed hd h

/-- Nor does `delete io_data`, while another `shared_ptr` to it is left. -/
theorem Unmoved.deleteIOData {i : DataId} (h : Unmoved w a w') (hrefs : 0 < w.userRefs a) :
    (deleteIOData i).Always serialHost t (fun _ => Unmoved w a) w' := by
  intro y _
  have hfree : Unmoved w a (w'.reply t (.deleteIOData i) y).2 := h.reply rfl
  exact hfree.destroyAll fun d hd => ne_of_mem_deleteIOData hd (h.refs ▸ hrefs)

/-- From the overlapped call on. -/
theorem Unmoved.requestIo {i : DataId} {io : TpIo} {req : IoRequest} (h : Unmoved w a w')
    (hrefs : 0 < w.userRefs a) :
    (requestIo x i io req).Always serialHost t (fun _ => Unmoved w a) w' := by
  refine h.op_bind rfl fun res W h => ?_
  split
  · exact h
  · split
    · exact (h.deleteIOData hrefs).bind fun _ _ h => h.op_bind rfl fun _ _ h => h.op_bind rfl fun _ _ h => h
    · exact h

/-- **`start_accept` on an open object**, however it ends. -/
theorem unmoved_startAcceptIo {f : Option ℕ} (hrefs : 0 < w.userRefs a) :
    (startAcceptIo x a f).Always serialHost t (fun _ => Unmoved w a) w := by
  have hstart : Unmoved w a w := ⟨rfl, rfl, rfl, rfl⟩
  refine hstart.op_bind rfl fun i W h => ?_
  rw [startIo_eq]
  refine h.op_bind rfl fun io W h => h.op_bind rfl fun _ W h => ?_
  refine h.op_bind rfl fun d W h => h.op_bind rfl fun s W h => h.op_bind rfl fun s' W h => ?_
  exact h.requestIo hrefs

/-- `socket` that succeeds leaves a native socket in the object. -/
theorem native_socket {af : AddressFamily} {ty : SocketType} {pr : Protocol} (hm : w.socks a = some m) :
    (socket a af ty pr).Always serialHost t (fun r w' => r = .success →
      ∃ m' h, w'.socks a = some m' ∧ m'.nativeSocket = some h) w := by
  refine Prog.Always.op_bind fun y₀ _ => ?_
  split
  · rename_i e _
    exact Prog.Always.op_bind fun _ _ h => absurd h e.toErrorCode_ne
  refine Prog.Always.op_bind fun _ _ => Prog.Always.op_bind fun _ _ => ?_
  split
  · refine Prog.Always.op_bind fun y₃ _ => ?_
    split
    · rename_i e _
      exact Prog.Always.op_bind fun _ _ => Prog.Always.op_bind fun _ _ h => absurd h e.toErrorCode_ne
    · refine Prog.Always.op_bind fun _ _ _ => ⟨_, _, socks_set (socks_set (socks_set hm)), rfl⟩
  · exact Prog.Always.op_bind fun c _ => Prog.Always.op_bind fun _ _ => nofun

/-- **`start_accept`**. -/
theorem leftAsItWas_startAccept_iff {f : Option ℕ} {as : List Ans} (hm : w.socks a = some m)
    (hrefs : 0 < w.userRefs a) (he : (startAccept x a f).eval serialHost t w as = some (r, w')) :
    LeftAsItWas w a w' ↔ Unopens w m as := by
  obtain ⟨y₀, as₁, rfl, he₁⟩ := Prog.eval_op_bind he
  change Lib.Prog.eval serialHost t (if ((w.socks a).getD .new).nativeSocket.isNone then _ else _) w as₁ =
    _ at he₁
  rw [hm, Option.getD_some] at he₁
  split at he₁
  · rename_i hnone
    rw [Option.isNone_iff_eq_none] at hnone
    obtain ⟨y₁, as₂, rfl, he₂⟩ := Prog.eval_op_bind he₁
    obtain ⟨ys, zs, e, w₁, rfl, hsocket, hend⟩ := Prog.eval_bind.mp he₂
    split at hend
    · rename_i hne
      obtain ⟨rfl, hres⟩ := Prog.eval_pure hend
      cases hres
      rw [leftAsItWas_socket_iff hm hnone hsocket hne, List.append_nil]
      simp [Unopens, failsAt, hnone]
    · rename_i hsucc
      rw [not_not] at hsucc
      subst hsucc
      obtain ⟨m', h, hm', hnative⟩ := Prog.always_iff_eval.mp (native_socket hm) _ _ _ hsocket rfl
      have hrefs' : 0 < w₁.userRefs a := by
        rwa [(Prog.always_iff_eval.mp spared_socket _ _ _ hsocket).1.refs]
      have hkept := Prog.always_iff_eval.mp (unmoved_startAcceptIo hrefs') _ _ _ hend
      refine iff_of_false (fun hleft => ?_) fun hopens => ?_
      · have heq : some m' = some m := hm'.symm.trans (hkept.members.symm.trans (hleft.members.trans hm))
        cases heq
        rw [hnone] at hnative
        cases hnative
      · rcases socket_refused hsocket with ⟨hne, -⟩ | ⟨-, hno, hlen⟩
        · exact absurd rfl hne
        · exact not_unopens hnone ((refusesToOpen_append zs hlen).trans hno) hopens
  · rename_i hnone
    have h := Prog.always_iff_eval.mp (unmoved_startAcceptIo hrefs) _ _ _ he₁
    exact iff_of_true (leftAsItWas_of_same h.members h.handles h.tpIos)
      (.inl (Option.isSome_iff_ne_none.mpr fun hs => hnone (Option.isNone_iff_eq_none.mpr hs)))

end WinSocket

/-- The object that a connection goes into. -/
def ApiCall.accepting? : ApiCall → Option SockId
  | .accept _ a | .startAccept _ a _ => some a
  | _ => none

/-- The failing call leaves the accepting object, with the members `m`, as it was. -/
def ApiCall.Undoes (w : World) (m : WinSocket) (as : List Ans) : ApiCall → Prop
  | .accept _ _ => WinSocket.Unaccepts w m as
  | .startAccept _ _ _ => WinSocket.Unopens w m as
  | _ => False

/-- **When a failed accept leaves the accepting object as it was** and has closed what it obtained, in whatever
state the object and the rest of the world are. The caller holds a `shared_ptr` to the object. -/
theorem leftAsItWas_iff {c : ApiCall} (hc : c.accepting? = some a) (hm : w.socks a = some m)
    (hrefs : 0 < w.userRefs a) {as : List Ans} (he : c.body.eval serialHost t w as = some (r, w'))
    (hr : r ≠ .success) : LeftAsItWas w a w' ↔ c.Undoes w m as := by
  cases c with
  | accept x b =>
    cases hc
    exact WinSocket.leftAsItWas_accept_iff hm he hr
  | startAccept x b f =>
    cases hc
    exact WinSocket.leftAsItWas_startAccept_iff hm hrefs he
  | _ => cases hc

/-- Two objects were created, and the one was opened and bound to 127.0.0.1, port 80. (`listen` changes nothing that a
world has.) It accepts into the other, and `CreateThreadpoolIo` fails for the accepted socket, which is closed. -/
theorem leftAsItWas_iff_created : ∃ s : State, machine.Reach .free (State.start ⟨0, 0, 0, 0⟩) s ∧
    ((s.w.socks 0).any fun m => m.nativeSocket.isSome && m.isBound) = true ∧ ∃ as r w',
      (ApiCall.accept 0 1).body.eval serialHost 0 s.w as = some (r, w') ∧ r ≠ .success ∧ LeftAsItWas s.w 1 w' := by
  obtain ⟨s, hs, hp⟩ := Machine.exists_reach_of_fire (m := machine) (g := .free)
    (s := State.start ⟨0, 0, 0, 0⟩)
    (P := fun s => s.w.coreAlive && ((s.w.socks 0).any (fun m => m.nativeSocket.isSome && m.isBound) &&
      (decide (s.w.socks 1 = some .new) && (decide (0 < s.w.userRefs 1) &&
        ((ApiCall.accept 0 1).body.eval serialHost 0 s.w
          [{}, {}, {}, {}, {}, { error := some .noBufs }, {}, {}, {}, {}]).any fun p => p.1 != .success))))
    Machine.allows_free
    (l := .env (.spawn [.create, .create, .socket 0 .ipv4 .stream .tcp,
        .bind 0 (.ofIPv4 ⟨![127, 0, 0, 1], 80⟩ zeroMemory)]) :: List.replicate 16 (.run 0 {}))
    (by decide +kernel)
  obtain ⟨halive, hp⟩ := Bool.and_eq_true_iff.mp hp
  obtain ⟨hopen, hp⟩ := Bool.and_eq_true_iff.mp hp
  obtain ⟨hm, hp⟩ := Bool.and_eq_true_iff.mp hp
  obtain ⟨hrefs, he⟩ := Bool.and_eq_true_iff.mp hp
  obtain ⟨⟨r, w'⟩, he, hr⟩ := (Option.any_eq_true _ _).mp he
  refine ⟨s, hs, hopen, _, r, w', he, bne_iff_ne.mp hr, ?_⟩
  refine (leftAsItWas_iff rfl (of_decide_eq_true hm) (of_decide_eq_true hrefs) he (bne_iff_ne.mp hr)).mpr
    (.inr (.inr ⟨rfl, rfl, ?_⟩))
  rw [halive]
  rfl

/-- The one object is open, and does not listen; the other was just created. `start_accept` opens that, and
`AcceptEx` fails with `WSAEINVAL`. -/
theorem not_leftAsItWas_startAccept : ¬ ∀ conf (s : State), machine.Reach .free (State.start conf) s →
    ∀ (c : ApiCall) (a : SockId) (m : WinSocket), c.accepting? = some a → s.w.socks a = some m →
      0 < s.w.userRefs a → ∀ t as r w', c.body.eval serialHost t s.w as = some (r, w') → r ≠ .success →
        LeftAsItWas s.w a w' := by
  intro h
  obtain ⟨s, hs, hp⟩ := Machine.exists_reach_of_fire (m := machine) (g := .free)
    (s := State.start ⟨0, 0, 0, 0⟩)
    (P := fun s => decide (s.w.socks 1 = some .new) && (decide (0 < s.w.userRefs 1) &&
      ((ApiCall.startAccept 0 1 none).body.eval serialHost 0 s.w
        [{}, {}, {}, {}, {}, {}, {}, {}, {}, {}, {}, {}, {}, { error := some ⟨10022, by decide⟩ }, {}, {},
          {}]).any fun p => p.1 != .success && p.2.socks 1 != some .new))
    Machine.allows_free
    (l := [.env (.spawn [.create, .create, .socket 0 .ipv4 .stream .tcp]), .run 0 {}, .run 0 {}, .run 0 {},
      .run 0 {}, .run 0 {}, .run 0 {}, .run 0 {}, .run 0 {}, .run 0 {}, .run 0 {}]) (by decide +kernel)
  obtain ⟨hm, hp⟩ := Bool.and_eq_true_iff.mp hp
  obtain ⟨hrefs, he⟩ := Bool.and_eq_true_iff.mp hp
  obtain ⟨⟨r, w'⟩, he, hend⟩ := (Option.any_eq_true _ _).mp he
  obtain ⟨hr, hmoved⟩ := Bool.and_eq_true_iff.mp hend
  have hsame := (h _ s hs _ 1 _ rfl (of_decide_eq_true hm) (of_decide_eq_true hrefs) _ _ _ _ he
    (bne_iff_ne.mp hr)).members
  exact bne_iff_ne.mp hmoved (hsame.trans (of_decide_eq_true hm))

end FirelinkNet
