import FirelinkNet.Sockets

/-!
# The members of a socket belong together

Six members describe a `WinSocket`, and each function assigns to some of them. A socket
is valid when `socket_` is not `INVALID_SOCKET`; then it has a TP_IO that was created for
that native socket, and a family, a type and a protocol; otherwise it has none of these,
and is not bound.

`close`, and the error paths of `accept`, which call it, reset all the members.
`socket` resets `socket_` alone when it fails, and leaves the others as they were.

## What is proved

* `consistent_between` — **the members belong together** in every state between the calls,
  as long as no step of `socket` fails on an object that has a TP_IO.
* `not_consistent_reopen` — not otherwise.
-/

namespace FirelinkNet

open Lib

/-- `WinSocket::is_valid`. -/
def WinSocket.isValid (m : WinSocket) : Bool := m.nativeSocket.isSome

/-- The members of a socket belong together; `tpHandle` is the native socket that a TP_IO was created
for. -/
structure WinSocket.Consistent (tpHandle : ℕ → NativeHandle) (m : WinSocket) : Prop where
  /-- A valid socket has a TP_IO, and no other has. -/
  io : m.isValid = true ↔ m.socketIoHandle ≠ none
  /-- A valid socket has a family, a type and a protocol, and no other has. -/
  kind : m.isValid = true ↔
    m.addrFamily ≠ .notSupported ∧ m.sockType ≠ .notSupported ∧ m.protocol ≠ .notSupported
  /-- The TP_IO was created for the native socket. -/
  handle : ∀ h, m.socketIoHandle = some h → tpHandle h = m.nativeSocket
  /-- A socket that is not valid is not bound. -/
  unbound : m.isValid = false → m.isBound = false

attribute [local irreducible] Prog.Always

namespace Representation

/-- Thread `t` is in a call of `socket` on an object that has a TP_IO. -/
def reopening (w : World) (t : ℕ) : Bool :=
  match w.callOf t with
  | some (.socket x _ _ _) => (w.sockets.members x).socketIoHandle.isSome
  | _ => false

/-- No step of `socket` fails on an object that has a TP_IO. -/
def discipline : Discipline where
  run w t o a :=
    match o with
    | .wsaSocketW _ _ _ | .createThreadpoolIo _ _ => a.error.isNone || !reopening w t
    | .lockIoCore => w.coreAlive || !reopening w t
    | _ => true
  env _ _ := true

/-- An object is as its constructor leaves it, or all its members are set. -/
def Settled (v : Sockets) (m : WinSocket) : Prop :=
  m = .new ∨ ∃ s h, m.nativeSocket = some s ∧ m.socketIoHandle = some h ∧ h < v.nextTp ∧
    v.tpHandle h = some s ∧ m.addrFamily ≠ .notSupported ∧ m.sockType ≠ .notSupported ∧
      m.protocol ≠ .notSupported

/-- Every object is settled. -/
def Inv (v : Sockets) : Prop := ∀ x m, v.objects x = some m → Settled v m

theorem Settled.consistent {v : Sockets} {m : WinSocket} (h : Settled v m) :
    m.Consistent v.tpHandle := by
  rcases h with rfl | ⟨s, h, hs, hh, -, htp, haf, hty, hpr⟩
  · exact ⟨by decide, by decide, nofun, fun _ => rfl⟩
  · have hvalid : m.isValid = true := by rw [WinSocket.isValid, hs]; rfl
    refine ⟨by simp [hvalid, hh], by simp [hvalid, haf, hty, hpr], fun h' hh' => ?_, fun hv => ?_⟩
    · rw [hh] at hh'
      cases hh'
      rw [htp, hs]
    · rw [hvalid] at hv
      cases hv

theorem Settled.new_of_io {v : Sockets} {m : WinSocket} (h : Settled v m)
    (hio : m.socketIoHandle = none) : m = .new := by
  rcases h with rfl | ⟨s, h, hs, hh, -⟩
  · rfl
  · rw [hio] at hh
    cases hh

theorem Settled.new_of_native {v : Sockets} {m : WinSocket} (h : Settled v m)
    (hs : m.nativeSocket = none) : m = .new := by
  rcases h with rfl | ⟨s, h, hs', -⟩
  · rfl
  · rw [hs] at hs'
    cases hs'

theorem Settled.createTp {v : Sockets} {m : WinSocket} (h : Settled v m) (s : NativeHandle) :
    Settled (v.createTp s) m := by
  rcases h with hnew | ⟨s', h, hs, hh, hlt, htp, hkind⟩
  · exact .inl hnew
  · refine .inr ⟨s', h, hs, hh, Nat.lt_succ_of_lt hlt, ?_, hkind⟩
    exact (Function.update_of_ne (Nat.ne_of_lt hlt) ..).trans htp

theorem Inv.set {v : Sockets} {x : SockId} {f : Option WinSocket → Option WinSocket} (h : Inv v)
    (hx : ∀ m, f (v.objects x) = some m → Settled v m) : Inv (v.set x f) := by
  intro y m hy
  by_cases hxy : y = x
  · subst hxy
    rw [Sockets.objects_set] at hy
    exact hx m hy
  · rw [Sockets.objects_set_ne v f hxy] at hy
    exact h y m hy

/-- Set the members of an object that is settled anew. -/
theorem Inv.set_map {v : Sockets} {x : SockId} {g : WinSocket → WinSocket} (h : Inv v)
    (hx : ∀ m, v.objects x = some m → Settled v m → Settled v (g m)) :
    Inv (v.set x (Option.map g)) := by
  refine h.set fun m hm => ?_
  obtain ⟨m', hm', rfl⟩ := Option.map_eq_some_iff.mp hm
  exact hx m' hm' (h x m' hm')

theorem Inv.createTp {v : Sockets} (h : Inv v) (s : NativeHandle) : Inv (v.createTp s) :=
  fun x m hm => (h x m hm).createTp s

/-! ### The functions -/

section Functions

variable {w : World} {t : ℕ} {x : SockId}

/-- When a step of `socket` fails, the object has no TP_IO. -/
theorem io_of_not_reopening {w' : World} {af : AddressFamily} {ty : SocketType} {pr : Protocol}
    (hopen : (w.sockets.members x).socketIoHandle = none ∨ w.callOf t = some (.socket x af ty pr))
    (hcall : w'.callOf t = w.callOf t)
    (hio : (w'.sockets.members x).socketIoHandle = (w.sockets.members x).socketIoHandle)
    (h : reopening w' t = false) : (w.sockets.members x).socketIoHandle = none := by
  rcases hopen with hnone | hsocket
  · exact hnone
  · rw [reopening, hcall, hsocket] at h
    rw [← hio]
    exact Option.not_isSome_iff_eq_none.mp (Bool.eq_false_iff.mp h)

/-- Assigning to `socket_` leaves the TP_IO. -/
theorem io_setNative (v : Sockets) (x : SockId) (s : NativeHandle) :
    ((v.set x (Discipline.setNative s)).members x).socketIoHandle = (v.members x).socketIoHandle := by
  rw [Sockets.members, Sockets.members, Sockets.objects_set]
  cases v.objects x <;> rfl

theorem inv_socket {af : AddressFamily} {ty : SocketType} {pr : Protocol} (hI : Inv w.sockets)
    (hopen : (w.sockets.members x).socketIoHandle = none ∨ w.callOf t = some (.socket x af ty pr)) :
    (WinSocket.socket x af ty pr).Always discipline.host t (fun _ w' => Inv w'.sockets) w := by
  have hnew : (w.sockets.members x).socketIoHandle = none →
      ∀ m, w.sockets.objects x = some m → m = .new := by
    intro hio m hm
    rw [Sockets.members, hm] at hio
    exact (hI x m hm).new_of_io hio
  have hopened : reopening (Discipline.opened w x) t = false →
      (w.sockets.members x).socketIoHandle = none :=
    io_of_not_reopening hopen rfl (io_setNative (w.sockets.openHandle false) x _)
  refine Discipline.always_socket (Q := fun _ => Inv) (fun a e ha he => ?_) (fun b c hb hcore hc => ?_)
    (fun b c e hb he hc => ?_) fun a ha he => ?_
  · have hrun := Discipline.check_run ha
    simp only [discipline, he, Option.isNone_some, Bool.false_or, Bool.not_eq_true'] at hrun
    have hio := io_of_not_reopening hopen rfl rfl hrun
    exact hI.set_map fun m hm _ => .inl (by rw [hnew hio m hm]; rfl)
  · have hrun := Discipline.check_run hb
    have hdead : (Discipline.opened w x).coreAlive = false := hcore
    simp only [discipline, hdead, Bool.false_or, Bool.not_eq_true'] at hrun
    exact Inv.set_map (v := (w.sockets.openHandle false).closeHandle _ _) hI
      fun m hm _ => .inl (by rw [hnew (hopened hrun) m hm]; rfl)
  · have hrun := Discipline.check_run hb
    simp only [discipline, he, Option.isNone_some, Bool.false_or, Bool.not_eq_true'] at hrun
    exact Inv.set_map (v := (w.sockets.openHandle false).closeHandle _ _) hI
      fun m hm _ => .inl (by rw [hnew (hopened hrun) m hm]; rfl)
  · have hwin := Discipline.check_winsock ha
    simp only [World.winsock, he, Option.isSome_none, Bool.false_or, Bool.and_eq_true,
      ne_eq, decide_not, Bool.not_eq_true', decide_eq_false_iff_not] at hwin
    have hI' : Inv ((w.sockets.openHandle false).createTp (some w.nextHandle)) :=
      Inv.createTp (v := w.sockets.openHandle false) hI _
    exact hI'.set_map fun m _ _ => .inr ⟨w.nextHandle, w.sockets.nextTp, rfl, rfl, Nat.lt_succ_self _,
      Function.update_self .., hwin.1.1, hwin.1.2, hwin.2⟩

/-- A native socket that was named is one, so that its object has all its members set. -/
theorem inv_setBound {v : Sockets} (hI : Inv v) (hs : (v.members x).nativeSocket ≠ none) :
    Inv (v.set x Discipline.setBound) := by
  refine hI.set_map fun m hm hsettled => ?_
  rw [Sockets.members, hm] at hs
  rcases hsettled with rfl | hset
  · exact (hs rfl).elim
  · exact .inr hset

theorem inv_bind {ep : Endpoint} (hI : Inv w.sockets) :
    (WinSocket.bind x ep).Always discipline.host t (fun _ w' => Inv w'.sockets) w := by
  refine Discipline.always_bind (Q := fun _ => Inv) (fun _ _ => hI) (fun _ _ => hI) fun addr a ha he => ?_
  refine inv_setBound (v := (w.sockets.misname _).name _ true) hI fun hs => ?_
  have hwin := Discipline.check_winsock ha
  rw [show (w.sockets.members x).nativeSocket = none from hs] at hwin
  simp [World.winsock, he] at hwin

theorem inv_connect {dst : Endpoint} (hI : Inv w.sockets) :
    (WinSocket.connect x dst).Always discipline.host t (fun _ w' => Inv w'.sockets) w := by
  refine Discipline.always_connect (Q := fun _ => Inv) (fun _ => hI) fun addr a ha he => ?_
  refine inv_setBound (v := w.sockets.name _ true) hI fun hs => ?_
  have hwin := Discipline.check_winsock ha
  rw [show (w.sockets.members x).nativeSocket = none from hs] at hwin
  simp [World.winsock, he] at hwin

theorem inv_sendTo {b : Span} {dst : Endpoint} (hI : Inv w.sockets) :
    (WinSocket.sendTo x b dst).Always discipline.host t (fun _ w' => Inv w'.sockets) w := by
  refine Discipline.always_sendTo (Q := Inv) hI fun buf len addr a ha he => ?_
  refine inv_setBound (v := w.sockets.name _ true) hI fun hs => ?_
  have hwin := Discipline.check_winsock ha
  rw [show (w.sockets.members x).nativeSocket = none from hs] at hwin
  simp [World.winsock, he] at hwin

theorem inv_close (hI : Inv w.sockets) :
    (WinSocket.close x).Always discipline.host t (fun _ w' => Inv w'.sockets) w :=
  Discipline.always_close (Q := fun _ => Inv) fun _ _ _ =>
    Inv.set_map (v := w.sockets.closeHandle _ _) hI fun _ _ _ => .inl rfl

theorem inv_accept {a : SockId} (hI : Inv w.sockets) :
    (WinSocket.accept x a).Always discipline.host t (fun _ w' => Inv w'.sockets) w := by
  refine Discipline.always_accept (Q := fun _ => Inv) (fun _ => hI) (fun _ _ _ => hI)
    (fun b e s ok hb he hs hok => ?_) fun b hb he => ?_
  · exact Inv.set_map (v := (w.sockets.openHandle true).closeHandle _ _) hI fun _ _ _ => .inl rfl
  · have hwin := Discipline.check_winsock hb
    simp only [World.winsock, he, Option.isSome_none, Bool.false_or, Bool.and_eq_true,
      ne_eq, decide_not, Bool.not_eq_true', decide_eq_false_iff_not] at hwin
    have hI' : Inv ((w.sockets.openHandle true).createTp (some w.nextHandle)) :=
      Inv.createTp (v := w.sockets.openHandle true) hI _
    exact hI'.set_map fun m _ _ => .inr ⟨w.nextHandle, w.sockets.nextTp, rfl, rfl, Nat.lt_succ_self _,
      Function.update_self .., hwin.1.1, hwin.1.2, hwin.2⟩

end Functions

theorem calms : discipline.Calms Inv where
  create {v} hI := by
    intro x m hm
    by_cases hx : x = v.nextObject
    · subst hx
      rw [Sockets.objects_create] at hm
      cases hm
      exact .inl rfl
    · rw [Sockets.objects_create_ne v hx] at hm
      exact hI x m hm
  destroyed hI _ := hI.set nofun
  overlapped hI _ := hI

/-- What every call restores. -/
theorem kept : discipline.Kept Inv where
  toCalms := calms
  complete hI _ _ := hI
  body {w t c a} hchanges hI hc := by
    have hI' : Inv (w.enterCall t c).sockets := hI
    cases c with
    | socket x af ty pr => exact inv_socket hI' (.inr (w.callOf_enterCall t _))
    | bind x ep => exact inv_bind hI'
    | close x => exact inv_close hI'
    | accept x a => exact inv_accept hI'
    | connect x dst => exact inv_connect hI'
    | sendTo x b dst => exact (inv_sendTo hI').bind fun _ _ h => Prog.always_ret.mpr h
    | startAccept x a f =>
      refine Discipline.always_startAccept (J := fun w => Inv w.sockets) calms.calm
        (fun hnone af ty pr => inv_socket hI' (.inl ?_)) hI'
      rw [Sockets.members] at hnone ⊢
      cases ha : (w.enterCall t (.startAccept x a f)).sockets.objects a with
      | none => rfl
      | some m =>
        rw [ha] at hnone
        exact congrArg WinSocket.socketIoHandle ((hI' a m ha).new_of_native hnone)
    | startConnect x dst f =>
      exact Discipline.always_startConnect (J := fun w => Inv w.sockets) (K := fun _ => True) calms.calm
        (fun any w hI => Discipline.always_bindForConnect (fun _ => ⟨hI, fun _ => trivial⟩) fun _ =>
          (inv_bind hI).mono fun _ _ h => ⟨h, fun _ => trivial⟩)
        (fun i w hI _ => Discipline.always_connectIo (P := fun _ => True) calms.calm
          (fun hI _ => hI) hI trivial) hI'
    | initializeCore => exact calms.always_initializeCore (fun hI _ => hI) hI'
    | _ => cases hchanges

end Representation

/-- **The members of every socket belong together between the calls**, in whatever order and from
whatever threads the calls are made, as long as no step of `socket` fails on an object that has a
TP_IO. -/
theorem consistent_between {conf : IOCoreConfig} {s : State}
    (hs : serialMachine.Reach Representation.discipline.guard (State.start conf) s)
    (hb : s.w.between = true) :
    ∀ x m, s.w.socks x = some m → m.Consistent s.w.tpHandle :=
  fun x m hm => (Representation.kept.holds nofun hs hb x m hm).consistent

/-- A socket is opened twice. -/
theorem consistent_between_reopened : ∃ s : State,
    serialMachine.Reach Representation.discipline.guard (State.start ⟨0, 0, 0, 0⟩) s ∧
      s.w.between = true ∧ ∃ m, s.w.socks 0 = some m ∧ m.isValid = true ∧
        m.Consistent s.w.tpHandle := by
  obtain ⟨s, hs, hp⟩ := Machine.exists_reach_of_fire (m := serialMachine)
    (g := Representation.discipline.guard) (s := State.start ⟨0, 0, 0, 0⟩)
    (P := fun s => s.w.between && (s.w.socks 0).any WinSocket.isValid) Machine.allows_checks
    (l := .env (.spawn [.create, .socket 0 .ipv4 .stream .tcp, .socket 0 .ipv4 .datagram .udp]) ::
      List.replicate 17 (.run 0 {})) (by decide +kernel)
  obtain ⟨hb, hv⟩ := Bool.and_eq_true_iff.mp hp
  obtain ⟨m, hm, hvalid⟩ := (Option.any_eq_true _ _).mp hv
  exact ⟨s, hs, hb, m, hm, hvalid, consistent_between hs hb 0 m hm⟩

/-- A socket is opened, and opened once more, which `WSASocketW` refuses. -/
theorem not_consistent_reopen : ¬ ∀ conf (s : State),
    serialMachine.Reach Discipline.free.guard (State.start conf) s → s.w.between = true →
      ∀ x m, s.w.socks x = some m → m.Consistent s.w.tpHandle := by
  intro h
  obtain ⟨s, hs, hp⟩ := Machine.exists_reach_of_fire (m := serialMachine)
    (g := Discipline.free.guard) (s := State.start ⟨0, 0, 0, 0⟩)
    (P := fun s => s.w.between && (s.w.socks 0).any fun m => !m.isValid && m.socketIoHandle.isSome)
    Machine.allows_checks
    (l := .env (.spawn [.create, .socket 0 .ipv4 .stream .tcp, .socket 0 .ipv4 .datagram .udp]) ::
      List.replicate 10 (.run 0 {}) ++ [.run 0 { error := some .noBufs }] ++
      List.replicate 3 (.run 0 {})) (by decide +kernel)
  obtain ⟨hb, hv⟩ := Bool.and_eq_true_iff.mp hp
  obtain ⟨m, hm, hbad⟩ := (Option.any_eq_true _ _).mp hv
  obtain ⟨hvalid, hio⟩ := Bool.and_eq_true_iff.mp hbad
  have hiff := (h _ s hs hb 0 m hm).io
  rw [(Bool.not_eq_true' _).mp hvalid] at hiff
  exact Bool.false_ne_true (hiff.mpr (Option.isSome_iff_ne_none.mp hio))

end FirelinkNet
