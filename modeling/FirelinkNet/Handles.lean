import FirelinkNet.Sockets

/-!
# The native sockets are those of the objects

A native socket is opened by `WSASocketW` or by `::accept`, becomes `socket_` of an object, and
leaves it through `close` or an error path that closes it. `socket` and `accept` assign to
`socket_` without looking at what is there, and `~WinSocket` closes the TP_IO alone.

User code holds a `shared_ptr` to each object that it calls a function on, so the object is there.

## What is proved

* `ledger_between` — between the calls **the native sockets that are open are exactly those of
  the objects**, each of one object, and none was closed twice, as long as `closesocket` succeeds,
  `socket` is called and `accept` accepts only into objects that are not open, and an object
  is closed before it is destroyed.
* `not_ledger_destroyed` — not otherwise: an open object that is destroyed leaves its native
  socket open.
-/

namespace FirelinkNet

open Lib

attribute [local irreducible] Prog.Always

/-- A native socket was opened, and has not been closed. -/
def World.IsOpen (w : World) (h : ℕ) : Prop := h < w.nextHandle ∧ w.sockCloses h = 0

/-- The native sockets that are open are those of the objects. -/
structure World.Ledger (w : World) : Prop where
  /-- A native socket is open when an object holds it, and not otherwise. -/
  isOpen_iff : ∀ h, w.IsOpen h ↔ ∃ x m, w.socks x = some m ∧ m.nativeSocket = some h
  /-- One object holds it. -/
  one : ∀ x y m m' h, w.socks x = some m → w.socks y = some m' → m.nativeSocket = some h →
    m'.nativeSocket = some h → x = y
  /-- None was closed twice. -/
  once : ∀ h, w.sockCloses h ≤ 1
  /-- When all objects are gone, none is open. -/
  released : (∀ x, w.socks x = none) → ∀ h, ¬ w.IsOpen h

namespace Handles

/-- The object is not open. -/
def unopened (w : World) (x : SockId) : Bool := (w.sockets.members x).nativeSocket.isNone

/-- What is called is there, `closesocket` succeeds, `socket` is called and `accept` accepts only into
objects that are not open, and an object is closed before it is destroyed. -/
def discipline : Discipline where
  run w t o a :=
    match o with
    | .enter c =>
      (c.sockets.all fun x => (w.socks x).isSome) &&
        match c with
        | .socket x _ _ _ => unopened w x
        | _ => true
    | .destroyed x => unopened w x
    | .getProtocolInfo _ => a.error.isSome ||
      match w.callOf t with
      | some (.accept _ x) => unopened w x
      | _ => true
    | .closesocket _ => a.error.isNone
    | _ => true
  env _ _ := true

/-- What holds between the calls. -/
structure Inv (v : Sockets) : Prop extends Sockets.Distinct v where
  /-- What an object holds is open. -/
  held : ∀ x m h, v.objects x = some m → m.nativeSocket = some h → v.closes h = 0
  /-- A native socket that is open is held by an object. -/
  owned : ∀ h, h < v.nextHandle → v.closes h = 0 → ∃ x m, v.objects x = some m ∧ m.nativeSocket = some h
  /-- None was closed twice. -/
  once : ∀ h, v.closes h ≤ 1
  /-- None was closed before it was opened. -/
  unopened : ∀ h, v.nextHandle ≤ h → v.closes h = 0

theorem Inv.ledger {w : World} (h : Inv w.sockets) : w.Ledger where
  isOpen_iff n := by
    refine ⟨fun hn => h.owned n hn.1 hn.2, ?_⟩
    rintro ⟨x, m, hx, hm⟩
    exact ⟨h.opened x m n hx hm, h.held x m n hx hm⟩
  one := h.one
  once := h.once
  released hnone n hn := by
    obtain ⟨x, m, hx, -⟩ := h.owned n hn.1 hn.2
    rw [show w.sockets.objects x = none from hnone x] at hx
    cases hx

variable {v : Sockets} {x : SockId}

/-- The members of an object change, but for `socket_`. -/
theorem Inv.set_map {g : WinSocket → WinSocket} (h : Inv v)
    (hg : ∀ m, v.objects x = some m → (g m).nativeSocket = m.nativeSocket) :
    Inv (v.set x (Option.map g)) := by
  refine ⟨h.toDistinct.set_map fun m hm => .inl (hg m hm), fun y m n hy hn => ?_, fun n hlt hn => ?_,
    h.once, h.unopened⟩
  · by_cases hyx : y = x
    · subst hyx
      rw [Sockets.objects_set] at hy
      obtain ⟨m', hm', rfl⟩ := Option.map_eq_some_iff.mp hy
      exact h.held y m' n hm' ((hg m' hm').symm.trans hn)
    · rw [Sockets.objects_set_ne v _ hyx] at hy
      exact h.held y m n hy hn
  · obtain ⟨y, m, hm, hs⟩ := h.owned n hlt hn
    by_cases hyx : y = x
    · subst hyx
      refine ⟨y, g m, ?_, (hg m hm).trans hs⟩
      rw [Sockets.objects_set, hm]
      rfl
    · exact ⟨y, m, (Sockets.objects_set_ne v _ hyx).trans hm, hs⟩

/-- A native socket is opened, and closed again. -/
theorem Inv.openClose (h : Inv v) (named : Bool) :
    Inv ((v.openHandle named).closeHandle (some v.nextHandle) true) := by
  have hcloses := Sockets.closes_closeHandle (v.openHandle named) v.nextHandle
  have hnew : (v.openHandle named).closes v.nextHandle = 0 := h.unopened _ le_rfl
  have hold : ∀ {n}, n ≠ v.nextHandle →
      ((v.openHandle named).closeHandle (some v.nextHandle) true).closes n = v.closes n :=
    fun hn => (hcloses _).trans (if_neg hn)
  obtain ⟨hcreated, hopened, hone⟩ := h.toDistinct.openHandle named
  refine ⟨⟨hcreated, hopened, hone⟩, fun y m n hy hn => ?_, fun n hlt hn => ?_, fun n => ?_,
    fun n hn => ?_⟩
  · exact (hold (Nat.ne_of_lt (h.opened y m n hy hn))).trans (h.held y m n hy hn)
  · rcases Nat.lt_succ_iff_lt_or_eq.mp hlt with hlt | rfl
    · exact h.owned n hlt ((hold (Nat.ne_of_lt hlt)).symm.trans hn)
    · rw [hcloses, if_pos rfl] at hn
      cases hn
  · by_cases hn : n = v.nextHandle
    · rw [hn, hcloses, if_pos rfl, hnew]
    · rw [hold hn]
      exact h.once n
  · have hlt : v.nextHandle < n := hn
    rw [hold (Nat.ne_of_gt hlt)]
    exact h.unopened n hlt.le

/-- A native socket is opened, and an object that held none holds it. -/
theorem Inv.take {named : Bool} {m : WinSocket} {g : WinSocket → WinSocket} (h : Inv v)
    (hx : v.objects x = some m) (hnone : m.nativeSocket = none)
    (hg : (g m).nativeSocket = some v.nextHandle) :
    Inv ((v.openHandle named).set x (Option.map g)) := by
  have hself : ((v.openHandle named).set x (Option.map g)).objects x = some (g m) := by
    rw [Sockets.objects_set, show (v.openHandle named).objects x = some m from hx]
    rfl
  have hne : ∀ {y}, y ≠ x → ((v.openHandle named).set x (Option.map g)).objects y = v.objects y :=
    fun hy => Sockets.objects_set_ne (v.openHandle named) _ hy
  refine ⟨h.toDistinct.take fun m' hm' => ?_, fun y m' n hy hn => ?_, fun n hlt hn => ?_, h.once,
    fun n hn => h.unopened n (Nat.le_of_succ_le hn)⟩
  · rw [hx] at hm'
    cases hm'
    exact hg
  · by_cases hyx : y = x
    · rw [hyx, hself] at hy
      cases hy
      rw [hg] at hn
      cases hn
      exact h.unopened _ le_rfl
    · exact h.held y m' n ((hne hyx).symm.trans hy) hn
  · rcases Nat.lt_succ_iff_lt_or_eq.mp hlt with hlt | rfl
    · obtain ⟨y, m', hy, hs⟩ := h.owned n hlt hn
      have hyx : y ≠ x := by
        rintro rfl
        rw [hx] at hy
        cases hy
        rw [hnone] at hs
        cases hs
      exact ⟨y, m', (hne hyx).trans hy, hs⟩
    · exact ⟨x, g m, hself, hg⟩

/-- An object gives up the native socket that it held, which is closed. -/
theorem Inv.release {m : WinSocket} {n : ℕ} {g : WinSocket → WinSocket} (h : Inv v)
    (hx : v.objects x = some m) (hn : m.nativeSocket = some n) (hg : (g m).nativeSocket = none) :
    Inv ((v.closeHandle (some n) true).set x (Option.map g)) := by
  have hcloses := Sockets.closes_closeHandle v n
  have hself : ((v.closeHandle (some n) true).set x (Option.map g)).objects x = some (g m) := by
    rw [Sockets.objects_set, show (v.closeHandle (some n) true).objects x = some m from hx]
    rfl
  have hne : ∀ {y}, y ≠ x → ((v.closeHandle (some n) true).set x (Option.map g)).objects y = v.objects y :=
    fun hy => Sockets.objects_set_ne (v.closeHandle (some n) true) _ hy
  have hdistinct : (v.closeHandle (some n) true).Distinct := ⟨h.created, h.opened, h.one⟩
  refine ⟨hdistinct.set_map fun m' hm' => .inr ?_, fun y m' k hy hk => ?_, fun k hk hc => ?_,
    fun k => ?_, fun k hk => ?_⟩
  · rw [show (v.closeHandle (some n) true).objects x = some m from hx] at hm'
    cases hm'
    exact hg
  · have hyx : y ≠ x := by
      rintro rfl
      rw [hself] at hy
      cases hy
      rw [hg] at hk
      cases hk
    have hy' := (hne hyx).symm.trans hy
    have hkn : k ≠ n := by
      rintro rfl
      exact hyx (h.one y x m' m k hy' hx hk hn)
    exact ((hcloses k).trans (if_neg hkn)).trans (h.held y m' k hy' hk)
  · have hkn : k ≠ n := by
      rintro rfl
      exact Nat.succ_ne_zero _ (((hcloses k).trans (if_pos rfl)).symm.trans hc)
    obtain ⟨y, m', hy, hs⟩ := h.owned k hk (((hcloses k).trans (if_neg hkn)).symm.trans hc)
    have hyx : y ≠ x := by
      rintro rfl
      rw [hx] at hy
      cases hy
      rw [hn] at hs
      cases hs
      exact hkn rfl
    exact ⟨y, m', (hne hyx).trans hy, hs⟩
  · refine (hcloses k).le.trans ?_
    split
    · rw [h.held x m n hx hn]
    · exact h.once k
  · have hkn : k ≠ n := Nat.ne_of_gt (Nat.lt_of_lt_of_le (h.opened x m n hx hn) hk)
    exact ((hcloses k).trans (if_neg hkn)).trans (h.unopened k hk)

/-- An object is created, which holds no native socket. -/
theorem Inv.create (h : Inv v) : Inv v.create := by
  refine ⟨h.toDistinct.create, fun y m n hy hn => ?_, fun n hlt hn => ?_, h.once, h.unopened⟩
  · by_cases hyx : y = v.nextObject
    · rw [hyx, Sockets.objects_create] at hy
      cases hy
      cases hn
    · rw [Sockets.objects_create_ne v hyx] at hy
      exact h.held y m n hy hn
  · obtain ⟨y, m, hm, hs⟩ := h.owned n hlt hn
    have hyx : y ≠ v.nextObject := by
      rintro rfl
      rw [h.created _ le_rfl] at hm
      cases hm
    exact ⟨y, m, (Sockets.objects_create_ne v hyx).trans hm, hs⟩

/-- An object that holds no native socket is destroyed. -/
theorem Inv.destroy (h : Inv v) (hx : (v.members x).nativeSocket = none) :
    Inv (v.set x fun _ => none) := by
  refine ⟨h.toDistinct.set rfl nofun, fun y m n hy hn => ?_, fun n hlt hn => ?_, h.once, h.unopened⟩
  · by_cases hyx : y = x
    · rw [hyx, Sockets.objects_set] at hy
      cases hy
    · rw [Sockets.objects_set_ne v _ hyx] at hy
      exact h.held y m n hy hn
  · obtain ⟨y, m, hm, hs⟩ := h.owned n hlt hn
    have hyx : y ≠ x := by
      rintro rfl
      rw [Sockets.members, hm, Option.getD_some, hs] at hx
      cases hx
    exact ⟨y, m, (Sockets.objects_set_ne v _ hyx).trans hm, hs⟩

/-- Local addresses are of no account. -/
theorem Inv.name (h : Inv v) (s : NativeHandle) (ok : Bool) : Inv (v.name s ok) :=
  ⟨⟨h.created, h.opened, h.one⟩, h.held, h.owned, h.once, h.unopened⟩

theorem Inv.misname (h : Inv v) (bad : Bool) : Inv (v.misname bad) :=
  ⟨⟨h.created, h.opened, h.one⟩, h.held, h.owned, h.once, h.unopened⟩

/-- Nor are the TP_IOs. -/
theorem Inv.createTp (h : Inv v) (s : NativeHandle) : Inv (v.createTp s) :=
  ⟨⟨h.created, h.opened, h.one⟩, h.held, h.owned, h.once, h.unopened⟩

/-! ### The functions -/

section Functions

variable {w : World} {t : ℕ}

/-- `closesocket` succeeds. -/
theorem closes_ok {n : ℕ} {ok : Bool} (h : discipline.Closes t (some n) ok) : ok = true := by
  obtain ⟨w', a, ha, rfl⟩ := h n rfl
  exact Discipline.check_run ha

theorem native_of_members {v : Sockets} {m : WinSocket} (hx : v.objects x = some m)
    (h : (v.members x).nativeSocket = none) : m.nativeSocket = none := by
  rwa [Sockets.members, hx] at h

theorem inv_socket {af : AddressFamily} {ty : SocketType} {pr : Protocol} (hI : Inv w.sockets)
    (hx : (w.socks x).isSome = true) (hnone : (w.sockets.members x).nativeSocket = none) :
    (WinSocket.socket x af ty pr).Always discipline.host t (fun _ w' => Inv w'.sockets) w := by
  obtain ⟨m, hm⟩ := Option.isSome_iff_exists.mp hx
  have hmnone := native_of_members (v := w.sockets) hm hnone
  have hnative : ∀ m', w.sockets.objects x = some m' → none = m'.nativeSocket :=
    fun m' hm' => (native_of_members hm' hnone).symm
  have hshut : ∀ c w', discipline.check w' t (.closesocket (some w.nextHandle)) c = true →
      Inv ((w.sockets.openHandle false).closeHandle (some w.nextHandle) c.error.isNone) := by
    intro c w' hc
    have hok : c.error.isNone = true := Discipline.check_run hc
    rw [hok]
    exact hI.openClose false
  refine Discipline.always_socket (Q := fun _ => Inv) (fun a e ha he => hI.set_map hnative)
    (fun b c hb hcore hc => (hshut c _ hc).set_map hnative)
    (fun b c e hb he hc => (hshut c _ hc).set_map hnative) fun a ha he => ?_
  exact Inv.take (v := w.sockets.createTp (some w.nextHandle)) (hI.createTp _) hm hmnone rfl

theorem inv_bind {ep : Endpoint} (hI : Inv w.sockets) :
    (WinSocket.bind x ep).Always discipline.host t (fun _ w' => Inv w'.sockets) w :=
  Discipline.always_bind (Q := fun _ => Inv) (fun _ _ => hI) (fun _ _ => hI.misname _)
    fun _ _ _ _ => ((hI.misname _).name _ true).set_map fun _ _ => rfl

theorem inv_connect {dst : Endpoint} (hI : Inv w.sockets) :
    (WinSocket.connect x dst).Always discipline.host t (fun _ w' => Inv w'.sockets) w :=
  Discipline.always_connect (Q := fun _ => Inv) (fun _ => hI)
    fun _ _ _ _ => (hI.name _ true).set_map fun _ _ => rfl

theorem inv_sendTo {b : Span} {dst : Endpoint} (hI : Inv w.sockets) :
    (WinSocket.sendTo x b dst).Always discipline.host t (fun _ w' => Inv w'.sockets) w :=
  Discipline.always_sendTo (Q := Inv) hI fun _ _ _ _ _ _ => (hI.name _ true).set_map fun _ _ => rfl

theorem inv_close (hI : Inv w.sockets) :
    (WinSocket.close x).Always discipline.host t (fun _ w' => Inv w'.sockets) w := by
  refine Discipline.always_close (Q := fun _ => Inv) fun e ok hok => ?_
  cases hx : w.sockets.objects x with
  | none =>
    rw [Sockets.members, hx, Option.getD_none, WinSocket.new, Sockets.closeHandle_none]
    exact hI.set_map fun m hm => by rw [hx] at hm; cases hm
  | some m =>
    rw [Sockets.members, hx, Option.getD_some] at hok ⊢
    cases hn : m.nativeSocket with
    | none =>
      rw [Sockets.closeHandle_none]
      refine hI.set_map fun m' hm' => ?_
      rw [hx] at hm'
      cases hm'
      exact hn.symm
    | some n =>
      rw [hn] at hok
      rw [closes_ok hok]
      exact hI.release hx hn rfl

theorem inv_accept {a : SockId} (hI : Inv w.sockets) (ha : (w.socks a).isSome = true)
    (hcall : w.callOf t = some (.accept x a)) :
    (WinSocket.accept x a).Always discipline.host t (fun _ w' => Inv w'.sockets) w := by
  obtain ⟨m, hm⟩ := Option.isSome_iff_exists.mp ha
  have hunopened : ∀ b, discipline.check (w.openHandle true true) t
      (.getProtocolInfo (some w.nextHandle)) b = true → b.error = none →
        (w.sockets.members a).nativeSocket = none := by
    intro b hb he
    have hrun := Discipline.check_run hb
    simp only [discipline, he, Option.isSome_none, Bool.false_or] at hrun
    rw [show (w.openHandle true true).callOf t = some (.accept x a) from hcall] at hrun
    exact Option.isNone_iff_eq_none.mp hrun
  refine Discipline.always_accept (Q := fun _ => Inv) (fun _ => hI) (fun _ c hc => ?_)
    (fun b e s ok hb he hs hok => ?_) fun b hb he => ?_
  · have hok : c.error.isNone = true := Discipline.check_run hc
    rw [hok]
    exact hI.openClose true
  · rcases hs with rfl | hgone
    · rw [closes_ok hok]
      refine (hI.openClose true).set_map fun m' hm' => ?_
      exact (native_of_members (v := w.sockets) hm' (hunopened b hb he)).symm
    · rw [show w.sockets.objects a = some m from hm] at hgone
      cases hgone
  · exact Inv.take (v := w.sockets.createTp (some w.nextHandle)) (hI.createTp _) hm (native_of_members (v := w.sockets) hm (hunopened b hb he)) rfl

end Functions

theorem calms : discipline.Calms Inv where
  create hI := hI.create
  destroyed hI hc := hI.destroy (Option.isNone_iff_eq_none.mp (Discipline.check_run hc))
  overlapped hI _ := hI.name _ _

/-- What every call restores. -/
theorem kept : discipline.Kept Inv where
  toCalms := calms
  complete hI _ _ := hI.name _ _
  body {w t c a} hchanges hI hc := by
    have hI' : Inv (w.enterCall t c).sockets := hI
    obtain ⟨hexist, hcond⟩ := Bool.and_eq_true_iff.mp (Discipline.check_run hc)
    have hthere : ∀ x ∈ c.sockets, ((w.enterCall t c).socks x).isSome = true :=
      List.all_eq_true.mp hexist
    cases c with
    | socket x af ty pr =>
      exact inv_socket hI' (hthere x (by simp [ApiCall.sockets])) (Option.isNone_iff_eq_none.mp hcond)
    | bind x ep => exact inv_bind hI'
    | close x => exact inv_close hI'
    | accept x a =>
      exact inv_accept hI' (hthere a (by simp [ApiCall.sockets])) (w.callOf_enterCall t _)
    | connect x dst => exact inv_connect hI'
    | sendTo x b dst => exact (inv_sendTo hI').bind fun _ _ h => Prog.always_ret.mpr h
    | startAccept x a f =>
      exact Discipline.always_startAccept (J := fun w => Inv w.sockets) calms.calm
        (fun hnone af ty pr => inv_socket hI' (hthere a (by simp [ApiCall.sockets])) hnone) hI'
    | startConnect x dst f =>
      exact Discipline.always_startConnect (J := fun w => Inv w.sockets) (K := fun _ => True) calms.calm
        (fun any w hI => Discipline.always_bindForConnect (fun _ => ⟨hI, fun _ => trivial⟩) fun _ =>
          (inv_bind hI).mono fun _ _ h => ⟨h, fun _ => trivial⟩)
        (fun i w hI _ => Discipline.always_connectIo (P := fun _ => True) calms.calm
          (fun hI _ => hI.misname _) hI trivial) hI'
    | initializeCore =>
      exact calms.always_initializeCore (fun hI hok => closes_ok hok ▸ hI.openClose false) hI'
    | _ => cases hchanges

theorem start (conf : IOCoreConfig) : Inv (World.start conf).sockets := by
  refine ⟨⟨fun _ _ => rfl, nofun, nofun⟩, nofun, fun h hlt hc => ?_, fun h => ?_, fun h hh => ?_⟩
  · have h0 : h = 0 := Nat.lt_one_iff.mp hlt
    subst h0
    cases hc
  · change upd (fun _ => 0) 0 1 h ≤ 1
    rw [upd, Function.update_apply]
    split
    · exact le_rfl
    · exact Nat.zero_le 1
  · exact Function.update_of_ne (Nat.ne_of_gt hh) 1 fun _ => 0

end Handles

/-- **The native sockets that are open are those of the objects** between the calls, in whatever order
and from whatever threads the calls are made, as long as `closesocket` succeeds, `socket` and `accept`
open only objects that are not open, and an object is closed before it is destroyed. -/
theorem ledger_between {conf : IOCoreConfig} {s : State}
    (hs : serialMachine.Reach Handles.discipline.guard (State.start conf) s)
    (hb : s.w.between = true) : s.w.Ledger :=
  (Handles.kept.holds (Handles.start conf) hs hb).ledger

/-- A socket is opened, closed, opened once more, closed and destroyed. -/
theorem ledger_between_reopened : ∃ s : State,
    serialMachine.Reach Handles.discipline.guard (State.start ⟨0, 0, 0, 0⟩) s ∧
      s.w.between = true ∧ s.w.nextHandle = 3 ∧ s.w.socks 0 = none ∧ s.w.Ledger := by
  obtain ⟨s, hs, hp⟩ := Machine.exists_reach_of_fire (m := serialMachine)
    (g := Handles.discipline.guard) (s := State.start ⟨0, 0, 0, 0⟩)
    (P := fun s => s.w.between && (s.w.nextHandle == 3 && (s.w.socks 0).isNone)) Machine.allows_checks
    (l := .env (.spawn [.create, .socket 0 .ipv4 .stream .tcp, .close 0, .socket 0 .ipv4 .datagram .udp,
      .close 0, .dropRef 0]) :: List.replicate 41 (.run 0 {})) (by decide +kernel)
  obtain ⟨hb, hp⟩ := Bool.and_eq_true_iff.mp hp
  obtain ⟨hn, hx⟩ := Bool.and_eq_true_iff.mp hp
  exact ⟨s, hs, hb, beq_iff_eq.mp hn, Option.isNone_iff_eq_none.mp hx, ledger_between hs hb⟩

/-- The objects that there are have been created. -/
def World.Created (w : World) : Prop := ∀ x, w.nextSock ≤ x → w.socks x = none

theorem World.Created.set {w w' : World} {x : SockId} {f : Option WinSocket → Option WinSocket}
    (h : w.Created) (hsocks : w'.socks = upd w.socks x (f (w.socks x)))
    (hnext : w'.nextSock = w.nextSock) (hf : f none = none) : w'.Created := by
  intro y hy
  rw [hnext] at hy
  by_cases hyx : y = x
  · rw [hsocks, hyx, upd, Function.update_self, h x (hyx ▸ hy), hf]
  · rw [hsocks, upd, Function.update_of_ne hyx]
    exact h y hy

theorem World.Created.reply {w : World} {t : ℕ} {o : Op} {a : Ans} (h : w.Created) :
    (w.reply t o a).2.Created := by
  cases o with
  | makeSocket =>
    intro x hx
    have hlt : w.nextSock < x := hx
    exact (Function.update_of_ne (Nat.ne_of_gt hlt) ..).trans (h x hlt.le)
  | destroyed x => exact h.set (f := fun _ => none) rfl rfl rfl
  | writeSocket x f => exact h.set (f := Option.map f) rfl rfl rfl
  | createThreadpoolIo x s => exact h.set (f := Option.map _) rfl rfl rfl
  | closeThreadpoolCleanupGroupMembers g => cases g <;> exact h
  | _ => exact h

theorem World.Created.reach {g : Guard Op World Ans Event} {conf : IOCoreConfig} {s : State}
    (hs : serialMachine.Reach g (State.start conf) s) : s.w.Created := by
  refine Machine.Reach.world (I := World.Created) (fun h => h.reply) (fun h he => ?_) hs fun _ _ => rfl
  cases World.event_step he <;> exact h

/-- `closesocket` succeeds. -/
def Handles.closing : Discipline where
  run _ _ o a :=
    match o with
    | .closesocket _ => a.error.isNone
    | _ => true
  env _ _ := true

/-- A socket is opened and destroyed. -/
theorem not_ledger_destroyed : ¬ ∀ conf (s : State),
    serialMachine.Reach Handles.closing.guard (State.start conf) s → s.w.between = true →
      s.w.Ledger := by
  intro h
  obtain ⟨s, hs, hp⟩ := Machine.exists_reach_of_fire (m := serialMachine)
    (g := Handles.closing.guard) (s := State.start ⟨0, 0, 0, 0⟩)
    (P := fun s => s.w.between && (s.w.nextHandle == 2 && (s.w.sockCloses 1 == 0 &&
      (s.w.nextSock == 1 && (s.w.socks 0).isNone)))) Machine.allows_checks
    (l := .env (.spawn [.create, .socket 0 .ipv4 .stream .tcp, .dropRef 0]) ::
      List.replicate 14 (.run 0 {})) (by decide +kernel)
  simp only [Bool.and_eq_true, beq_iff_eq, Option.isNone_iff_eq_none] at hp
  obtain ⟨hb, hn, hc, hx, hgone⟩ := hp
  have hnone : ∀ x, s.w.socks x = none := by
    intro x
    cases x with
    | zero => exact hgone
    | succ x => exact World.Created.reach hs _ (hx.le.trans (Nat.succ_le_succ (Nat.zero_le x)))
  exact (h _ s hs hb).released hnone 1 ⟨hn ▸ Nat.one_lt_two, hc⟩

end FirelinkNet
