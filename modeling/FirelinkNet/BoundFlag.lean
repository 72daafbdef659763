import FirelinkNet.Sockets

/-!
# `is_bound_` and the kernel

A native socket has a local address from `::bind`, `::connect`, `::sendto`, `WSASendTo` or
`::accept` on, and the one that `AcceptEx` accepts on has it from the completion on. `is_bound_`
shadows this: `start_connect` calls `bind` when it is false, because `ConnectEx` needs a local address.

`bind`, `connect`, `send_to` and `accept` set the flag, and `close` resets it. `start_send_to` and the
completion of `start_accept` do not set it, and `socket` does not reset it.

## What is proved

* `isBound_between` — between the calls **`is_bound_` is what the kernel has** for every object,
  `start_connect` never bound a socket that had a local address, and `ConnectEx` was never called
  on one that had none, as long as `socket` is not called on an object with the flag set,
  `WSASendTo` is accepted only on sockets that have a local address, and `AcceptEx` completes
  only on such sockets or on those that no object holds any more.
* `not_isBound_startSendTo` — not otherwise.
-/

namespace FirelinkNet

open Lib

attribute [local irreducible] Prog.Always

namespace BoundFlag

/-- An object holds the native socket. -/
def isHeld (w : World) (s : NativeHandle) : Bool :=
  (List.range w.nextSock).any fun x => (w.socks x).any fun m => m.nativeSocket == s

/-- `socket` is not called on an object with the flag set, and what gets a local address in the background
has one already, or is held by no object. -/
def discipline : Discipline where
  run w _ o a :=
    match o with
    | .enter (.socket x _ _ _) => !(w.sockets.members x).isBound
    | .overlapped (.wsaSendTo s _ _ _) _ _ => !World.accepts a.error || s.isNone || w.isNamed s
    | _ => true
  env w e :=
    match e with
    | .complete k c =>
      match w.kernel[k]? with
      | some e => c.ioResult ≠ 0 || w.isNamed (w.acceptedBy e.data) || !isHeld w (w.acceptedBy e.data)
      | none => true
    | _ => true

/-- What holds between the calls. -/
structure Inv (v : Sockets) : Prop extends Sockets.Distinct v where
  /-- The flag is what the kernel has. -/
  flag : ∀ x m, v.objects x = some m → m.isBound = v.isNamed m.nativeSocket
  /-- No local address was misused. -/
  clean : v.misnamed = false

variable {v : Sockets} {x : SockId}

/-- The flag of the members of `x`, if there is such an object. -/
theorem Inv.members (h : Inv v) : (v.members x).isBound = v.isNamed (v.members x).nativeSocket := by
  rw [Sockets.members]
  cases hx : v.objects x with
  | none => rfl
  | some m => exact h.flag x m hx

theorem isNamed_openHandle_self (v : Sockets) (named : Bool) :
    (v.openHandle named).isNamed (some v.nextHandle) = named := Function.update_self ..

theorem isNamed_name_self (v : Sockets) (n : ℕ) : (v.name (some n) true).isNamed (some n) = true :=
  Function.update_self ..

theorem isNamed_openHandle {s : NativeHandle} {named : Bool} (hs : s ≠ some v.nextHandle) :
    (v.openHandle named).isNamed s = v.isNamed s := by
  cases s with
  | none => rfl
  | some n => exact Function.update_of_ne (fun hn => hs (congrArg some hn)) ..

theorem isNamed_name {s s' : NativeHandle} {ok : Bool} (hs : s' ≠ s) :
    (v.name s ok).isNamed s' = v.isNamed s' := by
  cases ok with
  | false => rfl
  | true =>
    cases s' with
    | none => rfl
    | some n =>
      cases s with
      | none => rfl
      | some k => exact Function.update_of_ne (fun hn => hs (congrArg some hn)) ..

/-- The members of an object change. -/
theorem Inv.set_map {g : WinSocket → WinSocket} (h : Inv v)
    (hg : ∀ m, v.objects x = some m →
      (g m).nativeSocket = m.nativeSocket ∨ (g m).nativeSocket = none)
    (hflag : ∀ m, v.objects x = some m → (g m).isBound = v.isNamed (g m).nativeSocket) :
    Inv (v.set x (Option.map g)) := by
  refine ⟨h.toDistinct.set_map hg, fun y m hy => ?_, h.clean⟩
  by_cases hyx : y = x
  · subst hyx
    rw [Sockets.objects_set] at hy
    obtain ⟨m', hm', rfl⟩ := Option.map_eq_some_iff.mp hy
    exact hflag m' hm'
  · rw [Sockets.objects_set_ne v _ hyx] at hy
    exact h.flag y m hy

/-- What an object holds is not what is opened next. -/
theorem Inv.native_ne {m : WinSocket} (h : Inv v) (hx : v.objects x = some m) :
    m.nativeSocket ≠ some v.nextHandle :=
  fun hs => Nat.lt_irrefl _ (h.opened x m _ hx hs)

/-- A native socket is opened. -/
theorem Inv.openHandle (h : Inv v) (named : Bool) : Inv (v.openHandle named) :=
  ⟨h.toDistinct.openHandle named,
    fun x m hx => (h.flag x m hx).trans (isNamed_openHandle (h.native_ne hx)).symm, h.clean⟩

/-- A native socket is opened, and an object holds it. -/
theorem Inv.take {named : Bool} {g : WinSocket → WinSocket} (h : Inv v)
    (hg : ∀ m, v.objects x = some m → (g m).nativeSocket = some v.nextHandle ∧ (g m).isBound = named) :
    Inv ((v.openHandle named).set x (Option.map g)) := by
  refine ⟨h.toDistinct.take fun m hm => (hg m hm).1, fun y m hy => ?_, h.clean⟩
  by_cases hyx : y = x
  · subst hyx
    rw [Sockets.objects_set] at hy
    obtain ⟨m', hm', rfl⟩ := Option.map_eq_some_iff.mp hy
    obtain ⟨hnative, hbound⟩ := hg m' hm'
    rw [hnative, hbound]
    exact (isNamed_openHandle_self v named).symm
  · rw [Sockets.objects_set_ne (v.openHandle named) _ hyx] at hy
    exact (h.openHandle named).flag y m hy

/-- A native socket has a local address from now on, if it had none then no object holds it. -/
theorem Inv.name {s : NativeHandle} {ok : Bool} (h : Inv v)
    (hs : ok = true → v.isNamed s = true ∨ ∀ x m, v.objects x = some m → m.nativeSocket ≠ s ∨ s = none) :
    Inv (v.name s ok) := by
  refine ⟨⟨h.created, h.opened, h.one⟩, fun x m hx => (h.flag x m hx).trans ?_, h.clean⟩
  cases ok with
  | false => rfl
  | true =>
    by_cases hm : m.nativeSocket = s
    · rcases hs rfl with hnamed | hother
      · cases s with
        | none => cases hnamed
        | some n =>
          rw [hm, hnamed]
          exact (isNamed_name_self v n).symm
      · rcases hother x m hx with hne | rfl
        · exact absurd hm hne
        · rw [hm]
          rfl
    · exact (isNamed_name hm).symm

/-- The native socket of an object has a local address from now on, and the flag is set. -/
theorem Inv.bound {n : ℕ} (h : Inv v) (hn : (v.members x).nativeSocket = some n) :
    Inv ((v.name (v.members x).nativeSocket true).set x Discipline.setBound) := by
  have hmem : ∀ {m}, v.objects x = some m → m.nativeSocket = some n := fun hm => by
    rwa [Sockets.members, hm] at hn
  obtain ⟨m₀, hx⟩ : ∃ m, v.objects x = some m := by
    cases hx : v.objects x with
    | none =>
      rw [Sockets.members, hx] at hn
      cases hn
    | some m => exact ⟨m, rfl⟩
  rw [hn]
  have hdistinct : (v.name (some n) true).Distinct := ⟨h.created, h.opened, h.one⟩
  refine ⟨hdistinct.set_map fun _ _ => .inl rfl, fun y m hy => ?_, h.clean⟩
  by_cases hyx : y = x
  · subst hyx
    rw [Sockets.objects_set] at hy
    obtain ⟨m', hm', rfl⟩ := Option.map_eq_some_iff.mp hy
    refine Eq.symm ?_
    change (v.name (some n) true).isNamed m'.nativeSocket = true
    rw [hmem hm']
    exact isNamed_name_self v n
  · rw [Sockets.objects_set_ne (v.name (some n) true) _ hyx] at hy
    have hne : m.nativeSocket ≠ some n := fun hs => hyx (h.one y x m m₀ n hy hx hs (hmem hx))
    have hsame : (v.name (some n) true).isNamed m.nativeSocket = v.isNamed m.nativeSocket :=
      isNamed_name hne
    exact (h.flag y m hy).trans hsame.symm

/-! ### The functions -/

section Functions

variable {w : World} {t : ℕ}

theorem inv_socket {af : AddressFamily} {ty : SocketType} {pr : Protocol} (hI : Inv w.sockets)
    (hx : (w.sockets.members x).isBound = false) :
    (WinSocket.socket x af ty pr).Always discipline.host t (fun _ w' => Inv w'.sockets) w := by
  have hflag : ∀ m, w.sockets.objects x = some m → m.isBound = false := fun m hm => by
    rwa [Sockets.members, hm] at hx
  have hclosed : ∀ {ok : Bool} {g : WinSocket → WinSocket}, (∀ m, (g m).nativeSocket = none) →
      (∀ m, (g m).isBound = m.isBound) →
        Inv (((w.sockets.openHandle false).closeHandle (some w.nextHandle) ok).set x (Option.map g)) := by
    intro ok g hnone hbound
    have hI' := hI.openHandle false
    refine Inv.set_map (v := (w.sockets.openHandle false).closeHandle (some w.nextHandle) ok)
      ⟨⟨hI'.created, hI'.opened, hI'.one⟩, hI'.flag, hI'.clean⟩ (fun m _ => .inr (hnone m)) fun m hm => ?_
    rw [hnone, hbound]
    exact hflag m hm
  refine Discipline.always_socket (Q := fun _ => Inv)
    (fun _ _ _ _ => hI.set_map (fun _ _ => .inr rfl) hflag)
    (fun _ _ _ _ _ => hclosed (fun _ => rfl) fun _ => rfl)
    (fun _ _ _ _ _ _ => hclosed (fun _ => rfl) fun _ => rfl) fun _ _ _ => ?_
  exact Inv.take (v := w.sockets.createTp (some w.nextHandle))
    ⟨⟨hI.created, hI.opened, hI.one⟩, hI.flag, hI.clean⟩ fun m hm => ⟨rfl, hflag m hm⟩

/-- `bind` sets the flag; it is not `start_connect` that rebinds. -/
theorem inv_bind {ep : Endpoint} (hI : Inv w.sockets) (hx : Discipline.rebinds w t x = false) :
    (WinSocket.bind x ep).Always discipline.host t (fun r w' => Inv w'.sockets ∧ (r = .success →
      w'.sockets.isNamed (w'.sockets.members x).nativeSocket = true)) w := by
  refine Discipline.always_bind
    (Q := fun r v => Inv v ∧ (r = .success → v.isNamed (v.members x).nativeSocket = true))
    (fun e he => ⟨hI, fun h => (he h).elim⟩) (fun e he => ?_) fun addr a ha he => ?_
  · rw [hx]
    exact ⟨hI, fun h => (he h).elim⟩
  · obtain ⟨n, hn⟩ := Discipline.native_of_check (o := (.bind · addr)) (fun _ => rfl) ha he
    have hI' := hI.bound hn
    rw [hx]
    refine ⟨hI', fun _ => hI'.members.symm.trans ?_⟩
    rw [Sockets.members, Sockets.objects_set]
    change ((Discipline.setBound (w.sockets.objects x)).getD WinSocket.new).isBound = true
    rw [Sockets.members] at hn
    cases hx : w.sockets.objects x with
    | none =>
      rw [hx] at hn
      cases hn
    | some m => rfl

theorem inv_connect {dst : Endpoint} (hI : Inv w.sockets) :
    (WinSocket.connect x dst).Always discipline.host t (fun _ w' => Inv w'.sockets) w := by
  refine Discipline.always_connect (Q := fun _ => Inv) (fun _ => hI) fun addr a ha he => ?_
  obtain ⟨n, hn⟩ := Discipline.native_of_check (o := (.connect · addr)) (fun _ => rfl) ha he
  exact hI.bound hn

theorem inv_sendTo {b : Span} {dst : Endpoint} (hI : Inv w.sockets) :
    (WinSocket.sendTo x b dst).Always discipline.host t (fun _ w' => Inv w'.sockets) w := by
  refine Discipline.always_sendTo (Q := Inv) hI fun buf len addr a ha he => ?_
  obtain ⟨n, hn⟩ := Discipline.native_of_check (o := (.sendto · buf len addr)) (fun _ => rfl) ha he
  exact hI.bound hn

/-- A native socket is closed; its local address is of no account. -/
theorem Inv.closeHandle {v : Sockets} (h : Inv v) (s : NativeHandle) (ok : Bool) :
    Inv (v.closeHandle s ok) := ⟨⟨h.created, h.opened, h.one⟩, h.flag, h.clean⟩

theorem inv_close (hI : Inv w.sockets) :
    (WinSocket.close x).Always discipline.host t (fun _ w' => Inv w'.sockets) w :=
  Discipline.always_close (Q := fun _ => Inv) fun _ _ _ =>
    (hI.closeHandle _ _).set_map (fun _ _ => .inr rfl) fun _ _ => rfl

theorem inv_accept {a : SockId} (hI : Inv w.sockets) :
    (WinSocket.accept x a).Always discipline.host t (fun _ w' => Inv w'.sockets) w := by
  refine Discipline.always_accept (Q := fun _ => Inv) (fun _ => hI)
    (fun _ _ _ => (hI.openHandle true).closeHandle _ _)
    (fun _ _ _ _ _ _ _ _ => ((hI.openHandle true).closeHandle _ _).set_map (fun _ _ => .inr rfl)
      fun _ _ => rfl) fun b hb he => ?_
  exact Inv.take (v := w.sockets.createTp (some w.nextHandle))
    ⟨⟨hI.created, hI.opened, hI.one⟩, hI.flag, hI.clean⟩ fun _ _ => ⟨rfl, rfl⟩

end Functions

theorem calms : discipline.Calms Inv where
  create {v} hI := by
    refine ⟨hI.toDistinct.create, fun x m hx => ?_, hI.clean⟩
    by_cases hxv : x = v.nextObject
    · rw [hxv, Sockets.objects_create] at hx
      cases hx
      rfl
    · rw [Sockets.objects_create_ne v hxv] at hx
      exact hI.flag x m hx
  destroyed {w t x a} hI _ := by
    refine ⟨hI.toDistinct.set rfl nofun, fun y m hy => ?_, hI.clean⟩
    by_cases hyx : y = x
    · rw [hyx, Sockets.objects_set] at hy
      cases hy
    · rw [Sockets.objects_set_ne w.sockets _ hyx] at hy
      exact hI.flag y m hy
  overlapped {w t req i io a} hI hc := by
    refine hI.name fun hok => ?_
    cases req with
    | wsaSendTo s buf len dst =>
      have hrun := Discipline.check_run hc
      simp only [discipline, hok, Bool.not_true, Bool.false_or, Bool.or_eq_true,
        Option.isNone_iff_eq_none] at hrun
      rcases hrun with rfl | hnamed
      · exact .inr fun _ _ _ => .inr rfl
      · exact .inl (w.isNamed_sockets _ ▸ hnamed)
    | _ => exact .inr fun _ _ _ => .inr rfl

/-- What every call restores. -/
theorem kept : discipline.Kept Inv where
  toCalms := calms
  complete {w k e c} hI he hk := by
    refine hI.name fun hok => ?_
    have henv : (c.ioResult ≠ 0 || w.isNamed (w.acceptedBy e.data) ||
        !isHeld w (w.acceptedBy e.data)) = true := by
      simpa only [discipline, hk] using he
    simp only [of_decide_eq_true hok, ne_eq, not_true_eq_false, decide_false, Bool.false_or,
      Bool.or_eq_true] at henv
    rcases henv with hnamed | hfree
    · exact .inl (w.isNamed_sockets _ ▸ hnamed)
    refine .inr fun x m hx => .inl fun hm => ?_
    have hlt : x < w.nextSock := by
      by_contra hle
      rw [hI.created x (Nat.le_of_not_lt hle)] at hx
      cases hx
    have hheld : isHeld w (w.acceptedBy e.data) = true :=
      List.any_eq_true.mpr ⟨x, List.mem_range.mpr hlt, (Option.any_eq_true _ _).mpr
        ⟨m, hx, beq_iff_eq.mpr hm⟩⟩
    rw [hheld] at hfree
    cases hfree
  body {w t c a} hchanges hI hc := by
    have hI' : Inv (w.enterCall t c).sockets := hI
    cases c with
    | socket x af ty pr =>
      exact inv_socket hI' ((Bool.not_eq_true' _).mp (Discipline.check_run hc))
    | bind x ep =>
      refine (inv_bind hI' ?_).mono fun _ _ h => h.1
      simp [Discipline.rebinds, World.connecting, World.enterCall, upd]
    | close x => exact inv_close hI'
    | accept x a => exact inv_accept hI'
    | connect x dst => exact inv_connect hI'
    | sendTo x b dst => exact (inv_sendTo hI').bind fun _ _ h => Prog.always_ret.mpr h
    | startAccept x a f =>
      exact Discipline.always_startAccept (J := fun w => Inv w.sockets) calms.calm
        (fun hnone af ty pr => inv_socket hI' (by rw [hI'.members, hnone]; rfl)) hI'
    | startConnect x dst f =>
      exact Discipline.always_startConnect (J := fun w => Inv w.sockets)
        (K := fun w => w.sockets.isNamed (w.sockets.members x).nativeSocket = true) calms.calm
        (fun any w hI => Discipline.always_bindForConnect
          (fun hb => ⟨hI, fun _ => hI.members.symm.trans hb⟩) fun hb => inv_bind hI (by
            rw [Discipline.rebinds, ← hI.members, hb, Bool.and_false]))
        (fun i w hI hnamed => Discipline.always_connectIo
          (P := fun v => v.isNamed (v.members x).nativeSocket = true) calms.calm
          (fun hI hnamed => by rw [hnamed]; exact hI) hI hnamed) hI'
    | initializeCore =>
      exact calms.always_initializeCore (fun hI _ => (hI.openHandle false).closeHandle _ _) hI'
    | _ => cases hchanges

end BoundFlag

end FirelinkNet
