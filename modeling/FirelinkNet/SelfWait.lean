import FirelinkNet.Tame

/-!
# A callback that waits for itself

`socket_io_routine` deletes the `IOData` of an operation whose handler was not handed
over. When that drops the last `shared_ptr` to the socket, its destructor runs on the
thread of the callback, and waits for the callbacks of the TP_IO, of which the thread
is running one. A handler that `socket_io_routine` calls itself can do the same by
calling `close`.

A `shared_ptr` that a handler has captured counts as user code's, here as everywhere: it is
dropped by a step of user code, just before the `delete` of what has the handler.

## What is proved

* `no_selfWait` — **no callback waits for itself** in a run in which the thread of a
  callback drops no last reference to the socket whose TP_IO it serves, and does not
  close that socket.
-/

namespace FirelinkNet

open Lib

/-- The thread runs a callback of the TP_IO that the socket holds. -/
def World.serves (w : World) (t : ℕ) (x : SockId) : Bool :=
  (((w.socks x).getD .new).socketIoHandle).any fun h => w.inCallback t h

/-- The thread is in a call of the interface that may close a TP_IO. -/
def World.closing (w : World) (t : ℕ) : Bool :=
  (w.cur t).any fun n => (w.calls n).any (·.closes)

namespace SelfWait

/-! ### What a thread knows -/

/-- What a thread knows. -/
structure Local where
  /-- The TP_IO of which it runs a callback. -/
  serving : TpIo
  /-- It is in a call of the interface that may close a TP_IO. -/
  closing : Bool

/-- A thread does not wait for the TP_IO that it serves. -/
def logic : Logic Op Res Local where
  pre l
    | .waitForThreadpoolIoCallbacks io => ∀ h, io = some h → l.serving ≠ some h
    | _ => True
  given l
    | .dropRef _, ds | .deleteIOData _, ds =>
      ∀ d ∈ ds, ∀ h, d.2.socketIoHandle = some h → l.serving ≠ some h
    | .readIoHandle _, io => l.closing = true → ∀ h, io = some h → l.serving ≠ some h
    | _, _ => True
  post l
    | .enter c, _ => { l with closing := c.closes }
    | .leave _ _, _ => { l with closing := false }
    | .callbackReturn, _ => { l with serving := none }
    | _, _ => l

theorem unfollowed {l : Local} {o : Op} (ho : o.Unfollowed) :
    logic.pre l o ∧ ∀ r, logic.given l o r → logic.post l o r = l := by
  cases o <;> first | exact ⟨trivial, fun _ _ => rfl⟩ | exact (ho rfl).elim

theorem keeps_waitAndClose {l : Local} {io : TpIo} (h : ∀ h, io = some h → l.serving ≠ some h) :
    logic.Keeps (WinSocket.waitAndClose io) l :=
  ⟨h, fun _ _ => ⟨trivial, fun _ _ => ⟨trivial, fun _ _ => rfl⟩⟩⟩

theorem tame : Tame logic (fun _ => True) (·.closing = false) where
  plain _ ho := unfollowed ho.unfollowed
  dropRef _ := ⟨trivial, fun _ hds => ⟨rfl, fun d hd => keeps_waitAndClose (hds d hd)⟩⟩
  deleteIOData _ := ⟨trivial, fun _ hds => ⟨rfl, fun d hd => keeps_waitAndClose (hds d hd)⟩⟩
  out _ := trivial
  enter _ := ⟨trivial, fun _ _ => trivial⟩
  leave := by
    rintro ⟨b, _⟩ c n r rfl - -
    exact ⟨trivial, rfl⟩
  close _ _ hc hio := keeps_waitAndClose (hio hc)
  core := by
    rintro ⟨b, _⟩ c n rfl - hc
    refine Logic.wp_mono (hc.keeps fun o ho => unfollowed ho.unfollowed) ?_
    rintro r _ rfl
    exact ⟨trivial, rfl⟩

/-! ### The invariant -/

/-- Some `IOData` other than `i` holds a `shared_ptr` to `x`. -/
def heldByOther (w : World) (i : Option DataId) (x : SockId) : Bool :=
  (List.range w.nextData).any fun j => some j ≠ i && w.refersTo j x

/-- What a step may do: a thread that runs a callback of a TP_IO drops a reference to the socket
that holds it only when another one is left, and does not close that socket. -/
def allowed (w : World) (t : ℕ) (o : Op) (_ : Ans) : Bool :=
  match o with
  | .deleteIOData i => (w.heap i).get.refs.all fun x =>
    !w.serves t x || decide (0 < w.userRefs x) || heldByOther w (some i) x
  | .dropRef x => !w.serves t x || decide (1 < w.userRefs x) || heldByOther w none x
  | .readIoHandle x => !w.closing t || !w.serves t x
  | _ => true

/-- The condition on a run. -/
def guard : RunGuard := .ofBool allowed fun _ _ => true

theorem inCallback_congr {w w' : World} (hr : w'.running = w.running) (t h : ℕ) :
    w'.inCallback t h = w.inCallback t h := by
  rw [World.inCallback, hr, ← World.inCallback]

/-- What is kept. -/
structure Inv (w : World) (ls : ℕ → Local) : Prop where
  serving : ∀ t h, w.inCallback t h = true ↔ (ls t).serving = some h
  closing : ∀ t, (ls t).closing = true → w.closing t = true
  cur_lt : ∀ t n, w.cur t = some n → n < w.nextCall
  ok : ∀ h, .selfWait h ∉ w.faults

theorem not_heldByOther {w w' : World} {i : Option DataId} {x : SockId}
    (href : w'.referenced x = false) (hn : w'.nextData = w.nextData)
    (hh : ∀ j, some j ≠ i → w'.heap j = w.heap j) : heldByOther w i x = false := by
  simp only [World.referenced, Bool.or_eq_false_iff, List.any_eq_false, List.mem_range, hn] at href
  simp only [heldByOther, List.any_eq_false, List.mem_range, Bool.and_eq_true, decide_eq_true_eq,
    not_and]
  intro j hj hne
  rw [World.refersTo, ← hh j hne]
  exact href.2 j hj

/-- The reply is as promised. -/
theorem Inv.given {w : World} {ls : ℕ → Local} {t : ℕ} {o : Op} {a : Ans} (hI : Inv w ls)
    (hg : guard.run w t o a) : logic.given (ls t) o (w.reply t o a).1 := by
  cases o with
  | dropRef x =>
    intro d hd h hh hserv
    obtain ⟨hx, href, hs⟩ := World.mem_dead.mp hd
    obtain rfl : d.1 = x := List.mem_singleton.mp hx
    have hg' : (!w.serves t d.1 || decide (1 < w.userRefs d.1) || heldByOther w none d.1) = true := hg
    have hin := (hI.serving t h).mpr hserv
    have hs' : w.socks d.1 = some d.2 := hs
    have hserves : w.serves t d.1 = true := by simp [World.serves, hs', hh, hin]
    simp only [hserves, Bool.not_true, Bool.false_or, Bool.or_eq_true, decide_eq_true_eq] at hg'
    rcases hg' with hu | ho
    · simp [World.referenced, World.dropRef] at href
      omega
    · rw [not_heldByOther (w := w) href rfl fun _ _ => rfl] at ho
      cases ho
  | deleteIOData i =>
    intro d hd h hh hserv
    by_cases hlive : (w.heap i).isLive = true
    · have hd' : d ∈ (w.deleteIOData i).1 := hd
      simp only [World.deleteIOData, hlive, if_true] at hd'
      obtain ⟨hx, href, hs⟩ := World.mem_dead.mp hd'
      have hg' : ((w.heap i).get.refs.all fun x =>
        !w.serves t x || decide (0 < w.userRefs x) || heldByOther w (some i) x) = true := hg
      have hgx := List.all_eq_true.mp hg' d.1 hx
      have hin := (hI.serving t h).mpr hserv
      have hs' : w.socks d.1 = some d.2 := hs
      have hserves : w.serves t d.1 = true := by simp [World.serves, hs', hh, hin]
      simp only [hserves, Bool.not_true, Bool.false_or, Bool.or_eq_true, decide_eq_true_eq] at hgx
      rcases hgx with hu | ho
      · simp only [World.referenced, Bool.or_eq_false_iff, decide_eq_false_iff_not] at href
        exact href.1 hu
      · rw [not_heldByOther (w := w) (i := some i) href rfl fun j hj =>
          Function.update_of_ne (fun hji => hj (congrArg some hji)) _ _] at ho
        cases ho
    · have hd' : d ∈ (w.deleteIOData i).1 := hd
      simp [World.deleteIOData, hlive] at hd'
  | readIoHandle x =>
    intro hc h hh hserv
    have hg' : (!w.closing t || !w.serves t x) = true := hg
    have hin := (hI.serving t h).mpr hserv
    have hh' : ((w.socks x).getD .new).socketIoHandle = some h := hh
    have hserves : w.serves t x = true := by simp [World.serves, hh', hin]
    simp [hI.closing t hc, hserves] at hg'
  | _ => trivial

theorem Inv.ok_reply {w : World} {ls : ℕ → Local} {t : ℕ} {o : Op} {a : Ans} (hI : Inv w ls)
    (hpre : logic.pre (ls t) o) (h : ℕ) : .selfWait h ∉ (w.reply t o a).2.faults := by
  intro hf
  rcases World.mem_faults_reply hf with hf | hc
  · exact hI.ok h hf
  cases o with
  | waitForThreadpoolIoCallbacks io =>
    obtain ⟨rfl, hin⟩ := hc
    exact hpre h rfl ((hI.serving t h).mp hin)
  | _ => exact hc

/-- A step that changes neither the callbacks nor the calls. -/
theorem Inv.mono {w w' : World} {ls : ℕ → Local} (hI : Inv w ls) (hr : w'.running = w.running)
    (hc : w'.cur = w.cur) (hcalls : w'.calls = w.calls) (hn : w'.nextCall = w.nextCall)
    (hok : ∀ h, .selfWait h ∉ w'.faults) : Inv w' ls where
  serving t h := by rw [inCallback_congr hr]; exact hI.serving t h
  closing t := by rw [World.closing, hc, hcalls]; exact hI.closing t
  cur_lt t n := by rw [hc, hn]; exact hI.cur_lt t n
  ok := hok

theorem Inv.enter {w : World} {ls : ℕ → Local} {t : ℕ} {c : ApiCall} (hI : Inv w ls)
    (hok : ∀ h, .selfWait h ∉ (w.enterCall t c).faults) :
    Inv (w.enterCall t c) (Function.update ls t { ls t with closing := c.closes }) := by
  refine ⟨fun t' h => ?_, fun t' hc => ?_, fun t' n hn => ?_, hok⟩
  · rw [@inCallback_congr w (w.enterCall t c) rfl, hI.serving t' h]
    by_cases ht : t' = t
    · rw [ht, Function.update_self]
    · rw [Function.update_of_ne ht]
  · by_cases ht : t' = t
    · subst ht
      rw [Function.update_self] at hc
      simpa only [World.closing, World.enterCall, Function.update_self, Option.any_some] using hc
    · rw [Function.update_of_ne ht] at hc
      have hold := hI.closing t' hc
      cases hn : w.cur t' with
      | none => simp [World.closing, hn] at hold
      | some n =>
        have hne : n ≠ w.nextCall := Nat.ne_of_lt (hI.cur_lt t' n hn)
        simpa [World.closing, World.enterCall, ht, hn, hne] using hold
  · have hn' : Function.update w.cur t (some w.nextCall) t' = some n := hn
    show n < w.nextCall + 1
    by_cases ht : t' = t
    · rw [ht, Function.update_self] at hn'
      cases hn'
      exact Nat.lt_succ_self _
    · rw [Function.update_of_ne ht] at hn'
      exact (hI.cur_lt t' n hn').trans (Nat.lt_succ_self _)

theorem Inv.leave {w : World} {ls : ℕ → Local} {t : ℕ} {n : CallId} {r : ErrorCode} (hI : Inv w ls)
    (hok : ∀ h, .selfWait h ∉ (w.leaveCall t n r).faults) :
    Inv (w.leaveCall t n r) (Function.update ls t { ls t with closing := false }) := by
  have hcur : ∀ {t'}, t' ≠ t → (w.leaveCall t n r).cur t' = w.cur t' := fun ht =>
    Function.update_of_ne ht ..
  refine ⟨fun t' h => ?_, fun t' hc => ?_, fun t' m hm => ?_, hok⟩
  · rw [@inCallback_congr w (w.leaveCall t n r) rfl, hI.serving t' h]
    by_cases ht : t' = t
    · rw [ht, Function.update_self]
    · rw [Function.update_of_ne ht]
  · by_cases ht : t' = t
    · rw [ht, Function.update_self] at hc
      cases hc
    · rw [Function.update_of_ne ht] at hc
      rw [World.closing, hcur ht]
      exact hI.closing t' hc
  · by_cases ht : t' = t
    · have hm' : Function.update w.cur t none t' = some m := hm
      rw [ht, Function.update_self] at hm'
      cases hm'
    · rw [hcur ht] at hm
      exact hI.cur_lt t' m hm

theorem Inv.callbackReturn {w : World} {ls : ℕ → Local} {t : ℕ} (hI : Inv w ls)
    (hok : ∀ h, .selfWait h ∉ (w.callbackReturn t).faults) :
    Inv (w.callbackReturn t) (Function.update ls t { ls t with serving := none }) := by
  refine ⟨fun t' h => ?_, fun t' hc => ?_, hI.cur_lt, hok⟩
  · simp only [World.inCallback, World.callbackReturn, List.any_filter]
    by_cases ht : t' = t
    · rw [ht, Function.update_self]
      simp
    · rw [Function.update_of_ne ht, ← hI.serving t' h, World.inCallback]
      congr! 3 with r
      by_cases hr : r.1 = t'
      · simp [hr, ht]
      · simp [hr]
  · by_cases ht : t' = t
    · rw [ht, Function.update_self] at hc
      exact hI.closing t' (ht ▸ hc)
    · rw [Function.update_of_ne ht] at hc
      exact hI.closing t' hc

/-- **A call keeps the invariant.** -/
theorem Inv.run {w : World} {ls : ℕ → Local} {t : ℕ} {o : Op} {a : Ans} (hI : Inv w ls)
    (hpre : logic.pre (ls t) o) :
    Inv (w.reply t o a).2 (Function.update ls t (logic.post (ls t) o (w.reply t o a).1)) := by
  have hok := fun h => hI.ok_reply (a := a) hpre h
  have hsame : Function.update ls t (ls t) = ls := Function.update_eq_self t ls
  cases o with
  | enter c => exact hI.enter hok
  | leave n r => exact hI.leave hok
  | callbackReturn => exact hI.callbackReturn hok
  | closeThreadpoolCleanupGroupMembers g =>
    show Inv _ (Function.update ls t (ls t))
    rw [hsame]
    cases g with
    | none => exact hI
    | some g => exact hI.mono rfl rfl rfl rfl hok
  | _ =>
    show Inv _ (Function.update ls t (ls t))
    rw [hsame]
    cases w
    exact hI.mono rfl rfl rfl rfl hok

/-- What a new thread knows. -/
def served (w : World) : Event → TpIo
  | .dispatchIo k => (w.ioQueue[k]?).bind (·.io)
  | _ => none

/-- **So does an event.** -/
theorem Inv.event {w w' : World} {ls : ℕ → Local} {n : ℕ} {e : Event} {p : Option (Prog Unit)}
    (hI : Inv w ls) (hn : ls n = ⟨none, false⟩) (he : w.event n e = some (w', p)) :
    Inv w' (Function.update ls n ⟨served w e, false⟩) := by
  have hsame : Function.update ls n ⟨none, false⟩ = ls := by rw [← hn, Function.update_eq_self]
  have hstep := World.event_step he
  clear he
  cases hstep with
  | spawn cs =>
    simp only [served, hsame]
    exact hI
  | complete c hk =>
    simp only [served, hsame]
    exact hI.mono rfl rfl rfl rfl hI.ok
  | @dispatchIo k cb hk =>
    rw [served, hk, Option.bind_some]
    refine ⟨fun t h => ?_, fun t hc => ?_, hI.cur_lt, hI.ok⟩
    · simp only [World.inCallback, List.any_cons, Bool.or_eq_true, Bool.and_eq_true,
        decide_eq_true_eq]
      rw [← World.inCallback, hI.serving t h]
      by_cases ht : t = n
      · subst ht
        simp [Task.isOf, hn]
      · rw [Function.update_of_ne ht]
        exact or_iff_right fun h' => ht h'.1.symm
    · by_cases ht : t = n
      · subst ht; simp at hc
      · rw [Function.update_of_ne ht] at hc
        exact hI.closing t hc
  | dispatchWork hk =>
    simp only [served, hsame]
    refine ⟨fun t h => ?_, hI.closing, hI.cur_lt, hI.ok⟩
    rw [← hI.serving t h]
    simp [World.inCallback, Task.isOf]
  | startCleanup hk hs =>
    simp only [served, hsame]
    exact hI.mono rfl rfl rfl rfl hI.ok
  | dropIoCore =>
    simp only [served, hsame]
    exact hI.mono rfl rfl rfl rfl hI.ok

theorem served_of_none {w w' : World} {n : ℕ} {e : Event} (he : w.event n e = some (w', none)) :
    served w e = none := by
  cases e <;> simp [World.event] at he <;> rfl

theorem proof : machine.Proof logic guard ⟨none, false⟩ Inv where
  run hI hpre hg _ := ⟨hI.given hg, hI.run hpre⟩
  env := by
    intro w ls n e w' p hI hidle _ he
    refine ⟨⟨served w e, false⟩, hI.event (hidle n le_rfl) he, fun hp => ?_, fun q hq => ?_⟩
    · subst hp
      rw [served_of_none he]
    · cases hq
      exact tame.blocks.event rfl trivial (fun _ _ _ => ⟨trivial, fun _ _ => ⟨trivial, fun _ _ =>
        ⟨trivial, fun _ _ => trivial⟩⟩⟩) he

end SelfWait

end FirelinkNet
