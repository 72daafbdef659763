import FirelinkNet.Release
import FirelinkNet.Kept

/-!
# The life of a TP_IO

A TP_IO has two owners. The object that it was created for closes it, in `close` or in its
destructor; and it is a member of the cleanup group of the IO pool, which closes its members
when the core is released. An object names its TP_IO until then and after, and `release`
does not ask whether there are sockets left.

A thread has an object to itself while it is in a call on it, and while it destroys it. What
is followed here is the TP_IO that it has read from such an object, and the one that it has
closed and not yet taken off.

## What is proved

* `tpIo_closed_once` — **a TP_IO is closed once, and not used after**, when the calls on an
  object do not overlap, and the members of the cleanup group are closed only when no object
  names one that is open; and when `release` has returned and all objects are gone, each
  TP_IO is closed, if `release` did wait for its cleanup threads, and no object that names
  a TP_IO of the closed group was given another.
-/

namespace FirelinkNet

open Lib

namespace World

/-- The TP_IO that an object names. -/
def ioOf (w : World) (x : SockId) : TpIo := (w.socks x).bind (·.socketIoHandle)

/-- A call of the interface on the object is in progress. -/
def inUse (w : World) (x : SockId) : Bool :=
  (List.range w.nextCall).any fun n =>
    (w.results n).isNone && (w.calls n).any fun c => c.sockets.contains x

end World

namespace Lifetime

/-! ### What a thread knows -/

/-- What a thread knows. -/
structure Local where
  /-- The call of the interface that it is in. -/
  call : Option (CallId × ApiCall)
  /-- The TP_IO that it has read, and the object that names it. -/
  read : Option (SockId × ℕ)
  /-- The object that names the TP_IO that it has closed. -/
  shut : Option SockId
  /-- The objects that it is to destroy. -/
  dying : List Dead

/-- A thread that is in no call. -/
def idle : Local := ⟨none, none, none, []⟩

namespace Local

variable (l : Local)

/-- It is in a call on the object. -/
def Uses (x : SockId) : Prop := ∃ n c, l.call = some (n, c) ∧ x ∈ c.sockets

/-- It is to destroy the object. -/
def Destroys (x : SockId) : Prop := ∃ d ∈ l.dying, d.1 = x

/-- It has the object to itself. -/
def Owns (x : SockId) : Prop := l.Uses x ∨ l.Destroys x

/-- It is between the blocks of calls on a TP_IO. -/
def AtRest : Prop := l.read = none ∧ l.shut = none ∧ l.dying = []

/-- The object that it is at work on. -/
def subject : Option SockId :=
  match l.dying with
  | d :: _ => some d.1
  | [] => l.read.map Prod.fst

/-- The TP_IO is the one that it has read, or that of the object to destroy, and it has not closed it. -/
def Open (h : ℕ) : Prop :=
  l.shut = none ∧ ((∃ x, l.dying = [] ∧ l.read = some (x, h)) ∨
    ∃ d ds, l.dying = d :: ds ∧ d.2.socketIoHandle = some h)

end Local

/-- What a call needs. -/
def pre (l : Local) : Op → Prop
  | .enter _ => l = idle
  | .leave n _ => (∃ c, l.call = some (n, c)) ∧ l.AtRest
  | .dropRef _ | .deleteIOData _ => l.AtRest
  | .readIoHandle x | .createThreadpoolIo x _ => l.Uses x ∧ l.AtRest
  | .overlapped _ _ _ => l.shut = none ∧ l.dying = []
  | .startThreadpoolIo io | .waitForThreadpoolIoCallbacks io => ∀ h, io = some h → l.Open h
  | .cancelThreadpoolIo io => (l.shut = none ∧ l.dying = []) ∧ ∀ h, io = some h → l.Open h
  | .closeThreadpoolIo io => ∃ h, io = some h ∧ l.Open h
  | .writeSocket x f => (l.AtRest ∧ ∀ s, (f s).socketIoHandle = s.socketIoHandle) ∨
    l.shut = some x ∧ l.dying = [] ∧ ∀ s, (f s).socketIoHandle = none
  | .destroyed x => ∃ d ds, l.dying = d :: ds ∧ d.1 = x ∧
    (l.shut = some x ∨ l.shut = none ∧ d.2.socketIoHandle = none)
  | _ => True

/-- What holds of the reply: the core is not set up again. -/
def given (_ : Local) : (o : Op) → Res o → Prop
  | .enter c, _ => c ≠ .initializeCore
  | _, _ => True

/-- What is known after the reply. -/
def post (l : Local) : (o : Op) → Res o → Local
  | .enter c, n => { l with call := some (n, c) }
  | .leave _ _, _ => idle
  | .dropRef _, ds | .deleteIOData _, ds => { l with dying := ds }
  | .readIoHandle x, io => { l with read := io.map (x, ·) }
  | .overlapped _ _ _, _ | .cancelThreadpoolIo _, _ => { l with read := none }
  | .closeThreadpoolIo _, _ => { l with shut := l.subject }
  | .writeSocket _ _, _ => { l with read := none, shut := none }
  | .destroyed _, _ => { l with read := none, shut := none, dying := l.dying.tail }
  | _, _ => l

/-- Who may use a TP_IO. -/
def logic : Logic Op Res Local := ⟨pre, given, post⟩

variable {l : Local}

theorem mild {o : Op} (hl : l.AtRest) (ho : o.Mild) :
    logic.pre l o ∧ ∀ r, logic.given l o r → logic.post l o r = l := by
  cases o with
  | writeSocket x f =>
    obtain ⟨call, read, shut, dying⟩ := l
    obtain ⟨rfl, rfl, rfl⟩ := hl
    exact ⟨.inl ⟨⟨rfl, rfl, rfl⟩, ho.2⟩, fun _ _ => rfl⟩
  | _ => first | exact ⟨trivial, fun _ _ => rfl⟩ | exact ho.2.elim | cases ho.1

theorem reads {o : Op} (ho : o.Reads) :
    logic.pre l o ∧ ∀ r, logic.given l o r → logic.post l o r = l := by
  cases o <;> first | exact ⟨trivial, fun _ _ => rfl⟩ | exact ho.elim

theorem ofCore {o : Op} (ho : o.OfCore) :
    logic.pre l o ∧ ∀ r, logic.given l o r → logic.post l o r = l := by
  cases o <;> first | exact ⟨trivial, fun _ _ => rfl⟩ | cases ho

/-- **Objects are destroyed one after another**, each after its TP_IO is closed. -/
theorem wp_destroyAll {ds : List Dead} (hl : l.AtRest) :
    logic.wp (WinSocket.destroyAll ds) (fun _ l' => l' = l) { l with dying := ds } := by
  obtain ⟨call, read, shut, dying⟩ := l
  obtain ⟨rfl, rfl, rfl⟩ := hl
  induction ds with
  | nil => rfl
  | cons d ds ih =>
    refine Logic.wp_bind.mpr ?_
    unfold WinSocket.destroy
    split
    · rename_i hsome
      obtain ⟨h, hh⟩ := Option.isSome_iff_exists.mp hsome
      have hopen : Local.Open ⟨call, none, none, d :: ds⟩ h := ⟨rfl, .inr ⟨d, ds, rfl, hh⟩⟩
      refine ⟨fun h' hh' => ?_, fun _ _ => ⟨trivial, fun _ _ => ⟨⟨h, hh, hopen⟩, fun _ _ =>
        ⟨⟨d, ds, rfl, rfl, .inl rfl⟩, fun _ _ => ih⟩⟩⟩⟩
      cases hh.symm.trans hh'
      exact hopen
    · rename_i hnone
      exact ⟨⟨d, ds, rfl, rfl, .inr ⟨rfl, Option.not_isSome_iff_eq_none.mp hnone⟩⟩, fun _ _ => ih⟩

theorem keeps_deleteIOData (hl : l.AtRest) (i : DataId) : logic.Keeps (WinSocket.deleteIOData i) l :=
  ⟨hl, fun _ _ => wp_destroyAll hl⟩

theorem keeps_startIo {x : SockId} {i : DataId} {request : Prog IoRequest} (hl : l.AtRest) (hx : l.Uses x)
    (hr : request.All Op.Reads) : logic.Keeps (WinSocket.startIo x i request) l := by
  obtain ⟨call, read, shut, dying⟩ := l
  obtain ⟨rfl, rfl, rfl⟩ := hl
  have hopen : ∀ {io : TpIo} {h : ℕ}, io = some h → Local.Open ⟨call, io.map (x, ·), none, []⟩ h := by
    rintro _ h rfl
    exact ⟨rfl, .inl ⟨x, rfl, rfl⟩⟩
  refine ⟨⟨hx, rfl, rfl, rfl⟩, fun io _ => ⟨fun h hh => hopen hh, fun _ _ => ?_⟩⟩
  have hrequest : logic.Keeps request ⟨call, io.map (x, ·), none, []⟩ := .of_all hr fun _ => reads
  refine hrequest.seq fun req => ⟨⟨rfl, rfl⟩, fun r _ => ?_⟩
  rcases r with e | _
  · show logic.Keeps (if e.code ≠ errorIoPending then _ else _) ⟨call, none, none, []⟩
    split
    · exact (keeps_deleteIOData ⟨rfl, rfl, rfl⟩ i).bind fun _ => ⟨⟨hx, rfl, rfl, rfl⟩, fun io _ =>
        ⟨⟨⟨rfl, rfl⟩, fun h hh => hopen hh⟩, fun _ _ => rfl⟩⟩
    · exact logic.keeps_pure _ _
  · exact logic.keeps_pure _ _

theorem keeps_close {x : SockId} (hl : l.AtRest) (hx : l.Uses x) : logic.Keeps (WinSocket.close x) l := by
  have hend : logic.Keeps (WinSocket.closeNative x) l :=
    .of_all (WinSocket.still_closeNative x) fun _ ho => mild hl ho.mild
  obtain ⟨call, read, shut, dying⟩ := l
  obtain ⟨rfl, rfl, rfl⟩ := hl
  rw [WinSocket.close, Prog.op_bind]
  refine ⟨⟨hx, rfl, rfl, rfl⟩, fun io _ => ?_⟩
  cases io with
  | none => exact hend
  | some h =>
    have hopen : Local.Open ⟨call, some (x, h), none, []⟩ h := ⟨rfl, .inl ⟨x, rfl, rfl⟩⟩
    refine ⟨fun h' hh' => ?_, fun _ _ => ⟨trivial, fun _ _ => ⟨⟨h, rfl, hopen⟩, fun _ _ =>
      ⟨.inr ⟨rfl, rfl, fun _ => rfl⟩, fun _ _ => hend⟩⟩⟩⟩
    cases hh'
    exact hopen

theorem blocks : Blocks logic Local.AtRest (· = idle) where
  mild hl ho := mild hl ho
  dropRef hl := ⟨hl, fun _ _ => wp_destroyAll hl⟩
  deleteIOData hl := keeps_deleteIOData hl _
  out := by
    rintro _ rfl
    exact ⟨rfl, rfl, rfl⟩
  enter := by
    rintro _ c rfl
    exact ⟨rfl, fun _ _ => ⟨rfl, rfl, rfl⟩⟩
  leave := by
    rintro _ c n r rfl - -
    exact ⟨⟨⟨c, rfl⟩, rfl, rfl, rfl⟩, rfl⟩
  create := by
    rintro _ c n x s rfl - hx
    exact ⟨⟨⟨n, c, rfl, hx⟩, rfl, rfl, rfl⟩, fun _ _ => rfl⟩
  startIo := by
    rintro _ c n x i request rfl - hx hr
    exact keeps_startIo ⟨rfl, rfl, rfl⟩ ⟨n, c, rfl, hx⟩ hr
  close := by
    rintro _ c n x rfl - - hx
    exact keeps_close ⟨rfl, rfl, rfl⟩ ⟨n, c, rfl, hx⟩
  core := by
    rintro _ c n rfl hn hc
    cases c with
    | initializeCore => exact (hn rfl).elim
    | releaseCore =>
      refine Logic.wp_mono (Logic.Keeps.of_all WinIOCore.ofCore_releaseCore fun _ => ofCore) ?_
      rintro r _ rfl
      exact ⟨⟨⟨_, rfl⟩, rfl, rfl, rfl⟩, rfl⟩
    | _ => exact hc.elim

/-! ### Who has an object -/

end Lifetime

namespace World

variable {w w' : World} {i : DataId} {x : SockId}

theorem refersTo_iff : w.refersTo i x = true ↔ ∃ d, w.heap i = .live d ∧ x ∈ d.refs := by
  unfold refersTo
  cases w.heap i <;> simp

theorem referenced_iff :
    w.referenced x = true ↔ 0 < w.userRefs x ∨ ∃ i < w.nextData, w.refersTo i x = true := by
  simp [referenced]

theorem referenced_of_userRefs (h : 0 < w.userRefs x) : w.referenced x = true :=
  referenced_iff.mpr (.inl h)

/-- What refers to an object after an `IOData` was changed in place. -/
theorem referenced_map {f : IOData → IOData} (hn : w'.nextData = w.nextData)
    (hheap : w'.heap = upd w.heap i ((w.heap i).map f))
    (hu : ∀ y, 0 < w'.userRefs y → w.referenced y = true)
    (hf : ∀ d, w.heap i = .live d → ∀ y ∈ (f d).refs, w.referenced y = true)
    (h : w'.referenced x = true) : w.referenced x = true := by
  rcases referenced_iff.mp h with h | ⟨j, hj, h⟩
  · exact hu x h
  obtain ⟨d, hd, hx⟩ := refersTo_iff.mp h
  rw [hheap] at hd
  by_cases hji : j = i
  · rw [hji, upd, Function.update_self] at hd
    cases hi : w.heap i with
    | live d₀ =>
      rw [hi] at hd
      cases hd
      exact hf d₀ hi x hx
    | unborn =>
      rw [hi] at hd
      cases hd
    | freed =>
      rw [hi] at hd
      cases hd
  · rw [upd, Function.update_of_ne hji] at hd
    exact referenced_iff.mpr (.inr ⟨j, hn ▸ hj, refersTo_iff.mpr ⟨d, hd, hx⟩⟩)

theorem nodup_dead (w : World) (xs : List SockId) : ((w.dead xs).map Prod.fst).Nodup := by
  rw [dead, List.map_filterMap]
  refine (List.nodup_dedup xs).filterMap fun y z b hy hz => ?_
  have hfst : ∀ {y b}, b ∈ Option.map Prod.fst
      (if w.referenced y then none else (w.socks y).map fun s => (y, s)) → b = y := by
    intro y b hb
    split_ifs at hb
    · cases hb
    · obtain ⟨d, hd, rfl⟩ := Option.map_eq_some_iff.mp hb
      obtain ⟨s, -, rfl⟩ := Option.map_eq_some_iff.mp hd
      rfl
  exact (hfst hy).symm.trans (hfst hz)

end World

namespace Lifetime

/-- What is known of a step already: the environment of the IO pool is as it was, a call in progress has not
returned, and an `IOData` is made, assigned to and handed to a handler with references that there are. -/
structure Known (w : World) (t : ℕ) (o : Op) : Prop where
  environ : w.core.io.environ.group = some 0
  cur : ∀ t n, w.cur t = some n → w.results n = none
  live : ∀ i, (w.heap i).isLive = true → i < w.nextData
  newIOData : ∀ d, o = .newIOData d → ∀ x ∈ d.refs, ∃ n c, w.cur t = some n ∧ w.calls n = some c ∧ x ∈ c.sockets
  writeIOData : ∀ i d, o = .writeIOData i d → ∀ x ∈ d.refs, w.referenced x = true
  invoke : ∀ i f args, o = .invoke i f args → ∀ x ∈ args.refs, w.referenced x = true

/-- What threads have to themselves is so. -/
structure Held (w : World) (ls : ℕ → Local) : Prop where
  cur : ∀ t, w.cur t = (ls t).call.map Prod.fst
  call : ∀ t n c, (ls t).call = some (n, c) → w.calls n = some c ∧ n < w.nextCall
  alone : ∀ t t' x, (ls t).Owns x → (ls t').Owns x → t = t'
  used : ∀ t x, (ls t).Uses x → 0 < w.userRefs x
  gone : ∀ t x, (ls t).Destroys x → w.referenced x = false ∧ (w.socks x).isSome = true
  nodup : ∀ t, ((ls t).dying.map Prod.fst).Nodup
  there : ∀ x, w.referenced x = true → (w.socks x).isSome = true
  fresh : ∀ x, w.nextSock ≤ x → w.socks x = none

variable {w w' : World} {ls ls' : ℕ → Local} {t : ℕ} {o : Op} {x : SockId} {c : ApiCall}

theorem Held.inUse (hH : Held w ls) (hK : Known w t o) {t' : ℕ} (h : (ls t').Uses x) :
    w.inUse x = true := by
  obtain ⟨n, c, hc, hx⟩ := h
  obtain ⟨hcall, hn⟩ := hH.call t' n c hc
  have hcur : w.cur t' = some n := by rw [hH.cur, hc]; rfl
  refine List.any_eq_true.mpr ⟨n, List.mem_range.mpr hn, ?_⟩
  simp [hK.cur t' n hcur, hcall, hx]

/-- A step that makes no reference where there was none. -/
theorem Held.mono (hH : Held w ls)
    (hls : ∀ t, (ls' t).call = (ls t).call ∧ (ls' t).dying = (ls t).dying) (hcur : w'.cur = w.cur)
    (hcalls : w'.calls = w.calls) (hnext : w'.nextCall = w.nextCall)
    (hused : ∀ x, 0 < w.userRefs x → 0 < w'.userRefs x)
    (href : ∀ x, w'.referenced x = true → w.referenced x = true)
    (hsocks : ∀ x, (w'.socks x).isSome = (w.socks x).isSome) (hsock : w'.nextSock = w.nextSock) :
    Held w' ls' := by
  have huses : ∀ t x, (ls' t).Uses x → (ls t).Uses x := by
    rintro t x ⟨n, c, hc, hx⟩
    exact ⟨n, c, (hls t).1 ▸ hc, hx⟩
  have hdestroys : ∀ t x, (ls' t).Destroys x → (ls t).Destroys x := by
    rintro t x ⟨d, hd, hx⟩
    exact ⟨d, (hls t).2 ▸ hd, hx⟩
  have howns : ∀ t x, (ls' t).Owns x → (ls t).Owns x := fun t x => Or.imp (huses t x) (hdestroys t x)
  refine ⟨fun t => ?_, fun t n c hc => ?_, fun t t' x h h' => hH.alone t t' x (howns t x h) (howns t' x h'),
    fun t x h => hused x (hH.used t x (huses t x h)), fun t x h => ⟨?_, ?_⟩, fun t => ?_, fun x h => ?_,
    fun x h => ?_⟩
  · rw [hcur, (hls t).1]
    exact hH.cur t
  · rw [hcalls, hnext]
    exact hH.call t n c ((hls t).1 ▸ hc)
  · rw [Bool.eq_false_iff]
    intro hr
    have hgone := (hH.gone t x (hdestroys t x h)).1
    rw [href x hr] at hgone
    cases hgone
  · rw [hsocks]
    exact (hH.gone t x (hdestroys t x h)).2
  · rw [(hls t).2]
    exact hH.nodup t
  · rw [hsocks]
    exact hH.there x (href x h)
  · have hnone := hsocks x
    rw [hH.fresh x (hsock ▸ h)] at hnone
    exact Option.not_isSome_iff_eq_none.mp (by rw [hnone]; nofun)

theorem Local.owns_idle : ¬ idle.Owns x := by
  rintro (⟨n, c, hc, -⟩ | ⟨d, hd, -⟩)
  · cases hc
  · cases hd

/-- The thread that makes a step owns what no other one does. -/
theorem Held.alone_update {l' : Local} (hH : Held w ls)
    (h : ∀ t' x, t' ≠ t → l'.Owns x → ¬ (ls t').Owns x) (t₁ t₂ : ℕ) (x : SockId)
    (h₁ : (Function.update ls t l' t₁).Owns x) (h₂ : (Function.update ls t l' t₂).Owns x) : t₁ = t₂ := by
  by_cases ht₁ : t₁ = t
  · by_cases ht₂ : t₂ = t
    · exact ht₁.trans ht₂.symm
    · rw [ht₁, Function.update_self] at h₁
      rw [Function.update_of_ne ht₂] at h₂
      exact absurd h₂ (h t₂ x ht₂ h₁)
  · rw [Function.update_of_ne ht₁] at h₁
    by_cases ht₂ : t₂ = t
    · rw [ht₂, Function.update_self] at h₂
      exact absurd h₁ (h t₁ x ht₁ h₂)
    · rw [Function.update_of_ne ht₂] at h₂
      exact hH.alone t₁ t₂ x h₁ h₂

/-- What holds of what each thread knows, and of what a thread knows after a step. -/
theorem forall_update {P : ℕ → Local → Prop} {l' : Local} (h : ∀ t' ≠ t, P t' (ls t')) (ht : P t l') (t' : ℕ) :
    P t' (Function.update ls t l' t') := by
  by_cases htt : t' = t
  · subst htt
    rwa [Function.update_self]
  · rw [Function.update_of_ne htt]
    exact h t' htt

theorem Held.enter (hH : Held w ls) (hK : Known w t o) (hidle : ls t = idle)
    (huser : ∀ x ∈ c.sockets, 0 < w.userRefs x) (hfree : ∀ x ∈ c.sockets, w.inUse x = false) :
    Held (w.enterCall t c) (Function.update ls t { ls t with call := some (w.nextCall, c) }) := by
  have huses : ∀ {x}, Local.Uses { ls t with call := some (w.nextCall, c) } x → x ∈ c.sockets := by
    rintro x ⟨n, c', hc, hx⟩
    cases hc
    exact hx
  have hnot : ∀ {x}, ¬ Local.Destroys { ls t with call := some (w.nextCall, c) } x := by
    rintro x ⟨d, hd, -⟩
    rw [hidle] at hd
    cases hd
  have hle : ∀ x, 0 < w.userRefs x → 0 < (w.enterCall t c).userRefs x := fun x hx =>
    Nat.lt_of_lt_of_le hx (Nat.le_add_right ..)
  have href : ∀ x, (w.enterCall t c).referenced x = true → w.referenced x = true := by
    intro x hx
    rcases World.referenced_iff.mp hx with hx | hx
    · by_cases hc : x ∈ c.sockets
      · exact World.referenced_of_userRefs (huser x hc)
      · have hx' : 0 < w.userRefs x + c.sockets.count x := hx
        rw [List.count_eq_zero_of_not_mem hc] at hx'
        exact World.referenced_of_userRefs hx'
    · exact World.referenced_iff.mpr (.inr hx)
  refine ⟨forall_update (P := fun t' l => (w.enterCall t c).cur t' = l.call.map Prod.fst) (fun t' ht => ?_) ?_,
    forall_update (P := fun t' l => ∀ n c', l.call = some (n, c') →
      (w.enterCall t c).calls n = some c' ∧ n < w.nextCall + 1) (fun t' _ n c' hc => ?_) fun n c' hc => ?_,
    hH.alone_update fun t' x ht hown h' => ?_,
    forall_update (P := fun _ l => ∀ x, l.Uses x → 0 < (w.enterCall t c).userRefs x)
      (fun t' _ x h => hle x (hH.used t' x h)) fun x h => hle x (huser x (huses h)),
    forall_update (P := fun _ l => ∀ x, l.Destroys x → (w.enterCall t c).referenced x = false ∧
      (w.socks x).isSome = true) (fun t' _ x h => ⟨?_, (hH.gone t' x h).2⟩) fun x h => (hnot h).elim,
    forall_update (P := fun _ l => (l.dying.map Prod.fst).Nodup) (fun t' _ => hH.nodup t') (hH.nodup t),
    fun x h => hH.there x (href x h), hH.fresh⟩
  · exact (Function.update_of_ne ht ..).trans (hH.cur t')
  · exact Function.update_self ..
  · obtain ⟨hcall, hn⟩ := hH.call t' n c' hc
    exact ⟨(Function.update_of_ne (Nat.ne_of_lt hn) ..).trans hcall, hn.trans (Nat.lt_succ_self _)⟩
  · cases hc
    exact ⟨Function.update_self .., Nat.lt_succ_self _⟩
  · have hx : x ∈ c.sockets := huses (hown.resolve_right hnot)
    rcases h' with h' | h'
    · have hin := hH.inUse hK h'
      rw [hfree x hx] at hin
      cases hin
    · have hgone := (hH.gone t' x h').1
      rw [World.referenced_of_userRefs (huser x hx)] at hgone
      cases hgone
  · rw [Bool.eq_false_iff]
    intro hr
    have hgone := (hH.gone t' x h).1
    rw [href x hr] at hgone
    cases hgone

theorem Held.leave {n : CallId} {r : ErrorCode} (hH : Held w ls) :
    Held (w.leaveCall t n r) (Function.update ls t idle) := by
  refine ⟨forall_update (P := fun t' l => (w.leaveCall t n r).cur t' = l.call.map Prod.fst)
      (fun t' ht => (Function.update_of_ne ht ..).trans (hH.cur t')) (Function.update_self ..),
    forall_update (P := fun _ l => ∀ n c, l.call = some (n, c) → w.calls n = some c ∧ n < w.nextCall)
      (fun t' _ => hH.call t') nofun,
    hH.alone_update fun t' x _ h => (Local.owns_idle h).elim,
    forall_update (P := fun _ l => ∀ x, l.Uses x → 0 < w.userRefs x) (fun t' _ => hH.used t')
      fun x h => (Local.owns_idle (.inl h)).elim,
    forall_update (P := fun _ l => ∀ x, l.Destroys x → w.referenced x = false ∧ (w.socks x).isSome = true)
      (fun t' _ => hH.gone t') fun x h => (Local.owns_idle (.inr h)).elim,
    forall_update (P := fun _ l => (l.dying.map Prod.fst).Nodup) (fun t' _ => hH.nodup t') List.nodup_nil,
    hH.there, hH.fresh⟩

theorem Held.makeSocket (hH : Held w ls) : Held w.makeSocket ls := by
  have hold : ∀ {y}, y ≠ w.nextSock → (w.makeSocket.referenced y = true → w.referenced y = true) ∧
      w.makeSocket.socks y = w.socks y := by
    intro y hy
    refine ⟨fun h => ?_, Function.update_of_ne hy ..⟩
    rcases World.referenced_iff.mp h with h | h
    · have h' : 0 < w.userRefs y + [w.nextSock].count y := h
      rw [List.count_eq_zero_of_not_mem (by simpa using hy)] at h'
      exact World.referenced_of_userRefs h'
    · exact World.referenced_iff.mpr (.inr h)
  refine ⟨hH.cur, hH.call, hH.alone, fun t x h => Nat.lt_of_lt_of_le (hH.used t x h) (Nat.le_add_right ..),
    fun t x h => ?_, hH.nodup, fun x h => ?_, fun x h => ?_⟩
  · obtain ⟨hr, hs⟩ := hH.gone t x h
    have hx : x ≠ w.nextSock := by
      rintro rfl
      rw [hH.fresh _ le_rfl] at hs
      cases hs
    rw [(hold hx).2]
    refine ⟨?_, hs⟩
    rw [Bool.eq_false_iff]
    intro hr'
    rw [(hold hx).1 hr'] at hr
    cases hr
  · by_cases hx : x = w.nextSock
    · show (upd w.socks w.nextSock (some .new) x).isSome = true
      rw [hx, upd, Function.update_self]
      rfl
    · rw [(hold hx).2]
      exact hH.there x ((hold hx).1 h)
  · have hx : w.nextSock + 1 ≤ x := h
    exact (Function.update_of_ne (Nat.ne_of_gt hx) ..).trans (hH.fresh x (Nat.le_of_succ_le hx))

/-- Last references are dropped, and the objects are to be destroyed. -/
theorem Held.drop {ds : List Dead} (hH : Held w ls) (hcur : w'.cur = w.cur) (hcalls : w'.calls = w.calls)
    (hnext : w'.nextCall = w.nextCall) (hsocks : w'.socks = w.socks) (hsock : w'.nextSock = w.nextSock)
    (hused : ∀ t x, (ls t).Uses x → 0 < w'.userRefs x)
    (href : ∀ x, w'.referenced x = true → w.referenced x = true)
    (hds : ∀ d ∈ ds, w.referenced d.1 = true ∧ w'.referenced d.1 = false)
    (hnodup : (ds.map Prod.fst).Nodup) : Held w' (Function.update ls t { ls t with dying := ds }) := by
  have hgone : ∀ {t' x}, (ls t').Destroys x → w'.referenced x = false ∧ (w.socks x).isSome = true := by
    intro t' x h
    obtain ⟨hr, hs⟩ := hH.gone t' x h
    refine ⟨?_, hs⟩
    rw [Bool.eq_false_iff]
    intro hr'
    rw [href x hr'] at hr
    cases hr
  have hnew : ∀ {x}, Local.Destroys { ls t with dying := ds } x →
      w.referenced x = true ∧ w'.referenced x = false := by
    rintro x ⟨d, hd, rfl⟩
    exact hds d hd
  refine ⟨forall_update (P := fun t' l => w'.cur t' = l.call.map Prod.fst) (fun t' _ => hcur ▸ hH.cur t')
      (hcur ▸ hH.cur t),
    forall_update (P := fun _ l => ∀ n c, l.call = some (n, c) → w'.calls n = some c ∧ n < w'.nextCall)
      (fun t' _ => hcalls ▸ hnext ▸ hH.call t') (hcalls ▸ hnext ▸ hH.call t),
    hH.alone_update fun t' x ht hown h' => ?_,
    forall_update (P := fun _ l => ∀ x, l.Uses x → 0 < w'.userRefs x) (fun t' _ => hused t') (hused t),
    forall_update (P := fun _ l => ∀ x, l.Destroys x → w'.referenced x = false ∧ (w'.socks x).isSome = true)
      (fun t' _ x h => hsocks ▸ hgone h) fun x h => ⟨(hnew h).2, hsocks ▸ hH.there x (hnew h).1⟩,
    forall_update (P := fun _ l => (l.dying.map Prod.fst).Nodup) (fun t' _ => hH.nodup t') hnodup,
    fun x h => hsocks ▸ hH.there x (href x h), fun x h => hsocks ▸ hH.fresh x (hsock ▸ h)⟩
  rcases hown with hown | hown
  · exact ht (hH.alone t' t x h' (.inl hown))
  · obtain ⟨hr, hr'⟩ := hnew hown
    rcases h' with h' | h'
    · rw [World.referenced_of_userRefs (hused t' x h')] at hr'
      cases hr'
    · rw [(hH.gone t' x h').1] at hr
      cases hr

theorem Held.dropRef (hH : Held w ls) (hK : Known w t o) (huser : 0 < w.userRefs x)
    (hfree : 1 < w.userRefs x ∨ w.inUse x = false) :
    Held (w.dropRef x) (Function.update ls t { ls t with dying := (w.dropRef x).dead [x] }) := by
  have hother : ∀ {y}, y ≠ x → (w.dropRef x).userRefs y = w.userRefs y := fun hy =>
    Function.update_of_ne hy ..
  have hself : (w.dropRef x).userRefs x = w.userRefs x - 1 := Function.update_self ..
  refine hH.drop rfl rfl rfl rfl rfl (fun t' y h => ?_) (fun y h => ?_) (fun d hd => ?_) (World.nodup_dead ..)
  · by_cases hy : y = x
    · subst hy
      rw [hself]
      rcases hfree with hfree | hfree
      · exact Nat.sub_pos_of_lt hfree
      · rw [hH.inUse hK h] at hfree
        cases hfree
    · rw [hother hy]
      exact hH.used t' y h
  · rcases World.referenced_iff.mp h with h | h
    · by_cases hy : y = x
      · exact World.referenced_of_userRefs (hy ▸ huser)
      · exact World.referenced_of_userRefs (hother hy ▸ h)
    · exact World.referenced_iff.mpr (.inr h)
  · obtain ⟨hx, hr, -⟩ := World.mem_dead.mp hd
    exact ⟨World.referenced_of_userRefs (List.mem_singleton.mp hx ▸ huser), hr⟩

theorem Held.deleteIOData {i : DataId} (hH : Held w ls) (hK : Known w t o) :
    Held (w.deleteIOData i).2 (Function.update ls t { ls t with dying := (w.deleteIOData i).1 }) := by
  refine hH.drop rfl rfl rfl rfl rfl hH.used (fun y h => ?_) (fun d hd => ?_) ?_
  · rcases World.referenced_iff.mp h with h | ⟨j, hj, h⟩
    · exact World.referenced_of_userRefs h
    · obtain ⟨d, hd, hy⟩ := World.refersTo_iff.mp h
      have hd' : Function.update w.heap i .freed j = .live d := hd
      by_cases hji : j = i
      · rw [hji, Function.update_self] at hd'
        cases hd'
      · rw [Function.update_of_ne hji] at hd'
        exact World.referenced_iff.mpr (.inr ⟨j, hj, World.refersTo_iff.mpr ⟨d, hd', hy⟩⟩)
  · have hd' : d ∈ if (w.heap i).isLive then (w.deleteIOData i).2.dead (w.heap i).get.refs else [] := hd
    split_ifs at hd' with hlive
    · obtain ⟨hx, hr, -⟩ := World.mem_dead.mp hd'
      refine ⟨World.referenced_iff.mpr (.inr ⟨i, hK.live i hlive, World.refersTo_iff.mpr ?_⟩), hr⟩
      cases hi : w.heap i with
      | live d₀ =>
        rw [hi] at hx
        exact ⟨d₀, rfl, hx⟩
      | _ =>
        rw [hi] at hlive
        cases hlive
    · cases hd'
  · show ((if (w.heap i).isLive then (w.deleteIOData i).2.dead (w.heap i).get.refs else []).map Prod.fst).Nodup
    split
    · exact World.nodup_dead ..
    · exact List.nodup_nil

theorem Held.destroyed {d : Dead} {ds : List Dead} {l' : Local} (hH : Held w ls)
    (hd : (ls t).dying = d :: ds) (hcall : l'.call = (ls t).call) (hdying : l'.dying = ds) :
    Held (w.setSocket d.1 fun _ => none) (Function.update ls t l') := by
  have hself : (ls t).Destroys d.1 := ⟨d, hd ▸ List.mem_cons_self, rfl⟩
  have hnodup := hH.nodup t
  rw [hd, List.map_cons, List.nodup_cons] at hnodup
  have hother : ∀ {y}, y ≠ d.1 → (w.setSocket d.1 fun _ => none).socks y = w.socks y := fun hy =>
    Function.update_of_ne hy ..
  have huses : ∀ {x}, l'.Uses x → (ls t).Uses x := by
    rintro x ⟨n, c, hc, hx⟩
    exact ⟨n, c, hcall ▸ hc, hx⟩
  have hdestroys : ∀ {x}, l'.Destroys x → (ls t).Destroys x ∧ x ≠ d.1 := by
    rintro x ⟨d', hd', rfl⟩
    rw [hdying] at hd'
    refine ⟨⟨d', hd ▸ List.mem_cons_of_mem _ hd', rfl⟩, fun he => hnodup.1 ?_⟩
    rw [← he]
    exact List.mem_map_of_mem hd'
  have hgone : ∀ {t' x}, (ls t').Destroys x → x ≠ d.1 →
      w.referenced x = false ∧ ((w.setSocket d.1 fun _ => none).socks x).isSome = true := by
    intro t' x h hx
    rw [hother hx]
    exact hH.gone t' x h
  refine ⟨forall_update (P := fun t' l => w.cur t' = l.call.map Prod.fst) (fun t' _ => hH.cur t')
      (hcall ▸ hH.cur t),
    forall_update (P := fun _ l => ∀ n c, l.call = some (n, c) → w.calls n = some c ∧ n < w.nextCall)
      (fun t' _ => hH.call t') (hcall ▸ hH.call t),
    hH.alone_update fun t' x ht hown h' => ht (hH.alone t' t x h' (hown.imp huses fun h => (hdestroys h).1)),
    forall_update (P := fun _ l => ∀ x, l.Uses x → 0 < w.userRefs x) (fun t' _ => hH.used t')
      fun x h => hH.used t x (huses h),
    forall_update (P := fun _ l => ∀ x, l.Destroys x → w.referenced x = false ∧
        ((w.setSocket d.1 fun _ => none).socks x).isSome = true)
      (fun t' ht x h => hgone h fun hx => ht (hH.alone t' t x (.inr h) (.inr (hx ▸ hself))))
      fun x h => hgone (hdestroys h).1 (hdestroys h).2,
    forall_update (P := fun _ l => (l.dying.map Prod.fst).Nodup) (fun t' _ => hH.nodup t') (hdying ▸ hnodup.2),
    fun x h => ?_, fun x h => ?_⟩
  · have hx : x ≠ d.1 := by
      rintro rfl
      have h' : w.referenced d.1 = true := h
      rw [(hH.gone t d.1 hself).1] at h'
      cases h'
    rw [hother hx]
    exact hH.there x h
  · by_cases hx : x = d.1
    · rw [hx]
      exact Function.update_self ..
    · rw [hother hx]
      exact hH.fresh x h

/-! ### Who closes a TP_IO -/

/-- A TP_IO that is open is named by its object, or left to the cleanup group. -/
structure Named (w : World) (ls : ℕ → Local) : Prop where
  read : ∀ t x h, (ls t).read = some (x, h) → (ls t).Uses x ∧ w.ioOf x = some h
  shut : ∀ t x, (ls t).shut = some x → (ls t).Owns x ∧ ∀ h, w.ioOf x = some h → 0 < w.tpCloses h
  dying : ∀ t, ∀ d ∈ (ls t).dying, w.ioOf d.1 = d.2.socketIoHandle
  named : ∀ x h, w.ioOf x = some h → h < w.nextTp ∧ w.tpSock h = x ∧
    (w.tpCloses h = 0 ∨ ∃ t, (ls t).shut = some x)
  once : ∀ h, w.tpCloses h ≤ 1
  group : ∀ h < w.nextTp, w.tpGroup h = some 0
  owned : ∀ h < w.nextTp, w.tpCloses h = 0 → w.ioOf (w.tpSock h) = some h ∨ w.membersBegun 0 = false
  fresh : ∀ h, w.nextTp ≤ h → w.tpCloses h = 0

variable {l' : Local} {h : ℕ}

/-- **The TP_IO that a thread has at hand is open.** -/
theorem Named.open_of (hN : Named w ls) (hH : Held w ls) (ho : (ls t).Open h) :
    w.tpCloses h = 0 ∧ ∃ x, (ls t).subject = some x ∧ (ls t).Owns x ∧ w.ioOf x = some h := by
  obtain ⟨hshut, hat⟩ := ho
  have hsubject : ∃ x, (ls t).subject = some x ∧ (ls t).Owns x ∧ w.ioOf x = some h := by
    rcases hat with ⟨x, hd, hr⟩ | ⟨d, ds, hd, hh⟩
    · obtain ⟨hu, hx⟩ := hN.read t x h hr
      exact ⟨x, by rw [Local.subject, hd, hr]; rfl, .inl hu, hx⟩
    · have hmem : d ∈ (ls t).dying := hd ▸ List.mem_cons_self
      exact ⟨d.1, by rw [Local.subject, hd], .inr ⟨d, hmem, rfl⟩, (hN.dying t d hmem).trans hh⟩
  obtain ⟨x, hs, hown, hx⟩ := hsubject
  refine ⟨?_, x, hs, hown, hx⟩
  rcases (hN.named x h hx).2.2 with h0 | ⟨t', ht'⟩
  · exact h0
  · cases hH.alone t t' x hown (hN.shut t' x ht').1
    rw [hshut] at ht'
    cases ht'

/-- A step that does nothing to the TP_IOs. -/
theorem Named.world (hN : Named w ls) (hio : ∀ x, w'.ioOf x = w.ioOf x) (hnext : w'.nextTp = w.nextTp)
    (hsock : w'.tpSock = w.tpSock) (hgroup : w'.tpGroup = w.tpGroup) (hcloses : w'.tpCloses = w.tpCloses)
    (hbegun : w'.membersBegun = w.membersBegun) : Named w' ls := by
  refine ⟨fun t x h hr => ?_, fun t x hs => ?_, fun t d hd => ?_, fun x h hx => ?_, fun h => ?_, fun h hh => ?_,
    fun h hh h0 => ?_, fun h hh => ?_⟩
  · rw [hio]
    exact hN.read t x h hr
  · rw [hio, hcloses]
    exact hN.shut t x hs
  · rw [hio]
    exact hN.dying t d hd
  · rw [hio] at hx
    rw [hnext, hsock, hcloses]
    exact hN.named x h hx
  · rw [hcloses]
    exact hN.once h
  · rw [hgroup]
    exact hN.group h (hnext ▸ hh)
  · rw [hio, hsock, hbegun]
    exact hN.owned h (hnext ▸ hh) (hcloses ▸ h0)
  · rw [hcloses]
    exact hN.fresh h (hnext ▸ hh)

/-- A thread comes to know more or less. -/
theorem Named.local (hN : Named w ls) (hread : ∀ x h, l'.read = some (x, h) → l'.Uses x ∧ w.ioOf x = some h)
    (hshut : l'.shut = (ls t).shut) (howns : ∀ x, (ls t).shut = some x → l'.Owns x)
    (hdying : ∀ d ∈ l'.dying, w.ioOf d.1 = d.2.socketIoHandle) : Named w (Function.update ls t l') := by
  refine ⟨forall_update (P := fun _ l => ∀ x h, l.read = some (x, h) → l.Uses x ∧ w.ioOf x = some h)
      (fun t' _ => hN.read t') hread,
    forall_update (P := fun _ l => ∀ x, l.shut = some x → l.Owns x ∧ ∀ h, w.ioOf x = some h → 0 < w.tpCloses h)
      (fun t' _ => hN.shut t') fun x hs => ⟨howns x (hshut ▸ hs), (hN.shut t x (hshut ▸ hs)).2⟩,
    forall_update (P := fun _ l => ∀ d ∈ l.dying, w.ioOf d.1 = d.2.socketIoHandle) (fun t' _ => hN.dying t') hdying,
    fun x h hx => ?_, hN.once, hN.group, hN.owned, hN.fresh⟩
  obtain ⟨h₁, h₂, h₃⟩ := hN.named x h hx
  refine ⟨h₁, h₂, h₃.imp_right ?_⟩
  rintro ⟨t', ht'⟩
  refine ⟨t', ?_⟩
  by_cases htt : t' = t
  · rw [htt, Function.update_self, hshut, ← htt]
    exact ht'
  · rwa [Function.update_of_ne htt]

/-- A thread that is at rest goes on to something else. -/
theorem Named.rest (hN : Named w ls) (hread : l'.read = none) (hshut : (ls t).shut = none)
    (hshut' : l'.shut = none) (hdying : l'.dying = []) : Named w (Function.update ls t l') := by
  refine hN.local (fun x h hr => ?_) (hshut'.trans hshut.symm) (fun x hs => ?_) fun d hd => ?_
  · rw [hread] at hr
    cases hr
  · rw [hshut] at hs
    cases hs
  · rw [hdying] at hd
    cases hd

/-- An object does not name its TP_IO any more, which is closed. -/
theorem Named.forget (hN : Named w ls) (hH : Held w ls) (hown : (ls t).Owns x)
    (hclosed : ∀ h, w.ioOf x = some h → 0 < w.tpCloses h) (hshut : ∀ y, (ls t).shut = some y → y = x)
    (hself : w'.ioOf x = none) (hother : ∀ y, y ≠ x → w'.ioOf y = w.ioOf y) (hnext : w'.nextTp = w.nextTp)
    (hsock : w'.tpSock = w.tpSock) (hgroup : w'.tpGroup = w.tpGroup) (hcloses : w'.tpCloses = w.tpCloses)
    (hbegun : w'.membersBegun = w.membersBegun) (hread' : l'.read = none) (hshut' : l'.shut = none)
    (hdying : ∀ d ∈ l'.dying, d ∈ (ls t).dying ∧ d.1 ≠ x) : Named w' (Function.update ls t l') := by
  have hne : ∀ {t' y}, t' ≠ t → (ls t').Owns y → y ≠ x := by
    rintro t' y ht h rfl
    exact ht (hH.alone t' t y h hown)
  have hname : ∀ {y h}, w'.ioOf y = some h → y ≠ x ∧ w.ioOf y = some h := by
    intro y h hy
    by_cases hyx : y = x
    · rw [hyx, hself] at hy
      cases hy
    · exact ⟨hyx, hother y hyx ▸ hy⟩
  refine ⟨forall_update (P := fun _ l => ∀ y h, l.read = some (y, h) → l.Uses y ∧ w'.ioOf y = some h)
      (fun t' ht y h hr => ?_) fun y h hr => ?_,
    forall_update (P := fun _ l => ∀ y, l.shut = some y → l.Owns y ∧ ∀ h, w'.ioOf y = some h → 0 < w'.tpCloses h)
      (fun t' ht y hs => ⟨(hN.shut t' y hs).1, fun h hy => ?_⟩) fun y hs => ?_,
    forall_update (P := fun _ l => ∀ d ∈ l.dying, w'.ioOf d.1 = d.2.socketIoHandle) (fun t' ht d hd => ?_)
      fun d hd => ?_,
    fun y h hy => ?_, fun h => ?_, fun h hh => ?_, fun h hh h0 => ?_, fun h hh => ?_⟩
  · obtain ⟨hu, hy⟩ := hN.read t' y h hr
    exact ⟨hu, (hother y (hne ht (.inl hu))).trans hy⟩
  · rw [hread'] at hr
    cases hr
  · rw [hcloses]
    exact (hN.shut t' y hs).2 h (hname hy).2
  · rw [hshut'] at hs
    cases hs
  · exact (hother d.1 (hne ht (.inr ⟨d, hd, rfl⟩))).trans (hN.dying t' d hd)
  · exact (hother d.1 (hdying d hd).2).trans (hN.dying t d (hdying d hd).1)
  · obtain ⟨hyx, hy'⟩ := hname hy
    obtain ⟨h₁, h₂, h₃⟩ := hN.named y h hy'
    rw [hnext, hsock, hcloses]
    refine ⟨h₁, h₂, h₃.imp_right ?_⟩
    rintro ⟨t', ht'⟩
    refine ⟨t', ?_⟩
    by_cases htt : t' = t
    · exact absurd (hshut y (htt ▸ ht')) hyx
    · rwa [Function.update_of_ne htt]
  · rw [hcloses]
    exact hN.once h
  · rw [hgroup]
    exact hN.group h (hnext ▸ hh)
  · rw [hsock, hbegun]
    rw [hcloses] at h0
    refine (hN.owned h (hnext ▸ hh) h0).imp_left fun hn => ?_
    rw [hother _ ?_]
    · exact hn
    · rintro hx
      have hpos := hclosed h (hx ▸ hn)
      rw [h0] at hpos
      cases hpos
  · rw [hcloses]
    exact hN.fresh h (hnext ▸ hh)

/-- `CloseThreadpoolIo` closes the TP_IO that the thread has at hand. -/
theorem Named.close (hN : Named w ls) (hH : Held w ls) (ho : (ls t).Open h) :
    Named (w.closeIo t (some h)) (Function.update ls t { ls t with shut := (ls t).subject }) := by
  obtain ⟨h0, x, hs, hown, hx⟩ := hN.open_of hH ho
  obtain ⟨hlt, hsock, -⟩ := hN.named x h hx
  have hself : (w.closeIo t (some h)).tpCloses h = 1 := by
    show Function.update w.tpCloses h (w.tpCloses h + 1) h = 1
    rw [Function.update_self, h0]
  have hother : ∀ {k}, k ≠ h → (w.closeIo t (some h)).tpCloses k = w.tpCloses k := fun hk =>
    Function.update_of_ne hk ..
  have hle : ∀ {k}, 0 < w.tpCloses k → 0 < (w.closeIo t (some h)).tpCloses k := by
    intro k hk
    by_cases hkh : k = h
    · rw [hkh, hself]
      exact Nat.one_pos
    · rwa [hother hkh]
  refine ⟨forall_update (P := fun _ l => ∀ y k, l.read = some (y, k) → l.Uses y ∧ w.ioOf y = some k)
      (fun t' _ => hN.read t') (hN.read t),
    forall_update (P := fun _ l => ∀ y, l.shut = some y → l.Owns y ∧
        ∀ k, w.ioOf y = some k → 0 < (w.closeIo t (some h)).tpCloses k)
      (fun t' _ y hy => ⟨(hN.shut t' y hy).1, fun k hk => hle ((hN.shut t' y hy).2 k hk)⟩) fun y hy => ?_,
    forall_update (P := fun _ l => ∀ d ∈ l.dying, w.ioOf d.1 = d.2.socketIoHandle) (fun t' _ => hN.dying t')
      (hN.dying t),
    fun y k hy => ?_, fun k => ?_, hN.group, fun k hk hk0 => ?_, fun k hk => ?_⟩
  · cases hs.symm.trans hy
    refine ⟨hown, fun k hk => ?_⟩
    cases hx.symm.trans hk
    rw [hself]
    exact Nat.one_pos
  · obtain ⟨h₁, h₂, h₃⟩ := hN.named y k hy
    refine ⟨h₁, h₂, ?_⟩
    by_cases hkh : k = h
    · subst hkh
      refine .inr ⟨t, ?_⟩
      rw [Function.update_self, ← h₂, hsock]
      exact hs
    · rw [hother hkh]
      refine h₃.imp_right ?_
      rintro ⟨t', ht'⟩
      refine ⟨t', ?_⟩
      by_cases htt : t' = t
      · rw [htt, ho.1] at ht'
        cases ht'
      · rwa [Function.update_of_ne htt]
  · by_cases hkh : k = h
    · rw [hkh, hself]
    · rw [hother hkh]
      exact hN.once k
  · by_cases hkh : k = h
    · rw [hkh, hself] at hk0
      cases hk0
    · exact hN.owned k hk ((hother hkh).symm.trans hk0)
  · rw [hother (Nat.ne_of_gt (Nat.lt_of_lt_of_le hlt hk))]
    exact hN.fresh k hk

/-- `CreateThreadpoolIo`: the object names the new TP_IO, and the one that it named before is left to the
group. -/
theorem Named.create {s : NativeHandle} {ok : Bool} (hN : Named w ls) (hH : Held w ls) (hK : Known w t o)
    (hu : (ls t).Uses x) (hrest : (ls t).AtRest)
    (hleft : ∀ h, w.ioOf x = some h → w.membersBegun 0 = false) : Named (w.createIo x s ok) ls := by
  obtain ⟨hread, hshut, hdying⟩ := hrest
  obtain ⟨sock, hsock⟩ :=
    Option.isSome_iff_exists.mp (hH.there x (World.referenced_of_userRefs (hH.used t x hu)))
  have hself : (w.createIo x s ok).ioOf x = if ok then some w.nextTp else none := by
    show (upd w.socks x ((w.socks x).map _) x).bind _ = _
    rw [upd, Function.update_self, hsock]
    rfl
  have hother : ∀ {y}, y ≠ x → (w.createIo x s ok).ioOf y = w.ioOf y := by
    intro y hy
    show (upd w.socks x ((w.socks x).map _) y).bind _ = _
    rw [upd, Function.update_of_ne hy]
    rfl
  have hold : ∀ {h}, h < w.nextTp → (w.createIo x s ok).tpSock h = w.tpSock h ∧
      (w.createIo x s ok).tpGroup h = w.tpGroup h := by
    intro h hh
    have hne := Nat.ne_of_lt hh
    cases ok with
    | true => exact ⟨Function.update_of_ne hne .., Function.update_of_ne hne ..⟩
    | false => exact ⟨rfl, rfl⟩
  have hnew : ∀ {h}, h < (w.createIo x s ok).nextTp → h < w.nextTp ∨ h = w.nextTp ∧ ok = true := by
    intro h hh
    cases ok with
    | true => exact (Nat.lt_succ_iff_lt_or_eq.mp hh).imp_right fun h => ⟨h, rfl⟩
    | false => exact .inl hh
  have hle : w.nextTp ≤ (w.createIo x s ok).nextTp := by
    cases ok with
    | true => exact Nat.le_succ _
    | false => exact le_rfl
  have hne : ∀ {t' y}, t' ≠ t → (ls t').Owns y → y ≠ x := by
    rintro t' y ht h rfl
    exact ht (hH.alone t' t y h (.inl hu))
  refine ⟨fun t' y h hr => ?_, fun t' y hs => ?_, fun t' d hd => ?_, fun y h hy => ?_, hN.once,
    fun h hh => ?_, fun h hh h0 => ?_, fun h hh => hN.fresh h (hle.trans hh)⟩
  · by_cases ht : t' = t
    · rw [ht, hread] at hr
      cases hr
    · obtain ⟨hu', hy⟩ := hN.read t' y h hr
      exact ⟨hu', (hother (hne ht (.inl hu'))).trans hy⟩
  · by_cases ht : t' = t
    · rw [ht, hshut] at hs
      cases hs
    · obtain ⟨hown, hpos⟩ := hN.shut t' y hs
      rw [hother (hne ht hown)]
      exact ⟨hown, hpos⟩
  · by_cases ht : t' = t
    · rw [ht, hdying] at hd
      cases hd
    · exact (hother (hne ht (.inr ⟨d, hd, rfl⟩))).trans (hN.dying t' d hd)
  · by_cases hyx : y = x
    · rw [hyx, hself] at hy
      cases ok with
      | true =>
        cases hy
        exact ⟨Nat.lt_succ_self _, (Function.update_self ..).trans hyx.symm, .inl (hN.fresh _ le_rfl)⟩
      | false => cases hy
    · rw [hother hyx] at hy
      obtain ⟨h₁, h₂, h₃⟩ := hN.named y h hy
      exact ⟨Nat.lt_of_lt_of_le h₁ hle, (hold h₁).1.trans h₂, h₃⟩
  · rcases hnew hh with hh | ⟨rfl, rfl⟩
    · exact (hold hh).2.trans (hN.group h hh)
    · exact (Function.update_self ..).trans hK.environ
  · rcases hnew hh with hh | ⟨rfl, rfl⟩
    · rw [(hold hh).1]
      rcases hN.owned h hh h0 with hn | hn
      · by_cases hx : w.tpSock h = x
        · exact .inr (hleft h (hx ▸ hn))
        · exact .inl ((hother hx).trans hn)
      · exact .inr hn
    · refine .inl ?_
      have hx : (w.createIo x s true).tpSock w.nextTp = x := Function.update_self ..
      rw [hx, hself]
      rfl

/-- `CloseThreadpoolCleanupGroupMembers`: the members that are open, which no object names, are closed. -/
theorem Named.closeMembers {g : GroupId} (hN : Named w ls)
    (hfree : ∀ x h, w.ioOf x = some h → w.tpGroup h = some g → 0 < w.tpCloses h) :
    Named (w.closeMembers g) ls := by
  have hcloses : ∀ {h}, (w.closeMembers g).tpCloses h = w.tpCloses h ∨
      h < w.nextTp ∧ w.tpGroup h = some g ∧ w.tpCloses h = 0 ∧ (w.closeMembers g).tpCloses h = 1 := by
    intro h
    by_cases hh : h < w.nextTp ∧ w.tpGroup h = some g ∧ w.tpCloses h = 0
    · exact .inr ⟨hh.1, hh.2.1, hh.2.2, if_pos hh⟩
    · exact .inl (if_neg hh)
  refine ⟨hN.read, fun t x hs => ⟨(hN.shut t x hs).1, fun h hx => ?_⟩, hN.dying, fun x h hx => ?_, fun h => ?_,
    hN.group, fun h hh h0 => ?_, fun h hh => ?_⟩
  · have hpos := (hN.shut t x hs).2 h hx
    rcases hcloses (h := h) with heq | ⟨-, -, h0, -⟩
    · rwa [heq]
    · rw [h0] at hpos
      cases hpos
  · obtain ⟨h₁, h₂, h₃⟩ := hN.named x h hx
    refine ⟨h₁, h₂, h₃.imp_left fun h0 => ?_⟩
    rcases hcloses (h := h) with heq | ⟨-, hg, -, -⟩
    · exact heq.trans h0
    · have hpos := hfree x h hx hg
      rw [h0] at hpos
      cases hpos
  · rcases hcloses (h := h) with heq | ⟨-, -, -, h1⟩
    · rw [heq]
      exact hN.once h
    · rw [h1]
  · rcases hcloses (h := h) with heq | ⟨-, -, -, h1⟩
    · have hg : g ≠ 0 := by
        rintro rfl
        have h1 : (w.closeMembers 0).tpCloses h = 1 := if_pos ⟨hh, hN.group h hh, heq.symm.trans h0⟩
        rw [h0] at h1
        cases h1
      refine (hN.owned h hh (heq.symm.trans h0)).imp_right fun hb => ?_
      exact (Function.update_of_ne (Ne.symm hg) ..).trans hb
    · rw [h0] at h1
      cases h1
  · rcases hcloses (h := h) with heq | ⟨hlt, -⟩
    · rw [heq]
      exact hN.fresh h hh
    · exact absurd hh (Nat.not_le_of_lt hlt)

/-! ### Runs -/

/-- What a step may do: calls on an object do not overlap, and the reference that a call holds is not dropped; an
object that names a TP_IO is given another only while the members of its group are not being closed; and these
are closed only when no object names one that is open. -/
def allowed (w : World) : Op → Bool
  | .enter c => c.sockets.all fun x => !w.inUse x
  | .dropRef x => decide (1 < w.userRefs x) || !w.inUse x
  | .createThreadpoolIo x _ => (w.ioOf x).all fun h => (w.tpGroup h).all fun g => !w.membersBegun g
  | .closeThreadpoolCleanupGroupMembers (some g) => (List.range w.nextSock).all fun x =>
    (w.ioOf x).all fun h => w.tpGroup h ≠ some g || decide (0 < w.tpCloses h)
  | _ => true

/-- The condition on a run: also, cleanup threads start, and end in time, and the core is not set up again. -/
def guard : RunGuard := .ofBool (fun w _ o a => Release.joins o a && allowed w o) fun _ _ => true

/-- What is kept. -/
structure Inv (w : World) (ls : ℕ → Local) : Prop where
  held : Held w ls
  named : Named w ls
  ok : ∀ h, .closedTpIo h ∉ w.faults

variable {a : Ans}

theorem ioOf_eq : ((w.socks x).getD .new).socketIoHandle = w.ioOf x := by
  unfold World.ioOf
  cases w.socks x <;> rfl

theorem ioOf_setSocket {f : Option WinSocket → Option WinSocket} {y : SockId} :
    (w.setSocket x f).ioOf y = if y = x then (f (w.socks x)).bind (·.socketIoHandle) else w.ioOf y := by
  show (upd w.socks x (f (w.socks x)) y).bind _ = _
  by_cases hy : y = x
  · rw [hy, upd, Function.update_self, if_pos rfl]
  · rw [upd, Function.update_of_ne hy, if_neg hy]
    rfl

theorem same_update (h : l'.call = (ls t).call ∧ l'.dying = (ls t).dying) (t' : ℕ) :
    (Function.update ls t l' t').call = (ls t').call ∧ (Function.update ls t l' t').dying = (ls t').dying :=
  forall_update (P := fun t' l => l.call = (ls t').call ∧ l.dying = (ls t').dying) (fun _ _ => ⟨rfl, rfl⟩) h t'

/-- A call within a step that makes no reference, and leaves the thread's objects as they are. -/
theorem Held.step (hH : Held w ls) (h : l'.call = (ls t).call ∧ l'.dying = (ls t).dying) (hcur : w'.cur = w.cur)
    (hcalls : w'.calls = w.calls) (hnext : w'.nextCall = w.nextCall) (huser : w'.userRefs = w.userRefs)
    (hheap : w'.heap = w.heap) (hdata : w'.nextData = w.nextData)
    (hsocks : ∀ x, (w'.socks x).isSome = (w.socks x).isSome) (hsock : w'.nextSock = w.nextSock) :
    Held w' (Function.update ls t l') := by
  refine hH.mono (same_update h) hcur hcalls hnext (fun x => huser ▸ id) (fun x hx => ?_) hsocks hsock
  have href : w'.referenced x = w.referenced x := by
    unfold World.referenced World.refersTo
    rw [huser, hheap, hdata]
  exact href ▸ hx

theorem isSome_setSocket {f : WinSocket → WinSocket} (y : SockId) :
    ((w.setSocket x (Option.map f)).socks y).isSome = (w.socks y).isSome := by
  show (upd w.socks x ((w.socks x).map f) y).isSome = _
  by_cases hy : y = x
  · rw [hy, upd, Function.update_self, Option.isSome_map]
  · rw [upd, Function.update_of_ne hy]

/-- `new IOData`, with references to the sockets of the call. -/
theorem Held.newIOData {d : IOData} (hH : Held w ls) (hK : Known w t (.newIOData d)) :
    Held (w.newIOData t d) ls := by
  refine hH.mono (fun _ => ⟨rfl, rfl⟩) rfl rfl rfl (fun _ => id) (fun x hx => ?_) (fun _ => rfl) rfl
  rcases World.referenced_iff.mp hx with hx | ⟨i, hi, hx⟩
  · exact World.referenced_of_userRefs hx
  obtain ⟨d', hd', hx⟩ := World.refersTo_iff.mp hx
  have hd'' : Function.update w.heap w.nextData (.live d) i = .live d' := hd'
  by_cases hin : i = w.nextData
  · rw [hin, Function.update_self] at hd''
    cases hd''
    obtain ⟨n, c, hcur, hc, hxc⟩ := hK.newIOData d rfl x hx
    rw [hH.cur] at hcur
    obtain ⟨⟨n', c'⟩, hcall, rfl⟩ := Option.map_eq_some_iff.mp hcur
    cases (hH.call t _ c' hcall).1.symm.trans hc
    exact World.referenced_of_userRefs (hH.used t x ⟨_, c, hcall, hxc⟩)
  · rw [Function.update_of_ne hin] at hd''
    exact World.referenced_iff.mpr (.inr ⟨i, Nat.lt_of_le_of_ne (Nat.le_of_lt_succ hi) hin,
      World.refersTo_iff.mpr ⟨d', hd'', hx⟩⟩)

theorem refs_moveAccept (d : IOData) : ∀ y ∈ (World.moveAccept d).refs, y ∈ d.refs := by
  unfold World.moveAccept
  split
  · intro y hy
    exact List.mem_cons.mpr (.inl (List.mem_singleton.mp hy))
  · exact fun _ => id

theorem refs_fill (d : IOData) (c : Completion) : (d.fill c).refs = d.refs := by
  unfold IOData.fill
  split <;> rfl

/-- A live `IOData` refers to what it holds. -/
theorem Known.referenced {i : DataId} {d : IOData} (hlive : ∀ i, (w.heap i).isLive = true → i < w.nextData)
    (hd : w.heap i = .live d) : ∀ y ∈ d.refs, w.referenced y = true := fun _ hy =>
  World.referenced_iff.mpr (.inr ⟨i, hlive i (by rw [hd]; rfl), World.refersTo_iff.mpr ⟨d, hd, hy⟩⟩)

theorem Held.invoke {i : DataId} {f : ℕ} {args : Args} (hH : Held w ls) (hK : Known w t (.invoke i f args)) :
    Held (w.invoke i f args) ls := by
  refine hH.mono (fun _ => ⟨rfl, rfl⟩) rfl rfl rfl (fun x hx => Nat.lt_of_lt_of_le hx (Nat.le_add_right ..))
    (fun x hx => ?_) (fun _ => rfl) rfl
  refine @World.referenced_map w (w.invoke i f args) i x World.moveAccept rfl rfl (fun y hy => ?_)
    (fun d hd y hy => Known.referenced hK.live hd y (refs_moveAccept d y hy)) hx
  have hy' : 0 < w.userRefs y + args.refs.count y := hy
  by_cases hmem : y ∈ args.refs
  · exact hK.invoke i f args rfl y hmem
  · rw [List.count_eq_zero_of_not_mem hmem] at hy'
    exact World.referenced_of_userRefs hy'

theorem Held.writeIOData {i : DataId} {d : IOData} (hH : Held w ls) (hK : Known w t (.writeIOData i d)) :
    Held (w.writeIOData i d) ls :=
  hH.mono (fun _ => ⟨rfl, rfl⟩) rfl rfl rfl (fun _ => id)
    (fun x => @World.referenced_map w (w.writeIOData i d) i x (fun _ => d) rfl rfl
      (fun _ hy => World.referenced_of_userRefs hy) fun _ _ => hK.writeIOData i d rfl) (fun _ => rfl) rfl

theorem Held.copyRef (hH : Held w ls) (hx : 0 < w.userRefs x) : Held (w.addRefs [x]) ls := by
  refine hH.mono (fun _ => ⟨rfl, rfl⟩) rfl rfl rfl (fun y hy => Nat.lt_of_lt_of_le hy (Nat.le_add_right ..))
    (fun y hy => ?_) (fun _ => rfl) rfl
  rcases World.referenced_iff.mp hy with hy | hy
  · have hy' : 0 < w.userRefs y + [x].count y := hy
    by_cases hyx : y ∈ [x]
    · exact World.referenced_of_userRefs (List.mem_singleton.mp hyx ▸ hx)
    · rw [List.count_eq_zero_of_not_mem hyx] at hy'
      exact World.referenced_of_userRefs hy'
  · exact World.referenced_iff.mpr (.inr hy)

/-- **A call keeps what threads have to themselves.** -/
theorem Held.run (hH : Held w ls) (hpre : logic.pre (ls t) o) (hK : Known w t o) (ha : allowed w o = true)
    (hu : w.holdsRefs o = true) :
    Held (w.reply t o a).2 (Function.update ls t (logic.post (ls t) o (w.reply t o a).1)) := by
  have hsame : Function.update ls t (ls t) = ls := Function.update_eq_self t ls
  cases o with
  | enter c =>
    refine hH.enter hK hpre (fun x hx => ?_) fun x hx => ?_
    · exact of_decide_eq_true (List.all_eq_true.mp hu x hx)
    · exact (Bool.not_eq_true' _).mp (List.all_eq_true.mp ha x hx)
  | leave n r => exact hH.leave
  | makeSocket => exact hsame.symm ▸ hH.makeSocket
  | copyRef x => exact hsame.symm ▸ hH.copyRef (of_decide_eq_true hu)
  | dropRef x =>
    refine hH.dropRef hK (of_decide_eq_true hu) ?_
    rcases Bool.or_eq_true_iff.mp ha with ha | ha
    · exact .inl (of_decide_eq_true ha)
    · exact .inr ((Bool.not_eq_true' _).mp ha)
  | deleteIOData i => exact hH.deleteIOData hK
  | destroyed x =>
    obtain ⟨d, ds, hd, rfl, -⟩ := hpre
    exact hH.destroyed hd rfl (congrArg List.tail hd)
  | writeSocket x f => exact hH.step ⟨rfl, rfl⟩ rfl rfl rfl rfl rfl rfl isSome_setSocket rfl
  | createThreadpoolIo x s => exact hH.step ⟨rfl, rfl⟩ rfl rfl rfl rfl rfl rfl isSome_setSocket rfl
  | newIOData d => exact hsame.symm ▸ hH.newIOData hK
  | writeIOData i d => exact hsame.symm ▸ hH.writeIOData hK
  | invoke i f args => exact hsame.symm ▸ hH.invoke hK
  | closeThreadpoolCleanupGroupMembers g =>
    cases g with
    | none => exact hsame.symm ▸ hH
    | some g => exact hH.step ⟨rfl, rfl⟩ rfl rfl rfl rfl rfl rfl (fun _ => rfl) rfl
  | _ =>
    cases w
    exact hH.step ⟨rfl, rfl⟩ rfl rfl rfl rfl rfl rfl (fun _ => rfl) rfl

/-- Objects are found to be without a reference. -/
theorem Named.doom {ds : List Dead} (hN : Named w ls) (hrest : (ls t).AtRest)
    (hds : ∀ d ∈ ds, w.socks d.1 = some d.2) :
    Named w (Function.update ls t { ls t with dying := ds }) := by
  refine hN.local (fun x h hr => ?_) rfl (fun x hs => ?_) fun d hd => ?_
  · rw [show (ls t).read = none from hrest.1] at hr
    cases hr
  · rw [hrest.2.1] at hs
    cases hs
  · rw [World.ioOf, hds d hd]
    rfl

theorem Named.writeSocket {f : WinSocket → WinSocket} (hN : Named w ls) (hH : Held w ls)
    (hpre : logic.pre (ls t) (.writeSocket x f)) :
    Named (w.setSocket x (Option.map f)) (Function.update ls t { ls t with read := none, shut := none }) := by
  rcases hpre with ⟨hrest, hf⟩ | ⟨hs, hd, hf⟩
  · refine Named.rest (hN.world (fun y => ?_) rfl rfl rfl rfl rfl) rfl hrest.2.1 rfl hrest.2.2
    rw [ioOf_setSocket]
    split
    · rename_i hy
      subst hy
      unfold World.ioOf
      cases w.socks y with
      | none => rfl
      | some s => exact hf s
    · rfl
  · obtain ⟨hown, hclosed⟩ := hN.shut t x hs
    refine hN.forget hH hown hclosed (fun y hy => ?_) ?_ (fun y hy => ?_) rfl rfl rfl rfl rfl rfl rfl fun d hd' => ?_
    · exact Option.some.inj (hy.symm.trans hs)
    · rw [ioOf_setSocket, if_pos rfl]
      cases w.socks x with
      | none => rfl
      | some s => exact hf s
    · rw [ioOf_setSocket, if_neg hy]
    · have hd'' : d ∈ (ls t).dying := hd'
      rw [hd] at hd''
      cases hd''

theorem Named.destroyed (hN : Named w ls) (hH : Held w ls) (hpre : logic.pre (ls t) (.destroyed x)) :
    Named (w.setSocket x fun _ => none)
      (Function.update ls t { ls t with read := none, shut := none, dying := (ls t).dying.tail }) := by
  obtain ⟨d, ds, hd, rfl, hs⟩ := hpre
  have hmem : d ∈ (ls t).dying := hd ▸ List.mem_cons_self
  have hnodup := hH.nodup t
  rw [hd, List.map_cons, List.nodup_cons] at hnodup
  refine hN.forget hH (.inr ⟨d, hmem, rfl⟩) (fun h hh => ?_) (fun y hy => ?_) ?_ (fun y hy => ?_) rfl rfl rfl rfl rfl
    rfl rfl fun d' hd' => ?_
  · rcases hs with hs | ⟨-, hnone⟩
    · exact (hN.shut t d.1 hs).2 h hh
    · rw [hN.dying t d hmem, hnone] at hh
      cases hh
  · rcases hs with hs | ⟨hs, -⟩
    · exact Option.some.inj (hy.symm.trans hs)
    · rw [hs] at hy
      cases hy
  · rw [ioOf_setSocket, if_pos rfl]
    rfl
  · rw [ioOf_setSocket, if_neg hy]
  · have hd'' : d' ∈ (ls t).dying.tail := hd'
    rw [hd] at hd''
    exact ⟨hd ▸ List.mem_cons_of_mem _ hd'', fun he => hnodup.1 (he ▸ List.mem_map_of_mem hd'')⟩

theorem Named.readIoHandle (hN : Named w ls) (hu : (ls t).Uses x) (hrest : (ls t).AtRest) :
    Named w (Function.update ls t { ls t with read := (w.ioOf x).map (x, ·) }) := by
  refine hN.local (fun y h hr => ?_) rfl (fun y hs => ?_) fun d hd => ?_
  · obtain ⟨k, hk, heq⟩ := Option.map_eq_some_iff.mp hr
    cases heq
    exact ⟨hu, hk⟩
  · rw [hrest.2.1] at hs
    cases hs
  · exact hN.dying t d hd

theorem Named.makeSocket (hN : Named w ls) (hH : Held w ls) : Named w.makeSocket ls := by
  refine hN.world (fun y => ?_) rfl rfl rfl rfl rfl
  show (upd w.socks w.nextSock (some .new) y).bind _ = _
  by_cases hy : y = w.nextSock
  · rw [hy, upd, Function.update_self, World.ioOf, hH.fresh _ le_rfl]
    rfl
  · rw [upd, Function.update_of_ne hy]
    rfl

/-- **A call closes no TP_IO twice.** -/
theorem Named.run (hN : Named w ls) (hH : Held w ls) (hpre : logic.pre (ls t) o) (hK : Known w t o)
    (ha : allowed w o = true) :
    Named (w.reply t o a).2 (Function.update ls t (logic.post (ls t) o (w.reply t o a).1)) := by
  have hsame : Function.update ls t (ls t) = ls := Function.update_eq_self t ls
  cases o with
  | enter c =>
    have hidle : ls t = idle := hpre
    refine Named.rest (hN.world (fun _ => rfl) rfl rfl rfl rfl rfl) ?_ ?_ ?_ ?_ <;> rw [hidle] <;> rfl
  | leave n r => exact Named.rest (hN.world (fun _ => rfl) rfl rfl rfl rfl rfl) rfl hpre.2.2.1 rfl rfl
  | makeSocket => exact hsame.symm ▸ hN.makeSocket hH
  | dropRef x =>
    refine Named.doom (hN.world (fun _ => rfl) rfl rfl rfl rfl rfl) hpre fun d hd => ?_
    exact (World.mem_dead.mp hd).2.2
  | deleteIOData i =>
    refine Named.doom (hN.world (fun _ => rfl) rfl rfl rfl rfl rfl) hpre fun d hd => ?_
    have hd' : d ∈ if (w.heap i).isLive then (w.deleteIOData i).2.dead (w.heap i).get.refs else [] := hd
    split_ifs at hd'
    · exact (World.mem_dead.mp hd').2.2
    · cases hd'
  | destroyed x => exact hN.destroyed hH hpre
  | writeSocket x f => exact hN.writeSocket hH hpre
  | readIoHandle x =>
    have hread := hN.readIoHandle hpre.1 hpre.2
    rw [← ioOf_eq] at hread
    exact hread
  | createThreadpoolIo x s =>
    refine hsame.symm ▸ hN.create hH hK hpre.1 hpre.2 fun h hx => ?_
    have ha' : ((w.ioOf x).all fun h => (w.tpGroup h).all fun g => !w.membersBegun g) = true := ha
    rw [hx] at ha'
    have hg : ((w.tpGroup h).all fun g => !w.membersBegun g) = true := ha'
    rw [hN.group h (hN.named x h hx).1] at hg
    exact (Bool.not_eq_true' _).mp hg
  | closeThreadpoolIo io =>
    obtain ⟨h, rfl, ho⟩ := hpre
    exact hN.close hH ho
  | overlapped req i io =>
    exact Named.rest (hN.world (fun _ => by cases w; rfl) (by cases w; rfl) (by cases w; rfl) (by cases w; rfl)
      (by cases w; rfl) (by cases w; rfl)) rfl hpre.1 hpre.1 hpre.2
  | cancelThreadpoolIo io =>
    exact Named.rest (hN.world (fun _ => by cases w; rfl) (by cases w; rfl) (by cases w; rfl) (by cases w; rfl)
      (by cases w; rfl) (by cases w; rfl)) rfl hpre.1.1 hpre.1.1 hpre.1.2
  | closeThreadpoolCleanupGroupMembers g =>
    cases g with
    | none => exact hsame.symm ▸ hN
    | some g =>
      refine hsame.symm ▸ hN.closeMembers fun x h hx hg => ?_
      have hlt : x < w.nextSock := by
        by_contra hge
        rw [World.ioOf, hH.fresh x (Nat.le_of_not_lt hge)] at hx
        cases hx
      have hall := List.all_eq_true.mp ha x (List.mem_range.mpr hlt)
      rw [hx] at hall
      simpa [hg] using hall
  | _ =>
    show Named _ (Function.update ls t (ls t))
    rw [hsame]
    cases w
    exact hN.world (fun _ => rfl) rfl rfl rfl rfl rfl

theorem Inv.ok_reply (hI : Inv w ls) (hpre : logic.pre (ls t) o) (h : ℕ) :
    .closedTpIo h ∉ (w.reply t o a).2.faults := by
  intro hf
  rcases World.mem_faults_reply hf with hf | hc
  · exact hI.ok h hf
  have hopen : (ls t).Open h → 0 < w.tpCloses h → False := by
    intro ho hpos
    rw [(hI.named.open_of hI.held ho).1] at hpos
    cases hpos
  cases o with
  | startThreadpoolIo io => exact hopen (hpre h hc.1) hc.2
  | cancelThreadpoolIo io => exact hopen (hpre.2 h hc.1) hc.2
  | waitForThreadpoolIoCallbacks io => exact hopen (hpre h hc.1) hc.2
  | closeThreadpoolIo io =>
    obtain ⟨k, rfl, ho⟩ := hpre
    cases hc.1
    exact hopen ho hc.2
  | _ => exact hc

theorem Inv.event {n : ℕ} {e : Event} {p : Option (Prog Unit)} (hI : Inv w ls)
    (hlive : ∀ i, (w.heap i).isLive = true → i < w.nextData) (he : w.event n e = some (w', p)) : Inv w' ls := by
  cases World.event_step he with
  | @complete k e c hk =>
    refine ⟨hI.held.mono (fun _ => ⟨rfl, rfl⟩) rfl rfl rfl (fun _ => id) (fun x => ?_) (fun _ => rfl) rfl,
      hI.named.world (fun _ => rfl) rfl rfl rfl rfl rfl, hI.ok⟩
    refine @World.referenced_map w (w.complete k e c) e.data x (·.fill c) rfl rfl
      (fun _ hy => World.referenced_of_userRefs hy) fun d hd y hy => ?_
    rw [refs_fill] at hy
    exact Known.referenced hlive hd y hy
  | _ =>
    exact ⟨hI.held.mono (fun _ => ⟨rfl, rfl⟩) rfl rfl rfl (fun _ => id) (fun _ => id) (fun _ => rfl) rfl,
      hI.named.world (fun _ => rfl) rfl rfl rfl rfl rfl, hI.ok⟩

/-! ### What is known of every step -/

theorem guard_release_le : Release.guard.Le guard :=
  ⟨fun _ _ _ _ h => (Bool.and_eq_true_iff.mp h).1, fun _ _ h => h⟩

theorem refs_eq {d d' : IOData} (h : d.request = d'.request) : d.refs = d'.refs := by
  have hs : d.socket = d'.socket := congrArg Request.socket h
  have ha : d.acceptSocket = d'.acceptSocket := congrArg Request.acceptSocket h
  rw [IOData.refs, IOData.refs, hs, ha]

theorem refs_start {d : IOData} (h : c.start? = some d.request) : ∀ y ∈ d.refs, y ∈ c.sockets := by
  have hrefs : ∀ {q : Request}, c.start? = some q → ∀ y ∈ q.socket :: q.acceptSocket.toList, y ∈ c.sockets := by
    intro q hq
    cases c <;> cases hq <;> exact fun _ => id
  exact hrefs h

theorem refs_args (d : IOData) : ∀ y ∈ d.args.refs, y ∈ d.refs := by
  unfold IOData.args
  split
  · exact fun _ => id
  all_goals
    intro y hy
    exact List.mem_cons.mpr (.inl (List.mem_singleton.mp hy))

theorem live_of {m : Mode} {ls : ℕ → Ownership.Local} (hI : Ownership.Inv m w ls) (i : DataId)
    (h : (w.heap i).isLive = true) : i < w.nextData := by
  obtain ⟨pl, hpl⟩ := hI.items
  by_contra hge
  have hok := hpl.ok i
  rw [(hpl.born i).mpr (Nat.le_of_not_lt hge)] at hok
  rw [show w.heap i = .unborn from congrArg Item.cell hok] at h
  cases h

/-- **What the development knows already of each step of a run.** -/
theorem known {conf : IOCoreConfig} {s : State} {k : Res o → Prog Unit}
    (h : machine.Reach guard (State.start conf) s) (ht : s.threads[t]? = some (.call o k)) : Known s.w t o := by
  obtain ⟨lr, hR⟩ := Release.proof.invariant (Release.inv_start conf) (h.mono guard_release_le)
  obtain ⟨lo, hI, hpre⟩ := (((Ownership.proof Ownership.anyMode).guard Ownership.guard_anyMode_le).holds
    (Ownership.Inv.start Ownership.anyMode conf) (h.mono (Guard.free_le _))).pre ht
  have hlive := live_of hI
  have hhas : ∀ {t i d}, (lo t).Has i d → ∀ y ∈ d.refs, s.w.referenced y = true := fun hd =>
    Known.referenced hlive (hI.live hd).1
  refine ⟨congrArg Environ.group (hR.ok.slot .io).environ, fun t n hn => ?_, hlive, ?_, ?_, ?_⟩
  · rw [show s.w.cur t = (lo t).frame.map (·.id) from hI.calls.cur t] at hn
    obtain ⟨f, hf, rfl⟩ := Option.map_eq_some_iff.mp hn
    exact (hI.calls.frame t f hf).2.1
  · rintro d rfl x hx
    obtain ⟨f, hf, -, hstart, -⟩ := hpre
    have hcur : s.w.cur t = (lo t).frame.map (·.id) := hI.calls.cur t
    rw [hf] at hcur
    exact ⟨f.id, f.call, hcur, (hI.calls.frame t f hf).1, refs_start hstart x hx⟩
  · rintro i d rfl x hx
    rcases hpre with ⟨f, d₀, hf, hs, hr, -⟩ | ⟨hf, j, cb, d₀, hj, hk, rfl, hd, -, hr, -⟩
    · exact hhas (.inl ⟨f, hf, hs⟩) x (refs_eq hr ▸ hx)
    · exact hhas (.inr ⟨hf, j, hj, by rw [hk]; rfl, hd⟩) x (refs_eq hr ▸ hx)
  · rintro i f args rfl x hx
    obtain ⟨hf, j, d, hj, hi, hd, -, -, rfl, -⟩ := hpre
    exact hhas (.inr ⟨hf, j, hj, hi, hd⟩) x (refs_args d x hx)

/-- The condition on a run, with what is known of each of its steps. -/
def knownGuard : RunGuard :=
  ⟨fun w t o a => guard.run w t o a ∧ Known w t o, fun w _ => ∀ i, (w.heap i).isLive = true → i < w.nextData⟩

theorem reach_knownGuard {conf : IOCoreConfig} {s : State} (h : machine.Reach guard (State.start conf) s) :
    machine.Reach knownGuard (State.start conf) s := by
  refine h.restrict (fun hr ht hg => ⟨hg, known hr ht⟩) fun hr _ => ?_
  obtain ⟨lo, hI⟩ := ((Ownership.proof Ownership.anyMode).guard Ownership.guard_anyMode_le).invariant
    (Ownership.Inv.start Ownership.anyMode conf) (hr.mono (Guard.free_le _))
  exact live_of hI

/-- **Each step keeps it.** -/
theorem proof : machine.Proof logic knownGuard idle Inv where
  run := by
    rintro w ls t o a hI hpre ⟨hg, hK⟩ hr
    obtain ⟨hjoins, hallowed⟩ := Bool.and_eq_true_iff.mp hg
    have hrefs := (Bool.and_eq_true_iff.mp hr).1
    refine ⟨?_, hI.held.run hpre hK hallowed hrefs, hI.named.run hI.held hpre hK hallowed, hI.ok_reply hpre⟩
    cases o with
    | enter c =>
      rintro rfl
      cases hjoins
    | _ => trivial
  env := by
    intro w ls n e w' p hI hidle hlive he
    refine ⟨idle, ?_, fun _ => rfl, fun q hq => ?_⟩
    · rw [← hidle n le_rfl, Function.update_eq_self]
      exact hI.event hlive he
    · cases hq
      refine blocks.event rfl trivial (fun k g _ => ?_) he
      exact Logic.wp_mono (Logic.Keeps.of_all (WinIOCore.ofCore_cleanupThread k g) fun _ => ofCore)
        fun _ _ _ => trivial

theorem inv_start (conf : IOCoreConfig) : Inv (World.start conf) fun _ => idle where
  held := ⟨fun _ => rfl, nofun, fun _ _ _ h => (Local.owns_idle h).elim, fun _ _ h => (Local.owns_idle (.inl h)).elim,
    fun _ _ h => (Local.owns_idle (.inr h)).elim, fun _ => List.nodup_nil, nofun, fun _ _ => rfl⟩
  named := ⟨nofun, nofun, nofun, nofun, fun _ => Nat.zero_le 1, nofun, nofun, fun _ _ => rfl⟩
  ok := nofun

end Lifetime

/-- **A TP_IO is closed once, and not used after**, in a run that meets the condition; and when `release` has
returned and there are no objects left, each is closed. -/
theorem tpIo_closed_once {conf : IOCoreConfig} {s : State} (h : machine.Reach Lifetime.guard (State.start conf) s) :
    (∀ io, s.w.tpCloses io ≤ 1) ∧ (∀ io, .closedTpIo io ∉ s.w.faults) ∧
      ∀ n r, s.w.calls n = some .releaseCore → s.w.results n = some r → (∀ x, s.w.socks x = none) →
        ∀ io < s.w.nextTp, s.w.tpCloses io = 1 := by
  obtain ⟨ls, hI⟩ := Lifetime.proof.invariant (Lifetime.inv_start conf) (Lifetime.reach_knownGuard h)
  refine ⟨hI.named.once, hI.ok, fun n r hn hr hgone io hio => ?_⟩
  obtain ⟨lr, hR⟩ := Release.proof.invariant (Release.inv_start conf) (h.mono Lifetime.guard_release_le)
  have hbegun : s.w.membersBegun 0 = true := hR.ok.begun 0 (hR.ok.returned n r hn hr .io)
  refine le_antisymm (hI.named.once io) (Nat.one_le_iff_ne_zero.mpr fun h0 => ?_)
  rcases hI.named.owned io hio h0 with hnamed | hnot
  · rw [World.ioOf, hgone] at hnamed
    cases hnamed
  · rw [hbegun] at hnot
    cases hnot

/-- The call is `release`. -/
def ApiCall.releases : ApiCall → Bool
  | .releaseCore => true
  | _ => false

theorem ApiCall.eq_of_releases {c : ApiCall} (h : c.releases = true) : c = .releaseCore := by
  cases c with
  | releaseCore => rfl
  | _ => cases h

/-- A socket is opened, its object destroyed, and the core released. -/
theorem tpIo_closed_once_destroyed : ∃ s : State, machine.Reach Lifetime.guard (State.start ⟨0, 0, 0, 0⟩) s ∧
    s.w.nextTp = 1 ∧ s.w.results 1 = some .success ∧ s.w.tpCloses 0 = 1 := by
  obtain ⟨s, hs, hp⟩ := Machine.exists_reach_of_fire (m := machine) (g := Lifetime.guard)
    (s := State.start ⟨0, 0, 0, 0⟩) (P := fun s => decide (s.w.nextTp = 1) &&
      (s.w.calls 1).any ApiCall.releases && decide (s.w.results 1 = some .success) &&
      decide (s.w.nextSock = 1) && (s.w.socks 0).isNone) Machine.allows_checks
    (l := .env (.spawn [.create, .socket 0 .ipv4 .stream .tcp, .dropRef 0, .releaseCore]) ::
      List.replicate 15 (.run 0 {}) ++ Release.untilThread 0 ++ Release.cleanup 0 1 ++
      Release.fromWait 0 .signalled ++ Release.untilThread 0 ++ Release.cleanup 1 2 ++
      Release.fromWait 0 .signalled ++ List.replicate 2 (.run 0 {})) (by decide +kernel)
  simp only [Bool.and_eq_true, decide_eq_true_eq] at hp
  obtain ⟨⟨⟨⟨htp, hcall⟩, hres⟩, hsock⟩, hgone⟩ := hp
  obtain ⟨c, hrelease, hc⟩ := (Option.any_eq_true _ _).mp hcall
  rw [ApiCall.eq_of_releases hc] at hrelease
  obtain ⟨ls, hI⟩ := Lifetime.proof.invariant (Lifetime.inv_start _) (Lifetime.reach_knownGuard hs)
  refine ⟨s, hs, htp, hres, (tpIo_closed_once hs).2.2 1 _ hrelease hres (fun x => ?_) 0 (htp ▸ Nat.one_pos)⟩
  rcases Nat.eq_zero_or_pos x with rfl | hx
  · exact Option.isNone_iff_eq_none.mp hgone
  · exact hI.held.fresh x (hsock ▸ hx)

/-- The core is released, and the socket is closed after that. -/
theorem tpIo_closed_twice : ¬ ∀ conf (s : State), machine.Reach .free (State.start conf) s →
    (∀ io, s.w.tpCloses io ≤ 1) ∧ ∀ io, .closedTpIo io ∉ s.w.faults := by
  intro h
  obtain ⟨s, hs, hp⟩ := Machine.exists_reach_of_fire (m := machine) (c := fun _ _ => true)
    (s := State.start ⟨0, 0, 0, 0⟩) (P := fun s => decide (s.w.tpCloses 0 = 2)) Machine.allows_free
    (l := .env (.spawn [.create, .socket 0 .ipv4 .stream .tcp, .releaseCore, .close 0]) ::
      List.replicate 10 (.run 0 {}) ++ Release.untilThread 0 ++ Release.cleanup 0 1 ++
      Release.fromWait 0 .signalled ++ Release.untilThread 0 ++ Release.cleanup 1 2 ++
      Release.fromWait 0 .signalled ++ List.replicate 7 (.run 0 {})) (by decide +kernel)
  have hle := (h _ s hs).1 0
  rw [of_decide_eq_true hp] at hle
  exact absurd hle (by decide)

end FirelinkNet
