import FirelinkNet.System

/-!
# What the core acquires and releases

`IOCore::create` starts Winsock and builds two thread pools; `initialize` does it
again, and `release` undoes one. The resources of a world are its `WSAStartup`s and
`WSACleanup`s and the environments, pools and cleanup groups opened and closed.

## What is proved

* `Does` — with every call of the operating system successful, each function of the
  core has one effect on the resources, and the functions compose (`Does.bind`):
  `does_initializeCore`, `does_releaseCore`.
* `coreCalls_balanced_iff` — **when the resources balance**: for a sequence of
  `initialize` and `release` after `create`, nothing is closed twice and nothing is
  left open by a `release` exactly when each `release` finds one initialization
  outstanding, that of `create` included.
* `create_error_released_iff` — **what a failed creation leaves behind**: `create`
  releases what it acquired exactly when it acquired nothing, because `WSAStartup`
  failed.
-/

namespace FirelinkNet

open Lib Prog

/-! ### Resources -/

/-- What the core has acquired and released, and its pool members. -/
structure Resources where
  /-- The successful `WSAStartup`s. -/
  startups : ℕ
  /-- The `WSACleanup`s. -/
  cleanups : ℕ
  nextPool : PoolId
  nextGroup : GroupId
  poolCloses : PoolId → ℕ
  groupCloses : GroupId → ℕ
  environOpens : PoolKind → ℕ
  environCloses : PoolKind → ℕ → ℕ
  slot : PoolKind → PoolSlot

/-- The resources of a world. -/
def World.resources (w : World) : Resources :=
  ⟨w.startups, w.cleanups, w.nextPool, w.nextGroup, w.poolCloses, w.groupCloses, w.environOpens,
    w.environCloses, w.core.slot⟩

namespace Resources

/-- The members for a pool are changed. -/
def setSlot (r : Resources) (k : PoolKind) (f : PoolSlot → PoolSlot) : Resources :=
  { r with slot := upd r.slot k (f (r.slot k)) }

/-- An environment is initialized. -/
def openEnviron (r : Resources) (k : PoolKind) : Resources :=
  { r.setSlot k fun s => { s with environ := ⟨none, none⟩ } with
    environOpens := upd r.environOpens k (r.environOpens k + 1) }

end Resources

/-! What the calls do to the resources. -/

section Calls

variable (w : World) (k : PoolKind)

@[simp] theorem WinIOCore.setSlot_slot (c : WinIOCore) (f : PoolSlot → PoolSlot) :
    (c.setSlot f k).slot = upd c.slot k (f (c.slot k)) := by
  funext k'
  cases k <;> cases k' <;> rfl

theorem setSlot_resources (f : PoolSlot → PoolSlot) :
    (w.setSlot k f).resources = w.resources.setSlot k f := by
  simp [World.resources, World.setSlot, Resources.setSlot]

theorem openEnviron_resources : (w.openEnviron k).resources = w.resources.openEnviron k := by
  simp [World.resources, World.openEnviron, World.setSlot, Resources.openEnviron, Resources.setSlot]

theorem setEnvironGroup_resources (g : GroupId) : (w.setEnvironGroup k g).resources =
    w.resources.setSlot k fun s => { s with environ := { s.environ with group := some g } } := by
  simp [World.resources, World.setEnvironGroup, World.setSlot, Resources.setSlot]

@[simp] theorem openPool_resources : (w.openPool true).resources =
    { w.resources with nextPool := w.resources.nextPool + 1 } := rfl

@[simp] theorem openGroup_resources : (w.openGroup true).resources =
    { w.resources with nextGroup := w.resources.nextGroup + 1 } := rfl

@[simp] theorem startup_resources : (w.startup true).resources =
    { w.resources with startups := w.resources.startups + 1 } := rfl

@[simp] theorem cleanup_resources : w.cleanup.resources =
    { w.resources with cleanups := w.resources.cleanups + 1 } := rfl

@[simp] theorem openHandle_resources (named ok : Bool) :
    (w.openHandle named ok).resources = w.resources := rfl

@[simp] theorem closeHandle_resources (s : NativeHandle) (ok : Bool) :
    (w.closeHandle s ok).resources = w.resources := rfl

@[simp] theorem setExtFn_resources (fn : ExtFn) (ok : Bool) :
    (w.setExtFn fn ok).resources = w.resources := rfl

@[simp] theorem createThread_resources (t : ℕ) (g : Option GroupId) (e : Option OsError) :
    (w.createThread t g e).resources = w.resources := rfl

@[simp] theorem waitThread_resources (t : ℕ) (r : WaitResult) :
    (w.waitThread t r).resources = w.resources := rfl

@[simp] theorem leaveError_resources (t : ℕ) (e : Option Int32) :
    (w.leaveError t e).resources = w.resources := rfl

end Calls

namespace Resources

/-- A thread pool is built in the members for `k`. -/
def openPool (r : Resources) (k : PoolKind) : Resources :=
  { r with
    nextPool := r.nextPool + 1
    nextGroup := r.nextGroup + 1
    environOpens := upd r.environOpens k (r.environOpens k + 1)
    slot := upd r.slot k ⟨⟨some r.nextPool, some r.nextGroup⟩, some r.nextGroup, some r.nextPool,
      .createCleanupGroup⟩ }

/-- The environment is destroyed. -/
def closeEnviron (r : Resources) (k : PoolKind) : Resources :=
  { r with
    environCloses := upd r.environCloses k (bump (r.environCloses k) (some (r.environOpens k)))
    slot := upd r.slot k { r.slot k with rollback := .none } }

/-- The pool is closed, and the environment is destroyed. -/
def closePool (r : Resources) (k : PoolKind) : Resources :=
  { r with poolCloses := bump r.poolCloses (r.slot k).threadpool }.closeEnviron k

/-- The cleanup group and the pool are closed, and the environment is destroyed. -/
def closeGroup (r : Resources) (k : PoolKind) : Resources :=
  { r with groupCloses := bump r.groupCloses (r.slot k).cleanupGroup }.closePool k

/-- What the rollback tag names is closed. -/
def release (r : Resources) (k : PoolKind) : Resources :=
  match (r.slot k).rollback with
  | .createCleanupGroup => r.closeGroup k
  | .createThreadpool => r.closePool k
  | .initEnviron => r.closeEnviron k
  | .none => r

/-- The core is initialized. -/
def initialized (r : Resources) : Resources :=
  ({ r with startups := r.startups + 1 }.openPool .io).openPool .user

/-- The core is released. -/
def released (r : Resources) : Resources :=
  let r := (r.release .user).release .io
  { r with cleanups := r.cleanups + 1 }

end Resources

/-! ### With every call successful -/

/-- The answer lets a call of the operating system succeed. -/
def Ans.ok (a : Ans) : Bool :=
  a.error.isNone && a.version == WinIOCore.winsockVersionRequested && a.wait matches .signalled

/-- The host on which every call of the operating system succeeds. -/
def okHost : Host Op Res World Ans := ⟨fun _ _ _ a => a.ok, World.reply⟩

theorem always_okHost {α : Type} {t : ℕ} {o : Op} {k : Res o → Prog α} {Q : α → World → Prop}
    {w : World} : (Lib.Prog.call o k).Always okHost t Q w ↔
      ∀ x : Ans, x.error = none → x.version = WinIOCore.winsockVersionRequested →
        x.wait = .signalled → (k (w.reply t o x).1).Always okHost t Q (w.reply t o x).2 := by
  have h : ∀ x : Ans, x.ok = true ↔ x.error = none ∧
      x.version = WinIOCore.winsockVersionRequested ∧ x.wait = .signalled := by
    intro x
    cases hw : x.wait <;> simp [Ans.ok, hw]
  simp only [always_call, okHost, h, and_imp]

/-- With every call of the operating system successful, `p` gives `a` and takes the resources
from `r` to `r'`. -/
def Does {α : Type} (r : Resources) (p : Prog α) (a : α) (r' : Resources) : Prop :=
  ∀ w : World, w.resources = r →
    p.Always okHost 0 (fun b w' => b = a ∧ w'.resources = r') w

namespace Does

theorem bind {α β : Type} {r r₁ r₂ : Resources} {p : Prog α} {f : α → Prog β} {a : α} {b : β}
    (hp : Does r p a r₁) (hf : Does r₁ (f a) b r₂) : Does r (p >>= f) b r₂ := by
  intro w hw
  refine always_bind.mpr ((hp w hw).mono ?_)
  rintro _ w₁ ⟨rfl, h₁⟩
  exact hf w₁ h₁

theorem pure {α : Type} (r : Resources) (a : α) : Does r (Pure.pure a : Prog α) a r :=
  fun _ hw => ⟨rfl, hw⟩

theorem op {r r' : Resources} {o : Op} {a : Res o}
    (h : ∀ (w : World) (x : Ans), x.error = none → w.resources = r →
      (w.reply 0 o x).1 = a ∧ (w.reply 0 o x).2.resources = r') : Does r (FirelinkNet.op o) a r' :=
  fun w hw => always_okHost.mpr fun x hx _ _ => h w x hx hw

theorem of_eq {α : Type} {r r₁ r₂ : Resources} {p : Prog α} {a : α} (h : Does r p a r₁)
    (he : r₁ = r₂) : Does r p a r₂ := he ▸ h

/-- The check of a code that is `Success`. -/
theorem of_success {r r' : Resources} {p q : Prog ErrorCode} {a : ErrorCode} (h : Does r q a r') :
    Does r (if ErrorCode.success ≠ ErrorCode.success then p else q) a r' := by
  rwa [if_neg (not_not_intro rfl)]

theorem eval {α : Type} {r r' : Resources} {p : Prog α} {a b : α} {w w' : World} {xs : List Ans}
    (h : Does r p a r') (hw : w.resources = r) (he : p.eval okHost 0 w xs = some (b, w')) :
    b = a ∧ w'.resources = r' := always_iff_eval.mp (h w hw) xs b w' he

end Does

/-! ### The effect of each function -/

theorem does_writeSlot (r : Resources) (k : PoolKind) (f : PoolSlot → PoolSlot) :
    Does r (op (.writeSlot k f)) () (r.setSlot k f) :=
  .op fun w x _ hw => ⟨rfl, by subst hw; exact setSlot_resources w k f⟩

theorem does_exchangeStop (r : Resources) (v : Bool) : Does r (op (.exchangeStop v)) () r := by
  refine .op fun w x _ hw => ⟨rfl, ?_⟩
  have h : (w.reply 0 (.exchangeStop v) x).2.core.slot = w.core.slot := by
    funext k
    cases k <;> rfl
  rw [← hw]
  simp only [World.resources, h]
  rfl

theorem does_closeThreadpool (r : Resources) (p : Option PoolId) :
    Does r (op (.closeThreadpool p)) () { r with poolCloses := bump r.poolCloses p } :=
  .op fun w x _ hw => ⟨rfl, by rw [← hw]; rfl⟩

theorem does_closeThreadpoolCleanupGroup (r : Resources) (g : Option GroupId) :
    Does r (op (.closeThreadpoolCleanupGroup g)) () { r with groupCloses := bump r.groupCloses g } :=
  .op fun w x _ hw => ⟨rfl, by rw [← hw]; rfl⟩

theorem does_createThreadpool (r : Resources) :
    Does r (op .createThreadpool) (.ok r.nextPool) { r with nextPool := r.nextPool + 1 } := by
  refine .op fun w x hx hw => ?_
  subst hw
  constructor
  · show World.result x w.nextPool = .ok w.nextPool
    rw [World.result, hx]
  · show (w.openPool x.error.isNone).resources = _
    rw [hx]
    rfl

theorem does_createThreadpoolCleanupGroup (r : Resources) :
    Does r (op .createThreadpoolCleanupGroup) (.ok r.nextGroup)
      { r with nextGroup := r.nextGroup + 1 } := by
  refine .op fun w x hx hw => ?_
  subst hw
  constructor
  · show World.result x w.nextGroup = .ok w.nextGroup
    rw [World.result, hx]
  · show (w.openGroup x.error.isNone).resources = _
    rw [hx]
    rfl

theorem does_initializeThreadpool (threadsMin threadsMax : UInt32) (k : PoolKind) (r : Resources) :
    Does r (WinIOCore.initializeThreadpool threadsMin threadsMax k) .success (r.openPool k) := by
  have henv : ∀ r, Does r (op (.initializeThreadpoolEnvironment k)) () (r.openEnviron k) := fun r =>
    .op fun w x _ hw => ⟨rfl, by subst hw; exact openEnviron_resources w k⟩
  have hmax : ∀ r p n, Does r (op (.setThreadpoolThreadMaximum p n)) () r := fun r p n =>
    .op fun w x _ hw => ⟨rfl, hw⟩
  have hmin : ∀ r p n, Does r (op (.setThreadpoolThreadMinimum p n)) (.ok ()) r := fun r p n =>
    .op fun w x hx hw => ⟨by show World.result x () = .ok (); rw [World.result, hx], hw⟩
  have hpool : ∀ r p, Does r (op (.setThreadpoolCallbackPool k p)) ()
      (r.setSlot k fun s => { s with environ := { s.environ with pool := some p } }) :=
    fun r p => .op fun w x _ hw => ⟨rfl, by subst hw; exact setSlot_resources w k _⟩
  have hgroup : ∀ r g, Does r (op (.setThreadpoolCallbackCleanupGroup k g)) ()
      (r.setSlot k fun s => { s with environ := { s.environ with group := some g } }) :=
    fun r g => .op fun w x _ hw => ⟨rfl, by subst hw; exact setEnvironGroup_resources w k g⟩
  refine .of_eq (.bind (henv r) <| .bind (does_writeSlot _ _ _) <|
    .bind (does_createThreadpool _) <| .bind (does_writeSlot _ _ _) <| .bind (hmax _ _ _) <|
    .bind (hmin _ _ _) <| .bind (does_createThreadpoolCleanupGroup _) <|
    .bind (does_writeSlot _ _ _) <| .bind (hpool _ _) <| .bind (hgroup _ _) (.pure _ _)) ?_
  simp [Resources.openPool, Resources.openEnviron, Resources.setSlot]

theorem does_lookupExtFn (s : NativeHandle) (fn : ExtFn) (r : Resources) :
    Does r (WinIOCore.lookupExtFn s fn) none r := by
  rintro w rfl
  cases h : w.extFns fn <;>
    simp +contextual [-always_call, WinIOCore.lookupExtFn, always_okHost, World.reply,
      World.result, h]

theorem does_lookupExtFns (s : NativeHandle) (fns : List ExtFn) (r : Resources) :
    Does r (WinIOCore.lookupExtFns s fns) none r := by
  induction fns with
  | nil => exact .pure r none
  | cons fn fns ih => exact .bind (does_lookupExtFn s fn r) ih

theorem does_getExtendedSocketFunctions (r : Resources) :
    Does r WinIOCore.getExtendedSocketFunctions .success r := by
  rintro w rfl
  rw [WinIOCore.getExtendedSocketFunctions, op_bind, always_okHost]
  intro x hx _ _
  simp only [World.reply, World.result, hx]
  refine Does.bind (does_lookupExtFns _ _ _) ?_ _ rfl
  intro w₁ h₁
  simp +contextual [-always_call, always_okHost, World.reply, World.result, h₁]

theorem does_initializeCore (r : Resources) :
    Does r WinIOCore.initializeCore .success r.initialized := by
  rintro w rfl
  rw [WinIOCore.initializeCore, op_bind, always_okHost]
  intro x hx hv _
  simp only [World.reply, World.result, hx, hv]
  refine Does.bind (does_getExtendedSocketFunctions { w.resources with startups := w.startups + 1 })
    (.of_success ?_) _ rfl
  intro w₁ h₁
  rw [op_bind, always_okHost]
  intro y _ _ _
  exact Does.bind (does_initializeThreadpool _ _ .io _) (.of_success
    (.bind (does_initializeThreadpool _ _ .user _) (.of_success
      (.bind (does_exchangeStop _ _) (.pure _ _))))) _ h₁

theorem does_releaseEnviron (k : PoolKind) (r : Resources) :
    Does r (WinIOCore.releaseEnviron k) () (r.closeEnviron k) := by
  have h : Does r (op (.destroyThreadpoolEnvironment k)) () { r with
      environCloses := upd r.environCloses k
        (bump (r.environCloses k) (some (r.environOpens k))) } :=
    .op fun w x _ hw => ⟨rfl, by subst hw; rfl⟩
  exact .bind h (does_writeSlot _ _ _)

theorem does_releasePool (k : PoolKind) (r : Resources) :
    Does r (WinIOCore.releasePool k (r.slot k).threadpool) () (r.closePool k) := by
  refine .of_eq (.bind (does_closeThreadpool _ _) <| .bind (does_writeSlot _ _ _)
    (does_releaseEnviron k _)) ?_
  simp [Resources.closePool, Resources.closeEnviron, Resources.setSlot]

theorem does_joinCleanupThread (ms : UInt32) (g : Option GroupId) (r : Resources) :
    Does r (WinIOCore.joinCleanupThread ms g) .success r := by
  rintro w rfl
  simp +contextual [-always_call, WinIOCore.joinCleanupThread, always_okHost, World.reply,
    World.result]

theorem does_releaseGroup (ms : UInt32) (k : PoolKind) (r : Resources) :
    Does r (WinIOCore.releaseGroup ms k (r.slot k).cleanupGroup (r.slot k).threadpool) .success
      (r.closeGroup k) := by
  have hpool := does_releasePool k
    ({ r with groupCloses := bump r.groupCloses (r.slot k).cleanupGroup }.setSlot k fun s =>
      { s with rollback := .createThreadpool })
  simp only [Resources.setSlot, Function.update_self] at hpool
  refine .of_eq (.bind (does_joinCleanupThread _ _ _) <| .bind (does_closeThreadpoolCleanupGroup _ _) <|
    .bind (does_writeSlot _ _ _) <| .bind hpool (.pure _ _)) ?_
  simp [Resources.closeGroup, Resources.closePool, Resources.closeEnviron]

/-- The end of `release_threadpool`: the tag is `None` already. -/
theorem does_resetRollback {k : PoolKind} {r : Resources} (e : ErrorCode)
    (h : (r.slot k).rollback = .none) :
    Does r (do op (.writeSlot k fun s => { s with rollback := .none }); return e) e r := by
  have hs : r.setSlot k (fun s => { s with rollback := .none }) = r := by
    simp only [Resources.setSlot, ← h, Function.update_eq_self]
  exact .bind (.of_eq (does_writeSlot r k _) hs) (.pure _ _)

@[simp] theorem Resources.closeEnviron_rollback (r : Resources) (k : PoolKind) :
    ((r.closeEnviron k).slot k).rollback = .none := by simp [closeEnviron]

theorem does_releaseThreadpool (ms : UInt32) (k : PoolKind) (r : Resources) :
    Does r (WinIOCore.releaseThreadpool ms k (r.slot k).cleanupGroup (r.slot k).threadpool) .success
      (r.release k) := by
  rintro w rfl
  rw [WinIOCore.releaseThreadpool, op_bind, always_okHost]
  intro x _ _ _
  have hrb : (w.core.slot k).rollback = (w.resources.slot k).rollback := rfl
  simp only [World.reply, hrb, Resources.release]
  cases h : (w.resources.slot k).rollback with
  | none => exact does_resetRollback _ h w rfl
  | initEnviron =>
    exact Does.bind (does_releaseEnviron _ _) (does_resetRollback _ (by simp)) w rfl
  | createThreadpool =>
    exact Does.bind (does_releasePool _ _)
      (does_resetRollback _ (by simp [Resources.closePool])) w rfl
  | createCleanupGroup =>
    exact Does.bind (does_releaseGroup _ _ _)
      (does_resetRollback _ (by simp [Resources.closeGroup, Resources.closePool])) w rfl

theorem does_releaseCore (r : Resources) :
    Does r WinIOCore.releaseCore .success r.released := by
  rintro w rfl
  rw [WinIOCore.releaseCore, op_bind, always_okHost]
  intro x _ _ _
  have hread : (w.reply 0 .readCore x).1.user = w.resources.slot .user := rfl
  rw [hread]
  refine Does.bind (does_releaseThreadpool _ .user _) (.of_success ?_) w rfl
  intro w₁ h₁
  rw [op_bind, always_okHost]
  intro y _ _ _
  have h₂ : w₁.core.io = (w.resources.release .user).slot .io := by rw [← h₁]; rfl
  simp only [World.reply, h₂]
  refine Does.bind (does_releaseThreadpool _ .io _) (.of_success ?_) w₁ h₁
  intro w₂ h₃
  simp +contextual [-always_call, always_okHost, World.reply, World.result, Resources.released, ← h₃]

/-! ### Sequences of calls -/

/-- A call that changes what the core has acquired. -/
inductive CoreCall where
  /-- `IOCore::initialize`. -/
  | initializeCore
  /-- `IOCore::release`. -/
  | releaseCore
  deriving DecidableEq, Repr

namespace CoreCall

/-- The call, as a program. -/
def run : CoreCall → Prog ErrorCode
  | .initializeCore => WinIOCore.initializeCore
  | .releaseCore => WinIOCore.releaseCore

/-- Its effect on the resources. -/
def act (r : Resources) : CoreCall → Resources
  | .initializeCore => r.initialized
  | .releaseCore => r.released

theorem does_run (c : CoreCall) (r : Resources) : Does r c.run .success (c.act r) := by
  cases c with
  | initializeCore => exact does_initializeCore r
  | releaseCore => exact does_releaseCore r

end CoreCall

/-- After `create` and the calls `cs`, the last of which returned `e`, with every call of the
operating system successful, the world may be `w`. -/
inductive CoreReach (conf : IOCoreConfig) : List CoreCall → ErrorCode → World → Prop where
  /-- `create` has returned. -/
  | create {xs : List Ans} {e : ErrorCode} {w : World} :
      (WinIOCore.create conf).eval okHost 0 .blank xs = some (e, w) → CoreReach conf [] e w
  /-- One more call has returned. -/
  | call {cs : List CoreCall} {c : CoreCall} {xs : List Ans} {e e' : ErrorCode} {w w' : World} :
      CoreReach conf cs e w → c.run.eval okHost 0 w xs = some (e', w') →
        CoreReach conf (cs ++ [c]) e' w'

/-- The resources after `create`. -/
def Resources.created : Resources := World.blank.resources.initialized

/-- The resources after `create` and the calls `cs`. -/
def Resources.after (cs : List CoreCall) : Resources := cs.foldl CoreCall.act .created

theorem Resources.initialized_eq_of_slot {r r' : Resources} (h : { r with slot := r'.slot } = r') :
    r.initialized = r'.initialized := by
  rw [← h]
  simp only [initialized, openPool, mk.injEq, true_and]
  funext k
  cases k <;> simp [upd]

theorem does_create (conf : IOCoreConfig) :
    Does World.blank.resources (WinIOCore.create conf) .success .created := by
  intro w hw
  rw [WinIOCore.create, op_bind, always_okHost]
  intro x _ _ _
  have h : (w.reply 0 (.makeCore conf) x).2.resources.initialized = .created := by
    refine Resources.initialized_eq_of_slot ?_
    rw [← hw]
    rfl
  refine Does.bind (does_initializeCore _) ?_ _ rfl
  rw [h]
  exact .of_success (.pure _ _)

/-- Every call returns `Success`, and what it has acquired and released depends on the calls
alone. -/
theorem CoreReach.resources {conf : IOCoreConfig} {cs : List CoreCall} {e : ErrorCode} {w : World}
    (h : CoreReach conf cs e w) : e = .success ∧ w.resources = .after cs := by
  induction h with
  | create he => exact (does_create conf).eval rfl he
  | @call cs c xs e e' w w' _ he ih =>
    obtain ⟨rfl, hr⟩ := (c.does_run w.resources).eval rfl he
    refine ⟨rfl, ?_⟩
    rw [hr, ih.2, Resources.after, Resources.after, List.foldl_append]
    rfl

theorem exists_coreReach (conf : IOCoreConfig) (cs : List CoreCall) :
    ∃ e w, CoreReach conf cs e w := by
  have hok : ∀ w o, okHost.ready w 0 o {} = true := fun _ _ => rfl
  induction cs using List.reverseRecOn with
  | nil =>
    obtain ⟨xs, e, w, he⟩ := exists_eval hok (WinIOCore.create conf) .blank
    exact ⟨e, w, .create he⟩
  | append_singleton cs c ih =>
    obtain ⟨e, w, hw⟩ := ih
    obtain ⟨xs, e', w', he⟩ := exists_eval hok c.run w
    exact ⟨e', w', .call hw he⟩

@[simp] theorem Resources.release_startups (r : Resources) (k : PoolKind) :
    (r.release k).startups = r.startups := by
  unfold release
  split <;> rfl

@[simp] theorem Resources.release_cleanups (r : Resources) (k : PoolKind) :
    (r.release k).cleanups = r.cleanups := by
  unfold release
  split <;> rfl

theorem Resources.after_startups (cs : List CoreCall) :
    (after cs).startups = cs.count .initializeCore + 1 := by
  induction cs using List.reverseRecOn with
  | nil => rfl
  | append_singleton cs c ih =>
    rw [after, List.foldl_append, ← after]
    cases c <;> simp [CoreCall.act, initialized, released, openPool, ih]

theorem Resources.after_cleanups (cs : List CoreCall) :
    (after cs).cleanups = cs.count .releaseCore := by
  induction cs using List.reverseRecOn with
  | nil => rfl
  | append_singleton cs c ih =>
    rw [after, List.foldl_append, ← after]
    cases c <;> simp [CoreCall.act, initialized, released, openPool, ih]

/-! ### Balance -/

/-- Nothing was closed twice. -/
structure Balanced (w : World) : Prop where
  cleanups_le : w.cleanups ≤ w.startups
  pool_le : ∀ p, w.poolCloses p ≤ 1
  group_le : ∀ g, w.groupCloses g ≤ 1
  environ_le : ∀ k j, w.environCloses k j ≤ 1

/-- Everything was closed. -/
structure AllClosed (w : World) : Prop where
  cleanups_eq : w.cleanups = w.startups
  pool_eq : ∀ p < w.nextPool, w.poolCloses p = 1
  group_eq : ∀ g < w.nextGroup, w.groupCloses g = 1

/-- In every state that the calls `cs` and those before them lead to, nothing was closed twice,
and when the last call is a `release` that returned `Success`, everything was closed. -/
def BalancedCalls (conf : IOCoreConfig) (cs : List CoreCall) : Prop :=
  ∀ cs' e w, cs' <+: cs → CoreReach conf cs' e w →
    Balanced w ∧ (cs'.getLast? = some .releaseCore → e = .success → AllClosed w)

/-- Each `release` finds one initialization outstanding: after `create`, as many `initialize`s
as `release`s came before it. -/
def OneOutstanding (cs : List CoreCall) : Prop :=
  ∀ cs', cs' ++ [.releaseCore] <+: cs → cs'.count .initializeCore = cs'.count .releaseCore

theorem BalancedCalls.oneOutstanding {conf : IOCoreConfig} {cs : List CoreCall}
    (h : BalancedCalls conf cs) : OneOutstanding cs := by
  intro cs' hp
  obtain ⟨e, w, hw⟩ := exists_coreReach conf (cs' ++ [.releaseCore])
  obtain ⟨rfl, hr⟩ := hw.resources
  have hc : w.resources.cleanups = w.resources.startups :=
    ((h _ _ _ hp hw).2 (by simp) rfl).cleanups_eq
  rw [hr, Resources.after_startups, Resources.after_cleanups] at hc
  simp at hc
  omega

/-- The pool members for `k` hold a pool, a group and an environment that were not closed. -/
structure Resources.Opened (r : Resources) (k : PoolKind) (p : PoolId) (g : GroupId) : Prop where
  slot_eq : r.slot k = ⟨⟨some p, some g⟩, some g, some p, .createCleanupGroup⟩
  pool_lt : p < r.nextPool
  group_lt : g < r.nextGroup
  pool_open : r.poolCloses p = 0
  group_open : r.groupCloses g = 0
  environ_open : r.environCloses k (r.environOpens k) = 0

/-- What holds while `n` initializations are outstanding. -/
structure Resources.Inv (r : Resources) (n : ℕ) : Prop where
  outstanding : r.startups = r.cleanups + n
  pool_le : ∀ p, r.poolCloses p ≤ 1
  group_le : ∀ g, r.groupCloses g ≤ 1
  environ_le : ∀ k j, r.environCloses k j ≤ 1
  pool_fresh : ∀ p, r.nextPool ≤ p → r.poolCloses p = 0
  group_fresh : ∀ g, r.nextGroup ≤ g → r.groupCloses g = 0
  environ_fresh : ∀ k j, r.environOpens k < j → r.environCloses k j = 0
  /-- Nothing is outstanding: all is closed. -/
  none_open : n = 0 → (∀ p < r.nextPool, r.poolCloses p = 1) ∧ ∀ g < r.nextGroup, r.groupCloses g = 1
  /-- One is outstanding: all is closed but what the members hold. -/
  one_open : n = 1 → ∃ p g p' g', r.Opened .io p g ∧ r.Opened .user p' g' ∧ p ≠ p' ∧ g ≠ g' ∧
    (∀ q < r.nextPool, q ≠ p → q ≠ p' → r.poolCloses q = 1) ∧
    ∀ q < r.nextGroup, q ≠ g → q ≠ g' → r.groupCloses q = 1

theorem Resources.Inv.initialized {r : Resources} {n : ℕ} (h : r.Inv n) :
    r.initialized.Inv (n + 1) where
  outstanding := by
    have := h.outstanding
    simp only [Resources.initialized, openPool]
    omega
  pool_le := h.pool_le
  group_le := h.group_le
  environ_le := h.environ_le
  pool_fresh p hp := h.pool_fresh p (by simp only [Resources.initialized, openPool] at hp; lia)
  group_fresh g hg := h.group_fresh g (by simp only [Resources.initialized, openPool] at hg; lia)
  environ_fresh k j hj := h.environ_fresh k j (by
    cases k <;> simp [Resources.initialized, openPool, upd, Function.update] at hj <;> omega)
  none_open hn := by omega
  one_open hn := by
    obtain rfl : n = 0 := by omega
    obtain ⟨hp, hg⟩ := h.none_open rfl
    refine ⟨r.nextPool, r.nextGroup, r.nextPool + 1, r.nextGroup + 1, ?_, ?_, by lia, by lia,
      fun q hq h₁ h₂ => hp q ?_, fun q hq h₁ h₂ => hg q ?_⟩
    · have hlt : ∀ k : ℕ, k < k + 1 + 1 := fun k => by omega
      refine ⟨rfl, ?_, ?_, h.pool_fresh _ le_rfl, h.group_fresh _ le_rfl, h.environ_fresh _ _ ?_⟩ <;>
        simp [Resources.initialized, openPool, upd, hlt]
    · refine ⟨rfl, ?_, ?_, h.pool_fresh _ (by lia), h.group_fresh _ (by lia),
        h.environ_fresh _ _ ?_⟩ <;> simp [Resources.initialized, openPool, upd]
    all_goals
      simp only [Resources.initialized, openPool] at hq
      lia

theorem Resources.Inv.released {r : Resources} (h : r.Inv 1) : r.released.Inv 0 := by
  obtain ⟨p, g, p', g', ho, hu, hp, hg, hpools, hgroups⟩ := h.one_open rfl
  have hr : r.released = { r with
      cleanups := r.cleanups + 1
      groupCloses := bump (bump r.groupCloses (some g')) (some g)
      poolCloses := bump (bump r.poolCloses (some p')) (some p)
      environCloses := fun k => bump (r.environCloses k) (some (r.environOpens k))
      slot := fun k => { r.slot k with rollback := .none } } := by
    simp only [Resources.released, release, closeGroup, closePool, closeEnviron, upd,
      Function.update_of_ne (show PoolKind.io ≠ .user by decide), ho.slot_eq, hu.slot_eq, mk.injEq,
      true_and]
    constructor <;> funext k <;> cases k <;> simp [ho.slot_eq, hu.slot_eq]
  rw [hr]
  have hpu : ∀ q, bump (bump r.poolCloses (some p')) (some p) q =
      if q = p ∨ q = p' then 1 else r.poolCloses q := by
    intro q
    have h₁ := ho.pool_open
    have h₂ := hu.pool_open
    simp only [bump, upd, Function.update_apply]
    grind
  have hgu : ∀ q, bump (bump r.groupCloses (some g')) (some g) q =
      if q = g ∨ q = g' then 1 else r.groupCloses q := by
    intro q
    have h₁ := ho.group_open
    have h₂ := hu.group_open
    simp only [bump, upd, Function.update_apply]
    grind
  have heu : ∀ k j, bump (r.environCloses k) (some (r.environOpens k)) j =
      if j = r.environOpens k then 1 else r.environCloses k j := by
    intro k j
    have h₁ : r.environCloses k (r.environOpens k) = 0 := by
      cases k with
      | io => exact ho.environ_open
      | user => exact hu.environ_open
    simp only [bump, upd, Function.update_apply]
    grind
  refine ⟨h.outstanding, fun q => ?_, fun q => ?_, fun k j => ?_, fun q hq => ?_, fun q hq => ?_,
    fun k j hj => ?_, fun _ => ⟨fun q hq => ?_, fun q hq => ?_⟩, fun hn => by omega⟩
  · have := h.pool_le q
    grind
  · have := h.group_le q
    grind
  · have := h.environ_le k j
    grind
  · have := h.pool_fresh q hq
    have := ho.pool_lt
    have := hu.pool_lt
    grind
  · have := h.group_fresh q hq
    have := ho.group_lt
    have := hu.group_lt
    grind
  · have := h.environ_fresh k j hj
    grind
  · have := hpools q hq
    grind
  · have := hgroups q hq
    grind

theorem Resources.inv_created : created.Inv 1 := by
  have h : World.blank.resources.Inv 0 := by
    constructor <;> simp [World.resources, World.blank]
  exact h.initialized

theorem OneOutstanding.inv {cs : List CoreCall} (h : OneOutstanding cs) :
    ∃ n, (Resources.after cs).Inv n ∧ (cs.getLast? = some .releaseCore → n = 0) := by
  induction cs using List.reverseRecOn with
  | nil => exact ⟨1, Resources.inv_created, by simp⟩
  | append_singleton cs c ih =>
    obtain ⟨n, hn, -⟩ := ih fun cs' hp => h cs' (hp.trans (List.prefix_append _ _))
    rw [Resources.after, List.foldl_append, ← Resources.after]
    cases c with
    | initializeCore => exact ⟨n + 1, hn.initialized, by simp⟩
    | releaseCore =>
      have hc := h cs (List.prefix_refl _)
      have hs := hn.outstanding
      rw [Resources.after_startups, Resources.after_cleanups] at hs
      obtain rfl : n = 1 := by omega
      exact ⟨0, hn.released, by simp⟩

theorem OneOutstanding.balancedCalls {conf : IOCoreConfig} {cs : List CoreCall}
    (h : OneOutstanding cs) : BalancedCalls conf cs := by
  intro cs' e w hp hw
  obtain ⟨-, hr⟩ := hw.resources
  obtain ⟨n, hn, hlast⟩ := OneOutstanding.inv fun cs'' hp' => h cs'' (hp'.trans hp)
  rw [← hr] at hn
  refine ⟨⟨?_, hn.pool_le, hn.group_le, hn.environ_le⟩, fun hl _ => ?_⟩
  · have : w.startups = w.cleanups + n := hn.outstanding
    omega
  · obtain rfl := hlast hl
    exact ⟨hn.outstanding.symm, (hn.none_open rfl).1, (hn.none_open rfl).2⟩

/-- **When the resources balance.** -/
theorem coreCalls_balanced_iff (conf : IOCoreConfig) (cs : List CoreCall) :
    BalancedCalls conf cs ↔ OneOutstanding cs :=
  ⟨BalancedCalls.oneOutstanding, OneOutstanding.balancedCalls⟩

/-- The example programs call `initialize` again after `create`, and `release` once. -/
theorem not_balancedCalls_initialize_release :
    ¬ ∀ conf cs, BalancedCalls conf cs := by
  intro h
  have ho := (h ⟨0, 0, 0, 0⟩ [.initializeCore, .releaseCore]).oneOutstanding [.initializeCore]
    (List.prefix_refl _)
  exact absurd ho (by decide)

/-! ### A creation that fails -/

/-- What was acquired between `w₀` and `w` was released again. -/
structure Released (w₀ w : World) : Prop where
  winsock : w.startups + w₀.cleanups = w.cleanups + w₀.startups
  socket : ∀ h, w₀.nextHandle ≤ h → h < w.nextHandle → w₀.sockCloses h < w.sockCloses h
  pool : ∀ p, w₀.nextPool ≤ p → p < w.nextPool → w₀.poolCloses p < w.poolCloses p
  group : ∀ g, w₀.nextGroup ≤ g → g < w.nextGroup → w₀.groupCloses g < w.groupCloses g

/-- The call neither starts nor cleans up Winsock. -/
def Op.NotWinsock : Op → Prop
  | .wsaStartup _ | .wsaCleanup => False
  | _ => True

theorem reply_winsock {w : World} {t : ℕ} {o : Op} {x : Ans} (ho : o.NotWinsock) :
    (w.reply t o x).2.startups = w.startups ∧ (w.reply t o x).2.cleanups = w.cleanups := by
  cases o with
  | wsaStartup v => exact ho.elim
  | wsaCleanup => exact ho.elim
  | closeThreadpoolCleanupGroupMembers g => cases g <;> exact ⟨rfl, rfl⟩
  | _ => exact ⟨rfl, rfl⟩

theorem notWinsock_initializeThreadpool (threadsMin threadsMax : UInt32) (k : PoolKind) :
    (WinIOCore.initializeThreadpool threadsMin threadsMax k).All Op.NotWinsock := by
  refine ⟨trivial, fun _ => ⟨trivial, fun _ => ⟨trivial, fun r => ?_⟩⟩⟩
  rcases r with e | p
  · exact ⟨trivial, fun _ => trivial⟩
  refine ⟨trivial, fun _ => ⟨trivial, fun _ => ⟨trivial, fun r => ?_⟩⟩⟩
  rcases r with e | _
  · exact trivial
  refine ⟨trivial, fun r => ?_⟩
  rcases r with e | g
  · exact ⟨trivial, fun _ => trivial⟩
  · exact ⟨trivial, fun _ => ⟨trivial, fun _ => ⟨trivial, fun _ => trivial⟩⟩⟩

theorem notWinsock_lookupExtFn (s : NativeHandle) (fn : ExtFn) :
    (WinIOCore.lookupExtFn s fn).All Op.NotWinsock := by
  refine ⟨trivial, fun r => ?_⟩
  cases r with
  | true => exact trivial
  | false =>
    refine ⟨trivial, fun r => ?_⟩
    rcases r with e | _
    · exact ⟨trivial, fun _ => trivial⟩
    · exact trivial

theorem notWinsock_lookupExtFns (s : NativeHandle) (fns : List ExtFn) :
    (WinIOCore.lookupExtFns s fns).All Op.NotWinsock := by
  induction fns with
  | nil => exact trivial
  | cons fn fns ih =>
    refine (notWinsock_lookupExtFn s fn).bind fun r => ?_
    cases r with
    | some e => exact trivial
    | none => exact ih

theorem notWinsock_getExtendedSocketFunctions :
    WinIOCore.getExtendedSocketFunctions.All Op.NotWinsock := by
  refine ⟨trivial, fun r => ?_⟩
  rcases r with e | s
  · exact trivial
  refine (notWinsock_lookupExtFns _ _).bind fun r => ?_
  cases r with
  | some e => exact trivial
  | none =>
    refine ⟨trivial, fun r => ?_⟩
    rcases r with e | _ <;> exact trivial

/-- `create` makes two calls, the second of which is `WSAStartup`, and goes on with its reply. -/
theorem create_eq (conf : IOCoreConfig) : ∃ k, WinIOCore.create conf =
      .call (.makeCore conf) (fun _ => .call (.wsaStartup WinIOCore.winsockVersionRequested) k) ∧
    (∀ e, k (.error e) = .call .destroyCore fun _ => .ret e.toErrorCode) ∧
    ∀ v, (k (.ok v)).All Op.NotWinsock := by
  refine ⟨_, rfl, fun e => ?_, fun v => ?_⟩
  · exact if_pos e.toErrorCode_ne
  · have hend : ∀ ec : ErrorCode, (if ec ≠ .success then
        (op .destroyCore >>= fun _ => pure ec) else pure .success : Prog ErrorCode).All
          Op.NotWinsock := by
      intro ec
      split
      · exact ⟨trivial, fun _ => trivial⟩
      · exact trivial
    refine All.bind (p := if v ≠ _ then _ else _) ?_ hend
    split
    · exact trivial
    refine notWinsock_getExtendedSocketFunctions.bind fun e => ?_
    split
    · exact trivial
    refine ⟨trivial, fun c => (notWinsock_initializeThreadpool _ _ _).bind fun e => ?_⟩
    split
    · exact trivial
    refine (notWinsock_initializeThreadpool _ _ _).bind fun e => ?_
    split
    · exact trivial
    · exact ⟨trivial, fun _ => trivial⟩

/-- The answer to `WSAStartup`, the second call of `create`, is an error. -/
def WsaStartupFails (xs : List Ans) : Prop := ∃ x err, xs[1]? = some x ∧ x.error = some err

/-- **What a failed creation leaves behind**: what it acquired is released exactly when
`WSAStartup` failed, before anything was acquired. -/
theorem create_error_released_iff {conf : IOCoreConfig} {w₀ w : World} {xs : List Ans}
    {e : ErrorCode} (he : (WinIOCore.create conf).eval serialHost 0 w₀ xs = some (e, w))
    (_ : e ≠ .success) : Released w₀ w ↔ WsaStartupFails xs := by
  obtain ⟨k, hk, herr, hok⟩ := create_eq conf
  rw [hk] at he
  rcases xs with _ | ⟨x₀, _ | ⟨x, xs⟩⟩
  · cases he
  · cases he
  change (k (World.result x x.version)).eval serialHost 0 _ xs = some (e, w) at he
  cases hx : x.error with
  | some err =>
    have hr : World.result x x.version = .error err := by simp [World.result, hx]
    rw [hr, herr] at he
    rcases xs with _ | ⟨y, _ | ⟨z, zs⟩⟩ <;> cases he
    refine ⟨fun _ => ⟨x, err, rfl, hx⟩, fun _ => ⟨?_, ?_, ?_, ?_⟩⟩
    · simp [World.reply, hx, serialHost, World.setCore, World.startup, Nat.add_comm]
    all_goals
      intro h h₁ h₂
      cases w₀
      exact absurd h₂ (Nat.not_lt.mpr h₁)
  | none =>
    have hr : World.result x x.version = .ok x.version := by simp [World.result, hx]
    rw [hr] at he
    have hkeep := Always.of_all (h := serialHost) (t := 0)
      (J := fun w => w.startups = w₀.startups + 1 ∧ w.cleanups = w₀.cleanups) (hok x.version)
      (fun w o y ho _ hw => by
        obtain ⟨h₁, h₂⟩ := reply_winsock (w := w) (t := 0) (x := y) ho
        exact ⟨h₁.trans hw.1, h₂.trans hw.2⟩)
      (w := (serialHost.reply (serialHost.reply w₀ 0 (.makeCore conf) x₀).2 0
        (.wsaStartup WinIOCore.winsockVersionRequested) x).2)
      (by simp [serialHost, World.reply, World.setCore, World.startup, hx])
    obtain ⟨h₁, h₂⟩ := always_iff_eval.mp hkeep xs e w he
    constructor
    · intro hw
      have := hw.winsock
      omega
    · rintro ⟨y, err, hy, herr⟩
      simp only [List.getElem?_cons_succ, List.getElem?_cons_zero, Option.some.injEq] at hy
      rw [hy] at hx
      rw [hx] at herr
      cases herr

/-- Winsock 1.1 where 2.2 was asked for. -/
theorem create_error_released_iff_version :
    ∃ w, (WinIOCore.create ⟨0, 0, 0, 0⟩).eval serialHost 0 .blank [{}, { version := 0x0101 }, {}] =
        some (.notSupported, w) ∧ ErrorCode.notSupported ≠ .success ∧
      (Released .blank w ↔ WsaStartupFails [{}, { version := 0x0101 }, {}]) := by
  have he : ∃ w, (WinIOCore.create ⟨0, 0, 0, 0⟩).eval serialHost 0 .blank
      [{}, { version := 0x0101 }, {}] = some (.notSupported, w) := ⟨_, rfl⟩
  obtain ⟨w, hw⟩ := he
  exact ⟨w, hw, by decide, create_error_released_iff hw (by decide)⟩

/-- There Winsock stays started. -/
theorem not_released_version :
    ¬ ∀ conf w₀ w xs e, (WinIOCore.create conf).eval serialHost 0 w₀ xs = some (e, w) →
      e ≠ .success → Released w₀ w := by
  intro h
  have hw := (h ⟨0, 0, 0, 0⟩ .blank _ [{}, { version := 0x0101 }, {}] .notSupported rfl
    (by decide)).winsock
  exact absurd hw (by decide)

end FirelinkNet
