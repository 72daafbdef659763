import FirelinkNet.CoreResources
import FirelinkNet.Lib.Lifo

/-!
# The rollback tag

`initialize_threadpool` initializes an environment, creates a pool and creates a cleanup
group, and may stop at any of them; the rollback tag says how far it came.
`release_threadpool` closes what the tag names, from there down. Both leave pointers to
what was closed in the members of the core.

The calls are logged here with what they open and close, and by which handle (`logHost`).
What is open is a stack (`Lib.Lifo`).

## What is proved

* `rollback_names_live` — **the tag names what is live**, after any sequence of
  `initialize_threadpool` and `release_threadpool` in which the former is called when the
  tag is `None`, whatever the operating system answers; objects are closed in the reverse
  order, each once and by its own handle, and a release leaves nothing.
-/

namespace FirelinkNet

open Lib Prog

/-! ### What is opened and closed -/

/-- What is opened through the members for a pool. -/
inductive SlotObject where
  /-- The environment, as it was initialized the `n`-th time. -/
  | environ (k : PoolKind) (n : ℕ)
  /-- A pool. -/
  | pool (p : Option PoolId)
  /-- A cleanup group. -/
  | group (g : Option GroupId)
  deriving DecidableEq

/-- What a call opens or closes. -/
def Op.access (w : World) (a : Ans) : Op → List (Access SlotObject)
  | .initializeThreadpoolEnvironment k => [.opened (.environ k (w.environOpens k + 1))]
  | .createThreadpool => if a.error.isNone then [.opened (.pool (some w.nextPool))] else []
  | .createThreadpoolCleanupGroup => if a.error.isNone then [.opened (.group (some w.nextGroup))] else []
  | .closeThreadpoolCleanupGroup g => [.closed (.group g)]
  | .closeThreadpool p => [.closed (.pool p)]
  | .destroyThreadpoolEnvironment k => [.closed (.environ k (w.environOpens k))]
  | _ => []

/-- A world, and what was opened and closed in it. -/
structure Logged where
  /-- The world. -/
  w : World
  /-- What was opened and closed. -/
  log : List (Access SlotObject)

/-- The host of a program that runs alone, with a log. -/
def logHost : Host Op Res Logged Ans where
  ready s _ o _ := s.w.holdsRefs o
  reply s t o a := ((s.w.reply t o a).1, ⟨(s.w.reply t o a).2, s.log ++ o.access s.w a⟩)

/-- What the tag names, the last one opened first. -/
def PoolSlot.named (k : PoolKind) (s : PoolSlot) (n : ℕ) : List SlotObject :=
  match s.rollback with
  | .none => []
  | .initEnviron => [.environ k n]
  | .createThreadpool => [.pool s.threadpool, .environ k n]
  | .createCleanupGroup => [.group s.cleanupGroup, .pool s.threadpool, .environ k n]

/-- What the tag for a pool names. -/
def Logged.named (k : PoolKind) (s : Logged) : List SlotObject :=
  (s.w.core.slot k).named k (s.w.environOpens k)

/-- A call about the members for a pool. -/
inductive SlotCall where
  /-- `initialize_threadpool`. -/
  | initializeThreadpool (threadsMin threadsMax : UInt32)
  /-- `release_threadpool`. -/
  | releaseThreadpool (timeoutMs : UInt32)

namespace SlotCall

/-- The call, as `WinIOCore` makes it. -/
def run (k : PoolKind) : SlotCall → Prog ErrorCode
  | .initializeThreadpool threadsMin threadsMax => WinIOCore.initializeThreadpool threadsMin threadsMax k
  | .releaseThreadpool timeoutMs => do
    let slot := (← op .readCore).slot k
    WinIOCore.releaseThreadpool timeoutMs k slot.cleanupGroup slot.threadpool

/-- `initialize_threadpool` is called when the tag is `None`. -/
def Allowed (s : PoolSlot) : SlotCall → Prop
  | .initializeThreadpool _ _ => s.rollback = .none
  | .releaseThreadpool _ => True

end SlotCall

/-- What a sequence of calls about the members for `k` leads to, from a world in which the tag is `None`. -/
inductive SlotReach (k : PoolKind) : Logged → Prop
  /-- No call was made. -/
  | start {w : World} : (w.core.slot k).rollback = .none → SlotReach k ⟨w, []⟩
  /-- One more call has returned. -/
  | call {s s' : Logged} {c : SlotCall} {t : ℕ} {xs : List Ans} {e : ErrorCode} :
      SlotReach k s → c.Allowed (s.w.core.slot k) → (c.run k).eval logHost t s xs = some (e, s') → SlotReach k s'

namespace Rollback

/-! ### One call of the operating system -/

/-- It was made. -/
def Made (w : World) : SlotObject → Prop
  | .environ k n => n ≤ w.environOpens k
  | .pool p => ∀ i ∈ p, i < w.nextPool
  | .group g => ∀ i ∈ g, i < w.nextGroup

/-- The members for `k`, the number of initializations of the environment, and what is open. -/
structure At (k : PoolKind) (s : Logged) (slot : PoolSlot) (n : ℕ) (live : List SlotObject) : Prop where
  slot : s.w.core.slot k = slot
  opens : s.w.environOpens k = n
  lifo : Lifo s.log live
  made : ∀ o, .opened o ∈ s.log → Made s.w o

variable {k : PoolKind} {s : Logged} {slot slot' : PoolSlot} {n n' : ℕ} {live : List SlotObject} {w' : World}
  {x : SlotObject} {t : ℕ}

theorem Made.of_eq (h : Made s.w x) (ho : w'.environOpens = s.w.environOpens)
    (hp : w'.nextPool = s.w.nextPool) (hg : w'.nextGroup = s.w.nextGroup) : Made w' x := by
  unfold Made
  rw [ho, hp, hg]
  exact h

/-- A call that opens and closes nothing. -/
theorem At.pass (h : At k s slot n live) (hs : w'.core.slot k = slot') (ho : w'.environOpens = s.w.environOpens)
    (hp : w'.nextPool = s.w.nextPool) (hg : w'.nextGroup = s.w.nextGroup) :
    At k ⟨w', s.log ++ []⟩ slot' n live := by
  refine ⟨hs, ho ▸ h.opens, (List.append_nil s.log).symm ▸ h.lifo, fun x hx => ?_⟩
  rw [List.append_nil] at hx
  exact (h.made x hx).of_eq ho hp hg

/-- A call that opens something new. -/
theorem At.opened (h : At k s slot n live) (hs : w'.core.slot k = slot') (ho : w'.environOpens k = n')
    (hnew : ¬ Made s.w x) (hmade : Made w' x) (hmono : ∀ y, Made s.w y → Made w' y) :
    At k ⟨w', s.log ++ [.opened x]⟩ slot' n' (x :: live) := by
  refine ⟨hs, ho, .opened h.lifo fun hx => hnew (h.made x hx), fun y hy => ?_⟩
  rcases List.mem_append.mp hy with hy | hy
  · exact hmono y (h.made y hy)
  · cases List.mem_singleton.mp hy
    exact hmade

/-- A call that closes what was opened last. -/
theorem At.closed (h : At k s slot n (x :: live)) (hs : w'.core.slot k = slot')
    (ho : w'.environOpens = s.w.environOpens) (hp : w'.nextPool = s.w.nextPool)
    (hg : w'.nextGroup = s.w.nextGroup) : At k ⟨w', s.log ++ [.closed x]⟩ slot' n live := by
  have hpass := h.pass hs ho hp hg
  refine ⟨hs, hpass.opens, h.lifo.closed, fun y hy => hpass.made y ?_⟩
  rcases List.mem_append.mp hy with hy | hy
  · rwa [List.append_nil]
  · cases List.mem_singleton.mp hy

theorem slot_setSlot (w : World) (f : PoolSlot → PoolSlot) : (w.setSlot k f).core.slot k = f (w.core.slot k) := by
  show (w.core.setSlot f k).slot k = _
  rw [WinIOCore.setSlot_slot, upd, Function.update_self]

/-! The rules: what is known after a call goes to the rest of the program. -/

variable {α : Type} {Q : α → Logged → Prop}

theorem always_writeSlot {f : PoolSlot → PoolSlot} {p : Unit → Prog α} (h : At k s slot n live)
    (hp : ∀ s', At k s' (f slot) n live → (p ()).Always logHost t Q s') :
    (op (.writeSlot k f) >>= p).Always logHost t Q s := fun _ _ =>
  hp _ (h.pass ((slot_setSlot ..).trans (congrArg f h.slot)) rfl rfl rfl)

theorem always_initializeThreadpoolEnvironment {p : Unit → Prog α} (h : At k s slot n live)
    (hp : ∀ s', At k s' { slot with environ := ⟨none, none⟩ } (n + 1) (.environ k (n + 1) :: live) →
      (p ()).Always logHost t Q s') :
    (op (.initializeThreadpoolEnvironment k) >>= p).Always logHost t Q s := by
  intro a _
  refine hp _ ?_
  have hself : (s.w.openEnviron k).environOpens k = n + 1 := by rw [← h.opens]; exact Function.update_self ..
  have hlog : (logHost.reply s t (.initializeThreadpoolEnvironment k) a).2 =
      ⟨s.w.openEnviron k, s.log ++ [.opened (.environ k (n + 1))]⟩ := by rw [← h.opens]; rfl
  rw [hlog]
  refine h.opened ((slot_setSlot ..).trans (by rw [h.slot])) hself ?_ hself.ge fun y hy => ?_
  · rw [Made, h.opens]
    exact Nat.not_succ_le_self n
  · cases y with
    | environ k' m =>
      show m ≤ upd s.w.environOpens k (s.w.environOpens k + 1) k'
      by_cases hk : k' = k
      · subst hk
        rw [upd, Function.update_self]
        exact Nat.le_succ_of_le hy
      · rw [upd, Function.update_of_ne hk]
        exact hy
    | pool p => exact hy
    | group g => exact hy

theorem always_createThreadpool {p : Except OsError PoolId → Prog α} (h : At k s slot n live)
    (herror : ∀ e s', At k s' slot n live → (p (.error e)).Always logHost t Q s')
    (hok : ∀ i s', At k s' slot n (.pool (some i) :: live) → (p (.ok i)).Always logHost t Q s') :
    (op .createThreadpool >>= p).Always logHost t Q s := by
  intro a _
  show (p (World.result a s.w.nextPool)).Always logHost t Q
    ⟨s.w.openPool a.error.isNone, s.log ++ if a.error.isNone then _ else _⟩
  rw [World.result]
  cases a.error with
  | some e => exact herror e _ (h.pass h.slot rfl rfl rfl)
  | none =>
    refine hok _ _ (h.opened h.slot h.opens (fun hm => Nat.lt_irrefl _ (hm _ rfl)) ?_ fun y hy => ?_)
    · rintro i ⟨⟩
      exact Nat.lt_succ_self _
    · cases y with
      | environ k' m => exact hy
      | pool p => exact fun i hi => Nat.lt_succ_of_lt (hy i hi)
      | group g => exact hy

theorem always_createThreadpoolCleanupGroup {p : Except OsError GroupId → Prog α} (h : At k s slot n live)
    (herror : ∀ e s', At k s' slot n live → (p (.error e)).Always logHost t Q s')
    (hok : ∀ g s', At k s' slot n (.group (some g) :: live) → (p (.ok g)).Always logHost t Q s') :
    (op .createThreadpoolCleanupGroup >>= p).Always logHost t Q s := by
  intro a _
  show (p (World.result a s.w.nextGroup)).Always logHost t Q
    ⟨s.w.openGroup a.error.isNone, s.log ++ if a.error.isNone then _ else _⟩
  rw [World.result]
  cases a.error with
  | some e => exact herror e _ (h.pass h.slot rfl rfl rfl)
  | none =>
    refine hok _ _ (h.opened h.slot h.opens (fun hm => Nat.lt_irrefl _ (hm _ rfl)) ?_ fun y hy => ?_)
    · rintro i ⟨⟩
      exact Nat.lt_succ_self _
    · cases y with
      | environ k' m => exact hy
      | pool p => exact hy
      | group g => exact fun i hi => Nat.lt_succ_of_lt (hy i hi)

theorem always_setThreadpoolCallbackPool {i : PoolId} {p : Unit → Prog α} (h : At k s slot n live)
    (hp : ∀ s', At k s' { slot with environ := { slot.environ with pool := some i } } n live →
      (p ()).Always logHost t Q s') : (op (.setThreadpoolCallbackPool k i) >>= p).Always logHost t Q s := fun _ _ =>
  hp _ (h.pass ((slot_setSlot ..).trans (by rw [h.slot])) rfl rfl rfl)

theorem always_setThreadpoolCallbackCleanupGroup {g : GroupId} {p : Unit → Prog α} (h : At k s slot n live)
    (hp : ∀ s', At k s' { slot with environ := { slot.environ with group := some g } } n live →
      (p ()).Always logHost t Q s') :
    (op (.setThreadpoolCallbackCleanupGroup k g) >>= p).Always logHost t Q s := by
  intro a _
  refine hp _ (h.pass ((slot_setSlot ..).trans (by rw [h.slot])) ?_ ?_ ?_) <;> cases s.w <;> rfl

theorem always_closeThreadpoolCleanupGroup {g : Option GroupId} {p : Unit → Prog α}
    (h : At k s slot n (.group g :: live)) (hp : ∀ s', At k s' slot n live → (p ()).Always logHost t Q s') :
    (op (.closeThreadpoolCleanupGroup g) >>= p).Always logHost t Q s := by
  intro a _
  refine hp _ ?_
  obtain ⟨w, log⟩ := s
  cases w
  exact h.closed h.slot rfl rfl rfl

theorem always_closeThreadpool {i : Option PoolId} {p : Unit → Prog α} (h : At k s slot n (.pool i :: live))
    (hp : ∀ s', At k s' slot n live → (p ()).Always logHost t Q s') :
    (op (.closeThreadpool i) >>= p).Always logHost t Q s := by
  intro a _
  refine hp _ ?_
  obtain ⟨w, log⟩ := s
  cases w
  exact h.closed h.slot rfl rfl rfl

theorem always_destroyThreadpoolEnvironment {p : Unit → Prog α} (h : At k s slot n (.environ k n :: live))
    (hp : ∀ s', At k s' slot n live → (p ()).Always logHost t Q s') :
    (op (.destroyThreadpoolEnvironment k) >>= p).Always logHost t Q s := by
  intro a _
  refine hp _ ?_
  have hlog : (logHost.reply s t (.destroyThreadpoolEnvironment k) a).2 =
      ⟨s.w.closeEnviron k, s.log ++ [.closed (.environ k n)]⟩ := by rw [← h.opens]; rfl
  rw [hlog]
  obtain ⟨w, log⟩ := s
  cases w
  exact h.closed h.slot rfl rfl rfl

/-- A call that does nothing to the members for a pool. -/
def Aside : Op → Prop
  | .setThreadpoolThreadMaximum _ _ | .setThreadpoolThreadMinimum _ _ | .createThread _
  | .waitForSingleObject _ _ | .closeHandle _ | .getLastError => True
  | _ => False

theorem always_aside {o : Op} {p : Res o → Prog α} (ho : Aside o) (h : At k s slot n live)
    (hp : ∀ r s', At k s' slot n live → (p r).Always logHost t Q s') :
    (op o >>= p).Always logHost t Q s := by
  intro a _
  refine hp _ _ ?_
  obtain ⟨w, log⟩ := s
  cases w
  cases o <;> first | exact h.pass h.slot rfl rfl rfl | exact ho.elim

theorem always_readCore {p : WinIOCore → Prog α} (h : At k s slot n live)
    (hp : ∀ c s', c.slot k = slot → At k s' slot n live → s'.log = s.log → (p c).Always logHost t Q s') :
    (op .readCore >>= p).Always logHost t Q s := fun _ _ =>
  hp _ _ h.slot (h.pass h.slot rfl rfl rfl) (List.append_nil s.log)

/-! ### The functions -/

/-- What is open is what the tag names. -/
def Named (k : PoolKind) (s : Logged) : Prop := ∃ slot n, At k s slot n (slot.named k n)

/-- **`initialize_threadpool` leaves the tag right**, wherever it stops. -/
theorem always_initializeThreadpool (threadsMin threadsMax : UInt32) (h : At k s slot n []) :
    (WinIOCore.initializeThreadpool threadsMin threadsMax k).Always logHost t (fun _ s' => Named k s') s := by
  refine always_initializeThreadpoolEnvironment h fun s h => always_writeSlot h fun s h =>
    always_createThreadpool h (fun e s h => ?_) fun i s h => ?_
  · exact always_writeSlot h fun s h => ⟨_, _, h⟩
  refine always_writeSlot h fun s h => always_aside trivial h fun _ s h => always_aside trivial h fun r s h => ?_
  rcases r with e | _
  · exact ⟨_, _, h⟩
  refine always_createThreadpoolCleanupGroup h (fun e s h => ?_) fun g s h => ?_
  · exact always_writeSlot h fun s h => ⟨_, _, h⟩
  · exact always_writeSlot h fun s h => always_setThreadpoolCallbackPool h fun s h =>
      always_setThreadpoolCallbackCleanupGroup h fun s h => ⟨_, _, h⟩

theorem always_joinCleanupThread {ms : UInt32} {g : Option GroupId} (h : At k s slot n live) :
    (WinIOCore.joinCleanupThread ms g).Always logHost t (fun _ s' => At k s' slot n live) s := by
  refine always_aside trivial h fun r s h => ?_
  rcases r with e | thread
  · exact always_aside trivial h fun _ s h => h
  refine always_aside trivial h fun res s h => always_aside trivial h fun _ s h => ?_
  cases res with
  | failed e => exact always_aside trivial h fun _ s h => h
  | _ => exact h

/-- Nothing is open, and the tag is `None`. -/
def Empty (k : PoolKind) (s : Logged) : Prop := ∃ slot n, At k s slot n [] ∧ slot.rollback = .none

theorem always_releaseEnviron (h : At k s slot n [.environ k n]) :
    (WinIOCore.releaseEnviron k).Always logHost t (fun _ s' => Empty k s') s :=
  always_destroyThreadpoolEnvironment h fun _ h => always_writeSlot h fun _ h => ⟨_, _, h, rfl⟩

theorem always_releasePool {i : Option PoolId} (h : At k s slot n [.pool i, .environ k n]) :
    (WinIOCore.releasePool k i).Always logHost t (fun _ s' => Empty k s') s :=
  always_closeThreadpool h fun _ h => always_writeSlot h fun _ h => always_releaseEnviron h

theorem always_releaseGroup {ms : UInt32} {g : Option GroupId} {i : Option PoolId}
    (h : At k s slot n [.group g, .pool i, .environ k n]) :
    (WinIOCore.releaseGroup ms k g i).Always logHost t (fun _ s' => Empty k s') s := by
  refine (always_joinCleanupThread h).bind fun r s h => always_closeThreadpoolCleanupGroup h fun s h =>
    always_writeSlot h fun s h => (always_releasePool h).bind fun _ s h => h

/-- **`release_threadpool` leaves nothing**, whatever it returns. -/
theorem always_releaseThreadpool {ms : UInt32} (h : At k s slot n (slot.named k n)) :
    (WinIOCore.releaseThreadpool ms k slot.cleanupGroup slot.threadpool).Always logHost t
      (fun _ s' => Empty k s') s := by
  have hend : ∀ {s : Logged} (r : ErrorCode), Empty k s → Always logHost t (do
      op (.writeSlot k fun s => { s with rollback := .none })
      return r : Prog ErrorCode) (fun _ s' => Empty k s') s := by
    rintro s r ⟨slot, n, h, -⟩
    exact always_writeSlot h fun _ h => ⟨_, _, h, rfl⟩
  rw [PoolSlot.named] at h
  refine always_readCore h fun c s hc h _ => ?_
  dsimp only
  rw [hc]
  cases hr : slot.rollback with
  | none =>
    rw [hr] at h
    exact hend _ ⟨_, _, h, hr⟩
  | initEnviron =>
    rw [hr] at h
    exact (always_releaseEnviron h).bind fun _ _ => hend _
  | createThreadpool =>
    rw [hr] at h
    exact (always_releasePool h).bind fun _ _ => hend _
  | createCleanupGroup =>
    rw [hr] at h
    exact (always_releaseGroup h).bind fun r _ => hend r

theorem always_release {ms : UInt32} (h : Named k s) :
    ((SlotCall.releaseThreadpool ms).run k).Always logHost t (fun _ s' => Empty k s') s := by
  obtain ⟨slot, n, h⟩ := h
  refine always_readCore h fun c s hc h _ => ?_
  dsimp only
  rw [hc]
  exact always_releaseThreadpool h

theorem Empty.named (h : Empty k s) : Named k s := by
  obtain ⟨slot, n, h, hr⟩ := h
  refine ⟨slot, n, ?_⟩
  rw [PoolSlot.named, hr]
  exact h

/-- When the tag is `None`, `release_threadpool` closes nothing. -/
theorem always_release_empty {ms : UInt32} (h : Empty k s) :
    ((SlotCall.releaseThreadpool ms).run k).Always logHost t (fun _ s' => s'.log = s.log) s := by
  obtain ⟨slot, n, h, hr⟩ := h
  refine always_readCore h fun c s₁ _ h hl₁ => always_readCore h fun c s₂ hc h hl₂ => ?_
  dsimp only
  rw [hc, hr]
  intro _ _
  show s₂.log ++ [] = s.log
  rw [List.append_nil, hl₂, hl₁]

/-- **Every call leaves the tag right.** -/
theorem named_of_reach (h : SlotReach k s) : Named k s := by
  induction h with
  | @start w hw =>
    refine ⟨w.core.slot k, w.environOpens k, ?_⟩
    rw [PoolSlot.named, hw]
    exact ⟨rfl, rfl, .nil, nofun⟩
  | @call s s' c t xs e _ hc he ih =>
    cases c with
    | initializeThreadpool threadsMin threadsMax =>
      obtain ⟨slot, n, h⟩ := ih
      have hnone : slot.rollback = .none := h.slot ▸ hc
      rw [PoolSlot.named, hnone] at h
      exact always_iff_eval.mp (always_initializeThreadpool threadsMin threadsMax h) xs e s' he
    | releaseThreadpool ms => exact (always_iff_eval.mp (always_release ih) xs e s' he).named

end Rollback

open Rollback

/-- **The tag names what is live**, after any sequence of calls: the objects that the tag names are those that
were opened and not closed; they are closed in the reverse order, each once and by its own handle; and
`release_threadpool` leaves the tag at `None` and nothing live, and then closes nothing when it is called again. -/
theorem rollback_names_live {k : PoolKind} {s : Logged} (h : SlotReach k s) :
    Lifo s.log (s.named k) ∧ (∀ x, x ∈ s.named k ↔ .opened x ∈ s.log ∧ .closed x ∉ s.log) ∧ s.log.Nodup ∧
      ∀ t ms xs e s', ((SlotCall.releaseThreadpool ms).run k).eval logHost t s xs = some (e, s') →
        (s'.w.core.slot k).rollback = .none ∧ Lifo s'.log [] ∧
          ∀ t' ms' xs' e' s'', ((SlotCall.releaseThreadpool ms').run k).eval logHost t' s' xs' = some (e', s'') →
            s''.log = s'.log := by
  have hnamed := named_of_reach h
  obtain ⟨slot, n, hat⟩ := id hnamed
  have hlive : Lifo s.log (s.named k) := by
    rw [Logged.named, hat.slot, hat.opens]
    exact hat.lifo
  refine ⟨hlive, fun x => hlive.mem_iff, hlive.nodup, fun t ms xs e s' he => ?_⟩
  have hempty := always_iff_eval.mp (always_release hnamed) xs e s' he
  obtain ⟨slot', n', hat', hr⟩ := id hempty
  refine ⟨hat'.slot ▸ hr, hat'.lifo, fun t' ms' xs' e' s'' he' => ?_⟩
  exact always_iff_eval.mp (always_release_empty hempty) xs' e' s'' he'

/-- `initialize_threadpool` gets a pool and no cleanup group, and `release_threadpool` closes the pool and the
environment. -/
theorem rollback_names_live_partly : ∃ s s' : Logged, SlotReach .io s ∧ SlotReach .io s' ∧
    s.named .io = [.pool (some 0), .environ .io 1] ∧ Lifo s.log (s.named .io) ∧
      s'.log = [.opened (.environ .io 1), .opened (.pool (some 0)), .closed (.pool (some 0)),
        .closed (.environ .io 1)] ∧ Lifo s'.log [] := by
  have hs := @SlotReach.call .io ⟨.blank, []⟩ _ (.initializeThreadpool 1 4) 0
    (List.replicate 6 ({} : Ans) ++ [{ error := some .noBufs }, ({} : Ans)]) _ (.start rfl) rfl rfl
  have hs' := @SlotReach.call .io _ _ (.releaseThreadpool 5000) 0 (List.replicate 7 ({} : Ans)) _ hs trivial rfl
  have hempty := (rollback_names_live hs).2.2.2 0 5000 (List.replicate 7 ({} : Ans)) _ _ rfl
  exact ⟨_, _, hs, hs', rfl, (rollback_names_live hs).1, rfl, hempty.2.1⟩

end FirelinkNet
