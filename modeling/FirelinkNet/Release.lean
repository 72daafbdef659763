import FirelinkNet.Tame

/-!
# Releasing the core

`release` closes the user pool and then the IO pool. For each it starts a cleanup
thread, which closes the members of the pool's cleanup group; it waits for that thread,
and then closes the group and the pool. What it does after the wait does not depend on
how the wait ended, and a closed pool is not taken out of use: `post_user_work` and
`post_io_work` go on to submit to it.

Followed here are the thread in `release` and the cleanup threads. A group is closed
for a thread that knows that its members are, and there are two ways to know: the thread
has waited for a cleanup thread of the group, or it has read that the release of the
pool has gone beyond the group.

## What is proved

* `release_in_order` — **a release means quiescence** when its cleanup threads start,
  and end in time, and nothing is given to a pool whose members are being closed:
  cleanup groups and pools are closed after their members, and a `release` that returns
  `Success` leaves no callback queued or running.
* `no_closedPool` — **the pools outlive what is posted to them** when the cleanup
  threads start, and end in time, and nothing is submitted to a pool whose members are
  closed.
-/

namespace FirelinkNet

open Lib

/-- The number of a pool, and of its cleanup group, as `IOCore::create` leaves them. -/
def PoolKind.num : PoolKind → ℕ
  | .io => 0
  | .user => 1

/-- The members for a pool as `IOCore::create` leaves them, but for `…_rollback_`. -/
structure PoolSlot.IsOf (s : PoolSlot) (k : PoolKind) : Prop where
  environ : s.environ = ⟨some k.num, some k.num⟩
  cleanupGroup : s.cleanupGroup = some k.num
  threadpool : s.threadpool = some k.num

namespace Release

/-! ### What a thread knows -/

/-- What a thread knows. -/
structure Local where
  /-- The call of the interface that it is in. -/
  call : Option (CallId × ApiCall)
  /-- The cleanup thread that it has started, or that it is, and the group of that. -/
  thread : Option (ℕ × Option GroupId)
  /-- Groups whose members are being closed, or are closed. -/
  begun : Set GroupId
  /-- Groups whose members are closed. -/
  closed : Set GroupId

/-- A thread that is in no call. -/
def idle : Local := ⟨none, none, ∅, ∅⟩

/-- What a call needs: a group and its pool are closed after the members, and a pool's release goes
beyond the group after that. -/
def pre (l : Local) : Op → Prop
  | .leave n _ => ∃ c, l.call = some (n, c) ∧ (c = .releaseCore → ∀ k : PoolKind, k.num ∈ l.closed)
  | .closedThreadpoolCleanupGroupMembers g => ∀ x ∈ g, x ∈ l.begun
  | .exitThread k => ∃ g, l.thread = some (k, g) ∧ ∀ x ∈ g, x ∈ l.closed
  | .waitForSingleObject k _ => ∃ g, l.thread = some (k, g)
  | .closeThreadpoolCleanupGroup g => ∀ x ∈ g, x ∈ l.closed
  | .closeThreadpool p => ∃ k : PoolKind, p = some k.num ∧ k.num ∈ l.closed
  | .writeSlot k f => k.num ∈ l.closed ∧ ∀ s : PoolSlot, s.IsOf k → (f s).IsOf k
  | .makeCore _ | .destroyCore | .exchangeStop _ | .initializeThreadpoolEnvironment _
  | .setThreadpoolCallbackPool _ _ | .setThreadpoolCallbackCleanupGroup _ _ => False
  | _ => True

/-- What holds of the reply: the core is not set up again, and cleanup threads start and end in
time. -/
def given (_ : Local) : (o : Op) → Res o → Prop
  | .enter c, _ => c ≠ .initializeCore
  | .readCore, c => ∀ k, (c.slot k).IsOf k
  | .createThread _, r => ∃ thread, r = .ok thread
  | .waitForSingleObject _ _, r => r = .signalled
  | _, _ => True

/-- What is known after the reply. -/
def post (l : Local) : (o : Op) → Res o → Local
  | .enter c, n => { l with call := some (n, c) }
  | .leave _ _, _ => idle
  | .readCore, c =>
    { l with closed := l.closed ∪ {g | ∃ k, g = k.num ∧ (c.slot k).rollback ≠ .createCleanupGroup} }
  | .createThread g, .ok thread => { l with thread := some (thread, g) }
  | .waitForSingleObject k _, _ => { l with closed := l.closed ∪ {g | l.thread = some (k, some g)} }
  | .closeThreadpoolCleanupGroupMembers g, _ => { l with begun := l.begun ∪ {x | g = some x} }
  | .closedThreadpoolCleanupGroupMembers g, _ => { l with closed := l.closed ∪ {x | g = some x} }
  | _, _ => l

/-- The order of a release. -/
def logic : Logic Op Res Local := ⟨pre, given, post⟩

variable {l : Local} {k : PoolKind} {c : ApiCall} {n : CallId}

theorem plain {o : Op} (ho : o.Plain) :
    logic.pre l o ∧ ∀ r, logic.given l o r → logic.post l o r = l := by
  cases o <;> first | exact ⟨trivial, fun _ _ => rfl⟩ | cases ho

theorem keeps_waitAndClose (io : TpIo) : logic.Keeps (WinSocket.waitAndClose io) l :=
  ⟨trivial, fun _ _ => ⟨trivial, fun _ _ => ⟨trivial, fun _ _ => rfl⟩⟩⟩

/-- The thread is still in its call, and knows no less of the groups than `l` does. -/
def Local.Le (l l' : Local) : Prop := l'.call = l.call ∧ l.closed ⊆ l'.closed

theorem Local.Le.trans {l₁ l₂ l₃ : Local} (h : l₁.Le l₂) (h' : l₂.Le l₃) : l₁.Le l₃ :=
  ⟨h'.1.trans h.1, h.2.trans h'.2⟩

/-- **The cleanup thread has what it needs.** -/
theorem wp_cleanupThread (thread : ℕ) (g : Option GroupId) :
    logic.wp (WinIOCore.cleanupThread thread g) (fun _ _ => True) ⟨none, some (thread, g), ∅, ∅⟩ :=
  ⟨trivial, fun _ _ => ⟨fun _ hx => .inr hx, fun _ _ => ⟨⟨g, rfl, fun _ hx => .inr hx⟩,
    fun _ _ => trivial⟩⟩⟩

/-- **After the wait the members are closed.** -/
theorem wp_joinCleanupThread (ms : UInt32) (g : GroupId) :
    logic.wp (WinIOCore.joinCleanupThread ms (some g))
      (fun r l' => r = .success ∧ l.Le l' ∧ g ∈ l'.closed) l := by
  refine Logic.op_bind trivial fun r hr => ?_
  obtain ⟨thread, rfl⟩ := hr
  refine Logic.op_bind ⟨_, rfl⟩ fun r hr => ?_
  cases hr
  exact ⟨trivial, fun _ _ => ⟨rfl, ⟨rfl, fun _ => .inl⟩, .inr rfl⟩⟩

/-- Assigning to `…_rollback_` leaves the rest. -/
theorem isOf_rollback {s : PoolSlot} (r : ThreadpoolRollback) (h : s.IsOf k) :
    PoolSlot.IsOf { s with rollback := r } k := ⟨h.environ, h.cleanupGroup, h.threadpool⟩

theorem keeps_releaseEnviron (hk : k.num ∈ l.closed) : logic.Keeps (WinIOCore.releaseEnviron k) l :=
  ⟨trivial, fun _ _ => ⟨⟨hk, fun _ => isOf_rollback _⟩, fun _ _ => rfl⟩⟩

theorem keeps_releasePool (hk : k.num ∈ l.closed) :
    logic.Keeps (WinIOCore.releasePool k (some k.num)) l :=
  ⟨⟨k, rfl, hk⟩, fun _ _ => ⟨⟨hk, fun _ => isOf_rollback _⟩, fun _ _ => keeps_releaseEnviron hk⟩⟩

theorem wp_releaseGroup (ms : UInt32) (k : PoolKind) :
    logic.wp (WinIOCore.releaseGroup ms k (some k.num) (some k.num))
      (fun r l' => r = .success ∧ l.Le l' ∧ k.num ∈ l'.closed) l := by
  refine Logic.wp_bind.mpr (Logic.wp_mono (wp_joinCleanupThread ms k.num) ?_)
  rintro r l' ⟨rfl, hle, hk⟩
  refine Logic.op_bind ?_ fun _ _ => Logic.op_bind ⟨hk, fun _ => isOf_rollback _⟩ fun _ _ =>
    (keeps_releasePool hk).seq fun _ => ⟨rfl, hle, hk⟩
  rintro x hx
  cases hx
  exact hk

/-- **A pool is released in order**, however far it was released before. -/
theorem wp_releaseThreadpool (ms : UInt32) (k : PoolKind) :
    logic.wp (WinIOCore.releaseThreadpool ms k (some k.num) (some k.num))
      (fun r l' => r = .success ∧ l.Le l' ∧ k.num ∈ l'.closed) l := by
  have hend : ∀ {l' : Local}, l.Le l' → k.num ∈ l'.closed → logic.wp (do
      op (.writeSlot k fun s => { s with rollback := .none })
      return ErrorCode.success) (fun r l' => r = .success ∧ l.Le l' ∧ k.num ∈ l'.closed) l' :=
    fun hle hk => ⟨⟨hk, fun _ => isOf_rollback _⟩, fun _ _ => ⟨rfl, hle, hk⟩⟩
  rw [WinIOCore.releaseThreadpool, Prog.op_bind]
  refine ⟨trivial, fun c _ => ?_⟩
  have hle : l.Le (logic.post l .readCore c) := ⟨rfl, fun _ => .inl⟩
  have hk : (c.slot k).rollback ≠ .createCleanupGroup → k.num ∈ (logic.post l .readCore c).closed :=
    fun h => .inr ⟨k, rfl, h⟩
  generalize logic.post l .readCore c = l' at hle hk
  dsimp only
  split
  · refine Logic.wp_bind.mpr (Logic.wp_mono (wp_releaseGroup ms k) ?_)
    rintro r l'' ⟨rfl, hle', hk'⟩
    exact hend (hle.trans hle') hk'
  · rename_i h
    have hk' := hk (by rw [h]; rintro ⟨⟩)
    exact ((keeps_releasePool hk').bind fun _ => logic.keeps_pure _ _).seq fun _ => hend hle hk'
  · rename_i h
    have hk' := hk (by rw [h]; rintro ⟨⟩)
    exact ((keeps_releaseEnviron hk').bind fun _ => logic.keeps_pure _ _).seq fun _ => hend hle hk'
  · rename_i h
    exact hend hle (hk (by rw [h]; rintro ⟨⟩))

/-- **After `release` both groups are closed**, whatever it returns. -/
theorem wp_releaseCore :
    logic.wp WinIOCore.releaseCore (fun _ l' => l'.call = l.call ∧ ∀ k : PoolKind, k.num ∈ l'.closed) l := by
  refine Logic.op_bind trivial fun c hc => ?_
  have hcall : (logic.post l .readCore c).call = l.call := rfl
  generalize logic.post l .readCore c = l₀ at hcall
  have huser := hc .user
  dsimp only
  rw [show c.user.cleanupGroup = some PoolKind.user.num from huser.cleanupGroup,
    show c.user.threadpool = some PoolKind.user.num from huser.threadpool]
  refine Logic.wp_bind.mpr (Logic.wp_mono (wp_releaseThreadpool _ .user) ?_)
  rintro r l₁ ⟨rfl, hle, hk⟩
  rw [if_neg (not_not_intro rfl)]
  refine Logic.op_bind trivial fun c hc => ?_
  have hle' : l₁.Le (logic.post l₁ .readCore c) := ⟨rfl, fun _ => .inl⟩
  generalize logic.post l₁ .readCore c = l₂ at hle'
  have hio := hc .io
  rw [show c.io.cleanupGroup = some PoolKind.io.num from hio.cleanupGroup,
    show c.io.threadpool = some PoolKind.io.num from hio.threadpool]
  refine Logic.wp_bind.mpr (Logic.wp_mono (wp_releaseThreadpool _ .io) ?_)
  rintro r l₃ ⟨rfl, hle'', hk'⟩
  rw [if_neg (not_not_intro rfl)]
  have hend : l₃.call = l.call ∧ ∀ k : PoolKind, k.num ∈ l₃.closed := by
    refine ⟨((hle.trans hle').trans hle'').1.trans hcall, fun k => ?_⟩
    cases k with
    | io => exact hk'
    | user => exact hle''.2 (hle'.2 hk)
  refine Logic.op_bind trivial fun r _ => ?_
  rcases r with e | _ <;> exact hend

theorem tame : Tame logic (fun l => l.thread = none) (· = idle) where
  plain _ ho := plain ho
  dropRef _ := ⟨trivial, fun _ _ => ⟨rfl, fun _ _ => keeps_waitAndClose _⟩⟩
  deleteIOData _ := ⟨trivial, fun _ _ => ⟨rfl, fun _ _ => keeps_waitAndClose _⟩⟩
  out := by
    rintro _ rfl
    rfl
  enter := by
    rintro _ c rfl
    exact ⟨trivial, fun _ _ => rfl⟩
  leave := by
    rintro _ c n r rfl - hc
    exact ⟨⟨c, rfl, fun h => (hc (h ▸ trivial)).elim⟩, rfl⟩
  close _ _ _ _ := keeps_waitAndClose _
  core := by
    rintro _ c n rfl hn hc
    cases c with
    | initializeCore => exact (hn rfl).elim
    | releaseCore =>
      refine Logic.wp_mono wp_releaseCore ?_
      rintro r l' ⟨hcall, hk⟩
      exact ⟨⟨_, hcall, fun _ => hk⟩, rfl⟩
    | _ => exact hc.elim

/-! ### The invariant -/

end Release

/-- What the world has on record about the pools, the cleanup threads and the calls. -/
structure Pools where
  core : WinIOCore
  poolGroup : PoolId → Option GroupId
  poolCloses : PoolId → ℕ
  groupCloses : GroupId → ℕ
  membersBegun : GroupId → Bool
  membersDone : GroupId → Bool
  helpers : List Helper
  calls : CallId → Option ApiCall
  results : CallId → Option ErrorCode
  nextCall : CallId

/-- The pools of a world. -/
def World.pools (w : World) : Pools :=
  ⟨w.core, w.poolGroup, w.poolCloses, w.groupCloses, w.membersBegun, w.membersDone, w.helpers, w.calls,
    w.results, w.nextCall⟩

namespace Release

/-- The pools are released in order. -/
structure Ok (p : Pools) : Prop where
  slot : ∀ k, (p.core.slot k).IsOf k
  rollback : ∀ k, (p.core.slot k).rollback ≠ .createCleanupGroup → p.membersDone k.num = true
  poolGroup : ∀ k : PoolKind, p.poolGroup k.num = some k.num
  poolCloses : ∀ k : PoolKind, 0 < p.poolCloses k.num → p.membersDone k.num = true
  groupCloses : ∀ g, 0 < p.groupCloses g → p.membersDone g = true
  begun : ∀ g, p.membersDone g = true → p.membersBegun g = true
  helpers : ∀ h : Helper, h ∈ p.helpers → h.done = true → ∀ g ∈ h.group, p.membersDone g = true
  calls : ∀ n c, p.calls n = some c → n < p.nextCall
  results : ∀ n r, p.results n = some r → n < p.nextCall
  returned : ∀ n r, p.calls n = some .releaseCore → p.results n = some r →
    ∀ k : PoolKind, p.membersDone k.num = true

/-- What a thread knows is so. -/
structure Knows (p : Pools) (l : Local) : Prop where
  call : ∀ n c, l.call = some (n, c) → p.calls n = some c
  thread : ∀ k g, l.thread = some (k, g) → ∃ h, p.helpers[k]? = some h ∧ h.group = g
  begun : ∀ g ∈ l.begun, p.membersBegun g = true
  closed : ∀ g ∈ l.closed, p.membersDone g = true

/-- What is so stays so. -/
structure Later (p p' : Pools) : Prop where
  calls : ∀ n c, p.calls n = some c → p'.calls n = some c
  helpers : ∀ (k : ℕ) (h : Helper), p.helpers[k]? = some h →
    ∃ h', p'.helpers[k]? = some h' ∧ h'.group = h.group
  begun : ∀ g, p.membersBegun g = true → p'.membersBegun g = true
  done : ∀ g, p.membersDone g = true → p'.membersDone g = true

theorem Later.rfl {p : Pools} : Later p p :=
  ⟨fun _ _ => id, fun _ h hh => ⟨h, hh, Eq.refl _⟩, fun _ => id, fun _ => id⟩

theorem Knows.later {p p' : Pools} {l : Local} (hK : Knows p l) (h : Later p p') : Knows p' l := by
  refine ⟨fun n c hc => h.calls n c (hK.call n c hc), fun k g ht => ?_,
    fun g hg => h.begun g (hK.begun g hg), fun g hg => h.done g (hK.closed g hg)⟩
  obtain ⟨hp, hk, hg⟩ := hK.thread k g ht
  obtain ⟨hp', hk', hg'⟩ := h.helpers k hp hk
  exact ⟨hp', hk', hg'.trans hg⟩

theorem knows_idle {p : Pools} : Knows p idle := ⟨nofun, nofun, nofun, nofun⟩

theorem mark_of {f : ℕ → Bool} {x : Option ℕ} {g : ℕ} (h : f g = true) : mark f x g = true := by
  cases x with
  | none => exact h
  | some y =>
    show Function.update f y true g = true
    by_cases hg : g = y
    · rw [hg, Function.update_self]
    · rwa [Function.update_of_ne hg]

theorem mark_self {f : ℕ → Bool} {x : Option ℕ} {g : ℕ} (h : x = some g) : mark f x g = true := by
  subst h
  exact Function.update_self ..

theorem of_mark {f : ℕ → Bool} {x : Option ℕ} {g : ℕ} (h : mark f x g = true) :
    x = some g ∨ f g = true := by
  cases x with
  | none => exact .inr h
  | some y =>
    have h' : Function.update f y true g = true := h
    by_cases hg : g = y
    · exact .inl (congrArg some hg.symm)
    · rw [Function.update_of_ne hg] at h'
      exact .inr h'

theorem of_bump {f : ℕ → ℕ} {x : Option ℕ} {g : ℕ} (h : 0 < bump f x g) : x = some g ∨ 0 < f g := by
  cases x with
  | none => exact .inr h
  | some y =>
    have h' : 0 < Function.update f y (f y + 1) g := h
    by_cases hg : g = y
    · exact .inl (congrArg some hg.symm)
    · rw [Function.update_of_ne hg] at h'
      exact .inr h'

/-- What a step keeps, and what the thread that makes it knows after it. -/
structure Kept (p p' : Pools) (l' : Local) : Prop where
  ok : Ok p'
  later : Later p p'
  knows : Knows p' l'

/-- A step that does nothing to the pools. -/
theorem Kept.same {p p' : Pools} {l : Local} (h : p' = p) (hO : Ok p) (hK : Knows p l) : Kept p p' l := by
  subst h
  exact ⟨hO, .rfl, hK⟩

variable {w : World} {l : Local} {t : ℕ}

theorem Ok.enter (hO : Ok w.pools) (hK : Knows w.pools l) (c : ApiCall) :
    Kept w.pools (w.enterCall t c).pools { l with call := some (w.nextCall, c) } := by
  have hne : ∀ {n : CallId}, n < w.nextCall → n ≠ w.nextCall := fun h => Nat.ne_of_lt h
  have hlater : Later w.pools (w.enterCall t c).pools :=
    ⟨fun n c' hc => (Function.update_of_ne (hne (hO.calls n c' hc)) ..).trans hc,
      Later.rfl.helpers, fun _ => id, fun _ => id⟩
  refine ⟨⟨hO.slot, hO.rollback, hO.poolGroup, hO.poolCloses, hO.groupCloses, hO.begun, hO.helpers,
    fun n c' hc => ?_, fun n r hr => (hO.results n r hr).trans (Nat.lt_succ_self _), fun n r hc hr => ?_⟩,
    hlater, ⟨fun n c' h => ?_, (hK.later hlater).thread, hK.begun, hK.closed⟩⟩
  · by_cases hn : n = w.nextCall
    · exact hn ▸ Nat.lt_succ_self _
    · have hc' : w.calls n = some c' := (Function.update_of_ne hn ..).symm.trans hc
      exact (hO.calls n c' hc').trans (Nat.lt_succ_self _)
  · have hc' : w.calls n = some .releaseCore :=
      (Function.update_of_ne (hne (hO.results n r hr)) ..).symm.trans hc
    exact hO.returned n r hc' hr
  · cases h
    exact Function.update_self ..

theorem Ok.leave {n : CallId} {r : ErrorCode} (hO : Ok w.pools) (hK : Knows w.pools l)
    (hpre : pre l (.leave n r)) : Kept w.pools (w.leaveCall t n r).pools idle := by
  obtain ⟨c, hcall, hrel⟩ := hpre
  have hc := hK.call n c hcall
  refine ⟨⟨hO.slot, hO.rollback, hO.poolGroup, hO.poolCloses, hO.groupCloses, hO.begun, hO.helpers,
    hO.calls, fun m r' hr => ?_, fun m r' hc' hr => ?_⟩,
    ⟨fun _ _ => id, Later.rfl.helpers, fun _ => id, fun _ => id⟩, knows_idle⟩
  · by_cases hm : m = n
    · exact hm ▸ hO.calls n c hc
    · exact hO.results m r' ((Function.update_of_ne hm ..).symm.trans hr)
  · by_cases hm : m = n
    · subst hm
      have hc'' : w.calls m = some .releaseCore := hc'
      cases hc''.symm.trans hc
      exact fun k => hK.closed _ (hrel rfl k)
    · exact hO.returned m r' hc' ((Function.update_of_ne hm ..).symm.trans hr)

theorem Ok.readCore (hO : Ok w.pools) (hK : Knows w.pools l) :
    Kept w.pools w.pools (post l .readCore w.core) := by
  refine ⟨hO, .rfl, hK.call, hK.thread, hK.begun, fun g hg => ?_⟩
  rcases hg with hg | ⟨k, rfl, hk⟩
  · exact hK.closed g hg
  · exact hO.rollback k hk

theorem Ok.writeSlot {k : PoolKind} {f : PoolSlot → PoolSlot} (hO : Ok w.pools) (hK : Knows w.pools l)
    (hpre : pre l (.writeSlot k f)) : Kept w.pools (w.setSlot k f).pools l := by
  have hslot : ∀ k', (w.setSlot k f).core.slot k' = if k' = k then f (w.core.slot k) else w.core.slot k' := by
    intro k'
    cases k <;> cases k' <;> rfl
  refine ⟨⟨fun k' => ?_, fun k' hr => ?_, hO.poolGroup, hO.poolCloses, hO.groupCloses, hO.begun,
    hO.helpers, hO.calls, hO.results, hO.returned⟩,
    ⟨fun _ _ => id, Later.rfl.helpers, fun _ => id, fun _ => id⟩, hK.call, hK.thread, hK.begun, hK.closed⟩
  · show PoolSlot.IsOf ((w.setSlot k f).core.slot k') k'
    rw [hslot]
    split
    · rename_i h
      subst h
      exact hpre.2 _ (hO.slot k')
    · exact hO.slot k'
  · by_cases h : k' = k
    · subst h
      exact hK.closed _ hpre.1
    · have hr' : ((w.setSlot k f).core.slot k').rollback ≠ .createCleanupGroup := hr
      rw [hslot, if_neg h] at hr'
      exact hO.rollback k' hr'

theorem Ok.createThread {g : Option GroupId} (hO : Ok w.pools) (hK : Knows w.pools l) :
    Kept w.pools (w.createThread t g none).pools { l with thread := some (w.helpers.length, g) } := by
  have hold : ∀ (k : ℕ) (h : Helper), w.helpers[k]? = some h → (w.helpers ++ [⟨g, false, false⟩])[k]? = some h := by
    intro k h hk
    rw [List.getElem?_append_left (List.getElem?_eq_some_iff.mp hk).1]
    exact hk
  refine ⟨⟨hO.slot, hO.rollback, hO.poolGroup, hO.poolCloses, hO.groupCloses, hO.begun, fun h hh hd => ?_,
    hO.calls, hO.results, hO.returned⟩,
    ⟨fun _ _ => id, fun k h hk => ⟨h, hold k h hk, rfl⟩, fun _ => id, fun _ => id⟩,
    hK.call, fun k g' ht => ?_, hK.begun, hK.closed⟩
  · rcases List.mem_append.mp hh with hh | hh
    · exact hO.helpers h hh hd
    · rw [List.mem_singleton.mp hh] at hd
      cases hd
  · cases ht
    exact ⟨⟨g, false, false⟩, List.getElem?_concat_length, rfl⟩

theorem Ok.wait {k : ℕ} (ms : UInt32) (hO : Ok w.pools) (hK : Knows w.pools l)
    (hd : ((w.helpers[k]?).any (·.done)) = true) :
    Kept w.pools w.pools (post l (.waitForSingleObject k ms) .signalled) := by
  refine ⟨hO, .rfl, hK.call, hK.thread, hK.begun, fun g hg => ?_⟩
  rcases hg with hg | hg
  · exact hK.closed g hg
  · obtain ⟨h, hk, hh⟩ := hK.thread k _ hg
    have hk' : w.helpers[k]? = some h := hk
    rw [hk'] at hd
    exact hO.helpers h (List.mem_of_getElem? hk) hd g hh

theorem Ok.closeMembers (hO : Ok w.pools) (hK : Knows w.pools l) (g : GroupId) :
    Kept w.pools (w.closeMembers g).pools { l with begun := l.begun ∪ {x | some g = some x} } := by
  have hbegun : ∀ x, w.membersBegun x = true → (w.closeMembers g).membersBegun x = true :=
    fun x hx => mark_of (x := some g) hx
  refine ⟨⟨hO.slot, hO.rollback, hO.poolGroup, hO.poolCloses, hO.groupCloses,
    fun x hx => hbegun x (hO.begun x hx), hO.helpers, hO.calls, hO.results, hO.returned⟩,
    ⟨fun _ _ => id, Later.rfl.helpers, hbegun, fun _ => id⟩,
    hK.call, hK.thread, fun x hx => ?_, hK.closed⟩
  rcases hx with hx | hx
  · exact hbegun x (hK.begun x hx)
  · exact mark_self (f := w.membersBegun) hx

theorem Ok.closedMembers {g : Option GroupId} (hO : Ok w.pools) (hK : Knows w.pools l)
    (hpre : pre l (.closedThreadpoolCleanupGroupMembers g)) :
    Kept w.pools (w.closedMembers g).pools { l with closed := l.closed ∪ {x | g = some x} } := by
  have hdone : ∀ x, w.membersDone x = true → (w.closedMembers g).membersDone x = true :=
    fun x hx => mark_of hx
  refine ⟨⟨hO.slot, fun k hr => hdone _ (hO.rollback k hr), hO.poolGroup,
    fun k hk => hdone _ (hO.poolCloses k hk), fun x hx => hdone x (hO.groupCloses x hx), fun x hx => ?_,
    fun h hh hd x hx => hdone x (hO.helpers h hh hd x hx), hO.calls, hO.results,
    fun n r hc hr k => hdone _ (hO.returned n r hc hr k)⟩,
    ⟨fun _ _ => id, Later.rfl.helpers, fun _ => id, hdone⟩, hK.call, hK.thread, hK.begun, fun x hx => ?_⟩
  · rcases of_mark hx with hx | hx
    · exact hK.begun x (hpre x hx)
    · exact hO.begun x hx
  · rcases hx with hx | hx
    · exact hdone x (hK.closed x hx)
    · exact mark_self hx

theorem Ok.exitThread {k : ℕ} (hO : Ok w.pools) (hK : Knows w.pools l) (hpre : pre l (.exitThread k)) :
    Kept w.pools (w.exitThread k).pools l := by
  obtain ⟨g, ht, hg⟩ := hpre
  have hget : ∀ (k' : ℕ) (h : Helper), w.helpers[k']? = some h →
      ∃ h', (w.exitThread k).helpers[k']? = some h' ∧ h'.group = h.group := by
    intro k' h hk
    refine ⟨if k = k' then { h with done := true } else h, ?_, by split <;> rfl⟩
    show (w.helpers.modify k _)[k']? = _
    rw [List.getElem?_modify, hk]
    split <;> rfl
  have hlater : Later w.pools (w.exitThread k).pools := ⟨fun _ _ => id, hget, fun _ => id, fun _ => id⟩
  refine ⟨⟨hO.slot, hO.rollback, hO.poolGroup, hO.poolCloses, hO.groupCloses, hO.begun,
    fun h hh hd x hx => ?_, hO.calls, hO.results, hO.returned⟩, hlater, hK.later hlater⟩
  obtain ⟨k', hk'⟩ := List.mem_iff_getElem?.mp hh
  have hk'' : (w.helpers.modify k fun h => { h with done := true })[k']? = some h := hk'
  rw [List.getElem?_modify] at hk''
  obtain ⟨h₀, hk₀, heq⟩ := Option.map_eq_some_iff.mp hk''
  by_cases hkk : k = k'
  · subst hkk
    rw [if_pos rfl] at heq
    obtain ⟨h₁, hk₁, hg₁⟩ := hK.thread k g ht
    cases hk₀.symm.trans hk₁
    have hgr : h.group = g := by rw [← heq]; exact hg₁
    exact hK.closed x (hg x (hgr ▸ hx))
  · rw [if_neg hkk] at heq
    subst heq
    exact hO.helpers h₀ (List.mem_of_getElem? hk₀) hd x hx

theorem Ok.closeGroup {g : Option GroupId} (hO : Ok w.pools) (hK : Knows w.pools l)
    (hpre : pre l (.closeThreadpoolCleanupGroup g)) : Kept w.pools (w.closeGroup g).pools l := by
  refine ⟨⟨hO.slot, hO.rollback, hO.poolGroup, hO.poolCloses, fun x hx => ?_, hO.begun, hO.helpers,
    hO.calls, hO.results, hO.returned⟩, ⟨fun _ _ => id, Later.rfl.helpers, fun _ => id, fun _ => id⟩,
    hK.call, hK.thread, hK.begun, hK.closed⟩
  rcases of_bump hx with hx | hx
  · exact hK.closed x (hpre x hx)
  · exact hO.groupCloses x hx

theorem Ok.closePool {p : Option PoolId} (hO : Ok w.pools) (hK : Knows w.pools l)
    (hpre : pre l (.closeThreadpool p)) : Kept w.pools (w.closePool p).pools l := by
  obtain ⟨k, rfl, hk⟩ := hpre
  refine ⟨⟨hO.slot, hO.rollback, hO.poolGroup, fun k' hk' => ?_, hO.groupCloses, hO.begun, hO.helpers,
    hO.calls, hO.results, hO.returned⟩, ⟨fun _ _ => id, Later.rfl.helpers, fun _ => id, fun _ => id⟩,
    hK.call, hK.thread, hK.begun, hK.closed⟩
  have hbump : 0 < bump w.poolCloses (some k.num) k'.num := hk'
  rcases of_bump hbump with hk' | hk'
  · exact hK.closed _ (Option.some.inj hk' ▸ hk)
  · exact hO.poolCloses k' hk'

theorem Ok.startCleanup {k : ℕ} {h : Helper} (hO : Ok w.pools) (hk : w.helpers[k]? = some h) :
    Kept w.pools (World.pools { w with helpers := w.helpers.set k { h with started := true } })
      ⟨none, some (k, h.group), ∅, ∅⟩ := by
  have hlt : k < w.helpers.length := (List.getElem?_eq_some_iff.mp hk).1
  have hself : (w.helpers.set k { h with started := true })[k]? = some { h with started := true } :=
    List.getElem?_set_self hlt
  refine ⟨⟨hO.slot, hO.rollback, hO.poolGroup, hO.poolCloses, hO.groupCloses, hO.begun,
    fun h' hh hd => ?_, hO.calls, hO.results, hO.returned⟩,
    ⟨fun _ _ => id, fun k' h' hk' => ?_, fun _ => id, fun _ => id⟩, nofun, fun k' g ht => ?_, nofun, nofun⟩
  · rcases List.mem_or_eq_of_mem_set hh with hh | rfl
    · exact hO.helpers h' hh hd
    · exact hO.helpers h (List.mem_of_getElem? hk) hd
  · by_cases hkk : k' = k
    · subst hkk
      have hh : h = h' := Option.some.inj (hk.symm.trans hk')
      exact ⟨_, hself, by rw [hh]⟩
    · exact ⟨h', (List.getElem?_set_ne (Ne.symm hkk)).trans hk', rfl⟩
  · cases ht
    exact ⟨_, hself, rfl⟩

/-- What a step may do: cleanup threads start, and end in time, and the core is not set up again. -/
def joins : Op → Ans → Bool
  | .enter .initializeCore, _ => false
  | .createThread _, a => a.error.isNone
  | .waitForSingleObject _ _, a => (a.wait matches .signalled)
  | _, _ => true

/-- **A call of a thread that has what it needs** releases in order, and its reply is as promised. -/
theorem Ok.run {o : Op} {a : Ans} (hO : Ok w.pools) (hK : Knows w.pools l) (hpre : logic.pre l o)
    (hj : joins o a = true) (hr : w.returns o a = true) : logic.given l o (w.reply t o a).1 ∧
      Kept w.pools (w.reply t o a).2.pools (logic.post l o (w.reply t o a).1) := by
  cases o with
  | enter c =>
    refine ⟨?_, hO.enter hK c⟩
    rintro rfl
    cases hj
  | leave n r => exact ⟨trivial, hO.leave hK hpre⟩
  | readCore => exact ⟨hO.slot, hO.readCore hK⟩
  | writeSlot k f => exact ⟨trivial, hO.writeSlot hK hpre⟩
  | createThread g =>
    obtain ⟨error, _⟩ := a
    cases error with
    | some e => cases hj
    | none => exact ⟨⟨_, rfl⟩, hO.createThread hK⟩
  | waitForSingleObject k ms =>
    obtain ⟨_, _, _, _, _, wait⟩ := a
    cases wait with
    | signalled => exact ⟨rfl, hO.wait ms hK hr⟩
    | _ => cases hj
  | closeThreadpoolCleanupGroupMembers g =>
    refine ⟨trivial, ?_⟩
    cases g with
    | none => exact ⟨hO, .rfl, hK.call, hK.thread, fun x hx => hK.begun x (hx.resolve_right nofun), hK.closed⟩
    | some g => exact hO.closeMembers hK g
  | closedThreadpoolCleanupGroupMembers g => exact ⟨trivial, hO.closedMembers hK hpre⟩
  | exitThread k => exact ⟨trivial, hO.exitThread hK hpre⟩
  | closeThreadpoolCleanupGroup g => exact ⟨trivial, hO.closeGroup hK hpre⟩
  | closeThreadpool p => exact ⟨trivial, hO.closePool hK hpre⟩
  | makeCore c => exact hpre.elim
  | destroyCore => exact hpre.elim
  | exchangeStop b => exact hpre.elim
  | initializeThreadpoolEnvironment k => exact hpre.elim
  | setThreadpoolCallbackPool k p => exact hpre.elim
  | setThreadpoolCallbackCleanupGroup k g => exact hpre.elim
  | _ => exact ⟨trivial, .same (by cases w; rfl) hO hK⟩

/-- What is kept. -/
structure Inv (w : World) (ls : ℕ → Local) : Prop where
  ok : Ok w.pools
  knows : ∀ t, Knows w.pools (ls t)
  inOrder : ∀ g, .membersOpen g ∉ w.faults

theorem inOrder_reply {o : Op} {a : Ans} (hO : Ok w.pools) (hK : Knows w.pools l)
    (hf : ∀ g, .membersOpen g ∉ w.faults) (hpre : logic.pre l o) (g : GroupId) :
    .membersOpen g ∉ (w.reply t o a).2.faults := by
  intro h
  rcases World.mem_faults_reply h with h | hc
  · exact hf g h
  have hopen : w.membersDone g = true → w.membersDone g = false → False := fun h h' => by
    rw [h] at h'
    cases h'
  cases o with
  | closeThreadpoolCleanupGroup x =>
    obtain ⟨hx, hd⟩ := hc
    exact hopen (hK.closed g (hpre g hx)) hd
  | closeThreadpool p =>
    obtain ⟨hp, hd⟩ := hc
    obtain ⟨k, rfl, hk⟩ := hpre
    have hg : k.num = g := Option.some.inj ((hO.poolGroup k).symm.trans hp)
    exact hopen (hg ▸ hK.closed _ hk) hd
  | _ => exact hc

/-- The condition on a run. -/
def guard : RunGuard := .ofBool (fun _ _ o a => joins o a) fun _ _ => true

theorem proof : machine.Proof logic guard idle Inv where
  run := by
    intro w ls t o a hI hpre hg hr
    obtain ⟨hgiven, hkept⟩ :=
      hI.ok.run (t := t) (hI.knows t) hpre hg (Bool.and_eq_true_iff.mp hr).2
    refine ⟨hgiven, hkept.ok, fun t' => ?_, inOrder_reply hI.ok (hI.knows t) hI.inOrder hpre⟩
    by_cases ht : t' = t
    · subst ht
      rw [Function.update_self]
      exact hkept.knows
    · rw [Function.update_of_ne ht]
      exact (hI.knows t').later hkept.later
  env := by
    intro w ls n e w' p hI hidle _ he
    have hother : (∀ k, e ≠ .startCleanup k) → Inv w' ls → ∃ l, Inv w' (Function.update ls n l) ∧
        (p = none → l = idle) ∧ ∀ q ∈ p, logic.wp q (fun _ _ => True) l := by
      intro hne hI'
      refine ⟨idle, ?_, fun _ => rfl, fun q hq => ?_⟩
      · rw [← hidle n le_rfl, Function.update_eq_self]
        exact hI'
      · cases hq
        exact tame.blocks.event rfl trivial (fun k _ h => (hne k h).elim) he
    cases World.event_step he with
    | @startCleanup k h hk hs =>
      have hkept := hI.ok.startCleanup hk
      refine ⟨⟨none, some (k, h.group), ∅, ∅⟩, ⟨hkept.ok, fun t => ?_, hI.inOrder⟩, nofun, ?_⟩
      · by_cases ht : t = n
        · subst ht
          rw [Function.update_self]
          exact hkept.knows
        · rw [Function.update_of_ne ht]
          exact (hI.knows t).later hkept.later
      · intro q hq
        cases hq
        exact wp_cleanupThread k h.group
    | _ => exact hother nofun ⟨hI.ok, hI.knows, hI.inOrder⟩

theorem inv_start (conf : IOCoreConfig) : Inv (World.start conf) fun _ => idle := by
  refine ⟨⟨fun k => ?_, fun k hk => ?_, fun k => ?_, nofun, nofun, nofun, nofun, nofun, nofun, nofun⟩,
    fun _ => knows_idle, nofun⟩
  · cases k <;> exact ⟨rfl, rfl, rfl⟩
  · cases k <;> exact absurd rfl hk
  · cases k <;> rfl

/-! ### Quiescence -/

/-- The members of a group are not being closed. -/
def stillOpen (w : World) (g : Option GroupId) : Bool := g.all fun g => !w.membersBegun g

/-- What a step may do: it gives nothing to a pool whose members are being closed. -/
def notLate (w : World) : Op → Bool
  | .trySubmitThreadpoolCallback _ _ k => stillOpen w (w.core.slot k).environ.group
  | _ => true

/-- No operation completes on a TP_IO whose group is being closed. -/
def completesInTime (w : World) : Event → Bool
  | .complete k _ => (w.kernel[k]?).all fun e => stillOpen w e.group
  | _ => true

/-- The condition on a run. -/
def quietGuard : RunGuard := .ofBool (fun w _ o a => joins o a && notLate w o) completesInTime

theorem guard_le_quietGuard : guard.Le quietGuard :=
  ⟨fun _ _ _ _ h => (Bool.and_eq_true_iff.mp h).1, fun _ _ _ => rfl⟩

/-- What is closed is quiet. -/
structure Quiet (w : World) : Prop where
  ioQueue : ∀ cb ∈ w.ioQueue, ∀ g, cb.group = some g → w.membersBegun g = false
  queue : ∀ q ∈ w.queue, ∀ g, q.group = some g → w.membersBegun g = false
  running : ∀ r ∈ w.running, ∀ g, r.2.group = some g → w.membersDone g = false
  ok : .notQuiescent ∉ w.faults

variable {ls : ℕ → Local} {o : Op} {a : Ans}

theorem stillOpen_iff {x : Option GroupId} :
    stillOpen w x = true ↔ ∀ g, x = some g → w.membersBegun g = false := by
  cases x <;> simp [stillOpen]

theorem Ok.notDone {g : GroupId} (hO : Ok w.pools) (hb : w.membersBegun g = false) :
    w.membersDone g = false := by
  cases hd : w.membersDone g with
  | false => rfl
  | true =>
    have hb' : w.membersBegun g = true := hO.begun g hd
    rw [hb] at hb'
    cases hb'

/-- Both pools are quiet when their members are closed. -/
theorem Quiet.quiescent (hQ : Quiet w) (hO : Ok w.pools)
    (hk : ∀ k : PoolKind, w.membersDone k.num = true) : w.quiescent = true := by
  have hgroup : ∀ k : PoolKind, w.groupQueued k.num = false ∧ w.groupRunning k.num = false := by
    intro k
    have hb : w.membersBegun k.num = true := hO.begun _ (hk k)
    refine ⟨?_, ?_⟩
    · rw [World.groupQueued, Bool.or_eq_false_iff, List.any_eq_false, List.any_eq_false]
      refine ⟨fun cb hcb h => ?_, fun q hq h => ?_⟩
      · rw [hQ.ioQueue cb hcb _ (of_decide_eq_true h)] at hb
        cases hb
      · rw [hQ.queue q hq _ (of_decide_eq_true h)] at hb
        cases hb
    · rw [World.groupRunning, List.any_eq_false]
      intro r hr h
      have hd := hk k
      rw [hQ.running r hr _ (of_decide_eq_true h)] at hd
      cases hd
  have hio : w.core.io.cleanupGroup = some PoolKind.io.num := (hO.slot .io).cleanupGroup
  have huser : w.core.user.cleanupGroup = some PoolKind.user.num := (hO.slot .user).cleanupGroup
  simp [World.quiescent, hio, huser, hgroup]

theorem Quiet.ok_reply (hQ : Quiet w) (hO : Ok w.pools) (hK : Knows w.pools (ls t))
    (hpre : logic.pre (ls t) o) : .notQuiescent ∉ (w.reply t o a).2.faults := by
  intro h
  rcases World.mem_faults_reply h with h | hc
  · exact hQ.ok h
  cases o with
  | leave n r =>
    obtain ⟨hn, -, hq⟩ := hc
    obtain ⟨c, hcall, hrel⟩ := hpre
    have hn' : w.calls n = some c := hK.call n c hcall
    cases hn.symm.trans hn'
    rw [hQ.quiescent hO fun k => hK.closed _ (hrel rfl k)] at hq
    cases hq
  | _ => exact hc

/-- A step that gives nothing to a pool, and closes nothing. -/
theorem Quiet.mono {w' : World} (hQ : Quiet w) (hi : ∀ cb ∈ w'.ioQueue, cb ∈ w.ioQueue)
    (hq : ∀ q ∈ w'.queue, q ∈ w.queue) (hr : ∀ r ∈ w'.running, r ∈ w.running)
    (hb : w'.membersBegun = w.membersBegun) (hd : w'.membersDone = w.membersDone)
    (hok : .notQuiescent ∉ w'.faults) : Quiet w' := by
  refine ⟨fun cb hcb => ?_, fun q hq' => ?_, fun r hr' => ?_, hok⟩
  · rw [hb]
    exact hQ.ioQueue cb (hi cb hcb)
  · rw [hb]
    exact hQ.queue q (hq q hq')
  · rw [hd]
    exact hQ.running r (hr r hr')

theorem Quiet.closeMembers (hQ : Quiet w) (g : GroupId) : Quiet (w.closeMembers g) := by
  have hb : ∀ {x}, x ≠ g → w.membersBegun x = false → (w.closeMembers g).membersBegun x = false :=
    fun hx h => (Function.update_of_ne hx ..).trans h
  refine ⟨fun cb hcb x hx => ?_, fun q hq x hx => ?_, hQ.running, hQ.ok⟩
  · obtain ⟨hcb, hne⟩ := List.mem_filter.mp hcb
    refine hb ?_ (hQ.ioQueue cb hcb x hx)
    rintro rfl
    exact of_decide_eq_true hne hx
  · obtain ⟨hq, hne⟩ := List.mem_filter.mp hq
    refine hb ?_ (hQ.queue q hq x hx)
    rintro rfl
    exact of_decide_eq_true hne hx

theorem Quiet.closedMembers {g : Option GroupId} (hQ : Quiet w)
    (hr : ∀ x, g = some x → w.groupRunning x = false) : Quiet (w.closedMembers g) := by
  refine ⟨hQ.ioQueue, hQ.queue, fun r hmem x hx => ?_, hQ.ok⟩
  cases hd : (w.closedMembers g).membersDone x with
  | false => rfl
  | true =>
    rcases of_mark hd with hg | hg
    · have hx' := List.any_eq_false.mp (hr x hg) r hmem
      exact absurd (decide_eq_true hx) hx'
    · have hd' := hQ.running r hmem x hx
      rw [hg] at hd'
      cases hd'

/-- **A call that gives nothing to a pool that is being closed keeps what is closed quiet.** -/
theorem Quiet.run (hQ : Quiet w) (hO : Ok w.pools) (hK : Knows w.pools (ls t))
    (hpre : logic.pre (ls t) o) (hl : notLate w o = true) (hr : w.returns o a = true) :
    Quiet (w.reply t o a).2 := by
  have hok := hQ.ok_reply (a := a) hO hK hpre
  cases o with
  | trySubmitThreadpoolCallback f c k =>
    refine ⟨hQ.ioQueue, fun q hq => ?_, hQ.running, hok⟩
    have hq' : q ∈ if a.error.isNone then w.queue ++ [w.work f c k] else w.queue := hq
    split at hq'
    · rcases List.mem_append.mp hq' with hq' | hq'
      · exact hQ.queue q hq'
      · rw [List.mem_singleton.mp hq']
        exact stillOpen_iff.mp hl
    · exact hQ.queue q hq'
  | closeThreadpoolCleanupGroupMembers g =>
    cases g with
    | none => exact hQ
    | some g => exact hQ.closeMembers g
  | closedThreadpoolCleanupGroupMembers g =>
    refine hQ.closedMembers ?_
    rintro x rfl
    simpa [World.returns] using hr
  | callbackReturn =>
    exact hQ.mono (fun _ => id) (fun _ => id) (fun _ h => (List.mem_filter.mp h).1) rfl rfl hok
  | _ =>
    cases w
    exact hQ.mono (fun _ => id) (fun _ => id) (fun _ => id) rfl rfl hok

theorem Quiet.event {w' : World} {n : ℕ} {e : Event} {p : Option (Prog Unit)} (hQ : Quiet w)
    (hO : Ok w.pools) (hg : completesInTime w e = true) (he : w.event n e = some (w', p)) : Quiet w' := by
  cases World.event_step he with
  | spawn cs => exact hQ
  | @complete k e c hk =>
    refine ⟨fun cb hcb => ?_, hQ.queue, hQ.running, hQ.ok⟩
    rcases List.mem_append.mp hcb with hcb | hcb
    · exact hQ.ioQueue cb hcb
    · have hopen : ((w.kernel[k]?).all fun e => stillOpen w e.group) = true := hg
      rw [hk] at hopen
      rw [List.mem_singleton.mp hcb]
      exact stillOpen_iff.mp hopen
  | @dispatchIo k cb hk =>
    refine ⟨fun cb' h => hQ.ioQueue cb' (List.mem_of_mem_eraseIdx h), hQ.queue, fun r hr g hgr => ?_, hQ.ok⟩
    rcases List.mem_cons.mp hr with rfl | hr
    · exact hO.notDone (hQ.ioQueue cb (List.mem_of_getElem? hk) g hgr)
    · exact hQ.running r hr g hgr
  | @dispatchWork k q hk =>
    refine ⟨hQ.ioQueue, fun q' h => hQ.queue q' (List.mem_of_mem_eraseIdx h), fun r hr g hgr => ?_, hQ.ok⟩
    rcases List.mem_cons.mp hr with rfl | hr
    · exact hO.notDone (hQ.queue q (List.mem_of_getElem? hk) g hgr)
    · exact hQ.running r hr g hgr
  | startCleanup hk hs => exact ⟨hQ.ioQueue, hQ.queue, hQ.running, hQ.ok⟩
  | dropIoCore => exact ⟨hQ.ioQueue, hQ.queue, hQ.running, hQ.ok⟩

theorem quietProof : machine.Proof logic quietGuard idle fun w ls => Inv w ls ∧ Quiet w := by
  refine (proof.guard guard_le_quietGuard).and ?_ ?_
  · intro w ls t o a hI hQ hpre hg hr _
    exact hQ.run hI.ok (hI.knows t) hpre (Bool.and_eq_true_iff.mp hg).2 (Bool.and_eq_true_iff.mp hr).2
  · intro w ls n e w' p l hI hQ _ hg he _ _
    exact hQ.event hI.ok hg he

/-! ### Posting -/

/-- What a step may do: it submits nothing to a pool whose members are closed. -/
def beforeClosed (w : World) : Op → Bool
  | .trySubmitThreadpoolCallback _ _ k => (w.core.slot k).environ.group.all fun g => !w.membersDone g
  | _ => true

/-- The condition on a run. -/
def postGuard : RunGuard := .ofBool (fun w _ o a => joins o a && beforeClosed w o) fun _ _ => true

theorem guard_le_postGuard : guard.Le postGuard :=
  ⟨fun _ _ _ _ h => (Bool.and_eq_true_iff.mp h).1, fun _ _ => id⟩

/-- A pool whose members are not closed is not closed. -/
theorem Ok.environClosed {k : PoolKind} (hO : Ok w.pools)
    (hd : ((w.core.slot k).environ.group.all fun g => !w.membersDone g) = true) :
    w.environClosed (w.core.slot k).environ = false := by
  have he : (w.core.slot k).environ = ⟨some k.num, some k.num⟩ := (hO.slot k).environ
  rw [he] at hd ⊢
  have hd' : w.membersDone k.num = false := by simpa using hd
  have hnot : w.membersDone k.num ≠ true := by simp [hd']
  have hp : ¬ 0 < w.poolCloses k.num := fun h => hnot (hO.poolCloses k h)
  have hg : ¬ 0 < w.groupCloses k.num := fun h => hnot (hO.groupCloses _ h)
  simp [World.environClosed, hp, hg]

theorem postProof : machine.Proof logic postGuard idle fun w ls =>
    Inv w ls ∧ ∀ k, .closedPool k ∉ w.faults := by
  refine (proof.guard guard_le_postGuard).and ?_ ?_
  · intro w ls t o a hI hJ hpre hg hr _ k hf
    rcases World.mem_faults_reply hf with hf | hc
    · exact hJ k hf
    cases o with
    | trySubmitThreadpoolCallback f c k' =>
      obtain ⟨rfl, hclosed⟩ := hc
      rw [hI.ok.environClosed (Bool.and_eq_true_iff.mp hg).2] at hclosed
      cases hclosed
    | _ => exact hc
  · intro w ls n e w' p l hI hJ _ _ he _ _ k
    cases World.event_step he <;> exact hJ k

/-! ### Schedules -/

/-- The calls of a `release` for one pool, up to the start of its cleanup thread. -/
def untilThread (t : ℕ) : List (Machine.Act Ans Event) := List.replicate 3 (.run t {})

/-- Its calls from the wait on, the wait answered by `r`. -/
def fromWait (t : ℕ) (r : WaitResult) : List (Machine.Act Ans Event) :=
  .run t { wait := r } :: List.replicate 8 (.run t {})

/-- A cleanup thread from its start to its end, as thread `n`. -/
def cleanup (k n : ℕ) : List (Machine.Act Ans Event) := .env (.startCleanup k) :: List.replicate 3 (.run n {})

end Release

/-- **A release means quiescence** in a run that meets the condition: no cleanup group, and no pool,
was closed before the members of the group, and no `release` has returned `Success` with a callback
queued or running. -/
theorem release_in_order {conf : IOCoreConfig} {s : State}
    (h : machine.Reach Release.quietGuard (State.start conf) s) :
    (∀ g, .membersOpen g ∉ s.w.faults) ∧ .notQuiescent ∉ s.w.faults := by
  obtain ⟨ls, hI, hQ⟩ := Release.quietProof.invariant
    ⟨Release.inv_start conf, ⟨nofun, nofun, nofun, nofun⟩⟩ h
  exact ⟨hI.inOrder, hQ.ok⟩

/-- Work is posted, and run, and the core is released. -/
theorem release_in_order_worked : ∃ s : State,
    machine.Reach Release.quietGuard (State.start ⟨0, 0, 0, 0⟩) s ∧ s.w.executed 0 = 1 ∧
      s.w.results 1 = some .success ∧ s.w.groupCloses 1 = 1 ∧ .notQuiescent ∉ s.w.faults := by
  obtain ⟨s, hs, hp⟩ := Machine.exists_reach_of_fire (m := machine) (g := Release.quietGuard)
    (s := State.start ⟨0, 0, 0, 0⟩) (P := fun s => decide (s.w.executed 0 = 1) &&
      decide (s.w.results 1 = some .success) && decide (s.w.groupCloses 1 = 1)) Machine.allows_checks
    (l := .env (.spawn [.postUserWork 7, .releaseCore]) :: List.replicate 4 (.run 0 {}) ++
      .env (.dispatchWork 0) :: List.replicate 4 (.run 1 {}) ++ .run 0 {} :: Release.untilThread 0 ++
      Release.cleanup 0 2 ++ Release.fromWait 0 .signalled ++ Release.untilThread 0 ++
      Release.cleanup 1 3 ++ Release.fromWait 0 .signalled ++ List.replicate 2 (.run 0 {}))
    (by decide +kernel)
  simp only [Bool.and_eq_true, decide_eq_true_eq] at hp
  obtain ⟨⟨hran, hres⟩, hclosed⟩ := hp
  exact ⟨s, hs, hran, hres, hclosed, (release_in_order hs).2⟩

/-- The cleanup thread does not end in time. -/
theorem membersOpen_timeout : ¬ ∀ conf (s : State), machine.Reach .free (State.start conf) s →
    (∀ g, .membersOpen g ∉ s.w.faults) ∧ .notQuiescent ∉ s.w.faults := by
  intro h
  obtain ⟨s, hs, hp⟩ := Machine.exists_reach_of_fire (m := machine) (c := fun _ _ => true)
    (s := State.start ⟨0, 0, 0, 0⟩) (P := fun s => s.w.faults.contains (.membersOpen 1))
    Machine.allows_free
    (l := .env (.spawn [.releaseCore]) :: .run 0 {} :: Release.untilThread 0 ++
      Release.fromWait 0 .timeout) (by decide +kernel)
  exact (h _ s hs).1 1 (by simpa using hp)

/-- **The pools outlive what is posted to them** in a run that meets the condition: every
`TrySubmitThreadpoolCallback` was made with an environment whose pool and cleanup group were open. -/
theorem no_closedPool {conf : IOCoreConfig} {s : State}
    (h : machine.Reach Release.postGuard (State.start conf) s) (k : PoolKind) :
    .closedPool k ∉ s.w.faults := by
  obtain ⟨ls, -, hJ⟩ := Release.postProof.invariant ⟨Release.inv_start conf, nofun⟩ h
  exact hJ k

/-- Work is posted to the IO pool when the user pool is closed already. -/
theorem no_closedPool_during : ∃ s : State,
    machine.Reach Release.postGuard (State.start ⟨0, 0, 0, 0⟩) s ∧ s.w.poolCloses 1 = 1 ∧
      s.w.works 0 ≠ none ∧ s.w.results 0 = some .success ∧ .closedPool .io ∉ s.w.faults := by
  obtain ⟨s, hs, hp⟩ := Machine.exists_reach_of_fire (m := machine) (g := Release.postGuard)
    (s := State.start ⟨0, 0, 0, 0⟩) (P := fun s => decide (s.w.poolCloses 1 = 1) &&
      (s.w.works 0).isSome && decide (s.w.results 0 = some .success)) Machine.allows_checks
    (l := .env (.spawn [.releaseCore]) :: .env (.spawn [.postIoWork 7]) :: .run 0 {} ::
      Release.untilThread 0 ++ Release.cleanup 0 2 ++ Release.fromWait 0 .signalled ++
      List.replicate 4 (.run 1 {}) ++ Release.untilThread 0 ++ Release.cleanup 1 3 ++
      Release.fromWait 0 .signalled ++ List.replicate 2 (.run 0 {})) (by decide +kernel)
  simp only [Bool.and_eq_true, decide_eq_true_eq] at hp
  obtain ⟨⟨hclosed, hwork⟩, hres⟩ := hp
  exact ⟨s, hs, hclosed, Option.isSome_iff_ne_none.mp hwork, hres, no_closedPool hs .io⟩

/-- Work is posted after `release` has returned. -/
theorem closedPool_released : ¬ ∀ conf (s : State), machine.Reach .free (State.start conf) s →
    ∀ k, .closedPool k ∉ s.w.faults := by
  intro h
  obtain ⟨s, hs, hp⟩ := Machine.exists_reach_of_fire (m := machine) (c := fun _ _ => true)
    (s := State.start ⟨0, 0, 0, 0⟩) (P := fun s => s.w.faults.contains (.closedPool .user))
    Machine.allows_free
    (l := .env (.spawn [.releaseCore, .postUserWork 7]) :: .run 0 {} :: Release.untilThread 0 ++
      Release.cleanup 0 1 ++ Release.fromWait 0 .signalled ++ Release.untilThread 0 ++
      Release.cleanup 1 2 ++ Release.fromWait 0 .signalled ++ List.replicate 5 (.run 0 {}))
    (by decide +kernel)
  exact h _ s hs .user (by simpa using hp)

end FirelinkNet
