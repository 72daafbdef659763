import FirelinkNet.Kept
import FirelinkNet.Release

/-!
# The closures given to the pools

`post_user_work` and `post_io_work` put a closure on the heap and give it to a pool,
which runs it and deletes it. A closure that is queued when the members of the pool's
cleanup group are closed is discarded: no cleanup callback is registered, so that
nobody deletes it, and the `IOData` that it captured is deleted by running it only.

A closure is in one place at a time (`FuncPlace`), as an operation is. What is known of
its place here goes with what `Ownership` knows of the `IOData`.

## What is proved

* `settled_of_returned` — **closures survive a release** in a run in which nothing of a
  group is queued when its members begin to be closed: when a `release` has returned,
  every closure that was submitted before was run and deleted, once, and so was the
  `IOData` that it captured.
-/

namespace FirelinkNet

open Lib

/-- What the world has on record about the closures, and the deletions of the `IOData`. -/
structure Closures where
  nextFunc : FuncId
  works : FuncId → Option Work
  executed : FuncId → ℕ
  funcFrees : FuncId → ℕ
  queue : List Work
  frees : DataId → ℕ

/-- The closures of a world. -/
def World.closures (w : World) : Closures :=
  ⟨w.nextFunc, w.works, w.executed, w.funcFrees, w.queue, w.frees⟩

/-- Where a closure is. -/
inductive FuncPlace where
  /-- Nowhere yet. -/
  | unborn
  /-- With thread `t`, which has not given it away. -/
  | inHand (t : ℕ)
  /-- In the queue of a pool. -/
  | queued (q : Work)
  /-- With thread `t`, which runs it: was it invoked, was it deleted, and is the `IOData` gone? -/
  | running (t : ℕ) (q : Work) (ran freed emptied : Bool)
  /-- The pool refused it, and it was deleted. -/
  | refused
  /-- It was run. -/
  | done (q : Work)

namespace FuncPlace

/-- What is on record about a closure: what was submitted, the calls and the deletions. -/
def record : FuncPlace → Option Work × ℕ × ℕ
  | .unborn | .inHand _ => (none, 0, 0)
  | .queued q => (some q, 0, 0)
  | .running _ q ran freed _ => (some q, ran.toNat, freed.toNat)
  | .refused => (none, 0, 1)
  | .done q => (some q, 1, 1)

/-- The `IOData` that is gone with it. -/
def gone : FuncPlace → Option DataId
  | .running _ q _ _ true | .done q => q.closure.ioData
  | _ => none

end FuncPlace

namespace Ownership

/-- The closure that a thread runs: was it invoked, was it deleted, and is the `IOData` gone? -/
def Job.work? (j : Job) : Option (Work × Bool × Bool × Bool) :=
  match j.task with
  | .work q => some (q, j.ran, j.freed, j.held.isNone)
  | .io _ => none

/-- The closure that a thread runs. -/
def Local.work? (l : Local) : Option (Work × Bool × Bool × Bool) := l.job.bind (·.work?)

/-- What is on record about the closures is right. -/
structure Funcs (c : Closures) (ls : ℕ → Local) (fp : FuncId → FuncPlace) : Prop where
  record : ∀ f, (c.works f, c.executed f, c.funcFrees f) = (fp f).record
  gone : ∀ f i, (fp f).gone = some i → c.frees i = 1
  born : ∀ f, fp f = .unborn ↔ c.nextFunc ≤ f
  queue : Keyed (fun q => some q.func) c.queue fun f q => fp f = .queued q
  inHand : ∀ t f, fp f = .inHand t ↔ (ls t).func = some f
  running : ∀ t f q ran freed emptied, fp f = .running t q ran freed emptied ↔
    (ls t).work? = some (q, ran, freed, emptied) ∧ q.func = f

section Moves

variable {c c' : Closures} {ls : ℕ → Local} {fp : FuncId → FuncPlace} {t : ℕ} {f : FuncId} {p' : FuncPlace}
  {l' : Local}

/-- Nothing happens to the closures. -/
theorem Funcs.same {ls' : ℕ → Local} (hF : Funcs c ls fp) (hn : c'.nextFunc = c.nextFunc)
    (hw : c'.works = c.works) (he : c'.executed = c.executed) (hd : c'.funcFrees = c.funcFrees)
    (hq : c'.queue = c.queue) (hi : ∀ i, c.frees i = 1 → c'.frees i = 1)
    (hfunc : ∀ t, (ls' t).func = (ls t).func) (hwork : ∀ t, (ls' t).work? = (ls t).work?) :
    Funcs c' ls' fp where
  record f := by
    rw [hw, he, hd]
    exact hF.record f
  gone f i h := hi i (hF.gone f i h)
  born f := by
    rw [hn]
    exact hF.born f
  queue := by
    rw [hq]
    exact hF.queue
  inHand t f := by
    rw [hfunc]
    exact hF.inHand t f
  running t f q ran freed emptied := by
    rw [hwork]
    exact hF.running t f q ran freed emptied

/-- What is in the hand of thread `t` changes. -/
theorem Funcs.hands (hF : Funcs c ls fp) (hold : ∀ t', fp f = .inHand t' → t' = t)
    (hnew : ∀ t', p' = .inHand t' → t' = t) (hall : ∀ f', (ls t).func = some f' → f' = f)
    (hfunc : ∀ f', l'.func = some f' ↔ f' = f ∧ p' = .inHand t) (t' : ℕ) (f' : FuncId) :
    Function.update fp f p' f' = .inHand t' ↔ (Function.update ls t l' t').func = some f' := by
  by_cases ht : t' = t
  · subst ht
    rw [Function.update_self, hfunc]
    by_cases hf : f' = f
    · subst hf
      simp
    · rw [Function.update_of_ne hf, hF.inHand]
      exact ⟨fun h => absurd (hall f' h) hf, fun h => absurd h.1 hf⟩
  · rw [Function.update_of_ne ht, ← hF.inHand]
    exact update_of_not (P := fun p : FuncPlace => p = .inHand t') (fun h => ht (hold t' h)) (fun h => ht (hnew t' h)) f'

/-- What thread `t` runs changes. -/
theorem Funcs.runs (hF : Funcs c ls fp)
    (hold : ∀ t' q ran freed emptied, fp f = .running t' q ran freed emptied → t' = t)
    (hnew : ∀ t' q ran freed emptied, p' = .running t' q ran freed emptied → t' = t)
    (hall : ∀ q ran freed emptied, (ls t).work? = some (q, ran, freed, emptied) → q.func = f)
    (hwork : ∀ q ran freed emptied, l'.work? = some (q, ran, freed, emptied) ↔
      p' = .running t q ran freed emptied)
    (hfunc : ∀ t' q ran freed emptied, p' = .running t' q ran freed emptied → q.func = f)
    (t' : ℕ) (f' : FuncId) (q : Work) (ran freed emptied : Bool) :
    Function.update fp f p' f' = .running t' q ran freed emptied ↔
      (Function.update ls t l' t').work? = some (q, ran, freed, emptied) ∧ q.func = f' := by
  by_cases ht : t' = t
  · subst ht
    rw [Function.update_self, hwork]
    by_cases hf : f' = f
    · subst hf
      rw [Function.update_self]
      exact ⟨fun h => ⟨h, hfunc _ _ _ _ _ h⟩, fun h => h.1⟩
    · rw [Function.update_of_ne hf, hF.running]
      refine ⟨fun ⟨h, h'⟩ => ?_, fun ⟨h, h'⟩ => ?_⟩
      · exact absurd (h'.symm.trans (hall _ _ _ _ h)) hf
      · exact absurd (h'.symm.trans (hfunc _ _ _ _ _ h)) hf
  · rw [Function.update_of_ne ht, ← hF.running]
    exact update_of_not (P := fun p : FuncPlace => p = .running t' q ran freed emptied)
      (fun h => ht (hold _ _ _ _ _ h)) (fun h => ht (hnew _ _ _ _ _ h)) f'

theorem func_update (hfunc : l'.func = (ls t).func) (t' : ℕ) :
    (Function.update ls t l' t').func = (ls t').func := forall_update (fun _ l => l.func) hfunc t'

theorem work_update (hwork : l'.work? = (ls t).work?) (t' : ℕ) :
    (Function.update ls t l' t').work? = (ls t').work? := forall_update (fun _ l => l.work?) hwork t'

/-- The closures in hand stay, when one moves that is in no hand. -/
theorem Funcs.hands_same (hF : Funcs c ls fp) (hold : ∀ t', fp f ≠ .inHand t') (hnew : ∀ t', p' ≠ .inHand t')
    (hfunc : l'.func = (ls t).func) (t' : ℕ) (f' : FuncId) :
    Function.update fp f p' f' = .inHand t' ↔ (Function.update ls t l' t').func = some f' := by
  rw [func_update hfunc, ← hF.inHand]
  exact update_of_not (P := fun p : FuncPlace => p = .inHand t') (hold t') (hnew t') f'

/-- The closures that run stay, when one moves that does not. -/
theorem Funcs.runs_same (hF : Funcs c ls fp)
    (hold : ∀ t' q ran freed emptied, fp f ≠ .running t' q ran freed emptied)
    (hnew : ∀ t' q ran freed emptied, p' ≠ .running t' q ran freed emptied)
    (hwork : l'.work? = (ls t).work?) (t' : ℕ) (f' : FuncId) (q : Work) (ran freed emptied : Bool) :
    Function.update fp f p' f' = .running t' q ran freed emptied ↔
      (Function.update ls t l' t').work? = some (q, ran, freed, emptied) ∧ q.func = f' := by
  rw [work_update hwork, ← hF.running]
  exact update_of_not (P := fun p : FuncPlace => p = .running t' q ran freed emptied) (hold _ _ _ _ _)
    (hnew _ _ _ _ _) f'

/-- The queue stays, when a closure moves that is not in it. -/
theorem Funcs.queue_same (hF : Funcs c ls fp) (hold : ∀ q, fp f ≠ .queued q) (hnew : ∀ q, p' ≠ .queued q) :
    Keyed (fun q => some q.func) c.queue fun f' q => Function.update fp f p' f' = .queued q :=
  hF.queue.congr fun f' q => update_of_not (P := fun p : FuncPlace => p = .queued q) (hold q) (hnew q) f'

/-- **A closure moves**: all is well when its own record is, and the places agree with the queue and with
what the threads know. -/
theorem Funcs.move {ls' : ℕ → Local} (hF : Funcs c ls fp) (f : FuncId) (p' : FuncPlace) (hborn : c'.nextFunc = c.nextFunc)
    (hu : fp f ≠ .unborn) (hu' : p' ≠ .unborn)
    (hother : ∀ f', f' ≠ f → (c'.works f', c'.executed f', c'.funcFrees f') =
      (c.works f', c.executed f', c.funcFrees f'))
    (hrecord : (c'.works f, c'.executed f, c'.funcFrees f) = p'.record)
    (hfrees : ∀ i, c.frees i = 1 → c'.frees i = 1) (hgone : ∀ i, p'.gone = some i → c'.frees i = 1)
    (hqueue : Keyed (fun q => some q.func) c'.queue fun f' q => Function.update fp f p' f' = .queued q)
    (hhand : ∀ t f', Function.update fp f p' f' = .inHand t ↔ (ls' t).func = some f')
    (hrun : ∀ t f' q ran freed emptied, Function.update fp f p' f' = .running t q ran freed emptied ↔
      (ls' t).work? = some (q, ran, freed, emptied) ∧ q.func = f') : ∃ fp', Funcs c' ls' fp' := by
  refine ⟨_, fun f' => ?_, fun f' i h => ?_, fun f' => ?_, hqueue, hhand, hrun⟩
  · by_cases hf : f' = f
    · subst hf
      rw [Function.update_self]
      exact hrecord
    · rw [Function.update_of_ne hf, hother f' hf]
      exact hF.record f'
  · by_cases hf : f' = f
    · subst hf
      rw [Function.update_self] at h
      exact hgone i h
    · rw [Function.update_of_ne hf] at h
      exact hfrees i (hF.gone f' i h)
  · rw [hborn, ← hF.born]
    exact update_of_not (P := fun p : FuncPlace => p = .unborn) hu hu' f'

/-- `new std::move_only_function<void()>`. -/
theorem Funcs.newFunc (hF : Funcs c ls fp) (hl : (ls t).func = none) :
    ∃ fp', Funcs { c with nextFunc := c.nextFunc + 1 }
      (Function.update ls t { ls t with func := some c.nextFunc }) fp' := by
  have hun : fp c.nextFunc = .unborn := (hF.born _).mpr le_rfl
  refine ⟨Function.update fp c.nextFunc (.inHand t), fun f' => ?_, fun f' i h => ?_, fun f' => ?_,
    hF.queue_same (by simp [hun]) nofun, hF.hands ?_ ?_ ?_ ?_, hF.runs_same (by simp [hun]) (fun _ _ _ _ _ => by simp) rfl⟩
  · by_cases hf : f' = c.nextFunc
    · subst hf
      have hr := hF.record c.nextFunc
      rw [hun] at hr
      rw [Function.update_self]
      exact hr
    · rw [Function.update_of_ne hf]
      exact hF.record f'
  · by_cases hf : f' = c.nextFunc
    · subst hf
      rw [Function.update_self] at h
      cases h
    · rw [Function.update_of_ne hf] at h
      exact hF.gone f' i h
  · by_cases hf : f' = c.nextFunc
    · subst hf
      rw [Function.update_self]
      exact ⟨nofun, fun h => absurd h (Nat.not_succ_le_self _)⟩
    · rw [Function.update_of_ne hf, hF.born]
      show c.nextFunc ≤ f' ↔ c.nextFunc + 1 ≤ f'
      lia
  · rw [hun]
    exact nofun
  · rintro t' ⟨⟩
    rfl
  · intro f' h
    rw [hl] at h
    cases h
  · intro f'
    simp [eq_comm]

/-- A closure in hand is where the thread is. -/
theorem Funcs.place_hand (hF : Funcs c ls fp) (hl : (ls t).func = some f) :
    fp f = .inHand t ∧ c.works f = none ∧ c.executed f = 0 ∧ c.funcFrees f = 0 := by
  have hp := (hF.inHand t f).mpr hl
  have hr := hF.record f
  rw [hp] at hr
  simp only [FuncPlace.record, Prod.mk.injEq] at hr
  exact ⟨hp, hr⟩

/-- A pool takes the closure. -/
theorem Funcs.submit {q : Work} (hF : Funcs c ls fp) (hl : (ls t).func = some f) (hq : q.func = f)
    (hl' : l'.func = none) (hw : l'.work? = (ls t).work?) :
    ∃ fp', Funcs { c with queue := c.queue ++ [q], works := upd c.works f (some q) }
      (Function.update ls t l') fp' := by
  obtain ⟨hp, -, he, hd⟩ := hF.place_hand hl
  refine hF.move f (.queued q) rfl (by simp [hp]) nofun (fun f' hf => ?_) ?_ (fun _ => id) nofun ?_
    (hF.hands ?_ nofun ?_ ?_) (hF.runs_same (by simp [hp]) (fun _ _ _ _ _ => by simp) hw)
  · simp [hf]
  · simp [FuncPlace.record, he, hd]
  · refine hF.queue.push (i := f) (congrArg some hq) (by simp [hp]) fun f' q' => ?_
    by_cases hf : f' = f
    · subst hf
      simp [hp, eq_comm]
    · simp [hf]
  · rw [hp]
    rintro t' ⟨⟩
    rfl
  · intro f' h
    exact Option.some.inj (h.symm.trans hl)
  · simp [hl']

/-- A closure that was not taken is deleted. -/
theorem Funcs.refuse (hF : Funcs c ls fp) (hl : (ls t).func = some f) (hl' : l'.func = none)
    (hw : l'.work? = (ls t).work?) :
    ∃ fp', Funcs { c with funcFrees := upd c.funcFrees f (c.funcFrees f + 1) }
      (Function.update ls t l') fp' := by
  obtain ⟨hp, hn, he, hd⟩ := hF.place_hand hl
  refine hF.move f .refused rfl (by simp [hp]) nofun (fun f' hf => ?_) ?_ (fun _ => id) nofun
    (hF.queue_same (by simp [hp]) nofun) (hF.hands ?_ nofun ?_ ?_)
    (hF.runs_same (by simp [hp]) (fun _ _ _ _ _ => by simp) hw)
  · simp [hf]
  · simp [FuncPlace.record, hn, he, hd]
  · rw [hp]
    rintro t' ⟨⟩
    rfl
  · intro f' h
    exact Option.some.inj (h.symm.trans hl)
  · simp [hl']

variable {q : Work} {ran freed emptied ran' freed' emptied' : Bool}

/-- A closure that runs is with its thread. -/
theorem Funcs.place_run (hF : Funcs c ls fp) (hl : (ls t).work? = some (q, ran, freed, emptied)) :
    fp q.func = .running t q ran freed emptied ∧ c.works q.func = some q ∧
      c.executed q.func = ran.toNat ∧ c.funcFrees q.func = freed.toNat := by
  have hp := (hF.running t q.func q ran freed emptied).mpr ⟨hl, rfl⟩
  have hr := hF.record q.func
  rw [hp] at hr
  simp only [FuncPlace.record, Prod.mk.injEq] at hr
  exact ⟨hp, hr⟩

/-- A callback goes on with its closure. -/
theorem Funcs.step (hF : Funcs c ls fp) (hl : (ls t).work? = some (q, ran, freed, emptied))
    (hl' : l'.work? = some (q, ran', freed', emptied')) (hfunc : l'.func = (ls t).func)
    (hborn : c'.nextFunc = c.nextFunc) (hqueue : c'.queue = c.queue)
    (hother : ∀ f', f' ≠ q.func → (c'.works f', c'.executed f', c'.funcFrees f') =
      (c.works f', c.executed f', c.funcFrees f'))
    (hrecord : (c'.works q.func, c'.executed q.func, c'.funcFrees q.func) =
      (some q, ran'.toNat, freed'.toNat))
    (hfrees : ∀ i, c.frees i = 1 → c'.frees i = 1)
    (hgone : emptied' = true → ∀ i, q.closure.ioData = some i → c'.frees i = 1) :
    ∃ fp', Funcs c' (Function.update ls t l') fp' := by
  obtain ⟨hp, -⟩ := hF.place_run hl
  refine hF.move q.func (.running t q ran' freed' emptied') hborn (by simp [hp]) nofun hother hrecord hfrees
    (fun i h => ?_) ?_ (hF.hands_same (by simp [hp]) nofun hfunc) (hF.runs ?_ ?_ ?_ ?_ ?_)
  · cases emptied' with
    | false => cases h
    | true => exact hgone rfl i h
  · rw [hqueue]
    exact hF.queue_same (by simp [hp]) nofun
  · rw [hp]
    rintro t' q' r d e ⟨⟩
    rfl
  · rintro t' q' r d e ⟨⟩
    rfl
  · intro q' r d e h
    rw [hl] at h
    cases h
    rfl
  · intro q' r d e
    rw [hl']
    simp
  · rintro t' q' r d e ⟨⟩
    rfl

/-- A callback that has run and deleted its closure returns. -/
theorem Funcs.return (hF : Funcs c ls fp) (hl : (ls t).work? = some (q, true, true, true))
    (hl' : l'.work? = none) (hfunc : l'.func = (ls t).func) :
    ∃ fp', Funcs c (Function.update ls t l') fp' := by
  obtain ⟨hp, hn, he, hd⟩ := hF.place_run hl
  refine hF.move q.func (.done q) rfl (by simp [hp]) nofun (fun _ _ => rfl) ?_ (fun _ => id)
    (fun i h => ?_) (hF.queue_same (by simp [hp]) nofun) (hF.hands_same (by simp [hp]) nofun hfunc)
    (hF.runs ?_ (fun _ _ _ _ _ h => by simp at h) ?_ ?_ (fun _ _ _ _ _ h => by simp at h))
  · simp [FuncPlace.record, hn, he, hd]
  · refine hF.gone q.func i ?_
    rw [hp]
    exact h
  · rw [hp]
    rintro t' q' r d e ⟨⟩
    rfl
  · intro q' r d e h
    rw [hl] at h
    cases h
    rfl
  · simp [hl']

/-- A thread of a pool takes up a closure. -/
theorem Funcs.dispatch {k : ℕ} (hF : Funcs c ls fp) (hk : c.queue[k]? = some q) (hidle : (ls t).work? = none)
    (hfunc : l'.func = (ls t).func) (hl' : l'.work? = some (q, false, false, emptied))
    (he : emptied = true → q.closure.ioData = none) :
    ∃ fp', Funcs { c with queue := c.queue.eraseIdx k } (Function.update ls t l') fp' := by
  have hp : fp q.func = .queued q := hF.queue.of_getElem? hk rfl
  have hr := hF.record q.func
  rw [hp] at hr
  refine hF.move q.func (.running t q false false emptied) rfl (by simp [hp]) nofun (fun _ _ => rfl) hr
    (fun _ => id) (fun i h => ?_) ?_ (hF.hands_same (by simp [hp]) nofun hfunc) (hF.runs ?_ ?_ ?_ ?_ ?_)
  · cases emptied with
    | false => cases h
    | true =>
      rw [FuncPlace.gone, he rfl] at h
      cases h
  · refine hF.queue.pop hk rfl fun f' q' => ?_
    by_cases hf : f' = q.func
    · subst hf
      simp
    · simp [hf]
  · intro t' q' r d e h
    simp [hp] at h
  · rintro t' q' r d e ⟨⟩
    rfl
  · intro q' r d e h
    rw [hidle] at h
    cases h
  · intro q' r d e
    rw [hl']
    simp
  · rintro t' q' r d e ⟨⟩
    rfl

end Moves

/-! ### The calls -/

section Calls

variable {m : Mode} {w w' : World} {ls : ℕ → Local} {fp : FuncId → FuncPlace} {t : ℕ} {o : Op} {a : Ans}
  {i : DataId} {d : IOData} {j : Job} {q : Work} {l' : Local}

/-- An `IOData` that was allocated is deleted once when it is not live any more, and not before. -/
theorem Inv.unborn_or_frees (hI : Inv m w ls) (i : DataId) : (w.heap i = .unborn ∧ w.frees i = 0) ∨
    w.frees i = if (w.heap i).isLive then 0 else 1 := by
  obtain ⟨pl, hpl⟩ := hI.items
  have hok := hpl.ok i
  by_cases hborn : pl i = .unborn
  · rw [hborn] at hok
    exact .inl ⟨congrArg Item.cell hok, congrArg Item.frees hok⟩
  · exact .inr (hok.frees hborn)

/-- What a thread has was not deleted. -/
theorem Inv.frees_of_has (hI : Inv m w ls) (h : (ls t).Has i d) : w.frees i = 0 := by
  have hcell : w.heap i = .live d := (hI.live h).1
  obtain ⟨-, hfrees⟩ | hfrees := hI.unborn_or_frees i
  · exact hfrees
  · rw [hfrees, hcell]
    rfl

/-- What was deleted is not live. -/
theorem Inv.dead_of_frees (hI : Inv m w ls) (h : w.frees i = 1) : (w.heap i).isLive = false := by
  obtain ⟨hcell, -⟩ | hfrees := hI.unborn_or_frees i
  · rw [hcell]
    rfl
  · cases hlive : (w.heap i).isLive with
    | false => rfl
    | true =>
      rw [h, hlive] at hfrees
      cases hfrees

theorem Local.work?_setJob {l : Local} {g : Job → Job} (hg : ∀ j, l.job = some j → (g j).work? = j.work?) :
    (l.setJob g).work? = l.work? := by
  cases hj : l.job with
  | none => simp [Local.work?, Local.setJob, hj]
  | some j => simpa [Local.work?, Local.setJob, hj] using hg j hj

theorem Local.work?_report {l : Local} {o : Op} (r : Res o) : (l.report o r).work? = l.work? := by
  unfold Local.report
  split
  · rfl
  · exact Local.work?_setJob fun j _ => rfl

/-- Whenever the members of a group begin to be closed, nothing of the group is queued. -/
def keepsQueued (w : World) : Op → Bool
  | .closeThreadpoolCleanupGroupMembers (some g) => w.queue.all fun q => q.group ≠ some g
  | _ => true

/-- A step that does nothing to the closures. -/
theorem Funcs.pass (hF : Funcs w.closures ls fp) (hw : w'.closures = w.closures)
    (hfunc : l'.func = (ls t).func) (hwork : l'.work? = (ls t).work?) :
    ∃ fp', Funcs w'.closures (Function.update ls t l') fp' := by
  rw [hw]
  exact ⟨fp, hF.same rfl rfl rfl rfl rfl (fun _ => id) (func_update hfunc) (work_update hwork)⟩

/-- `delete io_data`. -/
theorem Inv.funcs_delete (hI : Inv m w ls) (hF : Funcs w.closures ls fp)
    (hpre : (logic m).pre (ls t) (.deleteIOData i)) :
    ∃ fp', Funcs (w.reply t (.deleteIOData i) a).2.closures (Function.update ls t ((ls t).delete i)) fp' := by
  have hfrees : ∀ {d}, (ls t).Has i d → ∀ i', w.frees i' = 1 → upd w.frees i (w.frees i + 1) i' = 1 := by
    intro d h i' hi'
    by_cases hi : i' = i
    · subst hi
      rw [hI.frees_of_has h] at hi'
      cases hi'
    · exact (Function.update_of_ne hi ..).trans hi'
  have hself : ∀ {d}, (ls t).Has i d → upd w.frees i (w.frees i + 1) i = 1 := by
    intro d h
    rw [hI.frees_of_has h]
    exact Function.update_self ..
  rcases hpre with ⟨f, d, hf, hs⟩ | ⟨hf, j, d, hj, hi, hd, -⟩
  · rw [Local.delete_of_some hf]
    exact ⟨fp, hF.same rfl rfl rfl rfl rfl (hfrees (.inl ⟨f, hf, hs⟩)) (func_update rfl) (work_update rfl)⟩
  · have hhas : (ls t).Has i d := .inr ⟨hf, j, hj, hi, hd⟩
    rw [Local.delete_of_none hf]
    cases hk : j.task with
    | io cb =>
      have hwork : ((ls t).setJob fun j => { j with held := none }).work? = (ls t).work? := by
        refine Local.work?_setJob fun j' hj' => ?_
        cases hj.symm.trans hj'
        simp [Job.work?, hk]
      exact ⟨fp, hF.same rfl rfl rfl rfl rfl (hfrees hhas) (func_update rfl) (work_update hwork)⟩
    | work q =>
      have hwork : (ls t).work? = some (q, j.ran, j.freed, false) := by
        simp [Local.work?, hj, Job.work?, hk, hd]
      have hwork' : ((ls t).setJob fun j => { j with held := none }).work? =
          some (q, j.ran, j.freed, true) := by
        simp [Local.work?, Local.setJob, hj, Job.work?, hk]
      obtain ⟨-, hn, he, hdel⟩ := hF.place_run hwork
      refine hF.step hwork hwork' rfl rfl rfl (fun _ _ => rfl) ?_ (hfrees hhas) fun _ i' hi' => ?_
      · show (w.works q.func, w.executed q.func, w.funcFrees q.func) = _
        have hn' : w.works q.func = some q := hn
        have he' : w.executed q.func = j.ran.toNat := he
        have hdel' : w.funcFrees q.func = j.freed.toNat := hdel
        rw [hn', he', hdel']
      · have hi'' : i' = i := by
          have hq : q.closure.ioData = some i := by simpa [hk, Task.data] using hi
          exact Option.some.inj (hi'.symm.trans hq)
        rw [hi'']
        exact hself hhas

/-- `TrySubmitThreadpoolCallback`. -/
theorem Funcs.trySubmit {f : FuncId} {c : Closure} {k : PoolKind} (hF : Funcs w.closures ls fp)
    (hpre : (logic m).pre (ls t) (.trySubmitThreadpoolCallback f c k)) :
    ∃ fp', Funcs (w.trySubmit t f c k a).closures
      (Function.update ls t ((ls t).submit a.error.isNone)) fp' := by
  obtain ⟨hl, hpre⟩ := hpre
  have hwork : ((ls t).submit a.error.isNone).work? = (ls t).work? := by
    rcases hpre with ⟨fr, hf, -⟩ | ⟨hf, j, cb, d, g, hj, hk, -⟩
    · simp [Local.submit, hf, Local.work?]
    · simp [Local.submit, hf, Local.work?, Local.setJob, hj, Job.work?, hk]
  have hfunc : ((ls t).submit a.error.isNone).func = if a.error.isNone then none else (ls t).func := by
    rcases hpre with ⟨fr, hf, -⟩ | ⟨hf, -⟩ <;> simp [Local.submit, hf]
  cases ha : a.error.isNone with
  | true =>
    rw [ha] at hwork hfunc
    obtain ⟨fp', hF'⟩ := hF.submit (q := w.work f c k) hl rfl hfunc hwork
    exact ⟨fp', by simpa [World.trySubmit, World.closures, ha, World.check] using hF'⟩
  | false =>
    rw [ha] at hwork hfunc
    refine hF.pass ?_ hfunc hwork
    simp [World.trySubmit, World.closures, ha, World.check]

/-- `delete f`. -/
theorem Funcs.deleteFunc {f : FuncId} {e : Option Int32} (hF : Funcs w.closures ls fp)
    (hpre : (logic m).pre (ls t) (.deleteFunc f)) :
    ∃ fp', Funcs (w.deleteFunc t f e).closures (Function.update ls t (ls t).deleteFunc) fp' := by
  rcases hpre with hl | ⟨hl, hf, j, q, hj, hk, rfl, hfreed⟩
  · have hl' : (ls t).deleteFunc = { ls t with func := none } := by simp [Local.deleteFunc, hl]
    rw [hl']
    exact hF.refuse hl rfl rfl
  · have hl' : (ls t).deleteFunc = (ls t).setJob fun j => { j with freed := true } := by
      simp [Local.deleteFunc, hl]
    have hwork : (ls t).work? = some (q, j.ran, false, j.held.isNone) := by
      simp [Local.work?, hj, Job.work?, hk, hfreed]
    have hwork' : ((ls t).setJob fun j => { j with freed := true }).work? =
        some (q, j.ran, true, j.held.isNone) := by
      simp [Local.work?, Local.setJob, hj, Job.work?, hk]
    obtain ⟨hp, hn, he, hd⟩ := hF.place_run hwork
    rw [hl']
    refine hF.step hwork hwork' rfl rfl rfl (fun f' hf' => ?_) ?_ (fun _ => id) fun hem i hi => ?_
    · simp [World.closures, World.deleteFunc, World.leaveError, hf']
    · have hn' : w.works q.func = some q := hn
      have he' : w.executed q.func = j.ran.toNat := he
      have hd' : w.funcFrees q.func = 0 := hd
      simp [World.closures, World.deleteFunc, World.leaveError, hn', he', hd']
    · refine hF.gone q.func i ?_
      rw [hp, hem]
      exact hi

/-- `std::invoke(*f)`. -/
theorem Funcs.invokeFunc {f : FuncId} (hF : Funcs w.closures ls fp)
    (hpre : (logic m).pre (ls t) (.invokeFunc f)) :
    ∃ fp', Funcs (w.runFunc f).closures
      (Function.update ls t ((ls t).setJob fun j => { j with ran := true })) fp' := by
  obtain ⟨hf, j, q, hj, hk, rfl, hran⟩ := hpre
  have hwork : (ls t).work? = some (q, false, j.freed, j.held.isNone) := by
    simp [Local.work?, hj, Job.work?, hk, hran]
  have hwork' : ((ls t).setJob fun j => { j with ran := true }).work? =
      some (q, true, j.freed, j.held.isNone) := by
    simp [Local.work?, Local.setJob, hj, Job.work?, hk]
  obtain ⟨hp, hn, he, hd⟩ := hF.place_run hwork
  refine hF.step hwork hwork' rfl rfl rfl (fun f' hf' => ?_) ?_ (fun _ => id) fun hem i hi => ?_
  · simp [World.closures, World.runFunc, hf']
  · have hn' : w.works q.func = some q := hn
    have he' : w.executed q.func = 0 := he
    have hd' : w.funcFrees q.func = j.freed.toNat := hd
    simp [World.closures, World.runFunc, hn', he', hd']
  · refine hF.gone q.func i ?_
    rw [hp, hem]
    exact hi

/-- A callback returns. -/
theorem Funcs.callbackReturn (hF : Funcs w.closures ls fp) (hpre : (logic m).pre (ls t) .callbackReturn) :
    ∃ fp', Funcs (w.callbackReturn t).closures (Function.update ls t { ls t with job := none }) fp' := by
  obtain ⟨hf, j, hj, hret⟩ := hpre
  cases hk : j.task with
  | io cb =>
    refine hF.pass rfl rfl ?_
    simp [Local.work?, hj, Job.work?, hk]
  | work q =>
    rw [Job.CanReturn, hk] at hret
    obtain ⟨hheld, hran, hfreed⟩ := hret
    have hwork : (ls t).work? = some (q, true, true, true) := by
      simp [Local.work?, hj, Job.work?, hk, hheld, hran, hfreed]
    exact hF.return hwork rfl rfl

/-- **Every call keeps the record of the closures right.** -/
theorem Inv.funcs_run (hI : Inv m w ls) (hF : Funcs w.closures ls fp) (hpre : (logic m).pre (ls t) o)
    (hk : keepsQueued w o = true) : ∃ fp', Funcs (w.reply t o a).2.closures
      (Function.update ls t ((logic m).post (ls t) o (w.reply t o a).1)) fp' := by
  cases o with
  | deleteIOData i => exact hI.funcs_delete hF hpre
  | newFunc c => exact hF.newFunc hpre
  | trySubmitThreadpoolCallback f c k => exact hF.trySubmit hpre
  | deleteFunc f => exact hF.deleteFunc hpre
  | invokeFunc f => exact hF.invokeFunc hpre
  | callbackReturn => exact hF.callbackReturn hpre
  | writeIOData i d =>
    rcases hpre with ⟨f, d₀, hf, -⟩ | ⟨hf, j, cb, d₀, hj, hk, -⟩
    · show ∃ fp', Funcs _ (Function.update ls t ((ls t).write i d)) fp'
      rw [Local.write_of_some hf]
      exact hF.pass rfl rfl rfl
    · show ∃ fp', Funcs _ (Function.update ls t ((ls t).write i d)) fp'
      rw [Local.write_of_none hf]
      refine hF.pass rfl rfl (Local.work?_setJob fun j' hj' => ?_)
      cases hj.symm.trans hj'
      simp [Job.work?, hk]
  | invoke i f args =>
    refine hF.pass rfl rfl (Local.work?_setJob fun j _ => ?_)
    cases hk : j.task <;> simp [Job.work?, hk]
  | overlapped req i io =>
    refine hF.pass (by cases w; rfl) ?_ ?_
    · show (if _ then _ else _ : Local).func = _
      split <;> rfl
    · show (if _ then _ else _ : Local).work? = _
      split <;> rfl
  | closeThreadpoolCleanupGroupMembers g =>
    cases g with
    | none => exact hF.pass rfl rfl rfl
    | some g =>
      refine hF.pass ?_ rfl rfl
      have hall : w.queue.filter (fun q => q.group ≠ some g) = w.queue :=
        List.filter_eq_self.mpr (List.all_eq_true.mp hk)
      show (w.closeMembers g).closures = w.closures
      simp only [World.closures, World.closeMembers, hall]
  | getLastError | setsockopt _ _ | getAcceptExSockaddrs _ =>
    exact hF.pass rfl (Local.report_func _) (Local.work?_report _)
  | _ =>
    cases w
    exact hF.pass rfl rfl rfl

/-- **So does what happens of itself.** -/
theorem Inv.funcs_event {n : ℕ} {e : Event} {p : Option (Prog Unit)} {l : Local} (hI : Inv m w ls)
    (hF : Funcs w.closures ls fp) (hidle : ls n = ⟨none, none, none⟩) (he : w.event n e = some (w', p))
    (hl : l.Fresh) (hI' : Inv m w' (Function.update ls n l)) :
    ∃ fp', Funcs w'.closures (Function.update ls n l) fp' := by
  have hfunc : l.func = (ls n).func := by rw [hidle, hl.1]
  have hwork : (ls n).work? = none := by rw [hidle]; rfl
  have hnot : ∀ k, (n, k) ∉ w.running := by
    intro k hk
    obtain ⟨pl, hpl⟩ := hI.items
    have h := (hpl.threads.running n k).mp hk
    rw [hidle] at h
    cases h
  have htask : ∀ k, (n, k) ∈ w'.running ↔ l.task? = some k := by
    intro k
    obtain ⟨pl, hpl⟩ := hI'.items
    have h := hpl.threads.running n k
    rwa [Function.update_self] at h
  have hpass : (∀ q, (n, .work q) ∉ w'.running) → w'.closures = w.closures →
      ∃ fp', Funcs w'.closures (Function.update ls n l) fp' := by
    intro hnone hw
    refine hF.pass hw hfunc ?_
    rw [hwork]
    cases hj : l.job with
    | none => simp [Local.work?, hj]
    | some j =>
      cases hk : j.task with
      | io cb => simp [Local.work?, hj, Job.work?, hk]
      | work q => exact absurd ((htask (.work q)).mpr (by simp [Local.task?, hj, hk])) (hnone q)
  cases World.event_step he with
  | spawn cs => exact hpass (fun q => hnot _) rfl
  | complete c hk => exact hpass (fun q => hnot _) rfl
  | dispatchIo hk =>
    refine hpass (fun q hq => ?_) rfl
    rcases List.mem_cons.mp hq with hq | hq
    · cases hq
    · exact hnot _ hq
  | @dispatchWork k q hk =>
    obtain ⟨j, hj, hk'⟩ := Option.map_eq_some_iff.mp ((htask (.work q)).mp List.mem_cons_self)
    obtain ⟨hran, hfreed, hheld⟩ := hl.2 j q hj hk'
    have hwork' : l.work? = some (q, false, false, j.held.isNone) := by
      simp [Local.work?, hj, Job.work?, hk', hran, hfreed]
    exact hF.dispatch hk hwork hfunc hwork' fun h => hheld (Option.isNone_iff_eq_none.mp h)
  | startCleanup hk hs => exact hpass (fun q => hnot _) rfl
  | dropIoCore => exact hpass (fun q => hnot _) rfl

end Calls

end Ownership

/-! ### What is submitted in time -/

namespace Release

/-- A closure that was submitted before the members of its group began to be closed is not queued any more
when they do, and does not run any more when they are. -/
structure OnTime (w : World) : Prop where
  queue : ∀ q ∈ w.queue, q.late = false → ∀ g, q.group = some g → w.membersBegun g = false
  running : ∀ t q, (t, .work q) ∈ w.running → q.late = false → ∀ g, q.group = some g → w.membersDone g = false
  group : ∀ f q, w.works f = some q → q.group = some q.kind.num

variable {w w' : World} {t : ℕ} {o : Op} {a : Ans}

theorem OnTime.mono (h : OnTime w) (hq : ∀ q ∈ w'.queue, q ∈ w.queue) (hr : ∀ r ∈ w'.running, r ∈ w.running)
    (hw : w'.works = w.works) (hb : w'.membersBegun = w.membersBegun) (hd : w'.membersDone = w.membersDone) :
    OnTime w' := by
  refine ⟨fun q hq' => ?_, fun t q hr' => ?_, ?_⟩
  · rw [hb]
    exact h.queue q (hq q hq')
  · rw [hd]
    exact h.running t q (hr _ hr')
  · rw [hw]
    exact h.group

theorem OnTime.trySubmit {f : FuncId} {c : Closure} {k : PoolKind} (h : OnTime w) (hO : Ok w.pools) :
    OnTime (w.trySubmit t f c k a) := by
  cases ha : a.error.isNone with
  | false =>
    refine h.mono (fun q hq => ?_) (fun _ => id) ?_ rfl rfl
    · simpa [World.trySubmit, ha] using hq
    · simp [World.trySubmit, ha]
  | true =>
    refine ⟨fun q hq hl g hg => ?_, h.running, fun f' q hq => ?_⟩
    · have hq' : q ∈ w.queue ++ [w.work f c k] := by simpa [World.trySubmit, ha] using hq
      rcases List.mem_append.mp hq' with hq' | hq'
      · exact h.queue q hq' hl g hg
      · rw [List.mem_singleton.mp hq'] at hl hg
        have hg' : (w.core.slot k).environ.group = some g := hg
        have hl' : ((w.core.slot k).environ.group.any w.membersBegun) = false := hl
        rw [hg'] at hl'
        exact hl'
    · by_cases hf : f' = f
      · subst hf
        have hq' : w.work f' c k = q := by simpa [World.trySubmit, ha] using hq
        have henv : (w.core.slot k).environ = ⟨some k.num, some k.num⟩ := (hO.slot k).environ
        rw [← hq']
        exact congrArg Environ.group henv
      · exact h.group f' q (by simpa [World.trySubmit, ha, hf] using hq)

theorem OnTime.closeMembers (h : OnTime w) (g : GroupId) : OnTime (w.closeMembers g) := by
  refine ⟨fun q hq hl x hx => ?_, h.running, h.group⟩
  obtain ⟨hq, hne⟩ := List.mem_filter.mp hq
  have hxg : x ≠ g := by
    rintro rfl
    exact of_decide_eq_true hne hx
  exact (Function.update_of_ne hxg ..).trans (h.queue q hq hl x hx)

theorem OnTime.closedMembers {g : Option GroupId} (h : OnTime w)
    (hr : ∀ x, g = some x → w.groupRunning x = false) : OnTime (w.closedMembers g) := by
  refine ⟨h.queue, fun t q hmem hl x hx => ?_, h.group⟩
  cases hd : (w.closedMembers g).membersDone x with
  | false => rfl
  | true =>
    rcases of_mark hd with hg | hg
    · exact absurd (decide_eq_true hx) (List.any_eq_false.mp (hr x hg) _ hmem)
    · have hd' := h.running t q hmem hl x hx
      rw [hg] at hd'
      cases hd'

theorem OnTime.run (h : OnTime w) (hO : Ok w.pools) (hr : w.returns o a = true) :
    OnTime (w.reply t o a).2 := by
  cases o with
  | trySubmitThreadpoolCallback f c k => exact h.trySubmit hO
  | closeThreadpoolCleanupGroupMembers g =>
    cases g with
    | none => exact h
    | some g => exact h.closeMembers g
  | closedThreadpoolCleanupGroupMembers g =>
    refine h.closedMembers ?_
    rintro x rfl
    simpa [World.returns] using hr
  | callbackReturn => exact h.mono (fun _ => id) (fun _ h => (List.mem_filter.mp h).1) rfl rfl rfl
  | _ =>
    cases w
    exact h.mono (fun _ => id) (fun _ => id) rfl rfl rfl

theorem OnTime.event {n : ℕ} {e : Event} {p : Option (Prog Unit)} (h : OnTime w) (hO : Ok w.pools)
    (he : w.event n e = some (w', p)) : OnTime w' := by
  cases World.event_step he with
  | @dispatchIo k cb hk =>
    refine ⟨h.queue, fun t q hr => ?_, h.group⟩
    rcases List.mem_cons.mp hr with hr | hr
    · cases hr
    · exact h.running t q hr
  | @dispatchWork k q hk =>
    refine ⟨fun q' hq => h.queue q' (List.mem_of_mem_eraseIdx hq), fun t q' hr hl g hg => ?_, h.group⟩
    rcases List.mem_cons.mp hr with hr | hr
    · cases hr
      exact hO.notDone (h.queue q (List.mem_of_getElem? hk) hl g hg)
    · exact h.running t q' hr hl g hg
  | _ => exact h.mono (fun _ => id) (fun _ => id) rfl rfl rfl

theorem onTimeProof : machine.Proof logic guard idle fun w ls => Inv w ls ∧ OnTime w := by
  refine proof.and ?_ ?_
  · intro w ls t o a hI h _ _ hr _
    exact h.run hI.ok (Bool.and_eq_true_iff.mp hr).2
  · intro w ls n e w' p l hI h _ _ he _ _
    exact h.event hI.ok he

end Release

/-! ### Release -/

/-- The condition on a run: cleanup threads start, and end in time, the core is not set up again, and nothing
of a group is queued when its members begin to be closed. -/
def drained : RunGuard :=
  .ofBool (fun w _ o a => Release.joins o a && Ownership.keepsQueued w o) fun _ _ => true

theorem Ownership.funcsProof : machine.Proof (logic anyMode) drained ⟨none, none, none⟩
    fun w ls => Inv anyMode w ls ∧ ∃ fp, Funcs w.closures ls fp where
  run := by
    rintro w ls t o a ⟨hI, fp, hF⟩ hpre hg hr
    have hfree : (guard anyMode).run w t o a := guard_anyMode_le.1 w t o a trivial
    exact ⟨hI.given hpre hfree, hI.run hpre hfree, hI.funcs_run hF hpre (Bool.and_eq_true_iff.mp hg).2⟩
  env := by
    rintro w ls n e w' p ⟨hI, fp, hF⟩ hidle hg he
    obtain ⟨l, hI', hnone, hwp, hfresh⟩ :=
      hI.event (hidle n le_rfl) (guard_anyMode_le.2 w e trivial) he
    exact ⟨l, ⟨hI', hI.funcs_event hF (hidle n le_rfl) he hfresh hI'⟩, hnone, hwp⟩

theorem Ownership.funcs_start (conf : IOCoreConfig) :
    Funcs (World.start conf).closures (fun _ => ⟨none, none, none⟩) fun _ => .unborn := by
  refine ⟨fun _ => rfl, nofun, fun f => ?_, ⟨fun f q => ?_, List.nodup_nil⟩, fun t f => ?_,
    fun t f q ran freed emptied => ?_⟩
  · simp [World.closures, World.start, World.blank]
  · simp [World.closures, World.start, World.blank]
  · simp
  · simp [Local.work?]

/-- A closure that is neither queued nor running any more was run. -/
theorem Ownership.Funcs.eq_done {c : Closures} {ls : ℕ → Local} {fp : FuncId → FuncPlace} {f : FuncId}
    {q : Work} (hF : Funcs c ls fp) (hq : c.works f = some q) (hqueue : q ∉ c.queue)
    (hrun : ∀ t, (ls t).task? ≠ some (.work q)) : fp f = .done q := by
  have hrec := hF.record f
  rw [hq] at hrec
  cases hp : fp f with
  | unborn => rw [hp] at hrec; cases congrArg Prod.fst hrec
  | inHand t => rw [hp] at hrec; cases congrArg Prod.fst hrec
  | refused => rw [hp] at hrec; cases congrArg Prod.fst hrec
  | queued q' =>
    rw [hp] at hrec
    cases congrArg Prod.fst hrec
    exact absurd ((hF.queue.mem f q).mp hp).1 hqueue
  | running t q' ran freed emptied =>
    rw [hp] at hrec
    cases congrArg Prod.fst hrec
    obtain ⟨hwork, -⟩ := (hF.running t f q ran freed emptied).mp hp
    obtain ⟨j, hj, hw⟩ := Option.bind_eq_some_iff.mp hwork
    refine absurd ?_ (hrun t)
    cases hk : j.task with
    | io cb =>
      rw [Job.work?, hk] at hw
      cases hw
    | work q' =>
      rw [Job.work?, hk] at hw
      cases hw
      simp [Local.task?, hj, hk]
  | done q' =>
    rw [hp] at hrec
    cases congrArg Prod.fst hrec
    rfl

/-- A closure was run at most once, and deleted once, and the `IOData` that it captured was deleted once and
is not live. -/
def World.Settled (w : World) (f : FuncId) (q : Work) : Prop :=
  w.executed f ≤ 1 ∧ w.funcFrees f = 1 ∧
    ∀ i, q.closure.ioData = some i → w.frees i = 1 ∧ (w.heap i).isLive = false

/-- **Closures survive a release** in a run that meets the condition: when a `release` has returned, every
closure that was submitted to a pool before the members of its cleanup group began to be closed is settled. -/
theorem settled_of_returned {conf : IOCoreConfig} {s : State} (h : machine.Reach drained (State.start conf) s)
    {n : CallId} {r : ErrorCode} (hc : s.w.calls n = some .releaseCore) (hr : s.w.results n = some r)
    {f : FuncId} {q : Work} (hq : s.w.works f = some q) (hl : q.late = false) : s.w.Settled f q := by
  have hle : Release.guard.Le drained :=
    ⟨fun _ _ _ _ h => (Bool.and_eq_true_iff.mp h).1, fun _ _ => id⟩
  obtain ⟨ls₀, hR, hT⟩ := Release.onTimeProof.invariant
    ⟨Release.inv_start conf, ⟨nofun, nofun, nofun⟩⟩ (h.mono hle)
  obtain ⟨ls, hI, fp, hF⟩ := Ownership.funcsProof.invariant
    ⟨Ownership.Inv.start _ conf, _, Ownership.funcs_start conf⟩ h
  have hdone : s.w.membersDone q.kind.num = true := hR.ok.returned n r hc hr q.kind
  have hgroup : q.group = some q.kind.num := hT.group f q hq
  have hplace : fp f = .done q := by
    refine hF.eq_done hq (fun hmem => ?_) fun t htask => ?_
    · have hbegun : s.w.membersBegun q.kind.num = true := hR.ok.begun _ hdone
      rw [hT.queue q hmem hl _ hgroup] at hbegun
      cases hbegun
    · obtain ⟨pl, hpl⟩ := hI.items
      have hmem : (t, .work q) ∈ s.w.running := (hpl.threads.running t _).mpr htask
      rw [hT.running t q hmem hl _ hgroup] at hdone
      cases hdone
  have hrec := hF.record f
  rw [hplace] at hrec
  simp only [FuncPlace.record, Prod.mk.injEq] at hrec
  obtain ⟨-, hexec, hfree⟩ := hrec
  refine ⟨hexec.le, hfree, fun i hi => ?_⟩
  have hi' : s.w.frees i = 1 := by
    refine hF.gone f i ?_
    rw [hplace]
    exact hi
  exact ⟨hi', hI.dead_of_frees hi'⟩

/-- A `start_recv` completes, its handler is posted, and `release` is entered while the closure is queued. A thread
of the user pool takes the closure up before the members of the group begin to be closed, and is still in the handler
then, or none does. -/
def recvAndRelease (taken : Bool) : List (Machine.Act Ans Event) :=
  .env (.spawn [.create, .socket 0 .ipv4 .stream .tcp, .startRecv 0 ⟨0, 16⟩ (some 7), .releaseCore]) ::
    List.replicate 17 (.run 0 {}) ++
    [.env (.complete 0 ⟨0, 16, none, zeroMemory⟩), .env (.dispatchIo 0)] ++ List.replicate 6 (.run 1 {}) ++
    .run 0 {} :: (if taken then .env (.dispatchWork 0) :: List.replicate 3 (.run 2 {}) else [.env (.spawn [])]) ++
    Release.untilThread 0 ++ [.env (.startCleanup 0), .run 3 {}] ++
    (if taken then List.replicate 4 (.run 2 {}) else []) ++ List.replicate 2 (.run 3 {}) ++
    Release.fromWait 0 .signalled ++
    Release.untilThread 0 ++ Release.cleanup 1 4 ++ Release.fromWait 0 .signalled ++
    List.replicate 2 (.run 0 {})

/-- What `recvAndRelease` ends with. -/
def World.released (w : World) : Bool :=
  decide (w.results 2 = some .success) && (w.calls 2 matches some .releaseCore) &&
    (w.works 0).any fun q => !q.late && decide (q.closure.ioData = some 0)

theorem World.released_iff {w : World} (h : w.released = true) : w.results 2 = some .success ∧
    w.calls 2 = some .releaseCore ∧ ∃ q, w.works 0 = some q ∧ q.late = false ∧ q.closure.ioData = some 0 := by
  simp only [released, Bool.and_eq_true, decide_eq_true_eq, Option.any_eq_true, Bool.not_eq_true'] at h
  obtain ⟨⟨hr, hc⟩, hq⟩ := h
  refine ⟨hr, ?_, hq⟩
  cases hcall : w.calls 2 with
  | none => simp [hcall] at hc
  | some c => cases c <;> simp [hcall] at hc ⊢

/-- The closure is taken up after `release` was entered. -/
theorem settled_of_returned_taken : ∃ s : State, machine.Reach drained (State.start ⟨0, 0, 0, 0⟩) s ∧
    s.w.results 2 = some .success ∧ ∃ q, s.w.works 0 = some q ∧ q.closure.ioData = some 0 ∧ s.w.Settled 0 q := by
  obtain ⟨s, hs, hp⟩ := Machine.exists_reach_of_fire (m := machine) (g := drained)
    (s := State.start ⟨0, 0, 0, 0⟩) (P := fun s => s.w.released) Machine.allows_checks
    (l := recvAndRelease true) (by decide +kernel)
  obtain ⟨hr, hc, q, hq, hl, hi⟩ := World.released_iff hp
  exact ⟨s, hs, hr, q, hq, hi, settled_of_returned hs hc hr hq hl⟩

/-- The closure is still queued when the members of its group are closed. -/
theorem not_settled_queued : ¬ ∀ conf (s : State), machine.Reach .free (State.start conf) s →
    ∀ n r f q, s.w.calls n = some .releaseCore → s.w.results n = some r → s.w.works f = some q →
      q.late = false → s.w.Settled f q := by
  intro h
  obtain ⟨s, hs, hp⟩ := Machine.exists_reach_of_fire (m := machine) (c := fun _ _ => true)
    (s := State.start ⟨0, 0, 0, 0⟩) (P := fun s => s.w.released && decide (s.w.funcFrees 0 = 0) &&
      decide (s.w.frees 0 = 0)) Machine.allows_free (l := recvAndRelease false) (by decide +kernel)
  simp only [Bool.and_eq_true, decide_eq_true_eq] at hp
  obtain ⟨⟨hrel, hfree⟩, -⟩ := hp
  obtain ⟨hr, hc, q, hq, hl, -⟩ := World.released_iff hrel
  have hset := (h _ s hs 2 _ 0 q hc hr hq hl).2.1
  rw [hfree] at hset
  cases hset

end FirelinkNet
