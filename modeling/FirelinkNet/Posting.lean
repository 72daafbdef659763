import FirelinkNet.Closures

/-!
# What posting reports

`post_io_work` and `post_user_work` put the closure on the heap and offer it to a pool.
When it is refused they delete it, and then read the last error of the thread for the
code that they return. The closure captured objects of the user's, whose destructors may
have left anything there.

## What is proved

* `posted_iff` — **posting reports the truth** if and only if the destruction of a refused
  closure leaves the thread's last error as the refusal set it; and in every run a closure
  that was not submitted is not executed, and is deleted at most once.
-/

namespace FirelinkNet

open Lib

/-! ### One call -/

/-- What the environment decides in a call of `post_io_work` or `post_user_work`. -/
structure PostOutcome where
  /-- Why the pool refuses the closure, when it does. -/
  refusal : Option OsError
  /-- What the destructors of the closure leave in the thread's last error, when they change it. -/
  lastError : Option Int32

/-- The answers to the calls that it makes. -/
def PostOutcome.answers (o : PostOutcome) : List Ans :=
  {} :: { error := o.refusal } :: if o.refusal.isNone then [] else [{ lastError := o.lastError }, {}]

/-- The closure was queued. -/
def World.Queues (w w' : World) (c : Closure) : Prop :=
  ∃ q, w'.queue = w.queue ++ [q] ∧ q.func = w.nextFunc ∧ q.closure = c

/-- The code that is returned is `Success` if and only if the closure was queued; and one that was not was
deleted once and not executed, and the code is that of the refusal. -/
structure World.Reported (w w' : World) (c : Closure) (o : PostOutcome) (r : ErrorCode) : Prop where
  success : r = .success ↔ w.Queues w' c
  refused : ¬ w.Queues w' c → w'.funcFrees w.nextFunc = w.funcFrees w.nextFunc + 1 ∧
    w'.executed w.nextFunc = w.executed w.nextFunc ∧ ∃ e, o.refusal = some e ∧ r = e.toErrorCode

variable {w w' : World} {t : ℕ} {k : PoolKind} {c : Closure} {o : PostOutcome} {r : ErrorCode}

theorem World.Queues.queue_ne (h : w.Queues w' c) : w'.queue ≠ w.queue := by
  obtain ⟨q, hq, -⟩ := h
  rw [hq]
  simp

/-- A closure that the pool takes. -/
theorem post_taken (h : o.refusal = none) : ∃ w', (WinIOCore.postWork k c).eval serialHost t w o.answers =
    some (.success, w') ∧ w.Queues w' c := by
  obtain ⟨refusal, lastError⟩ := o
  obtain rfl : refusal = none := h
  refine ⟨_, rfl, w.newFunc.work w.nextFunc c k, ?_, rfl, rfl⟩
  rfl

/-- A closure that it refuses: the last error is read when the closure is deleted. -/
theorem post_refused {e : OsError} (h : o.refusal = some e) :
    ∃ w', (WinIOCore.postWork k c).eval serialHost t w o.answers = some (⟨o.lastError.getD e.code⟩, w') ∧
      ¬ w.Queues w' c ∧ w'.funcFrees w.nextFunc = w.funcFrees w.nextFunc + 1 ∧
        w'.executed w.nextFunc = w.executed w.nextFunc := by
  obtain ⟨refusal, lastError⟩ := o
  obtain rfl : refusal = some e := h
  let w₁ := w.newFunc.trySubmit t w.nextFunc c k { error := some e }
  let w₂ := w₁.deleteFunc t w.nextFunc lastError
  have hlast : w₁.lastError t = e.code := Function.update_self ..
  have hqueue : w₂.queue = w.queue := by
    cases w
    rfl
  refine ⟨w₂.report t .getLastError (w₂.lastError t), ?_, fun hq => hq.queue_ne hqueue, Function.update_self .., rfl⟩
  have hcode : w₂.lastError t = lastError.getD e.code := by
    rw [← hlast]
    exact Function.update_self ..
  rw [← hcode]
  rfl

/-- **A call reports the truth** if and only if the last error is left as the refusal set it. -/
theorem reported_iff (t : ℕ) (k : PoolKind) (c : Closure) (w : World) (o : PostOutcome) :
    ∃ r w', (WinIOCore.postWork k c).eval serialHost t w o.answers = some (r, w') ∧
      (w.Reported w' c o r ↔ ∀ e, o.refusal = some e → o.lastError = none ∨ o.lastError = some e.code) := by
  cases ho : o.refusal with
  | none =>
    obtain ⟨w', hw', hq⟩ := post_taken (w := w) (t := t) (k := k) (c := c) ho
    refine ⟨_, w', hw', fun _ => nofun, fun _ => ?_⟩
    exact ⟨⟨fun _ => hq, fun _ => rfl⟩, fun hn => absurd hq hn⟩
  | some e =>
    obtain ⟨w', hw', hq, hfree, hexec⟩ := post_refused (w := w) (t := t) (k := k) (c := c) ho
    have hcode : (⟨o.lastError.getD e.code⟩ : ErrorCode) = e.toErrorCode ↔
        o.lastError = none ∨ o.lastError = some e.code := by
      cases o.lastError <;> simp [OsError.toErrorCode]
    refine ⟨_, w', hw', fun hrep e' he' => ?_, fun hcond => ?_⟩
    · cases he'
      obtain ⟨-, -, e', he', hr⟩ := hrep.refused hq
      cases ho.symm.trans he'
      exact hcode.mp hr
    · have hr := hcode.mpr (hcond e rfl)
      refine ⟨⟨fun hs => ?_, fun hq' => absurd hq' hq⟩, fun _ => ⟨hfree, hexec, e, ho, hr⟩⟩
      exact absurd (hr.symm.trans hs) e.toErrorCode_ne

/-! ### Runs -/

namespace Ownership

/-- What is queued, and what runs, was submitted; and a closure that was not submitted is not executed, and
is deleted at most once. -/
structure Refusals (w : World) (ls : ℕ → Local) : Prop where
  queue : ∀ q ∈ w.queue, w.works q.func ≠ none
  running : ∀ t q, (t, .work q) ∈ w.running → w.works q.func ≠ none
  executed : ∀ f, w.works f = none → w.executed f = 0
  frees : ∀ f, w.works f = none → w.funcFrees f ≤ 1
  fresh : ∀ f, w.nextFunc ≤ f → w.works f = none ∧ w.funcFrees f = 0
  inHand : ∀ t f, (ls t).func = some f → f < w.nextFunc ∧ w.works f = none ∧ w.funcFrees f = 0
  alone : ∀ t t' f, (ls t).func = some f → (ls t').func = some f → t = t'

variable {m : Mode} {ls : ℕ → Local} {op : Op} {a : Ans} {f : FuncId} {l' : Local}

/-- The closure in hand is another one, or none. -/
theorem forall_func {P : ℕ → FuncId → Prop} (h : ∀ t' f', (ls t').func = some f' → t' ≠ t → P t' f')
    (ht : ∀ f', l'.func = some f' → P t f') (t' : ℕ) (f' : FuncId)
    (hf : (Function.update ls t l' t').func = some f') : P t' f' := by
  by_cases htt : t' = t
  · subst htt
    rw [Function.update_self] at hf
    exact ht f' hf
  · rw [Function.update_of_ne htt] at hf
    exact h t' f' hf htt

/-- A closure is in one hand only. -/
theorem Refusals.alone_update (h : Refusals w ls) (hl : ∀ t' f', t' ≠ t → l'.func = some f' → (ls t').func ≠ some f')
    (t₁ t₂ : ℕ) (f : FuncId) (h₁ : (Function.update ls t l' t₁).func = some f)
    (h₂ : (Function.update ls t l' t₂).func = some f) : t₁ = t₂ := by
  by_cases ht₁ : t₁ = t
  · by_cases ht₂ : t₂ = t
    · exact ht₁.trans ht₂.symm
    · rw [ht₁, Function.update_self] at h₁
      rw [Function.update_of_ne ht₂] at h₂
      exact absurd h₂ (hl t₂ f ht₂ h₁)
  · rw [Function.update_of_ne ht₁] at h₁
    by_cases ht₂ : t₂ = t
    · rw [ht₂, Function.update_self] at h₂
      exact absurd h₁ (hl t₁ f ht₁ h₂)
    · rw [Function.update_of_ne ht₂] at h₂
      exact h.alone t₁ t₂ f h₁ h₂

/-- A step that does nothing to the closures, but that some may leave the queue. -/
theorem Refusals.pass (h : Refusals w ls) (hw : w'.works = w.works) (he : w'.executed = w.executed)
    (hd : w'.funcFrees = w.funcFrees) (hn : w'.nextFunc = w.nextFunc) (hq : ∀ q ∈ w'.queue, q ∈ w.queue)
    (hr : ∀ p ∈ w'.running, p ∈ w.running) (hfunc : l'.func = (ls t).func) :
    Refusals w' (Function.update ls t l') := by
  have hsame := func_update hfunc
  refine ⟨fun q hq' => ?_, fun t' q hr' => ?_, fun f hf => ?_, fun f hf => ?_, fun f hf => ?_, fun t' f hf => ?_,
    fun t₁ t₂ f h₁ h₂ => ?_⟩
  · rw [hw]
    exact h.queue q (hq q hq')
  · rw [hw]
    exact h.running t' q (hr _ hr')
  · rw [he]
    exact h.executed f (hw ▸ hf)
  · rw [hd]
    exact h.frees f (hw ▸ hf)
  · rw [hw, hd]
    exact h.fresh f (hn ▸ hf)
  · rw [hsame] at hf
    rw [hn, hw, hd]
    exact h.inHand t' f hf
  · rw [hsame] at h₁ h₂
    exact h.alone t₁ t₂ f h₁ h₂

theorem Refusals.newFunc (h : Refusals w ls) :
    Refusals w.newFunc (Function.update ls t { ls t with func := some w.nextFunc }) := by
  refine ⟨h.queue, h.running, h.executed, h.frees, fun f hf => h.fresh f (Nat.le_of_succ_le hf),
    forall_func (fun t' f' hf _ => ⟨Nat.lt_succ_of_lt (h.inHand t' f' hf).1, (h.inHand t' f' hf).2⟩) ?_,
    h.alone_update fun t' f' _ hf hf' => ?_⟩
  · rintro f' ⟨⟩
    exact ⟨Nat.lt_succ_self _, h.fresh _ le_rfl⟩
  · cases hf
    exact Nat.lt_irrefl _ (h.inHand t' _ hf').1

/-- `TrySubmitThreadpoolCallback` takes the closure in hand. -/
theorem Refusals.submit {q : Work} (h : Refusals w ls) (hf : (ls t).func = some f) (hq : q.func = f)
    (hl : l'.func = none) (hqueue : w'.queue = w.queue ++ [q]) (hworks : w'.works = upd w.works f (some q))
    (hr : w'.running = w.running) (he : w'.executed = w.executed) (hd : w'.funcFrees = w.funcFrees)
    (hn : w'.nextFunc = w.nextFunc) : Refusals w' (Function.update ls t l') := by
  have hsome : ∀ {f'}, w.works f' ≠ none → w'.works f' ≠ none := by
    intro f' hne
    rw [hworks, upd]
    by_cases hf' : f' = f
    · rw [hf', Function.update_self]
      exact Option.some_ne_none q
    · rwa [Function.update_of_ne hf']
  have hself : w'.works f ≠ none := by
    rw [hworks, upd, Function.update_self]
    exact Option.some_ne_none q
  have hnone : ∀ {f'}, w'.works f' = none → w.works f' = none := fun h => by_contra fun h' => hsome h' h
  refine ⟨fun q' hq' => ?_, fun t' q' hr' => hsome (h.running t' q' (hr ▸ hr')), fun f' hf' => ?_, fun f' hf' => ?_,
    fun f' hf' => ⟨?_, ?_⟩, forall_func (fun t' f' hf' ht => ?_) fun f' hf' => ?_,
    h.alone_update fun t' f' _ hf' => ?_⟩
  · rw [hqueue] at hq'
    rcases List.mem_append.mp hq' with hq' | hq'
    · exact hsome (h.queue q' hq')
    · rw [List.mem_singleton.mp hq', hq]
      exact hself
  · rw [he]
    exact h.executed f' (hnone hf')
  · rw [hd]
    exact h.frees f' (hnone hf')
  · rw [hn] at hf'
    have hne : f' ≠ f := Nat.ne_of_gt (Nat.lt_of_lt_of_le (h.inHand t f hf).1 hf')
    rw [hworks, upd, Function.update_of_ne hne]
    exact (h.fresh f' hf').1
  · rw [hd]
    exact (h.fresh f' (hn ▸ hf')).2
  · have hne : f' ≠ f := by
      rintro rfl
      exact ht (h.alone t' t f' hf' hf)
    rw [hn, hd, hworks, upd, Function.update_of_ne hne]
    exact h.inHand t' f' hf'
  · rw [hl] at hf'
    cases hf'
  · rw [hl] at hf'
    cases hf'

theorem Refusals.trySubmit {c : Closure} {k : PoolKind} (h : Refusals w ls) (hf : (ls t).func = some f) :
    Refusals (w.trySubmit t f c k a) (Function.update ls t ((ls t).submit a.error.isNone)) := by
  have hfunc : ((ls t).submit a.error.isNone).func = if a.error.isNone then none else (ls t).func := by
    cases hl : (ls t).frame <;> simp [Local.submit, hl]
  cases ha : a.error with
  | none =>
    rw [ha] at hfunc
    exact h.submit (q := w.work f c k) hf rfl hfunc (by simp [World.trySubmit, ha])
      (by simp [World.trySubmit, ha]) rfl rfl rfl rfl
  | some e =>
    rw [ha] at hfunc
    exact h.pass (by simp [World.trySubmit, ha]) rfl rfl rfl (by simp [World.trySubmit, ha]) (fun _ => id) hfunc

/-- A closure that a thread runs was submitted. -/
theorem Refusals.works_ne {j : Job} {q : Work} (h : Refusals w ls) (hI : Inv m w ls) (hj : (ls t).job = some j)
    (hk : j.task = .work q) : w.works q.func ≠ none := by
  obtain ⟨pl, hpl⟩ := hI.items
  refine h.running t q ((hpl.threads.running t _).mpr ?_)
  rw [Local.task?, hj, Option.map_some, hk]

theorem Refusals.deleteFunc {e : Option Int32} (h : Refusals w ls) (hI : Inv m w ls)
    (hpre : (logic m).pre (ls t) (.deleteFunc f)) :
    Refusals (w.deleteFunc t f e) (Function.update ls t (ls t).deleteFunc) := by
  have hother : ∀ {f'}, f' ≠ f → (w.deleteFunc t f e).funcFrees f' = w.funcFrees f' := fun hf =>
    Function.update_of_ne hf ..
  have hself : (w.deleteFunc t f e).funcFrees f = w.funcFrees f + 1 := Function.update_self ..
  rcases hpre with hl | ⟨hl, -, j, q, hj, hk, rfl, -⟩
  · have hl' : (ls t).deleteFunc = { ls t with func := none } := by simp [Local.deleteFunc, hl]
    obtain ⟨hlt, -, hfree⟩ := h.inHand t f hl
    rw [hl']
    refine ⟨h.queue, h.running, h.executed, fun f' hf' => ?_, fun f' hf' => ⟨(h.fresh f' hf').1, ?_⟩,
      forall_func (fun t' f' hf' ht => ⟨(h.inHand t' f' hf').1, (h.inHand t' f' hf').2.1, ?_⟩)
        (by rintro _ ⟨⟩), h.alone_update (by rintro _ _ _ ⟨⟩)⟩
    · by_cases hff : f' = f
      · rw [hff, hself, hfree]
      · rw [hother hff]
        exact h.frees f' hf'
    · rw [hother (Nat.ne_of_gt (Nat.lt_of_lt_of_le hlt hf'))]
      exact (h.fresh f' hf').2
    · have hff : f' ≠ f := by
        rintro rfl
        exact ht (h.alone t' t _ hf' hl)
      rw [hother hff]
      exact (h.inHand t' f' hf').2.2
  · have hne : ∀ {f'}, w.works f' = none → f' ≠ q.func := by
      rintro f' hf' rfl
      exact h.works_ne hI hj hk hf'
    have hl' : (ls t).deleteFunc = (ls t).setJob fun j => { j with freed := true } := by
      simp [Local.deleteFunc, hl]
    have hpass : Refusals w (Function.update ls t ((ls t).setJob fun j => { j with freed := true })) :=
      h.pass rfl rfl rfl rfl (fun _ => id) (fun _ => id) rfl
    rw [hl']
    refine ⟨hpass.queue, hpass.running, hpass.executed, fun f' hf' => ?_,
      fun f' hf' => ⟨(h.fresh f' hf').1, ?_⟩, fun t' f' hf' => ?_, hpass.alone⟩
    · rw [hother (hne hf')]
      exact h.frees f' hf'
    · rw [hother (hne (h.fresh f' hf').1)]
      exact (h.fresh f' hf').2
    · obtain ⟨hlt, hnone, hfree⟩ := hpass.inHand t' f' hf'
      exact ⟨hlt, hnone, (hother (hne hnone)).trans hfree⟩

theorem Refusals.invokeFunc (h : Refusals w ls) (hI : Inv m w ls) (hpre : (logic m).pre (ls t) (.invokeFunc f)) :
    Refusals (w.runFunc f) (Function.update ls t ((ls t).setJob fun j => { j with ran := true })) := by
  obtain ⟨-, j, q, hj, hk, rfl, -⟩ := hpre
  have hne := h.works_ne hI hj hk
  have hpass : Refusals w (Function.update ls t ((ls t).setJob fun j => { j with ran := true })) :=
    h.pass rfl rfl rfl rfl (fun _ => id) (fun _ => id) rfl
  refine ⟨hpass.queue, hpass.running, fun f' hf' => ?_, hpass.frees, hpass.fresh, hpass.inHand, hpass.alone⟩
  have hff : f' ≠ q.func := by
    rintro rfl
    exact hne hf'
  exact (Function.update_of_ne hff ..).trans (h.executed f' hf')

/-- **Every call keeps it.** -/
theorem Refusals.run {o : Op} (h : Refusals w ls) (hI : Inv m w ls) (hpre : (logic m).pre (ls t) o) :
    Refusals (w.reply t o a).2 (Function.update ls t ((logic m).post (ls t) o (w.reply t o a).1)) := by
  cases o with
  | newFunc c => exact h.newFunc
  | trySubmitThreadpoolCallback f c k => exact h.trySubmit hpre.1
  | deleteFunc f => exact h.deleteFunc hI hpre
  | invokeFunc f => exact h.invokeFunc hI hpre
  | callbackReturn =>
    exact h.pass rfl rfl rfl rfl (fun _ => id) (fun _ hp => (List.mem_filter.mp hp).1) rfl
  | closeThreadpoolCleanupGroupMembers g =>
    cases g with
    | none => exact h.pass rfl rfl rfl rfl (fun _ => id) (fun _ => id) rfl
    | some g => exact h.pass rfl rfl rfl rfl (fun _ hq => (List.mem_filter.mp hq).1) (fun _ => id) rfl
  | writeIOData i d =>
    refine h.pass rfl rfl rfl rfl (fun _ => id) (fun _ => id) ?_
    show ((ls t).write i d).func = _
    cases hf : (ls t).frame <;> simp [Local.write, hf, Local.setStage, Local.setJob]
  | deleteIOData i =>
    refine h.pass rfl rfl rfl rfl (fun _ => id) (fun _ => id) ?_
    show ((ls t).delete i).func = _
    cases hf : (ls t).frame <;> simp [Local.delete, hf, Local.setStage, Local.setJob]
  | overlapped req i io =>
    cases w
    refine h.pass rfl rfl rfl rfl (fun _ => id) (fun _ => id) ?_
    show (if _ then _ else _ : Local).func = _
    split <;> rfl
  | getLastError | setsockopt _ _ | getAcceptExSockaddrs _ =>
    exact h.pass rfl rfl rfl rfl (fun _ => id) (fun _ => id) (Local.report_func _)
  | _ =>
    cases w
    exact h.pass rfl rfl rfl rfl (fun _ => id) (fun _ => id) rfl

/-- **So does what happens of itself.** -/
theorem Refusals.event {n : ℕ} {e : Event} {p : Option (Prog Unit)} {l : Local} (h : Refusals w ls)
    (hidle : ls n = ⟨none, none, none⟩) (he : w.event n e = some (w', p)) (hl : l.Fresh) :
    Refusals w' (Function.update ls n l) := by
  have hfunc : l.func = (ls n).func := by rw [hidle, hl.1]
  have hpass : Refusals w (Function.update ls n l) :=
    h.pass rfl rfl rfl rfl (fun _ => id) (fun _ => id) hfunc
  cases World.event_step he with
  | dispatchIo hk =>
    refine ⟨hpass.queue, fun t q hr => ?_, hpass.executed, hpass.frees, hpass.fresh, hpass.inHand, hpass.alone⟩
    rcases List.mem_cons.mp hr with hr | hr
    · cases hr
    · exact h.running t q hr
  | @dispatchWork k q hk =>
    refine ⟨fun q' hq => h.queue q' (List.mem_of_mem_eraseIdx hq), fun t q' hr => ?_, hpass.executed, hpass.frees,
      hpass.fresh, hpass.inHand, hpass.alone⟩
    rcases List.mem_cons.mp hr with hr | hr
    · cases hr
      exact h.queue q (List.mem_of_getElem? hk)
    · exact h.running t q' hr
  | _ => exact h.pass rfl rfl rfl rfl (fun _ => id) (fun _ => id) hfunc

theorem refusalsProof : machine.Proof (logic anyMode) .free ⟨none, none, none⟩
    fun w ls => Inv anyMode w ls ∧ Refusals w ls where
  run := by
    rintro w ls t o a ⟨hI, h⟩ hpre hg -
    have hfree : (guard anyMode).run w t o a := guard_anyMode_le.1 w t o a trivial
    exact ⟨hI.given hpre hfree, hI.run hpre hfree, h.run hI hpre⟩
  env := by
    rintro w ls n e w' p ⟨hI, h⟩ hidle hg he
    obtain ⟨l, hI', hnone, hwp, hfresh⟩ :=
      hI.event (hidle n le_rfl) (guard_anyMode_le.2 w e trivial) he
    exact ⟨l, ⟨hI', h.event (hidle n le_rfl) he hfresh⟩, hnone, hwp⟩

end Ownership

/-- **Posting reports the truth** if and only if the destruction of a refused closure leaves the thread's last
error as the refusal set it; and in every state that is reached, a closure that was not submitted was not
executed, and was deleted at most once. -/
theorem posted_iff (t : ℕ) (k : PoolKind) (c : Closure) (w : World) (o : PostOutcome) :
    (∃ r w', (WinIOCore.postWork k c).eval serialHost t w o.answers = some (r, w') ∧
      (w.Reported w' c o r ↔ ∀ e, o.refusal = some e → o.lastError = none ∨ o.lastError = some e.code)) ∧
    ∀ conf (s : State), machine.Reach .free (State.start conf) s → ∀ f, s.w.works f = none →
      s.w.executed f = 0 ∧ s.w.funcFrees f ≤ 1 := by
  refine ⟨reported_iff t k c w o, fun conf s hs f hf => ?_⟩
  have hstart : Ownership.Refusals (World.start conf) fun _ => ⟨none, none, none⟩ :=
    ⟨nofun, nofun, fun _ _ => rfl, fun _ _ => Nat.zero_le 1, fun _ _ => ⟨rfl, rfl⟩, nofun, nofun⟩
  obtain ⟨ls, -, h⟩ := Ownership.refusalsProof.invariant ⟨Ownership.Inv.start _ conf, hstart⟩ hs
  exact ⟨h.executed f hf, h.frees f hf⟩

/-- The pool has no memory for the closure, whose destructors leave 0 in the last error. -/
theorem not_reported_cleared : ¬ ∀ t k c w o r w',
    (WinIOCore.postWork k c).eval serialHost t w (PostOutcome.answers o) = some (r, w') → w.Reported w' c o r := by
  intro h
  obtain ⟨w', hw', hq, -⟩ := post_refused (w := World.start ⟨0, 0, 0, 0⟩) (t := 0) (k := .user) (c := .user 7)
    (o := ⟨some ⟨8, by decide⟩, some 0⟩) rfl
  exact hq ((h _ _ _ _ _ _ _ hw').success.mp rfl)

end FirelinkNet
