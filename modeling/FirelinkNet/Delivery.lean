import FirelinkNet.Accounts

/-!
# The code keeps the accounts

The invariant of `Accounts`, along the runs of the machine: every call that the code
makes, and everything that happens of itself, moves the `IOData` only as `Lifecycle`
allows. A `Mode` says what the runs are known to be like, and `guard` holds the steps to
that.

## What is proved

* `Ownership.Inv.run`, `Ownership.Inv.event` — **a step keeps the accounts**, whatever
  the thread and the answer.
* `Ownership.Inv.of_reach` — **in every state that is reached** the accounts are right.
-/

namespace FirelinkNet

open Lib

/-- The thread is in a call that needs an address of the family of its socket. -/
def World.addressing (w : World) (t : ℕ) : Bool :=
  (w.cur t).any fun n => (w.calls n).any (·.addresses)

namespace Ownership

/-- What a step may do in a run of this mode. While the core is alive and its pools are not being
released, nobody calls `release`; where `GetLastError` is honest, it does not report success for a
submission that failed; and where there are no early returns, the sockets of `start_connect` and
`start_send_to` are of a family that has addresses, and the implicit bind succeeds. -/
def allowed (m : Mode) (w : World) (t : ℕ) (o : Op) (a : Ans) : Bool :=
  match o with
  | .enter .releaseCore | .closeThreadpoolCleanupGroupMembers _ => !m.alive
  | .getLastError => !m.honest || w.lastError t ≠ 0
  | .readSocket x => !m.clean || !w.addressing t || decide ((w.socks x).getD .new).addrFamily.IsInet
  | .bind _ _ => !m.clean || !w.addressing t || a.error.isNone
  | _ => true

/-- What may happen of itself. -/
def allowedEvent (m : Mode) (_ : World) : Event → Bool
  | .dropIoCore => !m.alive
  | _ => true

/-- The condition on a run. -/
def guard (m : Mode) : RunGuard := .ofBool (allowed m) (allowedEvent m)

/-- What is kept. -/
structure Inv (m : Mode) (w : World) (ls : ℕ → Local) : Prop where
  items : ∃ pl, Items m w.ledger ls pl
  calls : Calls m w.ledger ls
  alive : m.alive = true → w.coreAlive = true
  ok : ∀ i, .useAfterFree i ∉ w.faults

variable {m : Mode} {w w' : World} {ls ls' : ℕ → Local} {t : ℕ} {o : Op} {a : Ans} {i : DataId}
  {d : IOData} {l' : Local}

/-- What a thread has is live. -/
theorem Inv.live (hI : Inv m w ls) (h : (ls t).Has i d) :
    w.heap i = .live d ∧ (ls t).data? = some d := by
  obtain ⟨pl, hpl⟩ := hI.items
  rcases h with ⟨f, hf, hs⟩ | ⟨hf, j, hj, hi, hd⟩
  · obtain ⟨-, hok⟩ := hpl.of_held hf hs
    obtain ⟨n, c, st, k₁, k₂⟩ := f
    obtain rfl : st = .held i d := hs
    exact ⟨congrArg Item.cell hok.1, by simp [Local.data?, hf]⟩
  · refine ⟨?_, by simp [Local.data?, hf, hj, hd]⟩
    have hcell : ∀ {p : Place}, j.place t = some (i, p) → p.Ok m (w.ledger.item i) →
        w.heap i = .live d := by
      intro p hp hok
      cases hk : j.task with
      | io cb =>
        rw [Job.place_io hk hd] at hp
        cases hp
        cases hc : j.called <;> rw [hc] at hok
        · obtain ⟨c, hv, -⟩ := hok
          exact congrArg Item.cell hv
        · obtain ⟨q, c, ρ, p, v, hv, -⟩ := hok
          exact congrArg Item.cell hv
      | work q =>
        have hq : q.closure.ioData = some i := by simpa [hk, Task.data] using hi
        rw [Job.place_work hk hq hd] at hp
        cases hp
        cases hc : j.called <;> rw [hc] at hok
        · obtain ⟨c, ρ, hv, -⟩ := hok
          exact congrArg Item.cell hv
        · obtain ⟨q, c, ρ, p, v, hv, -⟩ := hok
          exact congrArg Item.cell hv
    cases hk : j.task with
    | io cb =>
      obtain rfl : cb.data = i := by simpa [hk, Task.data] using hi
      exact hcell (Job.place_io hk hd) (hpl.of_job hj (Job.place_io hk hd)).2
    | work q =>
      have hq : q.closure.ioData = some i := by simpa [hk, Task.data] using hi
      exact hcell (Job.place_work hk hq hd) (hpl.of_job hj (Job.place_work hk hq hd)).2

theorem Inv.addressing (hI : Inv m w ls) (h : ((ls t).frame.any (·.call.addresses)) = true) :
    w.addressing t = true := by
  obtain ⟨f, hf, ha⟩ := (Option.any_eq_true _ _).mp h
  have hcur : w.cur t = some f.id := by
    have := hI.calls.cur t
    rw [hf] at this
    exact this
  have hcall : w.calls f.id = some f.call := (hI.calls.frame t f hf).1
  simp [World.addressing, hcur, hcall, ha]

/-- **The reply is as promised.** -/
theorem Inv.given (hI : Inv m w ls) (hpre : (logic m).pre (ls t) o) (hg : (guard m).run w t o a) :
    (logic m).given (ls t) o (w.reply t o a).1 := by
  cases o with
  | readIOData i =>
    obtain ⟨d, hd⟩ := hpre
    obtain ⟨hcell, hdata⟩ := hI.live hd
    show (ls t).data? = some (w.heap i).get
    rw [hcell]
    exact hdata
  | lockIoCore => exact hI.alive
  | getLastError =>
    intro hm
    have hg' : (!m.honest || decide (w.lastError t ≠ 0)) = true := hg
    show w.lastError t ≠ 0
    simpa [hm] using hg'
  | getAcceptExSockaddrs b =>
    by_cases h : a.error.isNone
    · exact .inr (if_pos h)
    · exact .inl (if_neg h)
  | readSocket x =>
    intro hm ha
    have hg' : (!m.clean || !w.addressing t ||
      decide ((w.socks x).getD .new).addrFamily.IsInet) = true := hg
    show ((w.socks x).getD .new).addrFamily.IsInet
    simpa [hm, hI.addressing ha] using hg'
  | bind s name =>
    intro hm ha
    have hg' : (!m.clean || !w.addressing t || a.error.isNone) = true := hg
    have hnone : a.error = none := by simpa [hm, hI.addressing ha] using hg'
    show World.result a () = .ok ()
    rw [World.result, hnone]
  | _ => trivial

theorem Inv.ok_reply (hI : Inv m w ls) (hpre : (logic m).pre (ls t) o) (i : DataId) :
    .useAfterFree i ∉ (w.reply t o a).2.faults := by
  intro hfault
  rcases World.mem_faults_reply hfault with hfault | hc
  · exact hI.ok i hfault
  have hlive : ∀ {i' d}, (ls t).Has i' d → ¬ (w.heap i').isLive = false := by
    intro i' d h hn
    rw [(hI.live h).1] at hn
    cases hn
  cases o with
  | readIOData i' =>
    obtain ⟨d, hd⟩ := hpre
    exact hlive hd hc.2
  | writeIOData i' d' =>
    rcases hpre with ⟨f, d₀, hf, hs, -⟩ | ⟨hf, j, cb, d₀, hj, hk, rfl, hd, -⟩
    · exact hlive (.inl ⟨f, hf, hs⟩) hc.2
    · exact hlive (.inr ⟨hf, j, hj, by rw [hk]; rfl, hd⟩) hc.2
  | deleteIOData i' =>
    rcases hpre with ⟨f, d₀, hf, hs⟩ | ⟨hf, j, d₀, hj, hi, hd, -⟩
    · exact hlive (.inl ⟨f, hf, hs⟩) hc.2
    · exact hlive (.inr ⟨hf, j, hj, hi, hd⟩) hc.2
  | invoke i' f args =>
    obtain ⟨hf, j, d, hj, hi, hd, -⟩ := hpre
    exact hlive (.inr ⟨hf, j, hj, hi, hd⟩) hc.2
  | _ => exact hc

theorem submits_result (a : Ans) : submits (World.result a ()) = World.accepts a.error := by
  rw [World.result]
  cases a.error <;> rfl

theorem Cell.isLive_map {f : IOData → IOData} {c : Cell} : (c.map f).isLive = c.isLive := by
  cases c <;> rfl

theorem isLive_upd_map {heap : DataId → Cell} {F : IOData → IOData} (i i' : DataId)
    (h : (heap i').isLive = false) : (upd heap i ((heap i).map F) i').isLive = false := by
  by_cases hi : i' = i
  · subst hi
    rw [upd, Function.update_self, Cell.isLive_map]
    exact h
  · rwa [upd, Function.update_of_ne hi]

section Locals

variable {l : Local} {f : Frame}

theorem Local.write_of_some (h : l.frame = some f) : l.write i d = l.setStage (.held i d) := by
  rw [Local.write, h]

theorem Local.write_of_none (h : l.frame = none) :
    l.write i d = l.setJob fun j => { j with held := some d } := by
  rw [Local.write, h]

theorem Local.delete_of_some (h : l.frame = some f) : l.delete i = l.setStage (.deleted i) := by
  rw [Local.delete, h]

theorem Local.delete_of_none (h : l.frame = none) :
    l.delete i = l.setJob fun j => { j with held := none } := by
  rw [Local.delete, h]

@[simp] theorem Local.submit_frame (ok : Bool) : (l.submit ok).frame = l.frame := by
  unfold Local.submit
  split <;> simp [*, Local.setJob]

@[simp] theorem Local.report_frame (r : Res o) : (l.report o r).frame = l.frame := by
  unfold Local.report
  split <;> simp [*, Local.setJob]

@[simp] theorem Local.report_func (r : Res o) : (l.report o r).func = l.func := by
  unfold Local.report
  split <;> rfl

@[simp] theorem Local.deleteFunc_frame : l.deleteFunc.frame = l.frame := by
  unfold Local.deleteFunc
  split <;> rfl

theorem Local.submit_job_of_some (ok : Bool) (h : l.frame = some f) : (l.submit ok).job = l.job := by
  rw [Local.submit, h]

theorem Local.submit_job_of_none (ok : Bool) {j : Job} (h : l.frame = none) (hj : l.job = some j) :
    (l.submit ok).job = some { j with posted := true, held := if ok then none else j.held } := by
  rw [Local.submit, h]
  simp [Local.setJob, hj]

theorem Local.stage?_setFrame {F : Frame → Frame} (hs : ∀ f, (F f).stage = f.stage) :
    Local.stage? { l with frame := l.frame.map F } = l.stage? := by
  simp [Local.stage?, Function.comp_def, hs]

theorem Local.setJob_same {F : Job → Job} (hd : ∀ j, (F j).held = j.held)
    (hk : ∀ j, (F j).task = j.task) (hp : ∀ j, (F j).posted = j.posted)
    (hc : ∀ j, (F j).called = j.called) (hr : ∀ j, (F j).reports = j.reports) :
    (l.setJob F).place t = l.place t ∧ (l.setJob F).task? = l.task? := by
  cases hj : l.job with
  | none => simp [Local.setJob, Local.place, Local.task?, hj]
  | some j => simp [Local.setJob, Local.place, Local.task?, Job.place, hj, hd, hk, hp, hc, hr]

theorem Local.deleteFunc_same : l.deleteFunc.place t = l.place t ∧ l.deleteFunc.task? = l.task? := by
  unfold Local.deleteFunc
  split
  · exact ⟨rfl, rfl⟩
  · exact Local.setJob_same (fun _ => rfl) (fun _ => rfl) (fun _ => rfl) (fun _ => rfl) fun _ => rfl

end Locals

/-- A step that leaves what the threads have as it is. -/
theorem Items.same {g g' : Ledger} {pl : DataId → Place} (hI : Items m g ls pl)
    (hs : l'.stage? = (ls t).stage?) (hp : l'.place t = (ls t).place t)
    (hk : l'.task? = (ls t).task?) (hitem : ∀ i, g'.item i = g.item i) (hn : g'.nextData = g.nextData)
    (hker : g'.kernel = g.kernel) (hio : g'.ioQueue = g.ioQueue) (hq : g'.queue = g.queue)
    (hrun : g'.running = g.running) : Items m g' (Function.update ls t l') pl := by
  refine ⟨fun i => hitem i ▸ hI.ok i, fun i => hn ▸ hI.born i, ⟨hker ▸ hI.queues.kernel,
    hio ▸ hI.queues.ioQueue, hq ▸ hI.queues.queue, hI.queues.closure⟩, hI.threads.locals ?_ ?_ ?_ hrun⟩
  · exact forall_update (fun _ l => l.stage?) hs
  · exact forall_update (fun t l => l.place t) hp
  · exact forall_update (fun _ l => l.task?) hk

/-- A closure is offered to a pool. -/
theorem Inv.items_submit {f : FuncId} {c : Closure} {k : PoolKind} (hI : Inv m w ls)
    (hpre : (logic m).pre (ls t) (.trySubmitThreadpoolCallback f c k)) :
    ∃ pl, Items m (w.trySubmit t f c k a).ledger
      (Function.update ls t ((ls t).submit a.error.isNone)) pl := by
  obtain ⟨pl, hpl⟩ := hI.items
  have hstage : ((ls t).submit a.error.isNone).stage? = (ls t).stage? := by
    rw [Local.stage?, Local.submit_frame, Local.stage?]
  obtain ⟨-, ⟨fr, hf, -, hc⟩ | ⟨hf, j, cb, d, g, hj, hk, hd, -, hcalled, hfunc, rfl, hs⟩⟩ := hpre
  · have hjob := Local.submit_job_of_some a.error.isNone hf
    have hmark : mark w.posted c.ioData = w.posted := by rw [hc]; rfl
    have hitem : ∀ i, (w.trySubmit t f c k a).ledger.item i = w.ledger.item i := fun i => by
      show (⟨_, _, _, _, _, mark w.posted c.ioData i, _, _⟩ : Item) = _
      rw [hmark]
      rfl
    refine ⟨pl, fun i => hitem i ▸ hpl.ok i, hpl.born, ⟨hpl.queues.kernel, hpl.queues.ioQueue, ?_,
      hpl.queues.closure⟩, hpl.threads.locals (forall_update (fun _ l => l.stage?) hstage)
        (forall_update (fun t l => l.place t) ?_) (forall_update (fun _ l => l.task?) ?_) rfl⟩
    · show Keyed _ (if a.error.isNone then w.queue ++ [w.work f c k] else w.queue) _
      split
      · exact hpl.queues.queue.push_none hc
      · exact hpl.queues.queue
    · rw [Local.place, hjob, Local.place]
    · rw [Local.task?, hjob, Local.task?]
  · have hjob := Local.submit_job_of_none a.error.isNone hf hj
    have hmark : mark w.posted (d.closure cb.data g).ioData = upd w.posted cb.data true := by
      rw [IOData.closure_ioData]
      rfl
    have hl : (w.trySubmit t f (d.closure cb.data g) k a).ledger = { w.ledger with
        posted := upd w.posted cb.data true
        queue := if a.error.isNone then w.queue ++ [w.work f (d.closure cb.data g) k] else w.queue } := by
      rw [← hmark]
      rfl
    rw [hl]
    by_cases hok : a.error.isNone = true
    · rw [if_pos hok]
      exact hpl.post hj hk hd hcalled hs hfunc rfl (by rw [hjob, hok]; rfl) hstage
    · rw [if_neg hok]
      have hok' : a.error.isNone = false := Bool.eq_false_iff.mpr hok
      exact hpl.refuse hj hk hd hcalled (by rw [hjob, hok']; rfl) hstage

/-- The thread is in a call of the interface, or it runs no callback. -/
theorem Inv.handled_of_apart {pl : DataId → Place} (hI : Inv m w ls) (hpl : Items m w.ledger ls pl)
    (hl : (ls t).Apart) : w.handled t = none := by
  have hcur := hI.calls.cur t
  unfold World.handled
  cases hf : (ls t).frame with
  | some f =>
    rw [hf] at hcur
    exact if_pos (by rw [show w.cur t = some f.id from hcur]; rfl)
  | none =>
    have hfind : (w.running.find? fun r => r.1 = t) = none := by
      rw [List.find?_eq_none]
      rintro ⟨t', k⟩ hmem ht
      obtain rfl : t' = t := of_decide_eq_true ht
      have hk := (hpl.threads.running t' k).mp hmem
      rw [Local.task?, hl hf] at hk
      cases hk
    rw [hfind]
    exact ite_self none

/-- It runs `socket_io_routine`. -/
theorem Inv.handled_of_io {pl : DataId → Place} {j : Job} {cb : IoCallback} (hI : Inv m w ls)
    (hpl : Items m w.ledger ls pl) (hf : (ls t).frame = none) (hj : (ls t).job = some j) (hk : j.task = .io cb) :
    w.handled t = some cb.data := by
  have hcur := hI.calls.cur t
  rw [hf] at hcur
  have hmem : (t, Task.io cb) ∈ w.running := (hpl.threads.running t (.io cb)).mpr (by simp [Local.task?, hj, hk])
  obtain ⟨⟨t', k⟩, hfind⟩ := Option.isSome_iff_exists.mp
    (List.find?_isSome.mpr ⟨_, hmem, decide_eq_true rfl⟩ : (w.running.find? fun r => r.1 = t).isSome = true)
  obtain rfl : t' = t := of_decide_eq_true (List.find?_some (p := fun r : ℕ × Task => decide (r.1 = t)) hfind)
  have hk' := (hpl.threads.running t' k).mp (List.mem_of_find?_eq_some hfind)
  obtain rfl : Task.io cb = k := by simpa [Local.task?, hj, hk] using hk'
  unfold World.handled
  rw [hfind]
  exact if_neg (by rw [show w.cur t' = none from hcur]; exact Bool.false_ne_true)

/-- What `socket_io_routine` is told is put on record. -/
theorem Inv.items_report {r : Res o} (hI : Inv m w ls) (hpre : (ls t).Processes) :
    ∃ pl, Items m (w.report t o r).ledger (Function.update ls t ((ls t).report o r)) pl := by
  obtain ⟨pl, hpl⟩ := hI.items
  by_cases hl : (ls t).Apart
  · rw [World.report_of_none (hI.handled_of_apart hpl hl), hl.report, Function.update_eq_self]
    exact ⟨pl, hpl⟩
  · obtain ⟨hf, hjob⟩ := Classical.not_imp.mp hl
    obtain ⟨j, hj⟩ := Option.ne_none_iff_exists'.mp hjob
    obtain ⟨cb, d, hk, hd, hc⟩ := hpre hf j hj
    rw [World.report_of_some (hI.handled_of_io hpl hf hj hk)]
    have hlocal : (ls t).report o r = (ls t).setJob fun j => { j with reports := j.reports.hear o r } := by
      rw [Local.report, hf]
    have hreports : w.reports cb.data = j.reports := by
      obtain ⟨-, hok⟩ := hpl.of_job hj (Job.place_io hk hd)
      rw [hc] at hok
      obtain ⟨c, hv, -⟩ := hok
      exact congrArg Item.reports hv
    rw [hlocal, hreports]
    exact hpl.report hj hk hd hc _ (Local.setJob_job hj) rfl

/-- A call is entered. -/
theorem Items.enter {g : Ledger} {pl : DataId → Place} (hI : Items m g ls pl)
    (hop : ∀ i n, g.opOf i = some n → n < g.nextCall) (hf : (ls t).frame = none) (c : ApiCall) :
    Items m { g with
      calls := upd g.calls g.nextCall (some c)
      nextCall := g.nextCall + 1
      cur := upd g.cur t (some g.nextCall) }
      (Function.update ls t { ls t with frame := some ⟨g.nextCall, c, .none, 0, 0⟩ }) pl := by
  refine ⟨fun i => ?_, hI.born, ⟨hI.queues.kernel, hI.queues.ioQueue, hI.queues.queue, hI.queues.closure⟩,
    ⟨fun t' i d => ?_, fun t' i p hp => ?_, fun t' k => ?_⟩⟩
  · have hreq : ((g.opOf i).bind fun n => (upd g.calls g.nextCall (some c) n).bind ApiCall.start?) =
        g.requestOf i := by
      rw [Ledger.requestOf]
      cases hn : g.opOf i with
      | none => rfl
      | some n =>
        have hne : n ≠ g.nextCall := Nat.ne_of_lt (hop i n hn)
        rw [Option.bind_some, Option.bind_some, upd, Function.update_of_ne hne]
    have hok := hI.ok i
    rw [Ledger.item, ← hreq] at hok
    exact hok
  · by_cases ht : t' = t
    · subst ht
      rw [Function.update_self, hI.threads.starting t' i d]
      simp [Local.stage?, hf]
    · rw [Function.update_of_ne ht]
      exact hI.threads.starting t' i d
  · rw [forall_update (fun t l => l.place t) (by rfl)]
    exact hI.threads.callback t' i p hp
  · rw [forall_update (fun _ l => l.task?) (by rfl)]
    exact hI.threads.running t' k

/-- A call that has an `IOData` is one that starts an operation. -/
theorem Inv.starts (hI : Inv m w ls) {f : Frame} (hf : (ls t).frame = some f) (hs : f.stage = .held i d) :
    f.call.start? = some d.request := by
  obtain ⟨pl, hpl⟩ := hI.items
  obtain ⟨-, hok⟩ := hpl.of_held hf hs
  obtain ⟨hcall, -, -, -, hat⟩ := hI.calls.frame t f hf
  rw [hs] at hat
  have hreq : w.ledger.requestOf i = some d.request := congrArg Item.request hok.1
  rw [Ledger.requestOf, hat.1, Option.bind_some, hcall, Option.bind_some] at hreq
  exact hreq

/-- A call that returns has no `IOData` left, in a run without early returns. -/
theorem Inv.returns (hI : Inv m w ls) {f : Frame} {r : ErrorCode} (hf : (ls t).frame = some f)
    (hr : f.CanReturn m r) (hm : m.clean = true) (i : DataId) (d : IOData) : f.stage ≠ .held i d := by
  intro hs
  have hstart : f.call.start?.isSome = true := by rw [hI.starts hf hs]; rfl
  obtain ⟨hok, herr⟩ := hr hstart
  by_cases hsucc : r = .success
  · obtain ⟨i', hi'⟩ := hok hsucc
    rw [hs] at hi'
    cases hi'
  · exact (herr hsucc).2.2 hm i d hs

/-- **A call keeps every `IOData` in its place.** -/
theorem Inv.items_run (hI : Inv m w ls) (hpre : (logic m).pre (ls t) o) (hg : (guard m).run w t o a) :
    ∃ pl, Items m (w.reply t o a).2.ledger
      (Function.update ls t ((logic m).post (ls t) o (w.reply t o a).1)) pl := by
  obtain ⟨pl, hpl⟩ := id hI.items
  have hcur : ∀ {f}, (ls t).frame = some f → w.cur t = some f.id := by
    intro f hf
    have := hI.calls.cur t
    rw [hf] at this
    exact this
  have hsame : ∀ {g' : Ledger} {l' : Local}, l'.stage? = (ls t).stage? → l'.place t = (ls t).place t →
      l'.task? = (ls t).task? → (∀ i, g'.item i = w.ledger.item i) → g'.nextData = w.ledger.nextData →
        g'.kernel = w.kernel → g'.ioQueue = w.ioQueue → g'.queue = w.queue → g'.running = w.running →
          ∃ pl, Items m g' (Function.update ls t l') pl :=
    fun h₁ h₂ h₃ h₄ h₅ h₆ h₇ h₈ h₉ => ⟨pl, hpl.same h₁ h₂ h₃ h₄ h₅ h₆ h₇ h₈ h₉⟩
  cases o with
  | enter c => exact ⟨pl, hpl.enter hI.calls.op_lt hpre c⟩
  | leave n r =>
    obtain ⟨f, hf, rfl, hr⟩ := hpre
    exact hpl.leave hf (hI.returns hf hr)
  | newIOData d =>
    obtain ⟨f, hf, hs, hq, hb⟩ := hpre
    have hnew := hpl.newIOData hf hs (hI.calls.frame t f hf).1 hq hb
    rw [← hcur hf] at hnew
    exact hnew
  | writeIOData i d =>
    change ∃ pl, Items m (w.writeIOData i d).ledger (Function.update ls t ((ls t).write i d)) pl
    rcases hpre with ⟨f, d₀, hf, hs, hr, hb⟩ | ⟨hf, j, cb, d₀, hj, hk, rfl, hd, hc, hr, ha⟩
    · rw [Local.write_of_some hf]
      exact hpl.writeHeld hf hs hr hb
    · rw [Local.write_of_none hf]
      exact hpl.writeJob hj hk hd hc hr ha
  | deleteIOData i =>
    change ∃ pl, Items m (w.deleteIOData i).2.ledger (Function.update ls t ((ls t).delete i)) pl
    rcases hpre with ⟨f, d₀, hf, hs⟩ | ⟨hf, j, d₀, hj, hi, hd, hc⟩
    · rw [Local.delete_of_some hf]
      exact hpl.deleteHeld hf hs
    · rw [Local.delete_of_none hf]
      exact hpl.deleteJob hj hi hd hc
  | invoke i f args =>
    obtain ⟨hf, j, d, hj, hi, hd, hc, hfunc, rfl, hs⟩ := hpre
    exact hpl.invoke hj hi hd hc hfunc hs
  | trySubmitThreadpoolCallback f c k => exact hI.items_submit hpre
  | callbackReturn =>
    obtain ⟨hf, j, hj, hr⟩ := hpre
    exact hpl.callbackReturn hj hr
  | overlapped req i io =>
    obtain ⟨f, d, hf, hs, -⟩ := hpre
    change ∃ pl, Items m (w.submit i io (World.accepts a.error)).ledger (Function.update ls t
      (if submits (World.result a ()) then (ls t).setStage (.submitted i) else ls t)) pl
    rw [submits_result]
    cases World.accepts a.error with
    | true => exact hpl.submit hf hs ⟨i, io, w.groupOfIo io⟩ rfl
    | false => exact hsame rfl rfl rfl (fun _ => rfl) rfl rfl rfl rfl rfl
  | closeThreadpoolCleanupGroupMembers gr =>
    have hm : m.alive = false := (Bool.not_eq_true' _).mp hg
    cases gr with
    | none => exact hsame rfl rfl rfl (fun _ => rfl) rfl rfl rfl rfl rfl
    | some gr =>
      obtain ⟨pl', hpl'⟩ := hpl.closeMembers hm gr
      refine ⟨pl', ?_⟩
      rw [show (logic m).post (ls t) (.closeThreadpoolCleanupGroupMembers (some gr)) _ = ls t from rfl,
        Function.update_eq_self]
      exact hpl'
  | startThreadpoolIo io =>
    cases w
    exact hsame (Local.stage?_setFrame fun _ => rfl) rfl rfl (fun _ => rfl) rfl rfl rfl rfl rfl
  | cancelThreadpoolIo io =>
    cases w
    exact hsame (Local.stage?_setFrame fun _ => rfl) rfl rfl (fun _ => rfl) rfl rfl rfl rfl rfl
  | newFunc c => exact hsame rfl rfl rfl (fun _ => rfl) rfl rfl rfl rfl rfl
  | invokeFunc f =>
    obtain ⟨hplace, htask⟩ := (ls t).setJob_same (t := t) (F := fun j => { j with ran := true }) (fun _ => rfl)
      (fun _ => rfl) (fun _ => rfl) (fun _ => rfl) fun _ => rfl
    exact hsame rfl hplace htask (fun _ => rfl) rfl rfl rfl rfl rfl
  | deleteFunc f =>
    obtain ⟨hplace, htask⟩ := Local.deleteFunc_same (l := ls t) (t := t)
    cases w
    exact hsame (congrArg (Option.map Frame.stage) Local.deleteFunc_frame) hplace htask (fun _ => rfl) rfl rfl
      rfl rfl rfl
  | makeCore conf => exact hpre.elim
  | destroyCore => exact hpre.elim
  | getLastError | setsockopt _ _ | getAcceptExSockaddrs _ => exact hI.items_report hpre
  | _ =>
    cases w
    exact hsame rfl rfl rfl (fun _ => rfl) rfl rfl rfl rfl rfl

/-- The call that a thread is in comes to another stage of its operation. -/
theorem Calls.advance {g : Ledger} {f : Frame} {st : Stage} {heap : DataId → Cell} {frees : DataId → ℕ}
    {accepted : DataId → Bool} {kernel : List PendingIo} (hC : Calls m g ls) (hf : (ls t).frame = some f)
    (hst : AtStage { g with heap := heap, frees := frees, accepted := accepted, kernel := kernel } f.id st)
    (hacc : ∀ i, g.opOf i ≠ some f.id → accepted i = g.accepted i)
    (hheap : ∀ i, (g.heap i).isLive = false → (heap i).isLive = false) :
    Calls m { g with heap := heap, frees := frees, accepted := accepted, kernel := kernel }
      (Function.update ls t ((ls t).setStage st)) := by
  obtain ⟨-, -, h₃, h₄, -⟩ := hC.frame t f hf
  have hf' : ((ls t).setStage st).frame = some { f with stage := st } := by rw [Local.setStage, hf]; rfl
  refine hC.inside hf hf' rfl rfl rfl rfl rfl rfl h₃ h₄ hst (fun n hn => ?_)
    (fun i i' => hC.op_inj i i' f.id) hC.unborn
  refine ⟨fun _ => Iff.rfl, fun i hi => hacc i fun hi' => hn ?_, fun i _ => hheap i, rfl, rfl⟩
  exact Option.some.inj (hi.symm.trans hi')

/-- It allocates. -/
theorem Calls.newIOData {g : Ledger} {f : Frame} (hC : Calls m g ls) (hf : (ls t).frame = some f)
    (hs : f.stage = .none) (hacc : g.accepted g.nextData = false) (d : IOData) :
    Calls m { g with
      heap := upd g.heap g.nextData (.live d)
      nextData := g.nextData + 1
      opOf := upd g.opOf g.nextData (some f.id) }
      (Function.update ls t ((ls t).setStage (.held g.nextData d))) := by
  obtain ⟨-, -, h₃, h₄, h₅⟩ := hC.frame t f hf
  rw [hs] at h₅
  have hf' : ((ls t).setStage (.held g.nextData d)).frame =
      some { f with stage := .held g.nextData d } := by rw [Local.setStage, hf]; rfl
  have hop : ∀ i, upd g.opOf g.nextData (some f.id) i = some f.id → i = g.nextData := by
    intro i hi
    by_contra hne
    rw [upd, Function.update_of_ne hne] at hi
    exact h₅ i hi
  refine hC.inside hf hf' rfl rfl rfl rfl rfl rfl h₃ h₄ ⟨Function.update_self .., hacc⟩ (fun n hn => ?_)
    (fun i i' hi hi' => (hop i hi).trans (hop i' hi').symm) fun i hi => ?_
  · refine ⟨fun i => ?_, fun _ _ => rfl, fun i hi hdead => ?_, rfl, rfl⟩
    · by_cases hne : i = g.nextData
      · subst hne
        simp [hC.unborn g.nextData le_rfl, Ne.symm hn]
      · simp [hne]
    · have hne : i ≠ g.nextData := by
        rintro rfl
        rw [hC.unborn g.nextData le_rfl] at hi
        cases hi
      simpa [hne] using hdead
  · have hlt : g.nextData < i := hi
    have hne : i ≠ g.nextData := Nat.ne_of_gt hlt
    simpa [hne] using hC.unborn i hlt.le

/-- It announces its operation to the TP_IO, or takes that back. -/
theorem Calls.announce {g : Ledger} {f f' : Frame} {starts cancels : CallId → ℕ} {F : Frame → Frame}
    (hC : Calls m g ls) (hf : (ls t).frame = some f) (hF : F f = f') (hid : f'.id = f.id)
    (hcall : f'.call = f.call) (hstage : f'.stage = f.stage) (hst : starts f.id = f'.starts)
    (hcn : cancels f.id = f'.cancels) (hst' : ∀ n, n ≠ f.id → starts n = g.tpStarts n)
    (hcn' : ∀ n, n ≠ f.id → cancels n = g.tpCancels n) :
    Calls m { g with tpStarts := starts, tpCancels := cancels }
      (Function.update ls t { ls t with frame := (ls t).frame.map F }) := by
  obtain ⟨-, -, -, -, h₅⟩ := hC.frame t f hf
  have hf' : ({ ls t with frame := (ls t).frame.map F } : Local).frame = some f' := by
    rw [hf, Option.map_some, hF]
  refine hC.inside hf hf' hid hcall rfl rfl rfl rfl hst hcn ?_ (fun n hn => ?_)
    (fun i i' => hC.op_inj i i' f.id) hC.unborn
  · rw [hstage]
    cases hs : f.stage <;> rw [hs] at h₅ <;> exact h₅
  · exact ⟨fun _ => Iff.rfl, fun _ _ => rfl, fun _ _ h => h, hst' n hn, hcn' n hn⟩

/-- **A call keeps every call on record.** -/
theorem Inv.calls_run (hI : Inv m w ls) (hpre : (logic m).pre (ls t) o) :
    Calls m (w.reply t o a).2.ledger
      (Function.update ls t ((logic m).post (ls t) o (w.reply t o a).1)) := by
  have hC := hI.calls
  have houtside : ∀ {g' : Ledger} {l' : Local}, l'.frame = (ls t).frame →
      g' = { w.ledger with
        heap := g'.heap, completions := g'.completions, reports := g'.reports, posted := g'.posted
        invocations := g'.invocations, frees := g'.frees, kernel := g'.kernel, ioQueue := g'.ioQueue
        queue := g'.queue, running := g'.running } →
      (∀ i, (w.heap i).isLive = false → (g'.heap i).isLive = false) →
        Calls m g' (Function.update ls t l') :=
    fun hf hg hheap => hC.outside (fun t' => forall_update (fun _ l => l.frame) hf t') hg hheap
  have hcur : ∀ {f}, (ls t).frame = some f → w.cur t = some f.id := by
    intro f hf
    have := hC.cur t
    rw [hf] at this
    exact this
  have hbump : ∀ (c : CallId → ℕ) {f}, (ls t).frame = some f →
      bump c (w.cur t) f.id = c f.id + 1 ∧ ∀ n, n ≠ f.id → bump c (w.cur t) n = c n := by
    intro c f hf
    rw [hcur hf]
    exact ⟨Function.update_self .., fun n hn => Function.update_of_ne hn ..⟩
  cases o with
  | enter c => exact hC.enter hpre c
  | leave n r =>
    obtain ⟨f, hf, rfl, hr⟩ := hpre
    exact hC.leave hf hr
  | newIOData d =>
    obtain ⟨f, hf, hs, hq, hb⟩ := hpre
    obtain ⟨pl, hpl⟩ := hI.items
    have hok := hpl.ok w.nextData
    rw [(hpl.born w.nextData).mpr le_rfl] at hok
    have hnew := hC.newIOData hf hs (congrArg Item.accepted hok) d
    rw [← hcur hf] at hnew
    exact hnew
  | writeIOData i d =>
    change Calls m (w.writeIOData i d).ledger (Function.update ls t ((ls t).write i d))
    rcases hpre with ⟨f, d₀, hf, hs, hr, hb⟩ | ⟨hf, j, cb, d₀, hj, hk, rfl, hd, hc, hr, ha⟩
    · rw [Local.write_of_some hf]
      have hat := (hC.frame t f hf).2.2.2.2
      rw [hs] at hat
      exact hC.advance hf hat (fun _ _ => rfl) (isLive_upd_map i)
    · rw [Local.write_of_none hf]
      exact houtside rfl rfl (isLive_upd_map _)
  | deleteIOData i =>
    change Calls m (w.deleteIOData i).2.ledger (Function.update ls t ((ls t).delete i))
    have hfreed : ∀ i', (w.heap i').isLive = false → (upd w.heap i .freed i').isLive = false := by
      intro i' hdead
      by_cases hi : i' = i
      · rw [hi, upd, Function.update_self]
        rfl
      · rwa [upd, Function.update_of_ne hi]
    rcases hpre with ⟨f, d₀, hf, hs⟩ | ⟨hf, j, d₀, hj, hi, hd, hc⟩
    · rw [Local.delete_of_some hf]
      have hat := (hC.frame t f hf).2.2.2.2
      rw [hs] at hat
      have hgone : (upd w.heap i .freed i).isLive = false := by
        rw [upd, Function.update_self]
        rfl
      exact hC.advance hf ⟨hat.1, hat.2, hgone⟩ (fun _ _ => rfl) hfreed
    · rw [Local.delete_of_none hf]
      exact houtside rfl rfl hfreed
  | invoke i f args => exact houtside rfl rfl (isLive_upd_map i)
  | trySubmitThreadpoolCallback f c k =>
    cases w
    exact houtside (Local.submit_frame _) rfl fun _ h => h
  | callbackReturn => exact houtside rfl rfl fun _ h => h
  | overlapped req i io =>
    obtain ⟨f, d, hf, hs, -⟩ := hpre
    change Calls m (w.submit i io (World.accepts a.error)).ledger (Function.update ls t
      (if submits (World.result a ()) then (ls t).setStage (.submitted i) else ls t))
    rw [submits_result]
    cases World.accepts a.error with
    | true =>
      have hat := (hC.frame t f hf).2.2.2.2
      rw [hs] at hat
      refine hC.advance hf ⟨hat.1, Function.update_self ..⟩ (fun i' hi' => ?_) fun _ h => h
      have hne : i' ≠ i := by
        rintro rfl
        exact hi' hat.1
      exact Function.update_of_ne hne ..
    | false => exact houtside rfl rfl fun _ h => h
  | closeThreadpoolCleanupGroupMembers gr => cases gr <;> exact houtside rfl rfl fun _ h => h
  | startThreadpoolIo io =>
    obtain ⟨f, hf⟩ := Option.isSome_iff_exists.mp hpre
    obtain ⟨-, -, h₃, h₄, -⟩ := hC.frame t f hf
    obtain ⟨hself, hother⟩ := hbump w.tpStarts hf
    exact hC.announce hf rfl rfl rfl rfl (hself.trans (congrArg (· + 1) h₃)) h₄ hother fun _ _ => rfl
  | cancelThreadpoolIo io =>
    obtain ⟨f, hf⟩ := Option.isSome_iff_exists.mp hpre
    obtain ⟨-, -, h₃, h₄, -⟩ := hC.frame t f hf
    obtain ⟨hself, hother⟩ := hbump w.tpCancels hf
    exact hC.announce hf rfl rfl rfl rfl h₃ (hself.trans (congrArg (· + 1) h₄)) (fun _ _ => rfl) hother
  | deleteFunc f =>
    cases w
    exact houtside Local.deleteFunc_frame rfl fun _ h => h
  | makeCore conf => exact hpre.elim
  | destroyCore => exact hpre.elim
  | getLastError | setsockopt _ _ | getAcceptExSockaddrs _ =>
    exact houtside (Local.report_frame _) rfl fun _ h => h
  | _ =>
    cases w
    exact houtside rfl rfl fun _ h => h

theorem Inv.alive_run (hI : Inv m w ls) (hpre : (logic m).pre (ls t) o) :
    m.alive = true → (w.reply t o a).2.coreAlive = true := by
  cases o with
  | makeCore conf => exact hpre.elim
  | destroyCore => exact hpre.elim
  | closeThreadpoolCleanupGroupMembers g => cases g <;> exact hI.alive
  | _ =>
    cases w
    exact hI.alive

theorem Inv.run (hI : Inv m w ls) (hpre : (logic m).pre (ls t) o) (hg : (guard m).run w t o a) :
    Inv m (w.reply t o a).2 (Function.update ls t ((logic m).post (ls t) o (w.reply t o a).1)) :=
  ⟨hI.items_run hpre hg, hI.calls_run hpre, hI.alive_run hpre, hI.ok_reply hpre⟩

/-- A closure that is about no operation is a user's. -/
theorem Closure.user_of_ioData {c : Closure} (h : c.ioData = none) : ∃ n, c = .user n := by
  cases c with
  | user n => exact ⟨n, rfl⟩
  | _ => cases h

/-- A thread that was started just now: it has put nothing on the heap, and the closure that it is to run, if
any, is as it was submitted. -/
def Local.Fresh (l : Local) : Prop :=
  l.func = none ∧ ∀ (j : Job) (q : Work), l.job = some j → j.task = .work q →
    j.ran = false ∧ j.freed = false ∧ (j.held = none → q.closure.ioData = none)

theorem fresh_idle : Local.Fresh ⟨none, none, none⟩ := ⟨rfl, fun _ _ h => by cases h⟩

/-- **What happens of itself** keeps every `IOData` in its place, and a thread that it starts knows what it
has. -/
theorem Inv.event {n : ℕ} {e : Event} {p : Option (Prog Unit)} (hI : Inv m w ls)
    (hidle : ls n = ⟨none, none, none⟩) (hg : (guard m).env w e) (he : w.event n e = some (w', p)) :
    ∃ l, Inv m w' (Function.update ls n l) ∧ (p = none → l = ⟨none, none, none⟩) ∧
      (∀ q ∈ p, (logic m).wp q (fun _ _ => True) l) ∧ l.Fresh := by
  obtain ⟨pl, hpl⟩ := id hI.items
  have hkeep : ∀ {w' : World}, w'.ledger = w.ledger → (m.alive = true → w'.coreAlive = true) →
      w'.faults = w.faults → Inv m w' (Function.update ls n ⟨none, none, none⟩) := by
    intro w' hl ha hf
    rw [← hidle, Function.update_eq_self]
    exact ⟨hl ▸ hI.items, hl ▸ hI.calls, ha, hf ▸ hI.ok⟩
  have hcalls : ∀ {g' : Ledger} {l : Local}, l.frame = none →
      g' = { w.ledger with
        heap := g'.heap, completions := g'.completions, reports := g'.reports, posted := g'.posted
        invocations := g'.invocations, frees := g'.frees, kernel := g'.kernel, ioQueue := g'.ioQueue
        queue := g'.queue, running := g'.running } →
      (∀ i, (w.heap i).isLive = false → (g'.heap i).isLive = false) →
        Calls m g' (Function.update ls n l) := by
    intro g' l hl hg' hheap
    refine hI.calls.outside (fun t' => forall_update (fun _ l => l.frame) ?_ t') hg' hheap
    rw [hl, hidle]
  cases World.event_step he with
  | spawn cs =>
    refine ⟨⟨none, none, none⟩, hkeep rfl hI.alive rfl, fun _ => rfl, ?_, fresh_idle⟩
    rintro q ⟨⟩
    exact Logic.wp_mono (keeps_runCalls cs) fun _ _ _ => trivial
  | @complete k e c hk =>
    refine ⟨⟨none, none, none⟩, ⟨?_, ?_, hI.alive, hI.ok⟩, fun _ => rfl, nofun, fresh_idle⟩
    · have hof : IoCallback.Of ⟨e.data, e.io, e.group, c.ioResult, c.nBytesTransferred⟩ c := ⟨rfl, rfl⟩
      obtain ⟨pl', hpl'⟩ := hpl.complete hk rfl hof
      rw [← hidle, Function.update_eq_self]
      exact ⟨pl', hpl'⟩
    · exact hcalls rfl rfl (isLive_upd_map _)
  | @dispatchIo k cb hk =>
    obtain ⟨d, hb, hitems⟩ := hpl.dispatchIo hidle hk
    refine ⟨atIo cb (some d) .none false false, ⟨hitems, hcalls rfl rfl fun _ h => h, hI.alive, hI.ok⟩, nofun, ?_,
      rfl, ?_⟩
    · rintro q ⟨⟩
      exact wp_ioCallback hb
    · rintro j q ⟨⟩ ⟨⟩
  | @dispatchWork k q hk =>
    cases hi : q.closure.ioData with
    | none =>
      obtain ⟨u, hu⟩ := Closure.user_of_ioData hi
      refine ⟨_, ⟨⟨pl, hpl.dispatchUser hidle hk hi⟩, hcalls rfl rfl fun _ h => h, hI.alive, hI.ok⟩, nofun, ?_,
        rfl, ?_⟩
      · rintro q ⟨⟩
        exact wp_workCallback_user hu
      · rintro j q ⟨⟩ ⟨⟩
        exact ⟨rfl, rfl, fun _ => hi⟩
    | some i =>
      obtain ⟨d, f, hq, hf, hitems⟩ := hpl.dispatchWork hidle hk hi
      refine ⟨_, ⟨hitems, hcalls rfl rfl fun _ h => h, hI.alive, hI.ok⟩, nofun, ?_, rfl, ?_⟩
      · rintro q ⟨⟩
        exact wp_workCallback hq hf
      · rintro j q ⟨⟩ ⟨⟩
        exact ⟨rfl, rfl, nofun⟩
  | @startCleanup k h hk hs =>
    refine ⟨⟨none, none, none⟩, hkeep rfl hI.alive rfl, fun _ => rfl, ?_, fresh_idle⟩
    rintro q ⟨⟩
    exact Logic.wp_mono (keeps_aside (WinIOCore.aside_cleanupThread k h.group) fun _ => rfl) fun _ _ _ => trivial
  | dropIoCore =>
    have hm : m.alive = false := (Bool.not_eq_true' _).mp hg
    exact ⟨⟨none, none, none⟩, hkeep rfl (fun h => by rw [hm] at h; cases h) rfl, fun _ => rfl, nofun,
      fresh_idle⟩

/-- **The code keeps the accounts.** -/
theorem proof (m : Mode) : machine.Proof (logic m) (guard m) ⟨none, none, none⟩ (Inv m) where
  run hI hpre hg _ := ⟨hI.given hpre hg, hI.run hpre hg⟩
  env hI hidle hg he := by
    obtain ⟨l, hI', hnone, hwp, -⟩ := hI.event (hidle _ le_rfl) hg he
    exact ⟨l, hI', hnone, hwp⟩

theorem Items.start (m : Mode) (conf : IOCoreConfig) :
    Items m (World.start conf).ledger (fun _ => ⟨none, none, none⟩) fun _ => .unborn where
  ok _ := rfl
  born i := by simp [World.ledger, World.start, World.blank]
  queues := by
    refine ⟨⟨fun i x => ?_, List.nodup_nil⟩, ⟨fun i x => ?_, List.nodup_nil⟩, ⟨fun i x => ?_, List.nodup_nil⟩,
      fun i q d h => Place.noConfusion h⟩
    · simp [Place.InKernel, World.ledger, World.start, World.blank]
    · simp [Place.InIoQueue, World.ledger, World.start, World.blank]
    · simp [Place.InQueue, World.ledger, World.start, World.blank]
  threads := by
    refine ⟨fun t i d => ?_, fun t i p hp => ?_, fun t k => ?_⟩
    · simp [Local.stage?]
    · have hne : Place.unborn ≠ p := by
        rintro rfl
        exact hp
      simp [Local.place, hne]
    · simp [Local.task?, World.ledger, World.start, World.blank]

theorem Calls.start (m : Mode) (conf : IOCoreConfig) :
    Calls m (World.start conf).ledger fun _ => ⟨none, none, none⟩ := by
  constructor <;> simp [World.ledger, World.start, World.blank]

theorem Inv.start (m : Mode) (conf : IOCoreConfig) : Inv m (World.start conf) fun _ => ⟨none, none, none⟩ :=
  ⟨⟨_, Items.start m conf⟩, Calls.start m conf, fun _ => rfl, fun _ => List.not_mem_nil⟩

/-- **In every state that is reached** the accounts are right. -/
theorem Inv.of_reach {m : Mode} {conf : IOCoreConfig} {s : State}
    (h : machine.Reach (guard m) (State.start conf) s) : ∃ ls, Inv m s.w ls :=
  (proof m).invariant (Inv.start m conf) h

end Ownership

end FirelinkNet
