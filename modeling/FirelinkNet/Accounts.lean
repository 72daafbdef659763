import FirelinkNet.Ownership
import FirelinkNet.Lib.Keyed

/-!
# The accounts of the operations

The code refines the model of `Lifecycle`: in every state that the library can reach,
each `IOData` is in one place, and the queues, the kernel and the threads have exactly
those that are with them. That is the invariant of the logic of `Ownership`: `Items`
is about the operations, `Calls` about the calls that start them.
-/

namespace FirelinkNet

open Lib

namespace Ownership

/-! ### What the threads have -/

/-- The stage of the call that a thread is in. -/
def Local.stage? (l : Local) : Option Stage := l.frame.map (·.stage)

/-- The `IOData` that a callback has, and its place. -/
def Job.place (t : ℕ) (j : Job) : Option (DataId × Place) :=
  match j.held, j.task with
  | some d, .io cb => some (cb.data, .handling t cb d j.reports j.posted j.called)
  | some d, .work q => q.closure.ioData.map fun i => (i, .calling t d j.called)
  | none, _ => none

/-- The `IOData` that the callback of a thread has, and its place. -/
def Local.place (t : ℕ) (l : Local) : Option (DataId × Place) := l.job.bind (·.place t)

/-- The callback that a thread runs. -/
def Local.task? (l : Local) : Option Task := l.job.map (·.task)

end Ownership

namespace Place

/-- With the callback that thread `t` runs. -/
def InCallback (t : ℕ) : Place → Prop
  | .handling t' _ _ _ _ _ | .calling t' _ _ => t' = t
  | _ => False

theorem InCallback.eq {t t' : ℕ} {p : Place} (h : p.InCallback t) (h' : p.InCallback t') : t = t' := by
  cases p with
  | handling => exact h.symm.trans h'
  | calling => exact h.symm.trans h'
  | _ => exact h.elim

/-- In the kernel, as `e`. -/
def InKernel (e : PendingIo) (p : Place) : Prop := ∃ d, p = .kernel e d

/-- In the queue of the IO pool, as `cb`. -/
def InIoQueue (cb : IoCallback) (p : Place) : Prop := ∃ d, p = .arrived cb d

/-- In the queue of the user pool, as `q`. -/
def InQueue (q : Work) (p : Place) : Prop := ∃ d, p = .queued q d

/-- In none of them. -/
def Loose : Place → Prop
  | .kernel _ _ | .arrived _ _ | .queued _ _ => False
  | _ => True

theorem Loose.not_inKernel {p : Place} (h : p.Loose) (e : PendingIo) : ¬ p.InKernel e := by
  rintro ⟨d, rfl⟩
  exact h

theorem Loose.not_inIoQueue {p : Place} (h : p.Loose) (cb : IoCallback) : ¬ p.InIoQueue cb := by
  rintro ⟨d, rfl⟩
  exact h

theorem Loose.not_inQueue {p : Place} (h : p.Loose) (q : Work) : ¬ p.InQueue q := by
  rintro ⟨d, rfl⟩
  exact h

end Place

namespace Ownership

/-- The queues hold what is in them. -/
structure Queues (g : Ledger) (pl : DataId → Place) : Prop where
  kernel : Keyed (fun e => some e.data) g.kernel fun i e => (pl i).InKernel e
  ioQueue : Keyed (fun cb => some cb.data) g.ioQueue fun i cb => (pl i).InIoQueue cb
  queue : Keyed (·.closure.ioData) g.queue fun i q => (pl i).InQueue q
  closure : ∀ i q d, pl i = .queued q d → ∃ f, d.userHandler.func = some f ∧ q.closure = d.closure i f

/-- The threads have what they know to have, and run what they know to run. -/
structure Threads (g : Ledger) (ls : ℕ → Local) (pl : DataId → Place) : Prop where
  starting : ∀ t i d, pl i = .starting t d ↔ (ls t).stage? = some (.held i d)
  callback : ∀ t i p, p.InCallback t → (pl i = p ↔ (ls t).place t = some (i, p))
  running : ∀ t k, (t, k) ∈ g.running ↔ (ls t).task? = some k

/-- Each `IOData` is in its place. -/
structure Items (m : Mode) (g : Ledger) (ls : ℕ → Local) (pl : DataId → Place) : Prop where
  ok : ∀ i, (pl i).Ok m (g.item i)
  born : ∀ i, pl i = .unborn ↔ g.nextData ≤ i
  queues : Queues g pl
  threads : Threads g ls pl

/-- What is on record for a call that is at some stage. -/
def AtStage (g : Ledger) (n : CallId) : Stage → Prop
  | .none => ∀ i, g.opOf i ≠ some n
  | .held i _ => g.opOf i = some n ∧ g.accepted i = false
  | .submitted i => g.opOf i = some n ∧ g.accepted i = true
  | .deleted i => g.opOf i = some n ∧ g.accepted i = false ∧ (g.heap i).isLive = false

/-- What is on record for a `start_…` function that has returned. -/
def Closed (m : Mode) (g : Ledger) (n : CallId) (r : ErrorCode) : Prop :=
  (r = .success → ∃ i, g.opOf i = some n ∧ g.accepted i = true) ∧
    (r ≠ .success → g.tpStarts n = g.tpCancels n ∧ ∀ i, g.opOf i = some n → g.accepted i = false ∧
      (m.clean = true → (g.heap i).isLive = false))

/-- Each call is on record. -/
structure Calls (m : Mode) (g : Ledger) (ls : ℕ → Local) : Prop where
  cur : ∀ t, g.cur t = (ls t).frame.map (·.id)
  frame : ∀ t f, (ls t).frame = some f → g.calls f.id = some f.call ∧ g.results f.id = none ∧
    g.tpStarts f.id = f.starts ∧ g.tpCancels f.id = f.cancels ∧ AtStage g f.id f.stage
  inj : ∀ t t' f f', (ls t).frame = some f → (ls t').frame = some f' → f.id = f'.id → t = t'
  fresh : ∀ n, g.nextCall ≤ n → g.calls n = none ∧ g.results n = none ∧ g.tpStarts n = 0 ∧
    g.tpCancels n = 0
  op_lt : ∀ i n, g.opOf i = some n → n < g.nextCall
  op_inj : ∀ i i' n, g.opOf i = some n → g.opOf i' = some n → i = i'
  unborn : ∀ i, g.nextData ≤ i → g.opOf i = none
  closed : ∀ n r c, g.results n = some r → g.calls n = some c → c.start?.isSome → Closed m g n r

/-! ### Moves -/

section Moves

variable {m : Mode} {g g' : Ledger} {ls ls' : ℕ → Local} {pl : DataId → Place} {t : ℕ} {i : DataId}
  {p' : Place} {l' : Local}

theorem forall_update {β : Type} (F : ℕ → Local → β) (h : F t l' = F t (ls t)) (t' : ℕ) :
    F t' (Function.update ls t l' t') = F t' (ls t') := by
  by_cases ht : t' = t
  · subst ht
    rw [Function.update_self, h]
  · rw [Function.update_of_ne ht]

/-- Where it was, and is not any more. -/
theorem update_of_left {P : Place → Prop} (h' : ¬ P p') (i' : DataId) :
    P (Function.update pl i p' i') ↔ P (pl i') ∧ i' ≠ i := by
  by_cases hi : i' = i
  · subst hi
    simp [h']
  · simp [hi]

theorem of_update {p : Place} {i' : DataId} (h : Function.update pl i p' i' = p) (hp : p' ≠ p) :
    pl i' = p := by
  by_cases hi : i' = i
  · subst hi
    rw [Function.update_self] at h
    exact absurd h hp
  · rwa [Function.update_of_ne hi] at h

theorem Threads.locals (hI : Threads g ls pl) (hs : ∀ t, (ls' t).stage? = (ls t).stage?)
    (hp : ∀ t, (ls' t).place t = (ls t).place t) (ht : ∀ t, (ls' t).task? = (ls t).task?)
    (hr : g'.running = g.running) : Threads g' ls' pl :=
  ⟨fun t i d => by rw [hs]; exact hI.starting t i d,
    fun t i p hc => by rw [hp]; exact hI.callback t i p hc,
    fun t k => by rw [ht, hr]; exact hI.running t k⟩

/-- The `IOData` that a call of the interface has moves. -/
theorem Threads.inFrame (hI : Threads g ls pl) (hpl : ∀ t' d, pl i = .starting t' d → t' = t)
    (hout : ∀ t', ¬ (pl i).InCallback t') (hpl' : ∀ t' d, p' = .starting t' d → t' = t)
    (hout' : ∀ t', ¬ p'.InCallback t') (hold : ∀ i' d, (ls t).stage? = some (.held i' d) → i' = i)
    (hnew : ∀ i' d, l'.stage? = some (.held i' d) ↔ i' = i ∧ p' = .starting t d)
    (hplace : l'.place t = (ls t).place t) (htask : l'.task? = (ls t).task?)
    (hrun : g'.running = g.running) :
    Threads g' (Function.update ls t l') (Function.update pl i p') where
  starting t' i' d := by
    have h := hI.starting t' i' d
    by_cases ht : t' = t
    · subst ht
      rw [Function.update_self, hnew]
      by_cases hi : i' = i
      · subst hi
        simp
      · rw [Function.update_of_ne hi, h]
        exact ⟨fun h' => absurd (hold _ _ h') hi, fun h' => absurd h'.1 hi⟩
    · rw [Function.update_of_ne ht, ← h]
      exact update_of_not (P := fun p : Place => p = .starting t' d) (fun h' => ht (hpl _ _ h'))
        (fun h' => ht (hpl' _ _ h')) i'
  callback t' i' p hc := by
    rw [forall_update (fun t l => l.place t) hplace, ← hI.callback t' i' p hc]
    refine update_of_not (P := fun p' : Place => p' = p) ?_ ?_ i'
    · intro h'
      exact hout t' (by rw [h']; exact hc)
    · intro h'
      exact hout' t' (by rw [h']; exact hc)
  running t' k := by
    rw [forall_update (fun _ l => l.task?) htask, hrun]
    exact hI.running t' k

/-- The `IOData` that a callback has moves. -/
theorem Threads.inJob (hI : Threads g ls pl) (hpl : ∀ t', (pl i).InCallback t' → t' = t)
    (hout : ∀ t' d, pl i ≠ .starting t' d) (hpl' : ∀ t', p'.InCallback t' → t' = t)
    (hout' : ∀ t' d, p' ≠ .starting t' d) (hold : ∀ i' p, (ls t).place t = some (i', p) → i' = i)
    (hnew : ∀ i' p, p.InCallback t → (l'.place t = some (i', p) ↔ i' = i ∧ p' = p))
    (hstage : l'.stage? = (ls t).stage?)
    (hrun : ∀ t' k, (t', k) ∈ g'.running ↔ (Function.update ls t l' t').task? = some k) :
    Threads g' (Function.update ls t l') (Function.update pl i p') where
  starting t' i' d := by
    rw [forall_update (fun _ l => l.stage?) hstage, ← hI.starting t' i' d]
    exact update_of_not (P := fun p : Place => p = .starting t' d) (hout t' d) (hout' t' d) i'
  callback t' i' p hc := by
    have h := hI.callback t' i' p hc
    by_cases ht : t' = t
    · subst ht
      rw [Function.update_self, hnew i' p hc]
      by_cases hi : i' = i
      · subst hi
        simp
      · rw [Function.update_of_ne hi, h]
        exact ⟨fun h' => absurd (hold _ _ h') hi, fun h' => absurd h'.1 hi⟩
    · rw [Function.update_of_ne ht, ← h]
      refine update_of_not (P := fun p' : Place => p' = p) ?_ ?_ i'
      · intro h'
        exact ht (hpl t' (by rw [h']; exact hc))
      · intro h'
        exact ht (hpl' t' (by rw [h']; exact hc))
  running := hrun

/-- A move between places that are in no queue. -/
theorem Queues.within (hI : Queues g pl) (hp : (pl i).Loose) (hp' : p'.Loose)
    (hk : g'.kernel = g.kernel) (hio : g'.ioQueue = g.ioQueue) (hq : g'.queue = g.queue) :
    Queues g' (Function.update pl i p') where
  kernel := by
    rw [hk]
    exact hI.kernel.congr fun i' e => update_of_not (hp.not_inKernel e) (hp'.not_inKernel e) i'
  ioQueue := by
    rw [hio]
    exact hI.ioQueue.congr fun i' cb => update_of_not (hp.not_inIoQueue cb) (hp'.not_inIoQueue cb) i'
  queue := by
    rw [hq]
    exact hI.queue.congr fun i' q => update_of_not (hp.not_inQueue q) (hp'.not_inQueue q) i'
  closure i' q d h := by
    exact hI.closure i' q d (of_update h fun h' => hp'.not_inQueue q ⟨d, h'⟩)

/-- One item moves. -/
theorem Items.move (hI : Items m g ls pl) (p' : Place) (hp : pl i ≠ .unborn) (hp' : p' ≠ .unborn)
    (hitem : ∀ i', i' ≠ i → g'.item i' = g.item i') (hok : p'.Ok m (g'.item i))
    (hn : g'.nextData = g.nextData) (hqs : Queues g' (Function.update pl i p'))
    (hth : Threads g' ls' (Function.update pl i p')) : ∃ pl', Items m g' ls' pl' := by
  refine ⟨_, fun i' => ?_, fun i' => ?_, hqs, hth⟩
  · by_cases hi : i' = i
    · subst hi
      rw [Function.update_self]
      exact hok
    · rw [Function.update_of_ne hi, hitem i' hi]
      exact hI.ok i'
  · rw [hn, ← hI.born i']
    exact update_of_not (P := fun p : Place => p = .unborn) hp hp' i'

end Moves

/-! ### The calls of the interface -/

section Frames

variable {m : Mode} {g g' : Ledger} {ls : ℕ → Local} {pl : DataId → Place} {t : ℕ} {i : DataId}
  {d d' : IOData} {f : Frame} {p' : Place} {st : Stage}

theorem Items.of_held (hI : Items m g ls pl) (hf : (ls t).frame = some f)
    (hs : f.stage = .held i d) : pl i = .starting t d ∧ (Place.starting t d).Ok m (g.item i) := by
  have hpl : pl i = .starting t d :=
    (hI.threads.starting t i d).mpr (by simp [Local.stage?, hf, hs])
  exact ⟨hpl, hpl ▸ hI.ok i⟩

/-- The call that has `i` comes to another stage, and `i` to another place. -/
theorem Items.setStage (hI : Items m g ls pl) (hf : (ls t).frame = some f) (hs : f.stage = .held i d)
    (hpl' : ∀ t' d, p' = .starting t' d → t' = t) (hout' : ∀ t', ¬ p'.InCallback t')
    (hnew : ∀ i' d, st = .held i' d ↔ i' = i ∧ p' = .starting t d) (hrun : g'.running = g.running) :
    Threads g' (Function.update ls t ((ls t).setStage st)) (Function.update pl i p') := by
  obtain ⟨hpl, -⟩ := hI.of_held hf hs
  refine hI.threads.inFrame ?_ ?_ hpl' hout' ?_ ?_ rfl rfl hrun
  · rw [hpl]
    intro t' d' h
    cases h
    rfl
  · rw [hpl]
    exact fun _ => id
  · intro i' d' h
    have h' : Stage.held i d = .held i' d' := by simpa [Local.stage?, hf, hs] using h
    cases h'
    rfl
  · simpa [Local.stage?, Local.setStage, hf] using hnew

/-- `new IOData`. -/
theorem Items.newIOData (hI : Items m g ls pl) (hf : (ls t).frame = some f) (hs : f.stage = .none)
    (hc : g.calls f.id = some f.call) (hq : f.call.start? = some d.request) (hb : d.Blank) :
    ∃ pl', Items m { g with
      heap := upd g.heap g.nextData (.live d)
      nextData := g.nextData + 1
      opOf := upd g.opOf g.nextData (some f.id) }
      (Function.update ls t ((ls t).setStage (.held g.nextData d))) pl' := by
  have hpl : pl g.nextData = .unborn := (hI.born _).mpr le_rfl
  have hok : g.item g.nextData = ⟨.unborn, none, false, none, .none, false, [], 0⟩ := by
    have := hI.ok g.nextData
    rw [hpl] at this
    exact this
  have hstage : (ls t).stage? = some .none := by simp [Local.stage?, hf, hs]
  have hstage' : ((ls t).setStage (.held g.nextData d)).stage? = some (.held g.nextData d) := by
    simp [Local.stage?, Local.setStage, hf]
  refine ⟨Function.update pl g.nextData (.starting t d), fun i' => ?_, fun i' => ?_,
    hI.queues.within (hpl ▸ trivial) trivial rfl rfl rfl,
    hI.threads.inFrame ?_ ?_ ?_ (fun _ => id) ?_ ?_ rfl rfl rfl⟩
  · by_cases hi : i' = g.nextData
    · subst hi
      rw [Function.update_self]
      refine ⟨?_, hb⟩
      simp only [Ledger.item, Item.mk.injEq] at hok
      obtain ⟨-, -, h₁, h₂, h₃, h₄, h₅, h₆⟩ := hok
      simp [Ledger.item, Ledger.requestOf, hc, hq, h₁, h₂, h₃, h₄, h₅, h₆]
    · rw [Function.update_of_ne hi]
      simpa [Ledger.item, Ledger.requestOf, hi] using hI.ok i'
  · by_cases hi : i' = g.nextData
    · subst hi
      simp
    · rw [Function.update_of_ne hi, hI.born i']
      show _ ↔ g.nextData + 1 ≤ i'
      lia
  · rw [hpl]
    exact nofun
  · rw [hpl]
    exact fun _ => id
  · intro t' d' h
    cases h
    rfl
  · intro i' d' h
    rw [hstage] at h
    cases h
  · intro i' d'
    rw [hstage']
    constructor
    · intro h
      cases h
      exact ⟨rfl, rfl⟩
    · rintro ⟨rfl, h⟩
      cases h
      rfl

/-- The `start_…` function fills in its `IOData`. -/
theorem Items.writeHeld (hI : Items m g ls pl) (hf : (ls t).frame = some f) (hs : f.stage = .held i d)
    (hr : d'.request = d.request) (hb : d'.Blank) :
    ∃ pl', Items m { g with heap := upd g.heap i ((g.heap i).map fun _ => d') }
      (Function.update ls t ((ls t).setStage (.held i d'))) pl' := by
  obtain ⟨hpl, hok⟩ := hI.of_held hf hs
  have hcell : g.heap i = .live d := congrArg Item.cell hok.1
  refine hI.move (.starting t d') (hpl ▸ nofun) nofun (fun i' hi => ?_) ?_ rfl
    (hI.queues.within (hpl ▸ trivial) trivial rfl rfl rfl) (hI.setStage hf hs ?_ (fun _ => id) ?_ rfl)
  · simp [Ledger.item, Ledger.requestOf, hi]
  · have := hok.fillIn hr hb
    simpa [Ledger.item, Ledger.requestOf, hcell, Cell.map] using this
  · intro t' d' h
    cases h
    rfl
  · intro i' d'
    constructor
    · intro h
      cases h
      exact ⟨rfl, rfl⟩
    · rintro ⟨rfl, h⟩
      cases h
      rfl

/-- An operation that was not accepted is undone. -/
theorem Items.deleteHeld (hI : Items m g ls pl) (hf : (ls t).frame = some f)
    (hs : f.stage = .held i d) :
    ∃ pl', Items m { g with heap := upd g.heap i .freed, frees := upd g.frees i (g.frees i + 1) }
      (Function.update ls t ((ls t).setStage (.deleted i))) pl' := by
  obtain ⟨hpl, hok⟩ := hI.of_held hf hs
  refine hI.move .freed (hpl ▸ nofun) nofun (fun i' hi => ?_) ?_ rfl
    (hI.queues.within (hpl ▸ trivial) trivial rfl rfl rfl)
    (hI.setStage hf hs (by rintro _ _ ⟨⟩) (fun _ => id)
      (fun _ _ => ⟨by rintro ⟨⟩, by rintro ⟨_, ⟨⟩⟩⟩) rfl)
  · simp [Ledger.item, Ledger.requestOf, hi]
  · simpa [Ledger.item, Ledger.requestOf] using hok.abandon

/-- The kernel accepts an operation. -/
theorem Items.submit (hI : Items m g ls pl) (hf : (ls t).frame = some f) (hs : f.stage = .held i d)
    (e : PendingIo) (he : e.data = i) :
    ∃ pl', Items m { g with kernel := g.kernel ++ [e], accepted := upd g.accepted i true }
      (Function.update ls t ((ls t).setStage (.submitted i))) pl' := by
  obtain ⟨hpl, hok⟩ := hI.of_held hf hs
  refine hI.move (.kernel e d) (hpl ▸ nofun) nofun (fun i' hi => ?_) ?_ rfl ⟨?_, ?_, ?_, ?_⟩
    (hI.setStage hf hs (by rintro _ _ ⟨⟩) (fun _ => id)
      (fun _ _ => ⟨by rintro ⟨⟩, by rintro ⟨_, ⟨⟩⟩⟩) rfl)
  · simp [Ledger.item, Ledger.requestOf, hi]
  · simpa [Ledger.item, Ledger.requestOf] using hok.submit e
  · have hnot : ∀ e', ¬ (pl i).InKernel e' := by
      rintro e' ⟨d', h⟩
      rw [hpl] at h
      cases h
    refine hI.queues.kernel.push (congrArg some he) hnot fun i' e' => ?_
    by_cases hi : i' = i
    · subst hi
      simp only [Function.update_self, hnot e', false_or, true_and]
      exact ⟨fun ⟨d', h⟩ => by cases h; rfl, fun h => ⟨d, by rw [h]⟩⟩
    · simp [hi]
  · refine hI.queues.ioQueue.congr fun i' cb => update_of_not ?_ (by rintro ⟨_, ⟨⟩⟩) i'
    rw [hpl]
    rintro ⟨_, ⟨⟩⟩
  · refine hI.queues.queue.congr fun i' q => update_of_not ?_ (by rintro ⟨_, ⟨⟩⟩) i'
    rw [hpl]
    rintro ⟨_, ⟨⟩⟩
  · intro i' q d' h
    exact hI.queues.closure i' q d' (of_update h (by rintro ⟨⟩))

/-- A call returns: an `IOData` it still has is left behind. -/
theorem Items.leave (hI : Items m g ls pl) (hf : (ls t).frame = some f)
    (hs : m.clean = true → ∀ i d, f.stage ≠ .held i d) {results : CallId → Option ErrorCode}
    {cur : ℕ → Option CallId} :
    ∃ pl', Items m { g with results := results, cur := cur }
      (Function.update ls t { ls t with frame := none }) pl' := by
  by_cases hh : ∃ i d, f.stage = .held i d
  · obtain ⟨i, d, hh⟩ := hh
    obtain ⟨hpl, hok⟩ := hI.of_held hf hh
    have hm : m.clean = false := by
      cases hm : m.clean with
      | false => rfl
      | true => exact absurd hh (hs hm i d)
    refine hI.move .lost (hpl ▸ nofun) nofun (fun _ _ => rfl) (hok.leak hm) rfl
      (hI.queues.within (hpl ▸ trivial) trivial rfl rfl rfl)
      (hI.threads.inFrame ?_ ?_ nofun (fun _ => id) ?_ ?_ rfl rfl rfl)
    · rw [hpl]
      intro t' d' h
      cases h
      rfl
    · rw [hpl]
      exact fun _ => id
    · intro i' d' h
      have h' : Stage.held i d = .held i' d' := by simpa [Local.stage?, hf, hh] using h
      cases h'
      rfl
    · exact fun _ _ => ⟨nofun, fun h => nomatch h.2⟩
  · refine ⟨pl, hI.ok, hI.born, ⟨hI.queues.kernel, hI.queues.ioQueue, hI.queues.queue,
      hI.queues.closure⟩, ⟨fun t' i d => ?_, fun t' i p hc => ?_, fun t' k => ?_⟩⟩
    · rw [hI.threads.starting t' i d]
      by_cases ht : t' = t
      · subst ht
        have hne : f.stage ≠ .held i d := fun h => hh ⟨i, d, h⟩
        simp [Local.stage?, hf, hne]
      · rw [Function.update_of_ne ht]
    · rw [forall_update (fun t l => l.place t) (by rfl)]
      exact hI.threads.callback t' i p hc
    · rw [forall_update (fun _ l => l.task?) (by rfl)]
      exact hI.threads.running t' k

end Frames

/-! ### The callbacks -/

section Jobs

variable {m : Mode} {g g' : Ledger} {ls : ℕ → Local} {pl : DataId → Place} {t : ℕ} {i : DataId}
  {d d' : IOData} {j j' : Job} {p p' : Place} {l' : Local} {cb : IoCallback} {q : Work} {f : ℕ}

theorem Job.place_inCallback (h : j.place t = some (i, p)) : p.InCallback t := by
  obtain ⟨task, held, posted, called, ran, freed, reports⟩ := j
  cases held with
  | none => cases h
  | some d =>
    cases task with
    | io cb =>
      cases h
      rfl
    | work q =>
      obtain ⟨i', -, h'⟩ := Option.map_eq_some_iff.mp h
      cases h'
      rfl

theorem Job.place_io (hk : j.task = .io cb) (hd : j.held = some d) :
    j.place t = some (cb.data, .handling t cb d j.reports j.posted j.called) := by
  simp [Job.place, hk, hd]

theorem Job.place_work (hk : j.task = .work q) (hi : q.closure.ioData = some i) (hd : j.held = some d) :
    j.place t = some (i, .calling t d j.called) := by
  simp [Job.place, hk, hi, hd]

theorem Job.place_none (hd : j.held = none) : j.place t = none := by
  simp [Job.place, hd]

theorem Items.of_job (hI : Items m g ls pl) (hj : (ls t).job = some j) (hp : j.place t = some (i, p)) :
    pl i = p ∧ p.Ok m (g.item i) := by
  have hpl : pl i = p := (hI.threads.callback t i p (Job.place_inCallback hp)).mpr
    (by rw [Local.place, hj, Option.bind_some, hp])
  exact ⟨hpl, hpl ▸ hI.ok i⟩

theorem Local.setJob_job {l : Local} {F : Job → Job} (hj : l.job = some j) :
    (l.setJob F).job = some (F j) := by
  simp [Local.setJob, hj]

/-- The callback that has `i` goes on, and `i` to another place. -/
theorem Items.inJob (hI : Items m g ls pl) (hj : (ls t).job = some j) (hp : j.place t = some (i, p))
    (hj' : l'.job = some j') (hk : j'.task = j.task) (hs : l'.stage? = (ls t).stage?)
    (hnew : j'.place t = some (i, p') ∨ j'.place t = none ∧ ∀ t', ¬ p'.InCallback t')
    (hout : ∀ t' d, p' ≠ .starting t' d) (hrun : g'.running = g.running) :
    Threads g' (Function.update ls t l') (Function.update pl i p') := by
  obtain ⟨hpl, -⟩ := hI.of_job hj hp
  have hin := Job.place_inCallback hp
  refine hI.threads.inJob ?_ ?_ ?_ hout ?_ ?_ hs ?_
  · rw [hpl]
    exact fun t' h => h.eq hin
  · rw [hpl]
    rintro t' d rfl
    exact hin
  · rcases hnew with hnew | ⟨-, hnew⟩
    · exact fun t' h => h.eq (Job.place_inCallback hnew)
    · exact fun t' h => absurd h (hnew t')
  · intro i' p' h
    rw [Local.place, hj, Option.bind_some, hp] at h
    cases h
    rfl
  · intro i' p₁ hc
    rw [Local.place, hj', Option.bind_some]
    rcases hnew with hnew | ⟨hnew, hno⟩
    · rw [hnew]
      simp [eq_comm]
    · rw [hnew]
      refine ⟨nofun, ?_⟩
      rintro ⟨-, rfl⟩
      exact absurd hc (hno t)
  · intro t' k
    rw [hrun, hI.threads.running, forall_update (fun _ l => l.task?) (by simp [Local.task?, hj, hj', hk])]

/-- `socket_io_routine` assigns to its `IOData`. -/
theorem Items.writeJob (hI : Items m g ls pl) (hj : (ls t).job = some j) (hk : j.task = .io cb)
    (hd : j.held = some d) (hc : j.called = false) (hr : d'.request = d.request)
    (ha : d'.acceptAddressBuffer = d.acceptAddressBuffer) :
    ∃ pl', Items m { g with heap := upd g.heap cb.data ((g.heap cb.data).map fun _ => d') }
      (Function.update ls t ((ls t).setJob fun j => { j with held := some d' })) pl' := by
  obtain ⟨hpl, hok⟩ := hI.of_job hj (Job.place_io hk hd)
  rw [hc] at hok
  obtain ⟨c, hv, -, -⟩ := id hok
  have hcell : g.heap cb.data = .live d := congrArg Item.cell hv
  refine hI.move (.handling t cb d' j.reports j.posted false) (hpl ▸ nofun) nofun (fun i' hi => ?_) ?_ rfl
    (hI.queues.within (hpl ▸ trivial) trivial rfl rfl rfl)
    (hI.inJob hj (Job.place_io hk hd) (Local.setJob_job hj) rfl rfl (.inl ?_) (by rintro _ _ ⟨⟩) rfl)
  · simp [Ledger.item, Ledger.requestOf, hi]
  · simpa [Ledger.item, Ledger.requestOf, hcell, Cell.map] using hok.settle hr ha
  · simp [Job.place, hk, hc]

/-- `socket_io_routine` is told something. -/
theorem Items.report (hI : Items m g ls pl) (hj : (ls t).job = some j) (hk : j.task = .io cb)
    (hd : j.held = some d) (hc : j.called = false) (ρ : Reports)
    (hj' : l'.job = some { j with reports := ρ }) (hs : l'.stage? = (ls t).stage?) :
    ∃ pl', Items m { g with reports := upd g.reports cb.data ρ } (Function.update ls t l') pl' := by
  obtain ⟨hpl, hok⟩ := hI.of_job hj (Job.place_io hk hd)
  rw [hc] at hok
  refine hI.move (.handling t cb d ρ j.posted false) (hpl ▸ nofun) nofun (fun i' hi => ?_) ?_ rfl
    (hI.queues.within (hpl ▸ trivial) trivial rfl rfl rfl)
    (hI.inJob hj (Job.place_io hk hd) hj' rfl hs (.inl ?_) (by rintro _ _ ⟨⟩) rfl)
  · simp [Ledger.item, Ledger.requestOf, hi]
  · simpa [Ledger.item, Ledger.requestOf] using hok.report ρ
  · simp [Job.place, hk, hd, hc]

/-- The user pool refuses the handler. -/
theorem Items.refuse (hI : Items m g ls pl) (hj : (ls t).job = some j) (hk : j.task = .io cb)
    (hd : j.held = some d) (hc : j.called = false) (hj' : l'.job = some { j with posted := true })
    (hs : l'.stage? = (ls t).stage?) :
    ∃ pl', Items m { g with posted := upd g.posted cb.data true } (Function.update ls t l') pl' := by
  obtain ⟨hpl, hok⟩ := hI.of_job hj (Job.place_io hk hd)
  rw [hc] at hok
  refine hI.move (.handling t cb d j.reports true false) (hpl ▸ nofun) nofun (fun i' hi => ?_) ?_ rfl
    (hI.queues.within (hpl ▸ trivial) trivial rfl rfl rfl)
    (hI.inJob hj (Job.place_io hk hd) hj' rfl hs (.inl ?_) (by rintro _ _ ⟨⟩) rfl)
  · simp [Ledger.item, Ledger.requestOf, hi]
  · simpa [Ledger.item, Ledger.requestOf] using hok.refuse
  · simp [Job.place, hk, hd, hc]

/-- The user pool takes the handler. -/
theorem Items.post (hI : Items m g ls pl) (hj : (ls t).job = some j) (hk : j.task = .io cb)
    (hd : j.held = some d) (hc : j.called = false) (hs : d.Settled cb.ioResult cb.nBytesTransferred j.reports)
    (hf : d.userHandler.func = some f) (hq : q.closure = d.closure cb.data f)
    (hj' : l'.job = some { j with posted := true, held := none }) (hst : l'.stage? = (ls t).stage?) :
    ∃ pl', Items m { g with posted := upd g.posted cb.data true, queue := g.queue ++ [q] }
      (Function.update ls t l') pl' := by
  obtain ⟨hpl, hok⟩ := hI.of_job hj (Job.place_io hk hd)
  rw [hc] at hok
  refine hI.move (.queued q d) (hpl ▸ nofun) nofun (fun i' hi => ?_) ?_ rfl ⟨?_, ?_, ?_, ?_⟩
    (hI.inJob hj (Job.place_io hk hd) hj' rfl hst (.inr ⟨Job.place_none rfl, fun _ => id⟩)
      (by rintro _ _ ⟨⟩) rfl)
  · simp [Ledger.item, Ledger.requestOf, hi]
  · simpa [Ledger.item, Ledger.requestOf] using hok.post q hs (by rw [hf]; nofun)
  · refine hI.queues.kernel.congr fun i' e => update_of_not ?_ (by rintro ⟨_, ⟨⟩⟩) i'
    rw [hpl]
    rintro ⟨_, ⟨⟩⟩
  · refine hI.queues.ioQueue.congr fun i' cb' => update_of_not ?_ (by rintro ⟨_, ⟨⟩⟩) i'
    rw [hpl]
    rintro ⟨_, ⟨⟩⟩
  · have hnot : ∀ q', ¬ (pl cb.data).InQueue q' := by
      rintro q' ⟨d', h⟩
      rw [hpl] at h
      cases h
    refine hI.queues.queue.push (by rw [hq, IOData.closure_ioData]) hnot fun i' q' => ?_
    by_cases hi : i' = cb.data
    · subst hi
      simp only [Function.update_self, hnot q', false_or, true_and]
      exact ⟨fun ⟨d', h⟩ => by cases h; rfl, fun h => ⟨d, by rw [h]⟩⟩
    · simp [hi]
  · intro i' q' d' h
    by_cases hi : i' = cb.data
    · subst hi
      rw [Function.update_self] at h
      cases h
      exact ⟨f, hf, hq⟩
    · rw [Function.update_of_ne hi] at h
      exact hI.queues.closure i' q' d' h

/-- A handler is called. -/
theorem Items.invoke (hI : Items m g ls pl) (hj : (ls t).job = some j) (hi : j.task.data = some i)
    (hd : j.held = some d) (hc : j.called = false) (hf : d.userHandler.func = some f)
    (hs : ∀ cb, j.task = .io cb → d.Settled cb.ioResult cb.nBytesTransferred j.reports) :
    ∃ pl', Items m { g with
        invocations := upd g.invocations i (g.invocations i ++ [(f, d.args)])
        heap := upd g.heap i ((g.heap i).map World.moveAccept) }
      (Function.update ls t ((ls t).setJob fun j =>
        { j with called := true, held := j.held.map World.moveAccept })) pl' := by
  have hitem : ∀ {i' : DataId} {v : List (ℕ × Args)} {c : Cell}, i' ≠ i → ({ g with
      invocations := upd g.invocations i v, heap := upd g.heap i c } : Ledger).item i' = g.item i' := by
    intro i' v c h
    simp [Ledger.item, Ledger.requestOf, h]
  cases hk : j.task with
  | io cb =>
    obtain rfl : cb.data = i := by simpa [hk, Task.data] using hi
    obtain ⟨hpl, hok⟩ := hI.of_job hj (Job.place_io hk hd)
    rw [hc] at hok
    obtain ⟨c, hv, -, -⟩ := id hok
    have hcell : g.heap cb.data = .live d := congrArg Item.cell hv
    refine hI.move (.handling t cb (World.moveAccept d) j.reports j.posted true) (by rw [hpl]; rintro ⟨⟩)
      (by rintro ⟨⟩) (fun i' h => hitem h) ?_ rfl (hI.queues.within (hpl ▸ trivial) trivial rfl rfl rfl)
      (hI.inJob hj (Job.place_io hk hd) (Local.setJob_job hj) rfl rfl (.inl ?_) (by rintro _ _ ⟨⟩) rfl)
    · simpa [Ledger.item, Ledger.requestOf, hcell, Cell.map] using
        hok.invoke (World.moveAccept d) (hs cb hk) hf
    · simp [Job.place, hk, hd]
  | work q =>
    have hq : q.closure.ioData = some i := by simpa [hk, Task.data] using hi
    obtain ⟨hpl, hok⟩ := hI.of_job hj (Job.place_work hk hq hd)
    rw [hc] at hok
    obtain ⟨c, ρ, hv, -, -⟩ := id hok
    have hcell : g.heap i = .live d := congrArg Item.cell hv
    refine hI.move (.calling t (World.moveAccept d) true) (by rw [hpl]; rintro ⟨⟩) (by rintro ⟨⟩)
      (fun i' h => hitem h) ?_ rfl (hI.queues.within (hpl ▸ trivial) trivial rfl rfl rfl)
      (hI.inJob hj (Job.place_work hk hq hd) (Local.setJob_job hj) rfl rfl (.inl ?_) (by rintro _ _ ⟨⟩) rfl)
    · simpa [Ledger.item, Ledger.requestOf, hcell, Cell.map] using
        hok.invoked (World.moveAccept d) hf
    · simp [Job.place, hk, hd, hq]

/-- A callback deletes its `IOData`. -/
theorem Items.deleteJob (hI : Items m g ls pl) (hj : (ls t).job = some j) (hi : j.task.data = some i)
    (hd : j.held = some d)
    (hc : j.called = true ∨ (∃ cb, j.task = .io cb) ∧ (d.userHandler.func = none ∨ m.alive = false)) :
    ∃ pl', Items m { g with heap := upd g.heap i .freed, frees := upd g.frees i (g.frees i + 1) }
      (Function.update ls t ((ls t).setJob fun j => { j with held := none })) pl' := by
  have hgo : ∀ {p : Place}, j.place t = some (i, p) →
      (p.Ok m (g.item i) → Place.freed.Ok m { g.item i with cell := .freed, frees := g.frees i + 1 }) →
      ∃ pl', Items m { g with heap := upd g.heap i .freed, frees := upd g.frees i (g.frees i + 1) }
        (Function.update ls t ((ls t).setJob fun j => { j with held := none })) pl' := by
    intro p hp hfree
    obtain ⟨hpl, hok⟩ := hI.of_job hj hp
    have hin := Job.place_inCallback hp
    have hl : (pl i).Loose := by
      rw [hpl]
      cases p <;> trivial
    have hu : pl i ≠ .unborn := by
      rw [hpl]
      rintro rfl
      exact hin
    refine hI.move .freed hu nofun (fun i' h => ?_) ?_ rfl (hI.queues.within hl trivial rfl rfl rfl)
      (hI.inJob hj hp (Local.setJob_job hj) rfl rfl (.inr ⟨Job.place_none rfl, fun _ => id⟩)
        nofun rfl)
    · simp [Ledger.item, Ledger.requestOf, h]
    · simpa [Ledger.item, Ledger.requestOf] using hfree hok
  cases hk : j.task with
  | io cb =>
    obtain rfl : cb.data = i := by simpa [hk, Task.data] using hi
    exact hgo (Job.place_io hk hd) fun hok => hok.free (hc.imp_right fun h => h.2)
  | work q =>
    have hq : q.closure.ioData = some i := by simpa [hk, Task.data] using hi
    have hcalled : j.called = true := by
      rcases hc with hc | ⟨⟨cb, h⟩, -⟩
      · exact hc
      · rw [hk] at h
        cases h
    refine hgo (Job.place_work hk hq hd) ?_
    rw [hcalled]
    exact fun hok => hok.done

/-- A callback returns: an `IOData` it still has is left behind. -/
theorem Items.callbackReturn (hI : Items m g ls pl) (hj : (ls t).job = some j)
    (hr : j.CanReturn m) :
    ∃ pl', Items m { g with running := g.running.filter (·.1 ≠ t) }
      (Function.update ls t { ls t with job := none }) pl' := by
  have hrun : ∀ t' k, (t', k) ∈ g.running.filter (·.1 ≠ t) ↔
      (Function.update ls t { ls t with job := none } t').task? = some k := by
    intro t' k
    rw [List.mem_filter, hI.threads.running]
    by_cases ht : t' = t
    · subst ht
      simp [Local.task?]
    · simp [ht]
  cases hd : j.held with
  | none =>
    have hp : (ls t).place t = none := by
      rw [Local.place, hj, Option.bind_some, Job.place_none hd]
    refine ⟨pl, hI.ok, hI.born, ⟨hI.queues.kernel, hI.queues.ioQueue, hI.queues.queue,
      hI.queues.closure⟩, ⟨fun t' i d => ?_, fun t' i p hc => ?_, hrun⟩⟩
    · rw [forall_update (fun _ l => l.stage?) (by rfl)]
      exact hI.threads.starting t' i d
    · rw [forall_update (fun t l => l.place t) (by rw [hp]; rfl)]
      exact hI.threads.callback t' i p hc
  | some d =>
    cases hk : j.task with
    | work q =>
      rw [Job.CanReturn, hk, hd] at hr
      cases hr.1
    | io cb =>
      have hm : m.honest = false := by
        rw [Job.CanReturn, hk, hd] at hr
        cases hm : m.honest with
        | false => rfl
        | true => cases hr hm
      have hp := Job.place_io (t := t) hk hd
      obtain ⟨hpl, hok⟩ := hI.of_job hj hp
      refine hI.move .lost (hpl ▸ nofun) nofun (fun _ _ => rfl) (hok.leave (.inr hm)) rfl
        (hI.queues.within (hpl ▸ trivial) trivial rfl rfl rfl)
        (hI.threads.inJob ?_ ?_ (fun _ => False.elim) nofun ?_ ?_ rfl hrun)
      · rw [hpl]
        exact fun t' h => h.eq rfl
      · rw [hpl]
        exact nofun
      · intro i' p' h
        rw [Local.place, hj, Option.bind_some, hp] at h
        cases h
        rfl
      · intro i' p₁ hc
        refine ⟨nofun, ?_⟩
        rintro ⟨-, rfl⟩
        exact hc.elim

end Jobs

/-! ### Events -/

section Events

variable {m : Mode} {g : Ledger} {ls : ℕ → Local} {pl : DataId → Place} {k n : ℕ} {e : PendingIo}
  {c : Completion} {cb : IoCallback} {q : Work}

/-- An operation completes. -/
theorem Items.complete (hI : Items m g ls pl) (hk : g.kernel[k]? = some e)
    (hcb : cb.data = e.data) (hc : cb.Of c) :
    ∃ pl', Items m { g with
      kernel := g.kernel.eraseIdx k
      ioQueue := g.ioQueue ++ [cb]
      completions := upd g.completions e.data (some c)
      heap := upd g.heap e.data ((g.heap e.data).map (·.fill c)) } ls pl' := by
  obtain ⟨d, hpl⟩ := hI.queues.kernel.of_getElem? hk rfl
  have hok := hI.ok e.data
  rw [hpl] at hok
  have hcell : g.heap e.data = .live d := congrArg Item.cell hok.1
  have hu : pl e.data ≠ .unborn := by
    rw [hpl]
    exact nofun
  refine hI.move (.arrived cb (d.fill c)) hu nofun (fun i' hi => ?_) ?_ rfl
    ⟨?_, ?_, ?_, ?_⟩ ⟨?_, ?_, hI.threads.running⟩
  · simp [Ledger.item, Ledger.requestOf, hi]
  · simpa [Ledger.item, Ledger.requestOf, hcell, Cell.map] using hok.complete hc
  · exact hI.queues.kernel.pop hk rfl fun i' e' => update_of_left (by rintro ⟨_, ⟨⟩⟩) i'
  · have hnot : ∀ cb', ¬ (pl e.data).InIoQueue cb' := by
      rintro cb' ⟨d', h⟩
      rw [hpl] at h
      cases h
    refine hI.queues.ioQueue.push (congrArg some hcb) hnot fun i' cb' => ?_
    by_cases hi : i' = e.data
    · subst hi
      simp only [Function.update_self, hnot cb', false_or, true_and]
      exact ⟨fun ⟨d', h⟩ => by cases h; rfl, fun h => ⟨_, by rw [h]⟩⟩
    · simp [hi]
  · refine hI.queues.queue.congr fun i' q => update_of_not ?_ (by rintro ⟨_, ⟨⟩⟩) i'
    rw [hpl]
    rintro ⟨_, ⟨⟩⟩
  · intro i' q d' h
    exact hI.queues.closure i' q d' (of_update h (by rintro ⟨⟩))
  · intro t i d'
    rw [← hI.threads.starting t i d']
    refine update_of_not (P := fun p : Place => p = .starting t d') ?_ ?_ i
    · rw [hpl]
      exact nofun
    · exact nofun
  · intro t i p hp
    rw [← hI.threads.callback t i p hp]
    refine update_of_not (P := fun p' : Place => p' = p) ?_ ?_ i
    · rw [hpl]
      rintro rfl
      exact hp
    · rintro rfl
      exact hp

theorem Items.running_cons {t : ℕ} {l' : Local} {task : Task} (hI : Items m g ls pl)
    (hn : ls t = ⟨none, none, none⟩) (ht : l'.task? = some task) (t' : ℕ) (k : Task) :
    (t', k) ∈ (t, task) :: g.running ↔ (Function.update ls t l' t').task? = some k := by
  rw [List.mem_cons, hI.threads.running, Prod.mk.injEq]
  by_cases htt : t' = t
  · subst htt
    rw [Function.update_self, ht, hn]
    simp [Local.task?, eq_comm]
  · simp [htt]

/-- A thread of the IO pool takes up a completion. -/
theorem Items.dispatchIo (hI : Items m g ls pl) (hn : ls n = ⟨none, none, none⟩)
    (hk : g.ioQueue[k]? = some cb) :
    ∃ d : IOData, d.Blank ∧ ∃ pl', Items m { g with
      ioQueue := g.ioQueue.eraseIdx k, running := (n, .io cb) :: g.running }
      (Function.update ls n (atIo cb (some d) .none false false)) pl' := by
  obtain ⟨d, hpl⟩ := hI.queues.ioQueue.of_getElem? hk rfl
  have hok := hI.ok cb.data
  rw [hpl] at hok
  obtain ⟨c, -, hb, -⟩ := id hok
  refine ⟨d, hb, hI.move (.handling n cb d .none false false) (hpl ▸ nofun) nofun (fun _ _ => rfl)
    (hok.handle n) rfl ⟨?_, ?_, ?_, ?_⟩
    (hI.threads.inJob ?_ ?_ (fun t' h => Eq.symm h) (by rintro _ _ ⟨⟩) ?_ ?_ ?_
      (hI.running_cons hn rfl))⟩
  · refine hI.queues.kernel.congr fun i' e => update_of_not ?_ (by rintro ⟨_, ⟨⟩⟩) i'
    rw [hpl]
    rintro ⟨_, ⟨⟩⟩
  · exact hI.queues.ioQueue.pop hk rfl fun i' cb' => update_of_left (by rintro ⟨_, ⟨⟩⟩) i'
  · refine hI.queues.queue.congr fun i' q => update_of_not ?_ (by rintro ⟨_, ⟨⟩⟩) i'
    rw [hpl]
    rintro ⟨_, ⟨⟩⟩
  · intro i' q d' h
    exact hI.queues.closure i' q d' (of_update h (by rintro ⟨⟩))
  · rw [hpl]
    exact fun _ => False.elim
  · rw [hpl]
    exact nofun
  · intro i' p h
    rw [hn] at h
    cases h
  · intro i' p hp
    simp [Local.place, Job.place, eq_comm]
  · rw [hn]
    rfl

/-- A thread of a pool takes up the closure of an operation. -/
theorem Items.dispatchWork {i : DataId} (hI : Items m g ls pl) (hn : ls n = ⟨none, none, none⟩)
    (hk : g.queue[k]? = some q) (hi : q.closure.ioData = some i) :
    ∃ (d : IOData) (f : ℕ), q.closure = d.closure i f ∧ d.userHandler.func = some f ∧
      ∃ pl', Items m { g with queue := g.queue.eraseIdx k, running := (n, .work q) :: g.running }
        (Function.update ls n ⟨none, some ⟨.work q, some d, true, false, false, false, .none⟩, none⟩) pl' := by
  obtain ⟨d, hpl⟩ := hI.queues.queue.of_getElem? hk hi
  obtain ⟨f, hf, hq⟩ := hI.queues.closure i q d hpl
  have hok := hI.ok i
  rw [hpl] at hok
  refine ⟨d, f, hq, hf, hI.move (.calling n d false) (hpl ▸ nofun) nofun (fun _ _ => rfl)
    (hok.call n) rfl ⟨?_, ?_, ?_, ?_⟩
    (hI.threads.inJob ?_ ?_ (fun t' h => Eq.symm h) (by rintro _ _ ⟨⟩) ?_ ?_ ?_
      (hI.running_cons hn rfl))⟩
  · refine hI.queues.kernel.congr fun i' e => update_of_not ?_ (by rintro ⟨_, ⟨⟩⟩) i'
    rw [hpl]
    rintro ⟨_, ⟨⟩⟩
  · refine hI.queues.ioQueue.congr fun i' cb => update_of_not ?_ (by rintro ⟨_, ⟨⟩⟩) i'
    rw [hpl]
    rintro ⟨_, ⟨⟩⟩
  · exact hI.queues.queue.pop hk hi fun i' q' => update_of_left (by rintro ⟨_, ⟨⟩⟩) i'
  · intro i' q' d' h
    exact hI.queues.closure i' q' d' (of_update h (by rintro ⟨⟩))
  · rw [hpl]
    exact fun _ => False.elim
  · rw [hpl]
    exact nofun
  · intro i' p h
    rw [hn] at h
    cases h
  · intro i' p hp
    simp [Local.place, Job.place, hi, eq_comm]
  · rw [hn]
    rfl

/-- It takes up the user's own work. -/
theorem Items.dispatchUser (hI : Items m g ls pl) (hn : ls n = ⟨none, none, none⟩)
    (hk : g.queue[k]? = some q) (hi : q.closure.ioData = none) :
    Items m { g with queue := g.queue.eraseIdx k, running := (n, .work q) :: g.running }
      (Function.update ls n ⟨none, some ⟨.work q, none, true, false, false, false, .none⟩, none⟩) pl := by
  refine ⟨hI.ok, hI.born, ⟨hI.queues.kernel, hI.queues.ioQueue, hI.queues.queue.pop_none hk hi,
    hI.queues.closure⟩, ⟨fun t i d => ?_, fun t i p hp => ?_, hI.running_cons hn rfl⟩⟩
  · rw [forall_update (fun _ l => l.stage?) (by rw [hn]; rfl)]
    exact hI.threads.starting t i d
  · rw [forall_update (fun t l => l.place t) (by rw [hn]; rfl)]
    exact hI.threads.callback t i p hp

/-- What a cleanup group discards is lost. -/
def discarded (gr : GroupId) : Place → Place
  | .arrived cb d => if cb.group = some gr then .lost else .arrived cb d
  | .queued q d => if q.group = some gr then .lost else .queued q d
  | p => p

theorem discarded_eq_arrived {gr : GroupId} {p : Place} {d : IOData} :
    discarded gr p = .arrived cb d ↔ p = .arrived cb d ∧ cb.group ≠ some gr := by
  cases p with
  | arrived cb' d' =>
    by_cases h : cb'.group = some gr
    · simp only [discarded, h, if_true, reduceCtorEq, false_iff, not_and, not_not]
      rintro ⟨rfl, -⟩
      exact h
    · simp only [discarded, h, if_false]
      exact ⟨fun he => by cases he; exact ⟨rfl, h⟩, fun he => he.1⟩
  | queued q d' => by_cases h : q.group = some gr <;> simp [discarded, h]
  | _ => simp [discarded]

theorem discarded_eq_queued {gr : GroupId} {p : Place} {d : IOData} :
    discarded gr p = .queued q d ↔ p = .queued q d ∧ q.group ≠ some gr := by
  cases p with
  | queued q' d' =>
    by_cases h : q'.group = some gr
    · simp only [discarded, h, if_true, reduceCtorEq, false_iff, not_and, not_not]
      rintro ⟨rfl, -⟩
      exact h
    · simp only [discarded, h, if_false]
      exact ⟨fun he => by cases he; exact ⟨rfl, h⟩, fun he => he.1⟩
  | arrived cb d' => by_cases h : cb.group = some gr <;> simp [discarded, h]
  | _ => simp [discarded]

/-- The other places stay. -/
theorem discarded_eq {gr : GroupId} {p p' : Place} (hp : p'.Loose) (hl : p' ≠ .lost) :
    discarded gr p = p' ↔ p = p' := by
  cases p with
  | arrived cb d =>
    have h' : Place.arrived cb d ≠ p' := by
      rintro rfl
      exact hp
    by_cases h : cb.group = some gr
    · simp only [discarded, h, if_true, h', iff_false]
      exact hl.symm
    · simp only [discarded, h, if_false]
  | queued q d =>
    have h' : Place.queued q d ≠ p' := by
      rintro rfl
      exact hp
    by_cases h : q.group = some gr
    · simp only [discarded, h, if_true, h', iff_false]
      exact hl.symm
    · simp only [discarded, h, if_false]
  | _ => rfl

theorem discarded_eq_kernel {gr : GroupId} {p : Place} {d : IOData} :
    discarded gr p = .kernel e d ↔ p = .kernel e d := by
  cases p with
  | arrived cb d' => by_cases h : cb.group = some gr <;> simp [discarded, h]
  | queued q d' => by_cases h : q.group = some gr <;> simp [discarded, h]
  | _ => rfl

/-- The members of a group are closed: what is queued to it is discarded. -/
theorem Items.closeMembers (hI : Items m g ls pl) (hm : m.alive = false) (gr : GroupId) :
    ∃ pl', Items m { g with
      ioQueue := g.ioQueue.filter fun cb => cb.group ≠ some gr
      queue := g.queue.filter fun q => q.group ≠ some gr } ls pl' := by
  refine ⟨fun i => discarded gr (pl i), fun i => ?_, fun i => ?_, ⟨?_, ?_, ?_, fun i q d h => ?_⟩,
    ⟨fun t i d => ?_, fun t i p hp => ?_, hI.threads.running⟩⟩
  · show (discarded gr (pl i)).Ok m (g.item i)
    have hok := hI.ok i
    cases hpl : pl i with
    | arrived cb d =>
      rw [hpl] at hok
      unfold discarded
      dsimp only
      split
      · exact hok.discard hm
      · exact hok
    | queued q d =>
      rw [hpl] at hok
      unfold discarded
      dsimp only
      split
      · exact hok.cancel hm
      · exact hok
    | _ =>
      rw [hpl] at hok
      exact hok
  · rw [← hI.born i]
    exact discarded_eq trivial nofun
  · exact hI.queues.kernel.congr fun i e => exists_congr fun d => discarded_eq_kernel
  · refine hI.queues.ioQueue.filter _ fun i cb => ?_
    simp only [Place.InIoQueue, discarded_eq_arrived, exists_and_right, decide_eq_true_eq]
  · refine hI.queues.queue.filter _ fun i q => ?_
    simp only [Place.InQueue, discarded_eq_queued, exists_and_right, decide_eq_true_eq]
  · exact hI.queues.closure i q d (discarded_eq_queued.mp h).1
  · rw [← hI.threads.starting t i d]
    exact discarded_eq trivial nofun
  · rw [← hI.threads.callback t i p hp]
    refine discarded_eq ?_ ?_
    · cases p <;> trivial
    · rintro rfl
      exact hp

end Events

/-! ### The calls -/

section Calls

variable {m : Mode} {g g' : Ledger} {ls ls' : ℕ → Local} {t : ℕ} {l' : Local} {f f' : Frame}
  {n : CallId} {c : ApiCall} {r : ErrorCode} {st : Stage}

/-- What is on record for the call `n` stays as it is. -/
structure SameFor (g g' : Ledger) (n : CallId) : Prop where
  op : ∀ i, g'.opOf i = some n ↔ g.opOf i = some n
  accepted : ∀ i, g.opOf i = some n → g'.accepted i = g.accepted i
  dead : ∀ i, g.opOf i = some n → (g.heap i).isLive = false → (g'.heap i).isLive = false
  starts : g'.tpStarts n = g.tpStarts n
  cancels : g'.tpCancels n = g.tpCancels n

theorem AtStage.same (h : AtStage g n st) (hs : SameFor g g' n) : AtStage g' n st := by
  cases st with
  | none => exact fun i hi => h i ((hs.op i).mp hi)
  | held i d => exact ⟨(hs.op i).mpr h.1, (hs.accepted i h.1).trans h.2⟩
  | submitted i => exact ⟨(hs.op i).mpr h.1, (hs.accepted i h.1).trans h.2⟩
  | deleted i => exact ⟨(hs.op i).mpr h.1, (hs.accepted i h.1).trans h.2.1, hs.dead i h.1 h.2.2⟩

theorem Closed.same (h : Closed m g n r) (hs : SameFor g g' n) : Closed m g' n r := by
  refine ⟨fun hr => ?_, fun hr => ⟨?_, fun i hi => ?_⟩⟩
  · obtain ⟨i, hi, ha⟩ := h.1 hr
    exact ⟨i, (hs.op i).mpr hi, (hs.accepted i hi).trans ha⟩
  · rw [hs.starts, hs.cancels]
    exact (h.2 hr).1
  · have hi' := (hs.op i).mp hi
    obtain ⟨ha, hd⟩ := (h.2 hr).2 i hi'
    exact ⟨(hs.accepted i hi').trans ha, fun hm => hs.dead i hi' (hd hm)⟩

/-- What a step outside the calls leaves as it is. -/
theorem Calls.outside (hC : Calls m g ls) (hfr : ∀ t, (ls' t).frame = (ls t).frame)
    (hg : g' = { g with
      heap := g'.heap, completions := g'.completions, reports := g'.reports, posted := g'.posted
      invocations := g'.invocations, frees := g'.frees, kernel := g'.kernel, ioQueue := g'.ioQueue
      queue := g'.queue, running := g'.running })
    (hheap : ∀ i, (g.heap i).isLive = false → (g'.heap i).isLive = false) : Calls m g' ls' := by
  have hsame : ∀ n, SameFor g g' n := fun n => by
    rw [hg] at hheap ⊢
    exact ⟨fun _ => Iff.rfl, fun _ _ => rfl, fun i _ => hheap i, rfl, rfl⟩
  have hframe : ∀ t f, (ls' t).frame = some f → AtStage g' f.id f.stage := fun t f hf =>
    (hC.frame t f (hfr t ▸ hf)).2.2.2.2.same (hsame f.id)
  have hclosed : ∀ n r c, g.results n = some r → g.calls n = some c → c.start?.isSome →
      Closed m g' n r := fun n r c h₁ h₂ h₃ => (hC.closed n r c h₁ h₂ h₃).same (hsame n)
  rw [hg] at hframe hclosed ⊢
  refine ⟨fun t => ?_, fun t f hf => ?_, fun t t' f f' hf hf' => ?_, hC.fresh, hC.op_lt, hC.op_inj,
    hC.unborn, hclosed⟩
  · rw [hfr]
    exact hC.cur t
  · obtain ⟨h₁, h₂, h₃, h₄, -⟩ := hC.frame t f (hfr t ▸ hf)
    exact ⟨h₁, h₂, h₃, h₄, hframe t f hf⟩
  · exact hC.inj t t' f f' (hfr t ▸ hf) (hfr t' ▸ hf')

/-- A step of the call that thread `t` is in, which may be the one that allocates. -/
theorem Calls.inside (hC : Calls m g ls) (hf : (ls t).frame = some f) (hf' : l'.frame = some f')
    (hid : f'.id = f.id) (hcall : f'.call = f.call) (hcalls : g'.calls = g.calls)
    (hres : g'.results = g.results) (hnext : g'.nextCall = g.nextCall) (hcur : g'.cur = g.cur)
    (hst : g'.tpStarts f.id = f'.starts) (hcn : g'.tpCancels f.id = f'.cancels)
    (hstage : AtStage g' f.id f'.stage) (hother : ∀ n, n ≠ f.id → SameFor g g' n)
    (hinj : ∀ i i', g'.opOf i = some f.id → g'.opOf i' = some f.id → i = i')
    (hunborn : ∀ i, g'.nextData ≤ i → g'.opOf i = none) :
    Calls m g' (Function.update ls t l') := by
  obtain ⟨h₁, h₂, -, -, -⟩ := hC.frame t f hf
  have hlt : f.id < g.nextCall := by
    by_contra hn
    rw [(hC.fresh f.id (Nat.not_lt.mp hn)).1] at h₁
    cases h₁
  have hfr : ∀ t' f₁, (Function.update ls t l' t').frame = some f₁ →
      ∃ f₂, (ls t').frame = some f₂ ∧ f₁.id = f₂.id ∧ (t' = t ∧ f₁ = f' ∨ t' ≠ t ∧ f₁ = f₂) := by
    intro t' f₁ h
    by_cases ht : t' = t
    · subst ht
      rw [Function.update_self, hf'] at h
      cases h
      exact ⟨f, hf, hid, .inl ⟨rfl, rfl⟩⟩
    · rw [Function.update_of_ne ht] at h
      exact ⟨f₁, h, rfl, .inr ⟨ht, rfl⟩⟩
  refine ⟨fun t' => ?_, fun t' f₁ h => ?_, fun t' t'' f₁ f₂ h h' heq => ?_, fun n hn => ?_,
    fun i n hi => ?_, fun i i' n hi hi' => ?_, hunborn, fun n r c hr hc hs => ?_⟩
  · rw [hcur, hC.cur t']
    have hm : l'.frame.map (·.id) = (ls t).frame.map (·.id) := by simp [hf, hf', hid]
    exact (forall_update (fun _ l => l.frame.map (·.id)) hm t').symm
  · obtain ⟨f₂, hf₂, -, ⟨rfl, rfl⟩ | ⟨ht, rfl⟩⟩ := hfr t' f₁ h
    · rw [hid, hcalls, hres, hcall]
      exact ⟨h₁, h₂, hst, hcn, hstage⟩
    · obtain ⟨k₁, k₂, k₃, k₄, k₅⟩ := hC.frame t' f₁ hf₂
      have hne : f₁.id ≠ f.id := fun h => ht (hC.inj t' t f₁ f hf₂ hf h)
      have hsame := hother f₁.id hne
      rw [hcalls, hres, hsame.starts, hsame.cancels]
      exact ⟨k₁, k₂, k₃, k₄, k₅.same hsame⟩
  · obtain ⟨k₁, hk₁, e₁, -⟩ := hfr t' f₁ h
    obtain ⟨k₂, hk₂, e₂, -⟩ := hfr t'' f₂ h'
    exact hC.inj t' t'' k₁ k₂ hk₁ hk₂ (by rw [← e₁, ← e₂, heq])
  · rw [hnext] at hn
    have hne : n ≠ f.id := by
      rintro rfl
      exact absurd hlt (Nat.not_lt.mpr hn)
    rw [hcalls, hres, (hother n hne).starts, (hother n hne).cancels]
    exact hC.fresh n hn
  · rw [hnext]
    by_cases hne : n = f.id
    · rw [hne]
      exact hlt
    · exact hC.op_lt i n (((hother n hne).op i).mp hi)
  · by_cases hne : n = f.id
    · subst hne
      exact hinj i i' hi hi'
    · exact hC.op_inj i i' n (((hother n hne).op i).mp hi) (((hother n hne).op i').mp hi')
  · rw [hres] at hr
    rw [hcalls] at hc
    have hne : n ≠ f.id := by
      rintro rfl
      rw [h₂] at hr
      cases hr
    exact (hC.closed n r c hr hc hs).same (hother n hne)

/-- A call is entered. -/
theorem Calls.enter (hC : Calls m g ls) (hf : (ls t).frame = none) (c : ApiCall) :
    Calls m { g with
      calls := upd g.calls g.nextCall (some c)
      nextCall := g.nextCall + 1
      cur := upd g.cur t (some g.nextCall) }
      (Function.update ls t { ls t with frame := some ⟨g.nextCall, c, .none, 0, 0⟩ }) := by
  obtain ⟨k₁, k₂, k₃, k₄⟩ := hC.fresh g.nextCall le_rfl
  have hlt : ∀ t f, (ls t).frame = some f → f.id ≠ g.nextCall := by
    intro t f hf h
    have := (hC.frame t f hf).1
    rw [h, k₁] at this
    cases this
  refine ⟨fun t' => ?_, fun t' f h => ?_, fun t' t'' f₁ f₂ h h' heq => ?_, fun n hn => ?_,
    fun i n hi => ?_, hC.op_inj, hC.unborn, fun n r c' hr hc hs => ?_⟩
  · by_cases ht : t' = t
    · subst ht
      simp
    · simp [ht, hC.cur t']
  · by_cases ht : t' = t
    · subst ht
      rw [Function.update_self] at h
      cases h
      refine ⟨Function.update_self .., k₂, k₃, k₄, fun i hi => ?_⟩
      exact absurd (hC.op_lt i _ hi) (lt_irrefl _)
    · rw [Function.update_of_ne ht] at h
      obtain ⟨h₁, h₂, h₃, h₄, h₅⟩ := hC.frame t' f h
      exact ⟨(Function.update_of_ne (hlt t' f h) ..).trans h₁, h₂, h₃, h₄,
        h₅.same ⟨fun _ => Iff.rfl, fun _ _ => rfl, fun _ _ => id, rfl, rfl⟩⟩
  · by_cases ht : t' = t <;> by_cases ht' : t'' = t
    · rw [ht, ht']
    · subst ht
      rw [Function.update_self] at h
      rw [Function.update_of_ne ht'] at h'
      cases h
      exact absurd heq.symm (hlt t'' f₂ h')
    · subst ht'
      rw [Function.update_of_ne ht] at h
      rw [Function.update_self] at h'
      cases h'
      exact absurd heq (hlt t' f₁ h)
    · rw [Function.update_of_ne ht] at h
      rw [Function.update_of_ne ht'] at h'
      exact hC.inj t' t'' f₁ f₂ h h' heq
  · have hn' : g.nextCall + 1 ≤ n := hn
    have hne : n ≠ g.nextCall := by lia
    obtain ⟨h₁, h₂, h₃, h₄⟩ := hC.fresh n (by lia)
    exact ⟨(Function.update_of_ne hne ..).trans h₁, h₂, h₃, h₄⟩
  · have := hC.op_lt i n hi
    show n < g.nextCall + 1
    lia
  · by_cases hne : n = g.nextCall
    · subst hne
      have hr' : g.results g.nextCall = some r := hr
      rw [k₂] at hr'
      cases hr'
    · have hc' : g.calls n = some c' := by simpa [hne] using hc
      exact (hC.closed n r c' hr hc' hs).same
        ⟨fun _ => Iff.rfl, fun _ _ => rfl, fun _ _ => id, rfl, rfl⟩

/-- A call returns. -/
theorem Calls.leave (hC : Calls m g ls) (hf : (ls t).frame = some f) (hr : f.CanReturn m r) :
    Calls m { g with results := upd g.results f.id (some r), cur := upd g.cur t none }
      (Function.update ls t { ls t with frame := none }) := by
  obtain ⟨h₁, h₂, h₃, h₄, h₅⟩ := hC.frame t f hf
  have hsame : ∀ n, SameFor g { g with
      results := upd g.results f.id (some r), cur := upd g.cur t none } n := fun n =>
    ⟨fun _ => Iff.rfl, fun _ _ => rfl, fun _ _ => id, rfl, rfl⟩
  have hlt : f.id < g.nextCall := by
    by_contra hn
    rw [(hC.fresh f.id (Nat.not_lt.mp hn)).1] at h₁
    cases h₁
  refine ⟨fun t' => ?_, fun t' f' h => ?_, fun t' t'' f₁ f₂ h h' heq => ?_, fun n hn => ?_,
    hC.op_lt, hC.op_inj, hC.unborn, fun n r' c hr' hc hs => ?_⟩
  · by_cases ht : t' = t
    · subst ht
      simp
    · simp [ht, hC.cur t']
  · by_cases ht : t' = t
    · subst ht
      rw [Function.update_self] at h
      cases h
    · rw [Function.update_of_ne ht] at h
      obtain ⟨k₁, k₂, k₃, k₄, k₅⟩ := hC.frame t' f' h
      have hne : f'.id ≠ f.id := fun h' => ht (hC.inj t' t f' f h hf h')
      exact ⟨k₁, (Function.update_of_ne hne ..).trans k₂, k₃, k₄, k₅.same (hsame f'.id)⟩
  · by_cases ht : t' = t
    · subst ht
      rw [Function.update_self] at h
      cases h
    · by_cases ht' : t'' = t
      · subst ht'
        rw [Function.update_self] at h'
        cases h'
      · rw [Function.update_of_ne ht] at h
        rw [Function.update_of_ne ht'] at h'
        exact hC.inj t' t'' f₁ f₂ h h' heq
  · obtain ⟨k₁, k₂, k₃, k₄⟩ := hC.fresh n hn
    have hne : n ≠ f.id := by
      rintro rfl
      exact absurd hlt (Nat.not_lt.mpr hn)
    exact ⟨k₁, (Function.update_of_ne hne ..).trans k₂, k₃, k₄⟩
  · by_cases hne : n = f.id
    · subst hne
      have hr'' : r = r' := by simpa using hr'
      subst hr''
      have hc' : f.call = c := Option.some.inj (h₁.symm.trans hc)
      subst hc'
      obtain ⟨hok, herr⟩ := hr hs
      refine ⟨fun h => ?_, fun h => ?_⟩
      · obtain ⟨i, hi⟩ := hok h
        rw [hi] at h₅
        exact ⟨i, h₅⟩
      · obtain ⟨hcount, hsub, hheld⟩ := herr h
        refine ⟨(h₃.trans hcount).trans h₄.symm, fun i hi => ?_⟩
        have hi' : g.opOf i = some f.id := hi
        cases hst : f.stage with
        | none =>
          rw [hst] at h₅
          exact absurd hi' (h₅ i)
        | held i' d =>
          rw [hst] at h₅
          obtain rfl := hC.op_inj i i' f.id hi' h₅.1
          exact ⟨h₅.2, fun hm => absurd hst (hheld hm i d)⟩
        | submitted i' => exact absurd hst (hsub i')
        | deleted i' =>
          rw [hst] at h₅
          obtain rfl := hC.op_inj i i' f.id hi' h₅.1
          exact ⟨h₅.2.1, fun _ => h₅.2.2⟩
    · have hr'' : g.results n = some r' := by simpa [hne] using hr'
      exact (hC.closed n r' c hr'' hc hs).same (hsame n)

end Calls

end Ownership

end FirelinkNet
