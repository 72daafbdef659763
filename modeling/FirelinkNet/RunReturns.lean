import FirelinkNet.RunStop
import FirelinkNet.Lib.Inevitable
import Mathlib.Algebra.Order.BigOperators.Group.Finset
import Mathlib.Algebra.BigOperators.Group.Finset.Basic

/-!
# Every `run` returns

`run` and `stop` with a core that is set up again in between: `initialize` sets
`stop_requested_` to 0 whenever it is called, also while threads are in `run` and in `stop`.
A `stop` can be lost that way, and in no other; and when the flag is not taken back, every
thread that is in `run` returns.

## What is proved

* `sleeper_wakes` — **no stop is lost but to an `initialize`**: as long as the flag is set,
  a thread that sleeps in `run` has a `stop` ahead of it that has not woken the sleepers yet.
* `run_returns` — **every `run` returns once the flag is set**, in any order of the steps and
  without help from wake-ups for no reason; so does every `stop`.
-/

namespace FirelinkNet

open Lib

namespace RunStop

variable {s s' : State} {t : ℕ} {p : Pc}

/-- `initialize` sets the flag to 0. -/
def State.clear (s : State) : State := { s with stopRequested := false }

/-- The states that are reached, with an `initialize` at any time. -/
def AnyReach : State → Prop :=
  Relation.ReflTransGen (fun s s' => (∃ a, s.step a = some s') ∨ s' = s.clear) .start

/-- A thread that stands here is going to wake the sleepers. -/
def Pc.waking : Pc → Bool
  | .stopAcquire | .stopWake => true
  | _ => false

/-- What is kept, whatever `initialize` does. -/
structure Orderly (s : State) : Prop where
  lock : ∀ t, s.lock = some t ↔ (s.pc t).locked = true
  wakes : s.stopRequested = true → ∀ t, (s.pc t).sleeping = true → ∃ u, (s.pc u).waking = true
  few : ∃ n, ∀ t, n ≤ t → s.pc t = .idle

theorem Orderly.start : Orderly .start where
  lock t := by simp [State.start, Pc.locked]
  wakes h := by simp [State.start] at h
  few := ⟨0, fun _ _ => rfl⟩

/-- A thread that goes to sleep does so with the flag at 0, and one that is to wake the sleepers does so
before it goes anywhere else. -/
structure Allowed (s : State) (t : ℕ) (p : Pc) : Prop where
  sleeping : p.sleeping = true → (s.pc t).sleeping = true ∨ s.stopRequested = false
  waking : (s.pc t).waking = true → p.waking = true

/-- A thread that does neither may go where nobody sleeps. -/
theorem Allowed.quiet (hp : p.sleeping = false) (hpc : (s.pc t).waking = false) : Allowed s t p where
  sleeping h := absurd h (Bool.eq_false_iff.mp hp)
  waking h := absurd h (Bool.eq_false_iff.mp hpc)

/-- A thread goes on; the lock is as the places say. -/
theorem Orderly.goto (hI : Orderly s) (hp : Allowed s t p) {l : Option ℕ}
    (hself : l = some t ↔ p.locked = true) (hother : ∀ u, u ≠ t → (l = some u ↔ s.lock = some u)) :
    Orderly { s.goto t p with lock := l } where
  lock u := by
    show _ ↔ ((s.goto t p).pc u).locked = true
    by_cases hu : u = t
    · subst hu
      rw [goto_self]
      exact hself
    · rw [goto_of_ne hu]
      exact (hother u hu).trans (hI.lock u)
  wakes hflag u := by
    show ((s.goto t p).pc u).sleeping = true → ∃ v, ((s.goto t p).pc v).waking = true
    intro hsleep
    have hflag' : s.stopRequested = true := hflag
    have hbefore : (s.pc u).sleeping = true := by
      by_cases hu : u = t
      · subst hu
        rw [goto_self] at hsleep
        refine (hp.sleeping hsleep).resolve_right fun h => ?_
        rw [hflag'] at h
        cases h
      · rwa [goto_of_ne hu] at hsleep
    obtain ⟨v, hv⟩ := hI.wakes hflag' u hbefore
    refine ⟨v, ?_⟩
    by_cases hvt : v = t
    · subst hvt
      rw [goto_self]
      exact hp.waking hv
    · rwa [goto_of_ne hvt]
  few := by
    obtain ⟨n, hn⟩ := hI.few
    refine ⟨max n (t + 1), fun u hu => ?_⟩
    show (s.goto t p).pc u = _
    have hut : u ≠ t := by omega
    rw [goto_of_ne hut]
    exact hn u (le_trans (le_max_left _ _) hu)

/-- The lock is not touched. -/
theorem Orderly.goto_same (hI : Orderly s) (hp : Allowed s t p) (hl : p.locked = (s.pc t).locked) :
    Orderly (s.goto t p) :=
  hI.goto hp (by rw [hI.lock t, hl]) fun _ _ => Iff.rfl

theorem Orderly.acquire (hI : Orderly s) (h : s.acquire t p = some s') (hp : Allowed s t p)
    (hl : p.locked = true) : Orderly s' := by
  unfold State.acquire at h
  split at h
  · rename_i hfree
    cases h
    refine hI.goto hp (by simp [hl]) fun u hu => ?_
    rw [hfree]
    simp [Ne.symm hu]
  · cases h

theorem Orderly.unlock (hI : Orderly s) (hp : Allowed s t p) (hl : p.locked = false)
    (hpc : (s.pc t).locked = true) : Orderly { s.goto t p with lock := none } := by
  refine hI.goto hp (by simp [hl]) fun u hu => ?_
  rw [(hI.lock t).mpr hpc]
  simp [Ne.symm hu]

/-- Nothing but the places and the lock matters when the flag is as it was. -/
theorem Orderly.congr (hI : Orderly s) (hpc : s'.pc = s.pc) (hlock : s'.lock = s.lock)
    (hflag : s'.stopRequested = true → s.stopRequested = true) : Orderly s' where
  lock t := by rw [hlock, hpc]; exact hI.lock t
  wakes h := by rw [hpc]; exact hI.wakes (hflag h)
  few := by rw [hpc]; exact hI.few

/-- A thread that makes a `stop` sets the flag, and is then to wake the sleepers. -/
theorem Orderly.exchange (hI : Orderly s) (hpc : s.pc t = .stopExchange) :
    Orderly { s.goto t .stopAcquire with stopRequested := true, stopSet := true } := by
  have hgo : Orderly (s.goto t .stopAcquire) :=
    hI.goto_same ⟨nofun, fun _ => rfl⟩ (congrArg Pc.locked hpc).symm
  exact { hgo with wakes := fun _ _ _ => ⟨t, congrArg Pc.waking goto_self⟩ }

/-- When the sleepers are woken nobody is asleep, and nobody is about to sleep: that takes the lock. -/
theorem Orderly.wake (hI : Orderly s) (hpc : s.pc t = .stopWake) :
    Orderly { s with pc := Function.update (fun u => (s.pc u).wake) t .stopRelease, wokeAll := true } where
  lock u := by
    show _ ↔ (Function.update (fun u => (s.pc u).wake) t Pc.stopRelease u).locked = true
    by_cases hu : u = t
    · subst hu
      rw [Function.update_self]
      exact (hI.lock u).trans (by rw [hpc]; exact Iff.rfl)
    · rw [Function.update_of_ne hu, wake_locked]
      exact hI.lock u
  wakes _ u := by
    show (Function.update (fun u => (s.pc u).wake) t Pc.stopRelease u).sleeping = true → _
    intro hsleep
    by_cases hu : u = t
    · subst hu
      rw [Function.update_self] at hsleep
      cases hsleep
    · rw [Function.update_of_ne hu, wake_sleeping] at hsleep
      · cases hsleep
      · rw [Bool.eq_false_iff]
        intro hlocked
        have hown := (hI.lock u).mpr hlocked
        rw [(hI.lock t).mpr (by rw [hpc]; rfl)] at hown
        exact hu (Option.some.inj hown).symm
  few := by
    obtain ⟨n, hn⟩ := hI.few
    refine ⟨max n (t + 1), fun u hu => ?_⟩
    show Function.update (fun u => (s.pc u).wake) t Pc.stopRelease u = _
    rw [Function.update_of_ne (by omega), hn u (le_trans (le_max_left _ _) hu)]
    rfl

/-- **A step of a thread keeps order.** -/
theorem Orderly.advance (hI : Orderly s) (h : s.advance t = some s') : Orderly s' := by
  unfold State.advance at h
  split at h <;> rename_i hpc
  · cases h
  · cases h
  · exact hI.acquire h (.quiet rfl (congrArg Pc.waking hpc)) rfl
  · exact hI.acquire h (.quiet rfl (congrArg Pc.waking hpc)) rfl
  · cases h
    by_cases hf : s.stopRequested = true
    · rw [if_pos hf]
      exact hI.goto_same (.quiet rfl (congrArg Pc.waking hpc)) (congrArg Pc.locked hpc).symm
    · rw [if_neg hf]
      exact hI.goto_same ⟨fun _ => .inr (Bool.eq_false_iff.mpr hf), by rw [hpc]; exact nofun⟩
        (congrArg Pc.locked hpc).symm
  · cases h
    exact hI.unlock ⟨fun _ => .inl (by rw [hpc]; rfl), by rw [hpc]; exact nofun⟩ rfl
      (congrArg Pc.locked hpc)
  · cases h
    have hgo := hI.unlock (t := t) (p := .idle) (.quiet rfl (congrArg Pc.waking hpc)) rfl
      (congrArg Pc.locked hpc)
    exact hgo.congr rfl rfl id
  · cases h
    exact hI.exchange hpc
  · exact hI.acquire h ⟨nofun, fun _ => rfl⟩ rfl
  · cases h
    exact hI.wake hpc
  · cases h
    have hgo := hI.unlock (t := t) (p := .idle) (.quiet rfl (congrArg Pc.waking hpc)) rfl
      (congrArg Pc.locked hpc)
    exact hgo.congr rfl rfl id

/-- So does a sleeper that wakes up for no reason. -/
theorem Orderly.spurious (hI : Orderly s) (h : s.step (.spurious t) = some s') : Orderly s' := by
  simp only [State.step] at h
  split_ifs at h with hpc
  cases h
  exact hI.goto_same (.quiet rfl (congrArg Pc.waking hpc)) (congrArg Pc.locked hpc).symm

/-- **So does every step.** -/
theorem Orderly.step (hI : Orderly s) {a : Act} (h : s.step a = some s') : Orderly s' := by
  cases a with
  | callRun t =>
    simp only [State.step] at h
    split_ifs at h with hpc
    cases h
    exact hI.goto_same (.quiet rfl (congrArg Pc.waking hpc)) (congrArg Pc.locked hpc).symm
  | callStop t =>
    simp only [State.step] at h
    split_ifs at h with hpc
    cases h
    exact hI.goto_same (.quiet rfl (congrArg Pc.waking hpc)) (congrArg Pc.locked hpc).symm
  | advance t => exact hI.advance h
  | spurious t => exact hI.spurious h
  | clear =>
    simp only [State.step] at h
    split_ifs at h
    cases h
    exact hI.congr rfl rfl fun h => absurd h Bool.false_ne_true

/-- What holds in every state that is reached. -/
theorem Orderly.of_reach (h : AnyReach s) : Orderly s := by
  induction h with
  | refl => exact .start
  | tail _ hstep ih =>
    obtain ⟨a, ha⟩ | rfl := hstep
    · exact ih.step ha
    · exact ih.congr rfl rfl fun h => absurd h Bool.false_ne_true

/-! ### How far a thread has to go -/

/-- The steps that a thread has before it, at most, when the flag is set. -/
def Pc.rank : Pc → ℕ
  | .idle => 0
  | .runRelease | .stopRelease => 1
  | .runCompare | .stopWake => 2
  | .runAcquire | .woken | .stopAcquire => 3
  | .asleep | .stopExchange => 4
  | .runSleep => 5

/-- The steps that the first `n` threads have before them. -/
def State.rank (n : ℕ) (s : State) : ℕ := ∑ t ∈ Finset.range n, (s.pc t).rank

/-- A thread makes a step, or wakes up for no reason. -/
def State.Moves (s s' : State) : Prop := ∃ t, s.advance t = some s' ∨ s.step (.spurious t) = some s'

/-- A thread makes a step. -/
def State.Advances (s s' : State) : Prop := ∃ t, s.advance t = some s'

theorem wake_rank (p : Pc) : p.wake.rank ≤ p.rank := by cases p <;> decide

/-- What a move does to the ranks. -/
structure Nearer (s s' : State) (t : ℕ) : Prop where
  self : (s'.pc t).rank < (s.pc t).rank
  other : ∀ u, (s'.pc u).rank ≤ (s.pc u).rank

theorem Nearer.goto (h : p.rank < (s.pc t).rank) (hpc : s'.pc = (s.goto t p).pc) : Nearer s s' t where
  self := by rwa [hpc, goto_self]
  other u := by
    rw [hpc]
    by_cases hu : u = t
    · subst hu
      rw [goto_self]
      exact h.le
    · rw [goto_of_ne hu]

theorem Nearer.acquire (h : p.rank < (s.pc t).rank) (ha : s.acquire t p = some s') : Nearer s s' t := by
  unfold State.acquire at ha
  split at ha
  · cases ha
    exact .goto h rfl
  · cases ha

/-- A step brings a thread nearer to its end, and no other thread further from it. -/
theorem nearer_advance (hflag : s.stopRequested = true) (h : s.advance t = some s') : Nearer s s' t := by
  unfold State.advance at h
  split at h <;> rename_i hpc
  · cases h
  · cases h
  · exact .acquire (by rw [hpc]; decide) h
  · exact .acquire (by rw [hpc]; decide) h
  · cases h
    rw [if_pos hflag]
    exact .goto (by rw [hpc]; decide) rfl
  · cases h
    exact .goto (by rw [hpc]; decide) rfl
  · cases h
    exact .goto (by rw [hpc]; decide) rfl
  · cases h
    exact .goto (by rw [hpc]; decide) rfl
  · exact .acquire (by rw [hpc]; decide) h
  · cases h
    refine ⟨?_, fun u => ?_⟩
    · show (Function.update (fun u => (s.pc u).wake) t Pc.stopRelease t).rank < _
      rw [Function.update_self, hpc]
      decide
    · show (Function.update (fun u => (s.pc u).wake) t Pc.stopRelease u).rank ≤ _
      by_cases hu : u = t
      · subst hu
        rw [Function.update_self, hpc]
        decide
      · rw [Function.update_of_ne hu]
        exact wake_rank _
  · cases h
    exact .goto (by rw [hpc]; decide) rfl

theorem nearer_spurious (h : s.step (.spurious t) = some s') : Nearer s s' t := by
  simp only [State.step] at h
  split_ifs at h with hpc
  cases h
  exact .goto (by rw [hpc]; decide) rfl

theorem rank_eq_zero : p.rank = 0 ↔ p = .idle := by cases p <;> decide

theorem Nearer.rank_lt {n : ℕ} (h : Nearer s s' t) (ht : t < n) : s'.rank n < s.rank n :=
  Finset.sum_lt_sum (fun u _ => h.other u) ⟨t, Finset.mem_range.mpr ht, h.self⟩

/-- A thread that was in neither function still is. -/
theorem Nearer.idle {u : ℕ} (h : Nearer s s' t) (hu : s.pc u = .idle) : s'.pc u = .idle := by
  have hle := h.other u
  rw [hu] at hle
  exact rank_eq_zero.mp (Nat.le_zero.mp hle)

theorem acquire_flag (h : s.acquire t p = some s') : s'.stopRequested = s.stopRequested := by
  unfold State.acquire at h
  split at h
  · cases h
    rfl
  · cases h

/-- No thread takes the flag back. -/
theorem advance_flag (hflag : s.stopRequested = true) (h : s.advance t = some s') :
    s'.stopRequested = true := by
  unfold State.advance at h
  split at h <;> first | exact (acquire_flag h).trans hflag | (cases h <;> first | exact hflag | rfl)

/-! ### Where no step is due -/

theorem acquire_of_free (h : s.lock = none) : s.acquire t p = some { s.goto t p with lock := some t } := by
  rw [State.acquire, h]

/-- A thread that has the lock is not held up. -/
theorem exists_advance_of_locked (h : (s.pc t).locked = true) : ∃ s', s.advance t = some s' := by
  unfold State.advance
  cases hpc : s.pc t <;> rw [hpc] at h <;> first | exact ⟨_, rfl⟩ | cases h

/-- A thread that is in one of the functions, and not asleep, is held up by nothing but the lock. -/
theorem exists_advance_of_free (hlock : s.lock = none) (hidle : s.pc t ≠ .idle)
    (hasleep : s.pc t ≠ .asleep) : ∃ s', s.advance t = some s' := by
  unfold State.advance
  cases hpc : s.pc t with
  | idle => exact absurd hpc hidle
  | asleep => exact absurd hpc hasleep
  | runAcquire => exact ⟨_, acquire_of_free hlock⟩
  | woken => exact ⟨_, acquire_of_free hlock⟩
  | stopAcquire => exact ⟨_, acquire_of_free hlock⟩
  | _ => exact ⟨_, rfl⟩

/-- **When no thread can make a step, all have returned.** -/
theorem Orderly.all_idle (hI : Orderly s) (hflag : s.stopRequested = true)
    (hstuck : ∀ s', ¬ s.Advances s') (t : ℕ) : s.pc t = .idle := by
  have hlock : s.lock = none := by
    cases hl : s.lock with
    | none => rfl
    | some u =>
      obtain ⟨s', h⟩ := exists_advance_of_locked ((hI.lock u).mp hl)
      exact absurd ⟨u, h⟩ (hstuck s')
  have hrest : ∀ u, s.pc u = .idle ∨ s.pc u = .asleep := by
    intro u
    by_contra hu
    obtain ⟨hidle, hasleep⟩ := not_or.mp hu
    obtain ⟨s', h⟩ := exists_advance_of_free hlock hidle hasleep
    exact hstuck s' ⟨u, h⟩
  rcases hrest t with ht | ht
  · exact ht
  · -- a sleeper has a `stop` ahead of it, and that is neither idle nor asleep
    obtain ⟨u, hu⟩ := hI.wakes hflag t (by rw [ht]; rfl)
    rcases hrest u with h | h <;> rw [h] at hu <;> cases hu

end RunStop

/-- **No stop is lost but to an `initialize`**: in every state reached, with an `initialize` at any time, if
the flag is set and a thread is asleep in `run`, or has read the flag as 0 and is about to sleep, then some
`stop` that has set the flag is still to wake the sleepers. -/
theorem sleeper_wakes {s : RunStop.State} (h : RunStop.AnyReach s) (hflag : s.stopRequested = true) {t : ℕ}
    (ht : (s.pc t).sleeping = true) : ∃ u, (s.pc u).waking = true :=
  (RunStop.Orderly.of_reach h).wakes hflag t ht

/-- A thread sleeps in `run`, and another has set the flag. -/
def RunStop.stopAhead : List RunStop.Act :=
  .callRun 0 :: List.replicate 3 (.advance 0) ++ [.callStop 1, .advance 1]

theorem RunStop.Reach.any {s : RunStop.State} (h : RunStop.Reach s) : RunStop.AnyReach s := by
  induction h with
  | refl => exact .refl
  | tail _ hstep ih => exact ih.tail (.inl hstep)

theorem sleeper_wakes_asleep : ∃ s, RunStop.AnyReach s ∧ s.pc 0 = .asleep ∧
    ∃ u, (s.pc u).waking = true := by
  have hs : ∃ s, RunStop.State.start.steps RunStop.stopAhead = some s ∧ s.stopRequested = true ∧
      s.pc 0 = .asleep := ⟨_, rfl, rfl, rfl⟩
  obtain ⟨s, hsteps, hflag, hpc⟩ := hs
  have hreach := RunStop.Reach.any (RunStop.reach_of_steps .refl hsteps)
  exact ⟨s, hreach, hpc, sleeper_wakes hreach hflag (t := 0) (by rw [hpc]; rfl)⟩

/-- The flag is taken back before the sleeper is woken: the `stop` returns, and the thread sleeps again. -/
example : (((RunStop.State.start.steps RunStop.stopAhead).map RunStop.State.clear).bind fun s =>
    s.steps (List.replicate 3 (.advance 1) ++ List.replicate 3 (.advance 0))).any
      (fun s => s.stopReturned && decide (s.pc 0 = .asleep)) = true := by decide

/-- **Every `run` returns once the flag is set**: from every state reached with the flag set, whatever
threads are in `run` and in `stop`, they make finitely many steps in any order, and where none of them can make
another all have returned. -/
theorem run_returns {s : RunStop.State} (h : RunStop.AnyReach s) (hflag : s.stopRequested = true) :
    Inevitable RunStop.State.Moves RunStop.State.Advances (fun s' => ∀ t, s'.pc t = .idle) s := by
  have hI := RunStop.Orderly.of_reach h
  obtain ⟨n, hn⟩ := hI.few
  refine Inevitable.of_measure (I := fun s => RunStop.Orderly s ∧ s.stopRequested = true ∧
    ∀ t, n ≤ t → s.pc t = .idle) (RunStop.State.rank n) ?_ ?_ ⟨hI, hflag, hn⟩
  · rintro s s' ⟨hI, hflag, hn⟩ ⟨t, hmove⟩
    have hnear : RunStop.Nearer s s' t :=
      hmove.elim (RunStop.nearer_advance hflag) RunStop.nearer_spurious
    have hlt : t < n := by
      by_contra hge
      have hself := hnear.self
      rw [hn t (Nat.le_of_not_lt hge)] at hself
      cases hself
    refine ⟨⟨hmove.elim hI.advance hI.spurious, ?_, fun u hu => hnear.idle (hn u hu)⟩, hnear.rank_lt hlt⟩
    rcases hmove with h | h
    · exact RunStop.advance_flag hflag h
    · simp only [RunStop.State.step] at h
      split_ifs at h
      cases h
      exact hflag
  · rintro s ⟨hI, hflag, -⟩ hstuck
    exact hI.all_idle hflag hstuck

/-- So does the `run` that is asleep when the flag is set. -/
theorem run_returns_asleep : ∃ s, RunStop.AnyReach s ∧ s.pc 0 = .asleep ∧
    ∃ s', Relation.ReflTransGen RunStop.State.Moves s s' ∧ ∀ t, s'.pc t = .idle := by
  have hs : ∃ s, RunStop.State.start.steps RunStop.stopAhead = some s ∧ s.stopRequested = true ∧
      s.pc 0 = .asleep := ⟨_, rfl, rfl, rfl⟩
  obtain ⟨s, hsteps, hflag, hpc⟩ := hs
  have hreach := RunStop.Reach.any (RunStop.reach_of_steps .refl hsteps)
  refine ⟨s, hreach, hpc, (run_returns hreach hflag).exists_run ?_⟩
  rintro s s' ⟨t, h⟩
  exact ⟨t, .inl h⟩

end FirelinkNet
