import Mathlib.Data.Nat.Notation
import Mathlib.Logic.Function.Basic
import Mathlib.Logic.Relation
import Mathlib.Tactic.SplitIfs

/-!
# `run` and `stop`

`WinIOCore::run` sleeps on a condition variable until `stop_requested_` is set, and
`WinIOCore::stop` sets it and then wakes the sleepers under the lock that they sleep
with. The flag is set before the lock is taken.

## The model

Any number of threads call `run` and `stop`, any number of times. A thread stands
before its next atomic step (`Pc`): taking or giving back `srw_run_`, reading or
exchanging `stop_requested_`, going to sleep on `cv_run_` (which gives the lock back in
the same step), waking all sleepers. A sleeper may also wake up for no reason. A thread
that wakes up takes the lock again before `SleepConditionVariableSRW` returns.
`initialize` sets the flag to 0; it does so only before a `stop` has set it to 1.

## What is proved

* `run_waits_for_stop` — **`run` does not return early, and no stop is lost**: it has
  returned only when some `stop` has set the flag, and once a `stop` has returned no
  thread is asleep in `run`, or about to sleep.
-/

namespace FirelinkNet

namespace RunStop

/-- Where a thread stands. -/
inductive Pc where
  /-- In neither function. -/
  | idle
  /-- In `run`, before `AcquireSRWLockExclusive`. -/
  | runAcquire
  /-- Before `InterlockedCompareExchange`. -/
  | runCompare
  /-- It has read 0 and is about to sleep. -/
  | runSleep
  /-- Asleep in `SleepConditionVariableSRW`. -/
  | asleep
  /-- Woken up, and about to take the lock again. -/
  | woken
  /-- It has read 1: before `ReleaseSRWLockExclusive`. -/
  | runRelease
  /-- In `stop`, before `InterlockedExchange`. -/
  | stopExchange
  /-- Before `AcquireSRWLockExclusive`. -/
  | stopAcquire
  /-- Before `WakeAllConditionVariable`. -/
  | stopWake
  /-- Before `ReleaseSRWLockExclusive`. -/
  | stopRelease
  deriving DecidableEq, Repr

/-- A thread that stands here has the lock. -/
def Pc.locked : Pc → Bool
  | .runCompare | .runSleep | .runRelease | .stopWake | .stopRelease => true
  | _ => false

/-- A thread that stands here sleeps, or goes to sleep whatever happens. -/
def Pc.sleeping : Pc → Bool
  | .runSleep | .asleep => true
  | _ => false

/-- A thread that stands here has set the flag. -/
def Pc.stopping : Pc → Bool
  | .stopAcquire | .stopWake | .stopRelease => true
  | _ => false

/-- The state: `stop_requested_`, the owner of `srw_run_`, and where each thread stands; and what
has happened so far. -/
structure State where
  /-- `stop_requested_`. -/
  stopRequested : Bool
  /-- The thread that has `srw_run_`. -/
  lock : Option ℕ
  pc : ℕ → Pc
  /-- Some `stop` has set the flag. -/
  stopSet : Bool
  /-- Some `stop` has woken the sleepers. -/
  wokeAll : Bool
  /-- Some `run` has returned. -/
  runReturned : Bool
  /-- Some `stop` has returned. -/
  stopReturned : Bool

/-- Before the first call. -/
def State.start : State := ⟨false, none, fun _ => .idle, false, false, false, false⟩

/-- Thread `t` goes on to `p`. -/
def State.goto (s : State) (t : ℕ) (p : Pc) : State := { s with pc := Function.update s.pc t p }

/-- Thread `t` takes the lock, if it is free, and goes on to `p`. -/
def State.acquire (s : State) (t : ℕ) (p : Pc) : Option State :=
  match s.lock with
  | none => some { s.goto t p with lock := some t }
  | some _ => none

/-- `WakeAllConditionVariable`. -/
def Pc.wake : Pc → Pc
  | .asleep => .woken
  | p => p

/-- What happens next. -/
inductive Act where
  /-- Thread `t` calls `run`. -/
  | callRun (t : ℕ)
  /-- Thread `t` calls `stop`. -/
  | callStop (t : ℕ)
  /-- Thread `t` makes its next step. -/
  | advance (t : ℕ)
  /-- Thread `t` wakes up for no reason. -/
  | spurious (t : ℕ)
  /-- `initialize` sets the flag to 0. -/
  | clear

/-- A thread makes its next step. -/
def State.advance (s : State) (t : ℕ) : Option State :=
  match s.pc t with
  | .idle | .asleep => none
  | .runAcquire | .woken => s.acquire t .runCompare
  | .runCompare => some (s.goto t (if s.stopRequested then .runRelease else .runSleep))
  | .runSleep => some { s.goto t .asleep with lock := none }
  | .runRelease => some { s.goto t .idle with lock := none, runReturned := true }
  | .stopExchange => some { s.goto t .stopAcquire with stopRequested := true, stopSet := true }
  | .stopAcquire => s.acquire t .stopWake
  | .stopWake =>
    some { s with pc := Function.update (fun u => (s.pc u).wake) t .stopRelease, wokeAll := true }
  | .stopRelease => some { s.goto t .idle with lock := none, stopReturned := true }

/-- One step, if it is possible. -/
def State.step (s : State) : Act → Option State
  | .callRun t => if s.pc t = .idle then some (s.goto t .runAcquire) else none
  | .callStop t => if s.pc t = .idle then some (s.goto t .stopExchange) else none
  | .advance t => s.advance t
  | .spurious t => if s.pc t = .asleep then some (s.goto t .woken) else none
  | .clear => if s.stopSet then none else some { s with stopRequested := false }

/-- The states that are reached, in any order of the steps. -/
def Reach : State → Prop := Relation.ReflTransGen (fun s s' => ∃ a, s.step a = some s') .start

/-! ### The invariant -/

/-- What is kept. -/
structure Inv (s : State) : Prop where
  lock : ∀ t, s.lock = some t ↔ (s.pc t).locked = true
  flag : s.stopRequested = s.stopSet
  stopping : ∀ t, (s.pc t).stopping = true → s.stopSet = true
  released : ∀ t, s.pc t = .runRelease → s.stopSet = true
  wokeAll : s.wokeAll = true → s.stopSet = true ∧ ∀ t, (s.pc t).sleeping = false
  stopRelease : ∀ t, s.pc t = .stopRelease → s.wokeAll = true
  runReturned : s.runReturned = true → s.stopSet = true
  stopReturned : s.stopReturned = true → s.wokeAll = true

theorem Inv.start : Inv .start where
  lock t := by simp [State.start, Pc.locked]
  flag := rfl
  stopping t h := by simp [State.start, Pc.stopping] at h
  released t h := by simp [State.start] at h
  wokeAll h := by simp [State.start] at h
  stopRelease t h := by simp [State.start] at h
  runReturned h := by simp [State.start] at h
  stopReturned h := by simp [State.start] at h

variable {s s' : State} {t : ℕ} {p : Pc}

@[simp] theorem goto_self : (s.goto t p).pc t = p := by simp [State.goto]

theorem goto_of_ne {u : ℕ} (h : u ≠ t) : (s.goto t p).pc u = s.pc u := by simp [State.goto, h]

/-- What a thread must bring along to stand at `p`. -/
structure Entitled (s : State) (p : Pc) : Prop where
  stopping : p.stopping = true → s.stopSet = true
  released : p = .runRelease → s.stopSet = true
  sleeping : p.sleeping = true → s.wokeAll = false
  stopRelease : p = .stopRelease → s.wokeAll = true

/-- A thread goes on to a place that it may stand at; the lock is as the places say. -/
theorem Inv.goto (hI : Inv s) (hp : Entitled s p) {l : Option ℕ}
    (hself : l = some t ↔ p.locked = true) (hother : ∀ u, u ≠ t → (l = some u ↔ s.lock = some u)) :
    Inv { s.goto t p with lock := l } where
  lock u := by
    by_cases hu : u = t
    · subst hu
      show _ ↔ ((s.goto u p).pc u).locked = true
      rw [goto_self]
      exact hself
    · show _ ↔ ((s.goto t p).pc u).locked = true
      rw [goto_of_ne hu]
      exact (hother u hu).trans (hI.lock u)
  flag := hI.flag
  stopping u := by
    show ((s.goto t p).pc u).stopping = true → _
    by_cases hu : u = t
    · subst hu
      rw [goto_self]
      exact hp.stopping
    · rw [goto_of_ne hu]
      exact hI.stopping u
  released u := by
    show (s.goto t p).pc u = _ → _
    by_cases hu : u = t
    · subst hu
      rw [goto_self]
      exact hp.released
    · rw [goto_of_ne hu]
      exact hI.released u
  wokeAll h := by
    refine ⟨(hI.wokeAll h).1, fun u => ?_⟩
    show ((s.goto t p).pc u).sleeping = false
    by_cases hu : u = t
    · subst hu
      rw [goto_self, Bool.eq_false_iff]
      intro hsleep
      have hwoke : s.wokeAll = true := h
      rw [hp.sleeping hsleep] at hwoke
      cases hwoke
    · rw [goto_of_ne hu]
      exact (hI.wokeAll h).2 u
  stopRelease u := by
    show (s.goto t p).pc u = _ → _
    by_cases hu : u = t
    · subst hu
      rw [goto_self]
      exact hp.stopRelease
    · rw [goto_of_ne hu]
      exact hI.stopRelease u
  runReturned := hI.runReturned
  stopReturned := hI.stopReturned

/-- The lock is not touched. -/
theorem Inv.goto_same (hI : Inv s) (hp : Entitled s p) (hl : p.locked = (s.pc t).locked) :
    Inv (s.goto t p) :=
  hI.goto hp (by rw [hI.lock t, hl]) fun _ _ => Iff.rfl

theorem Inv.acquire (hI : Inv s) (h : s.acquire t p = some s') (hp : Entitled s p)
    (hl : p.locked = true) : Inv s' := by
  unfold State.acquire at h
  split at h
  · rename_i hfree
    cases h
    refine hI.goto hp (by simp [hl]) fun u hu => ?_
    rw [hfree]
    simp [Ne.symm hu]
  · cases h

theorem Inv.unlock (hI : Inv s) (hp : Entitled s p) (hl : p.locked = false)
    (hpc : (s.pc t).locked = true) : Inv { s.goto t p with lock := none } := by
  refine hI.goto hp (by simp [hl]) fun u hu => ?_
  rw [(hI.lock t).mpr hpc]
  simp [Ne.symm hu]

/-- `stop` sets the flag. -/
theorem Inv.exchange (hI : Inv s) (hpc : s.pc t = .stopExchange) :
    Inv { s.goto t .stopAcquire with stopRequested := true, stopSet := true } := by
  have hset : Inv { s with stopRequested := true, stopSet := true } :=
    { hI with
      flag := rfl
      stopping := fun _ _ => rfl
      released := fun _ _ => rfl
      wokeAll := fun h => ⟨rfl, (hI.wokeAll h).2⟩
      runReturned := fun _ => rfl }
  exact hset.goto_same ⟨fun _ => rfl, nofun, nofun, nofun⟩ (congrArg Pc.locked hpc).symm

theorem wake_locked : p.wake.locked = p.locked := by cases p <;> rfl

theorem wake_sleeping (h : p.locked = false) : p.wake.sleeping = false := by
  cases p <;> first | rfl | cases h

/-- `stop` wakes the sleepers: it has the lock, so that no thread is about to sleep. -/
theorem Inv.wake (hI : Inv s) (hpc : s.pc t = .stopWake) :
    Inv { s with pc := Function.update (fun u => (s.pc u).wake) t .stopRelease, wokeAll := true } := by
  have hset : s.stopSet = true := hI.stopping t (by rw [hpc]; rfl)
  have hlock : ∀ u, u ≠ t → (s.pc u).locked = false := by
    intro u hu
    rw [Bool.eq_false_iff]
    intro hu'
    have hown := (hI.lock u).mpr hu'
    rw [(hI.lock t).mpr (by rw [hpc]; rfl)] at hown
    exact hu (Option.some.inj hown).symm
  refine ⟨fun u => ?_, hI.flag, fun _ _ => hset, fun _ _ => hset, fun _ => ⟨hset, fun u => ?_⟩,
    fun _ _ => rfl, fun _ => hset, fun _ => rfl⟩
  · by_cases hu : u = t
    · subst hu
      simp [Pc.locked, (hI.lock u).mpr (by rw [hpc]; rfl : (s.pc u).locked = true)]
    · show _ ↔ (Function.update (fun u => (s.pc u).wake) t Pc.stopRelease u).locked = true
      rw [Function.update_of_ne hu, wake_locked]
      exact hI.lock u
  · show (Function.update (fun u => (s.pc u).wake) t Pc.stopRelease u).sleeping = false
    by_cases hu : u = t
    · subst hu
      rw [Function.update_self]
      rfl
    · rw [Function.update_of_ne hu]
      exact wake_sleeping (hlock u hu)

/-- **A step of a thread keeps the invariant.** -/
theorem Inv.advance (hI : Inv s) (h : s.advance t = some s') : Inv s' := by
  unfold State.advance at h
  split at h <;> rename_i hpc
  · cases h
  · cases h
  · exact hI.acquire h ⟨nofun, nofun, nofun, nofun⟩ rfl
  · exact hI.acquire h ⟨nofun, nofun, nofun, nofun⟩ rfl
  · cases h
    by_cases hf : s.stopRequested = true
    · have hset : s.stopSet = true := hI.flag.symm.trans hf
      rw [if_pos hf]
      exact hI.goto_same ⟨nofun, fun _ => hset, nofun, nofun⟩ (congrArg Pc.locked hpc).symm
    · rw [if_neg hf]
      refine hI.goto_same ⟨nofun, nofun, fun _ => ?_, nofun⟩ (congrArg Pc.locked hpc).symm
      rw [Bool.eq_false_iff]
      intro hwoke
      exact hf (hI.flag.trans (hI.wokeAll hwoke).1)
  · cases h
    refine hI.unlock ⟨nofun, nofun, fun _ => ?_, nofun⟩ rfl (congrArg Pc.locked hpc)
    rw [Bool.eq_false_iff]
    intro hwoke
    have hsleep := (hI.wokeAll hwoke).2 t
    rw [hpc] at hsleep
    cases hsleep
  · cases h
    have hI' := hI.unlock (t := t) (p := .idle) ⟨nofun, nofun, nofun, nofun⟩ rfl (congrArg Pc.locked hpc)
    exact { hI' with runReturned := fun _ => hI.released t hpc }
  · cases h
    exact hI.exchange hpc
  · exact hI.acquire h ⟨fun _ => hI.stopping t (by rw [hpc]; rfl), nofun, nofun, nofun⟩ rfl
  · cases h
    exact hI.wake hpc
  · cases h
    have hI' := hI.unlock (t := t) (p := .idle) ⟨nofun, nofun, nofun, nofun⟩ rfl (congrArg Pc.locked hpc)
    exact { hI' with stopReturned := fun _ => hI.stopRelease t hpc }

/-- **So does every step.** -/
theorem Inv.step (hI : Inv s) {a : Act} (h : s.step a = some s') : Inv s' := by
  cases a with
  | callRun t =>
    simp only [State.step] at h
    split_ifs at h with hpc
    cases h
    exact hI.goto_same ⟨nofun, nofun, nofun, nofun⟩ (congrArg Pc.locked hpc).symm
  | callStop t =>
    simp only [State.step] at h
    split_ifs at h with hpc
    cases h
    exact hI.goto_same ⟨nofun, nofun, nofun, nofun⟩ (congrArg Pc.locked hpc).symm
  | advance t => exact hI.advance h
  | spurious t =>
    simp only [State.step] at h
    split_ifs at h with hpc
    cases h
    exact hI.goto_same ⟨nofun, nofun, nofun, nofun⟩ (congrArg Pc.locked hpc).symm
  | clear =>
    simp only [State.step] at h
    split_ifs at h with hset
    cases h
    exact { hI with flag := (Bool.eq_false_iff.mpr hset).symm }

/-- What holds in every state that is reached. -/
theorem Inv.of_reach (h : Reach s) : Inv s := by
  induction h with
  | refl => exact .start
  | tail _ hstep ih =>
    obtain ⟨a, ha⟩ := hstep
    exact ih.step ha

end RunStop

/-- **`run` does not return early, and no stop is lost**: in every state reached, a `run` has
returned only if some `stop` has set the flag; and if some `stop` has returned, no thread is asleep in
`run` and none has read the flag as 0 and is about to sleep. -/
theorem run_waits_for_stop {s : RunStop.State} (h : RunStop.Reach s) :
    (s.runReturned = true → s.stopSet = true) ∧
      (s.stopReturned = true → ∀ t, s.pc t ≠ .asleep ∧ s.pc t ≠ .runSleep) := by
  have hI := RunStop.Inv.of_reach h
  refine ⟨hI.runReturned, fun hret t => ?_⟩
  have hsleep := (hI.wokeAll (hI.stopReturned hret)).2 t
  constructor <;> (intro hpc; rw [hpc] at hsleep; cases hsleep)

/-- The steps of a schedule, one after another. -/
def RunStop.State.steps (s : RunStop.State) : List RunStop.Act → Option RunStop.State
  | [] => some s
  | a :: l => (s.step a).bind fun s' => s'.steps l

theorem RunStop.reach_of_steps {s s' : RunStop.State} (h : RunStop.Reach s)
    {l : List RunStop.Act} (hl : s.steps l = some s') : RunStop.Reach s' := by
  induction l generalizing s with
  | nil => cases hl; exact h
  | cons a l ih =>
    obtain ⟨s₁, h₁, h₂⟩ := Option.bind_eq_some_iff.mp hl
    exact ih (h.tail ⟨a, h₁⟩) h₂

/-- Thread 0 sleeps in `run` when thread 1 calls `stop`; both return. -/
theorem run_waits_for_stop_woken : ∃ s, RunStop.Reach s ∧ s.runReturned = true ∧
    s.stopReturned = true ∧ s.stopSet = true ∧ ∀ t, s.pc t ≠ .asleep ∧ s.pc t ≠ .runSleep := by
  have hs : ∃ s, RunStop.State.start.steps ([.callRun 0, .advance 0, .advance 0, .advance 0,
      .callStop 1] ++ List.replicate 4 (.advance 1) ++ List.replicate 3 (.advance 0)) = some s ∧
        s.runReturned = true ∧ s.stopReturned = true := ⟨_, rfl, rfl, rfl⟩
  obtain ⟨s, hsteps, hrun, hstop⟩ := hs
  have hreach := RunStop.reach_of_steps .refl hsteps
  obtain ⟨h₁, h₂⟩ := run_waits_for_stop hreach
  exact ⟨s, hreach, hrun, hstop, h₁ hrun, h₂ hstop⟩


end FirelinkNet
