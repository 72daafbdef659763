import FirelinkNet.Lib.Prog
import Mathlib.Data.List.Basic

/-!
# Threads

Any number of programs run as threads of one machine and share its state; the
scheduler and the environment are free. A step is a call of one thread, or an
action of the environment, which may start a thread. A `Guard` restricts the
steps of a run to those that satisfy a condition in the state they start from;
`Guard.free` restricts nothing.

## What is proved

* `Proof.sound` — **local knowledge is sound**: when an invariant `I` of the state
  and of what each thread knows is kept by every call that has what it needs, and by
  every action of the environment, then it holds in every state reached, and what is
  left of each thread still has what it needs. A program is verified once, by `wp`,
  and a call once, by `Proof.run`, whatever the number of threads.
* `Proof.and` — more can be kept along with what is kept already.
* `Reach.restrict` — what is known of every step of a run can be asked of its steps, so
  that one proof can build on what another has shown.
* `reach_of_fire` — the states computed by the executable scheduler `fire` are reached.
-/

namespace FirelinkNet.Lib

open Relation

variable {Op : Type} {Res : Op → Type} {W A E L : Type}

/-- A machine: a host, and what the environment can do of itself. An action of the
environment may start a thread, whose number is given. -/
structure Machine (Op : Type) (Res : Op → Type) (W A E : Type) extends Host Op Res W A where
  /-- The state after an action, and the thread it starts. -/
  env : W → ℕ → E → Option (W × Option (Prog Op Res Unit))

/-- A condition on the steps of a run. -/
structure Guard (Op W A E : Type) where
  /-- On a call of thread `t`, answered by `a`. -/
  run : W → ℕ → Op → A → Prop
  /-- On an action of the environment. -/
  env : W → E → Prop

/-- No condition. -/
def Guard.free : Guard Op W A E := ⟨fun _ _ _ _ => True, fun _ _ => True⟩

/-- A condition that can be computed. -/
def Guard.ofBool (run : W → ℕ → Op → A → Bool) (env : W → E → Bool) : Guard Op W A E :=
  ⟨fun w t o a => run w t o a = true, fun w e => env w e = true⟩

/-- `g` asks for no more than `g'` does. -/
def Guard.Le (g g' : Guard Op W A E) : Prop :=
  (∀ w t o a, g'.run w t o a → g.run w t o a) ∧ ∀ w e, g'.env w e → g.env w e

theorem Guard.free_le (g : Guard Op W A E) : Guard.free.Le g :=
  ⟨fun _ _ _ _ _ => trivial, fun _ _ _ => trivial⟩

/-- The state of a machine: the shared state, and what is left of each thread. -/
structure Sys (Op : Type) (Res : Op → Type) (W : Type) where
  /-- The shared state. -/
  w : W
  /-- The threads. -/
  threads : List (Prog Op Res Unit)

namespace Machine

variable (m : Machine Op Res W A E)

/-- **A step**: a thread makes its next call, or the environment acts. -/
inductive Step (g : Guard Op W A E) : Sys Op Res W → Sys Op Res W → Prop
  /-- Thread `t` makes the call `o`, and is answered. -/
  | run {s : Sys Op Res W} {t : ℕ} {o : Op} {k : Res o → Prog Op Res Unit} {a : A} :
      s.threads[t]? = some (.call o k) → g.run s.w t o a → m.ready s.w t o a = true →
        Step g s ⟨(m.reply s.w t o a).2, s.threads.set t (k (m.reply s.w t o a).1)⟩
  /-- The environment acts. -/
  | env {s : Sys Op Res W} {e : E} {w' : W} {p : Option (Prog Op Res Unit)} :
      g.env s.w e → m.env s.w s.threads.length e = some (w', p) →
        Step g s ⟨w', s.threads ++ p.toList⟩

/-- The states reached by steps that satisfy the guard. -/
def Reach (g : Guard Op W A E) : Sys Op Res W → Sys Op Res W → Prop := ReflTransGen (m.Step g)

theorem Reach.mono {m : Machine Op Res W A E} {g g' : Guard Op W A E} (hg : g.Le g')
    {s s' : Sys Op Res W} (h : m.Reach g' s s') : m.Reach g s s' := by
  induction h with
  | refl => exact .refl
  | tail _ hs ih =>
    refine ih.tail ?_
    cases hs with
    | run ht hr hd => exact .run ht (hg.1 _ _ _ _ hr) hd
    | env he hw => exact .env (hg.2 _ _ he) hw

/-- **What is known of every step can be asked of every step.** -/
theorem Reach.restrict {m : Machine Op Res W A E} {g g' : Guard Op W A E} {s₀ s : Sys Op Res W}
    (hrun : ∀ {s t o k a}, m.Reach g s₀ s → s.threads[t]? = some (.call o k) → g.run s.w t o a →
      g'.run s.w t o a)
    (henv : ∀ {s e}, m.Reach g s₀ s → g.env s.w e → g'.env s.w e) (h : m.Reach g s₀ s) :
    m.Reach g' s₀ s := by
  induction h with
  | refl => exact .refl
  | tail hr hs ih =>
    refine ih.tail ?_
    cases hs with
    | run ht hg hd => exact .run ht (hrun hr ht hg) hd
    | env he hw => exact .env (henv hr he) hw

/-- What every call and every action of the environment keeps of the shared state, a run keeps. -/
theorem Reach.world {m : Machine Op Res W A E} {g : Guard Op W A E} {I : W → Prop}
    (hrun : ∀ {w t o a}, I w → I (m.reply w t o a).2)
    (henv : ∀ {w n e w' p}, I w → m.env w n e = some (w', p) → I w') {s s' : Sys Op Res W}
    (h : m.Reach g s s') (hs : I s.w) : I s'.w := by
  induction h with
  | refl => exact hs
  | tail _ hstep ih =>
    cases hstep with
    | run _ _ _ => exact hrun ih
    | env _ he => exact henv ih he

/-! ### An executable scheduler -/

/-- A choice of the scheduler. -/
inductive Act (A E : Type) where
  /-- Let thread `t` make its next call, answered by `a`. -/
  | run (t : ℕ) (a : A)
  /-- Let the environment act. -/
  | env (e : E)

/-- One step as the scheduler chooses, if it is possible. -/
def fire (s : Sys Op Res W) : Act A E → Option (Sys Op Res W)
  | .run t a =>
    match s.threads[t]? with
    | some (.call o k) =>
      if m.ready s.w t o a then
        some ⟨(m.reply s.w t o a).2, s.threads.set t (k (m.reply s.w t o a).1)⟩
      else none
    | _ => none
  | .env e => (m.env s.w s.threads.length e).map fun r => ⟨r.1, s.threads ++ r.2.toList⟩

/-- The steps of a schedule, one after another, as long as each passes the check `c`. -/
def fireAll (c : Sys Op Res W → Act A E → Bool) (s : Sys Op Res W) :
    List (Act A E) → Option (Sys Op Res W)
  | [] => some s
  | x :: xs => if c s x then (m.fire s x).bind fun s' => fireAll c s' xs else none

/-- The guard allows what the scheduler chooses. -/
def Allows (g : Guard Op W A E) (s : Sys Op Res W) : Act A E → Prop
  | .run t a => ∀ o k, s.threads[t]? = some (.call o k) → g.run s.w t o a
  | .env e => g.env s.w e

theorem step_of_fire {m : Machine Op Res W A E} {g : Guard Op W A E} {s s' : Sys Op Res W}
    {x : Act A E} (hg : Allows g s x) (h : m.fire s x = some s') : m.Step g s s' := by
  cases x with
  | run t a =>
    simp only [fire] at h
    split at h
    · rename_i o k ht
      split_ifs at h with hd
      cases h
      exact .run ht (hg o k ht) hd
    · cases h
  | env e =>
    simp only [fire, Option.map_eq_some_iff] at h
    obtain ⟨⟨w', p⟩, he, rfl⟩ := h
    exact .env hg he

/-- **What the scheduler computes is reached.** -/
theorem reach_of_fire {m : Machine Op Res W A E} {g : Guard Op W A E}
    {c : Sys Op Res W → Act A E → Bool} (hc : ∀ s x, c s x = true → Allows g s x)
    {s s' : Sys Op Res W} {xs : List (Act A E)} (h : m.fireAll c s xs = some s') :
    m.Reach g s s' := by
  induction xs generalizing s with
  | nil => cases h; exact .refl
  | cons x xs ih =>
    simp only [fireAll] at h
    split_ifs at h with hx
    obtain ⟨s₁, h₁, h₂⟩ := Option.bind_eq_some_iff.mp h
    exact .head (step_of_fire (hc s x hx) h₁) (ih h₂)

/-- A state with a computable property, as a schedule finds it. -/
theorem exists_reach_of_fire {m : Machine Op Res W A E} {g : Guard Op W A E}
    {c : Sys Op Res W → Act A E → Bool} (hc : ∀ s x, c s x = true → Allows g s x)
    {s : Sys Op Res W} {l : List (Act A E)} {P : Sys Op Res W → Bool}
    (h : (m.fireAll c s l).any P = true) : ∃ s', m.Reach g s s' ∧ P s' = true := by
  cases hs : m.fireAll c s l with
  | none => simp [hs] at h
  | some s' => exact ⟨s', reach_of_fire hc hs, by simpa [hs] using h⟩

/-- Without a condition there is nothing to check. -/
theorem allows_free (s : Sys Op Res W) (x : Act A E) (_ : true = true) : Allows .free s x := by
  cases x with
  | run t a => exact fun _ _ _ => trivial
  | env e => exact trivial

/-- The check of a condition that can be computed. -/
def checks (run : W → ℕ → Op → A → Bool) (env : W → E → Bool) (s : Sys Op Res W) :
    Act A E → Bool
  | .run t a =>
    match s.threads[t]? with
    | some (.call o _) => run s.w t o a
    | _ => true
  | .env e => env s.w e

theorem allows_checks {run : W → ℕ → Op → A → Bool} {env : W → E → Bool} (s : Sys Op Res W)
    (x : Act A E) (h : checks run env s x = true) : Allows (.ofBool run env) s x := by
  cases x with
  | run t a =>
    intro o k ht
    simp only [checks, ht] at h
    exact h
  | env e => exact h

/-! ### Soundness of local knowledge -/

variable (lg : Logic Op Res L) (g : Guard Op W A E)

/-- A proof that `I` is kept. `idle` is what is known of a thread that has not been
started. -/
structure Proof (idle : L) (I : W → (ℕ → L) → Prop) : Prop where
  /-- A call that has what it needs keeps the invariant, and its reply is as promised. -/
  run : ∀ {w : W} {ls : ℕ → L} {t : ℕ} {o : Op} {a : A}, I w ls → lg.pre (ls t) o →
    g.run w t o a → m.ready w t o a = true →
      lg.given (ls t) o (m.reply w t o a).1 ∧
        I (m.reply w t o a).2 (Function.update ls t (lg.post (ls t) o (m.reply w t o a).1))
  /-- An action of the environment keeps it, and a thread it starts has what it needs. -/
  env : ∀ {w : W} {ls : ℕ → L} {n : ℕ} {e : E} {w' : W} {p : Option (Prog Op Res Unit)}, I w ls →
    (∀ t, n ≤ t → ls t = idle) → g.env w e → m.env w n e = some (w', p) →
      ∃ l, I w' (Function.update ls n l) ∧ (p = none → l = idle) ∧
        ∀ q ∈ p, lg.wp q (fun _ _ => True) l

/-- What `Proof` keeps along a run: the invariant, for some knowledge of the threads that
verifies what is left of them. -/
def Holds (idle : L) (I : W → (ℕ → L) → Prop) (s : Sys Op Res W) : Prop :=
  ∃ ls : ℕ → L, I s.w ls ∧ (∀ t p, s.threads[t]? = some p → lg.wp p (fun _ _ => True) (ls t)) ∧
    ∀ t, s.threads.length ≤ t → ls t = idle

variable {m lg g} {idle : L} {I J : W → (ℕ → L) → Prop}

theorem Holds.step (hI : m.Proof lg g idle I) {s s' : Sys Op Res W} (hs : Holds lg idle I s)
    (h : m.Step g s s') : Holds lg idle I s' := by
  obtain ⟨ls, hw, hwp, hidle⟩ := hs
  cases h with
  | @run t o k a ht hg hd =>
    obtain ⟨hpre, hk⟩ := hwp t _ ht
    obtain ⟨hgiven, hI'⟩ := hI.run hw hpre hg hd
    have hlt : t < s.threads.length := (List.getElem?_eq_some_iff.mp ht).1
    refine ⟨_, hI', fun t' p hp => ?_, fun t' ht' => ?_⟩
    · by_cases htt : t' = t
      · subst htt
        simp only [List.getElem?_set_self hlt, Option.some.injEq] at hp
        subst hp
        simpa using hk _ hgiven
      · rw [List.getElem?_set_ne (Ne.symm htt)] at hp
        rw [Function.update_of_ne htt]
        exact hwp t' p hp
    · simp only [List.length_set] at ht'
      rw [Function.update_of_ne (by omega)]
      exact hidle t' ht'
  | @env e w' p hg he =>
    obtain ⟨l, hI', hnone, hnew⟩ := hI.env hw hidle hg he
    refine ⟨_, hI', fun t' q hq => ?_, fun t' ht' => ?_⟩
    · rcases Nat.lt_or_ge t' s.threads.length with hlt | hge
      · rw [List.getElem?_append_left hlt] at hq
        rw [Function.update_of_ne (by omega)]
        exact hwp t' q hq
      · rw [List.getElem?_append_right hge] at hq
        cases p with
        | none => simp at hq
        | some p' =>
          have h0 : t' = s.threads.length := by
            have := (List.getElem?_eq_some_iff.mp hq).1
            simp at this; omega
          subst h0
          simp only [Nat.sub_self, Option.toList_some, List.getElem?_cons_zero,
            Option.some.injEq] at hq
          subst hq
          simpa using hnew _ rfl
    · simp only [List.length_append] at ht'
      by_cases htt : t' = s.threads.length
      · subst htt
        cases p with
        | none => simpa using hnone rfl
        | some p' => simp only [Option.toList_some, List.length_singleton] at ht'; omega
      · rw [Function.update_of_ne htt]
        exact hidle t' (by omega)

/-- **Local knowledge is sound.** -/
theorem Proof.sound (hI : m.Proof lg g idle I) {s s' : Sys Op Res W} (hs : Holds lg idle I s)
    (h : m.Reach g s s') : Holds lg idle I s' := by
  induction h with
  | refl => exact hs
  | tail _ hstep ih => exact ih.step hI hstep

/-- What is kept from a state without threads. -/
theorem Proof.holds (hI : m.Proof lg g idle I) {w : W} (h₀ : I w fun _ => idle)
    {s : Sys Op Res W} (h : m.Reach g ⟨w, []⟩ s) : Holds lg idle I s :=
  hI.sound ⟨fun _ => idle, h₀, by simp, fun _ _ => rfl⟩ h

theorem Proof.invariant (hI : m.Proof lg g idle I) {w : W} (h₀ : I w fun _ => idle)
    {s : Sys Op Res W} (h : m.Reach g ⟨w, []⟩ s) : ∃ ls, I s.w ls := by
  obtain ⟨ls, hw, -⟩ := hI.holds h₀ h
  exact ⟨ls, hw⟩

/-- The next call of a thread has what it needs. -/
theorem Holds.pre {s : Sys Op Res W} {t : ℕ} {o : Op} {k : Res o → Prog Op Res Unit}
    (hs : Holds lg idle I s) (ht : s.threads[t]? = some (.call o k)) :
    ∃ ls, I s.w ls ∧ lg.pre (ls t) o := by
  obtain ⟨ls, hw, hwp, -⟩ := hs
  exact ⟨ls, hw, (hwp t _ ht).1⟩

/-- A condition that allows fewer steps keeps what more steps keep. -/
theorem Proof.guard {g' : Guard Op W A E} (hI : m.Proof lg g idle I) (hg : g.Le g') :
    m.Proof lg g' idle I where
  run hw hpre hr hd := hI.run hw hpre (hg.1 _ _ _ _ hr) hd
  env hw hn he h := hI.env hw hn (hg.2 _ _ he) h

/-- **Keeping more**: `J` is kept along with `I` when each step that keeps `I` keeps it. -/
theorem Proof.and (hI : m.Proof lg g idle I)
    (hrun : ∀ {w : W} {ls : ℕ → L} {t : ℕ} {o : Op} {a : A}, I w ls → J w ls → lg.pre (ls t) o →
      g.run w t o a → m.ready w t o a = true → lg.given (ls t) o (m.reply w t o a).1 →
        J (m.reply w t o a).2 (Function.update ls t (lg.post (ls t) o (m.reply w t o a).1)))
    (henv : ∀ {w : W} {ls : ℕ → L} {n : ℕ} {e : E} {w' : W} {p : Option (Prog Op Res Unit)} {l : L},
      I w ls → J w ls → (∀ t, n ≤ t → ls t = idle) → g.env w e → m.env w n e = some (w', p) →
        I w' (Function.update ls n l) → (p = none → l = idle) → J w' (Function.update ls n l)) :
    m.Proof lg g idle fun w ls => I w ls ∧ J w ls where
  run := by
    rintro w ls t o a ⟨hw, hj⟩ hpre hr hd
    obtain ⟨hgiven, hI'⟩ := hI.run hw hpre hr hd
    exact ⟨hgiven, hI', hrun hw hj hpre hr hd hgiven⟩
  env := by
    rintro w ls n e w' p ⟨hw, hj⟩ hn he h
    obtain ⟨l, hI', hnone, hnew⟩ := hI.env hw hn he h
    exact ⟨l, ⟨hI', henv hw hj hn he h hI' hnone⟩, hnone, hnew⟩

end Machine

end FirelinkNet.Lib
