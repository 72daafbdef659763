import FirelinkNet.Lib.Threads

/-!
# Sections that are not interrupted

A thread may run a part of its program, a *section*, in which no other thread takes
a step and the environment does nothing. Outside of sections the state is known to
be `Good`; in a section, the thread that runs it knows the state exactly, since
nothing changes it but its own calls.

## What is proved

* `Atomic.good` — **what every section restores holds outside of sections**: when
  each call made outside of a section keeps `Good`, each section leads from a good
  state to a good state, and so does each action of the environment, then in every
  state reached either `Good` holds or some thread is in a section.
* `Outside.sect` — a section is verified by running it alone (`Prog.Always`).
-/

namespace FirelinkNet.Lib

namespace Machine

variable {Op : Type} {Res : Op → Type} {W A E α β : Type}

/-- The host of a thread that runs alone, whose calls pass a check. -/
def checked (m : Machine Op Res W A E) (run : W → ℕ → Op → A → Bool) : Host Op Res W A :=
  ⟨fun w t o a => run w t o a && m.ready w t o a, m.reply⟩

section Sections

variable (m : Machine Op Res W A E) (run : W → ℕ → Op → A → Bool) (Good : W → Prop)
  (In : W → ℕ → Prop)

/-- What thread `t` knows of the state: that it is good, or, in a section, which it is. -/
def Known (Good : W → Prop) : Option W → W → Prop
  | none, w => Good w
  | some w', w => w = w'

/-- From what it knows, whatever thread `t` does outside of its sections keeps the state good, and so
does each of its sections, and it ends in `Q`. -/
def Keeping (t : ℕ) : Prog Op Res α → (α → Option W → Prop) → Option W → Prop
  | .ret a, Q, l => Q a l
  | .call o k, Q, l => ∀ w a, Known Good l w → run w t o a = true → m.ready w t o a = true →
      (Good (m.reply w t o a).2 ∧ Keeping t (k (m.reply w t o a).1) Q none) ∨
      (In (m.reply w t o a).2 t ∧
        Keeping t (k (m.reply w t o a).1) Q (some (m.reply w t o a).2))

/-- The program, run by thread `t` from outside of a section, ends outside of one. -/
def Outside (t : ℕ) (p : Prog Op Res α) : Prop :=
  Keeping m run Good In t p (fun _ l => l = none) none

variable {m run Good In}

theorem keeping_bind {t : ℕ} {p : Prog Op Res α} {f : α → Prog Op Res β} {Q : β → Option W → Prop}
    {l : Option W} (h : Keeping m run Good In t p (fun a l => Keeping m run Good In t (f a) Q l) l) :
    Keeping m run Good In t (p >>= f) Q l := by
  induction p generalizing l with
  | ret a => exact h
  | call o k ih =>
    exact fun w a hl hr hd =>
      (h w a hl hr hd).imp (And.imp_right (ih _)) (And.imp_right (ih _))

theorem Keeping.mono {t : ℕ} {p : Prog Op Res α} {Q Q' : α → Option W → Prop} {l : Option W}
    (h : Keeping m run Good In t p Q l) (hQ : ∀ a l, Q a l → Q' a l) :
    Keeping m run Good In t p Q' l := by
  induction p generalizing l with
  | ret a => exact hQ _ _ h
  | call o k ih =>
    exact fun w a hl hr hd =>
      (h w a hl hr hd).imp (And.imp_right (ih _)) (And.imp_right (ih _))

theorem Outside.pure {t : ℕ} (a : α) : Outside m run Good In t (pure a : Prog Op Res α) := rfl

theorem Outside.bind {t : ℕ} {p : Prog Op Res α} {f : α → Prog Op Res β}
    (hp : Outside m run Good In t p) (hf : ∀ a, Outside m run Good In t (f a)) :
    Outside m run Good In t (p >>= f) := by
  refine keeping_bind (hp.mono ?_)
  rintro a _ rfl
  exact hf a

/-- A program that stays outside of sections. -/
theorem Outside.of_all {t : ℕ} {P : Op → Prop} {p : Prog Op Res α} (hp : p.All P)
    (h : ∀ w o a, P o → Good w → run w t o a = true → m.ready w t o a = true →
      Good (m.reply w t o a).2) : Outside m run Good In t p := by
  induction p with
  | ret a => rfl
  | call o k ih =>
    exact fun w a hl hr hd => .inl ⟨h w o a hp.1 hl hr hd, ih _ (hp.2 _)⟩

/-- A program that stays in a section, run alone. -/
theorem keeping_of_always {t : ℕ} {P : Op → Prop} {p : Prog Op Res α} {R : α → W → Prop}
    {Q : α → Option W → Prop} {w : W} (hp : p.All P)
    (hIn : ∀ w o a, P o → In w t → In (m.reply w t o a).2 t) (hw : In w t)
    (h : p.Always (m.checked run) t R w) (hQ : ∀ a w', In w' t → R a w' → Q a (some w')) :
    Keeping m run Good In t p Q (some w) := by
  induction p generalizing w with
  | ret a => exact hQ a w hw h
  | call o k ih =>
    intro w' a hl hr hd
    obtain rfl : w' = w := hl
    have hin := hIn w' o a hp.1 hw
    exact .inr ⟨hin, ih _ (hp.2 _) hin (h a (by simp [checked, hr, hd]))⟩

/-- **A section**: entered by `o`, and left by `o'`, with `p` in between. -/
theorem Outside.sect {t : ℕ} {P : Op → Prop} {o : Op} {p : Res o → Prog Op Res α}
    {o' : Res o → α → Op} {f : (r : Res o) → (a : α) → Res (o' r a) → Prog Op Res β}
    (hp : ∀ r, (p r).All P) (hIn : ∀ w o a, P o → In w t → In (m.reply w t o a).2 t)
    (h : ∀ w a, Good w → run w t o a = true → m.ready w t o a = true →
      In (m.reply w t o a).2 t ∧ (p (m.reply w t o a).1).Always (m.checked run) t
        (fun b w' => In w' t → ∀ a', Good (m.reply w' t (o' (m.reply w t o a).1 b) a').2)
        (m.reply w t o a).2)
    (hf : ∀ r a r', Outside m run Good In t (f r a r')) :
    Outside m run Good In t
      (Prog.op o >>= fun r => p r >>= fun a => Prog.op (o' r a) >>= fun r' => f r a r') := by
  intro w a hw hr hd
  obtain ⟨hin, hbody⟩ := h w a hw hr hd
  have hsect : Keeping m run Good In t (p (m.reply w t o a).1) (fun b l =>
      Keeping m run Good In t
        (Prog.op (o' (m.reply w t o a).1 b) >>= fun r' => f (m.reply w t o a).1 b r')
        (fun _ l => l = none) l) (some (m.reply w t o a).2) := by
    refine keeping_of_always (hp _) hIn hin hbody fun b w' hin' hb => ?_
    intro w'' a' hl hr' hd'
    obtain rfl : w'' = w' := hl
    exact .inl ⟨hb hin' a', hf _ _ _⟩
  have hrest := keeping_bind hsect
  exact .inr ⟨hin, hrest⟩

end Sections

/-- What makes sections of a machine that is run under a condition. -/
structure Atomic (m : Machine Op Res W A E) (run : W → ℕ → Op → A → Bool) (env : W → E → Bool)
    (Good : W → Prop) (In : W → ℕ → Prop) : Prop where
  /-- While a thread is in a section, no other takes a step. -/
  alone : ∀ {w t t' o a}, In w t → run w t' o a = true → t' = t
  /-- And the environment does nothing. -/
  still : ∀ {w t e}, In w t → env w e = false
  /-- Outside of sections, an action of the environment keeps the state good, and a thread it
  starts does so too. -/
  env : ∀ {w n e w' p}, Good w → env w e = true → m.env w n e = some (w', p) →
    Good w' ∧ ∀ q ∈ p, Outside m run Good In n q

variable {m : Machine Op Res W A E} {run : W → ℕ → Op → A → Bool} {env : W → E → Bool}
  {Good : W → Prop} {In : W → ℕ → Prop}

/-- What is known of a state that is reached: no thread is in a section, or one is. -/
def Secured (m : Machine Op Res W A E) (run : W → ℕ → Op → A → Bool) (Good : W → Prop)
    (In : W → ℕ → Prop) (s : Sys Op Res W) (l : Option ℕ) : Prop :=
  (l = none → Good s.w) ∧ (∀ t ∈ l, In s.w t) ∧
    ∀ t p, s.threads[t]? = some p →
      Keeping m run Good In t p (fun _ l => l = none) (if l = some t then some s.w else none)

theorem Secured.step (hA : m.Atomic run env Good In) {s s' : Sys Op Res W} {l : Option ℕ}
    (hs : Secured m run Good In s l) (h : m.Step (.ofBool run env) s s') :
    ∃ l', Secured m run Good In s' l' := by
  obtain ⟨hgood, hin, hkeep⟩ := hs
  cases h with
  | @run t o k a ht hg hd =>
    have hlt : t < s.threads.length := (List.getElem?_eq_some_iff.mp ht).1
    have hl : l = none ∨ l = some t := by
      cases l with
      | none => exact .inl rfl
      | some t' => exact .inr (congrArg some (hA.alone (hin t' rfl) hg).symm)
    have hknown : Known Good (if l = some t then some s.w else none) s.w := by
      rcases hl with rfl | rfl
      · exact hgood rfl
      · rw [if_pos rfl]; rfl
    have hothers : ∀ t' p, t' ≠ t → s.threads[t']? = some p →
        Keeping m run Good In t' p (fun _ l => l = none) none := by
      intro t' p hne hp
      have h := hkeep t' p hp
      rwa [if_neg (by rcases hl with rfl | rfl <;> simp [hne.symm])] at h
    have hset : ∀ {l' : Option ℕ} {p' : Prog Op Res Unit} {w' : W}, (l' = none ∨ l' = some t) →
        Keeping m run Good In t p' (fun _ l => l = none) (if l' = some t then some w' else none) →
        ∀ t' p, (s.threads.set t p')[t']? = some p →
          Keeping m run Good In t' p (fun _ l => l = none) (if l' = some t' then some w' else none) := by
      intro l' p' w' hl' hp' t' p hp
      by_cases htt : t' = t
      · subst htt
        rw [List.getElem?_set_self hlt] at hp
        cases hp
        exact hp'
      · rw [List.getElem?_set_ne (Ne.symm htt)] at hp
        rw [if_neg (by rcases hl' with rfl | rfl <;> simp [Ne.symm htt])]
        exact hothers t' p htt hp
    rcases hkeep t _ ht s.w a hknown hg hd with ⟨hgood', hk⟩ | ⟨hin', hk⟩
    · exact ⟨none, fun _ => hgood', nofun, hset (.inl rfl) hk⟩
    · refine ⟨some t, nofun, ?_, hset (.inr rfl) (by rwa [if_pos rfl])⟩
      rintro _ ⟨⟩
      exact hin'
  | @env e w' p hg he =>
    cases l with
    | some t =>
      have hstill := hA.still (e := e) (hin t rfl)
      rw [show env s.w e = true from hg] at hstill
      cases hstill
    | none =>
      obtain ⟨hgood', hnew⟩ := hA.env (hgood rfl) hg he
      refine ⟨none, fun _ => hgood', nofun, fun t q hq => ?_⟩
      rcases Nat.lt_or_ge t s.threads.length with hlt | hge
      · rw [List.getElem?_append_left hlt] at hq
        exact hkeep t q hq
      · rw [List.getElem?_append_right hge] at hq
        cases p with
        | none => simp at hq
        | some p' =>
          have hlen := (List.getElem?_eq_some_iff.mp hq).1
          simp only [Option.toList_some, List.length_singleton] at hlen
          obtain rfl : t = s.threads.length := by omega
          simp only [Nat.sub_self, Option.toList_some, List.getElem?_cons_zero,
            Option.some.injEq] at hq
          exact hq ▸ hnew p' rfl

/-- **What every section restores holds outside of sections.** -/
theorem Atomic.good (hA : m.Atomic run env Good In) {w : W} (hw : Good w) {s : Sys Op Res W}
    (h : m.Reach (.ofBool run env) ⟨w, []⟩ s) : Good s.w ∨ ∃ t, In s.w t := by
  have hs : ∃ l, Secured m run Good In s l := by
    induction h with
    | refl => exact ⟨none, fun _ => hw, nofun, by simp⟩
    | tail _ hstep ih =>
      obtain ⟨l, hl⟩ := ih
      exact hl.step hA hstep
  obtain ⟨l, hgood, hin, -⟩ := hs
  cases l with
  | none => exact .inl (hgood rfl)
  | some t => exact .inr ⟨t, (hin t rfl)⟩

end Machine

end FirelinkNet.Lib
