import FirelinkNet.Lib.Threads

/-!
# Two logics of one machine

What a thread knows can be said in two logics side by side. A program is verified in
each on its own, and the invariant may then speak of what a thread knows by both.

## What is proved

* `Logic.wp_prod` — a program that has what it needs in each has it in both.
* `Machine.Proof.prod` — **one logic builds on another**: what the first keeps is at hand at
  every step, also for the promise that the second makes of a reply.
-/

namespace FirelinkNet.Lib

variable {Op : Type} {Res : Op → Type} {W A E L L' : Type} {α : Type}

namespace Logic

/-- Two logics side by side. -/
def prod (lg : Logic Op Res L) (lg' : Logic Op Res L') : Logic Op Res (L × L') where
  pre l o := lg.pre l.1 o ∧ lg'.pre l.2 o
  given l o r := lg.given l.1 o r ∧ lg'.given l.2 o r
  post l o r := (lg.post l.1 o r, lg'.post l.2 o r)

theorem wp_prod {lg : Logic Op Res L} {lg' : Logic Op Res L'} {p : Prog Op Res α} {Q : α → L → Prop}
    {Q' : α → L' → Prop} {l : L} {l' : L'} (hp : lg.wp p Q l) (hp' : lg'.wp p Q' l') :
    (lg.prod lg').wp p (fun a l => Q a l.1 ∧ Q' a l.2) (l, l') := by
  induction p generalizing l l' with
  | ret a => exact ⟨hp, hp'⟩
  | call o k ih => exact ⟨⟨hp.1, hp'.1⟩, fun r hr => ih r (hp.2 r hr.1) (hp'.2 r hr.2)⟩

/-- What every call of `p` keeps of the knowledge, `p` keeps. -/
theorem wp_of_all {lg : Logic Op Res L} {P : Op → Prop} {R : L → Prop} {p : Prog Op Res α} {l : L}
    (hp : p.All P)
    (hR : ∀ l o, P o → R l → lg.pre l o ∧ ∀ r, lg.given l o r → R (lg.post l o r)) (hl : R l) :
    lg.wp p (fun _ => R) l := by
  induction p generalizing l with
  | ret a => exact hl
  | call o k ih =>
    obtain ⟨hpre, hpost⟩ := hR l o hp.1 hl
    exact ⟨hpre, fun r hr => ih r (hp.2 r) (hpost r hr)⟩

end Logic

namespace Machine

variable {m : Machine Op Res W A E} {lg : Logic Op Res L} {lg' : Logic Op Res L'} {g : Guard Op W A E}
  {idle : L} {idle' : L'} {I : W → (ℕ → L) → Prop} {J : W → (ℕ → L × L') → Prop}

/-- The knowledge by the first logic, after a thread has come to know something. -/
theorem fst_update (ls : ℕ → L × L') (t : ℕ) (l : L) (l' : L') :
    (fun t' => (Function.update ls t (l, l') t').1) = Function.update (fun t' => (ls t').1) t l := by
  funext t'
  by_cases h : t' = t
  · rw [h, Function.update_self, Function.update_self]
  · rw [Function.update_of_ne h, Function.update_of_ne h]

/-- **One logic builds on another.** -/
theorem Proof.prod (hI : m.Proof lg g idle I)
    (hrun : ∀ {w : W} {ls : ℕ → L × L'} {t : ℕ} {o : Op} {a : A}, I w (fun t => (ls t).1) → J w ls →
      lg.pre (ls t).1 o → lg'.pre (ls t).2 o → g.run w t o a → m.ready w t o a = true →
        lg.given (ls t).1 o (m.reply w t o a).1 →
          lg'.given (ls t).2 o (m.reply w t o a).1 ∧ J (m.reply w t o a).2
            (Function.update ls t ((lg.prod lg').post (ls t) o (m.reply w t o a).1)))
    (henv : ∀ {w : W} {ls : ℕ → L × L'} {n : ℕ} {e : E} {w' : W} {p : Option (Prog Op Res Unit)} {l : L},
      I w (fun t => (ls t).1) → J w ls → ls n = (idle, idle') → g.env w e → m.env w n e = some (w', p) →
        ∃ l', J w' (Function.update ls n (l, l')) ∧ (p = none → l' = idle') ∧
          ∀ q ∈ p, lg'.wp q (fun _ _ => True) l') :
    m.Proof (lg.prod lg') g (idle, idle') fun w ls => I w (fun t => (ls t).1) ∧ J w ls where
  run := by
    rintro w ls t o a ⟨hw, hj⟩ ⟨hpre, hpre'⟩ hg hd
    obtain ⟨hgiven, hw'⟩ := hI.run hw hpre hg hd
    obtain ⟨hgiven', hj'⟩ := hrun hw hj hpre hpre' hg hd hgiven
    refine ⟨⟨hgiven, hgiven'⟩, ?_, hj'⟩
    rw [Logic.prod, fst_update]
    exact hw'
  env := by
    rintro w ls n e w' p ⟨hw, hj⟩ hn hg he
    obtain ⟨l, hw', hnone, hwp⟩ := hI.env hw (fun t ht => congrArg Prod.fst (hn t ht)) hg he
    obtain ⟨l', hj', hnone', hwp'⟩ := henv (l := l) hw hj (hn n (Nat.le_refl n)) hg he
    refine ⟨(l, l'), ⟨?_, hj'⟩, fun hp => ?_, fun q hq => ?_⟩
    · rw [fst_update]
      exact hw'
    · rw [hnone hp, hnone' hp]
    · exact Logic.wp_mono (Logic.wp_prod (hwp q hq) (hwp' q hq)) fun _ _ _ => trivial

end Machine

end FirelinkNet.Lib
