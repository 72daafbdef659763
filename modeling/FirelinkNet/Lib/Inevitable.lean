import Mathlib.Logic.Relation
import Mathlib.Data.Nat.Notation

/-!
# What is inevitable

A system that takes some steps of itself, and may take others: `may` are the steps that
are possible, and `must` those that are taken in the end if nothing else happens. What is
inevitable is what holds when no step is due any more, however the steps were chosen
before; and that comes, since no run goes on for ever.

## What is proved

* `Inevitable.of_measure` — **the rule**: a number that every possible step makes smaller,
  and a due step wherever `Q` does not hold yet.
* `Inevitable.exists_run` — what is inevitable is reached.
-/

namespace FirelinkNet.Lib

open Relation

variable {σ : Type}

/-- Every run from `s` comes to an end, and `Q` holds where no step is due. -/
inductive Inevitable (may must : σ → σ → Prop) (Q : σ → Prop) : σ → Prop
  /-- After any step it is inevitable still, and where no step is due it is so. -/
  | intro {s : σ} : (∀ s', may s s' → Inevitable may must Q s') →
      ((∀ s', ¬ must s s') → Q s) → Inevitable may must Q s

namespace Inevitable

variable {may must : σ → σ → Prop} {Q : σ → Prop}

/-- **The rule.** -/
theorem of_measure {I : σ → Prop} (f : σ → ℕ) (hstep : ∀ {s s'}, I s → may s s' → I s' ∧ f s' < f s)
    (hend : ∀ {s}, I s → (∀ s', ¬ must s s') → Q s) {s : σ} (hs : I s) : Inevitable may must Q s := by
  induction hn : f s using Nat.strongRecOn generalizing s with
  | _ n ih =>
    refine .intro (fun s' h => ?_) (hend hs)
    obtain ⟨hs', hlt⟩ := hstep hs h
    exact ih (f s') (hn ▸ hlt) hs' rfl

/-- **What is inevitable is reached.** -/
theorem exists_run (hle : ∀ {s s'}, must s s' → may s s') {s : σ} (h : Inevitable may must Q s) :
    ∃ s', ReflTransGen may s s' ∧ Q s' := by
  induction h with
  | @intro s _ hend ih =>
    by_cases hdue : ∃ s', must s s'
    · obtain ⟨s₁, h₁⟩ := hdue
      obtain ⟨s', hrun, hQ⟩ := ih s₁ (hle h₁)
      exact ⟨s', .head (hle h₁) hrun, hQ⟩
    · exact ⟨s, .refl, hend fun s' h' => hdue ⟨s', h'⟩⟩

end Inevitable

end FirelinkNet.Lib
