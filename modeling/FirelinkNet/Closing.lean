import FirelinkNet.Tame

/-!
# Closing a TP_IO

`close` and the destructor of a socket wait for the callbacks of its TP_IO and then
close it. The wait is for callbacks that are queued or running; an operation still
pending in the kernel is not waited for.

## What is proved

* `no_closedInFlight` — **`close` strands no operation** in a run in which no
  operation of a TP_IO is pending when a function of the interface begins to wait for
  it, and none is started on it before it is closed.
-/

namespace FirelinkNet

open Lib

namespace Closing

/-! ### What a thread knows -/

/-- How far a thread is in closing a TP_IO. -/
inductive Phase where
  /-- It is not closing one. -/
  | idle
  /-- It waits for the callbacks. -/
  | waiting (io : TpIo)
  /-- It has waited. -/
  | waited (io : TpIo)

/-- A TP_IO is closed by the thread that has waited for it. -/
def logic : Logic Op Res Phase where
  pre l
    | .enter _ | .waitForThreadpoolIoCallbacks _ => l = .idle
    | .waitedForThreadpoolIoCallbacks io => l = .waiting io
    | .closeThreadpoolIo io => l = .waited io
    | _ => True
  given _ _ _ := True
  post l
    | .waitForThreadpoolIoCallbacks io, _ => .waiting io
    | .waitedForThreadpoolIoCallbacks io, _ => .waited io
    | .closeThreadpoolIo _, _ => .idle
    | _, _ => l

theorem unfollowed {l : Phase} {o : Op} (ho : o.Unfollowed) :
    logic.pre l o ∧ ∀ r, logic.given l o r → logic.post l o r = l := by
  cases o <;> first | exact ⟨trivial, fun _ _ => rfl⟩ | exact (ho rfl).elim

theorem keeps_waitAndClose (io : TpIo) : logic.Keeps (WinSocket.waitAndClose io) .idle :=
  ⟨rfl, fun _ _ => ⟨rfl, fun _ _ => ⟨rfl, fun _ _ => rfl⟩⟩⟩

theorem tame : Tame logic (· = .idle) (· = .idle) where
  plain _ ho := unfollowed ho.unfollowed
  dropRef := by
    rintro _ x rfl
    exact ⟨trivial, fun _ _ => ⟨rfl, fun _ _ => keeps_waitAndClose _⟩⟩
  deleteIOData := by
    rintro _ i rfl
    exact ⟨trivial, fun _ _ => ⟨rfl, fun _ _ => keeps_waitAndClose _⟩⟩
  out := id
  enter hl := ⟨hl, fun _ _ => hl⟩
  leave _ _ _ := ⟨trivial, rfl⟩
  close := by
    rintro _ c n x io rfl - - -
    exact keeps_waitAndClose io
  core := by
    rintro _ c n rfl - hc
    refine Logic.wp_mono (hc.keeps fun o ho => unfollowed ho.unfollowed) ?_
    rintro r _ rfl
    exact ⟨trivial, rfl⟩

/-! ### The invariant -/

/-- What a step may do: when a function of the interface begins to wait for the callbacks of a
TP_IO, no operation of it is pending in the kernel; and none is accepted while such a wait, or the
close that follows it, is under way. -/
def allowed (w : World) (t : ℕ) (o : Op) (a : Ans) : Bool :=
  match o with
  | .waitForThreadpoolIoCallbacks (some h) => (w.cur t).isNone || !w.ioPending h
  | .overlapped _ _ (some h) =>
    !World.accepts a.error || w.waiters.all fun p => p.2 ≠ h || (w.cur p.1).isNone
  | _ => true

/-- The condition on a run. -/
def guard : RunGuard := .ofBool allowed fun _ _ => true

/-- What is kept. -/
structure Inv (w : World) (ls : ℕ → Phase) : Prop where
  waits : ∀ t h, (t, h) ∈ w.waiters ↔ ls t = .waiting (some h) ∨ ls t = .waited (some h)
  pending : ∀ t h, (t, h) ∈ w.waiters → (w.cur t).isSome → ∀ e ∈ w.kernel, e.io ≠ some h
  waited_queue : ∀ t h, ls t = .waited (some h) → (w.cur t).isSome → ∀ cb ∈ w.ioQueue, cb.io ≠ some h
  waited_running : ∀ t h, ls t = .waited (some h) → (w.cur t).isSome →
    ∀ r ∈ w.running, Task.isOf h r.2 = false
  ok : ∀ h, .closedInFlight h ∉ w.faults

theorem ioActive_eq_false {w : World} {h : ℕ} : w.ioActive h = false ↔
    (∀ cb ∈ w.ioQueue, cb.io ≠ some h) ∧ ∀ r ∈ w.running, Task.isOf h r.2 = false := by
  simp [World.ioActive]

theorem ioPending_eq_false {w : World} {h : ℕ} :
    w.ioPending h = false ↔ ∀ e ∈ w.kernel, e.io ≠ some h := by
  simp [World.ioPending]

/-- A call that closes no TP_IO while an operation is in flight. -/
theorem Inv.ok_reply {w : World} {ls : ℕ → Phase} {t : ℕ} {o : Op} {a : Ans} (hI : Inv w ls)
    (hpre : logic.pre (ls t) o) (h : ℕ) : .closedInFlight h ∉ (w.reply t o a).2.faults := by
  intro hf
  rcases World.mem_faults_reply hf with hf | hc
  · exact hI.ok h hf
  cases o with
  | closeThreadpoolIo io =>
    obtain ⟨rfl, hcur, hbad⟩ := hc
    have hw : ls t = .waited (some h) := hpre
    have hp := ioPending_eq_false.mpr (hI.pending t h ((hI.waits t h).mpr (.inr hw)) hcur)
    have ha := ioActive_eq_false.mpr ⟨hI.waited_queue t h hw hcur, hI.waited_running t h hw hcur⟩
    rcases hbad with hbad | hbad
    · exact absurd (hp.symm.trans hbad) (by decide)
    · exact absurd (ha.symm.trans hbad) (by decide)
  | _ => exact hc

/-- A step that changes nothing of what the invariant is about but to shorten the queues. -/
theorem Inv.mono {w w' : World} {ls : ℕ → Phase} (hI : Inv w ls) (hw : w'.waiters = w.waiters)
    (hc : ∀ t, (w'.cur t).isSome → (w.cur t).isSome ∨ ls t = .idle)
    (hk : ∀ e ∈ w'.kernel, e ∈ w.kernel) (hq : ∀ cb ∈ w'.ioQueue, cb ∈ w.ioQueue)
    (hr : ∀ r ∈ w'.running, r ∈ w.running) (hok : ∀ h, .closedInFlight h ∉ w'.faults) :
    Inv w' ls where
  waits := by rw [hw]; exact hI.waits
  pending t h hm hcur e he := by
    rw [hw] at hm
    rcases hc t hcur with hcur | hidle
    · exact hI.pending t h hm hcur e (hk e he)
    · rcases (hI.waits t h).mp hm with h' | h' <;> rw [hidle] at h' <;> cases h'
  waited_queue t h hl hcur cb hcb := by
    rcases hc t hcur with hcur | hidle
    · exact hI.waited_queue t h hl hcur cb (hq cb hcb)
    · rw [hidle] at hl; cases hl
  waited_running t h hl hcur r hr' := by
    rcases hc t hcur with hcur | hidle
    · exact hI.waited_running t h hl hcur r (hr r hr')
    · rw [hidle] at hl; cases hl
  ok := hok

theorem Inv.not_mem_of_idle {w : World} {ls : ℕ → Phase} (hI : Inv w ls) {t : ℕ}
    (hl : ls t = .idle) (h : ℕ) : (t, h) ∉ w.waiters := by
  intro hm
  rcases (hI.waits t h).mp hm with h' | h' <;> rw [hl] at h' <;> cases h'

theorem Inv.wait {w : World} {ls : ℕ → Phase} {t : ℕ} {io : TpIo} (hI : Inv w ls)
    (hl : ls t = .idle) (hg : ∀ h, io = some h → (w.cur t).isSome → w.ioPending h = false)
    (hok : ∀ h, .closedInFlight h ∉ (w.waitIo t io).faults) :
    Inv (w.waitIo t io) (Function.update ls t (.waiting io)) where
  waits t' h := by
    by_cases ht : t' = t
    · subst ht
      have hn := hI.not_mem_of_idle hl h
      cases io <;> simp [World.waitIo, hn, eq_comm]
    · have hne : ∀ h', ¬ (t' = t ∧ h = h') := fun _ hh => ht hh.1
      rw [Function.update_of_ne ht, ← hI.waits t' h]
      cases io <;> simp [World.waitIo, ht]
  pending t' h hm hcur := by
    rcases List.mem_append.mp hm with hm | hm
    · obtain ⟨h', hio, heq⟩ := List.mem_map.mp hm
      cases heq
      exact ioPending_eq_false.mp (hg h (by simpa using hio) hcur)
    · exact hI.pending t' h hm hcur
  waited_queue t' h hw := by
    by_cases ht : t' = t
    · subst ht; simp at hw
    · rw [Function.update_of_ne ht] at hw
      exact hI.waited_queue t' h hw
  waited_running t' h hw := by
    by_cases ht : t' = t
    · subst ht; simp at hw
    · rw [Function.update_of_ne ht] at hw
      exact hI.waited_running t' h hw
  ok := hok

theorem Inv.waited {w : World} {ls : ℕ → Phase} {t : ℕ} {io : TpIo} (hI : Inv w ls)
    (hl : ls t = .waiting io) (hr : ∀ h, io = some h → w.ioActive h = false) :
    Inv w (Function.update ls t (.waited io)) where
  waits t' h := by
    rw [hI.waits]
    by_cases ht : t' = t
    · subst ht; simp [hl]
    · rw [Function.update_of_ne ht]
  pending := hI.pending
  waited_queue t' h hw hcur := by
    by_cases ht : t' = t
    · subst ht
      rw [Function.update_self, Phase.waited.injEq] at hw
      exact (ioActive_eq_false.mp (hr h hw)).1
    · rw [Function.update_of_ne ht] at hw
      exact hI.waited_queue t' h hw hcur
  waited_running t' h hw hcur := by
    by_cases ht : t' = t
    · subst ht
      rw [Function.update_self, Phase.waited.injEq] at hw
      exact (ioActive_eq_false.mp (hr h hw)).2
    · rw [Function.update_of_ne ht] at hw
      exact hI.waited_running t' h hw hcur
  ok := hI.ok

theorem Inv.closed {w : World} {ls : ℕ → Phase} {t : ℕ} {io : TpIo} (hI : Inv w ls)
    (hl : ls t = .waited io) (hok : ∀ h, .closedInFlight h ∉ (w.closeIo t io).faults) :
    Inv (w.closeIo t io) (Function.update ls t .idle) where
  waits t' h := by
    have hm : (t', h) ∈ (w.closeIo t io).waiters ↔ (t', h) ∈ w.waiters ∧ (t' ≠ t ∨ some h ≠ io) := by
      simp [World.closeIo]
    rw [hm, hI.waits]
    by_cases ht : t' = t
    · subst ht; simp [hl, eq_comm]
    · simp [ht]
  pending t' h hm := hI.pending t' h (List.mem_filter.mp hm).1
  waited_queue t' h hw := by
    by_cases ht : t' = t
    · subst ht; simp at hw
    · rw [Function.update_of_ne ht] at hw
      exact hI.waited_queue t' h hw
  waited_running t' h hw := by
    by_cases ht : t' = t
    · subst ht; simp at hw
    · rw [Function.update_of_ne ht] at hw
      exact hI.waited_running t' h hw
  ok := hok

/-- **A call keeps the invariant.** -/
theorem Inv.run {w : World} {ls : ℕ → Phase} {t : ℕ} {o : Op} {a : Ans} (hI : Inv w ls)
    (hpre : logic.pre (ls t) o) (hg : guard.run w t o a) (hr : w.returns o a = true) :
    Inv (w.reply t o a).2
      (Function.update ls t (logic.post (ls t) o (w.reply t o a).1)) := by
  have hok := fun h => hI.ok_reply (a := a) hpre h
  have hsame : Function.update ls t (ls t) = ls := Function.update_eq_self t ls
  cases o with
  | waitForThreadpoolIoCallbacks io =>
    refine hI.wait hpre ?_ hok
    rintro h rfl hcur
    have hg' : ((w.cur t).isNone || !w.ioPending h) = true := hg
    simpa [Option.isNone_iff_eq_none, ← Option.not_isSome_iff_eq_none, hcur] using hg'
  | waitedForThreadpoolIoCallbacks io =>
    refine hI.waited hpre ?_
    rintro h rfl
    simpa [World.returns] using hr
  | closeThreadpoolIo io => exact hI.closed hpre hok
  | overlapped req i io =>
    show Inv _ (Function.update ls t (ls t))
    rw [hsame]
    refine ⟨hI.waits, fun t' h hm hcur e he => ?_, hI.waited_queue, hI.waited_running, hok⟩
    have he' : e ∈ w.kernel ∨ World.accepts a.error = true ∧ e.io = io := by
      change e ∈ (w.submit i io (World.accepts a.error)).kernel at he
      by_cases hacc : World.accepts a.error = true
      · simp only [World.submit, hacc, if_true, List.mem_append, List.mem_singleton] at he
        exact he.imp_right fun he => ⟨hacc, by rw [he]⟩
      · simp only [World.submit, hacc] at he
        exact .inl he
    rcases he' with he' | ⟨hacc, hio⟩
    · exact hI.pending t' h hm hcur e he'
    · intro hh
      rw [hio] at hh
      subst hh
      have hg' : (!World.accepts a.error ||
          w.waiters.all fun p => p.2 ≠ h || (w.cur p.1).isNone) = true := hg
      simp only [hacc, Bool.not_true, Bool.false_or, List.all_eq_true] at hg'
      have hnone : w.cur t' = none := by simpa using hg' _ hm
      have hcur' : (w.cur t').isSome = true := hcur
      rw [hnone] at hcur'
      cases hcur'
  | enter c =>
    show Inv _ (Function.update ls t (ls t))
    rw [hsame]
    refine hI.mono rfl (fun t' hcur => ?_) (fun _ h => h) (fun _ h => h) (fun _ h => h) hok
    have hcur' : (Function.update w.cur t (some w.nextCall) t').isSome = true := hcur
    by_cases ht : t' = t
    · subst ht; exact .inr hpre
    · rw [Function.update_of_ne ht] at hcur'
      exact .inl hcur'
  | leave n r =>
    show Inv _ (Function.update ls t (ls t))
    rw [hsame]
    refine hI.mono rfl (fun t' hcur => ?_) (fun _ h => h) (fun _ h => h) (fun _ h => h) hok
    have hcur' : (Function.update w.cur t none t').isSome = true := hcur
    by_cases ht : t' = t
    · rw [ht, Function.update_self] at hcur'
      cases hcur'
    · rw [Function.update_of_ne ht] at hcur'
      exact .inl hcur'
  | callbackReturn =>
    show Inv _ (Function.update ls t (ls t))
    rw [hsame]
    exact hI.mono rfl (fun _ h => .inl h) (fun _ h => h) (fun _ h => h)
      (fun _ h => (List.mem_filter.mp h).1) hok
  | closeThreadpoolCleanupGroupMembers g =>
    show Inv _ (Function.update ls t (ls t))
    rw [hsame]
    cases g with
    | none => exact hI
    | some g =>
      exact hI.mono rfl (fun _ h => .inl h) (fun _ h => h) (fun _ h => (List.mem_filter.mp h).1)
        (fun _ h => h) hok
  | _ =>
    show Inv _ (Function.update ls t (ls t))
    rw [hsame]
    cases w
    exact hI.mono rfl (fun _ h => .inl h) (fun _ h => h) (fun _ h => h) (fun _ h => h) hok

/-- **So does an event.** -/
theorem Inv.event {w w' : World} {ls : ℕ → Phase} {n : ℕ} {e : Event} {p : Option (Prog Unit)}
    (hI : Inv w ls) (he : w.event n e = some (w', p)) : Inv w' ls := by
  cases World.event_step he with
  | spawn cs => exact hI
  | @complete k e c hk =>
    have he := List.mem_of_getElem? hk
    refine ⟨hI.waits, fun t h hm hcur e' he' => ?_, fun t h hw hcur cb hcb => ?_,
      hI.waited_running, hI.ok⟩
    · exact hI.pending t h hm hcur e' (List.mem_of_mem_eraseIdx he')
    · rcases List.mem_append.mp hcb with hcb | hcb
      · exact hI.waited_queue t h hw hcur cb hcb
      · rw [List.mem_singleton.mp hcb]
        exact hI.pending t h ((hI.waits t h).mpr (.inr hw)) hcur e he
  | @dispatchIo k cb hk =>
    have hcb := List.mem_of_getElem? hk
    refine ⟨hI.waits, hI.pending, fun t h hw hcur cb' hcb' => ?_, fun t h hw hcur r hr => ?_, hI.ok⟩
    · exact hI.waited_queue t h hw hcur cb' (List.mem_of_mem_eraseIdx hcb')
    · rcases List.mem_cons.mp hr with rfl | hr
      · simpa [Task.isOf] using hI.waited_queue t h hw hcur cb hcb
      · exact hI.waited_running t h hw hcur r hr
  | dispatchWork hk =>
    refine ⟨hI.waits, hI.pending, hI.waited_queue, fun t h hw hcur r hr => ?_, hI.ok⟩
    rcases List.mem_cons.mp hr with rfl | hr
    · rfl
    · exact hI.waited_running t h hw hcur r hr
  | startCleanup hk hs => exact ⟨hI.waits, hI.pending, hI.waited_queue, hI.waited_running, hI.ok⟩
  | dropIoCore => exact ⟨hI.waits, hI.pending, hI.waited_queue, hI.waited_running, hI.ok⟩

theorem proof : machine.Proof logic guard .idle Inv where
  run hI hpre hg hr := ⟨trivial, hI.run hpre hg (Bool.and_eq_true_iff.mp hr).2⟩
  env := by
    intro w ls n e w' p hI hidle _ he
    refine ⟨.idle, ?_, fun _ => rfl, fun q hq => ?_⟩
    · rw [← hidle n le_rfl, Function.update_eq_self]
      exact hI.event he
    · cases hq
      exact tame.blocks.event rfl trivial (fun _ _ _ => ⟨trivial, fun _ _ => ⟨trivial, fun _ _ =>
        ⟨trivial, fun _ _ => trivial⟩⟩⟩) he

end Closing

/-- **`close` strands no operation** in a run that meets the condition: no function of the
interface has closed a TP_IO with an operation in flight. -/
theorem no_closedInFlight {conf : IOCoreConfig} {s : State}
    (h : machine.Reach Closing.guard (State.start conf) s) (io : ℕ) :
    .closedInFlight io ∉ s.w.faults := by
  obtain ⟨ls, hI⟩ := Closing.proof.invariant (by constructor <;> simp [World.start, World.blank]) h
  exact hI.ok io

/-- A socket with a `start_recv` that has completed is closed. -/
theorem no_closedInFlight_completed : ∃ s : State,
    machine.Reach Closing.guard (State.start ⟨0, 0, 0, 0⟩) s ∧ s.w.tpCloses 0 = 1 ∧
      .closedInFlight 0 ∉ s.w.faults := by
  obtain ⟨s, hs, hp⟩ := Machine.exists_reach_of_fire (m := machine) (g := Closing.guard)
    (s := State.start ⟨0, 0, 0, 0⟩) (P := fun s => decide (s.w.tpCloses 0 = 1)) Machine.allows_checks
    (l := .env (.spawn [.create, .socket 0 .ipv4 .stream .tcp, .startRecv 0 ⟨0, 16⟩ none,
        .close 0]) :: List.replicate 17 (.run 0 {}) ++
      [.env (.complete 0 ⟨0, 16, none, zeroMemory⟩), .env (.dispatchIo 0)] ++
      List.replicate 4 (.run 1 {}) ++ List.replicate 5 (.run 0 {})) (by decide +kernel)
  exact ⟨s, hs, of_decide_eq_true hp, no_closedInFlight hs 0⟩

/-- A socket with a `start_recv` still pending is closed, and its TP_IO with it. -/
theorem closedInFlight_pending : ¬ ∀ conf (s : State), machine.Reach .free (State.start conf) s →
    ∀ io, .closedInFlight io ∉ s.w.faults := by
  intro h
  obtain ⟨s, hs, hp⟩ := Machine.exists_reach_of_fire (m := machine) (c := fun _ _ => true)
    (s := State.start ⟨0, 0, 0, 0⟩) (P := fun s => s.w.faults.contains (.closedInFlight 0))
    Machine.allows_free
    (l := .env (.spawn [.create, .socket 0 .ipv4 .stream .tcp, .startRecv 0 ⟨0, 16⟩ none,
        .close 0]) :: List.replicate 22 (.run 0 {})) (by decide +kernel)
  exact h _ s hs 0 (by simpa using hp)

end FirelinkNet
