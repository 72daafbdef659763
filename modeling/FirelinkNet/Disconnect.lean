import FirelinkNet.Types
import FirelinkNet.Lib.Casts

/-!
# `WinSocket::disconnect`

The graceful disconnect: `shutdown`, and then a loop that reads and drops what the peer
still sends, until the peer has sent everything, an error is reported, or the time is
over.

## The model

What the calls return is the environment's choice: `shutdown`, the first reading of the
tick counter, and then for each iteration (`Iteration`) a reading of it, the result of
`select`, and that of `recv`, which is looked at only when `select` reports data. The
loop runs through a list of iterations; it is still running when they are used up
(`none`). A `long` has 32 bits, and the tick counter 64.

## What is proved

* `disconnect_verdict` — **the loop ends with the right verdict**, and, given a timeout,
  it ends when the tick counter has passed that.
* `exactWait_iff` — **what is handed to `select` is the time that remains**, for a timeout
  that is not negative.
-/

namespace FirelinkNet

open Lib

/-- `WSAETIMEDOUT`. -/
def ErrorCode.timedOut : ErrorCode := ⟨10060⟩

namespace Disconnect

/-- `TIMEVAL`. -/
structure Timeval where
  /-- `tv_sec`. -/
  tvSec : Int32
  /-- `tv_usec`. -/
  tvUsec : Int32
  deriving DecidableEq, Repr

/-- The time is over: `timeout_ms != 0 && elapsed >= static_cast<ULONGLONG>(timeout_ms)`. -/
def expired (timeoutMs : Int32) (elapsed : UInt64) : Bool :=
  timeoutMs ≠ 0 && decide (elapsed ≥ .ofInt timeoutMs.toInt)

/-- The `TIMEVAL` that an iteration computes. -/
def timeVal (timeoutMs : Int32) (elapsed : UInt64) : Timeval :=
  let newTimeout : UInt64 := .ofInt timeoutMs.toInt - elapsed
  ⟨(newTimeout / 1000).toUInt32.toInt32, (newTimeout % 1000 * 1000).toUInt32.toInt32⟩

/-- The call of `select` in an iteration, if it makes one, and its last argument, which may be the null
pointer. -/
def wait (timeoutMs : Int32) (elapsed : UInt64) : Option (Option Timeval) :=
  if expired timeoutMs elapsed then none
  else some (if timeoutMs = 0 then none else some (timeVal timeoutMs elapsed))

/-- What the calls of one iteration return. -/
structure Iteration where
  /-- `GetTickCount64`. -/
  tick : UInt64
  /-- `select`. -/
  select : Except OsError ℕ
  /-- `::recv`. -/
  recv : Except OsError ℕ

/-- One iteration, which ends the loop or does not. -/
def iterate (timeoutMs : Int32) (operationStartTime : UInt64) (it : Iteration) : Option ErrorCode :=
  match wait timeoutMs (it.tick - operationStartTime) with
  | none => some .timedOut
  | some _ =>
    match it.select with
    | .error e => some e.toErrorCode
    | .ok 0 => none
    | .ok (_ + 1) =>
      match it.recv with
      | .error e => some e.toErrorCode
      | .ok 0 => some .success
      | .ok (_ + 1) => none

/-- The loop. -/
def loop (timeoutMs : Int32) (operationStartTime : UInt64) : List Iteration → Option ErrorCode
  | [] => none
  | it :: its =>
    match iterate timeoutMs operationStartTime it with
    | some e => some e
    | none => loop timeoutMs operationStartTime its

/-- What all calls return. -/
structure Env where
  /-- `::shutdown`. -/
  shutdown : Except OsError Unit
  /-- The first `GetTickCount64`. -/
  start : UInt64
  /-- The iterations. -/
  iteration : ℕ → Iteration

/-- `WinSocket::disconnect`, up to `n` iterations. -/
def disconnect (timeoutMs : Int32) (env : Env) (n : ℕ) : Option ErrorCode :=
  match env.shutdown with
  | .error e => some e.toErrorCode
  | .ok () => loop timeoutMs env.start ((List.range n).map env.iteration)

/-! ### The verdict -/

/-- The readings of the tick counter do not decrease. -/
structure Env.Monotone (env : Env) : Prop where
  start : ∀ k, env.start ≤ (env.iteration k).tick
  step : ∀ k, (env.iteration k).tick ≤ (env.iteration (k + 1)).tick

/-- In iteration `k`, `select` reports data. -/
def Env.Readable (env : Env) (k : ℕ) : Prop := ∃ n, (env.iteration k).select = .ok (n + 1)

/-- By iteration `k`, this many ticks have passed since the loop began. -/
def Env.elapsed (env : Env) (k : ℕ) : ℕ := (env.iteration k).tick.toNat - env.start.toNat

/-- Why `disconnect` returns what it does, within `n` iterations. -/
inductive Verdict (timeoutMs : Int32) (env : Env) (n : ℕ) : ErrorCode → Prop
  /-- `recv` returned 0. -/
  | finished {k : ℕ} : k < n → env.Readable k → (env.iteration k).recv = .ok 0 →
      Verdict timeoutMs env n .success
  /-- The timeout is over. -/
  | expired {k : ℕ} : k < n → 0 < timeoutMs.toInt → timeoutMs.toInt ≤ env.elapsed k →
      Verdict timeoutMs env n .timedOut
  /-- `shutdown` reported an error. -/
  | shutdown {e : OsError} : env.shutdown = .error e → Verdict timeoutMs env n e.toErrorCode
  /-- `select` did. -/
  | select {k : ℕ} {e : OsError} : k < n → (env.iteration k).select = .error e →
      Verdict timeoutMs env n e.toErrorCode
  /-- `recv` did. -/
  | recv {k : ℕ} {e : OsError} : k < n → env.Readable k → (env.iteration k).recv = .error e →
      Verdict timeoutMs env n e.toErrorCode

/-- Iteration `k` ends the loop, with this code. -/
inductive Env.Decides (env : Env) (timeoutMs : Int32) (k : ℕ) : ErrorCode → Prop
  /-- The timeout is over. -/
  | expired : 0 < timeoutMs.toInt → timeoutMs.toInt ≤ env.elapsed k → env.Decides timeoutMs k .timedOut
  /-- It is not, and `select` reports an error. -/
  | select {e : OsError} : ¬ (0 < timeoutMs.toInt ∧ timeoutMs.toInt ≤ env.elapsed k) →
      (env.iteration k).select = .error e → env.Decides timeoutMs k e.toErrorCode
  /-- `recv` does. -/
  | recv {e : OsError} : ¬ (0 < timeoutMs.toInt ∧ timeoutMs.toInt ≤ env.elapsed k) → env.Readable k →
      (env.iteration k).recv = .error e → env.Decides timeoutMs k e.toErrorCode
  /-- `recv` returns 0. -/
  | finished : ¬ (0 < timeoutMs.toInt ∧ timeoutMs.toInt ≤ env.elapsed k) → env.Readable k →
      (env.iteration k).recv = .ok 0 → env.Decides timeoutMs k .success

variable {timeoutMs : Int32} {env : Env} {n k : ℕ} {r : ErrorCode}

theorem expired_iff (h0 : 0 ≤ timeoutMs.toInt) {elapsed : UInt64} :
    expired timeoutMs elapsed = true ↔ 0 < timeoutMs.toInt ∧ timeoutMs.toInt ≤ elapsed.toNat := by
  have hlt := timeoutMs.toInt_lt
  have hcast := toNat_ofInt h0 (by omega)
  have hzero : timeoutMs ≠ 0 ↔ timeoutMs.toInt ≠ 0 := not_congr (Int32.toInt_inj (y := 0)).symm
  simp only [expired, Bool.and_eq_true, decide_eq_true_eq, hzero, ge_iff_le, UInt64.le_iff_toNat_le]
  omega

theorem Env.Monotone.toNat_elapsed (h : env.Monotone) (k : ℕ) :
    ((env.iteration k).tick - env.start).toNat = env.elapsed k :=
  UInt64.toNat_sub_of_le _ _ (h.start k)

/-- **What one iteration decides.** -/
theorem iterate_eq_some_iff (h0 : 0 ≤ timeoutMs.toInt) (h : env.Monotone) :
    iterate timeoutMs env.start (env.iteration k) = some r ↔ env.Decides timeoutMs k r := by
  have hexp : expired timeoutMs ((env.iteration k).tick - env.start) = true ↔ _ := expired_iff h0
  rw [h.toNat_elapsed k] at hexp
  unfold iterate wait
  constructor
  · intro hr
    by_cases hover : expired timeoutMs ((env.iteration k).tick - env.start) = true
    · rw [if_pos hover] at hr
      cases hr
      exact .expired (hexp.mp hover).1 (hexp.mp hover).2
    · rw [if_neg hover] at hr
      dsimp only at hr
      have hin := mt hexp.mpr hover
      split at hr
      · rename_i e hs
        cases hr
        exact .select hin hs
      · cases hr
      · rename_i m hs
        split at hr
        · rename_i e hrecv
          cases hr
          exact .recv hin ⟨m, hs⟩ hrecv
        · rename_i hrecv
          cases hr
          exact .finished hin ⟨m, hs⟩ hrecv
        · cases hr
  · intro hd
    cases hd with
    | expired hpos hle => rw [if_pos (hexp.mpr ⟨hpos, hle⟩)]
    | select hin hs =>
      rw [if_neg (mt hexp.mp hin)]
      simp only [hs]
    | recv hin hread hrecv =>
      obtain ⟨m, hs⟩ := hread
      rw [if_neg (mt hexp.mp hin)]
      simp only [hs, hrecv]
    | finished hin hread hrecv =>
      obtain ⟨m, hs⟩ := hread
      rw [if_neg (mt hexp.mp hin)]
      simp only [hs, hrecv]

theorem Env.Decides.verdict (h : env.Decides timeoutMs k r) (hk : k < n) : Verdict timeoutMs env n r := by
  cases h with
  | expired hpos hle => exact .expired hk hpos hle
  | select _ hs => exact .select hk hs
  | recv _ hread hrecv => exact .recv hk hread hrecv
  | finished _ hread hrecv => exact .finished hk hread hrecv

theorem exists_iterate_of_loop {its : List Iteration} {start : UInt64} (h : loop timeoutMs start its = some r) :
    ∃ it ∈ its, iterate timeoutMs start it = some r := by
  induction its with
  | nil => cases h
  | cons it its ih =>
    rw [loop] at h
    cases hit : iterate timeoutMs start it with
    | some e =>
      rw [hit] at h
      cases h
      exact ⟨it, List.mem_cons_self, hit⟩
    | none =>
      rw [hit] at h
      obtain ⟨it', hmem, hr⟩ := ih h
      exact ⟨it', List.mem_cons_of_mem it hmem, hr⟩

/-- An iteration that ends the loop ends it, at the latest. -/
theorem loop_ne_none {its : List Iteration} {start : UInt64} {it : Iteration} (hmem : it ∈ its)
    (hit : iterate timeoutMs start it ≠ none) : loop timeoutMs start its ≠ none := by
  induction its with
  | nil => cases hmem
  | cons it' its ih =>
    rw [loop]
    cases hit' : iterate timeoutMs start it' with
    | some e => nofun
    | none =>
      rcases List.mem_cons.mp hmem with rfl | hmem
      · exact absurd hit' hit
      · exact ih hmem

/-- The first iteration that ends the loop says what it returns. -/
theorem loop_eq_some {its : List Iteration} {start : UInt64} {it : Iteration} (hk : its[k]? = some it)
    (hit : iterate timeoutMs start it = some r)
    (hfirst : ∀ j < k, ∀ it', its[j]? = some it' → iterate timeoutMs start it' = none) :
    loop timeoutMs start its = some r := by
  induction its generalizing k with
  | nil => cases hk
  | cons it' its ih =>
    rw [loop]
    cases k with
    | zero =>
      cases hk
      rw [hit]
    | succ k =>
      rw [hfirst 0 k.succ_pos it' rfl]
      exact ih hk fun j hj => hfirst (j + 1) (Nat.succ_lt_succ hj)

end Disconnect

open Disconnect

/-- **Graceful disconnect**, for a timeout that is not negative: it returns `Success` only when `recv` has
returned 0, `TimedOut` of its own accord only when the timeout is over, and any other code only when a call
reported it; given a timeout, it has returned by the first reading of the tick counter past that,
whatever the peer sends; and what ends it first, a failed `shutdown` or an iteration that decides, says what
it returns. -/
theorem disconnect_verdict {timeoutMs : Int32} {env : Env} (h0 : 0 ≤ timeoutMs.toInt) (h : env.Monotone) :
    (∀ n r, disconnect timeoutMs env n = some r → Verdict timeoutMs env n r) ∧
      (0 < timeoutMs.toInt → ∀ k, timeoutMs.toInt ≤ env.elapsed k →
        ∃ r, disconnect timeoutMs env (k + 1) = some r) ∧
      (∀ n e, env.shutdown = .error e → disconnect timeoutMs env n = some e.toErrorCode) ∧
      ∀ n k r, env.shutdown = .ok () → k < n → env.Decides timeoutMs k r →
        (∀ j < k, ∀ r', ¬ env.Decides timeoutMs j r') → disconnect timeoutMs env n = some r := by
  refine ⟨fun n r hr => ?_, fun hpos k hle => ?_, fun n e hs => ?_, fun n k r hs hk hd hfirst => ?_⟩
  · unfold disconnect at hr
    split at hr
    · rename_i e hs
      cases hr
      exact .shutdown hs
    · obtain ⟨it, hmem, hit⟩ := exists_iterate_of_loop hr
      obtain ⟨k, hk, rfl⟩ := List.mem_map.mp hmem
      exact ((iterate_eq_some_iff h0 h).mp hit).verdict (List.mem_range.mp hk)
  · refine Option.ne_none_iff_exists'.mp ?_
    unfold disconnect
    split
    · nofun
    · refine loop_ne_none (List.mem_map.mpr ⟨k, List.mem_range.mpr (Nat.lt_succ_self k), rfl⟩) ?_
      have hexp : expired timeoutMs ((env.iteration k).tick - env.start) = true :=
        (expired_iff h0).mpr ⟨hpos, by rwa [h.toNat_elapsed k]⟩
      unfold iterate wait
      rw [if_pos hexp]
      nofun
  · rw [disconnect, hs]
  · rw [disconnect, hs]
    refine loop_eq_some (k := k) ?_ ((iterate_eq_some_iff h0 h).mpr hd) fun j hj it hit => ?_
    · rw [List.getElem?_map, List.getElem?_range hk, Option.map_some]
    · rw [List.getElem?_map, List.getElem?_range (Nat.lt_trans hj hk), Option.map_some] at hit
      cases hit
      by_contra hne
      obtain ⟨r', hr'⟩ := Option.ne_none_iff_exists'.mp hne
      exact hfirst j hj r' ((iterate_eq_some_iff h0 h).mp hr')

/-- A disconnect with a timeout of 100 ms from a peer that keeps sending, at 40 ms an iteration. -/
def busyPeer : Env := ⟨.ok (), 1000, fun k => ⟨1000 + 40 * .ofNat (min k 3), .ok 1, .ok 512⟩⟩

/-- A disconnect without one, from a peer that sends five bytes more, is silent for a while, and then ends its
stream. -/
def politePeer : Env := ⟨.ok (), 1000, fun k => ⟨1000, .ok (k % 2), .ok (if k = 1 then 5 else 0)⟩⟩

/-- The first times out, and the second succeeds. -/
theorem disconnect_verdict_busyPeer : disconnect 100 busyPeer 4 = some .timedOut ∧
    Verdict 100 busyPeer 4 .timedOut ∧ disconnect 0 politePeer 4 = some .success := by
  have hmono : busyPeer.Monotone := by
    have hstep : ∀ k ≤ 3, (1000 : UInt64) ≤ 1000 + 40 * .ofNat k ∧
        ∀ j ≤ k, (1000 + 40 * .ofNat j : UInt64) ≤ 1000 + 40 * .ofNat k := by decide
    refine ⟨fun k => (hstep _ (Nat.min_le_right k 3)).1, fun k => ?_⟩
    exact (hstep _ (Nat.min_le_right (k + 1) 3)).2 _ (by omega)
  have hrun : disconnect 100 busyPeer 4 = some .timedOut := by rfl
  have hpolite : politePeer.Monotone := ⟨fun _ => UInt64.le_refl _, fun _ => UInt64.le_refl _⟩
  have hgoes : ∀ j < 3, iterate 0 politePeer.start (politePeer.iteration j) = none := by decide
  have hzero : 0 ≤ (0 : Int32).toInt := by decide
  refine ⟨hrun, (disconnect_verdict (by decide) hmono).1 4 _ hrun, ?_⟩
  refine (disconnect_verdict hzero hpolite).2.2.2 4 3 _ rfl (by decide)
    (.finished (by decide) ⟨0, rfl⟩ rfl) fun j hj r hd => ?_
  rw [← iterate_eq_some_iff (by decide) hpolite, hgoes j hj] at hd
  cases hd

/-! ### The time that remains -/

/-- The time is over, and there is no wait, or it is not, and `select` is given what remains, in seconds and
microseconds. -/
def ExactWait (timeoutMs : Int32) (elapsed : UInt64) : Prop :=
  (timeoutMs.toInt ≤ elapsed.toNat → wait timeoutMs elapsed = none) ∧
    (elapsed.toNat < timeoutMs.toInt → ∃ tv, wait timeoutMs elapsed = some (some tv) ∧
      0 ≤ tv.tvSec.toInt ∧ 0 ≤ tv.tvUsec.toInt ∧ tv.tvUsec.toInt < 1000000 ∧
        tv.tvSec.toInt * 1000 + tv.tvUsec.toInt / 1000 = timeoutMs.toInt - elapsed.toNat)

theorem exactWait_of_pos {timeoutMs : Int32} (hpos : 0 < timeoutMs.toInt) (elapsed : UInt64) :
    ExactWait timeoutMs elapsed := by
  refine ⟨fun hle => ?_, fun hlt => ⟨timeVal timeoutMs elapsed, ?_, ?_⟩⟩
  · rw [wait, if_pos ((expired_iff (Int.le_of_lt hpos)).mpr ⟨hpos, hle⟩)]
  · have hexp : ¬ expired timeoutMs elapsed = true := fun h =>
      absurd ((expired_iff (Int.le_of_lt hpos)).mp h).2 (Int.not_le.mpr hlt)
    have hne : timeoutMs ≠ 0 := by
      rintro rfl
      exact absurd hpos (by decide)
    rw [wait, if_neg hexp, if_neg hne]
  · have hbound := timeoutMs.toInt_lt
    have hcast := toNat_ofInt (Int.le_of_lt hpos) (by omega)
    have hle : elapsed ≤ UInt64.ofInt timeoutMs.toInt := by
      rw [UInt64.le_iff_toNat_le]
      omega
    have hnew : ((UInt64.ofInt timeoutMs.toInt - elapsed).toNat : ℤ) = timeoutMs.toInt - elapsed.toNat := by
      rw [UInt64.toNat_sub_of_le _ _ hle]
      omega
    generalize hx : UInt64.ofInt timeoutMs.toInt - elapsed = x at hnew
    have hsec : (x / 1000).toNat = x.toNat / 1000 := UInt64.toNat_div ..
    have husec : (x % 1000 * 1000).toNat = x.toNat % 1000 * 1000 := by
      rw [UInt64.toNat_mul, UInt64.toNat_mod]
      exact Nat.mod_eq_of_lt (show x.toNat % 1000 * 1000 < 2 ^ 64 by omega)
    have hsec' : (timeVal timeoutMs elapsed).tvSec.toInt = (x / 1000).toNat := by
      rw [timeVal, hx]
      exact toInt_toInt32_iff.mpr (by omega)
    have husec' : (timeVal timeoutMs elapsed).tvUsec.toInt = (x % 1000 * 1000).toNat := by
      rw [timeVal, hx]
      exact toInt_toInt32_iff.mpr (by omega)
    rw [hsec', husec', hsec, husec]
    omega

/-- A negative timeout is taken for a large one. -/
theorem not_exactWait_of_neg {timeoutMs : Int32} (hneg : timeoutMs.toInt < 0) : ¬ ExactWait timeoutMs 0 := by
  intro h
  have hle := timeoutMs.le_toInt
  have hcast := toNat_ofInt_neg hneg (by omega)
  have hexp : ¬ expired timeoutMs 0 = true := by
    rw [expired, Bool.and_eq_true]
    intro ⟨_, hle'⟩
    have hzero : (UInt64.ofInt timeoutMs.toInt).toNat ≤ (0 : UInt64).toNat :=
      UInt64.le_iff_toNat_le.mp (of_decide_eq_true hle')
    rw [UInt64.toNat_zero] at hzero
    omega
  have hwait := h.1 (by simpa using Int.le_of_lt hneg)
  rw [wait, if_neg hexp] at hwait
  cases hwait

/-- **What is handed to `select` is the time that remains**, however much has passed, if and only if the
timeout is not negative. -/
theorem exactWait_iff {timeoutMs : Int32} (hne : timeoutMs ≠ 0) :
    (∀ elapsed, ExactWait timeoutMs elapsed) ↔ 0 < timeoutMs.toInt := by
  constructor
  · intro h
    by_contra hneg
    have hzero : timeoutMs.toInt ≠ 0 := mt (Int32.toInt_inj (y := 0)).mp hne
    exact not_exactWait_of_neg (by omega) (h 0)
  · exact exactWait_of_pos

/-- A timeout of 1500 ms, of which 200 ms have passed. -/
theorem exactWait_iff_1500 : ExactWait 1500 200 :=
  (exactWait_iff (by decide)).mpr (by decide) 200

/-- A timeout of -1 ms. -/
theorem not_exactWait_neg : ¬ ∀ timeoutMs : Int32, timeoutMs ≠ 0 → ∀ elapsed, ExactWait timeoutMs elapsed :=
  fun h => not_exactWait_of_neg (by decide) (h (-1) (by decide) 0)

end FirelinkNet
