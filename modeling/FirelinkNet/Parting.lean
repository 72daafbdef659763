import FirelinkNet.Disconnect
import FirelinkNet.Lib.Inevitable
import Mathlib.Data.List.Infix
import Mathlib.Algebra.BigOperators.Group.List.Basic
import Mathlib.Algebra.Order.Ring.Nat

/-!
# Both ends disconnect

A TCP connection, and at each end a program that sends and receives with `send` and `recv`, and
then calls `disconnect` and `close`. `disconnect` shuts its own direction down and reads the other
to its end: each end waits for the other.

The bytes of an end arrive in order and in pieces, and the end of its stream after them. Any call
can report an error, at any time. `select` returns 0 only when it was given a limit, and the tick
counter stands still for at most `K` such waits in a row.

## What is proved

* `whole_stream` — **`Success` means that the whole stream was read**: the peer sends no more, and
  what user code received and `disconnect` scrapped is all that it sent, in order. That is so in
  every state, whatever the ends do.
* `both_close` — **the two ends do not wait for each other for ever**: both calls return and both
  sockets are closed, whatever fails, and with `Success` when no limit was given and no call has
  reported an error.
-/

namespace FirelinkNet.Parting

open Lib Disconnect

/-! ### What an iteration reads -/

/-- The bytes that an iteration reads and drops. -/
def scraps (timeoutMs : Int32) (operationStartTime : UInt64) (it : Iteration) : ℕ :=
  match wait timeoutMs (it.tick - operationStartTime), it.select, it.recv with
  | some _, .ok (_ + 1), .ok n => n
  | _, _, _ => 0

/-- A call that it makes reports an error. -/
def reports (timeoutMs : Int32) (operationStartTime : UInt64) (it : Iteration) : Bool :=
  match wait timeoutMs (it.tick - operationStartTime), it.select, it.recv with
  | some _, .error _, _ => true
  | some _, .ok (_ + 1), .error _ => true
  | _, _, _ => false

/-- **What an iteration does**: what it decides, reads, and reports. -/
inductive Outcome (timeoutMs : Int32) (operationStartTime : UInt64) (it : Iteration) :
    Option ErrorCode → ℕ → Bool → Prop
  | expired : expired timeoutMs (it.tick - operationStartTime) = true →
      Outcome timeoutMs operationStartTime it (some .timedOut) 0 false
  | error (e : OsError) : Outcome timeoutMs operationStartTime it (some e.toErrorCode) 0 true
  | nothing : expired timeoutMs (it.tick - operationStartTime) = false → it.select = .ok 0 →
      Outcome timeoutMs operationStartTime it none 0 false
  | finished {m : ℕ} : it.select = .ok (m + 1) → it.recv = .ok 0 →
      Outcome timeoutMs operationStartTime it (some .success) 0 false
  | scrapped {m n : ℕ} : it.select = .ok (m + 1) → it.recv = .ok (n + 1) →
      Outcome timeoutMs operationStartTime it none (n + 1) false

theorem outcome (timeoutMs : Int32) (operationStartTime : UInt64) (it : Iteration) :
    Outcome timeoutMs operationStartTime it (iterate timeoutMs operationStartTime it)
      (scraps timeoutMs operationStartTime it) (reports timeoutMs operationStartTime it) := by
  unfold iterate scraps reports
  by_cases hexp : expired timeoutMs (it.tick - operationStartTime) = true
  · rw [wait, if_pos hexp]
    exact .expired hexp
  · rw [wait, if_neg hexp]
    cases hs : it.select with
    | error e => exact .error e
    | ok m =>
      cases m with
      | zero => exact .nothing (by simpa using hexp) hs
      | succ m =>
        cases hr : it.recv with
        | error e => exact .error e
        | ok n =>
          cases n with
          | zero => exact .finished hs hr
          | succ n => exact .scrapped hs hr

/-! ### The two ends -/

/-- Where an end is. -/
inductive Phase where
  /-- User code sends and receives. -/
  | talking
  /-- In the loop of `disconnect`: the tick counter when it began, and as it was last read, and the waits since
  that went up. -/
  | draining (operationStartTime tick : UInt64) (idle : ℕ)
  /-- `disconnect` has returned. -/
  | returned (r : ErrorCode)
  /-- The socket is closed, after `disconnect` returned this. -/
  | closed (r : ErrorCode)

/-- What `disconnect` has returned. -/
def Phase.result : Phase → Option ErrorCode
  | .returned r | .closed r => some r
  | _ => none

/-- An end of the connection. -/
structure End where
  /-- Where it is. -/
  phase : Phase
  /-- The timeout that `disconnect` is given. -/
  timeoutMs : Int32
  /-- The messages that user code still means to send. -/
  plan : List (List UInt8)
  /-- What it has sent. -/
  sent : List UInt8
  /-- What user code has received. -/
  received : List UInt8
  /-- What `disconnect` has read and dropped. -/
  scrapped : List UInt8
  /-- It sends no more. -/
  shut : Bool
  /-- A call that `disconnect` made has reported an error. -/
  failed : Bool

/-- What was read. -/
def End.read (e : End) : List UInt8 := e.received ++ e.scrapped

/-- The two ends. -/
structure State where
  /-- The ends. -/
  ends : Bool → End

namespace State

/-- One of them has moved on. -/
def set (s : State) (x : Bool) (e : End) : State := ⟨Function.update s.ends x e⟩

/-- Where it starts: what each end means to send, and its timeout. -/
def start (plan : Bool → List (List UInt8)) (timeoutMs : Bool → Int32) : State :=
  ⟨fun x => ⟨.talking, timeoutMs x, plan x, [], [], [], false, false⟩⟩

/-- What the peer has sent, and this end has not read. -/
def incoming (s : State) (x : Bool) : List UInt8 := (s.ends !x).sent.drop (s.ends x).read.length

/-- The calls of an iteration can return this. -/
structure Answers (s : State) (x : Bool) (it : Iteration) : Prop where
  /-- Without a limit `select` waits. -/
  wait : it.select = .ok 0 → (s.ends x).timeoutMs ≠ 0
  /-- `recv` gets the next bytes, or none at the end of the stream. -/
  recv : ∀ {m n}, it.select = .ok (m + 1) → it.recv = .ok n →
    n ≤ 512 ∧ n ≤ (s.incoming x).length ∧ (n = 0 → s.incoming x = [] ∧ (s.ends !x).shut = true)

/-- The waits since the tick counter went up, after an iteration. -/
def idleAfter (it : Iteration) (tick : UInt64) (idle : ℕ) : ℕ :=
  match it.select with
  | .ok 0 => if tick < it.tick then 0 else idle + 1
  | _ => idle

/-- Where an iteration leaves an end. -/
def iterated (s : State) (x : Bool) (start tick : UInt64) (idle : ℕ) (it : Iteration) : End :=
  { s.ends x with
    phase :=
      match iterate (s.ends x).timeoutMs start it with
      | some r => .returned r
      | none => .draining start it.tick (idleAfter it tick idle)
    scrapped := (s.ends x).scrapped ++ (s.incoming x).take (scraps (s.ends x).timeoutMs start it)
    failed := (s.ends x).failed || reports (s.ends x).timeoutMs start it }

/-- An end takes a step. -/
inductive Acts (K : ℕ) (s : State) (x : Bool) : End → Prop
  /-- User code sends the next message. -/
  | send {m : List UInt8} {ms : List (List UInt8)} : (s.ends x).phase = .talking → (s.ends x).plan = m :: ms →
      Acts K s x { s.ends x with plan := ms, sent := (s.ends x).sent ++ m }
  /-- It fails to. -/
  | skip {m : List UInt8} {ms : List (List UInt8)} : (s.ends x).phase = .talking → (s.ends x).plan = m :: ms →
      Acts K s x { s.ends x with plan := ms }
  /-- User code receives. -/
  | recv {n : ℕ} : (s.ends x).phase = .talking → 0 < n → n ≤ (s.incoming x).length →
      Acts K s x { s.ends x with received := (s.ends x).received ++ (s.incoming x).take n }
  /-- User code calls `disconnect`, and `shutdown` fails. -/
  | refused (e : OsError) : (s.ends x).phase = .talking →
      Acts K s x { s.ends x with phase := .returned e.toErrorCode, failed := true }
  /-- It does not. -/
  | shutdown (now : UInt64) : (s.ends x).phase = .talking →
      Acts K s x { s.ends x with phase := .draining now now 0, shut := true }
  /-- `disconnect` goes through its loop. -/
  | iterate {start tick : UInt64} {idle : ℕ} (it : Iteration) : (s.ends x).phase = .draining start tick idle →
      tick ≤ it.tick → (it.select = .ok 0 → tick < it.tick ∨ idle < K) → s.Answers x it →
      Acts K s x (s.iterated x start tick idle it)
  /-- User code closes the socket. -/
  | close {r : ErrorCode} : (s.ends x).phase = .returned r →
      Acts K s x { s.ends x with phase := .closed r, shut := true }

/-- What can happen. -/
inductive Moves (K : ℕ) (s : State) : State → Prop
  | act {x : Bool} {e : End} : s.Acts K x e → Moves K s (s.set x e)

/-- An end goes on by itself; one that is in the loop, when there is something to read, or it has a limit. -/
def Ripe (s : State) (x : Bool) : Prop :=
  match (s.ends x).phase with
  | .draining _ _ _ => s.incoming x ≠ [] ∨ (s.ends !x).shut = true ∨ (s.ends x).timeoutMs ≠ 0
  | _ => True

/-- What happens in the end. -/
inductive Due (K : ℕ) (s : State) : State → Prop
  | act {x : Bool} {e : End} : s.Ripe x → s.Acts K x e → Due K s (s.set x e)

/-- The states that are reached. -/
def Reach (K : ℕ) (plan : Bool → List (List UInt8)) (timeoutMs : Bool → Int32) : State → Prop :=
  Relation.ReflTransGen (Moves K) (start plan timeoutMs)

end State

/-! ### What holds in every state -/

variable {K : ℕ} {s s' : State} {x : Bool} {e p : End} {plan : Bool → List (List UInt8)} {timeoutMs : Bool → Int32}

/-- An end fits its peer `p`: it has read a part of what that has sent, and all of it when `disconnect` returned
`Success`. -/
structure Fits (K : ℕ) (e p : End) : Prop where
  talking : e.phase = .talking → e.scrapped = [] ∧ e.shut = false
  draining : ∀ {start tick idle}, e.phase = .draining start tick idle → e.shut = true ∧ start ≤ tick ∧ idle ≤ K
  closed : ∀ {r}, e.phase = .closed r → e.shut = true
  read : e.read <+: p.sent
  success : e.phase.result = some .success → p.shut = true ∧ e.read = p.sent
  result : ∀ {r}, e.phase.result = some r → r = .success ∨ e.timeoutMs ≠ 0 ∨ e.failed = true

theorem State.idleAfter_nothing {it : Iteration} {tick : UInt64} {idle : ℕ} (h : it.select = .ok 0) :
    idleAfter it tick idle = if tick < it.tick then 0 else idle + 1 := by
  rw [idleAfter, h]
  rfl

theorem State.idleAfter_something {it : Iteration} {tick : UInt64} {idle m : ℕ} (h : it.select = .ok (m + 1)) :
    idleAfter it tick idle = idle := by
  rw [idleAfter, h]
  rfl

/-- The next bytes. -/
theorem append_take_prefix {r t : List UInt8} (h : r <+: t) (n : ℕ) : r ++ (t.drop r.length).take n <+: t := by
  obtain ⟨l, rfl⟩ := h
  rw [List.drop_left, List.prefix_append_right_inj]
  exact List.take_prefix n l

/-- Nothing is to come. -/
theorem eq_of_drop_eq_nil {r t : List UInt8} (h : r <+: t) (hnil : t.drop r.length = []) : r = t := by
  obtain ⟨l, rfl⟩ := h
  rw [List.drop_left] at hnil
  rw [hnil, List.append_nil]

/-- What a step does to what the peer sees. -/
theorem State.Acts.seen (hf : Fits K (s.ends x) p) (h : s.Acts K x e) :
    (s.ends x).sent <+: e.sent ∧ ((s.ends x).shut = true → e.shut = true ∧ e.sent = (s.ends x).sent) := by
  cases h with
  | @send m ms hphase hplan =>
    refine ⟨List.prefix_append .., fun hshut => ?_⟩
    rw [(hf.talking hphase).2] at hshut
    cases hshut
  | shutdown now hphase => exact ⟨List.prefix_rfl, fun _ => ⟨rfl, rfl⟩⟩
  | close hphase => exact ⟨List.prefix_rfl, fun _ => ⟨rfl, rfl⟩⟩
  | _ => exact ⟨List.prefix_rfl, fun hshut => ⟨hshut, rfl⟩⟩

/-- **The peer still fits.** -/
theorem Fits.peer (hf : Fits K (s.ends x) p) (hp : Fits K p (s.ends x)) (h : s.Acts K x e) : Fits K p e := by
  obtain ⟨hsent, hshut⟩ := h.seen hf
  refine { hp with read := hp.read.trans hsent, success := fun hr => ?_ }
  obtain ⟨hs, hread⟩ := hp.success hr
  obtain ⟨hs', hsame⟩ := hshut hs
  exact ⟨hs', hsame ▸ hread⟩

/-- An iteration of the loop. -/
theorem Fits.iterated {start tick : UInt64} {idle : ℕ} {it : Iteration} (hf : Fits K (s.ends x) (s.ends !x))
    (hphase : (s.ends x).phase = .draining start tick idle) (htick : tick ≤ it.tick)
    (hidle : it.select = .ok 0 → tick < it.tick ∨ idle < K) (ha : s.Answers x it) :
    Fits K (s.iterated x start tick idle it) (s.ends !x) := by
  obtain ⟨hshut, hstart, hle⟩ := hf.draining hphase
  have hread : ∀ n, (s.ends x).received ++ ((s.ends x).scrapped ++ (s.incoming x).take n) <+: (s.ends !x).sent := by
    intro n
    rw [← List.append_assoc]
    exact append_take_prefix hf.read n
  have hout := outcome (s.ends x).timeoutMs start it
  unfold State.iterated
  generalize hr : iterate (s.ends x).timeoutMs start it = r at hout
  generalize scraps (s.ends x).timeoutMs start it = n at hout
  generalize reports (s.ends x).timeoutMs start it = f at hout
  cases hout with
  | expired hexp =>
    refine ⟨nofun, nofun, nofun, hread 0, fun h => ?_, fun _ => .inr (.inl ?_)⟩
    · exact absurd (Option.some.inj h) (by decide)
    · simpa using (Bool.and_eq_true_iff.mp hexp).1
  | error e =>
    refine ⟨nofun, nofun, nofun, hread 0, fun h => ?_, fun _ => .inr (.inr (Bool.or_true _))⟩
    exact absurd (Option.some.inj h) e.toErrorCode_ne
  | nothing hexp hs =>
    refine ⟨nofun, fun h => ?_, nofun, hread 0, nofun, nofun⟩
    cases h
    refine ⟨hshut, UInt64.le_trans hstart htick, ?_⟩
    rw [State.idleAfter_nothing hs]
    split
    · exact Nat.zero_le K
    · rename_i hlt
      exact (hidle hs).resolve_left hlt
  | @finished m hs hrecv =>
    obtain ⟨-, -, hend⟩ := ha.recv hs hrecv
    obtain ⟨hnil, hpeer⟩ := hend rfl
    refine ⟨nofun, nofun, nofun, hread 0, fun _ => ⟨hpeer, ?_⟩, fun h => .inl (Option.some.inj h).symm⟩
    rw [End.read, List.take_zero, List.append_nil]
    exact eq_of_drop_eq_nil hf.read hnil
  | @scrapped m n hs hrecv =>
    refine ⟨nofun, fun h => ?_, nofun, hread (n + 1), nofun, nofun⟩
    cases h
    refine ⟨hshut, UInt64.le_trans hstart htick, ?_⟩
    rw [State.idleAfter_something hs]
    exact hle

/-- **An end fits its peer after each step.** -/
theorem Fits.act (hf : Fits K (s.ends x) (s.ends !x)) (h : s.Acts K x e) : Fits K e (s.ends !x) := by
  have hno : ∀ {r : ErrorCode}, (s.ends x).phase = .talking → (s.ends x).phase.result ≠ some r := by
    intro r hphase hr
    rw [hphase] at hr
    cases hr
  cases h with
  | send hphase _ => exact ⟨hf.talking, hf.draining, hf.closed, hf.read, hf.success, hf.result⟩
  | skip hphase _ => exact ⟨hf.talking, hf.draining, hf.closed, hf.read, hf.success, hf.result⟩
  | @recv n hphase hpos hle =>
    have hnil := (hf.talking hphase).1
    refine ⟨hf.talking, hf.draining, hf.closed, ?_, fun hr => absurd hr (hno hphase), hf.result⟩
    have hread : (s.ends x).read = (s.ends x).received := by rw [End.read, hnil, List.append_nil]
    show ((s.ends x).received ++ (s.incoming x).take n) ++ (s.ends x).scrapped <+: _
    rw [hnil, List.append_nil, ← hread]
    exact append_take_prefix hf.read n
  | refused e hphase =>
    refine ⟨nofun, nofun, nofun, hf.read, fun h => ?_, fun _ => .inr (.inr rfl)⟩
    exact absurd (Option.some.inj h) e.toErrorCode_ne
  | shutdown now hphase =>
    refine ⟨nofun, fun h => ?_, nofun, hf.read, nofun, nofun⟩
    cases h
    exact ⟨rfl, UInt64.le_refl _, Nat.zero_le K⟩
  | iterate it hphase htick hidle ha => exact hf.iterated hphase htick hidle ha
  | @close r hphase =>
    have hresult : (s.ends x).phase.result = some r := by
      rw [hphase]
      rfl
    refine ⟨nofun, nofun, fun _ => rfl, hf.read, fun h => ?_, fun h => ?_⟩
    · exact hf.success (hresult.trans h)
    · exact hf.result (hresult.trans h)

namespace State

@[simp] theorem set_self : (s.set x e).ends x = e := Function.update_self ..

@[simp] theorem set_peer : (s.set x e).ends (!x) = s.ends !x := Function.update_of_ne (by cases x <;> decide) ..

/-- Each end fits the other. -/
def Fit (K : ℕ) (s : State) : Prop := ∀ x, Fits K (s.ends x) (s.ends !x)

theorem Fit.moves (hs : s.Fit K) (h : s.Moves K s') : s'.Fit K := by
  obtain @⟨x, e, h⟩ := h
  intro y
  have hy : y = x ∨ y = !x := by cases x <;> cases y <;> decide
  rcases hy with rfl | rfl
  · rw [set_self, set_peer]
    exact (hs _).act h
  · have hpeer := hs !x
    rw [Bool.not_not] at hpeer ⊢
    rw [set_self, set_peer]
    exact (hs x).peer hpeer h

theorem Fit.start : (start plan timeoutMs).Fit K :=
  fun _ => ⟨fun _ => ⟨rfl, rfl⟩, nofun, nofun, List.nil_prefix, nofun, nofun⟩

/-! ### No run goes on for ever -/

/-- The limit, as the loop reads it. -/
def limit (timeoutMs : Int32) : ℕ := (UInt64.ofInt timeoutMs.toInt).toNat

/-- What an end can still do of itself. -/
def left (K : ℕ) (timeoutMs : Int32) : Phase → ℕ
  | .talking => (K + 1) * limit timeoutMs + K + 3
  | .draining start tick idle => (K + 1) * (start.toNat + limit timeoutMs - tick.toNat) + (K - idle) + 2
  | .returned _ => 1
  | .closed _ => 0

/-- The bytes of the messages, and the messages. -/
def planned (ms : List (List UInt8)) : ℕ := (ms.map fun m => m.length + 1).sum

/-- What is left of it, with what an end means to send. -/
def rankOf (K : ℕ) (e : End) : ℕ := planned e.plan + left K e.timeoutMs e.phase

/-- What is left of it all, with the bytes on their way. -/
def rank (K : ℕ) (s : State) : ℕ :=
  rankOf K (s.ends false) + rankOf K (s.ends true) + (s.incoming false).length + (s.incoming true).length

theorem left_draining (K : ℕ) (timeout : Int32) (start tick : UInt64) (idle : ℕ) :
    left K timeout (.draining start tick idle) =
      (K + 1) * (start.toNat + limit timeout - tick.toNat) + (K - idle) + 2 := rfl

theorem lt_limit {timeout : Int32} {start tick : UInt64} (hexp : expired timeout (tick - start) = false)
    (hne : timeout ≠ 0) (hle : start ≤ tick) : tick.toNat < start.toNat + limit timeout := by
  have hlt : (tick - start).toNat < limit timeout := by
    by_contra hge
    have hexp' : expired timeout (tick - start) = true := by
      rw [expired, Bool.and_eq_true]
      exact ⟨by simpa using hne, decide_eq_true (UInt64.le_iff_toNat_le.mpr (Nat.le_of_not_lt hge))⟩
    rw [hexp] at hexp'
    cases hexp'
  rw [UInt64.toNat_sub_of_le _ _ hle] at hlt
  omega

/-- A wait that brings nothing takes time, or one of those in which the tick counter may stand still. -/
theorem left_nothing {timeout : Int32} {start tick : UInt64} {idle : ℕ} {it : Iteration}
    (hexp : expired timeout (it.tick - start) = false) (hne : timeout ≠ 0) (hstart : start ≤ tick)
    (htick : tick ≤ it.tick) (hs : it.select = .ok 0) (hidle : tick < it.tick ∨ idle < K) (hle : idle ≤ K) :
    left K timeout (.draining start it.tick (idleAfter it tick idle)) < left K timeout (.draining start tick idle) := by
  have hlt := lt_limit hexp hne (UInt64.le_trans hstart htick)
  rw [idleAfter_nothing hs, left_draining, left_draining]
  by_cases hup : tick < it.tick
  · have hup' : tick.toNat < it.tick.toNat := UInt64.lt_iff_toNat_lt.mp hup
    have hmul := Nat.mul_le_mul_left (K + 1)
      (show start.toNat + limit timeout - it.tick.toNat + 1 ≤ start.toNat + limit timeout - tick.toNat by omega)
    rw [Nat.mul_add, Nat.mul_one] at hmul
    rw [if_pos hup]
    omega
  · have hsame : it.tick = tick := UInt64.le_antisymm (UInt64.not_lt.mp hup) htick
    have hlt' := hidle.resolve_left hup
    rw [if_neg hup, hsame]
    omega

theorem left_something (K : ℕ) (timeout : Int32) (start : UInt64) (idle : ℕ) {tick tick' : UInt64} (h : tick ≤ tick') :
    left K timeout (.draining start tick' idle) ≤ left K timeout (.draining start tick idle) := by
  have hle : tick.toNat ≤ tick'.toNat := UInt64.le_iff_toNat_le.mp h
  have hmul := Nat.mul_le_mul_left (K + 1)
    (show start.toNat + limit timeout - tick'.toNat ≤ start.toNat + limit timeout - tick.toNat by omega)
  rw [left_draining, left_draining]
  omega

/-- An iteration leaves less to do, or has read something. -/
theorem left_iterated {start tick : UInt64} {idle : ℕ} {it : Iteration} (hf : Fits K (s.ends x) (s.ends !x))
    (hphase : (s.ends x).phase = .draining start tick idle) (htick : tick ≤ it.tick)
    (hidle : it.select = .ok 0 → tick < it.tick ∨ idle < K) (ha : s.Answers x it) :
    left K (s.ends x).timeoutMs (s.iterated x start tick idle it).phase + (s.ends x).read.length <
      left K (s.ends x).timeoutMs (s.ends x).phase + (s.iterated x start tick idle it).read.length := by
  obtain ⟨-, hstart, hle⟩ := hf.draining hphase
  have hread : (s.iterated x start tick idle it).read.length =
      (s.ends x).read.length + min (scraps (s.ends x).timeoutMs start it) (s.incoming x).length := by
    simp only [End.read, iterated, List.length_append, List.length_take, Nat.add_assoc]
  have hone : ∀ r, left K (s.ends x).timeoutMs (.returned r) < left K (s.ends x).timeoutMs (.draining start tick idle) :=
    fun r => Nat.lt_of_lt_of_le Nat.one_lt_two (Nat.le_add_left ..)
  rw [hphase, hread]
  have hout := outcome (s.ends x).timeoutMs start it
  unfold iterated
  generalize hr : iterate (s.ends x).timeoutMs start it = r at hout
  generalize scraps (s.ends x).timeoutMs start it = n at hout
  generalize reports (s.ends x).timeoutMs start it = f at hout
  cases hout with
  | expired hexp =>
    have := hone .timedOut
    show left K _ (.returned _) + _ < _
    omega
  | error e =>
    have := hone e.toErrorCode
    show left K _ (.returned _) + _ < _
    omega
  | nothing hexp hs =>
    have := left_nothing hexp (ha.wait hs) hstart htick hs (hidle hs) hle
    show left K _ (.draining _ _ _) + _ < _
    omega
  | finished hs hrecv =>
    have := hone .success
    show left K _ (.returned _) + _ < _
    omega
  | @scrapped m n hs hrecv =>
    have hlen := (ha.recv hs hrecv).2.1
    have hmin : min (n + 1) (s.incoming x).length = n + 1 := Nat.min_eq_left hlen
    have := left_something K (s.ends x).timeoutMs start idle htick
    show left K _ (.draining _ _ _) + _ < _
    rw [idleAfter_something hs]
    omega

/-- An end that only went on to another phase has less to do when that is so of the phase. -/
theorem rankOf_lt_of_left {q : End} (hplan : e.plan = q.plan) (htime : e.timeoutMs = q.timeoutMs) (hsent : e.sent = q.sent)
    (hread : e.read = q.read) (h : left K q.timeoutMs e.phase < left K q.timeoutMs q.phase) :
    rankOf K e + e.sent.length + q.read.length < rankOf K q + q.sent.length + e.read.length := by
  rw [rankOf, rankOf, hplan, htime, hsent, hread]
  omega

theorem planned_cons (m : List UInt8) (ms : List (List UInt8)) : planned (m :: ms) = m.length + 1 + planned ms := by
  rw [planned, List.map_cons, List.sum_cons]
  rfl

/-- What a step leaves: less to do, counting what it sends for what it has to do, and what it reads for done. -/
theorem Acts.rank (hf : Fits K (s.ends x) (s.ends !x)) (h : s.Acts K x e) :
    rankOf K e + e.sent.length + (s.ends x).read.length <
      rankOf K (s.ends x) + (s.ends x).sent.length + e.read.length := by
  have htalk : (s.ends x).phase = .talking →
      left K (s.ends x).timeoutMs (s.ends x).phase = (K + 1) * limit (s.ends x).timeoutMs + K + 3 := by
    intro hphase
    rw [hphase]
    rfl
  cases h with
  | @send m ms hphase hplan =>
    show planned ms + left K (s.ends x).timeoutMs (s.ends x).phase + ((s.ends x).sent ++ m).length +
      (s.ends x).read.length < _ + _ + (s.ends x).read.length
    rw [rankOf, hplan, planned_cons, List.length_append]
    omega
  | @skip m ms hphase hplan =>
    show planned ms + left K (s.ends x).timeoutMs (s.ends x).phase + (s.ends x).sent.length +
      (s.ends x).read.length < _ + _ + (s.ends x).read.length
    rw [rankOf, hplan, planned_cons]
    omega
  | @recv n hphase hpos hle =>
    have hlen : ((s.ends x).received ++ (s.incoming x).take n ++ (s.ends x).scrapped).length =
        (s.ends x).read.length + n := by
      rw [End.read, List.length_append, List.length_append, List.length_append, List.length_take,
        Nat.min_eq_left hle]
      omega
    show rankOf K (s.ends x) + (s.ends x).sent.length + _ <
      _ + _ + ((s.ends x).received ++ (s.incoming x).take n ++ (s.ends x).scrapped).length
    rw [hlen]
    omega
  | refused e hphase =>
    refine rankOf_lt_of_left rfl rfl rfl rfl ?_
    rw [htalk hphase]
    show 1 < _
    omega
  | shutdown now hphase =>
    refine rankOf_lt_of_left rfl rfl rfl rfl ?_
    rw [htalk hphase, left_draining, Nat.add_sub_cancel_left]
    omega
  | iterate it hphase htick hidle ha =>
    have hlt := left_iterated hf hphase htick hidle ha
    show planned (s.ends x).plan + left K (s.ends x).timeoutMs _ + (s.ends x).sent.length + _ < _
    rw [rankOf]
    omega
  | close hphase =>
    refine rankOf_lt_of_left rfl rfl rfl rfl ?_
    rw [hphase]
    exact Nat.zero_lt_one

/-- **Every step leaves less to come.** -/
theorem Moves.rank (hs : s.Fit K) (h : s.Moves K s') : s'.rank K < s.rank K := by
  obtain @⟨x, e, h⟩ := h
  have hlt := h.rank (hs x)
  have hread : e.read.length ≤ (s.ends !x).sent.length := ((hs x).act h).read.length_le
  have hpeer := (hs !x).read.length_le
  obtain ⟨hsent, -⟩ := h.seen (hs x)
  have hsent := hsent.length_le
  have hself : (s.set x e).ends x = e := set_self
  have hother : (s.set x e).ends (!x) = s.ends !x := set_peer
  cases x with
  | false =>
    simp only [Bool.not_false, Bool.not_true] at hread hpeer hother
    simp only [State.rank, incoming, List.length_drop, Bool.not_false, Bool.not_true, hself, hother]
    omega
  | true =>
    simp only [Bool.not_false, Bool.not_true] at hread hpeer hother
    simp only [State.rank, incoming, List.length_drop, Bool.not_false, Bool.not_true, hself, hother]
    omega

/-! ### Where it ends -/

/-- Both sockets are closed, and `disconnect` has returned `Success` where it was given no limit and no call
reported an error. -/
def Ended (s : State) : Prop :=
  ∀ x, ∃ r, (s.ends x).phase = .closed r ∧ (r = .success ∨ (s.ends x).timeoutMs ≠ 0 ∨ (s.ends x).failed = true)

/-- An end that goes on by itself can. -/
theorem exists_acts (hx : ∀ r, (s.ends x).phase ≠ .closed r) : ∃ e, s.Acts K x e := by
  cases hphase : (s.ends x).phase with
  | talking => exact ⟨_, .shutdown 0 hphase⟩
  | draining start tick idle =>
    refine ⟨_, .iterate ⟨tick, .error .noBufs, .error .noBufs⟩ hphase (UInt64.le_refl tick) (by rintro ⟨⟩) ?_⟩
    exact ⟨by rintro ⟨⟩, by rintro m n ⟨⟩⟩
  | returned r => exact ⟨_, .close hphase⟩
  | closed r => exact absurd hphase (hx r)

/-- **Where nothing is due, both are closed**: an end that waits for the other has shut its own direction. -/
theorem Fit.ended (hs : s.Fit K) (h : ∀ s', ¬ s.Due K s') : s.Ended := by
  have hripe : ∀ x, (∀ r, (s.ends x).phase ≠ .closed r) → ¬ s.Ripe x := by
    intro x hx hripe
    obtain ⟨e, ha⟩ := exists_acts (K := K) hx
    exact h _ (.act hripe ha)
  have hclosed : ∀ x, ∃ r, (s.ends x).phase = .closed r := by
    intro x
    by_contra hne
    have hx : ∀ r, (s.ends x).phase ≠ .closed r := fun r hr => hne ⟨r, hr⟩
    have hnot := hripe x hx
    unfold Ripe at hnot
    have hshut : (s.ends !x).shut = false := by
      split at hnot
      · exact Bool.eq_false_iff.mpr fun hp => hnot (.inr (.inl hp))
      · exact (hnot trivial).elim
    have hpeer : ∀ r, (s.ends !x).phase ≠ .closed r := by
      intro r hr
      have := (hs !x).closed hr
      rw [hshut] at this
      cases this
    have hnot' := hripe (!x) hpeer
    unfold Ripe at hnot'
    split at hnot'
    · rename_i hphase
      have := ((hs !x).draining hphase).1
      rw [hshut] at this
      cases this
    · exact hnot' trivial
  intro x
  obtain ⟨r, hr⟩ := hclosed x
  exact ⟨r, hr, (hs x).result (by rw [hr]; rfl)⟩

end State

/-! ### The results -/

/-- **`Success` means that the whole stream was read**: in every state, where `disconnect` has returned it, the peer
sends no more, and what was received and scrapped is all that it has sent; and what user code has received is always
the beginning of that. -/
theorem whole_stream (h : State.Reach K plan timeoutMs s) :
    (∀ x, (s.ends x).phase.result = some .success →
      (s.ends !x).shut = true ∧ (s.ends x).received ++ (s.ends x).scrapped = (s.ends !x).sent) ∧
      ∀ x, (s.ends x).received <+: (s.ends !x).sent := by
  have hs : s.Fit K := by
    induction h with
    | refl => exact .start
    | tail _ hstep ih => exact ih.moves hstep
  exact ⟨fun x => (hs x).success, fun x => (List.prefix_append ..).trans (hs x).read⟩

/-- One end sends two bytes and disconnects; the other has disconnected before, and scraps them. -/
theorem whole_stream_scrapped : ∃ s, State.Reach 0 (fun x => if x then [[104, 105]] else []) (fun _ => 0) s ∧
    (s.ends false).phase.result = some .success ∧ (s.ends false).scrapped = [104, 105] ∧
      (s.ends true).shut = true ∧ (s.ends false).received ++ (s.ends false).scrapped = (s.ends true).sent := by
  have hshut : State.Reach 0 (fun x => if x then [[104, 105]] else []) (fun _ => 0) _ :=
    .single (.act (.shutdown (x := false) 0 rfl))
  have hsend := hshut.tail (.act (.send (x := true) (m := [104, 105]) rfl rfl))
  have hread := hsend.tail (.act (.iterate (x := false) ⟨0, .ok 1, .ok 2⟩ rfl (UInt64.le_refl _) (by rintro ⟨⟩)
    ⟨by rintro ⟨⟩, by rintro m n - ⟨⟩; decide⟩))
  have hshut' := hread.tail (.act (.shutdown (x := true) 0 rfl))
  have hend := hshut'.tail (.act (.iterate (x := false) ⟨0, .ok 1, .ok 0⟩ rfl (UInt64.le_refl _) (by rintro ⟨⟩)
    ⟨by rintro ⟨⟩, by rintro m n - ⟨⟩; decide⟩))
  exact ⟨_, hend, rfl, rfl, (whole_stream hend).1 false rfl⟩

/-- **The two ends do not wait for each other for ever.** -/
theorem both_close (K : ℕ) (plan : Bool → List (List UInt8)) (timeoutMs : Bool → Int32) :
    Inevitable (State.Moves K) (State.Due K) State.Ended (.start plan timeoutMs) :=
  .of_measure (I := State.Fit K) (State.rank K) (fun hs h => ⟨hs.moves h, h.rank hs⟩) (fun hs h => hs.ended h) .start

end FirelinkNet.Parting
