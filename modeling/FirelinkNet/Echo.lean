import FirelinkNet.Types
import Mathlib.Algebra.BigOperators.Group.List.Basic
import Mathlib.Algebra.Order.Ring.Nat
import Mathlib.Logic.Function.Basic
import Mathlib.Logic.Relation

/-!
# The echo programs

`async_echo_client.cpp` and `async_echo_server.cpp`, from where `main` has started the first
operation and is in `run`: the client connects, the server accepts, and what comes after is done
by the handlers, in the threads of the pools. A handler starts operations, one after another; when
one is refused it calls `stop_io_context` and returns. When `main` comes out of `run` it closes its
socket.

Between the two is a TCP connection: the bytes of a side arrive in order, in pieces of any size,
and the end of its stream after them. Any operation can fail at any time, and complete in any
order; handlers run side by side. A handler that is late may find the socket closed, and is
refused. The library calls the handler of each operation once.

## What is proved

* `echo_in_turn` — **each side has at most one receive in flight**, in every state; the client sends
  one message; the server answers each piece that it receives with one, and the client ends the
  connection only when it has an answer.
-/

namespace FirelinkNet.Echo

/-- The size of the buffer of either program, and of each message. -/
def bufferSize : ℕ := 512

/-- The two programs. -/
inductive Side where
  | client
  | server
  deriving DecidableEq

/-- The other one. -/
def Side.peer : Side → Side
  | .client => .server
  | .server => .client

/-- An operation. -/
inductive Kind where
  | connect
  | accept
  | recv
  | send
  | disconnect
  deriving DecidableEq

/-- What a handler does. -/
inductive Step where
  /-- It calls a `start_…` function; when that fails it calls `stop_io_context` and returns. -/
  | start (k : Kind)
  /-- It calls `stop_io_context`. -/
  | stop
  deriving DecidableEq

/-! ### The handlers -/

/-- `on_recv_complete` of a program that answers what it receives with `reply`. -/
def onRecv (reply : Kind) (error : ErrorCode) (bytesTransferred : Int32) : List Step :=
  if error ≠ .success then [.stop]
  else if bytesTransferred < 0 then [.stop]
  else if bytesTransferred = 0 then [.stop]
  else [.start reply, .start .recv]

/-- A handler that only looks at the error. -/
def onDone (error : ErrorCode) : List Step := if error ≠ .success then [.stop] else []

namespace Client

/-- `on_connect_complete`. -/
def onConnectComplete (error : ErrorCode) : List Step :=
  if error ≠ .success then [.stop] else [.start .send, .start .recv]

/-- `on_send_complete`. -/
def onSendComplete (error : ErrorCode) : List Step := onDone error

/-- `on_recv_complete`. -/
def onRecvComplete (error : ErrorCode) (bytesTransferred : Int32) : List Step :=
  onRecv .disconnect error bytesTransferred

/-- `on_disconnect_complete`. -/
def onDisconnectComplete (error : ErrorCode) : List Step := onDone error

end Client

namespace Server

/-- `on_accept_complete`. -/
def onAcceptComplete (error : ErrorCode) : List Step := if error ≠ .success then [.stop] else [.start .recv]

/-- `on_send_complete`. -/
def onSendComplete (error : ErrorCode) : List Step := onDone error

/-- `on_recv_complete`. -/
def onRecvComplete (error : ErrorCode) (bytesTransferred : Int32) : List Step :=
  onRecv .send error bytesTransferred

end Server

/-- The handler of an operation. A side has no handler for what it does not start. -/
def handler : Side → Kind → ErrorCode → Int32 → List Step
  | .client, .connect, e, _ => Client.onConnectComplete e
  | .client, .send, e, _ => Client.onSendComplete e
  | .client, .recv, e, n => Client.onRecvComplete e n
  | .client, .disconnect, e, _ => Client.onDisconnectComplete e
  | .server, .accept, e, _ => Server.onAcceptComplete e
  | .server, .send, e, _ => Server.onSendComplete e
  | .server, .recv, e, n => Server.onRecvComplete e n
  | _, _, e, _ => onDone e

/-! ### The two parties -/

/-- A program at work. -/
structure Party where
  /-- The operations that are in flight. -/
  pending : List Kind
  /-- What is left to do of the handlers that were called. -/
  active : List (List Step)
  /-- `stop_io_context` was called. -/
  stopped : Bool
  /-- `main` has closed the socket. -/
  closed : Bool
  /-- It sends no more: by `DisconnectEx`, or since the socket is closed. -/
  shut : Bool
  /-- The bytes that it has sent, and received. -/
  sent : ℕ
  got : ℕ
  /-- The receives that brought some. -/
  pieces : ℕ

namespace Party

variable (p : Party)

/-- Of the `j`-th handler `h` is left. -/
def goOn (j : ℕ) (h : List Step) : Party := { p with active := p.active.set j h }

/-- A `start_…` function was successful. -/
def launch (k : Kind) : Party :=
  { p with
    pending := k :: p.pending
    sent := if k = .send then p.sent + bufferSize else p.sent
    shut := p.shut || k = .disconnect }

/-- An operation completes, and its handler is called. -/
def complete (x : Side) (k : Kind) (e : ErrorCode) (n : Int32) : Party :=
  { p with
    pending := p.pending.erase k
    active := handler x k e n :: p.active
    got := if k = .recv ∧ e = .success then p.got + n.toInt.toNat else p.got
    pieces := if k = .recv ∧ e = .success ∧ n ≠ 0 then p.pieces + 1 else p.pieces }

/-- `stop_io_context`. -/
def stop : Party := { p with stopped := true }

/-- `main` comes out of `run`, and closes the socket. -/
def close : Party := { p with closed := true, shut := true }

end Party

/-- The two programs, and whether there is a connection. -/
structure State where
  /-- The programs. -/
  party : Side → Party
  /-- There is a connection. -/
  connected : Bool

namespace State

/-- One of them has moved on. -/
def set (s : State) (x : Side) (p : Party) : State := { s with party := Function.update s.party x p }

/-- Where it starts: the client is connecting, and the server is waiting for it. -/
def start : State where
  party
    | .client => ⟨[.connect], [], false, false, false, 0, 0, 0⟩
    | .server => ⟨[.accept], [], false, false, false, 0, 0, 0⟩
  connected := false

/-- The bytes on their way to a side. -/
def transit (s : State) (x : Side) : ℕ := (s.party x.peer).sent - (s.party x).got

/-- An operation can succeed so: a receive gets the next bytes of the stream, or none at its end. -/
def Succeeds (s : State) (x : Side) : Kind → Int32 → Prop
  | .recv, n => 0 ≤ n.toInt ∧ n.toInt ≤ bufferSize ∧ n.toInt ≤ s.transit x ∧
    (n = 0 → s.transit x = 0 ∧ (s.party x.peer).shut = true)
  | .connect, _ | .accept, _ => s.connected = true
  | .send, _ | .disconnect, _ => True

/-- An operation completes in the end: a receive, when something has arrived or the socket is closed. -/
def Ripe (s : State) (x : Side) : Kind → Prop
  | .recv => 0 < s.transit x ∨ (s.party x.peer).shut = true ∨ (s.party x).closed = true
  | .accept => s.connected = true ∨ (s.party x).closed = true
  | .connect | .send | .disconnect => True

/-- A program takes a step: a handler, or `main`. -/
inductive Acts (s : State) (x : Side) : Party → Prop
  /-- A handler calls `stop_io_context`. -/
  | stop {j : ℕ} {h : List Step} : (s.party x).active[j]? = some (.stop :: h) →
      Acts s x ((s.party x).goOn j h).stop
  /-- It starts an operation. -/
  | start {j : ℕ} {k : Kind} {h : List Step} : (s.party x).active[j]? = some (.start k :: h) →
      (s.party x).closed = false → Acts s x (((s.party x).goOn j h).launch k)
  /-- It is refused. (On a socket that is closed the library calls `StartThreadpoolIo` with a null pointer before
  Winsock refuses: that misuse is modelled as a refusal too.) -/
  | refused {j : ℕ} {k : Kind} {h : List Step} : (s.party x).active[j]? = some (.start k :: h) →
      Acts s x ((s.party x).goOn j [.stop])
  /-- `main` closes the socket. -/
  | close : (s.party x).stopped = true → (s.party x).closed = false → Acts s x (s.party x).close

/-- An operation completes. -/
inductive Completes (s : State) (x : Side) (k : Kind) : Party → Prop
  | intro {e : ErrorCode} {n : Int32} : k ∈ (s.party x).pending → (e = .success → s.Succeeds x k n) →
      Completes s x k ((s.party x).complete x k e n)

/-- What can happen. -/
inductive Moves (s : State) : State → Prop
  /-- The connection is made. -/
  | handshake : .connect ∈ (s.party .client).pending → s.connected = false →
      Moves s { s with connected := true }
  | act {x : Side} {p : Party} : s.Acts x p → Moves s (s.set x p)
  | complete {x : Side} {k : Kind} {p : Party} : s.Completes x k p → Moves s (s.set x p)

/-- What happens in the end. -/
inductive Due (s : State) : State → Prop
  | act {x : Side} {p : Party} : s.Acts x p → Due s (s.set x p)
  | complete {x : Side} {k : Kind} {p : Party} : s.Ripe x k → s.Completes x k p → Due s (s.set x p)

/-- The states that are reached. -/
def Reach : State → Prop := Relation.ReflTransGen Moves .start

end State

/-! ### What a party has before it -/

namespace Party

variable {p : Party} {g : Kind → ℕ} {f : Step → ℕ} {j : ℕ} {st : Step} {h : List Step} {k : Kind}

/-- What a party has before it: the operations in flight count by `g`, and what is left of the handlers by `f`. -/
def load (g : Kind → ℕ) (f : Step → ℕ) (p : Party) : ℕ :=
  (p.pending.map g).sum + (p.active.map fun h => (h.map f).sum).sum

theorem sum_map_set {α : Type} {l : List α} {a : α} (f : α → ℕ) (b : α) (ha : l[j]? = some a) :
    ((l.set j b).map f).sum + f a = (l.map f).sum + f b := by
  induction l generalizing j with
  | nil => cases ha
  | cons c l ih =>
    cases j with
    | zero =>
      cases ha
      simp only [List.set_cons_zero, List.map_cons, List.sum_cons]
      omega
    | succ j =>
      have := ih (j := j) ha
      simp only [List.set_cons_succ, List.map_cons, List.sum_cons]
      omega

theorem load_goOn (g : Kind → ℕ) (f : Step → ℕ) (hj : p.active[j]? = some (st :: h)) :
    (p.goOn j h).load g f + f st = p.load g f := by
  have hset := sum_map_set (fun h => (h.map f).sum) h hj
  simp only [List.map_cons, List.sum_cons] at hset
  show (p.pending.map g).sum + ((p.active.set j h).map fun h => (h.map f).sum).sum + f st = _
  unfold load
  omega

theorem load_refused (g : Kind → ℕ) (f : Step → ℕ) (hj : p.active[j]? = some (st :: h)) :
    (p.goOn j [.stop]).load g f + f st + (h.map f).sum = p.load g f + f .stop := by
  have hset := sum_map_set (fun h => (h.map f).sum) [.stop] hj
  simp only [List.map_cons, List.sum_cons, List.map_nil, List.sum_nil] at hset
  show (p.pending.map g).sum + ((p.active.set j [.stop]).map fun h => (h.map f).sum).sum + f st + _ = _
  unfold load
  omega

theorem le_load (g : Kind → ℕ) (f : Step → ℕ) (hj : p.active[j]? = some h) : (h.map f).sum ≤ p.load g f := by
  have hset := sum_map_set (fun h => (h.map f).sum) [] hj
  simp only [List.map_nil, List.sum_nil] at hset
  unfold load
  omega

theorem load_launch (g : Kind → ℕ) (f : Step → ℕ) (k : Kind) : (p.launch k).load g f = p.load g f + g k := by
  simp only [load, launch, List.map_cons, List.sum_cons]
  omega

theorem load_complete (g : Kind → ℕ) (f : Step → ℕ) (x : Side) (e : ErrorCode) (n : Int32) (hk : k ∈ p.pending) :
    (p.complete x k e n).load g f + g k = p.load g f + ((handler x k e n).map f).sum := by
  have herase := List.sum_map_erase g hk
  simp only [load, complete, List.map_cons, List.sum_cons]
  omega

theorem got_complete {x : Side} {e : ErrorCode} {n : Int32} (hk : k = .recv) (he : e = .success) :
    (p.complete x k e n).got = p.got + n.toInt.toNat := if_pos ⟨hk, he⟩

theorem got_complete_of_not {x : Side} {e : ErrorCode} {n : Int32} (h : ¬ (k = .recv ∧ e = .success)) :
    (p.complete x k e n).got = p.got := if_neg h

theorem got_le_complete (x : Side) (k : Kind) (e : ErrorCode) (n : Int32) : p.got ≤ (p.complete x k e n).got := by
  by_cases h : k = .recv ∧ e = .success
  · rw [got_complete h.1 h.2]
    exact Nat.le_add_right ..
  · exact Nat.le_of_eq (got_complete_of_not h).symm

theorem pieces_complete {x : Side} {e : ErrorCode} {n : Int32} (hk : k = .recv) (he : e = .success) (hn : n ≠ 0) :
    (p.complete x k e n).pieces = p.pieces + 1 := if_pos ⟨hk, he, hn⟩

theorem pieces_le_complete (x : Side) (k : Kind) (e : ErrorCode) (n : Int32) :
    p.pieces ≤ (p.complete x k e n).pieces := by
  show _ ≤ if _ then p.pieces + 1 else p.pieces
  split
  · exact Nat.le_succ _
  · exact Nat.le_refl _

end Party

/-! ### What a handler does -/

/-- The operation that a program starts with. -/
def Side.first : Side → Kind
  | .client => .connect
  | .server => .accept

/-- What it does when that is successful. -/
def Side.opening : Side → List Step
  | .client => [.start .send, .start .recv]
  | .server => [.start .recv]

/-- What it answers a message with. -/
def Side.reply : Side → Kind
  | .client => .disconnect
  | .server => .send

/-- **What a handler does**: it stops the program; or it has nothing to do; or it goes on, after the first
operation or a message. -/
inductive Handles (x : Side) (k : Kind) (e : ErrorCode) (n : Int32) : List Step → Prop
  | stop : Handles x k e n [.stop]
  | done : k ≠ .recv → k ≠ x.first → Handles x k e n []
  | first : e = .success → k = x.first → Handles x k e n x.opening
  | message : e = .success → k = .recv → n ≠ 0 → Handles x k e n [.start x.reply, .start .recv]

theorem handles (x : Side) (k : Kind) (e : ErrorCode) (n : Int32) : Handles x k e n (handler x k e n) := by
  have hdone : k ≠ .recv → k ≠ x.first → Handles x k e n (onDone e) := by
    intro hr hf
    unfold onDone
    split
    · exact .stop
    · exact .done hr hf
  have hrecv : k = .recv → Handles x k e n (onRecv x.reply e n) := by
    intro hk
    unfold onRecv
    split
    · exact .stop
    rename_i he
    split
    · exact .stop
    split
    · exact .stop
    · rename_i hn
      exact .message (not_not.mp he) hk hn
  have hfirst : k = x.first → Handles x k e n (if e ≠ .success then [.stop] else x.opening) := by
    intro hk
    split
    · exact .stop
    · rename_i he
      exact .first (not_not.mp he) hk
  cases x <;> cases k <;>
    first | exact hrecv rfl | exact hfirst rfl | exact hdone (by decide) (by decide)

/-! ### In turn -/

namespace Party

/-- An operation whose handler is to start the next receive, or a receive. -/
def turnOf : Kind → ℕ
  | .connect | .accept | .recv => 1
  | .send | .disconnect => 0

/-- The same of an operation that is to be started. -/
def turnIn : Step → ℕ
  | .start k => turnOf k
  | .stop => 0

/-- The bytes that are to be sent when the client has connected. -/
def owedBy : Side → Kind → ℕ
  | .client, .connect => bufferSize
  | _, _ => 0

/-- The bytes that are to be sent. -/
def owedIn (x : Side) : Step → ℕ
  | .start .send => bufferSize
  | .start k => owedBy x k
  | .stop => 0

/-- An end of the connection that is to be made. -/
def partIn (st : Step) : ℕ := if st = .start .disconnect then 1 else 0

/-- The bytes that a side may send, when it has received so many pieces. -/
def allowance : Side → ℕ → ℕ
  | .client, _ => bufferSize
  | .server, pieces => bufferSize * pieces

/-- A side takes its turn, sends what it may, and ends the connection when it has been answered or stopped. -/
structure Orderly (x : Side) (p : Party) : Prop where
  turn : p.load turnOf turnIn ≤ 1
  sends : p.sent + p.load (owedBy x) (owedIn x) ≤ allowance x p.pieces
  parts : 0 < p.load (fun _ => 0) partIn → x = .client ∧ 0 < p.got
  shut : p.shut = true → (x = .client ∧ 0 < p.got) ∨ p.stopped = true
  closed : p.closed = true → p.stopped = true ∧ p.shut = true

end Party

variable {s s' : State} {x : Side} {p : Party}

theorem toNat_pos {n : Int32} (h0 : 0 ≤ n.toInt) (hn : n ≠ 0) : 0 < n.toInt.toNat := by
  have hne : n.toInt ≠ 0 := fun h => hn (Int32.toInt_inj.mp h)
  omega

/-- A party that has less before it than one in order. -/
theorem Party.Orderly.lighter {q : Party} (hq : q.Orderly x) (hload : ∀ g f, f .stop = 0 → p.load g f ≤ q.load g f)
    (hsent : p.sent = q.sent) (hgot : p.got = q.got) (hpieces : p.pieces = q.pieces) (hshut : p.shut = q.shut)
    (hclosed : p.closed = q.closed) (hstop : q.stopped = true → p.stopped = true) : p.Orderly x where
  turn := Nat.le_trans (hload _ _ rfl) hq.turn
  sends := by
    rw [hsent, hpieces]
    exact Nat.le_trans (Nat.add_le_add_left (hload _ _ rfl) _) hq.sends
  parts h := hgot ▸ hq.parts (Nat.lt_of_lt_of_le h (hload _ _ rfl))
  shut h := by
    rw [hgot]
    exact (hq.shut (hshut ▸ h)).imp_right hstop
  closed h := ⟨hstop (hq.closed (hclosed ▸ h)).1, hshut ▸ (hq.closed (hclosed ▸ h)).2⟩

/-- An operation is started. -/
theorem Party.Orderly.launch {j : ℕ} {k : Kind} {h : List Step} (hp : p.Orderly x)
    (hj : p.active[j]? = some (.start k :: h)) (hopen : p.closed = false) : ((p.goOn j h).launch k).Orderly x := by
  have hload : ∀ g f, ((p.goOn j h).launch k).load g f + f (.start k) = p.load g f + g k := by
    intro g f
    rw [load_launch, ← load_goOn g f hj]
    omega
  refine ⟨?_, ?_, fun hpos => hp.parts ?_, fun hshut => ?_, fun hc => ?_⟩
  · have hturn : ((p.goOn j h).launch k).load turnOf turnIn + turnOf k = p.load turnOf turnIn + turnOf k :=
      hload turnOf turnIn
    have := hp.turn
    omega
  · have howed := hload (owedBy x) (owedIn x)
    have := hp.sends
    show (if k = .send then p.sent + bufferSize else p.sent) + _ ≤ allowance x p.pieces
    cases k with
    | send =>
      have hin : owedIn x (.start .send) = bufferSize := rfl
      have hby : owedBy x .send = 0 := by cases x <;> rfl
      rw [if_pos rfl]
      omega
    | _ =>
      simp only [owedIn] at howed
      simp only [reduceCtorEq, if_false]
      omega
  · have := hload (fun _ => 0) partIn
    omega
  · have hshut' : (p.shut || decide (k = .disconnect)) = true := hshut
    rcases Bool.or_eq_true_iff.mp hshut' with hshut' | hk
    · exact hp.shut hshut'
    · refine .inl (hp.parts ?_)
      have hpart := hload (fun _ => 0) partIn
      rw [of_decide_eq_true hk] at hpart
      have : partIn (.start .disconnect) = 1 := rfl
      omega
  · have hc' : p.closed = true := hc
    rw [hopen] at hc'
    cases hc'

/-- **A step of a program keeps it in order.** -/
theorem Party.Orderly.act (hp : (s.party x).Orderly x) (h : s.Acts x p) : p.Orderly x := by
  cases h with
  | @stop j h hj =>
    refine hp.lighter (fun g f _ => ?_) rfl rfl rfl rfl rfl fun _ => rfl
    have := load_goOn g f hj
    show ((s.party x).goOn j h).load g f ≤ _
    omega
  | @start j k h hj hopen => exact hp.launch hj hopen
  | @refused j k h hj =>
    refine hp.lighter (fun g f hf => ?_) rfl rfl rfl rfl rfl id
    have := load_refused g f hj
    omega
  | close hstop hopen => exact ⟨hp.turn, hp.sends, hp.parts, fun _ => .inr hstop, fun _ => ⟨hstop, rfl⟩⟩

/-- The next receive comes after the last. -/
theorem Handles.turn {k : Kind} {e : ErrorCode} {n : Int32} {h : List Step} (hh : Handles x k e n h) :
    (h.map Party.turnIn).sum ≤ Party.turnOf k := by
  cases hh with
  | stop => exact Nat.zero_le _
  | done => exact Nat.zero_le _
  | first _ hk => cases x <;> subst hk <;> exact Nat.le_refl 1
  | message _ hk _ => cases x <;> subst hk <;> exact Nat.le_refl 1

/-- What a handler sends it owes for the connection, or for the message that it was called for. -/
theorem Handles.owed {k : Kind} {e : ErrorCode} {n : Int32} {h : List Step} (hh : Handles x k e n h) {a b : ℕ}
    (hle : a ≤ b) (hmsg : e = .success → k = .recv → n ≠ 0 → a < b) :
    (h.map (Party.owedIn x)).sum + Party.allowance x a ≤ Party.owedBy x k + Party.allowance x b := by
  have hallow : Party.allowance x a ≤ Party.allowance x b := by
    cases x with
    | client => exact Nat.le_refl _
    | server => exact Nat.mul_le_mul_left _ hle
  cases hh with
  | stop => exact Nat.add_le_add (Nat.zero_le _) hallow
  | done => exact Nat.add_le_add (Nat.zero_le _) hallow
  | first _ hk => cases x <;> subst hk <;> exact Nat.add_le_add (Nat.le_refl _) hallow
  | message he hk hn =>
    cases x with
    | client => exact Nat.add_le_add (Nat.zero_le _) hallow
    | server =>
      have hlt := hmsg he hk hn
      subst hk
      show bufferSize + 0 + bufferSize * a ≤ 0 + bufferSize * b
      unfold bufferSize
      omega

/-- The client ends the connection when it is called for a message. -/
theorem Handles.parts {k : Kind} {e : ErrorCode} {n : Int32} {h : List Step} (hh : Handles x k e n h)
    (hpos : 0 < (h.map Party.partIn).sum) : x = .client ∧ e = .success ∧ k = .recv ∧ n ≠ 0 := by
  cases hh with
  | stop => cases hpos
  | done => cases hpos
  | first _ hk => cases x <;> cases hpos
  | message he hk hn =>
    cases x with
    | client => exact ⟨rfl, he, hk, hn⟩
    | server => cases hpos

/-- **So does an operation that completes.** -/
theorem Party.Orderly.complete {k : Kind} (hp : (s.party x).Orderly x) (h : s.Completes x k p) : p.Orderly x := by
  obtain @⟨e, n, hk, hsucc⟩ := h
  have hload := fun g f => load_complete g f x e n hk
  have hgot := got_le_complete (p := s.party x) x k e n
  have hmsg : e = .success → k = .recv → n ≠ 0 → (s.party x).got < ((s.party x).complete x k e n).got := by
    intro he hr hn
    subst hr
    have hpos := toNat_pos (hsucc he).1 hn
    rw [got_complete rfl he]
    omega
  have hh := handles x k e n
  refine ⟨?_, ?_, fun hpos => ?_, fun hshut => ?_, hp.closed⟩
  · have hturn := hload turnOf turnIn
    have hle := hh.turn
    have := hp.turn
    omega
  · have howed := hload (owedBy x) (owedIn x)
    have hle := hh.owed (pieces_le_complete (p := s.party x) x k e n) fun he hr hn => by
      rw [pieces_complete hr he hn]
      exact Nat.lt_succ_self _
    have := hp.sends
    show (s.party x).sent + _ ≤ _
    omega
  · have hpart := hload (fun _ => 0) partIn
    by_cases hold : 0 < (s.party x).load (fun _ => 0) partIn
    · obtain ⟨hx, h0⟩ := hp.parts hold
      exact ⟨hx, Nat.lt_of_lt_of_le h0 hgot⟩
    · obtain ⟨hx, he, hr, hn⟩ := hh.parts (by omega)
      exact ⟨hx, Nat.lt_of_le_of_lt (Nat.zero_le _) (hmsg he hr hn)⟩
  · exact (hp.shut hshut).imp_left fun ⟨hx, h0⟩ => ⟨hx, Nat.lt_of_lt_of_le h0 hgot⟩

theorem Side.peer_ne (x : Side) : x.peer ≠ x := by cases x <;> decide

theorem Side.eq_or_peer (x y : Side) : y = x ∨ y = x.peer := by cases x <;> cases y <;> decide

namespace State

@[simp] theorem set_self : (s.set x p).party x = p := Function.update_self ..

@[simp] theorem set_peer : (s.set x p).party x.peer = s.party x.peer := Function.update_of_ne x.peer_ne ..

/-- Both sides are in order, and receive what was sent. -/
structure Orderly (s : State) : Prop where
  party : ∀ x, (s.party x).Orderly x
  flow : ∀ x, (s.party x).got ≤ (s.party x.peer).sent

theorem Orderly.set (hs : s.Orderly) (hp : p.Orderly x) (hgot : p.got ≤ (s.party x.peer).sent)
    (hsent : (s.party x).sent ≤ p.sent) : (s.set x p).Orderly := by
  have hpeer : x.peer.peer = x := by cases x <;> rfl
  refine ⟨fun y => ?_, fun y => ?_⟩
  · rcases x.eq_or_peer y with rfl | rfl
    · rw [set_self]
      exact hp
    · rw [set_peer]
      exact hs.party _
  · rcases x.eq_or_peer y with rfl | rfl
    · rw [set_self, set_peer]
      exact hgot
    · have hflow := hs.flow x.peer
      rw [hpeer] at hflow ⊢
      rw [set_self, set_peer]
      exact Nat.le_trans hflow hsent

/-- What a step of a program does to what it has sent and received. -/
theorem Acts.counts (h : s.Acts x p) : p.got = (s.party x).got ∧ (s.party x).sent ≤ p.sent := by
  cases h with
  | @start j k h hj hopen =>
    refine ⟨rfl, ?_⟩
    show _ ≤ if k = .send then (s.party x).sent + bufferSize else (s.party x).sent
    split
    · exact Nat.le_add_right ..
    · exact Nat.le_refl _
  | _ => exact ⟨rfl, Nat.le_refl _⟩

/-- What an operation that completes does to them. -/
theorem Completes.counts {k : Kind} (h : s.Completes x k p) (hflow : (s.party x).got ≤ (s.party x.peer).sent) :
    p.got ≤ (s.party x.peer).sent ∧ p.sent = (s.party x).sent := by
  obtain @⟨e, n, hk, hsucc⟩ := h
  refine ⟨?_, rfl⟩
  by_cases hr : k = .recv ∧ e = .success
  · obtain ⟨rfl, rfl⟩ := hr
    obtain ⟨h0, -, hle, -⟩ := hsucc rfl
    rw [Party.got_complete rfl rfl]
    unfold transit at hle
    omega
  · rw [Party.got_complete_of_not hr]
    exact hflow

theorem Orderly.moves (hs : s.Orderly) (h : s.Moves s') : s'.Orderly := by
  cases h with
  | handshake _ _ => exact ⟨hs.party, hs.flow⟩
  | @act x p h =>
    obtain ⟨hgot, hsent⟩ := h.counts
    exact hs.set ((hs.party x).act h) (hgot ▸ hs.flow x) hsent
  | @complete x k p h =>
    obtain ⟨hgot, hsent⟩ := h.counts (hs.flow x)
    exact hs.set ((hs.party x).complete h) hgot (Nat.le_of_eq hsent.symm)

theorem Orderly.start : Orderly .start where
  party x := by
    cases x <;> exact ⟨by decide, by decide, by decide, nofun, nofun⟩
  flow x := by cases x <;> exact Nat.le_refl 0

theorem Orderly.of_reach (h : s.Reach) : s.Orderly := by
  induction h with
  | refl => exact .start
  | tail _ hstep ih => exact ih.moves hstep

end State

/-! ### The result -/

theorem count_recv_le_turn (l : List Kind) : l.count .recv ≤ (l.map Party.turnOf).sum := by
  induction l with
  | nil => exact Nat.le_refl 0
  | cons k l ih =>
    rw [List.count_cons, List.map_cons, List.sum_cons]
    cases k <;> simp [Party.turnOf] <;> omega

/-- **Each side has at most one receive in flight**, in every state; the client sends one message, the server one
for each piece that it receives, and the client ends the connection only when it has received an answer or is
stopped. `main` closes its socket only when the program is stopped. -/
theorem echo_in_turn (h : s.Reach) :
    (∀ x, (s.party x).pending.count .recv ≤ 1) ∧ (s.party .client).sent ≤ bufferSize ∧
      (s.party .server).sent ≤ bufferSize * (s.party .server).pieces ∧
      ((s.party .client).shut = true → 0 < (s.party .client).got ∨ (s.party .client).stopped = true) ∧
      ∀ x, (s.party x).closed = true → (s.party x).stopped = true := by
  have ho := State.Orderly.of_reach h
  refine ⟨fun x => ?_, ?_, ?_, fun hshut => ?_, fun x hx => ((ho.party x).closed hx).1⟩
  · have hturn := (ho.party x).turn
    have hcount := count_recv_le_turn (s.party x).pending
    unfold Party.load at hturn
    omega
  · exact Nat.le_trans (Nat.le_add_right ..) (ho.party .client).sends
  · exact Nat.le_trans (Nat.le_add_right ..) (ho.party .server).sends
  · exact ((ho.party .client).shut hshut).imp_left fun h => h.2

/-- So it is when the client has connected, and sent its message. -/
theorem echo_in_turn_connected :
    ∃ s : State, s.Reach ∧ (s.party .client).pending = [.recv, .send] ∧ (s.party .client).sent = bufferSize ∧
      ∀ x, (s.party x).pending.count .recv ≤ 1 := by
  have hshake : State.Reach _ := .single (.handshake List.mem_cons_self rfl)
  have hconnect := hshake.tail (.complete
    (.intro (x := .client) (k := .connect) (e := .success) (n := 0) List.mem_cons_self fun _ => rfl))
  have hsend := hconnect.tail (.act (.start (x := .client) (j := 0) (k := .send) rfl rfl))
  have hrecv := hsend.tail (.act (.start (x := .client) (j := 0) (k := .recv) rfl rfl))
  exact ⟨_, hrecv, rfl, rfl, (echo_in_turn hrecv).1⟩

end FirelinkNet.Echo
