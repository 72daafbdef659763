import FirelinkNet.Echo
import FirelinkNet.Lib.Inevitable

/-!
# The echo programs come to an end

Whatever fails and in whatever order things happen, the client closes its socket, and so does the
server once there was a connection. Handlers that were called go on, `main` comes out of `run` when
`stop_io_context` was called, and an operation completes: a receive when something has arrived, or
the end of the stream, or the socket is closed.

Until it is stopped a side is going: it has an operation in flight whose handler goes on, or a
handler that is on its way. Where nothing is due each side that is not closed waits for the other;
but the client's message is on its way, or the server's answer, or the end of the stream. And there
is an end to it: what a byte can give rise to is bounded, on either side.

## What is proved

* `echo_ends` — **both programs come to an end.**
-/

namespace FirelinkNet.Echo

open Lib

variable {s s' : State} {x : Side} {p : Party}

/-! ### What a party will do -/

/-- An operation that leaves a mark when it is started. -/
def Kind.lasting : Kind → Bool
  | .send | .disconnect => true
  | _ => false

namespace Party

/-- A step that stops the program, or starts the operation. -/
def owes (k : Kind) : Step → ℕ
  | .stop => 1
  | .start k' => if k' = k then 1 else 0

/-- The program is stopped, or a handler is to stop it or to start the operation. -/
def Owes (k : Kind) (p : Party) : Prop := p.stopped = true ∨ 0 < p.load (fun _ => 0) (owes k)

/-- The operation was started: it is in flight, or has left its mark. -/
def Did (p : Party) : Kind → Prop
  | .send => 0 < p.sent
  | .disconnect => p.shut = true
  | k => k ∈ p.pending

/-- The operation was started, or is to be. -/
def Will (k : Kind) (p : Party) : Prop := p.Did k ∨ p.Owes k

/-- A side goes on until it is stopped: to the next receive, with an answer to what it received, and the client
with its message. -/
structure Going (x : Side) (p : Party) : Prop where
  turn : p.Did x.first ∨ p.Will .recv
  reply : 0 < p.got → p.Will x.reply
  message : x = .client → p.Did .connect ∨ p.Will .send

variable {k : Kind}

theorem did_launch (p : Party) (k : Kind) : (p.launch k).Did k := by
  cases k with
  | send => exact Nat.lt_of_lt_of_le (by decide : 0 < bufferSize) (Nat.le_add_left ..)
  | disconnect => exact Bool.or_true _
  | _ => exact List.mem_cons_self

theorem Did.launch {p : Party} (h : p.Did k) (k' : Kind) : (p.launch k').Did k := by
  cases k with
  | send =>
    show 0 < if k' = .send then p.sent + bufferSize else p.sent
    split
    · exact Nat.lt_of_lt_of_le h (Nat.le_add_right ..)
    · exact h
  | disconnect =>
    have h' : p.shut = true := h
    show (p.shut || _) = true
    rw [h', Bool.true_or]
  | _ => exact List.mem_cons_of_mem _ h

theorem Did.act (hd : (s.party x).Did k) (h : s.Acts x p) : p.Did k := by
  cases h with
  | @start j k' h hj _ => exact Did.launch (p := (s.party x).goOn j h) (by cases k <;> exact hd) k'
  | close _ _ =>
    cases k with
    | disconnect => rfl
    | _ => exact hd
  | _ => cases k <;> exact hd

theorem owes_refused {q : Party} {j : ℕ} {k' : Kind} {h : List Step} (hj : q.active[j]? = some (.start k' :: h)) :
    (q.goOn j [.stop]).Owes k := by
  refine .inr ?_
  have hload := load_refused (fun _ => 0) (owes k) hj
  have hle := le_load (fun _ => 0) (owes k) hj
  have hstop : owes k .stop = 1 := rfl
  simp only [List.map_cons, List.sum_cons] at hle
  omega

/-- **A step of a program keeps what it will do.** -/
theorem Will.act (hw : (s.party x).Will k) (h : s.Acts x p) : p.Will k := by
  rcases hw with hd | hstop | hpos
  · exact .inl (hd.act h)
  · cases h with
    | stop _ => exact .inr (.inl rfl)
    | _ => exact .inr (.inl hstop)
  · cases h with
    | stop _ => exact .inr (.inl rfl)
    | @start j k' h hj _ =>
      by_cases hk : k' = k
      · subst hk
        exact .inl (did_launch _ _)
      · refine .inr (.inr ?_)
        have hload := load_goOn (fun _ => 0) (owes k) hj
        have howes : owes k (.start k') = 0 := if_neg hk
        rw [load_launch]
        omega
    | refused hj => exact .inr (owes_refused hj)
    | close hstop _ => exact .inr (.inl hstop)

theorem Did.complete {k' : Kind} {e : ErrorCode} {n : Int32} (hd : p.Did k) (hk : k' = k → k.lasting = true) :
    (p.complete x k' e n).Did k := by
  cases k with
  | send => exact hd
  | disconnect => exact hd
  | _ => exact (List.mem_erase_of_ne fun h => Bool.false_ne_true (hk h.symm)).mpr hd

/-- What a party will do when an operation completes, unless it was this. -/
theorem Will.complete {k' : Kind} {e : ErrorCode} {n : Int32} (hw : p.Will k) (hk' : k' ∈ p.pending)
    (hk : k' = k → k.lasting = true) : (p.complete x k' e n).Will k := by
  rcases hw with hd | hstop | hpos
  · exact .inl (hd.complete hk)
  · exact .inr (.inl hstop)
  · refine .inr (.inr ?_)
    have := load_complete (fun _ => 0) (owes k) x e n hk'
    omega

theorem owes_complete {k' : Kind} {e : ErrorCode} {n : Int32} (hk' : k' ∈ p.pending) {a : Step}
    (ha : a ∈ handler x k' e n) (hpos : owes k a = 1) : (p.complete x k' e n).Will k := by
  refine .inr (.inr ?_)
  have hload := load_complete (fun _ => 0) (owes k) x e n hk'
  have hsum : 0 < ((handler x k' e n).map (owes k)).sum :=
    List.sum_pos_iff_exists_pos_nat.mpr ⟨1, hpos ▸ List.mem_map_of_mem ha, Nat.one_pos⟩
  omega

theorem Going.act (hp : (s.party x).Going x) (h : s.Acts x p) : p.Going x where
  turn := hp.turn.imp (·.act h) (·.act h)
  reply hgot := (hp.reply (h.counts.1 ▸ hgot)).act h
  message hx := (hp.message hx).imp (·.act h) (·.act h)

/-- **An operation that completes leaves a side going**: its handler sees to that. -/
theorem Going.complete {k : Kind} (hp : (s.party x).Going x) (h : s.Completes x k p) : p.Going x := by
  obtain @⟨e, n, hk, hsucc⟩ := h
  have howes : ∀ {k' a}, a ∈ handler x k e n → owes k' a = 1 → ((s.party x).complete x k e n).Will k' :=
    owes_complete hk
  have hreply : x.reply.lasting = true := by cases x <;> rfl
  have hfirst : x.first ≠ .recv := by cases x <;> decide
  have hgot : k ≠ .recv → ((s.party x).complete x k e n).got = (s.party x).got := fun hr =>
    got_complete_of_not fun h => hr h.1
  have hmessage : k ≠ .connect → x = .client →
      ((s.party x).complete x k e n).Did .connect ∨ ((s.party x).complete x k e n).Will .send := fun hc hx =>
    (hp.message hx).imp (·.complete fun h => absurd h hc) (·.complete hk fun _ => rfl)
  have hh := handles x k e n
  generalize hl : handler x k e n = l at hh
  rw [hl] at howes
  cases hh with
  | stop =>
    have hstop : ∀ {k'}, ((s.party x).complete x k e n).Will k' := howes List.mem_cons_self rfl
    exact ⟨.inr hstop, fun _ => hstop, fun _ => .inr hstop⟩
  | done hr hf =>
    refine ⟨hp.turn.imp (·.complete fun h => absurd h hf) (·.complete hk fun h => absurd h hr), fun h => ?_, fun hx => ?_⟩
    · exact (hp.reply (hgot hr ▸ h)).complete hk fun _ => hreply
    · subst hx
      exact hmessage hf rfl
  | first he hf =>
    have hr : k ≠ .recv := hf ▸ hfirst
    refine ⟨.inr (howes (a := .start .recv) ?_ rfl), fun h => (hp.reply (hgot hr ▸ h)).complete hk fun _ => hreply,
      fun hx => ?_⟩
    · cases x <;> simp [Side.opening]
    · subst hx
      exact .inr (howes (a := .start .send) List.mem_cons_self rfl)
  | message he hr hn =>
    refine ⟨.inr (howes (a := .start .recv) (List.mem_cons_of_mem _ List.mem_cons_self) rfl), fun _ => ?_, fun hx => ?_⟩
    · exact howes (a := .start x.reply) List.mem_cons_self (if_pos rfl)
    · subst hr
      exact hmessage (by decide) hx

end Party

namespace State

/-- Both sides are going, and the client is connected, connecting or to stop. -/
structure Going (s : State) : Prop where
  party : ∀ x, (s.party x).Going x
  connect : s.connected = true ∨ (s.party .client).Will .connect

theorem Going.set (hs : s.Going) (hp : p.Going x)
    (hc : x = .client → s.connected = true ∨ p.Will .connect) : (s.set x p).Going := by
  refine ⟨fun y => ?_, ?_⟩
  · rcases x.eq_or_peer y with rfl | rfl
    · rw [set_self]
      exact hp
    · rw [set_peer]
      exact hs.party _
  · cases x with
    | client => exact (hc rfl).imp_right fun h => by rw [set_self]; exact h
    | server => exact hs.connect

theorem Going.moves (hs : s.Going) (h : s.Moves s') : s'.Going := by
  cases h with
  | handshake _ _ => exact ⟨hs.party, .inl rfl⟩
  | @act x p h =>
    refine hs.set ((hs.party x).act h) fun hx => ?_
    subst hx
    exact hs.connect.imp_right (·.act h)
  | @complete x k p h =>
    refine hs.set ((hs.party x).complete h) fun hx => ?_
    subst hx
    obtain @⟨e, n, hk, hsucc⟩ := h
    by_cases hc : k = .connect
    · subst hc
      by_cases he : e = .success
      · exact .inl (hsucc he)
      · refine .inr (Party.owes_complete hk (a := .stop) ?_ rfl)
        show Step.stop ∈ if e ≠ .success then _ else _
        rw [if_pos he]
        exact List.mem_cons_self
    · exact hs.connect.imp_right (·.complete hk fun h => absurd h hc)

theorem Going.start : Going .start where
  party x := by
    cases x <;> exact ⟨.inl List.mem_cons_self, nofun, fun h => by first | exact .inl List.mem_cons_self | cases h⟩
  connect := .inr (.inl List.mem_cons_self)

/-! ### Where it ends -/

/-- Both programs have come to an end, the server if there was a connection. -/
def Ended (s : State) : Prop :=
  (s.party .client).closed = true ∧ (s.connected = true → (s.party .server).closed = true)

/-- Nothing is due. -/
structure Rests (s : State) : Prop where
  handlers : ∀ x, ∀ h ∈ (s.party x).active, h = []
  stopped : ∀ x, (s.party x).stopped = true → (s.party x).closed = true
  pending : ∀ x, ∀ k ∈ (s.party x).pending, ¬ s.Ripe x k

theorem Rests.of_not_due (h : ∀ s', ¬ s.Due s') : s.Rests where
  handlers x l hl := by
    obtain ⟨j, hj⟩ := List.mem_iff_getElem?.mp hl
    cases l with
    | nil => rfl
    | cons st l =>
      cases st with
      | stop => exact (h _ (.act (.stop hj))).elim
      | start k => exact (h _ (.act (.refused hj))).elim
  stopped x hx := by
    by_contra hc
    exact h _ (.act (.close hx (by simpa using hc)))
  pending x k hk hr :=
    h _ (.complete hr (.intro (e := .systemError) (n := 0) hk fun he => absurd he ErrorCode.systemError_ne))

theorem Rests.owes (hr : s.Rests) {k : Kind} (h : (s.party x).Owes k) : (s.party x).closed = true := by
  rcases h with h | h
  · exact hr.stopped x h
  · have hzero : (s.party x).load (fun _ => 0) (Party.owes k) = 0 := by
      have hall : (s.party x).active.map (fun l => (l.map (Party.owes k)).sum) =
          (s.party x).active.map fun _ => 0 :=
        List.map_congr_left fun l hl => by rw [hr.handlers x l hl]; rfl
      simp [Party.load, hall]
    omega

/-- A side that is not closed is waiting for the next bytes, or for the connection. -/
theorem Rests.waits (hr : s.Rests) (hg : s.Going) (hx : (s.party x).closed = false) :
    x.first ∈ (s.party x).pending ∨ .recv ∈ (s.party x).pending := by
  rcases (hg.party x).turn with h | h | h
  · exact .inl (by cases x <;> exact h)
  · exact .inr h
  · rw [hr.owes h] at hx
    cases hx

/-- A side that waits for bytes has none on the way, and the other may still send. -/
theorem Rests.recv (hr : s.Rests) (h : .recv ∈ (s.party x).pending) :
    (s.party x.peer).sent ≤ (s.party x).got ∧ (s.party x.peer).shut = false := by
  have hnot := hr.pending x .recv h
  have htransit : ¬ 0 < s.transit x := fun h => hnot (.inl h)
  refine ⟨?_, Bool.eq_false_iff.mpr fun h => hnot (.inr (.inl h))⟩
  unfold transit at htransit
  omega

/-- A server that has a connection and is not closed waits for bytes. -/
theorem Rests.server_waits (hr : s.Rests) (hg : s.Going) (hconn : s.connected = true)
    (hopen : (s.party .server).closed = false) :
    (s.party .client).sent ≤ (s.party .server).got ∧ (s.party .client).shut = false := by
  rcases hr.waits hg hopen with h | h
  · exact (hr.pending .server .accept h (.inl hconn)).elim
  · exact hr.recv (x := .server) h

/-- A client that is not closed has sent its message, and waits for the answer. -/
theorem Rests.client_waits (hr : s.Rests) (hg : s.Going) (hopen : (s.party .client).closed = false) :
    s.connected = true ∧ 0 < (s.party .client).sent ∧
      (s.party .server).sent ≤ (s.party .client).got ∧ (s.party .server).shut = false := by
  have hconnect : .connect ∉ (s.party .client).pending := fun h => hr.pending .client .connect h trivial
  have howes : ∀ {k}, ¬ (s.party .client).Owes k := fun h => Bool.eq_false_iff.mp hopen (hr.owes h)
  refine ⟨?_, ?_, hr.recv (x := .client) ((hr.waits hg hopen).resolve_left hconnect)⟩
  · rcases hg.connect with h | h | h
    · exact h
    · exact (hconnect h).elim
    · exact (howes h).elim
  · rcases (hg.party .client).message rfl with h | h | h
    · exact (hconnect h).elim
    · exact h
    · exact (howes h).elim

/-- So it is closed: the server has read the message and answered it, and the client that has read
the answer ends the connection. -/
theorem Rests.client_closed (hr : s.Rests) (ho : s.Orderly) (hg : s.Going) :
    (s.party .client).closed = true := by
  by_contra hne
  have hopen : (s.party .client).closed = false := by simpa using hne
  obtain ⟨hconn, hmessage, hsent, hshut⟩ := hr.client_waits hg hopen
  have hopen' : (s.party .server).closed = false := by
    rw [Bool.eq_false_iff]
    intro hc
    have := ((ho.party .server).closed hc).2
    rw [hshut] at this
    cases this
  obtain ⟨hgot, hshut'⟩ := hr.server_waits hg hconn hopen'
  have hanswer : 0 < (s.party .server).sent := by
    rcases (hg.party .server).reply (Nat.lt_of_lt_of_le hmessage hgot) with h | h
    · exact h
    · rw [hr.owes h] at hopen'
      cases hopen'
  rcases (hg.party .client).reply (Nat.lt_of_lt_of_le hanswer hsent) with h | h
  · have h' : (s.party .client).shut = true := h
    rw [hshut'] at h'
    cases h'
  · exact hne (hr.owes h)

/-- **Where nothing is due, both have come to an end.** -/
theorem Rests.ended (hr : s.Rests) (ho : s.Orderly) (hg : s.Going) : s.Ended := by
  have hclient := hr.client_closed ho hg
  refine ⟨hclient, fun hconn => ?_⟩
  by_contra hne
  obtain ⟨-, hshut⟩ := hr.server_waits hg hconn (by simpa using hne)
  rw [((ho.party .client).closed hclient).2] at hshut
  cases hshut

end State

/-! ### No run goes on for ever -/

/-- What a byte that arrives can give rise to: a handler, and with the server an answer. -/
def Side.byteCost : Side → ℕ
  | .client => 5
  | .server => 2565

/-- What an operation in flight can give rise to. -/
def opCost : Kind → ℕ
  | .connect => bufferSize * Side.byteCost .server + 7
  | .accept => 4
  | _ => 2

/-- What a step of a handler can give rise to. -/
def stepCost (x : Side) : Step → ℕ
  | .stop => 1
  | .start .send => bufferSize * x.peer.byteCost + 3
  | .start k => opCost k + 1

/-- What a party can give rise to of itself. -/
def Party.rank (x : Side) (p : Party) : ℕ := p.load opCost (stepCost x) + if p.closed then 0 else 1

/-- What both can give rise to, with the bytes on their way. -/
def State.rank (s : State) : ℕ :=
  (s.party .client).rank .client + (s.party .server).rank .server + s.transit .client * Side.byteCost .client +
    s.transit .server * Side.byteCost .server + if s.connected then 0 else 1

theorem State.Acts.rank (h : s.Acts x p) :
    p.rank x + (p.sent - (s.party x).sent) * x.peer.byteCost < (s.party x).rank x := by
  cases h with
  | @stop j h hj =>
    have hload := Party.load_goOn opCost (stepCost x) hj
    have hcost : stepCost x .stop = 1 := rfl
    show ((s.party x).goOn j h).load opCost (stepCost x) + (if (s.party x).closed then 0 else 1) +
      ((s.party x).sent - (s.party x).sent) * _ < _
    rw [Nat.sub_self, Nat.zero_mul, Party.rank]
    omega
  | @start j k h hj hopen =>
    have hload := Party.load_goOn opCost (stepCost x) hj
    have hcost : opCost k + ((((s.party x).goOn j h).launch k).sent - (s.party x).sent) * x.peer.byteCost <
        stepCost x (.start k) := by
      cases k with
      | send =>
        have hsent : (((s.party x).goOn j h).launch .send).sent = (s.party x).sent + bufferSize := rfl
        rw [hsent, Nat.add_sub_cancel_left]
        show 2 + bufferSize * x.peer.byteCost < bufferSize * x.peer.byteCost + 3
        omega
      | _ =>
        show opCost _ + ((s.party x).sent - (s.party x).sent) * _ < opCost _ + 1
        rw [Nat.sub_self, Nat.zero_mul]
        exact Nat.lt_succ_self _
    show (((s.party x).goOn j h).launch k).load opCost (stepCost x) + (if (s.party x).closed then 0 else 1) + _ < _
    rw [Party.load_launch, Party.rank]
    omega
  | @refused j k h hj =>
    have hload := Party.load_refused opCost (stepCost x) hj
    have hstop : stepCost x .stop = 1 := rfl
    have hcost : 1 < stepCost x (.start k) := by
      cases x <;> cases k <;> decide
    show ((s.party x).goOn j [.stop]).load opCost (stepCost x) + (if (s.party x).closed then 0 else 1) +
      ((s.party x).sent - (s.party x).sent) * _ < _
    rw [Nat.sub_self, Nat.zero_mul, Party.rank]
    omega
  | close hstop hopen =>
    show (s.party x).load opCost (stepCost x) + 0 + ((s.party x).sent - (s.party x).sent) * _ < _
    rw [Nat.sub_self, Nat.zero_mul, Party.rank, hopen]
    exact Nat.lt_succ_self _

/-- A handler gives rise to less than what it was called for. -/
theorem Handles.cost {k : Kind} {e : ErrorCode} {n : Int32} {h : List Step} (hh : Handles x k e n h) {a b : ℕ}
    (hmsg : e = .success → k = .recv → n ≠ 0 → a < b) :
    (h.map (stepCost x)).sum < opCost k + (b - a) * x.byteCost := by
  have hop : 1 < opCost k := by cases k <;> decide
  cases hh with
  | stop => exact Nat.lt_of_lt_of_le hop (Nat.le_add_right ..)
  | done _ _ => exact Nat.lt_of_lt_of_le (Nat.lt_trans Nat.one_pos hop) (Nat.le_add_right ..)
  | first _ hk =>
    refine Nat.lt_of_lt_of_le ?_ (Nat.le_add_right ..)
    cases x <;> subst hk <;> decide
  | message he hk hn =>
    have hlt := hmsg he hk hn
    subst hk
    cases x with
    | client =>
      show 6 < 2 + (b - a) * 5
      omega
    | server =>
      show 2566 < 2 + (b - a) * 2565
      omega

theorem State.Completes.rank {k : Kind} (h : s.Completes x k p) :
    p.rank x < (s.party x).rank x + (p.got - (s.party x).got) * x.byteCost := by
  obtain @⟨e, n, hk, hsucc⟩ := h
  have hload := Party.load_complete opCost (stepCost x) x e n hk
  have hcost := (handles x k e n).cost (a := (s.party x).got) (b := ((s.party x).complete x k e n).got)
    fun he hr hn => by
      subst hr
      have hpos := toNat_pos (hsucc he).1 hn
      rw [Party.got_complete rfl he]
      omega
  show ((s.party x).complete x k e n).load opCost (stepCost x) + (if (s.party x).closed then 0 else 1) < _
  rw [Party.rank]
  omega

/-- A party moves on: what it has sent since then is on its way, and what it has received is not any more. -/
theorem State.rank_set (hs : s.Orderly) (hgot : (s.party x).got ≤ p.got) (hle : p.got ≤ (s.party x.peer).sent)
    (hsent : (s.party x).sent ≤ p.sent)
    (h : p.rank x + (p.sent - (s.party x).sent) * x.peer.byteCost <
      (s.party x).rank x + (p.got - (s.party x).got) * x.byteCost) : (s.set x p).rank < s.rank := by
  have hflow := hs.flow .client
  have hflow' := hs.flow .server
  cases x with
  | client =>
    have hself : (s.set .client p).party .client = p := set_self
    have hpeer : (s.set .client p).party .server = s.party .server := set_peer
    have hconn : (s.set .client p).connected = s.connected := rfl
    simp only [Side.peer, Side.byteCost] at hle h hflow hflow'
    simp only [State.rank, State.transit, Side.peer, Side.byteCost, hself, hpeer, hconn]
    omega
  | server =>
    have hself : (s.set .server p).party .server = p := set_self
    have hpeer : (s.set .server p).party .client = s.party .client := set_peer
    have hconn : (s.set .server p).connected = s.connected := rfl
    simp only [Side.peer, Side.byteCost] at hle h hflow hflow'
    simp only [State.rank, State.transit, Side.peer, Side.byteCost, hself, hpeer, hconn]
    omega

/-- **Every step leaves less to come.** -/
theorem State.Moves.rank (hs : s.Orderly) (h : s.Moves s') : s'.rank < s.rank := by
  cases h with
  | handshake _ hc =>
    have hrank : s.rank = { s with connected := true : State }.rank + 1 := by
      simp only [State.rank, State.transit, hc, if_true, Bool.false_eq_true, if_false]
    omega
  | @act x p h =>
    obtain ⟨hgot, hsent⟩ := h.counts
    have hlt := h.rank
    refine rank_set hs (Nat.le_of_eq hgot.symm) (hgot ▸ hs.flow x) hsent ?_
    rw [hgot, Nat.sub_self, Nat.zero_mul]
    exact hlt
  | @complete x k p h =>
    obtain ⟨hle, hsent⟩ := h.counts (hs.flow x)
    have hlt := h.rank
    refine rank_set hs ?_ hle (Nat.le_of_eq hsent.symm) ?_
    · obtain ⟨_, _⟩ := h
      exact Party.got_le_complete ..
    · rw [hsent, Nat.sub_self, Nat.zero_mul]
      exact hlt

/-! ### The result -/

/-- **Both programs come to an end**, whatever fails and in whatever order things happen. -/
theorem echo_ends : Inevitable State.Moves State.Due State.Ended .start := by
  refine Inevitable.of_measure (I := fun s => s.Orderly ∧ s.Going) State.rank (fun hI h => ?_) (fun hI h => ?_)
    ⟨.start, .start⟩
  · exact ⟨⟨hI.1.moves h, hI.2.moves h⟩, h.rank hI.1⟩
  · exact (State.Rests.of_not_due h).ended hI.1 hI.2

end FirelinkNet.Echo
