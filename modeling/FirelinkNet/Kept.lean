import FirelinkNet.Delivery

/-!
# What the kernel keeps

An overlapped call hands locations to Winsock: some are members of the `IOData`, some
are the user's buffer, and some are local variables of the `start_…` function
(`Location.owner`). Of these Winsock keeps a part until the operation completes
(`Location.kept`): the `OVERLAPPED`, the buffers, the address of the peer, and the
variable with the length of that address. The others it is done with when the call
returns.

## What is proved

* `outlives_iff` — **what the kernel keeps outlives the call**, in every state that is
  reached, except for the operations of `start_recv_from`: the variable with the length
  of the address is in its frame.
-/

namespace FirelinkNet

open Lib

/-- A location that an overlapped call hands to Winsock. -/
inductive Location where
  /-- The `OVERLAPPED`. -/
  | overlapped
  /-- The address buffer of `AcceptEx`. -/
  | acceptAddressBuffer
  /-- The address of the peer. -/
  | peerAddress
  /-- For `WSARecvFrom`, the length of that address. -/
  | peerAddressLength
  /-- The bytes to send, or where those received go. -/
  | buffer (data : ℕ)
  /-- The `WSABUF` that describes them. -/
  | wsaBuf
  /-- The flags of a `WSARecv` or a `WSARecvFrom`. -/
  | flags
  /-- The number of bytes of an `AcceptEx` or a `ConnectEx`. -/
  | byteCount
  deriving DecidableEq, Repr

/-- Who has a location. -/
inductive Owner where
  /-- The stack frame of a call of the interface. -/
  | frame (n : CallId)
  /-- An `IOData`. -/
  | ioData (i : DataId)
  /-- User code, which gave the span that begins here. -/
  | user (data : ℕ)
  deriving DecidableEq, Repr

/-- The locations that are handed over. -/
def IoRequest.locations : IoRequest → List Location
  | .acceptEx _ _ => [.acceptAddressBuffer, .byteCount, .overlapped]
  | .connectEx _ _ => [.peerAddress, .byteCount, .overlapped]
  | .wsaRecv _ buf _ => [.wsaBuf, .buffer buf, .flags, .overlapped]
  | .wsaRecvFrom _ buf _ => [.wsaBuf, .buffer buf, .flags, .peerAddress, .peerAddressLength, .overlapped]
  | .wsaSend _ buf _ => [.wsaBuf, .buffer buf, .overlapped]
  | .wsaSendTo _ buf _ _ => [.wsaBuf, .buffer buf, .peerAddress, .overlapped]
  | .disconnectEx _ _ => [.overlapped]

namespace Location

/-- Winsock may read or write it until the operation has completed. -/
def kept : Location → Bool
  | .wsaBuf | .flags | .byteCount => false
  | _ => true

/-- Who has a location that call `n` hands over with the `IOData` `i`. -/
def owner (n : CallId) (i : DataId) : Location → Owner
  | .overlapped | .acceptAddressBuffer | .peerAddress => .ioData i
  | .buffer data => .user data
  | .peerAddressLength | .wsaBuf | .flags | .byteCount => .frame n

end Location

/-- The span that a `start_…` function is given. -/
def ApiCall.span? : ApiCall → Option Span
  | .startRecv _ b _ | .startRecvFrom _ b _ | .startSend _ b _ | .startSendTo _ b _ _ => some b
  | _ => none

/-- A function of the interface that calls `WSARecvFrom`. -/
def ApiCall.receivesFrom : ApiCall → Bool
  | .startRecvFrom _ _ _ => true
  | _ => false

/-- The owner is there: the frame of a call that has not returned, the live `IOData` of the operation
`i`, or the span that the call `c` was given. -/
def Owner.Lasts (w : World) (i : DataId) (c : ApiCall) : Owner → Prop
  | .frame n => w.results n = none
  | .ioData j => j = i ∧ (w.heap j).isLive = true
  | .user data => ∃ b, c.span? = some b ∧ data = b.data

/-- What the kernel keeps for a pending operation is there. -/
def World.Outlives (w : World) (e : PendingIo) : Prop :=
  ∃ n c req, w.opOf e.data = some n ∧ w.calls n = some c ∧ w.requests e.data = some req ∧
    ∀ l ∈ req.locations, l.kept = true → (l.owner n e.data).Lasts w e.data c

/-- The operation was started by a `start_recv_from` that has returned. -/
def World.receivedFrom (w : World) (e : PendingIo) : Bool :=
  (w.opOf e.data).any fun n => (w.calls n).any (·.receivesFrom) && (w.results n).isSome

namespace Ownership

/-- The overlapped calls are those of the calls that allocated the `IOData`. -/
structure Asked (w : World) : Prop where
  makes : ∀ i req, w.requests i = some req → ∃ n c, w.opOf i = some n ∧ w.calls n = some c ∧ c.Makes req
  pending : ∀ e ∈ w.kernel, ∃ req, w.requests e.data = some req

variable {m : Mode} {w w' : World} {ls : ℕ → Local} {t : ℕ} {o : Op} {a : Ans} {i : DataId}

theorem Asked.mono (h : Asked w) (hr : w'.requests = w.requests)
    (hop : ∀ i n, w.opOf i = some n → w'.opOf i = some n)
    (hc : ∀ i n c, w.opOf i = some n → w.calls n = some c → w'.calls n = some c)
    (hk : ∀ e ∈ w'.kernel, e ∈ w.kernel) : Asked w' := by
  refine ⟨fun i req hreq => ?_, fun e he => ?_⟩
  · obtain ⟨n, c, hn, hcall, hm⟩ := h.makes i req (hr ▸ hreq)
    exact ⟨n, c, hop i n hn, hc i n c hn hcall, hm⟩
  · rw [hr]
    exact h.pending e (hk e he)

/-- The overlapped call that goes with `i` is made. -/
theorem Asked.request {req : IoRequest} {io : TpIo} {ok : Bool} {n : CallId} {c : ApiCall}
    (h : Asked w) (hn : w.opOf i = some n) (hc : w.calls n = some c) (hm : c.Makes req) :
    Asked ((w.submit i io ok).request i req ok) := by
  refine ⟨fun j r hr => ?_, fun e he => ?_⟩
  · by_cases hj : j = i
    · subst hj
      have hreq : upd w.requests j (some req) j = some r := hr
      rw [upd, Function.update_self] at hreq
      cases hreq
      exact ⟨n, c, hn, hc, hm⟩
    · have hreq : w.requests j = some r := (Function.update_of_ne hj ..).symm.trans hr
      exact h.makes j r hreq
  · by_cases hj : e.data = i
    · refine ⟨req, ?_⟩
      rw [hj]
      exact Function.update_self ..
    · have hold : e ∈ w.kernel := by
        cases ok with
        | false => exact he
        | true =>
          rcases List.mem_append.mp he with he | he
          · exact he
          · exact absurd (congrArg PendingIo.data (List.mem_singleton.mp he)) hj
      obtain ⟨r, hr⟩ := h.pending e hold
      exact ⟨r, (Function.update_of_ne hj ..).trans hr⟩

theorem Asked.run (h : Asked w) (hI : Inv m w ls) (hpre : (logic m).pre (ls t) o) :
    Asked (w.reply t o a).2 := by
  cases o with
  | enter c =>
    refine h.mono rfl (fun _ _ => id) (fun i n c' hn hc => ?_) fun _ => id
    have hlt : n < w.nextCall := hI.calls.op_lt i n hn
    have hne : n ≠ w.nextCall := Nat.ne_of_lt hlt
    exact (Function.update_of_ne hne ..).trans hc
  | newIOData d =>
    refine h.mono rfl (fun i n hn => ?_) (fun _ _ _ _ => id) fun _ => id
    have hne : i ≠ w.nextData := by
      rintro rfl
      have hnone : w.opOf w.nextData = none := hI.calls.unborn w.nextData le_rfl
      rw [hnone] at hn
      cases hn
    exact (Function.update_of_ne hne ..).trans hn
  | overlapped req i io =>
    obtain ⟨f, d, hf, hs, hm⟩ := hpre
    obtain ⟨hcall, -, -, -, hat⟩ := hI.calls.frame t f hf
    rw [hs] at hat
    exact h.request hat.1 hcall hm
  | closeThreadpoolCleanupGroupMembers g =>
    cases g <;> exact h.mono rfl (fun _ _ => id) (fun _ _ _ _ => id) fun _ => id
  | _ => exact h.mono rfl (fun _ _ => id) (fun _ _ _ _ => id) fun _ => id

theorem Asked.event {n : ℕ} {e : Event} {p : Option (Prog Unit)} (h : Asked w)
    (he : w.event n e = some (w', p)) : Asked w' := by
  cases World.event_step he with
  | complete c hk =>
    exact h.mono rfl (fun _ _ => id) (fun _ _ _ _ => id) fun _ => List.mem_of_mem_eraseIdx
  | _ => exact h.mono rfl (fun _ _ => id) (fun _ _ _ _ => id) fun _ => id

/-- A run without any condition. -/
def anyMode : Mode := ⟨false, false, false⟩

theorem guard_anyMode_le : (guard anyMode).Le .free := by
  refine ⟨fun w t o a _ => ?_, fun w e _ => ?_⟩
  · cases o with
    | enter c => cases c <;> rfl
    | _ => rfl
  · cases e <;> rfl

/-- **In every state that is reached** the accounts are right, and each overlapped call is on record with
the call that made it. -/
theorem asked_of_reach {conf : IOCoreConfig} {s : State} (h : machine.Reach .free (State.start conf) s) :
    ∃ ls, Inv anyMode s.w ls ∧ Asked s.w := by
  have hstart : Asked (World.start conf) := ⟨nofun, nofun⟩
  have hproof : machine.Proof (logic anyMode) (guard anyMode) ⟨none, none, none⟩
      fun w ls => Inv anyMode w ls ∧ Asked w :=
    (proof anyMode).and (fun hI h hpre _ _ _ => h.run hI hpre) fun _ h _ _ he _ _ => h.event he
  exact (hproof.guard guard_anyMode_le).invariant ⟨Inv.start anyMode conf, hstart⟩ h

/-- **A pending operation** has its live `IOData`, and the overlapped call that its `start_…` function
makes. -/
theorem pending_of_reach {conf : IOCoreConfig} {s : State} (h : machine.Reach .free (State.start conf) s)
    {e : PendingIo} (he : e ∈ s.w.kernel) : ∃ n c req, s.w.opOf e.data = some n ∧
      s.w.calls n = some c ∧ s.w.requests e.data = some req ∧ c.Makes req ∧
        (s.w.heap e.data).isLive = true := by
  obtain ⟨ls, hI, hA⟩ := asked_of_reach h
  obtain ⟨req, hreq⟩ := hA.pending e he
  obtain ⟨n, c, hn, hc, hm⟩ := hA.makes e.data req hreq
  obtain ⟨pl, hpl⟩ := hI.items
  obtain ⟨d, hd⟩ : (pl e.data).InKernel e := (hpl.queues.kernel.mem e.data e).mpr ⟨he, rfl⟩
  have hok := hpl.ok e.data
  rw [hd] at hok
  refine ⟨n, c, req, hn, hc, hreq, hm, ?_⟩
  rw [show s.w.heap e.data = .live d from congrArg Item.cell hok.1]
  rfl

end Ownership

/-- A `start_…` function hands over its span, and nothing else of the user's. -/
theorem ApiCall.Makes.buffer {c : ApiCall} {req : IoRequest} (h : c.Makes req) {data : ℕ}
    (hl : .buffer data ∈ req.locations) : ∃ b, c.span? = some b ∧ data = b.data := by
  cases c <;> cases req <;> simp_all [ApiCall.Makes, IoRequest.locations, ApiCall.span?]

theorem ApiCall.Makes.length_iff {c : ApiCall} {req : IoRequest} (h : c.Makes req) :
    .peerAddressLength ∈ req.locations ↔ c.receivesFrom = true := by
  cases c <;> cases req <;> simp_all [ApiCall.Makes, IoRequest.locations, ApiCall.receivesFrom]

theorem World.outlives_of_makes {w : World} {e : PendingIo} {n : CallId} {c : ApiCall} {req : IoRequest}
    (hn : w.opOf e.data = some n) (hc : w.calls n = some c) (hr : w.requests e.data = some req)
    (hm : c.Makes req) (hlive : (w.heap e.data).isLive = true) :
    w.Outlives e ↔ w.receivedFrom e = false := by
  have hfrom : w.receivedFrom e = (c.receivesFrom && (w.results n).isSome) := by
    simp [receivedFrom, hn, hc]
  rw [hfrom]
  constructor
  · rintro ⟨n', c', req', hn', hc', hr', hl⟩
    cases hn.symm.trans hn'
    cases hc.symm.trans hc'
    cases hr.symm.trans hr'
    by_cases hc : c.receivesFrom = true
    · have hres : w.results n = none := hl .peerAddressLength (hm.length_iff.mpr hc) rfl
      simp [hres]
    · simp [hc]
  · intro hf
    refine ⟨n, c, req, hn, hc, hr, fun l hl hk => ?_⟩
    cases l with
    | overlapped => exact ⟨rfl, hlive⟩
    | acceptAddressBuffer => exact ⟨rfl, hlive⟩
    | peerAddress => exact ⟨rfl, hlive⟩
    | peerAddressLength =>
      have hres : (w.results n).isSome = false := by simpa [hm.length_iff.mp hl] using hf
      simpa [Location.owner, Owner.Lasts] using hres
    | buffer data => exact hm.buffer hl
    | wsaBuf => cases hk
    | flags => cases hk
    | byteCount => cases hk

/-- **What the kernel keeps outlives the call**, in every state that is reached: for each pending
operation all of it is there, unless a `start_recv_from` that has returned started the operation. -/
theorem outlives_iff {conf : IOCoreConfig} {s : State} (h : machine.Reach .free (State.start conf) s) :
    ∀ e ∈ s.w.kernel, s.w.Outlives e ↔ s.w.receivedFrom e = false := by
  intro e he
  obtain ⟨n, c, req, hn, hc, hr, hm, hlive⟩ := Ownership.pending_of_reach h he
  exact World.outlives_of_makes hn hc hr hm hlive

/-- The start of an operation that the kernel leaves pending, on a new socket. -/
def pendingSchedule (c : ApiCall) : List (Machine.Act Ans Event) :=
  .env (.spawn [.create, .socket 0 .ipv4 .datagram .udp, c]) ::
    (List.replicate 14 (.run 0 {}) ++ .run 0 { error := some ⟨errorIoPending, by decide⟩ } :: List.replicate 2 (.run 0 {}))

/-- A `start_recv` has returned, and its operation is pending. -/
theorem outlives_iff_startRecv : ∃ s : State, machine.Reach .free (State.start ⟨0, 0, 0, 0⟩) s ∧
    ∃ e ∈ s.w.kernel, s.w.results 1 = some .success ∧ s.w.Outlives e := by
  obtain ⟨s, hs, hp⟩ := Machine.exists_reach_of_fire (m := machine) (g := .free)
    (s := State.start ⟨0, 0, 0, 0⟩)
    (P := fun s => decide (s.w.results 1 = some .success) && s.w.kernel.any fun e => !s.w.receivedFrom e)
    Machine.allows_free (l := pendingSchedule (.startRecv 0 ⟨0, 16⟩ (some 7))) (by decide +kernel)
  obtain ⟨hres, hany⟩ := Bool.and_eq_true_iff.mp hp
  obtain ⟨e, he, hf⟩ := List.any_eq_true.mp hany
  exact ⟨s, hs, e, he, of_decide_eq_true hres, (outlives_iff hs e he).mpr (by simpa using hf)⟩

/-- A `start_recv_from` has returned, and its operation is pending. -/
theorem not_outlives_startRecvFrom : ¬ ∀ conf (s : State), machine.Reach .free (State.start conf) s →
    ∀ e ∈ s.w.kernel, s.w.Outlives e := by
  intro h
  obtain ⟨s, hs, hp⟩ := Machine.exists_reach_of_fire (m := machine) (g := .free)
    (s := State.start ⟨0, 0, 0, 0⟩) (P := fun s => s.w.kernel.any fun e => s.w.receivedFrom e)
    Machine.allows_free (l := pendingSchedule (.startRecvFrom 0 ⟨0, 16⟩ (some 7))) (by decide +kernel)
  obtain ⟨e, he, hf⟩ := List.any_eq_true.mp hp
  obtain ⟨n, c, req, hn, hc, hr, hm, hlive⟩ := Ownership.pending_of_reach hs he
  have hfalse := (World.outlives_of_makes hn hc hr hm hlive).mp (h _ s hs e he)
  rw [hf] at hfalse
  cases hfalse

end FirelinkNet
