import FirelinkNet.Delivered
import FirelinkNet.Kept
import FirelinkNet.Lib.Casts
import FirelinkNet.Sockaddr

/-!
# Lengths and counts

The size of a `std::span` has 64 bits. The synchronous calls of Winsock take an `int`,
the overlapped ones a `ULONG`, and the handlers are told an `std::int32_t`: the source
casts, and checks nothing.

## What is proved

* `lengths_iff` — **no length and no count is truncated** if and only if the sizes are
  below 2^31 for the synchronous functions, and below 2^32 for the others, with counts
  below 2^31; and `recv_from` returns the count if and only if the sender has an IPv4 or
  IPv6 address besides.
-/

namespace FirelinkNet

open Lib

/-! ### The synchronous functions -/

/-- The length that a synchronous call hands to Winsock. -/
def Op.length? : Op → Option Int32
  | .recv _ _ len | .send _ _ len | .recvfrom _ _ len | .sendto _ _ len _ => some len
  | _ => none

/-- The count that Winsock reports. -/
def Op.count? : (o : Op) → Res o → Option ℕ
  | .recv _ _ _, .ok k | .send _ _ _, .ok k | .sendto _ _ _ _, .ok k => some k
  | .recvfrom _ _ _, .ok r => some r.1
  | _, _ => none

/-- What Winsock reports of a transfer on a span of `n` bytes. -/
structure Report (n : UInt64) where
  /-- The count, or the error. -/
  result : Except OsError ℕ
  /-- No more than the span are transferred. -/
  le : ∀ k, result = .ok k → k ≤ n.toNat
  /-- What `recvfrom` stores as the address of the sender. -/
  sender : SockaddrStorage

/-- `k` bytes were transferred. -/
def Report.ofCount {n : UInt64} (k : ℕ) (hk : k ≤ n.toNat) (sender : SockaddrStorage) : Report n :=
  ⟨.ok k, fun _ h => Except.ok.inj h ▸ hk, sender⟩

/-- A call that transfers bytes is answered so. -/
def Report.Answers {n : UInt64} (q : Report n) : (o : Op) → Res o → Prop
  | .recv _ _ _, r | .send _ _ _, r | .sendto _ _ _ _, r => r = q.result
  | .recvfrom _ _ _, r => r = q.result.map fun k => (k, q.sender)
  | _, _ => True

/-- On a span of `n` bytes, of which Winsock reports `q`: each length handed over is `n`, and what was reported last
is known. -/
def transfer {n : UInt64} (q : Report n) : Logic Op Res (Option ℕ) where
  pre _ o := ∀ len ∈ o.length?, len.toInt = n.toNat
  given _ o r := q.Answers o r
  post l o r := (o.count? r).or l

/-- Whatever the other calls reply, the function hands over the length `n`, and its count is the one that Winsock
reported; it is -1 only where none was. -/
def Faithful {α : Type} {n : UInt64} (q : Report n) (p : Prog α) (count : α → Int32) : Prop :=
  (transfer q).wp p (fun r k => k.elim (count r = -1) fun m => (count r).toInt = m) none

variable {n : UInt64} {x : SockId} {b : Span}

/-- The count that is returned. -/
theorem Report.toInt_count {q : Report n} {k : ℕ} (hn : n.toNat < 2 ^ 31) (hk : q.result = .ok k) :
    (Int32.ofNat k).toInt = k :=
  Int32.toInt_ofNat_of_lt (Nat.lt_of_le_of_lt (q.le k hk) hn)

theorem faithful_recv_iff {q : Report b.size} :
    Faithful q (WinSocket.recv x b) id ↔ b.size.toNat < 2 ^ 31 := by
  constructor
  · rintro ⟨-, h⟩
    exact toInt_toInt32_iff.mp ((h .new trivial).1 _ rfl)
  · intro hn
    refine ⟨nofun, fun s _ => ⟨fun len hlen => ?_, fun r hr => ?_⟩⟩
    · cases hlen
      exact toInt_toInt32_iff.mpr hn
    · rcases r with e | k
      · rfl
      · exact Report.toInt_count hn hr.symm

theorem faithful_send_iff {q : Report b.size} :
    Faithful q (WinSocket.send x b) id ↔ b.size.toNat < 2 ^ 31 := by
  constructor
  · rintro ⟨-, h⟩
    exact toInt_toInt32_iff.mp ((h .new trivial).1 _ rfl)
  · intro hn
    refine ⟨nofun, fun s _ => ⟨fun len hlen => ?_, fun r hr => ?_⟩⟩
    · cases hlen
      exact toInt_toInt32_iff.mpr hn
    · rcases r with e | k
      · rfl
      · exact Report.toInt_count hn hr.symm

/-- What `recv_from` returns of a count that it is told: -1 when the address of the sender is of another family. -/
theorem faithful_recvFrom_iff {q : Report b.size} {peer : Endpoint} :
    Faithful q (WinSocket.recvFrom x b peer) Prod.fst ↔ b.size.toNat < 2 ^ 31 ∧
      ∀ k, q.result = .ok k → ssFamily q.sender = afInet ∨ ssFamily q.sender = afInet6 := by
  constructor
  · rintro ⟨-, h⟩
    obtain ⟨hlen, hcount⟩ := h .new trivial
    refine ⟨toInt_toInt32_iff.mp (hlen _ rfl), fun k hk => ?_⟩
    have htold := hcount (.ok (k, q.sender)) (by
      show _ = q.result.map _
      rw [hk]
      rfl)
    by_contra hf
    have hne : (sockaddrToEndpoint q.sender peer).1 ≠ .success := mt sockaddrToEndpoint_eq_success_iff.mp hf
    dsimp only [Lib.Prog.bind] at htold
    rw [if_pos hne] at htold
    have hneg : (-1 : ℤ) = k := htold
    omega
  · rintro ⟨hn, hf⟩
    refine ⟨nofun, fun s _ => ⟨fun len hlen => ?_, fun r hr => ?_⟩⟩
    · cases hlen
      exact toInt_toInt32_iff.mpr hn
    · change r = q.result.map _ at hr
      cases hq : q.result with
      | error e =>
        rw [hq] at hr
        subst hr
        rfl
      | ok k =>
        rw [hq] at hr
        subst hr
        have hok : (sockaddrToEndpoint q.sender peer).1 = .success := sockaddrToEndpoint_eq_success_iff.mpr (hf k hq)
        show (transfer q).wp (if (sockaddrToEndpoint q.sender peer).1 ≠ .success then _ else _) _ _
        rw [if_neg (not_not_intro hok)]
        exact Report.toInt_count hn hq

theorem faithful_sendTo_iff {q : Report b.size} {dst : Endpoint} :
    Faithful q (WinSocket.sendTo x b dst) id ↔ b.size.toNat < 2 ^ 31 := by
  constructor
  · rintro ⟨-, h⟩
    have hs := h { WinSocket.new with addrFamily := .ipv4 } trivial
    have hok : (endpointToSockaddr .ipv4 dst zeroMemory).1 = .success :=
      endpointToSockaddr_eq_success_iff.mpr (.inl rfl)
    dsimp only [Lib.Prog.bind] at hs
    split at hs
    · rename_i hne
      exact absurd hok hne
    · exact toInt_toInt32_iff.mp ((hs.2 .new trivial).1 _ rfl)
  · intro hn
    refine ⟨nofun, fun s _ => ?_⟩
    show (transfer q).wp (if (endpointToSockaddr s.addrFamily dst zeroMemory).1 ≠ .success then _ else _) _ _
    split
    · rfl
    refine ⟨nofun, fun s _ => ⟨fun len hlen => ?_, fun r hr => ?_⟩⟩
    · cases hlen
      exact toInt_toInt32_iff.mpr hn
    · rcases r with e | k
      · rfl
      · exact ⟨nofun, fun _ _ => Report.toInt_count hn hr.symm⟩

/-! ### The asynchronous functions -/

/-- The length that an overlapped call hands to Winsock. -/
def IoRequest.length? : IoRequest → Option UInt32
  | .wsaRecv _ _ len | .wsaRecvFrom _ _ len | .wsaSend _ _ len | .wsaSendTo _ _ len _ => some len
  | _ => none

/-- The count that a handler is told. -/
def Args.bytes? : Args → Option Int32
  | .read _ _ bytes | .write _ _ bytes => some bytes
  | _ => none

theorem ApiCall.Makes.length {c : ApiCall} {req : IoRequest} (h : c.Makes req) (hb : c.span? = some b) :
    req.length? = some b.size.toUInt32 := by
  cases c <;> cases hb <;> cases req <;>
    first | exact congrArg some h.2 | exact h.elim

/-- The handler of an operation on a span is told the count of its completion. -/
theorem Args.Of.bytes {c : ApiCall} {q : Request} {k : Completion} {ρ : Reports} {args : Args} (h : args.Of q k ρ)
    (hq : c.start? = some q) (hb : c.span? = some b) :
    args.bytes? = some k.nBytesTransferred.toUInt32.toInt32 := by
  have hkind : q.handler.kind = .read ∨ q.handler.kind = .write := by
    cases c <;> cases hb <;> cases hq <;> first | exact .inl rfl | exact .inr rfl
  cases args with
  | read caller e bytes => exact congrArg some h.2.2.2
  | write caller e bytes => exact congrArg some h.2.2.2
  | _ =>
    have hne := h.1
    rcases hkind with hk | hk <;> rw [hk] at hne <;> cases hne

/-- In a state that is reached, the length of an operation on a span, and the count that its handler is told,
are those of the span and of the completion, but for the casts. -/
theorem casts_of_reach {conf : IOCoreConfig} {s : State} (h : machine.Reach .free (State.start conf) s)
    {i : DataId} {n : CallId} {c : ApiCall} (hn : s.w.opOf i = some n) (hc : s.w.calls n = some c)
    (hb : c.span? = some b) :
    (∀ req, s.w.requests i = some req → req.length? = some b.size.toUInt32) ∧
      ∀ k f args, s.w.completions i = some k → (f, args) ∈ s.w.invocations i →
        args.bytes? = some k.nBytesTransferred.toUInt32.toInt32 := by
  obtain ⟨ls, hI, hA⟩ := Ownership.asked_of_reach h
  refine ⟨fun req hreq => ?_, fun k f args hk hmem => ?_⟩
  · obtain ⟨n', c', hn', hc', hm⟩ := hA.makes i req hreq
    cases hn.symm.trans hn'
    cases hc.symm.trans hc'
    exact hm.length hb
  · obtain ⟨pl, hpl⟩ := hI.items
    rcases (hpl.ok i).told with hnil | ⟨q, k', hq, hk', f', args', -, hcalls, hof⟩
    · rw [show s.w.invocations i = [] from hnil] at hmem
      cases hmem
    · have hreq : c.start? = some q := by
        change (s.w.opOf i).bind (fun n => (s.w.calls n).bind ApiCall.start?) = some q at hq
        rwa [hn, Option.bind_some, hc, Option.bind_some] at hq
      rw [show s.w.invocations i = [(f', args')] from hcalls] at hmem
      cases List.mem_singleton.mp hmem
      cases hk.symm.trans hk'
      exact hof.bytes hreq hb

/-- **No length and no count is truncated**, if and only if the sizes fit: in `recv`, `send`, `recv_from` and
`send_to` an `int`, and in `recv_from` the sender of what was received has an address that an `Endpoint` can
hold; and in the operations of `start_recv`, `start_recv_from`, `start_send` and `start_send_to`, in every
state that is reached, a `ULONG`, and the counts an `std::int32_t`. -/
theorem lengths_iff (x : SockId) (b : Span) (ep : Endpoint) :
    (∀ q : Report b.size,
      (Faithful q (WinSocket.recv x b) id ↔ b.size.toNat < 2 ^ 31) ∧
      (Faithful q (WinSocket.send x b) id ↔ b.size.toNat < 2 ^ 31) ∧
      (Faithful q (WinSocket.recvFrom x b ep) Prod.fst ↔ b.size.toNat < 2 ^ 31 ∧
        ∀ k, q.result = .ok k → ssFamily q.sender = afInet ∨ ssFamily q.sender = afInet6) ∧
      (Faithful q (WinSocket.sendTo x b ep) id ↔ b.size.toNat < 2 ^ 31)) ∧
    ∀ conf (s : State), machine.Reach .free (State.start conf) s → ∀ i n c, s.w.opOf i = some n →
      s.w.calls n = some c → c.span? = some b →
        (∀ req, s.w.requests i = some req →
          ((∃ len ∈ req.length?, len.toNat = b.size.toNat) ↔ b.size.toNat < 2 ^ 32)) ∧
        ∀ k f args, s.w.completions i = some k → (f, args) ∈ s.w.invocations i →
          ((∃ bytes ∈ args.bytes?, bytes.toInt = k.nBytesTransferred.toNat) ↔
            k.nBytesTransferred.toNat < 2 ^ 31) := by
  refine ⟨fun q => ⟨faithful_recv_iff, faithful_send_iff, faithful_recvFrom_iff, faithful_sendTo_iff⟩,
    fun conf s hs i n c hn hc hb => ?_⟩
  obtain ⟨hlen, hbytes⟩ := casts_of_reach hs hn hc hb
  refine ⟨fun req hreq => ?_, fun k f args hk hmem => ?_⟩
  · rw [hlen req hreq, ← toNat_toUInt32_iff]
    simp
  · rw [hbytes k f args hk hmem, ← toInt_toInt32_iff]
    simp

/-- `recv` into a span of 2^32 bytes hands over the length 0; and `recv_from` into one of 16 bytes returns -1 when
Winsock has reported two, from a stream whose sender it does not store. -/
theorem not_faithful_recv :
    ¬ Faithful (.ofCount (n := 4294967296) 0 (by decide) zeroMemory) (WinSocket.recv 0 ⟨0, 4294967296⟩) id ∧
      ¬ Faithful (.ofCount (n := 16) 2 (by decide) zeroMemory)
        (WinSocket.recvFrom 0 ⟨0, 16⟩ (.empty zeroMemory)) Prod.fst := by
  refine ⟨?_, fun h => ?_⟩
  · rintro ⟨-, h⟩
    have hlen := (h .new trivial).1 _ rfl
    exact absurd hlen (by decide)
  · have hf := ((faithful_recvFrom_iff (b := ⟨0, 16⟩)).mp h).2 2 rfl
    rcases hf with hf | hf <;> exact absurd hf (by decide)

end FirelinkNet
