import FirelinkNet.System
import FirelinkNet.Sockaddr

/-!
# Receiving from a stream

`recv` and `recv_from` on a connected stream socket. The kernel has the bytes that the
peer sent, and hands out as many of the next ones as it likes, up to the length of the
buffer. For a stream `recvfrom` leaves the storage for the address of the sender as it
is, and that is zeroed: the conversion to an `Endpoint`, which comes after the bytes
were handed out, fails.

## What is proved

* `Conn.lossless_iff` — **no byte is lost, and every count is reported**, in a sequence of
  calls of any length, if and only if the kernel refuses every `recvfrom` in it.
-/

namespace FirelinkNet

open Lib

/-- A world with a connected stream socket. -/
structure Conn where
  /-- The world. -/
  w : World
  /-- What the peer has sent, and will send, that the kernel has not handed out. -/
  incoming : List UInt8
  /-- The memory of the process. -/
  memory : ℕ → UInt8

namespace Conn

/-- The `n` bytes from the address `p` on. -/
def read (c : Conn) (p n : ℕ) : List UInt8 := (List.range n).map fun i => c.memory (p + i)

/-- The next `k` bytes are handed out, to the address `p`. -/
def handOut (c : Conn) (p k : ℕ) : Conn :=
  { c with
    incoming := c.incoming.drop k
    memory := fun j => if p ≤ j ∧ j < p + k then c.incoming.getD (j - p) 0 else c.memory j }

/-- What a receive does that is answered so. -/
def received (c : Conn) (p : ℕ) (a : Ans) : Conn :=
  match a.error with
  | some _ => c
  | none => c.handOut p a.bytes

/-- The kernel can answer a receive of `len` bytes so. -/
def hasBytes (c : Conn) (len : Int32) (a : Ans) : Bool :=
  match a.error with
  | some _ => true
  | none => decide (a.bytes ≤ c.incoming.length ∧ (a.bytes : ℤ) ≤ len.toInt)

/-- The call can return now. -/
def ready (c : Conn) : Op → Ans → Bool
  | .recv _ _ len, a | .recvfrom _ _ len, a => c.hasBytes len a
  | o, _ => c.w.holdsRefs o

/-- What a call does. `recvfrom` leaves the address of the sender as it is. -/
def reply (c : Conn) (t : ℕ) : (o : Op) → Ans → Res o × Conn
  | .recv _ p _, a => (World.result a a.bytes, c.received p a)
  | .recvfrom _ p _, a => (World.result a (a.bytes, zeroMemory), c.received p a)
  | o, a => ((c.w.reply t o a).1, { c with w := (c.w.reply t o a).2 })

end Conn

/-- The host of a program that runs alone on a connected stream socket. -/
def connHost : Host Op Res Conn Ans := ⟨fun c _ => c.ready, Conn.reply⟩

/-- A synchronous receive. -/
inductive Receive where
  /-- `recv`. -/
  | recv (buffer : Span)
  /-- `recv_from`. -/
  | recvFrom (buffer : Span) (peer : Endpoint)

namespace Receive

/-- Its buffer. -/
def buffer : Receive → Span
  | .recv b | .recvFrom b _ => b

/-- It is a `recv_from`. -/
def isFrom : Receive → Bool
  | .recv _ => false
  | .recvFrom _ _ => true

/-- What it runs, and returns. -/
def body (x : SockId) : Receive → Prog Int32
  | .recv b => WinSocket.recv x b
  | .recvFrom b peer => do return (← WinSocket.recvFrom x b peer).1

end Receive

namespace Conn

/-- One call, Winsock's function answered by `a`: what it returns. -/
def receive (c : Conn) (x : SockId) (r : Receive) (a : Ans) : Option (Int32 × Conn) :=
  (r.body x).eval connHost 0 c [{}, a]

/-- What the caller takes from the buffer of a call that returned `n`. -/
def taken (c : Conn) (r : Receive) (n : Int32) : List UInt8 :=
  if 0 ≤ n.toInt then c.read r.buffer.data n.toInt.toNat else []

/-- Calls one after another: what each returns, and what the caller takes from its buffer. -/
def receiveAll (c : Conn) (x : SockId) : List (Receive × Ans) → Option (List (Int32 × List UInt8) × Conn)
  | [] => some ([], c)
  | (r, a) :: es => do
    let (n, c₁) ← c.receive x r a
    let (rs, c₂) ← c₁.receiveAll x es
    return ((n, c₁.taken r n) :: rs, c₂)

/-- Every count that Winsock reports is returned, and the stream is what the caller has taken, and then what
is to come. -/
def Lossless (c : Conn) (es : List (Receive × Ans)) (rs : List (Int32 × List UInt8)) (c' : Conn) : Prop :=
  List.Forall₂ (fun e r => e.2.error = none → r.1.toInt = e.2.bytes) es rs ∧
    c.incoming = (rs.map Prod.snd).flatten ++ c'.incoming

variable {c c' : Conn} {x : SockId} {r : Receive} {a : Ans} {n : Int32}

/-- What was handed out is in the buffer. -/
theorem read_handOut {p k : ℕ} (h : k ≤ c.incoming.length) : (c.handOut p k).read p k = c.incoming.take k := by
  refine List.ext_getElem ?_ fun i hi _ => ?_
  · simp [read, h]
  · have hik : i < k := by simpa [read] using hi
    have hil : i < c.incoming.length := by omega
    simp [read, handOut, hik, hil]

/-- The zeroed storage is no address. -/
theorem sockaddrToEndpoint_zeroMemory (peer : Endpoint) : (sockaddrToEndpoint zeroMemory peer).1 ≠ .success := by
  intro h
  rcases sockaddrToEndpoint_eq_success_iff.mp h with h | h <;> exact absurd h (by decide)

/-- **One call**: it fails, and nothing is handed out; or bytes are handed out, and `recv_from` returns -1. -/
theorem receive_eq : c.receive x r a =
    if c.hasBytes r.buffer.size.toUInt32.toInt32 a then
      some (if a.error.isSome || r.isFrom then -1 else .ofNat a.bytes, c.received r.buffer.data a)
    else none := by
  have hread : connHost.ready c 0 (.readSocket x) {} = true := rfl
  have hsame : (connHost.reply c 0 (.readSocket x) {}).2 = c := rfl
  have hrecv : ∀ s p len, connHost.reply c 0 (.recv s p len) a = (World.result a a.bytes, c.received p a) :=
    fun _ _ _ => rfl
  have hfrom : ∀ s p len,
      connHost.reply c 0 (.recvfrom s p len) a = (World.result a (a.bytes, zeroMemory), c.received p a) :=
    fun _ _ _ => rfl
  cases r with
  | recv b =>
    simp only [receive, Receive.body, WinSocket.recv, Lib.Prog.op_bind, Lib.Prog.eval, hread, hsame, if_true, hrecv]
    refine if_congr Iff.rfl ?_ rfl
    cases ha : a.error <;> simp only [World.result, ha] <;> rfl
  | recvFrom b peer =>
    simp only [receive, Receive.body, WinSocket.recvFrom, Lib.Prog.op_bind, Lib.Prog.call_bind, Lib.Prog.eval,
      hread, hsame, if_true, hfrom]
    refine if_congr Iff.rfl ?_ rfl
    cases ha : a.error with
    | some e =>
      simp only [World.result, ha]
      rfl
    | none =>
      simp only [World.result, ha, ne_eq, sockaddrToEndpoint_zeroMemory, not_false_eq_true, if_true]
      rfl

/-- What a call that returned leaves. -/
theorem receive_cases (h : c.receive x r a = some (n, c')) :
    (a.error.isSome = true ∧ n = -1 ∧ c' = c) ∨
      a.error = none ∧ a.bytes ≤ c.incoming.length ∧ a.bytes < 2 ^ 31 ∧
        n = (if r.isFrom then -1 else .ofNat a.bytes) ∧ c' = c.handOut r.buffer.data a.bytes := by
  have hlt := r.buffer.size.toUInt32.toInt32.toInt_lt
  rw [receive_eq] at h
  unfold hasBytes received at h
  cases ha : a.error with
  | some e =>
    rw [ha] at h
    cases h
    exact .inl ⟨rfl, rfl, rfl⟩
  | none =>
    rw [ha] at h
    dsimp only at h
    split at h
    · rename_i hb
      obtain ⟨hlen, hle⟩ := of_decide_eq_true hb
      cases h
      exact .inr ⟨rfl, hlen, by omega, rfl, rfl⟩
    · cases h

variable {es : List (Receive × Ans)} {rs : List (Int32 × List UInt8)} {bs : List UInt8}

theorem receiveAll_cons (h : c.receiveAll x ((r, a) :: es) = some (rs, c')) : ∃ n c₁ rs',
    c.receive x r a = some (n, c₁) ∧ c₁.receiveAll x es = some (rs', c') ∧ rs = (n, c₁.taken r n) :: rs' := by
  obtain ⟨⟨n, c₁⟩, hr, h⟩ := Option.bind_eq_some_iff.mp h
  obtain ⟨⟨rs', c₂⟩, hes, h⟩ := Option.bind_eq_some_iff.mp h
  cases h
  exact ⟨n, c₁, rs', hr, hes, rfl⟩

theorem lossless_cons : c.Lossless ((r, a) :: es) ((n, bs) :: rs) c' ↔
    ((a.error = none → n.toInt = a.bytes) ∧
      List.Forall₂ (fun e r => e.2.error = none → r.1.toInt = e.2.bytes) es rs) ∧
      c.incoming = bs ++ ((rs.map Prod.snd).flatten ++ c'.incoming) := by
  rw [Lossless, List.forall₂_cons, List.map_cons, List.flatten_cons, List.append_assoc]

/-- A call that fails hands out nothing. -/
theorem lossless_failed (h : a.error.isSome = true) :
    c.Lossless ((r, a) :: es) ((n, []) :: rs) c' ↔ c.Lossless es rs c' := by
  have hne : a.error ≠ none := Option.isSome_iff_ne_none.mp h
  rw [lossless_cons, List.nil_append, Lossless]
  exact and_congr_left fun _ => and_iff_right fun h => absurd h hne

/-- A call that returns the count hands out what is in its buffer. -/
theorem lossless_returned (hn : n.toInt = a.bytes) :
    c.Lossless ((r, a) :: es) ((n, c.incoming.take a.bytes) :: rs) c' ↔
      (c.handOut r.buffer.data a.bytes).Lossless es rs c' := by
  have hdrop : c.incoming = c.incoming.take a.bytes ++ ((rs.map Prod.snd).flatten ++ c'.incoming) ↔
      c.incoming.drop a.bytes = (rs.map Prod.snd).flatten ++ c'.incoming := by
    nth_rewrite 1 [← List.take_append_drop a.bytes c.incoming]
    exact List.append_right_inj _
  rw [lossless_cons, hdrop, Lossless]
  exact and_congr_left fun _ => and_iff_right fun _ => hn

/-- **No byte is lost, and every count is reported**, in every sequence of calls, if and only if the kernel refuses
every `recvfrom` in it: what a `recv_from` consumes is lost, and it returns -1. -/
theorem lossless_iff (h : c.receiveAll x es = some (rs, c')) :
    c.Lossless es rs c' ↔ ∀ e ∈ es, e.1.isFrom = true → e.2.error.isSome = true := by
  induction es generalizing c rs with
  | nil =>
    cases h
    constructor
    · rintro - e ⟨⟩
    · intro _
      exact ⟨.nil, rfl⟩
  | cons e es ih =>
    obtain ⟨r, a⟩ := e
    obtain ⟨n, c₁, rs', hr, hes, rfl⟩ := receiveAll_cons h
    rw [List.forall_mem_cons, ← ih hes]
    rcases receive_cases hr with ⟨he, rfl, rfl⟩ | ⟨he, hlen, hlt, rfl, rfl⟩
    · exact (lossless_failed he).trans (and_iff_right fun _ => he).symm
    · by_cases hf : r.isFrom = true
      · rw [if_pos hf]
        constructor
        · intro hl
          have hcount := (lossless_cons.mp hl).1.1 he
          exact absurd hcount (by rw [show (-1 : Int32).toInt = -1 from rfl]; omega)
        · intro hl
          have hsome := hl.1 hf
          rw [he] at hsome
          cases hsome
      · have hn : (Int32.ofNat a.bytes).toInt = a.bytes := Int32.toInt_ofNat_of_lt hlt
        have htaken : (c.handOut r.buffer.data a.bytes).taken r (.ofNat a.bytes) = c.incoming.take a.bytes := by
          rw [taken, hn, if_pos (Int.natCast_nonneg _), Int.toNat_natCast, read_handOut hlen]
        rw [if_neg hf, htaken]
        exact (lossless_returned hn).trans (and_iff_right fun hf' => absurd hf' hf).symm

/-- The peer has sent three bytes. -/
def threeBytes : Conn := ⟨World.start ⟨0, 0, 0, 0⟩, [102, 108, 110], fun _ => 0⟩

/-- `recv` gets two bytes, and then one. -/
theorem lossless_iff_recv : ∃ rs c', threeBytes.receiveAll 0 [(.recv ⟨0, 16⟩, { bytes := 2 }),
    (.recv ⟨0, 16⟩, { bytes := 1 })] = some (rs, c') ∧ rs = [(2, [102, 108]), (1, [110])] ∧
      threeBytes.Lossless [(.recv ⟨0, 16⟩, { bytes := 2 }), (.recv ⟨0, 16⟩, { bytes := 1 })] rs c' := by
  refine ⟨_, _, rfl, by decide, (lossless_iff rfl).mpr ?_⟩
  simp [Receive.isFrom]

/-- `recv_from` gets two bytes, and returns -1. -/
theorem not_lossless_recvFrom : ¬ ∀ x (c c' : Conn) es rs, c.receiveAll x es = some (rs, c') →
    (∀ e ∈ es, e.1.buffer.size.toNat < 2 ^ 31) → c.Lossless es rs c' := by
  intro h
  have hl := h 0 threeBytes _ [(.recvFrom ⟨0, 16⟩ (.empty zeroMemory), { bytes := 2 })] _ rfl (by simp [Receive.buffer])
  exact absurd ((lossless_cons.mp hl).1.1 rfl) (by decide)

end Conn

end FirelinkNet
