import FirelinkNet.Sockaddr
import FirelinkNet.Tame

/-!
# The addresses handed to Winsock

`bind`, `connect`, `send_to`, `start_connect` and `start_send_to` make a socket address
of an `Endpoint` in the family of their socket and hand it to Winsock. The `Endpoint`
itself does not know its family.

## What is proved

* `handed_body` — what each of the five hands over denotes the endpoint in the family of
  the socket, and in a family without socket addresses it is an error.
* `target_reply` — **an answer to a reported peer goes to that peer**, but for the scope
  id, which an endpoint does not keep.
* `target_built` — **an endpoint denotes what it was built from** on a socket of its own
  family.
-/

namespace FirelinkNet

open Lib Prog

/-- The addresses that a call hands to Winsock. -/
def Op.names : Op → List (NameRole × SockaddrStorage)
  | .bind _ name => [(.own, name)]
  | .connect _ name | .sendto _ _ _ name => [(.peer, name)]
  | .overlapped req _ _ => req.name?.toList
  | _ => []

theorem World.addresses_reply (w : World) (t : ℕ) (o : Op) (a : Ans) :
    (w.reply t o a).2.addresses = o.names ++ w.addresses := by
  cases o with
  | closeThreadpoolCleanupGroupMembers g => cases g <;> rfl
  | _ => rfl

/-- Since `w₀`, only addresses with `P` were handed over. -/
def Handed (P : NameRole × SockaddrStorage → Prop) (w₀ w : World) : Prop :=
  ∃ l, w.addresses = l ++ w₀.addresses ∧ ∀ n ∈ l, P n

namespace Handed

variable {P : NameRole × SockaddrStorage → Prop} {w₀ w : World} {t : ℕ}

theorem refl (w : World) : Handed P w w := ⟨[], rfl, by simp⟩

theorem mono {Q : NameRole × SockaddrStorage → Prop} (h : Handed P w₀ w) (hPQ : ∀ n, P n → Q n) :
    Handed Q w₀ w := by
  obtain ⟨l, hw, hl⟩ := h
  exact ⟨l, hw, fun n hn => hPQ n (hl n hn)⟩

theorem reply {o : Op} (a : Ans) (h : Handed P w₀ w) (ho : ∀ n ∈ o.names, P n) :
    Handed P w₀ (w.reply t o a).2 := by
  obtain ⟨l, hw, hl⟩ := h
  refine ⟨o.names ++ l, by rw [World.addresses_reply, hw, List.append_assoc], fun n hn => ?_⟩
  rcases List.mem_append.mp hn with hn | hn
  · exact ho n hn
  · exact hl n hn

theorem of_eq {w' : World} (h : Handed P w₀ w) (he : w'.addresses = w.addresses) :
    Handed P w₀ w' := by
  obtain ⟨l, hw, hl⟩ := h
  exact ⟨l, he.trans hw, hl⟩

theorem silent {α : Type} {p : Prog α} (h : Handed P w₀ w) (hp : p.All fun o => o.names = []) :
    p.Always serialHost t (fun _ w' => Handed P w₀ w') w :=
  .of_all hp (fun _ _ a ho _ hw => hw.reply a (by rw [ho]; nofun)) h

end Handed

/-! ### The five functions -/

/-- The socket and the endpoint of a function that takes one. -/
def ApiCall.destination? : ApiCall → Option (SockId × Endpoint)
  | .bind x e | .connect x e | .sendTo x _ e | .startConnect x e _ | .startSendTo x _ e _ =>
    some (x, e)
  | _ => none

/-- What the endpoint is for. -/
def ApiCall.role : ApiCall → NameRole
  | .bind _ _ => .own
  | _ => .peer

/-- The members of a socket. -/
def World.sock (w : World) (x : SockId) : WinSocket := (w.socks x).getD .new

/-- The wildcard address of a family. -/
def anyTarget (f : AddressFamily) : Target :=
  if f = .ipv4 then .ipv4 (.any 0) else .ipv6 (.any 0) zeroMemory

/-- An address that the call may hand over: the endpoint's in its role, and the wildcard address
in the other. -/
def ApiCall.MayName (c : ApiCall) (f : AddressFamily) (e : Endpoint)
    (n : NameRole × SockaddrStorage) : Prop :=
  target n.2 = if n.1 = c.role then e.target f else anyTarget f

/-! Deleting an `IOData` hands nothing over. -/

theorem silent_destroyAll (ds : List Dead) : (WinSocket.destroyAll ds).All fun o => o.names = [] := by
  induction ds with
  | nil => exact trivial
  | cons d ds ih =>
    refine All.bind ?_ fun _ => ih
    unfold WinSocket.destroy
    split
    · exact ⟨rfl, fun _ => ⟨rfl, fun _ => ⟨rfl, fun _ => ⟨rfl, fun _ => trivial⟩⟩⟩⟩
    · exact ⟨rfl, fun _ => trivial⟩

theorem silent_deleteIOData (i : DataId) :
    (WinSocket.deleteIOData i).All fun o => o.names = [] := ⟨rfl, silent_destroyAll⟩

section

variable {P : NameRole × SockaddrStorage → Prop} {w₀ w : World} {t : ℕ}

theorem handed_startIo {x : SockId} {i : DataId} {request : Prog IoRequest}
    (hr : request.Always serialHost t (fun req w' => Handed P w₀ w' ∧ ∀ n ∈ req.name?, P n)
      (w.startIo t (w.sock x).socketIoHandle)) :
    (WinSocket.startIo x i request).Always serialHost t (fun _ w' => Handed P w₀ w') w := by
  have hdelete : ∀ e : ErrorCode, (WinSocket.deleteIOData i >>= fun _ => op (.readIoHandle x) >>=
      fun io => op (.cancelThreadpoolIo io) >>= fun _ => pure e : Prog ErrorCode).All
        fun o => o.names = [] := fun e =>
    (silent_deleteIOData i).bind fun _ => ⟨rfl, fun _ => ⟨rfl, fun _ => trivial⟩⟩
  refine Always.op_bind fun _ _ => Always.op_bind fun _ _ => hr.bind ?_
  rintro req w' ⟨hw, hreq⟩
  refine Always.op_bind fun a _ => ?_
  have hw' : Handed P w₀ (w'.reply t (.overlapped req i (w.sock x).socketIoHandle) a).2 :=
    hw.reply a fun n hn => hreq n (by simpa [Op.names] using hn)
  generalize (serialHost.reply w' t (.overlapped req i _) a).1 = r
  rcases r with e | _
  · dsimp only
    split
    · exact hw'.silent (hdelete _)
    · exact hw'
  · exact hw'

/-- `bind`, on a socket of family `f`. -/
theorem handed_bind {x : SockId} {e : Endpoint} (h : Handed P w₀ w)
    (hP : (w.sock x).addrFamily.IsInet →
      P (.own, (endpointToSockaddr (w.sock x).addrFamily e zeroMemory).2)) :
    (WinSocket.bind x e).Always serialHost t (fun r w' => Handed P w₀ w' ∧
      w'.heap = w.heap ∧ (¬ (w.sock x).addrFamily.IsInet → r ≠ .success ∧ w' = w)) w := by
  refine Always.op_bind fun _ _ => ?_
  show (if (endpointToSockaddr (w.sock x).addrFamily e zeroMemory).1 ≠ _ then _ else _ :
    Prog ErrorCode).Always serialHost t _ w
  split
  · rename_i hne
    exact ⟨h, rfl, fun _ => ⟨hne, rfl⟩⟩
  · rename_i heq
    have hf := endpointToSockaddr_eq_success_iff.mp (not_not.mp heq)
    refine Always.op_bind fun _ _ => Always.op_bind fun a _ => ?_
    have hw' : Handed P w₀ (w.reply t (.bind (w.sock x).nativeSocket
        (endpointToSockaddr (w.sock x).addrFamily e zeroMemory).2) a).2 :=
      h.reply a fun n hn => by
        rw [List.mem_singleton.mp hn]
        exact hP hf
    have hheap : (w.reply t (.bind (w.sock x).nativeSocket
        (endpointToSockaddr (w.sock x).addrFamily e zeroMemory).2) a).2.heap = w.heap := rfl
    generalize (serialHost.reply _ t (.bind _ _) a).1 = r
    change (Lib.Prog.Always _ _ _ _ (w.reply t (.bind (w.sock x).nativeSocket
        (endpointToSockaddr (w.sock x).addrFamily e zeroMemory).2) a).2)
    generalize (w.reply t (.bind (w.sock x).nativeSocket
        (endpointToSockaddr (w.sock x).addrFamily e zeroMemory).2) a).2 = w' at hw' hheap
    rcases r with e | _
    · exact ⟨hw', hheap, fun hn => absurd hf hn⟩
    · exact Always.op_bind fun a' _ => ⟨hw'.of_eq rfl, hheap, fun hn => absurd hf hn⟩

/-- The implicit bind of `start_connect`. -/
theorem handed_bindForConnect {x : SockId} {any : Endpoint} (h : Handed P w₀ w)
    (hP : P (.own, (endpointToSockaddr (w.sock x).addrFamily any zeroMemory).2)) :
    (WinSocket.bindForConnect x any).Always serialHost t
      (fun _ w' => Handed P w₀ w' ∧ w'.heap = w.heap) w := by
  refine Always.op_bind fun _ _ => ?_
  split
  · exact ⟨h, rfl⟩
  · exact (handed_bind h fun _ => hP).mono fun _ _ hw => ⟨hw.1, hw.2.1⟩

attribute [local irreducible] Prog.Always

/-- The end of `start_connect` and of `start_send_to`, which name the peer as `io_data` has it. -/
theorem handed_startIo_peer {x : SockId} {i : DataId} {d : IOData}
    {g : SockaddrStorage → NativeHandle → IoRequest} (h : Handed P w₀ w)
    (hd : w.heap i = .live d)
    (hg : ∀ s, ∀ n ∈ (g d.peerWinAddr s).name?, P n) :
    (WinSocket.startIo x i do
      let d ← op (.readIOData i)
      return g d.peerWinAddr (← op (.readSocket x)).nativeSocket).Always serialHost t
        (fun _ w' => Handed P w₀ w') w := by
  refine handed_startIo (Always.op_bind fun a _ => Always.op_bind fun b _ => always_ret.mpr ⟨?_, ?_⟩)
  · exact h.of_eq rfl
  · show ∀ n ∈ (g (w.heap i).get.peerWinAddr _).name?, P n
    rw [hd]
    exact hg _

theorem handed_startConnect {x : SockId} {dst : Endpoint} {handler : Option ℕ}
    (h : Handed P w₀ w)
    (hdst : (w.sock x).addrFamily.IsInet →
      P (.peer, (endpointToSockaddr (w.sock x).addrFamily dst zeroMemory).2))
    (hany : (w.sock x).addrFamily.IsInet → ∀ n : SockaddrStorage,
      target n = anyTarget (w.sock x).addrFamily → P (.own, n)) :
    (WinSocket.startConnect x dst handler).Always serialHost t (fun r w' => Handed P w₀ w' ∧
      (¬ (w.sock x).addrFamily.IsInet → r ≠ .success ∧ w'.addresses = w.addresses)) w := by
  refine Always.op_bind fun a _ => Always.op_bind fun _ _ => Always.op_bind fun b _ => ?_
  set r := endpointToSockaddr (w.sock x).addrFamily dst zeroMemory with hr
  set d : IOData := { IOData.new x ⟨.connect, handler⟩ with peerWinAddr := r.2 } with hd
  set w₁ := (w.newIOData t (.new x ⟨.connect, handler⟩)).writeIOData w.nextData d with hw₁
  have hlive : w₁.heap w.nextData = .live d := by
    simp [hw₁, World.writeIOData, World.newIOData, Cell.map]
  have h₁ : Handed P w₀ w₁ := h.of_eq rfl
  show (if r.1 ≠ .success then _ else _ : Prog ErrorCode).Always serialHost t _ w₁
  split
  · rename_i hne
    exact always_ret.mpr ⟨h₁, fun _ => ⟨hne, rfl⟩⟩
  rename_i heq
  have hf : (w.sock x).addrFamily.IsInet := endpointToSockaddr_eq_success_iff.mp (not_not.mp heq)
  have hend : ∀ err w', Handed P w₀ w' ∧ w'.heap = w₁.heap → (if err ≠ .success then pure err else
      WinSocket.startIo x w.nextData do
        let d ← op (.readIOData w.nextData)
        return .connectEx (← op (.readSocket x)).nativeSocket d.peerWinAddr : Prog ErrorCode).Always
          serialHost t (fun r w' => Handed P w₀ w' ∧
            (¬ (w.sock x).addrFamily.IsInet → r ≠ .success ∧ w'.addresses = w.addresses)) w' := by
    rintro err w' ⟨hw', hheap⟩
    split
    · exact always_ret.mpr ⟨hw', fun hn => absurd hf hn⟩
    · refine (handed_startIo_peer (d := d) (g := fun name s => .connectEx s name) hw'
        (by rw [hheap, hlive]) fun s n hn => ?_).mono fun _ _ hw => ⟨hw, fun hn => absurd hf hn⟩
      rw [← Option.some.inj hn]
      exact hdst hf
  have hfam : ∀ any : Endpoint, any.target (w.sock x).addrFamily = anyTarget (w.sock x).addrFamily →
      P (.own, (endpointToSockaddr (w₁.sock x).addrFamily any zeroMemory).2) := by
    intro any hann
    exact hany hf _ ((target_of_endpoint hf any zeroMemory).trans hann)
  dsimp only
  split
  · rename_i hss
    change ssFamily (endpointToSockaddr (w.sock x).addrFamily dst zeroMemory).2 = afInet at hss
    have h4 : (w.sock x).addrFamily = .ipv4 := by
      refine hf.resolve_right fun h6 => ?_
      rw [h6, ssFamily_ipv6] at hss
      exact absurd hss (by decide)
    refine (handed_bindForConnect h₁ (hfam _ ?_)).bind hend
    rw [h4]
    exact congrArg Target.ipv4 (Endpoint.ipv4_ofIPv4 _ _)
  · rename_i hss
    have h6 : (w.sock x).addrFamily = .ipv6 := by
      refine hf.resolve_left fun h4 => hss ?_
      change ssFamily (endpointToSockaddr (w.sock x).addrFamily dst zeroMemory).2 = afInet
      rw [h4, ssFamily_ipv4]
    split
    · refine (handed_bindForConnect h₁ (hfam _ ?_)).bind hend
      rw [h6]
      exact congrArg (Target.ipv6 · zeroMemory) (Endpoint.ipv6_ofIPv6 _)
    · exact hend .success _ ⟨h₁, rfl⟩

theorem handed_startSendTo {x : SockId} {b : Span} {dst : Endpoint} {handler : Option ℕ}
    (h : Handed P w₀ w)
    (hdst : (w.sock x).addrFamily.IsInet →
      P (.peer, (endpointToSockaddr (w.sock x).addrFamily dst zeroMemory).2)) :
    (WinSocket.startSendTo x b dst handler).Always serialHost t (fun r w' => Handed P w₀ w' ∧
      (¬ (w.sock x).addrFamily.IsInet → r ≠ .success ∧ w'.addresses = w.addresses)) w := by
  refine Always.op_bind fun a _ => Always.op_bind fun _ _ => Always.op_bind fun a' _ => ?_
  set r := endpointToSockaddr (w.sock x).addrFamily dst zeroMemory with hr
  set d : IOData := { IOData.new x ⟨.write, handler⟩ with userBuffer := b, peerWinAddr := r.2 } with hd
  set w₁ := (w.newIOData t { IOData.new x ⟨.write, handler⟩ with userBuffer := b }).writeIOData
    w.nextData d with hw₁
  have hlive : w₁.heap w.nextData = .live d := by
    simp [hw₁, World.writeIOData, World.newIOData, Cell.map]
  have h₁ : Handed P w₀ w₁ := h.of_eq rfl
  show (if r.1 ≠ .success then _ else _ : Prog ErrorCode).Always serialHost t _ w₁
  split
  · rename_i hne
    exact always_ret.mpr ⟨h₁, fun _ => ⟨hne, rfl⟩⟩
  · rename_i heq
    have hf : (w.sock x).addrFamily.IsInet := endpointToSockaddr_eq_success_iff.mp (not_not.mp heq)
    refine (handed_startIo_peer (d := d) (g := fun name s => .wsaSendTo s b.data b.size.toUInt32 name)
      h₁ hlive fun s n hn => ?_).mono fun _ _ hw => ⟨hw, fun hn => absurd hf hn⟩
    rw [← Option.some.inj hn]
    exact hdst hf

theorem handed_connect {x : SockId} {dst : Endpoint} (h : Handed P w₀ w)
    (hdst : (w.sock x).addrFamily.IsInet →
      P (.peer, (endpointToSockaddr (w.sock x).addrFamily dst zeroMemory).2)) :
    (WinSocket.connect x dst).Always serialHost t (fun r w' => Handed P w₀ w' ∧
      (¬ (w.sock x).addrFamily.IsInet → r ≠ .success ∧ w'.addresses = w.addresses)) w := by
  refine Always.op_bind fun _ _ => ?_
  show (if (endpointToSockaddr (w.sock x).addrFamily dst zeroMemory).1 ≠ _ then _ else _ :
    Prog ErrorCode).Always serialHost t _ w
  split
  · rename_i hne
    exact always_ret.mpr ⟨h, fun _ => ⟨hne, rfl⟩⟩
  · rename_i heq
    have hf := endpointToSockaddr_eq_success_iff.mp (not_not.mp heq)
    refine Always.op_bind fun _ _ => Always.op_bind fun a _ => ?_
    have hw' : Handed P w₀ (w.reply t (.connect (w.sock x).nativeSocket
        (endpointToSockaddr (w.sock x).addrFamily dst zeroMemory).2) a).2 :=
      h.reply a fun n hn => by
        rw [List.mem_singleton.mp hn]
        exact hdst hf
    generalize (serialHost.reply _ t (.connect _ _) a).1 = r
    rcases r with e | _
    · exact always_ret.mpr ⟨hw', fun hn => absurd hf hn⟩
    · exact Always.op_bind fun a' _ => always_ret.mpr ⟨hw'.of_eq rfl, fun hn => absurd hf hn⟩

theorem handed_sendTo {x : SockId} {b : Span} {dst : Endpoint} (h : Handed P w₀ w)
    (hdst : (w.sock x).addrFamily.IsInet →
      P (.peer, (endpointToSockaddr (w.sock x).addrFamily dst zeroMemory).2)) :
    (WinSocket.sendTo x b dst).Always serialHost t (fun r w' => Handed P w₀ w' ∧
      (¬ (w.sock x).addrFamily.IsInet → r = -1 ∧ w'.addresses = w.addresses)) w := by
  refine Always.op_bind fun _ _ => ?_
  show (if (endpointToSockaddr (w.sock x).addrFamily dst zeroMemory).1 ≠ _ then _ else _ :
    Prog Int32).Always serialHost t _ w
  split
  · exact always_ret.mpr ⟨h, fun _ => ⟨rfl, rfl⟩⟩
  · rename_i heq
    have hf := endpointToSockaddr_eq_success_iff.mp (not_not.mp heq)
    refine Always.op_bind fun _ _ => Always.op_bind fun a _ => ?_
    have hw' : Handed P w₀ (w.reply t (.sendto (w.sock x).nativeSocket b.data b.size.toUInt32.toInt32
        (endpointToSockaddr (w.sock x).addrFamily dst zeroMemory).2) a).2 :=
      h.reply a fun n hn => by
        rw [List.mem_singleton.mp hn]
        exact hdst hf
    generalize (serialHost.reply _ t (.sendto _ _ _ _) a).1 = r
    rcases r with e | _
    · exact always_ret.mpr ⟨hw', fun hn => absurd hf hn⟩
    · exact Always.op_bind fun a' _ => always_ret.mpr ⟨hw'.of_eq rfl, fun hn => absurd hf hn⟩

/-- **What a function hands over** denotes its endpoint in the family of the socket, and where that
family has no socket addresses it hands nothing over and returns an error. -/
theorem handed_body {c : ApiCall} {x : SockId} {e : Endpoint} (hc : c.destination? = some (x, e))
    (w : World) (t : ℕ) : c.body.Always serialHost t (fun r w' =>
      Handed (c.MayName (w.sock x).addrFamily e) w w' ∧
        (¬ (w.sock x).addrFamily.IsInet → r ≠ .success ∧ w'.addresses = w.addresses)) w := by
  have hdst : (w.sock x).addrFamily.IsInet → c.MayName (w.sock x).addrFamily e
      (c.role, (endpointToSockaddr (w.sock x).addrFamily e zeroMemory).2) := by
    intro hf
    rw [ApiCall.MayName, if_pos rfl]
    exact target_of_endpoint hf e zeroMemory
  cases c with
  | bind y e' =>
    cases hc
    show (WinSocket.bind x e).Always serialHost t _ w
    refine (handed_bind (Handed.refl w) hdst).mono fun r w' h => ⟨h.1, fun hn => ?_⟩
    obtain ⟨hr, rfl⟩ := h.2.2 hn
    exact ⟨hr, rfl⟩
  | connect y e' =>
    cases hc
    show (WinSocket.connect x e).Always serialHost t _ w
    exact handed_connect (Handed.refl w) hdst
  | sendTo y b e' =>
    cases hc
    refine (handed_sendTo (Handed.refl w) hdst).bind fun n w' h => always_ret.mpr ⟨h.1, fun hn => ?_⟩
    obtain ⟨rfl, hw⟩ := h.2 hn
    exact ⟨by decide, hw⟩
  | startConnect y e' f =>
    cases hc
    refine handed_startConnect (Handed.refl w) hdst fun _ n hn => ?_
    have hne : NameRole.own ≠ (ApiCall.startConnect x e f).role := by nofun
    rw [ApiCall.MayName, if_neg hne]
    exact hn
  | startSendTo y b e' f => cases hc; exact handed_startSendTo (Handed.refl w) hdst
  | _ => cases hc

end

/-! ### What is handed over -/

/-- Since `w₀`, nothing was taken back. -/
def Grown (w₀ w : World) : Prop := ∃ l, w.addresses = l ++ w₀.addresses

/-- Since `w₀`, an address with `P` was handed over. -/
def Named (P : NameRole × SockaddrStorage → Prop) (w₀ w : World) : Prop :=
  ∃ l, w.addresses = l ++ w₀.addresses ∧ ∃ n ∈ l, P n

section

variable {P Q : NameRole × SockaddrStorage → Prop} {w₀ w : World} {t : ℕ} {o : Op} {α : Type}

theorem Grown.reply (h : Grown w₀ w) (a : Ans) : Grown w₀ (w.reply t o a).2 := by
  obtain ⟨l, hl⟩ := h
  exact ⟨o.names ++ l, by rw [World.addresses_reply, hl, List.append_assoc]⟩

theorem Named.reply (h : Named P w₀ w) (a : Ans) : Named P w₀ (w.reply t o a).2 := by
  obtain ⟨l, hl, n, hn, hP⟩ := h
  exact ⟨o.names ++ l, by rw [World.addresses_reply, hl, List.append_assoc], n,
    List.mem_append_right _ hn, hP⟩

theorem Named.mono (h : Named P w₀ w) (hPQ : ∀ n, P n → Q n) : Named Q w₀ w := by
  obtain ⟨l, hl, n, hn, hP⟩ := h
  exact ⟨l, hl, n, hn, hPQ n hP⟩

/-- A call hands one over. -/
theorem Grown.named (h : Grown w₀ w) (a : Ans) (ho : ∃ n ∈ o.names, P n) :
    Named P w₀ (w.reply t o a).2 := by
  obtain ⟨l, hl⟩ := h
  obtain ⟨n, hn, hP⟩ := ho
  exact ⟨o.names ++ l, by rw [World.addresses_reply, hl, List.append_assoc], n,
    List.mem_append_left _ hn, hP⟩

theorem all_true (p : Prog α) : p.All fun _ => True := by
  induction p with
  | ret a => exact trivial
  | call o k ih => exact ⟨trivial, ih⟩

theorem Grown.always (h : Grown w₀ w) (p : Prog α) : p.Always serialHost t (fun _ => Grown w₀) w :=
  .of_all (all_true p) (fun _ _ a _ _ hw => hw.reply a) h

theorem Named.always (h : Named P w₀ w) (p : Prog α) : p.Always serialHost t (fun _ => Named P w₀) w :=
  .of_all (all_true p) (fun _ _ a _ _ hw => hw.reply a) h

/-- One call after another. -/
theorem Grown.op {β : Type} {f : Res o → Prog β} {Q : β → World → Prop} (h : Grown w₀ w)
    (hf : ∀ r w', Grown w₀ w' → (f r).Always serialHost t Q w') :
    (Prog.op o >>= f).Always serialHost t Q w :=
  Always.op_bind fun a _ => hf _ _ (h.reply a)

/-- What was handed over is as all of it is. -/
theorem Handed.named (h : Handed P w₀ w) (hn : Named Q w₀ w) : Named (fun n => Q n ∧ P n) w₀ w := by
  obtain ⟨l, hl, hP⟩ := h
  obtain ⟨l', hl', n, hmem, hQ⟩ := hn
  rw [hl'] at hl
  obtain rfl := List.append_cancel_right hl
  exact ⟨_, hl', n, hmem, hQ, hP n hmem⟩

/-- A program that begins with a call that hands one over. -/
theorem Grown.op_named {f : Res o → Prog α} (h : Grown w₀ w) (ho : ∃ n ∈ o.names, P n) :
    (Prog.op o >>= f).Always serialHost t (fun _ => Named P w₀) w :=
  Always.op_bind fun a _ => (h.named a ho).always _

/-- The overlapped call hands over what it names. -/
theorem Grown.startIo {x : SockId} {i : DataId} {request : Prog IoRequest} (h : Grown w₀ w)
    (hr : ∀ w, request.Always serialHost t (fun req _ => ∃ n ∈ req.name?, P n) w) :
    (WinSocket.startIo x i request).Always serialHost t (fun _ => Named P w₀) w := by
  refine h.op fun io w₁ h₁ => h₁.op fun _ w₂ h₂ => ((hr w₂).and (h₂.always request)).bind ?_
  rintro req w' ⟨⟨n, hn, hP⟩, hw'⟩
  exact hw'.op_named ⟨n, Option.mem_toList.mpr hn, hP⟩

/-- What fails hands nothing over, and is an error. -/
theorem always_ite {c : ErrorCode} {p q : Prog α} {S : α → Prop}
    (hp : c ≠ .success → p.Always serialHost t (fun r _ => ¬ S r) w)
    (hq : q.Always serialHost t (fun r w' => S r → Named P w₀ w') w) :
    (if c ≠ .success then p else q).Always serialHost t (fun r w' => S r → Named P w₀ w') w := by
  split
  · rename_i hc
    exact (hp hc).mono fun _ _ hn hr => absurd hr hn
  · exact hq

/-- **A function that returns `Success` has handed an address over in its role.** -/
theorem named_body {c : ApiCall} {x : SockId} {e : Endpoint} (hc : c.destination? = some (x, e))
    (w : World) (t : ℕ) : c.body.Always serialHost t (fun r w' =>
      r = .success → Named (fun n => n.1 = c.role) w w') w := by
  have h : Grown w w := ⟨[], rfl⟩
  have herr : ∀ {c : ErrorCode} {w' : World}, c ≠ .success →
      (pure c : Prog ErrorCode).Always serialHost t (fun r _ => ¬ r = .success) w' := fun hc => hc
  have hnamed : ∀ {α : Type} {p : Prog α} {S : α → Prop} {role : NameRole} {w' : World},
      p.Always serialHost t (fun _ => Named (fun n => n.1 = role) w) w' →
        p.Always serialHost t (fun r w'' => S r → Named (fun n => n.1 = role) w w'') w' :=
    fun hp => hp.mono fun _ _ hn _ => hn
  cases c with
  | bind y e' =>
    exact h.op fun _ _ h => always_ite herr (hnamed (h.op fun _ _ h =>
      h.op_named ⟨_, List.mem_singleton_self _, rfl⟩))
  | connect y e' =>
    exact h.op fun _ _ h => always_ite herr (hnamed (h.op fun _ _ h =>
      h.op_named ⟨_, List.mem_singleton_self _, rfl⟩))
  | sendTo y b e' =>
    have hsend : (WinSocket.sendTo y b e').Always serialHost t (fun n w' =>
        n ≠ -1 → Named (fun n => n.1 = .peer) w w') w :=
      h.op fun _ _ h => always_ite (fun _ => always_ret.mpr fun hn => hn rfl) (hnamed (h.op fun _ _ h =>
        h.op_named ⟨_, List.mem_singleton_self _, rfl⟩))
    refine hsend.bind fun n w' hn => always_ret.mpr fun hr => hn ?_
    rintro rfl
    exact absurd hr (by decide)
  | startConnect y e' f =>
    refine h.op fun i _ h => h.op fun s _ h => h.op fun _ w₁ h => always_ite herr ?_
    have hend : ∀ err w', Grown w w' → (if err ≠ .success then pure err else WinSocket.startIo y i do
        let d ← op (.readIOData i)
        return .connectEx (← op (.readSocket y)).nativeSocket d.peerWinAddr : Prog ErrorCode).Always
          serialHost t (fun r w'' => r = .success → Named (fun n => n.1 = .peer) w w'') w' := fun err w' h =>
      always_ite herr (hnamed (h.startIo fun _ => Always.op_bind fun _ _ => Always.op_bind fun _ _ =>
        always_ret.mpr ⟨_, rfl, rfl⟩))
    dsimp only
    split
    · exact (h.always _).bind hend
    split
    · exact (h.always _).bind hend
    · exact hend .success _ h
  | startSendTo y b e' f =>
    refine h.op fun i _ h => h.op fun s _ h => h.op fun _ w₁ h => always_ite herr (hnamed (h.startIo fun _ => ?_))
    exact Always.op_bind fun _ _ => Always.op_bind fun _ _ => always_ret.mpr ⟨_, rfl, rfl⟩
  | _ => cases hc

end

/-! ### Answering a peer -/

/-- **An answer to a reported peer goes to that peer**, but for the scope id: the socket address
made of the endpoint of a reported one has its family, address and port and no scope id, and that is
the only address that `connect`, `send_to`, `start_connect` and `start_send_to` name as the peer on a
socket of that family, and they do name it when they return `Success`. -/
theorem target_reply {sa : SockaddrStorage} {e₀ : Endpoint}
    (h : (sockaddrToEndpoint sa e₀).1 = .success) :
    (∀ old, (endpointToSockaddr (addressFamily sa) (sockaddrToEndpoint sa e₀).2 old).1 = .success ∧
      target (endpointToSockaddr (addressFamily sa) (sockaddrToEndpoint sa e₀).2 old).2 =
        (target sa).unscoped) ∧
    ∀ (c : ApiCall) (x : SockId), c.destination? = some (x, (sockaddrToEndpoint sa e₀).2) →
      c.role = .peer → ∀ (w : World) (t : ℕ), (w.sock x).addrFamily = addressFamily sa →
        c.body.Always serialHost t (fun r w' =>
          Handed (fun n => n.1 = .peer → target n.2 = (target sa).unscoped) w w' ∧
            (r = .success → Named (fun n => n.1 = .peer ∧ target n.2 = (target sa).unscoped) w w')) w := by
  obtain ⟨hf, ht⟩ := target_sockaddrToEndpoint (sockaddrToEndpoint_eq_success_iff.mp h) e₀
  refine ⟨fun old => ⟨endpointToSockaddr_eq_success_iff.mpr hf, ?_⟩, fun c x hc hrole w t hw => ?_⟩
  · rw [target_of_endpoint hf, ht]
  · have hpeer : ∀ n, c.MayName (w.sock x).addrFamily (sockaddrToEndpoint sa e₀).2 n → n.1 = .peer →
        target n.2 = (target sa).unscoped := by
      intro n hname hn
      rw [ApiCall.MayName, hn, if_pos hrole.symm, hw] at hname
      exact hname.trans ht
    refine ((handed_body hc w t).and (named_body hc w t)).mono ?_
    rintro r w' ⟨⟨hall, -⟩, hsome⟩
    refine ⟨hall.mono hpeer, fun hr => ((hall.mono hpeer).named (hsome hr)).mono ?_⟩
    rintro n ⟨hn, ht⟩
    rw [hrole] at hn
    exact ⟨hn, ht hn⟩

/-- The socket address of a peer at 192.0.2.128, port 53. -/
def inetPeer : SockaddrStorage :=
  (endpointToSockaddr .ipv4 (.ofIPv4 ⟨![192, 0, 2, 128], 53⟩ zeroMemory) zeroMemory).2

/-- The world after an IPv4 socket was opened. -/
def ipv4Opened : World :=
  { World.start ⟨0, 0, 0, 0⟩ with
    socks := upd (fun _ => none) 0 (some ⟨some 1, some 0, .ipv4, .stream, .tcp, false⟩)
    nextSock := 1 }

/-- A datagram from there is answered, and an IPv4 socket is connected to there. -/
theorem target_reply_inet : (sockaddrToEndpoint inetPeer (.empty zeroMemory)).1 = .success ∧
    target (endpointToSockaddr (addressFamily inetPeer)
      (sockaddrToEndpoint inetPeer (.empty zeroMemory)).2 zeroMemory).2 =
        .ipv4 ⟨![192, 0, 2, 128], 53⟩ ∧
    ∃ w', (ApiCall.connect 0 (sockaddrToEndpoint inetPeer (.empty zeroMemory)).2).body.eval serialHost 0 ipv4Opened
      [{}, {}, {}, {}] = some (.success, w') ∧
        Named (fun n => n.1 = .peer ∧ target n.2 = .ipv4 ⟨![192, 0, 2, 128], 53⟩) ipv4Opened w' := by
  have h : (sockaddrToEndpoint inetPeer (.empty zeroMemory)).1 = .success := by decide
  have hpeer : (target inetPeer).unscoped = .ipv4 ⟨![192, 0, 2, 128], 53⟩ := by
    rw [inetPeer, target_of_endpoint (.inl rfl)]
    exact congrArg Target.ipv4 (Endpoint.ipv4_ofIPv4 _ _)
  obtain ⟨hto, hcalls⟩ := target_reply h
  have he : ∃ w', (ApiCall.connect 0 (sockaddrToEndpoint inetPeer (.empty zeroMemory)).2).body.eval serialHost 0
      ipv4Opened [{}, {}, {}, {}] = some (.success, w') := ⟨_, rfl⟩
  obtain ⟨w', he⟩ := he
  have hrun := always_iff_eval.mp (hcalls (.connect 0 _) 0 rfl rfl ipv4Opened 0 (by decide)) _ _ _ he
  rw [hpeer] at hto hrun
  exact ⟨h, (hto zeroMemory).2, w', he, hrun.2 rfl⟩

/-- The socket address of a peer at `fe80::1`, port 53, in scope 1. -/
def linkLocalPeer : SockaddrStorage :=
  copyMemory (endpointToSockaddr .ipv6
    (.ofIPv6 ⟨![0xfe, 0x80, 0, 0, 0, 0, 0, 0, 0, 0, 0, 0, 0, 0, 0, 1], 53⟩) zeroMemory).2 24
    (![1, 0, 0, 0] : Bytes 4)

/-- Its scope id is lost. -/
theorem not_target_reply_linkLocal : ¬ ∀ sa e₀ old,
    (ssFamily sa = afInet ∨ ssFamily sa = afInet6) → (sockaddrToEndpoint sa e₀).1 = .success →
      target (endpointToSockaddr (addressFamily sa) (sockaddrToEndpoint sa e₀).2 old).2 = target sa := by
  intro h
  have hscope := congrArg (fun t : Target => t.scopeId 0)
    (h linkLocalPeer (.empty zeroMemory) zeroMemory (by decide) (by decide))
  exact absurd hscope (by decide +kernel)

/-! ### Endpoints of another family -/

/-- **An endpoint denotes what it was built from** on a socket of its own family: there every
address that is handed over in its role has the address and the port that it was built from. On a
socket of neither family nothing is handed over, and the result is an error. What an endpoint was
built from is not looked at: a socket address is made of it in either family. -/
theorem target_built :
    (∀ (f : AddressFamily) (e : Endpoint) (old : SockaddrStorage),
      (endpointToSockaddr f e old).1 = .success ↔ f.IsInet) ∧
    ∀ (c : ApiCall) (x : SockId) (e : Endpoint), c.destination? = some (x, e) →
      ∀ (w : World) (t : ℕ), c.body.Always serialHost t (fun r w' =>
      (¬ (w.sock x).addrFamily.IsInet → r ≠ .success ∧ w'.addresses = w.addresses) ∧
      (∀ a junk, e = .ofIPv4 a junk → (w.sock x).addrFamily = .ipv4 →
        Handed (fun n => n.1 = c.role → target n.2 = .ipv4 a) w w') ∧
      (∀ a, e = .ofIPv6 a → (w.sock x).addrFamily = .ipv6 →
        Handed (fun n => n.1 = c.role → target n.2 = .ipv6 a zeroMemory) w w')) w := by
  refine ⟨fun f e old => endpointToSockaddr_eq_success_iff, fun c x e hc w t => ?_⟩
  refine (handed_body hc w t).mono ?_
  rintro r w' ⟨⟨l, hl, hn⟩, hrefused⟩
  refine ⟨hrefused, fun a junk he hf => ⟨l, hl, fun n hmem hrole => ?_⟩,
    fun a he hf => ⟨l, hl, fun n hmem hrole => ?_⟩⟩
  · have hname := hn n hmem
    rw [ApiCall.MayName, if_pos hrole, hf, he] at hname
    exact hname.trans (congrArg Target.ipv4 (Endpoint.ipv4_ofIPv4 a junk))
  · have hname := hn n hmem
    rw [ApiCall.MayName, if_pos hrole, hf, he] at hname
    exact hname.trans (congrArg (Target.ipv6 · zeroMemory) (Endpoint.ipv6_ofIPv6 a))

/-- It is bound to 127.0.0.1, port 80. -/
theorem target_built_loopback : ∃ w', (ApiCall.bind 0 (.ofIPv4 ⟨![127, 0, 0, 1], 80⟩ zeroMemory)).body.eval
      serialHost 0 ipv4Opened [{}, {}, {}, {}] = some (.success, w') ∧ w'.addresses.length = 1 ∧
    Handed (fun n => n.1 = .own → target n.2 = .ipv4 ⟨![127, 0, 0, 1], 80⟩) ipv4Opened w' := by
  have he : ∃ w', (ApiCall.bind 0 (.ofIPv4 ⟨![127, 0, 0, 1], 80⟩ zeroMemory)).body.eval serialHost 0
      ipv4Opened [{}, {}, {}, {}] = some (.success, w') ∧ w'.addresses.length = 1 := ⟨_, rfl, rfl⟩
  obtain ⟨w', he, hlen⟩ := he
  have hbuilt := target_built.2 (.bind 0 (.ofIPv4 ⟨![127, 0, 0, 1], 80⟩ zeroMemory)) 0 _ rfl ipv4Opened 0
  exact ⟨w', he, hlen, (always_iff_eval.mp hbuilt _ _ _ he).2.1 _ _ rfl rfl⟩

/-- An IPv4 socket is bound to `[2001:db8::1]:80`: Winsock is handed 32.1.13.184, port 0. -/
theorem not_refused_ipv6 : ¬ ∀ (c : ApiCall) (x : SockId) (e : Endpoint),
    c.destination? = some (x, e) → ∀ (w : World) (t : ℕ),
      (∃ a junk, e = .ofIPv4 a junk ∧ (w.sock x).addrFamily ≠ .ipv4) ∨
        (∃ a, e = .ofIPv6 a ∧ (w.sock x).addrFamily ≠ .ipv6) →
      c.body.Always serialHost t (fun r w' => r ≠ .success ∧ w'.addresses = w.addresses) w := by
  intro h
  have hbind := h (.bind 0 (.ofIPv6 ⟨![0x20, 0x01, 0x0d, 0xb8, 0, 0, 0, 0, 0, 0, 0, 0, 0, 0, 0, 1], 80⟩))
    0 _ rfl ipv4Opened 0 (.inr ⟨_, rfl, by decide⟩)
  exact (always_iff_eval.mp hbind [{}, {}, {}, {}] .success _ rfl).1 rfl

end FirelinkNet
