import Mathlib.Logic.Relation
import Mathlib.Logic.Function.Basic
import Mathlib.Data.Nat.Notation
import Mathlib.Tactic.SplitIfs

/-!
# Programs that make calls

A program in the middle of running either has a result, or makes a call and goes
on with the reply. The calls are the items of a signature: a type `Op` of calls
and, for each, the type `Res o` of its replies. What a call does is not part of
the program; a host says it (`Host`), and the same program can be read three ways.

* `eval` — alone, each call answered from a list of the answers that the environment
  chose.
* `Always` — alone, whatever the answers.
* `Logic.wp` — as one thread among others. A thread does not see the whole state;
  it keeps a *local* knowledge `L`, which a call needs (`pre`), extends (`given`)
  and changes (`post`). `Threads` says when knowledge of this kind is sound.

`wp_bind` is what makes programs compose: the knowledge after the first part is
the knowledge before the second.
-/

namespace FirelinkNet.Lib

/-- A program over the calls `Op` with replies `Res`. -/
inductive Prog (Op : Type) (Res : Op → Type) (α : Type) : Type where
  /-- The result. -/
  | ret (a : α)
  /-- A call, and how to go on with its reply. -/
  | call (o : Op) (k : Res o → Prog Op Res α)

namespace Prog

variable {Op : Type} {Res : Op → Type} {α β : Type}

/-- `p`, and then `f` on its result. -/
def bind : Prog Op Res α → (α → Prog Op Res β) → Prog Op Res β
  | .ret a, f => f a
  | .call o k, f => .call o fun r => (k r).bind f

/-- One call. -/
def op (o : Op) : Prog Op Res (Res o) := .call o .ret

instance : Monad (Prog Op Res) where
  pure := .ret
  bind := bind

@[simp] theorem pure_eq (a : α) : (pure a : Prog Op Res α) = .ret a := rfl

@[simp] theorem ret_bind (a : α) (f : α → Prog Op Res β) : Prog.ret a >>= f = f a := rfl

@[simp] theorem call_bind (o : Op) (k : Res o → Prog Op Res α) (f : α → Prog Op Res β) :
    Prog.call o k >>= f = .call o fun r => k r >>= f := rfl

@[simp] theorem op_bind (o : Op) (f : Res o → Prog Op Res β) : op o >>= f = .call o f := rfl

end Prog

/-! ### Hosts -/

/-- A host: what calls do. The environment's part in a call is an answer `A`; given
it, the reply and the new state are determined. A call that blocks is not `ready`. -/
structure Host (Op : Type) (Res : Op → Type) (W A : Type) where
  /-- The call can return now, with this answer. -/
  ready : W → ℕ → (o : Op) → A → Bool
  /-- The reply to thread `t`, and the state after. -/
  reply : W → ℕ → (o : Op) → A → Res o × W

namespace Prog

variable {Op : Type} {Res : Op → Type} {W A : Type} {α β : Type}

/-- `p` run alone by thread `t`, its calls answered from the list, which it uses up. -/
def eval (h : Host Op Res W A) (t : ℕ) : Prog Op Res α → W → List A → Option (α × W)
  | .ret a, w, [] => some (a, w)
  | .ret _, _, _ :: _ => none
  | .call _ _, _, [] => none
  | .call o k, w, x :: xs =>
    if h.ready w t o x then (k (h.reply w t o x).1).eval h t (h.reply w t o x).2 xs else none

/-- Whatever the environment answers, `p` run alone by `t` ends in `Q`. -/
def Always (h : Host Op Res W A) (t : ℕ) : Prog Op Res α → (α → W → Prop) → W → Prop
  | .ret a, Q, w => Q a w
  | .call o k, Q, w => ∀ x, h.ready w t o x = true →
      (k (h.reply w t o x).1).Always h t Q (h.reply w t o x).2

@[simp] theorem always_ret {h : Host Op Res W A} {t : ℕ} {a : α} {Q : α → W → Prop} {w : W} :
    (Prog.ret a : Prog Op Res α).Always h t Q w ↔ Q a w := Iff.rfl

@[simp] theorem always_call {h : Host Op Res W A} {t : ℕ} {o : Op} {k : Res o → Prog Op Res α}
    {Q : α → W → Prop} {w : W} : (Prog.call o k).Always h t Q w ↔
      ∀ x, h.ready w t o x = true →
        (k (h.reply w t o x).1).Always h t Q (h.reply w t o x).2 := Iff.rfl

@[simp] theorem always_bind {h : Host Op Res W A} {t : ℕ} {p : Prog Op Res α}
    {f : α → Prog Op Res β} {Q : β → W → Prop} {w : W} :
    (p >>= f).Always h t Q w ↔ p.Always h t (fun a w => (f a).Always h t Q w) w := by
  induction p generalizing w with
  | ret a => rfl
  | call o k ih => exact forall_congr' fun x => imp_congr_right fun _ => ih _

theorem Always.op_bind {h : Host Op Res W A} {t : ℕ} {o : Op} {f : Res o → Prog Op Res β}
    {Q : β → W → Prop} {w : W} (hf : ∀ x, h.ready w t o x = true →
      (f (h.reply w t o x).1).Always h t Q (h.reply w t o x).2) :
    (Prog.op o >>= f).Always h t Q w := hf

theorem Always.bind {h : Host Op Res W A} {t : ℕ} {p : Prog Op Res α} {f : α → Prog Op Res β}
    {R : α → W → Prop} {Q : β → W → Prop} {w : W} (hp : p.Always h t R w)
    (hf : ∀ a w', R a w' → (f a).Always h t Q w') : (p >>= f).Always h t Q w := by
  induction p generalizing w with
  | ret a => exact hf _ _ hp
  | call o k ih => exact fun x hx => ih _ (hp x hx)

theorem Always.mono {h : Host Op Res W A} {t : ℕ} {p : Prog Op Res α} {Q Q' : α → W → Prop}
    {w : W} (hp : p.Always h t Q w) (hQ : ∀ a w, Q a w → Q' a w) : p.Always h t Q' w := by
  induction p generalizing w with
  | ret a => exact hQ _ _ hp
  | call o k ih => exact fun x hx => ih _ (hp x hx)

theorem Always.and {h : Host Op Res W A} {t : ℕ} {p : Prog Op Res α} {Q Q' : α → W → Prop} {w : W}
    (hp : p.Always h t Q w) (hp' : p.Always h t Q' w) :
    p.Always h t (fun a w => Q a w ∧ Q' a w) w := by
  induction p generalizing w with
  | ret a => exact ⟨hp, hp'⟩
  | call o k ih => exact fun x hx => ih _ (hp x hx) (hp' x hx)

/-- Every call that `p` makes, whatever the replies, is one of `P`. -/
def All (P : Op → Prop) : Prog Op Res α → Prop
  | .ret _ => True
  | .call o k => P o ∧ ∀ r, (k r).All P

@[simp] theorem all_ret {P : Op → Prop} {a : α} : (Prog.ret a : Prog Op Res α).All P := trivial

@[simp] theorem all_call {P : Op → Prop} {o : Op} {k : Res o → Prog Op Res α} :
    (Prog.call o k).All P ↔ P o ∧ ∀ r, (k r).All P := Iff.rfl

@[simp] theorem all_op {P : Op → Prop} {o : Op} : (Prog.op o : Prog Op Res (Res o)).All P ↔ P o :=
  ⟨fun h => h.1, fun h => ⟨h, fun _ => trivial⟩⟩

theorem All.bind {P : Op → Prop} {p : Prog Op Res α} {f : α → Prog Op Res β} (hp : p.All P)
    (hf : ∀ a, (f a).All P) : (p >>= f).All P := by
  induction p with
  | ret a => exact hf a
  | call o k ih => exact ⟨hp.1, fun r => ih r (hp.2 r)⟩

theorem All.mono {P P' : Op → Prop} {p : Prog Op Res α} (hp : p.All P) (h : ∀ o, P o → P' o) :
    p.All P' := by
  induction p with
  | ret a => exact trivial
  | call o k ih => exact ⟨h o hp.1, fun r => ih r (hp.2 r)⟩

/-- What every call of `p` keeps, `p` keeps. -/
theorem Always.of_all {h : Host Op Res W A} {t : ℕ} {P : Op → Prop} {J : W → Prop}
    {p : Prog Op Res α} {w : W} (hp : p.All P)
    (hJ : ∀ w o x, P o → h.ready w t o x = true → J w → J (h.reply w t o x).2) (hw : J w) :
    p.Always h t (fun _ => J) w := by
  induction p generalizing w with
  | ret a => exact hw
  | call o k ih => exact fun x hx => ih _ (hp.2 _) (hJ _ _ _ hp.1 hx hw)

/-- **Demonic evaluation is evaluation with every list of answers.** -/
theorem always_iff_eval {h : Host Op Res W A} {t : ℕ} {p : Prog Op Res α} {Q : α → W → Prop}
    {w : W} : p.Always h t Q w ↔ ∀ xs a w', p.eval h t w xs = some (a, w') → Q a w' := by
  induction p generalizing w with
  | ret a =>
    constructor
    · intro hq xs b w' he
      cases xs with
      | nil => cases he; exact hq
      | cons x xs => cases he
    · intro hq; exact hq [] a w rfl
  | call o k ih =>
    constructor
    · intro hq xs b w' he
      cases xs with
      | nil => cases he
      | cons x xs =>
        simp only [eval] at he
        split_ifs at he with hx
        exact (ih _).mp (hq x hx) xs b w' he
    · intro hq x hx
      exact (ih _).mpr fun xs b w' he => hq (x :: xs) b w' (by simpa only [eval, hx, if_true] using he)

/-- The first answer is to the first call. -/
theorem eval_op_bind {h : Host Op Res W A} {t : ℕ} {o : Op} {f : Res o → Prog Op Res β} {w : W}
    {xs : List A} {r : β × W} (he : (Prog.op o >>= f).eval h t w xs = some r) :
    ∃ x ys, xs = x :: ys ∧ (f (h.reply w t o x).1).eval h t (h.reply w t o x).2 ys = some r := by
  cases xs with
  | nil => cases he
  | cons x ys =>
    simp only [op_bind, eval] at he
    split_ifs at he
    exact ⟨x, ys, rfl, he⟩

theorem eval_pure {h : Host Op Res W A} {t : ℕ} {a : α} {w : W} {xs : List A} {r : α × W}
    (he : (pure a : Prog Op Res α).eval h t w xs = some r) : xs = [] ∧ r = (a, w) := by
  cases xs with
  | nil => exact ⟨rfl, (Option.some.inj he).symm⟩
  | cons x xs => cases he

/-- The answers to `p >>= f` are answers to `p` and then answers to `f`. -/
theorem eval_bind {h : Host Op Res W A} {t : ℕ} {p : Prog Op Res α} {f : α → Prog Op Res β}
    {w w' : W} {xs : List A} {b : β} : (p >>= f).eval h t w xs = some (b, w') ↔
      ∃ ys zs a w₁, xs = ys ++ zs ∧ p.eval h t w ys = some (a, w₁) ∧
        (f a).eval h t w₁ zs = some (b, w') := by
  induction p generalizing w xs with
  | ret a =>
    constructor
    · intro he; exact ⟨[], xs, a, w, rfl, rfl, he⟩
    · rintro ⟨ys, zs, a', w₁, rfl, ha, hf⟩
      cases ys with
      | nil => cases ha; exact hf
      | cons y ys => cases ha
  | call o k ih =>
    constructor
    · intro he
      cases xs with
      | nil => cases he
      | cons x xs =>
        simp only [call_bind, eval] at he
        split_ifs at he with hx
        obtain ⟨ys, zs, a, w₁, rfl, ha, hf⟩ := (ih _).mp he
        exact ⟨x :: ys, zs, a, w₁, rfl, by simpa only [eval, hx, if_true] using ha, hf⟩
    · rintro ⟨ys, zs, a, w₁, rfl, ha, hf⟩
      cases ys with
      | nil => cases ha
      | cons y ys =>
        simp only [eval] at ha
        split_ifs at ha with hy
        simpa only [List.cons_append, call_bind, eval, hy, if_true] using
          (ih _).mpr ⟨ys, zs, a, w₁, rfl, ha, hf⟩

/-- A program whose calls are never refused the answer `x` can be run on it. -/
theorem exists_eval {h : Host Op Res W A} {t : ℕ} {x : A} (hx : ∀ w o, h.ready w t o x = true)
    (p : Prog Op Res α) (w : W) : ∃ xs a w', p.eval h t w xs = some (a, w') := by
  induction p generalizing w with
  | ret a => exact ⟨[], a, w, rfl⟩
  | call o k ih =>
    obtain ⟨xs, a, w', he⟩ := ih (h.reply w t o x).1 (h.reply w t o x).2
    exact ⟨x :: xs, a, w', by simpa only [eval, hx, if_true] using he⟩

end Prog

/-! ### Local knowledge -/

/-- A logic of local knowledge: what a thread must know to make a call, what it may
take for granted of the reply, and what it knows after. -/
structure Logic (Op : Type) (Res : Op → Type) (L : Type) where
  /-- What a call needs. -/
  pre : L → Op → Prop
  /-- What holds of the reply. -/
  given : L → (o : Op) → Res o → Prop
  /-- The knowledge after the reply. -/
  post : L → (o : Op) → Res o → L

namespace Logic

variable {Op : Type} {Res : Op → Type} {L : Type} {α β : Type}

/-- The weakest precondition: from knowledge `l`, every call that `p` makes has what it
needs, and `p` ends in `Q`. -/
def wp (lg : Logic Op Res L) : Prog Op Res α → (α → L → Prop) → L → Prop
  | .ret a, Q, l => Q a l
  | .call o k, Q, l => lg.pre l o ∧ ∀ r, lg.given l o r → lg.wp (k r) Q (lg.post l o r)

@[simp] theorem wp_ret {lg : Logic Op Res L} {a : α} {Q : α → L → Prop} {l : L} :
    lg.wp (.ret a : Prog Op Res α) Q l ↔ Q a l := Iff.rfl

@[simp] theorem wp_call {lg : Logic Op Res L} {o : Op} {k : Res o → Prog Op Res α}
    {Q : α → L → Prop} {l : L} : lg.wp (.call o k) Q l ↔
      lg.pre l o ∧ ∀ r, lg.given l o r → lg.wp (k r) Q (lg.post l o r) := Iff.rfl

@[simp] theorem wp_op {lg : Logic Op Res L} {o : Op} {Q : Res o → L → Prop} {l : L} :
    lg.wp (Prog.op o) Q l ↔ lg.pre l o ∧ ∀ r, lg.given l o r → Q r (lg.post l o r) := Iff.rfl

@[simp] theorem wp_bind {lg : Logic Op Res L} {p : Prog Op Res α} {f : α → Prog Op Res β}
    {Q : β → L → Prop} {l : L} :
    lg.wp (p >>= f) Q l ↔ lg.wp p (fun a l => lg.wp (f a) Q l) l := by
  induction p generalizing l with
  | ret a => rfl
  | call o k ih =>
    exact and_congr_right fun _ => forall_congr' fun r => imp_congr_right fun _ => ih r

theorem op_bind {lg : Logic Op Res L} {o : Op} {f : Res o → Prog Op Res α} {Q : α → L → Prop}
    {l : L} (hpre : lg.pre l o) (h : ∀ r, lg.given l o r → lg.wp (f r) Q (lg.post l o r)) :
    lg.wp (Prog.op o >>= f) Q l := ⟨hpre, h⟩

theorem wp_mono {lg : Logic Op Res L} {p : Prog Op Res α} {Q Q' : α → L → Prop} {l : L}
    (hp : lg.wp p Q l) (hQ : ∀ a l, Q a l → Q' a l) : lg.wp p Q' l := by
  induction p generalizing l with
  | ret a => exact hQ _ _ hp
  | call o k ih => exact ⟨hp.1, fun r hr => ih r (hp.2 r hr)⟩

/-- `p` has what it needs, and leaves the knowledge as it found it. -/
def Keeps (lg : Logic Op Res L) (p : Prog Op Res α) (l : L) : Prop := lg.wp p (fun _ l' => l' = l) l

theorem keeps_pure (lg : Logic Op Res L) (a : α) (l : L) : lg.Keeps (pure a : Prog Op Res α) l := rfl

theorem Keeps.seq {lg : Logic Op Res L} {p : Prog Op Res α} {f : α → Prog Op Res β}
    {Q : β → L → Prop} {l : L} (hp : lg.Keeps p l) (hf : ∀ a, lg.wp (f a) Q l) :
    lg.wp (p >>= f) Q l := by
  refine wp_bind.mpr (wp_mono hp ?_)
  rintro a _ rfl
  exact hf a

theorem Keeps.bind {lg : Logic Op Res L} {p : Prog Op Res α} {f : α → Prog Op Res β} {l : L}
    (hp : lg.Keeps p l) (hf : ∀ a, lg.Keeps (f a) l) : lg.Keeps (p >>= f) l := hp.seq hf

/-- A program whose calls all leave the knowledge as it is does so too. -/
theorem Keeps.of_all {lg : Logic Op Res L} {P : Op → Prop} {p : Prog Op Res α} {l : L}
    (hp : p.All P) (hl : ∀ o, P o → lg.pre l o ∧ ∀ r, lg.given l o r → lg.post l o r = l) :
    lg.Keeps p l := by
  induction p with
  | ret a => rfl
  | call o k ih =>
    refine ⟨(hl o hp.1).1, fun r hr => ?_⟩
    rw [(hl o hp.1).2 r hr]
    exact ih r (hp.2 r)

end Logic

end FirelinkNet.Lib
