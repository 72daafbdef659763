import Mathlib.Data.List.TakeWhile
import Mathlib.Order.WithBot

/-!
# Text

What `std::string` and `std::stoi` do, on lists of characters: the last position of
a character, where there is one, and a decimal number at the start of a text.

`npos` is the largest `size_t`, and is `⊤` here, so that a position compares with it as
it does there.

## What is proved

* `rfind_of_notMem`, `rfind_append_of_notMem`, `exists_rfind_append` — where the last
  occurrence of a character is in a text that was put together.
* `stoi_decimal` — a decimal rendering is read back.
* `splitNumbers_joinNumbers` — so are numbers written with a separator between them.
-/

namespace FirelinkNet.Lib.Text

/-- `std::string::npos`. -/
def npos : WithTop ℕ := ⊤

/-- `rfind(c)`, and `find_last_of(c)`. -/
def rfind : List Char → Char → WithTop ℕ
  | [], _ => npos
  | x :: s, c =>
    match rfind s c with
    | some n => some (n + 1)
    | none => if x = c then some 0 else npos

theorem rfind_of_notMem {s : List Char} {c : Char} (h : c ∉ s) : rfind s c = npos := by
  induction s with
  | nil => rfl
  | cons x s ih =>
    have hx : x ≠ c := fun he => h (he ▸ List.mem_cons_self)
    rw [rfind, ih fun hs => h (List.mem_cons_of_mem x hs)]
    exact if_neg hx

theorem rfind_append_of_notMem {s t : List Char} {c : Char} (h : c ∉ t) :
    rfind (s ++ c :: t) c = .some s.length := by
  induction s with
  | nil =>
    rw [List.nil_append, rfind, rfind_of_notMem h]
    exact if_pos rfl
  | cons x s ih =>
    rw [List.cons_append, rfind, ih]
    rfl

theorem exists_rfind_append {s t : List Char} {c : Char} (hs : c ∈ s) (ht : c ∉ t) :
    ∃ n : ℕ, n < s.length ∧ rfind (s ++ t) c = .some n := by
  induction s with
  | nil => cases hs
  | cons x s ih =>
    by_cases hc : c ∈ s
    · obtain ⟨n, hn, hfind⟩ := ih hc
      refine ⟨n + 1, by simpa using hn, ?_⟩
      rw [List.cons_append, rfind, hfind]
      rfl
    · have hx : x = c := ((List.mem_cons.mp hs).resolve_right hc).symm
      have hst : c ∉ s ++ t := fun h => (List.mem_append.mp h).elim hc ht
      refine ⟨0, Nat.succ_pos _, ?_⟩
      rw [List.cons_append, rfind, rfind_of_notMem hst]
      exact if_pos hx

/-- The text is split where the last occurrence is. -/
theorem eq_append_of_rfind {s : List Char} {c : Char} {n : ℕ} (h : rfind s c = .some n) :
    s = s.take n ++ c :: s.drop (n + 1) ∧ c ∉ s.drop (n + 1) := by
  induction s generalizing n with
  | nil => cases h
  | cons x s ih =>
    rw [rfind] at h
    cases hs : rfind s c with
    | top =>
      rw [hs] at h
      by_cases hx : x = c
      · obtain rfl : 0 = n := WithTop.coe_injective ((if_pos hx).symm.trans h)
        have hnot : c ∉ s := by
          intro hmem
          obtain ⟨k, -, hk⟩ := exists_rfind_append hmem List.not_mem_nil
          rw [List.append_nil, hs] at hk
          cases hk
        exact ⟨by simp [hx], by simpa using hnot⟩
      · cases (if_neg hx).symm.trans h
    | coe k =>
      rw [hs] at h
      obtain rfl : k + 1 = n := WithTop.coe_injective h
      obtain ⟨heq, hnot⟩ := ih hs
      refine ⟨?_, by simpa using hnot⟩
      rw [List.take_succ_cons, List.drop_succ_cons, List.cons_append, ← heq]

/-- A character whose last occurrence comes earlier is before that. -/
theorem mem_take_of_rfind_lt {s : List Char} {c : Char} {n : ℕ} (h : rfind s c < .some n) :
    c ∈ s.take n := by
  cases hs : rfind s c with
  | top =>
    rw [hs] at h
    exact absurd h not_top_lt
  | coe k =>
    rw [hs] at h
    have hlt : k < n := WithTop.coe_lt_coe.mp h
    obtain ⟨heq, -⟩ := eq_append_of_rfind hs
    have hlen : (s.take k).length < n := lt_of_le_of_lt (List.length_take_le k s) hlt
    obtain ⟨m, hm⟩ := Nat.exists_eq_add_of_lt hlen
    have hsub : n - (s.take k).length = m + 1 := by omega
    rw [heq, List.take_append, hsub, List.take_succ_cons]
    exact List.mem_append_right _ List.mem_cons_self

/-- `std::string::pop_back`; `none` on an empty string. -/
def popBack (s : List Char) : Option (List Char) := if s = [] then none else some s.dropLast

@[simp] theorem popBack_concat (s : List Char) (c : Char) : popBack (s ++ [c]) = some s := by
  simp [popBack]

/-- `std::to_string`. -/
def decimal (n : ℕ) : List Char := Nat.toDigits 10 n

/-- `isspace`. -/
def isSpace (c : Char) : Bool := [' ', '\t', '\n', '\r', '\x0b', '\x0c'].contains c

/-- The sign that a number may start with, and the rest. -/
def sign : List Char → Bool × List Char
  | '-' :: s => (true, s)
  | '+' :: s => (false, s)
  | s => (false, s)

/-- `std::stoi`, in base 10; `none` when it throws, since there is no number or it does not fit an
`int`. -/
def stoi (s : List Char) : Option Int32 :=
  let s := sign (s.dropWhile isSpace)
  let digits := s.2.takeWhile Char.isDigit
  let n : ℤ := if s.1 then -(Nat.ofDigitChars 10 digits 0) else Nat.ofDigitChars 10 digits 0
  if digits = [] ∨ n < Int32.minValue.toInt ∨ Int32.maxValue.toInt < n then none else some (.ofInt n)

theorem isDigit_of_mem_decimal {n : ℕ} {c : Char} (h : c ∈ decimal n) : c.isDigit = true :=
  Nat.isDigit_of_mem_toDigits (by decide) (by decide) h

theorem notMem_decimal {n : ℕ} {c : Char} (h : c.isDigit = false) : c ∉ decimal n :=
  fun hc => Bool.eq_false_iff.mp h (isDigit_of_mem_decimal hc)

/-- A text that starts with a digit has neither spaces nor a sign before it. -/
theorem sign_of_isDigit {s : List Char} (h : ∀ c ∈ s, c.isDigit = true) :
    sign (s.dropWhile isSpace) = (false, s) := by
  cases s with
  | nil => rfl
  | cons x s =>
    have hx := h x List.mem_cons_self
    have hspace : isSpace x = false := by
      rw [Bool.eq_false_iff]
      intro hx'
      simp only [isSpace, List.contains_cons, List.contains_nil, Bool.or_false, Bool.or_eq_true,
        beq_iff_eq] at hx'
      rcases hx' with rfl | rfl | rfl | rfl | rfl | rfl <;> cases hx
    rw [List.dropWhile_cons_of_neg (by simp [hspace])]
    unfold sign
    split
    · rename_i heq
      cases heq
      cases hx
    · rename_i heq
      cases heq
      cases hx
    · rfl

/-- **A text of digits is read as the number that it denotes**, when that fits an `int`. -/
theorem stoi_digits {s : List Char} (hne : s ≠ []) (hall : ∀ c ∈ s, c.isDigit = true)
    (h : Nat.ofDigitChars 10 s 0 ≤ 2147483647) : stoi s = some (.ofInt (Nat.ofDigitChars 10 s 0)) := by
  have htake : s.takeWhile Char.isDigit = s := List.takeWhile_eq_self_iff.mpr hall
  have hmin : Int32.minValue.toInt = -2147483648 := rfl
  have hmax : Int32.maxValue.toInt = 2147483647 := rfl
  rw [stoi, sign_of_isDigit hall]
  simp only [htake, hne, false_or, Bool.false_eq_true, if_false, hmin, hmax]
  rw [if_neg (by omega)]

/-- **A decimal rendering is read back.** -/
theorem stoi_decimal {n : ℕ} (h : n ≤ 2147483647) : stoi (decimal n) = some (.ofInt n) := by
  have hval : Nat.ofDigitChars 10 (decimal n) 0 = n := Nat.ofDigitChars_ten_toDigits
  have hread := stoi_digits (s := decimal n) Nat.toDigits_ne_nil (fun c => isDigit_of_mem_decimal)
    (by rw [hval]; exact h)
  rwa [hval] at hread

/-! ### Numbers with a separator between them -/

/-- The value of a digit, up to base 16. -/
def digitValue (c : Char) : ℕ := if c.isDigit then c.toNat - 48 else c.toNat - 87

/-- The number with given digits. -/
def ofDigits (b : ℕ) (s : List Char) : ℕ := s.foldl (fun n c => b * n + digitValue c) 0

/-- The digits of numbers, with a separator between them. -/
def joinNumbers (b : ℕ) (c : Char) (ns : List ℕ) : List Char :=
  [c].intercalate (ns.map (Nat.toDigits b))

/-- The numbers between separators. -/
def splitNumbers (b : ℕ) (c : Char) (s : List Char) : List ℕ := (s.splitOn c).map (ofDigits b)

/-- A separator stands between any two of them. -/
theorem separator_mem_joinNumbers (b : ℕ) (c : Char) (n m : ℕ) (ns : List ℕ) :
    c ∈ joinNumbers b c (n :: m :: ns) := by
  rw [joinNumbers, List.map_cons, List.map_cons, List.intercalate_cons_cons]
  simp

section Base

variable {b : ℕ} (hb : 1 < b) (hb' : b ≤ 16)
include hb hb'

theorem ofDigits_toDigits (n : ℕ) : ofDigits b (Nat.toDigits b n) = n := by
  have hdigit : ∀ d < 16, digitValue d.digitChar = d := by decide
  induction n using Nat.base_induction b hb with
  | single m hm => simp [Nat.toDigits_of_lt_base hm, ofDigits, hdigit m (by omega)]
  | digit m k hk hm ih =>
    rw [ofDigits] at ih ⊢
    rw [← Nat.toDigits_append_toDigits hb hm hk, List.foldl_append, ih, Nat.toDigits_of_lt_base hk]
    simp [hdigit k (by omega)]

theorem mem_toDigits {n : ℕ} {c : Char} (h : c ∈ Nat.toDigits b n) : ∃ d < 16, c = d.digitChar := by
  induction n using Nat.base_induction b hb with
  | single m hm =>
    rw [Nat.toDigits_of_lt_base hm, List.mem_singleton] at h
    exact ⟨m, by omega, h⟩
  | digit m k hk hm ih =>
    rw [← Nat.toDigits_append_toDigits hb hm hk, List.mem_append, Nat.toDigits_of_lt_base hk,
      List.mem_singleton] at h
    exact h.elim ih fun h => ⟨k, by omega, h⟩

/-- **Numbers that are written with a separator between them are read back.** -/
theorem splitNumbers_joinNumbers {c : Char} (hc : ∀ d < 16, c ≠ Nat.digitChar d) {ns : List ℕ}
    (hne : ns ≠ []) : splitNumbers b c (joinNumbers b c ns) = ns := by
  have hnot : ∀ l ∈ ns.map (Nat.toDigits b), c ∉ l := by
    intro l hl hmem
    obtain ⟨n, -, rfl⟩ := List.mem_map.mp hl
    obtain ⟨d, hd, heq⟩ := mem_toDigits hb hb' hmem
    exact hc d hd heq
  rw [splitNumbers, joinNumbers, List.splitOn_intercalate c hnot (by simpa using hne), List.map_map]
  exact (List.map_congr_left fun n _ => ofDigits_toDigits hb hb' n).trans ns.map_id

/-- They have no characters but digits and separators. -/
theorem mem_joinNumbers {c c' : Char} {ns : List ℕ} (h : c' ∈ joinNumbers b c ns) :
    c' = c ∨ ∃ d < 16, c' = Nat.digitChar d := by
  induction ns with
  | nil => cases h
  | cons n ns ih =>
    cases ns with
    | nil =>
      rw [joinNumbers, List.map_singleton, List.intercalate_singleton] at h
      exact .inr (mem_toDigits hb hb' h)
    | cons m ns =>
      rw [joinNumbers, List.map_cons, List.map_cons, List.intercalate_cons_cons, List.mem_append,
        List.mem_append, List.mem_singleton] at h
      rcases h with (h | h) | h
      · exact .inr (mem_toDigits hb hb' h)
      · exact .inl h
      · exact ih h

theorem notMem_joinNumbers {c c' : Char} {ns : List ℕ} (hne : c' ≠ c)
    (hdigit : ∀ d < 16, c' ≠ Nat.digitChar d) : c' ∉ joinNumbers b c ns := by
  intro hmem
  rcases mem_joinNumbers hb hb' hmem with h | ⟨d, hd, h⟩
  · exact hne h
  · exact hdigit d hd h

end Base

end FirelinkNet.Lib.Text
