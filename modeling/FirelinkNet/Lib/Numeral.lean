import FirelinkNet.Lib.Text

/-!
# Numbers at the start of a text

`strtol` takes the number that a text starts with, after spaces and a sign, and does not
look at what comes after it; a text that starts with no number is 0 to it, and a number
that does not fit a `long` is the nearest one that does. A `long` has 32 bits on Windows.

## What is proved

* `leadingNumber_eq_iff` — **the texts that start with a given positive number.**
* `leadingNumber_decimal` — a decimal rendering is read back.
-/

namespace FirelinkNet.Lib.Text

/-- The number that a text starts with, and 0 when there is none. -/
def leadingNumber (s : List Char) : ℤ :=
  let s := sign (s.dropWhile isSpace)
  let n := Nat.ofDigitChars 10 (s.2.takeWhile Char.isDigit) 0
  if s.1 then -n else n

/-- `strtol`, in base 10. -/
def strtol (s : List Char) : Int32 :=
  .ofInt (max Int32.minValue.toInt (min (leadingNumber s) Int32.maxValue.toInt))

/-- The text is `ds` after spaces and perhaps a plus sign, and what follows is no digit. -/
structure Starts (s ds : List Char) : Prop where
  split : ∃ sp sg rest, s = sp ++ (sg ++ (ds ++ rest)) ∧ (∀ c ∈ sp, isSpace c = true) ∧
    (sg = [] ∨ sg = ['+']) ∧ ∀ c ∈ rest.head?, c.isDigit = false
  ne_nil : ds ≠ []
  digits : ∀ c ∈ ds, c.isDigit = true

theorem isSpace_of_isDigit {c : Char} (h : c.isDigit = true) : isSpace c = false := by
  rw [Bool.eq_false_iff]
  intro hc
  simp only [isSpace, List.contains_cons, List.contains_nil, Bool.or_false, Bool.or_eq_true,
    beq_iff_eq] at hc
  rcases hc with rfl | rfl | rfl | rfl | rfl | rfl <;> cases h

/-- Where a condition ends to hold. -/
theorem head?_dropWhile {p : Char → Bool} {s : List Char} : ∀ c ∈ (s.dropWhile p).head?, p c = false := by
  induction s with
  | nil => exact nofun
  | cons x s ih =>
    rw [List.dropWhile_cons]
    split
    · exact ih
    · rename_i hx
      rintro c ⟨⟩
      exact Bool.eq_false_iff.mpr hx

theorem takeWhile_append_of_head {p : Char → Bool} {s r : List Char} (hs : ∀ c ∈ s, p c = true)
    (hr : ∀ c ∈ r.head?, p c = false) : (s ++ r).takeWhile p = s := by
  rw [List.takeWhile_append_of_pos hs]
  cases r with
  | nil => simp
  | cons x r => rw [List.takeWhile_cons, hr x rfl, if_neg Bool.false_ne_true, List.append_nil]

theorem dropWhile_append_of_head {p : Char → Bool} {s r : List Char} (hs : ∀ c ∈ s, p c = true)
    (hr : ∀ c ∈ r.head?, p c = false) : (s ++ r).dropWhile p = r := by
  rw [List.dropWhile_append_of_pos hs]
  cases r with
  | nil => rfl
  | cons x r => rw [List.dropWhile_cons, hr x rfl, if_neg Bool.false_ne_true]

/-- The sign and the digits of a text that starts with digits. -/
theorem Starts.number {s ds : List Char} (h : Starts s ds) : leadingNumber s = Nat.ofDigitChars 10 ds 0 := by
  obtain ⟨⟨sp, sg, rest, rfl, hsp, hsg, hrest⟩, hne, hds⟩ := h
  obtain ⟨d, ds, rfl⟩ := List.exists_cons_of_ne_nil hne
  have hd : d.isDigit = true := hds d List.mem_cons_self
  have hdrop : (sp ++ (sg ++ (d :: ds ++ rest))).dropWhile isSpace = sg ++ (d :: ds ++ rest) := by
    refine dropWhile_append_of_head hsp fun c hc => ?_
    rcases hsg with rfl | rfl
    · cases hc
      exact isSpace_of_isDigit hd
    · cases hc
      rfl
  have hsign : sign (sg ++ (d :: ds ++ rest)) = (false, d :: ds ++ rest) := by
    rcases hsg with rfl | rfl
    · rw [List.nil_append, List.cons_append]
      unfold sign
      split
      · rename_i heq
        cases heq
        cases hd
      · rename_i heq
        cases heq
        cases hd
      · rfl
    · rfl
  simp only [leadingNumber, hdrop, hsign, takeWhile_append_of_head hds hrest, Bool.false_eq_true, if_false]

/-- **A text starts with a positive number when it starts with digits for it**, after spaces and perhaps a plus
sign. -/
theorem leadingNumber_eq_iff {s : List Char} {n : ℕ} (hn : 0 < n) :
    leadingNumber s = n ↔ ∃ ds, Starts s ds ∧ Nat.ofDigitChars 10 ds 0 = n := by
  constructor
  · intro h
    simp only [leadingNumber] at h
    have hsplit : s = s.takeWhile isSpace ++ s.dropWhile isSpace := List.takeWhile_append_dropWhile.symm
    have hspaces : ∀ c ∈ s.takeWhile isSpace, isSpace c = true := fun c => List.mem_takeWhile_imp
    have hstart : ∀ sg r, s.dropWhile isSpace = sg ++ r → (sg = [] ∨ sg = ['+']) →
        (Nat.ofDigitChars 10 (r.takeWhile Char.isDigit) 0 : ℤ) = n →
          ∃ ds, Starts s ds ∧ Nat.ofDigitChars 10 ds 0 = n := by
      intro sg r hr hsg hval
      refine ⟨r.takeWhile Char.isDigit, ⟨⟨_, sg, r.dropWhile Char.isDigit, ?_, hspaces, hsg, head?_dropWhile⟩,
        fun hnil => ?_, fun c => List.mem_takeWhile_imp⟩, Int.ofNat_inj.mp hval⟩
      · rw [List.takeWhile_append_dropWhile, ← hr]
        exact hsplit
      · rw [hnil, Nat.ofDigitChars_nil] at hval
        omega
    unfold sign at h
    split at h
    · simp only [if_true] at h
      omega
    · rename_i r hr
      simp only [Bool.false_eq_true, if_false] at h
      exact hstart ['+'] r hr (.inr rfl) h
    · simp only [Bool.false_eq_true, if_false] at h
      exact hstart [] _ rfl (.inl rfl) h
  · rintro ⟨ds, hs, rfl⟩
    exact hs.number

/-- The value of `strtol`. -/
theorem toInt_strtol (s : List Char) :
    (strtol s).toInt = max (-2147483648) (min (leadingNumber s) 2147483647) := by
  have hmin : Int32.minValue.toInt = -2147483648 := rfl
  have hmax : Int32.maxValue.toInt = 2147483647 := rfl
  rw [strtol, hmin, hmax, Int32.toInt_ofInt_of_le]
  · simp
  · omega

/-- **A decimal rendering is read back.** -/
theorem leadingNumber_decimal (n : ℕ) : leadingNumber (decimal n) = n := by
  have hdigits : ∀ c ∈ decimal n, c.isDigit = true := fun c => isDigit_of_mem_decimal
  have hstarts : Starts (decimal n) (decimal n) :=
    ⟨⟨[], [], [], by simp, nofun, .inl rfl, nofun⟩, Nat.toDigits_ne_nil, hdigits⟩
  rw [hstarts.number]
  exact congrArg Int.ofNat Nat.ofDigitChars_ten_toDigits

end FirelinkNet.Lib.Text
