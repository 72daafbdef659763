import FirelinkNet.InetText

/-!
# What `inet_pton` accepts

`firelink::inet_pton` on any text at all, also one that is no address. In either family
it takes one of two branches: it splits off a port at the last `:`, or it hands the
whole text to the system. In the first it trusts `std::stoi` with the port, and in IPv6
it drops a character at either end of the address without looking at it.

## What is proved

Each theorem says for which texts the code does what is expected of a parser, and for
which it does not:

* `genuinePort_iff` — **the port is what stands in the text**, unless the text is one
  that `std::stoi` reads leniently.
* `grammar6_iff` — **only addresses are accepted** in IPv6, unless the text does not
  begin with the bracket that is dropped.
* `returns_iff` — **an error code comes back**, unless `std::stoi` throws or there is
  nothing to drop.
* `untouched_iff` — **a failure leaves the output alone**, unless a port was split off.
* `agrees_iff` — **the result depends on the text only**, unless it has no port.
-/

namespace FirelinkNet

open Lib.Text

/-! ### The split -/

/-- `inet_pton` splits off a port, in IPv4. -/
def splits4 (s : List Char) : Prop := rfind s ':' ≠ npos ∧ rfind s ':' > rfind s '.'

instance : DecidablePred splits4 := fun _ => inferInstanceAs (Decidable (_ ∧ _))

/-- `inet_pton` splits off a port, in IPv6. -/
def splits6 (s : List Char) : Prop := rfind s ':' ≠ npos ∧ rfind s ':' > rfind s ']'

instance : DecidablePred splits6 := fun _ => inferInstanceAs (Decidable (_ ∧ _))

/-- The text before the last `:`. -/
def addrText (s : List Char) : List Char := s.take ((rfind s ':').untopD 0)

/-- The text after it. -/
def portText (s : List Char) : List Char := s.drop ((rfind s ':').untopD 0 + 1)

/-- The address that is left when the brackets are dropped; `none` when there is nothing to drop. -/
def unbracketed (s : List Char) : Option (List Char) := popBack ((addrText s).drop 1)

theorem split_eq {s : List Char} {c : Char} (h : rfind s ':' ≠ npos ∧ rfind s ':' > rfind s c) :
    s = addrText s ++ ':' :: portText s ∧ c ∈ addrText s := by
  obtain ⟨n, hn⟩ := WithTop.ne_top_iff_exists.mp h.1
  have haddr : addrText s = s.take n := by rw [addrText, ← hn, WithTop.untopD_coe]
  have hport : portText s = s.drop (n + 1) := by rw [portText, ← hn, WithTop.untopD_coe]
  rw [haddr, hport]
  exact ⟨(eq_append_of_rfind hn.symm).1, mem_take_of_rfind_lt (by rw [← hn] at h; exact h.2)⟩

namespace InetSystem

variable {sys : InetSystem} {s : List Char}

/-! ### The two branches -/

theorem inetPton4_of_splits (h : splits4 s) (out : IPv4Address) : sys.inetPton4 s out =
    (readPort (portText s)).bind fun p => some (sys.parse4 (addrText s) { out with port := p }) := by
  rw [inetPton4]
  exact if_pos h

theorem inetPton4_of_not (h : ¬ splits4 s) (out : IPv4Address) :
    sys.inetPton4 s out = some (sys.parse4 s out) := by
  rw [inetPton4]
  exact if_neg h

theorem inetPton6_of_splits (h : splits6 s) (out : IPv6Address) : sys.inetPton6 s out =
    (unbracketed s).bind fun t =>
      (readPort (portText s)).bind fun p => some (sys.parse6 t { out with port := p }) := by
  rw [inetPton6]
  exact if_pos h

theorem inetPton6_of_not (h : ¬ splits6 s) (out : IPv6Address) :
    sys.inetPton6 s out = some (sys.parse6 s out) := by
  rw [inetPton6]
  exact if_neg h

theorem parse4_success {t : List Char} {out a : IPv4Address} :
    sys.parse4 t out = (.success, a) ↔ ∃ b, sys.pton4 (cString t) = some b ∧ a = ⟨b, out.port⟩ := by
  rw [parse4]
  cases sys.pton4 (cString t) with
  | none => simp [ErrorCode.systemError, ErrorCode.success]
  | some b => simp [eq_comm]

theorem parse6_success {t : List Char} {out a : IPv6Address} :
    sys.parse6 t out = (.success, a) ↔ ∃ b, sys.pton6 (cString t) = some b ∧ a = ⟨b, out.port⟩ := by
  rw [parse6]
  cases sys.pton6 (cString t) with
  | none => simp [ErrorCode.systemError, ErrorCode.success]
  | some b => simp [eq_comm]

/-- What is accepted with a port, in IPv4. -/
theorem inetPton4_success (h : splits4 s) {out a : IPv4Address} :
    sys.inetPton4 s out = some (.success, a) ↔
      ∃ p b, readPort (portText s) = some p ∧ sys.pton4 (cString (addrText s)) = some b ∧ a = ⟨b, p⟩ := by
  rw [inetPton4_of_splits h]
  constructor
  · intro ha
    obtain ⟨p, hp, hparse⟩ := Option.bind_eq_some_iff.mp ha
    obtain ⟨b, hb, rfl⟩ := parse4_success.mp (Option.some.inj hparse)
    exact ⟨p, b, hp, hb, rfl⟩
  · rintro ⟨p, b, hp, hb, rfl⟩
    rw [hp, Option.bind_some, parse4_success.mpr ⟨b, hb, rfl⟩]

/-- What is accepted with a port, in IPv6. -/
theorem inetPton6_success (h : splits6 s) {out a : IPv6Address} :
    sys.inetPton6 s out = some (.success, a) ↔ ∃ t p b, unbracketed s = some t ∧
      readPort (portText s) = some p ∧ sys.pton6 (cString t) = some b ∧ a = ⟨b, p⟩ := by
  rw [inetPton6_of_splits h]
  constructor
  · intro ha
    obtain ⟨t, ht, ha⟩ := Option.bind_eq_some_iff.mp ha
    obtain ⟨p, hp, hparse⟩ := Option.bind_eq_some_iff.mp ha
    obtain ⟨b, hb, rfl⟩ := parse6_success.mp (Option.some.inj hparse)
    exact ⟨t, p, b, ht, hp, hb, rfl⟩
  · rintro ⟨t, p, b, ht, hp, hb, rfl⟩
    rw [ht, Option.bind_some, hp, Option.bind_some, parse6_success.mpr ⟨b, hb, rfl⟩]

theorem readPort_eq_none {r : List Char} : readPort r = none ↔ stoi r = none := Option.map_eq_none_iff

/-! ### Ports -/

/-- `r` consists of decimal digits, denotes a number that is at most 65535, and `port` is that number. -/
structure GenuinePort (r : List Char) (port : UInt16) : Prop where
  nonempty : r ≠ []
  digits : ∀ c ∈ r, c.isDigit = true
  le : Nat.ofDigitChars 10 r 0 ≤ 65535
  eq : port.toNat = Nat.ofDigitChars 10 r 0

/-- `std::stoi` reads a number from `r`, though `r` has other characters than digits or the number is above
65535. -/
def lenient (r : List Char) : Bool :=
  (stoi r).isSome && (r.any (fun c => !c.isDigit) || decide (65535 < Nat.ofDigitChars 10 r 0))

theorem genuinePort_of_readPort {r : List Char} {p : UInt16} (h : readPort r = some p) :
    GenuinePort r p ↔ lenient r = false := by
  obtain ⟨n, hn, hp⟩ := Option.map_eq_some_iff.mp h
  have hlen : lenient r = (r.any (fun c => !c.isDigit) || decide (65535 < Nat.ofDigitChars 10 r 0)) := by
    rw [lenient, hn, Option.isSome_some, Bool.true_and]
  rw [hlen, Bool.or_eq_false_iff]
  constructor
  · rintro ⟨-, hdigits, hle, -⟩
    exact ⟨List.any_eq_false.mpr fun c hc => by simp [hdigits c hc], decide_eq_false (by omega)⟩
  · rintro ⟨hany, hlt⟩
    have hdigits : ∀ c ∈ r, c.isDigit = true := fun c hc => by simpa using List.any_eq_false.mp hany c hc
    have hle : Nat.ofDigitChars 10 r 0 ≤ 65535 := by simpa using hlt
    have hne : r ≠ [] := by
      rintro rfl
      cases hn
    have hstoi := stoi_digits hne hdigits (by omega)
    obtain rfl : Int32.ofInt (Nat.ofDigitChars 10 r 0) = n := Option.some.inj (hstoi.symm.trans hn)
    refine ⟨hne, hdigits, hle, ?_⟩
    rw [← hp, UInt32.toNat_toUInt16, Int32.ofInt_eq_ofNat, Int32.toUInt32_ofNat']
    simp only [UInt32.toNat_ofNat']
    omega

/-- **The port of an accepted text is what stands in it**, in either family, if and only if `std::stoi`
does not read the port of a text with a valid address leniently. -/
theorem genuinePort_iff (sys : InetSystem) (s : List Char) :
    ((∀ out a, splits4 s → sys.inetPton4 s out = some (.success, a) → GenuinePort (portText s) a.port) ↔
      (splits4 s → (sys.pton4 (cString (addrText s))).isSome → lenient (portText s) = false)) ∧
    ((∀ out a, splits6 s → sys.inetPton6 s out = some (.success, a) → GenuinePort (portText s) a.port) ↔
      (splits6 s → (∃ t, unbracketed s = some t ∧ (sys.pton6 (cString t)).isSome) →
        lenient (portText s) = false)) := by
  have hnone : readPort (portText s) = none → lenient (portText s) = false := by
    intro h
    rw [lenient, readPort_eq_none.mp h]
    rfl
  refine ⟨⟨fun h hs hb => ?_, fun h out a hs ha => ?_⟩, ⟨fun h hs hb => ?_, fun h out a hs ha => ?_⟩⟩
  · obtain ⟨b, hb⟩ := Option.isSome_iff_exists.mp hb
    cases hp : readPort (portText s) with
    | none => exact hnone hp
    | some p =>
      have hport := h (.any 0) ⟨b, p⟩ hs ((inetPton4_success hs).mpr ⟨p, b, hp, hb, rfl⟩)
      exact (genuinePort_of_readPort hp).mp hport
  · obtain ⟨p, b, hp, hb, rfl⟩ := (inetPton4_success hs).mp ha
    exact (genuinePort_of_readPort hp).mpr (h hs (by rw [hb]; rfl))
  · obtain ⟨t, ht, hb⟩ := hb
    obtain ⟨b, hb⟩ := Option.isSome_iff_exists.mp hb
    cases hp : readPort (portText s) with
    | none => exact hnone hp
    | some p =>
      have hport := h (.any 0) ⟨b, p⟩ hs ((inetPton6_success hs).mpr ⟨t, p, b, ht, hp, hb, rfl⟩)
      exact (genuinePort_of_readPort hp).mp hport
  · obtain ⟨t, p, b, ht, hp, hb, rfl⟩ := (inetPton6_success hs).mp ha
    exact (genuinePort_of_readPort hp).mpr (h hs ⟨t, ht, by rw [hb]; rfl⟩)

/-- `192.0.2.1: +65616x` is read with port 80. -/
theorem not_genuinePort_lenient : ¬ ∀ (sys : InetSystem) s out a, splits4 s →
    sys.inetPton4 s out = some (.success, a) → GenuinePort (portText s) a.port := by
  intro h
  have hs : splits4 "192.0.2.1: +65616x".toList := by decide +kernel
  have haddr : cString (addrText "192.0.2.1: +65616x".toList) = dotted ![192, 0, 2, 1] := by decide +kernel
  have hread : uncompressed.inetPton4 "192.0.2.1: +65616x".toList (.any 0) =
      some (.success, ⟨![192, 0, 2, 1], 80⟩) :=
    (inetPton4_success hs).mpr ⟨80, _, by decide +kernel, pton4_uncompressed.mpr haddr, rfl⟩
  have hport := h uncompressed _ _ _ hs hread
  exact absurd hport.le (by decide +kernel)

/-! ### Addresses -/

/-- The texts that are to be accepted as the IPv6 address `b`: those that the system accepts, and those in
brackets with a port. -/
def Grammar6 (sys : InetSystem) (s : List Char) (b : Bytes 16) : Prop :=
  (∃ t : CString, s = t.1 ∧ sys.pton6 t = some b) ∨
    ∃ (t : CString) (r : List Char), s = ['['] ++ t.1 ++ [']'] ++ [':'] ++ r ∧ sys.pton6 t = some b

theorem cString_of_notMem {t : List Char} (h : '\x00' ∉ t) : (cString t).1 = t :=
  congrArg Subtype.val (cString_val ⟨t, h⟩)

/-- What is between the characters that are dropped. -/
theorem addrText_of_unbracketed {t : List Char} (h : unbracketed s = some t) :
    ∃ x y, addrText s = x :: t ++ [y] := by
  rw [unbracketed, popBack] at h
  split_ifs at h with hne
  obtain rfl : ((addrText s).drop 1).dropLast = t := Option.some.inj h
  cases ha : addrText s with
  | nil =>
    rw [ha] at hne
    exact absurd rfl hne
  | cons x l =>
    rw [ha, List.drop_succ_cons, List.drop_zero] at hne
    refine ⟨x, l.getLast hne, ?_⟩
    rw [List.drop_succ_cons, List.drop_zero, List.cons_append, List.dropLast_append_getLast hne]

/-- A text with a port that begins with the bracket has the other one before the last `:`. -/
theorem grammar6_of_bracket (hsys : sys.Lawful) {t : List Char} {b : Bytes 16} (hnul : '\x00' ∉ s)
    (hs : splits6 s) (hhead : s.head? = some '[') (ht : unbracketed s = some t)
    (hb : sys.pton6 (cString t) = some b) : sys.Grammar6 s b := by
  obtain ⟨heq, hmem⟩ := split_eq hs
  obtain ⟨x, y, hxy⟩ := addrText_of_unbracketed ht
  have hsub : ∀ c ∈ t, c ∈ s := by
    intro c hc
    rw [heq, hxy]
    simp [hc]
  have hcs : (cString t).1 = t := cString_of_notMem fun h => hnul (hsub _ h)
  have hx : x = '[' := by
    rw [heq, hxy] at hhead
    exact Option.some.inj hhead
  have hy : ']' = y := by
    rw [hxy, List.mem_append, List.mem_cons, List.mem_singleton] at hmem
    rcases hmem with (hc | hc) | hc
    · rw [hx] at hc
      exact absurd hc (by decide)
    · refine absurd ?_ (hsys.bracket_notMem hb).2
      rw [hcs]
      exact hc
    · exact hc
  refine .inr ⟨cString t, portText s, ?_, hb⟩
  rw [hcs, List.append_assoc _ [':'], List.singleton_append]
  conv_lhs => rw [heq, hxy, hx, ← hy]
  rfl

/-- **Only addresses are accepted, in IPv6**, if and only if the text begins with the bracket that is
dropped, has no port to split off, or is not accepted for another reason. -/
theorem grammar6_iff (hsys : sys.Lawful) (hnul : '\x00' ∉ s) :
    (∀ out a, sys.inetPton6 s out = some (.success, a) → sys.Grammar6 s a.bytes) ↔
      (s.head? = some '[' ∨ ¬ splits6 s ∨ stoi (portText s) = none ∨
        ∀ t, unbracketed s = some t → sys.pton6 (cString t) = none) := by
  constructor
  · intro h
    by_contra hno
    simp only [not_or, not_not] at hno
    obtain ⟨hhead, hs, hport, haddr⟩ := hno
    push Not at haddr
    obtain ⟨t, ht, hb⟩ := haddr
    obtain ⟨b, hb⟩ := Option.ne_none_iff_exists'.mp hb
    obtain ⟨p, hp⟩ := Option.ne_none_iff_exists'.mp (mt readPort_eq_none.mp hport)
    rcases h (.any 0) ⟨b, p⟩ ((inetPton6_success hs).mpr ⟨t, p, b, ht, hp, hb, rfl⟩) with
      ⟨u, rfl, hu⟩ | ⟨u, r, rfl, -⟩
    · obtain ⟨heq, hmem⟩ := split_eq hs
      refine (hsys.bracket_notMem hu).2 ?_
      rw [heq]
      exact List.mem_append_left _ hmem
    · exact hhead rfl
  · intro h out a ha
    by_cases hs : splits6 s
    · obtain ⟨t, p, b, ht, hp, hb, rfl⟩ := (inetPton6_success hs).mp ha
      rcases h with hhead | hns | hport | haddr
      · exact grammar6_of_bracket hsys hnul hs hhead ht hb
      · exact absurd hs hns
      · rw [readPort_eq_none.mpr hport] at hp
        cases hp
      · rw [haddr t ht] at hb
        cases hb
    · rw [inetPton6_of_not hs] at ha
      obtain ⟨b, hb, rfl⟩ := parse6_success.mp (Option.some.inj ha)
      exact .inl ⟨cString s, (cString_of_notMem hnul).symm, hb⟩

/-- `x1:2:3:4:5:6:7:8]:80` is accepted. -/
theorem not_grammar6_unopened : ¬ ∀ sys : InetSystem, sys.Lawful → ∀ s, '\x00' ∉ s → ∀ out a,
    sys.inetPton6 s out = some (.success, a) → sys.Grammar6 s a.bytes := by
  intro h
  have hnul : '\x00' ∉ "x1:2:3:4:5:6:7:8]:80".toList := by decide +kernel
  have hs : splits6 "x1:2:3:4:5:6:7:8]:80".toList := by decide +kernel
  have haddr : cString "1:2:3:4:5:6:7:8".toList = grouped ![0, 1, 0, 2, 0, 3, 0, 4, 0, 5, 0, 6, 0, 7, 0, 8] := by
    decide +kernel
  have hread : uncompressed.inetPton6 "x1:2:3:4:5:6:7:8]:80".toList (.any 0) =
      some (.success, ⟨![0, 1, 0, 2, 0, 3, 0, 4, 0, 5, 0, 6, 0, 7, 0, 8], 80⟩) :=
    (inetPton6_success hs).mpr ⟨"1:2:3:4:5:6:7:8".toList, 80, _, by decide +kernel, by decide +kernel,
      pton6_uncompressed.mpr haddr, rfl⟩
  rcases h uncompressed uncompressed_lawful _ hnul _ _ hread with ⟨t, ht, hb⟩ | ⟨t, r, ht, -⟩
  · refine (uncompressed_lawful.bracket_notMem hb).2 ?_
    rw [← ht]
    decide +kernel
  · have hhead : "x1:2:3:4:5:6:7:8]:80".toList.head? = some '[' := congrArg List.head? ht
    exact absurd hhead (by decide +kernel)

/-- `[1:2:3:4:5:6:7:8]:80` is accepted, and is an address. -/
theorem grammar6_iff_bracketed :
    uncompressed.inetPton6 "[1:2:3:4:5:6:7:8]:80".toList (.any 0) =
        some (.success, ⟨![0, 1, 0, 2, 0, 3, 0, 4, 0, 5, 0, 6, 0, 7, 0, 8], 80⟩) ∧
      uncompressed.Grammar6 "[1:2:3:4:5:6:7:8]:80".toList ![0, 1, 0, 2, 0, 3, 0, 4, 0, 5, 0, 6, 0, 7, 0, 8] := by
  have hs : splits6 "[1:2:3:4:5:6:7:8]:80".toList := by decide +kernel
  have haddr : cString "1:2:3:4:5:6:7:8".toList = grouped ![0, 1, 0, 2, 0, 3, 0, 4, 0, 5, 0, 6, 0, 7, 0, 8] := by
    decide +kernel
  have hread : uncompressed.inetPton6 "[1:2:3:4:5:6:7:8]:80".toList (.any 0) =
      some (.success, ⟨![0, 1, 0, 2, 0, 3, 0, 4, 0, 5, 0, 6, 0, 7, 0, 8], 80⟩) :=
    (inetPton6_success hs).mpr ⟨"1:2:3:4:5:6:7:8".toList, 80, _, by decide +kernel, by decide +kernel,
      pton6_uncompressed.mpr haddr, rfl⟩
  exact ⟨hread, (grammar6_iff uncompressed_lawful (by decide +kernel)).mpr (.inl (by decide +kernel)) _ _ hread⟩

/-! ### Error codes -/

theorem readPort_bind_eq_none {α : Type} {r : List Char} {f : UInt16 → α} :
    ((readPort r).bind fun p => some (f p)) = none ↔ stoi r = none := by
  rw [← readPort_eq_none]
  cases readPort r <;> simp

/-- There are two characters to drop, or there are not. -/
theorem unbracketed_eq_none : unbracketed s = none ↔ ¬ 2 ≤ (addrText s).length := by
  rw [unbracketed, popBack, ite_eq_left_iff]
  simp only [reduceCtorEq, imp_false, not_not, List.drop_eq_nil_iff]
  omega

theorem inetPton4_ne_none_iff {out : IPv4Address} :
    sys.inetPton4 s out ≠ none ↔ (splits4 s → stoi (portText s) ≠ none) := by
  by_cases hs : splits4 s
  · rw [inetPton4_of_splits hs, Ne, readPort_bind_eq_none]
    simp [hs]
  · rw [inetPton4_of_not hs]
    simp [hs]

theorem inetPton6_ne_none_iff {out : IPv6Address} : sys.inetPton6 s out ≠ none ↔
    (splits6 s → 2 ≤ (addrText s).length ∧ stoi (portText s) ≠ none) := by
  by_cases hs : splits6 s
  · rw [inetPton6_of_splits hs]
    cases hu : unbracketed s with
    | none => simp [hs, unbracketed_eq_none.mp hu]
    | some t =>
      have hlen : 2 ≤ (addrText s).length := by
        by_contra hlt
        rw [unbracketed_eq_none.mpr hlt] at hu
        cases hu
      rw [Option.bind_some, Ne, readPort_bind_eq_none]
      simp [hs, hlen]
  · rw [inetPton6_of_not hs]
    simp [hs]

/-- The third function reads into an address of its own. -/
theorem inetPton_ne_none_iff {family : AddressFamily} {junk : Bytes 18} {out : Endpoint} :
    sys.inetPton family s junk out ≠ none ↔ (family = .ipv4 → sys.inetPton4 s (.any 0) ≠ none) ∧
      (family = .ipv6 → sys.inetPton6 s (.any 0) ≠ none) := by
  have hne : AddressFamily.ipv6 ≠ .ipv4 := by decide
  by_cases hf4 : family = .ipv4
  · rw [inetPton, if_pos hf4]
    cases sys.inetPton4 s (.any 0) <;> simp [hf4, hne.symm]
  by_cases hf6 : family = .ipv6
  · rw [inetPton, if_neg hf4, if_pos hf6]
    cases sys.inetPton6 s (.any 0) <;> simp [hf6, hne]
  · rw [inetPton, if_neg hf4, if_neg hf6]
    simp [hf4, hf6]

/-- **An error code comes back** from each of the three, if and only if `std::stoi` reads a number from the
port that is split off, and, in IPv6, there are two characters to drop. -/
theorem returns_iff (sys : InetSystem) (s : List Char) :
    ((∀ out, sys.inetPton4 s out ≠ none) ↔ (splits4 s → stoi (portText s) ≠ none)) ∧
    ((∀ out, sys.inetPton6 s out ≠ none) ↔
      (splits6 s → 2 ≤ (addrText s).length ∧ stoi (portText s) ≠ none)) ∧
    ∀ family, (∀ junk out, sys.inetPton family s junk out ≠ none) ↔
      (family = .ipv4 → splits4 s → stoi (portText s) ≠ none) ∧
      (family = .ipv6 → splits6 s → 2 ≤ (addrText s).length ∧ stoi (portText s) ≠ none) := by
  refine ⟨⟨fun h => inetPton4_ne_none_iff.mp (h (.any 0)), fun h out => inetPton4_ne_none_iff.mpr h⟩,
    ⟨fun h => inetPton6_ne_none_iff.mp (h (.any 0)), fun h out => inetPton6_ne_none_iff.mpr h⟩,
    fun family => ?_⟩
  have hiff : ∀ junk out, sys.inetPton family s junk out ≠ none ↔
      (family = .ipv4 → splits4 s → stoi (portText s) ≠ none) ∧
      (family = .ipv6 → splits6 s → 2 ≤ (addrText s).length ∧ stoi (portText s) ≠ none) := by
    intro junk out
    rw [inetPton_ne_none_iff, inetPton4_ne_none_iff, inetPton6_ne_none_iff]
  exact ⟨fun h => (hiff zeroMemory (.empty zeroMemory)).mp (h _ _), fun h junk out => (hiff junk out).mpr h⟩

/-- `192.0.2.1:` has a port that is empty. -/
theorem not_returns_empty : ¬ ∀ (sys : InetSystem) s family junk out,
    sys.inetPton family s junk out ≠ none := by
  intro h
  refine h uncompressed "192.0.2.1:".toList .ipv4 zeroMemory (.empty zeroMemory) ?_
  have hs : splits4 "192.0.2.1:".toList := by decide +kernel
  have hport : readPort (portText "192.0.2.1:".toList) = none := by decide +kernel
  rw [inetPton, if_pos rfl, inetPton4_of_splits hs, hport]
  rfl

/-! ### The output of a failure -/

/-- A failure leaves the port that was set before. -/
theorem parse4_failed {t : List Char} {out out' : IPv4Address} {e : ErrorCode}
    (h : sys.parse4 t out = (e, out')) (he : e ≠ .success) : sys.pton4 (cString t) = none ∧ out' = out := by
  rw [parse4] at h
  cases hb : sys.pton4 (cString t) with
  | none =>
    rw [hb] at h
    cases h
    exact ⟨rfl, rfl⟩
  | some b =>
    rw [hb] at h
    cases h
    exact absurd rfl he

theorem parse6_failed {t : List Char} {out out' : IPv6Address} {e : ErrorCode}
    (h : sys.parse6 t out = (e, out')) (he : e ≠ .success) : sys.pton6 (cString t) = none ∧ out' = out := by
  rw [parse6] at h
  cases hb : sys.pton6 (cString t) with
  | none =>
    rw [hb] at h
    cases h
    exact ⟨rfl, rfl⟩
  | some b =>
    rw [hb] at h
    cases h
    exact absurd rfl he

/-- A failure in IPv4 leaves all but the port. -/
theorem untouched4_iff {out : IPv4Address} :
    (∀ e out', sys.inetPton4 s out = some (e, out') → e ≠ .success → out' = out) ↔
      (splits4 s → sys.pton4 (cString (addrText s)) = none → ∀ p, readPort (portText s) = some p →
        p = out.port) := by
  refine ⟨fun h hs hb p hp => ?_, fun h e out' ha he => ?_⟩
  · have hfail : sys.inetPton4 s out = some (.systemError, { out with port := p }) := by
      rw [inetPton4_of_splits hs, hp, Option.bind_some, parse4, hb]
    exact congrArg IPv4Address.port (h _ _ hfail (by decide))
  · by_cases hs : splits4 s
    · rw [inetPton4_of_splits hs] at ha
      obtain ⟨p, hp, ha⟩ := Option.bind_eq_some_iff.mp ha
      obtain ⟨hb, rfl⟩ := parse4_failed (Option.some.inj ha) he
      rw [h hs hb p hp]
    · rw [inetPton4_of_not hs] at ha
      exact (parse4_failed (Option.some.inj ha) he).2

/-- So does one in IPv6. -/
theorem untouched6_iff {out : IPv6Address} :
    (∀ e out', sys.inetPton6 s out = some (e, out') → e ≠ .success → out' = out) ↔
      (splits6 s → ∀ t, unbracketed s = some t → sys.pton6 (cString t) = none →
        ∀ p, readPort (portText s) = some p → p = out.port) := by
  refine ⟨fun h hs t ht hb p hp => ?_, fun h e out' ha he => ?_⟩
  · have hfail : sys.inetPton6 s out = some (.systemError, { out with port := p }) := by
      rw [inetPton6_of_splits hs, ht, Option.bind_some, hp, Option.bind_some, parse6, hb]
    exact congrArg IPv6Address.port (h _ _ hfail (by decide))
  · by_cases hs : splits6 s
    · rw [inetPton6_of_splits hs] at ha
      obtain ⟨t, ht, ha⟩ := Option.bind_eq_some_iff.mp ha
      obtain ⟨p, hp, ha⟩ := Option.bind_eq_some_iff.mp ha
      obtain ⟨hb, rfl⟩ := parse6_failed (Option.some.inj ha) he
      rw [h hs t ht hb p hp]
    · rw [inetPton6_of_not hs] at ha
      exact (parse6_failed (Option.some.inj ha) he).2

/-- **A failure leaves the output untouched** if and only if no port is split off before the address is
refused, or it is the port that was there; the endpoint of the third function is always untouched. -/
theorem untouched_iff (sys : InetSystem) (s : List Char) :
    (∀ out, (∀ e out', sys.inetPton4 s out = some (e, out') → e ≠ .success → out' = out) ↔
      (splits4 s → sys.pton4 (cString (addrText s)) = none → ∀ p, readPort (portText s) = some p →
        p = out.port)) ∧
    (∀ out, (∀ e out', sys.inetPton6 s out = some (e, out') → e ≠ .success → out' = out) ↔
      (splits6 s → ∀ t, unbracketed s = some t → sys.pton6 (cString t) = none →
        ∀ p, readPort (portText s) = some p → p = out.port)) ∧
    ∀ family junk out e out', sys.inetPton family s junk out = some (e, out') → e ≠ .success →
      out' = out := by
  refine ⟨fun out => untouched4_iff, fun out => untouched6_iff, fun family junk out e out' ha he => ?_⟩
  rw [inetPton] at ha
  split_ifs at ha
  · obtain ⟨⟨e', a⟩, -, ha⟩ := Option.bind_eq_some_iff.mp ha
    cases ha
    exact if_neg he
  · obtain ⟨⟨e', a⟩, -, ha⟩ := Option.bind_eq_some_iff.mp ha
    cases ha
    exact if_neg he
  · cases ha
    rfl

/-- `1.2.3:80` is refused, and sets the port. -/
theorem not_untouched_port : ¬ ∀ (sys : InetSystem) s out e out', sys.inetPton4 s out = some (e, out') →
    e ≠ .success → out' = out := by
  intro h
  have hs : splits4 "1.2.3:80".toList := by decide +kernel
  have hp : readPort (portText "1.2.3:80".toList) = some 80 := by decide +kernel
  have hb : uncompressed.pton4 (cString (addrText "1.2.3:80".toList)) = none := by decide +kernel
  have hfail : uncompressed.inetPton4 "1.2.3:80".toList (.any 0) = some (.systemError, ⟨(IPv4Address.any 0).bytes, 80⟩) := by
    rw [inetPton4_of_splits hs, hp, Option.bind_some, parse4, hb]
  exact absurd (congrArg IPv4Address.port (h _ _ _ _ _ hfail (by decide))) (by decide)

/-! ### The output of a success -/

/-- When `s` is read into `out₁`, then also into `out₂`, with the same result, and so it is into an
endpoint. -/
def Agrees4 (sys : InetSystem) (s : List Char) (out₁ out₂ : IPv4Address) : Prop :=
  ∀ a, sys.inetPton4 s out₁ = some (.success, a) → sys.inetPton4 s out₂ = some (.success, a) ∧
    ∀ junk out, ∃ e, sys.inetPton .ipv4 s junk out = some (.success, e) ∧ e.ipv4 = a

/-- The same in IPv6. -/
def Agrees6 (sys : InetSystem) (s : List Char) (out₁ out₂ : IPv6Address) : Prop :=
  ∀ a, sys.inetPton6 s out₁ = some (.success, a) → sys.inetPton6 s out₂ = some (.success, a) ∧
    ∀ junk out, ∃ e, sys.inetPton .ipv6 s junk out = some (.success, e) ∧ e.ipv6 = a

theorem inetPton4_bare_of_some {b : Bytes 4} (hs : ¬ splits4 s)
    (hb : sys.pton4 (cString s) = some b) (out : IPv4Address) :
    sys.inetPton4 s out = some (.success, ⟨b, out.port⟩) := by
  rw [inetPton4_of_not hs, parse4_success.mpr ⟨_, hb, rfl⟩]

theorem inetPton6_bare_of_some {b : Bytes 16} (hs : ¬ splits6 s)
    (hb : sys.pton6 (cString s) = some b) (out : IPv6Address) :
    sys.inetPton6 s out = some (.success, ⟨b, out.port⟩) := by
  rw [inetPton6_of_not hs, parse6_success.mpr ⟨_, hb, rfl⟩]

theorem agrees4_iff {out₁ out₂ : IPv4Address} : sys.Agrees4 s out₁ out₂ ↔
    splits4 s ∨ sys.pton4 (cString s) = none ∨ out₁.port = 0 ∧ out₂.port = 0 := by
  refine ⟨fun h => or_iff_not_imp_left.mpr fun hs => ?_, fun h a ha => ?_⟩
  · cases hb : sys.pton4 (cString s) with
    | none => exact .inl rfl
    | some b =>
      have hbare := inetPton4_bare_of_some hs hb
      obtain ⟨h₂, hep⟩ := h _ (hbare out₁)
      rw [hbare out₂] at h₂
      obtain ⟨e, he, hipv4⟩ := hep zeroMemory (.empty zeroMemory)
      rw [inetPton_of_inetPton4 _ _ (hbare (.any 0))] at he
      cases he
      rw [Endpoint.ipv4_ofIPv4] at hipv4
      have h₁ : (0 : UInt16) = out₁.port := congrArg IPv4Address.port hipv4
      have h₂ : out₂.port = out₁.port := congrArg (fun r => r.2.port) (Option.some.inj h₂)
      exact .inr ⟨h₁.symm, h₂.trans h₁.symm⟩
  · by_cases hs : splits4 s
    · have hany : ∀ out, sys.inetPton4 s out = some (.success, a) := fun out =>
        (inetPton4_success hs).mpr ((inetPton4_success hs).mp ha)
      exact ⟨hany _, fun junk out => ⟨_, inetPton_of_inetPton4 junk out (hany _), Endpoint.ipv4_ofIPv4 _ junk⟩⟩
    · rw [inetPton4_of_not hs] at ha
      obtain ⟨b, hb, rfl⟩ := parse4_success.mp (Option.some.inj ha)
      have hbare := inetPton4_bare_of_some hs hb
      rcases h with h | h | ⟨h₁, h₂⟩
      · exact absurd h hs
      · rw [hb] at h
        cases h
      · rw [h₁]
        refine ⟨(hbare out₂).trans (by rw [h₂]), fun junk out =>
          ⟨_, inetPton_of_inetPton4 junk out (hbare (.any 0)), Endpoint.ipv4_ofIPv4 _ junk⟩⟩

theorem agrees6_iff {out₁ out₂ : IPv6Address} : sys.Agrees6 s out₁ out₂ ↔
    splits6 s ∨ sys.pton6 (cString s) = none ∨ out₁.port = 0 ∧ out₂.port = 0 := by
  refine ⟨fun h => or_iff_not_imp_left.mpr fun hs => ?_, fun h a ha => ?_⟩
  · cases hb : sys.pton6 (cString s) with
    | none => exact .inl rfl
    | some b =>
      have hbare := inetPton6_bare_of_some hs hb
      obtain ⟨h₂, hep⟩ := h _ (hbare out₁)
      rw [hbare out₂] at h₂
      obtain ⟨e, he, hipv6⟩ := hep zeroMemory (.empty zeroMemory)
      rw [inetPton_of_inetPton6 _ _ (hbare (.any 0))] at he
      cases he
      rw [Endpoint.ipv6_ofIPv6] at hipv6
      have h₁ : (0 : UInt16) = out₁.port := congrArg IPv6Address.port hipv6
      have h₂ : out₂.port = out₁.port := congrArg (fun r => r.2.port) (Option.some.inj h₂)
      exact .inr ⟨h₁.symm, h₂.trans h₁.symm⟩
  · by_cases hs : splits6 s
    · have hany : ∀ out, sys.inetPton6 s out = some (.success, a) := fun out =>
        (inetPton6_success hs).mpr ((inetPton6_success hs).mp ha)
      exact ⟨hany _, fun junk out => ⟨_, inetPton_of_inetPton6 junk out (hany _), Endpoint.ipv6_ofIPv6 _⟩⟩
    · rw [inetPton6_of_not hs] at ha
      obtain ⟨b, hb, rfl⟩ := parse6_success.mp (Option.some.inj ha)
      have hbare := inetPton6_bare_of_some hs hb
      rcases h with h | h | ⟨h₁, h₂⟩
      · exact absurd h hs
      · rw [hb] at h
        cases h
      · rw [h₁]
        refine ⟨(hbare out₂).trans (by rw [h₂]), fun junk out =>
          ⟨_, inetPton_of_inetPton6 junk out (hbare (.any 0)), Endpoint.ipv6_ofIPv6 _⟩⟩

/-- **The result depends on the text only**, whatever the output held before, if and only if the text has a
port, or is refused, or the port that the output held is the 0 that the endpoint gets. -/
theorem agrees_iff (sys : InetSystem) (s : List Char) :
    (∀ out₁ out₂, sys.Agrees4 s out₁ out₂ ↔
      splits4 s ∨ sys.pton4 (cString s) = none ∨ out₁.port = 0 ∧ out₂.port = 0) ∧
    ∀ out₁ out₂, sys.Agrees6 s out₁ out₂ ↔
      splits6 s ∨ sys.pton6 (cString s) = none ∨ out₁.port = 0 ∧ out₂.port = 0 :=
  ⟨fun _ _ => agrees4_iff, fun _ _ => agrees6_iff⟩

/-- `192.0.2.1`, read into an address with port 80, keeps that port. -/
theorem not_agrees_bare : ¬ ∀ (sys : InetSystem) s out₁ out₂, sys.Agrees4 s out₁ out₂ := by
  intro h
  have hs : ¬ splits4 "192.0.2.1".toList := by decide +kernel
  have haddr : cString "192.0.2.1".toList = dotted ![192, 0, 2, 1] := by decide +kernel
  have hread : ∀ out, uncompressed.inetPton4 "192.0.2.1".toList out =
      some (.success, ⟨![192, 0, 2, 1], out.port⟩) :=
    inetPton4_bare_of_some hs (pton4_uncompressed.mpr haddr)
  have hsame := (h uncompressed _ (.any 80) (.any 0) _ (hread _)).1.symm.trans (hread _)
  exact absurd (congrArg (fun r => r.2.port) (Option.some.inj hsame)) (by decide)

end InetSystem

end FirelinkNet
