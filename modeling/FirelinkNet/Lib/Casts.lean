import Mathlib.Algebra.Group.Int.Defs
import Mathlib.Algebra.Group.Nat.Defs
import Mathlib.Data.Nat.Basic

/-!
# Casts between machine integers

When a cast of a 64-bit number to a narrower type, or of a signed one to an unsigned
one, keeps its value.
-/

namespace FirelinkNet.Lib

/-- A cast to an unsigned 32-bit number. -/
theorem toNat_toUInt32_iff {x : UInt64} : x.toUInt32.toNat = x.toNat ↔ x.toNat < 2 ^ 32 := by
  rw [UInt64.toNat_toUInt32]
  constructor
  · intro h
    rw [← h]
    exact Nat.mod_lt _ (by decide)
  · exact Nat.mod_eq_of_lt

/-- A cast to a signed one. -/
theorem toInt_toInt32_iff {x : UInt64} : x.toUInt32.toInt32.toInt = x.toNat ↔ x.toNat < 2 ^ 31 := by
  have hbmod : x.toUInt32.toInt32.toInt = (x.toUInt32.toNat : ℤ).bmod (2 ^ 32) := by
    simp [Int32.toInt, BitVec.toInt_eq_toNat_bmod]
  constructor
  · intro h
    have hlt := x.toUInt32.toInt32.toInt_lt
    rw [h] at hlt
    exact_mod_cast hlt
  · intro h
    rw [hbmod, toNat_toUInt32_iff.mpr (by omega)]
    exact Int.bmod_eq_of_le (by omega) (by omega)

/-- A cast from a signed number that is not negative. -/
theorem toNat_ofInt {x : ℤ} (h : 0 ≤ x) (h' : x < 2 ^ 64) : ((UInt64.ofInt x).toNat : ℤ) = x := by
  simp only [UInt64.ofInt, UInt64.toNat_ofNat', Nat.reducePow]
  omega

/-- A cast from a negative one. -/
theorem toNat_ofInt_neg {x : ℤ} (h : x < 0) (h' : -2 ^ 64 ≤ x) :
    ((UInt64.ofInt x).toNat : ℤ) = 2 ^ 64 + x := by
  simp only [UInt64.ofInt, UInt64.toNat_ofNat', Nat.reducePow]
  omega

end FirelinkNet.Lib
