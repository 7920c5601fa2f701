import Mathlib.Algebra.Ring.Int.Defs
import Mathlib.Algebra.Ring.Nat

set_option autoImplicit false

namespace PrintLang.Word

theorem toInt_eq (v : Int64) : v.toInt =
    if v.toUInt64.toNat < 2 ^ 63 then (v.toUInt64.toNat : Int) else v.toUInt64.toNat - 2 ^ 64 := by
  have h : v.toInt = if 2 * v.toUInt64.toNat < 2 ^ 64 then (v.toUInt64.toNat : Int)
      else v.toUInt64.toNat - (2 ^ 64 : Nat) := BitVec.toInt_eq_toNat_cond v.toBitVec
  rw [h]
  split <;> split <;> omega

theorem toNat_of_nonneg {v : Int64} (h : ¬ v < 0) : v.toUInt64.toNat = v.toInt.natAbs := by
  have h0 : ¬ v.toInt < 0 := fun hn => h (Int64.lt_iff_toInt_lt.mpr hn)
  have := toInt_eq v
  have := v.toUInt64.toNat_lt
  omega

/-- The magnitude of a negative word, also of the least one. -/
theorem toNat_zero_sub {v : Int64} (h : v < 0) : (0 - v.toUInt64).toNat = v.toInt.natAbs := by
  have h0 : v.toInt < 0 := Int64.lt_iff_toInt_lt.mp h
  have := toInt_eq v
  have := v.toUInt64.toNat_lt
  rw [UInt64.toNat_sub, UInt64.toNat_zero]
  omega

theorem natAbs_le (v : Int64) : v.toInt.natAbs ≤ 2 ^ 63 := by
  have := toInt_eq v
  have := v.toUInt64.toNat_lt
  omega

theorem toNat_sub {x : UInt64} {s : Nat} (hx : x.toNat = s) (k : Nat) (h : k ≤ s) :
    (x - UInt64.ofNat k).toNat = s - k := by
  have hlt := x.toNat_lt
  rw [UInt64.toNat_sub, UInt64.toNat_ofNat', hx]
  omega

theorem toUInt64_ofInt (x : Int) : (Int64.ofInt x).toUInt64 = UInt64.ofInt x := by
  apply UInt64.toNat_inj.mp
  change (BitVec.ofInt 64 x).toNat = _
  rw [BitVec.toNat_ofInt, UInt64.ofInt, UInt64.toNat_ofNat']
  omega

end PrintLang.Word
