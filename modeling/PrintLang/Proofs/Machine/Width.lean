import Mathlib.Algebra.Group.Nat.Defs
import Mathlib.Algebra.Ring.Int.Defs
import PrintLang.Machine.Alu

set_option autoImplicit false

namespace PrintLang

namespace Width

def bits (w : Width) : Nat := 8 * w.size

def unsigned (w : Width) (v : UInt64) : Nat := v.toNat % 2 ^ w.bits

def value (w : Width) (v : UInt64) : Int := Int.bmod v.toNat (2 ^ w.bits)

def Fits (w : Width) (x : Int) : Prop := -2 ^ (w.bits - 1) ≤ x ∧ x < 2 ^ (w.bits - 1)

instance (w : Width) (x : Int) : Decidable (w.Fits x) := inferInstanceAs (Decidable (_ ∧ _))

section Reading
variable (w : Width)

theorem two_pow_bits : 2 ^ w.bits = 2 * 2 ^ (w.bits - 1) := by
  cases w <;> rfl

theorem fits_iff (x : Int) :
    w.Fits x ↔ -((2 ^ (w.bits - 1) : Nat) : Int) ≤ x ∧ x < (2 ^ (w.bits - 1) : Nat) := by
  rw [Fits, Int.natCast_pow, Int.cast_ofNat_Int]

theorem bmod_eq_self_iff (x : Int) : x.bmod (2 ^ w.bits) = x ↔ w.Fits x := by
  have half := w.two_pow_bits
  have pos : 0 < 2 ^ (w.bits - 1) := Nat.two_pow_pos _
  rw [fits_iff]
  constructor
  · intro same
    have low := Int.le_bmod (x := x) (Nat.two_pow_pos w.bits)
    have high := Int.bmod_lt (x := x) (Nat.two_pow_pos w.bits)
    omega
  · intro fits
    exact Int.bmod_eq_of_le_mul_two (by omega) (by omega)

theorem value_fits (v : UInt64) : w.Fits (w.value v) :=
  (w.bmod_eq_self_iff _).mp Int.bmod_bmod

/-- The two readings of a word are equal, or differ by the whole range when the top bit is set. -/
theorem value_eq (v : UInt64) : w.value v =
    if w.unsigned v < 2 ^ (w.bits - 1) then (w.unsigned v : Int)
    else w.unsigned v - (2 ^ w.bits : Nat) := by
  have half := w.two_pow_bits
  rw [value, Int.bmod_def, ← Int.natCast_mod, ← unsigned]
  split <;> split <;> omega

theorem natCast_unsigned (v : UInt64) : (w.unsigned v : Int) = w.value v % 2 ^ w.bits := by
  have pow : (2 : Int) ^ w.bits = (2 ^ w.bits : Nat) := by simp
  rw [value, pow, Int.bmod_emod, unsigned, Int.natCast_mod]

theorem bmod_unsigned (v : UInt64) : (w.unsigned v : Int).bmod (2 ^ w.bits) = w.value v := by
  rw [unsigned, Int.natCast_mod, Int.emod_bmod, value]

theorem bits_dvd : 2 ^ w.bits ∣ 2 ^ 64 := by
  cases w <;> decide

/-- Only the low bits of a register count, so its own reading of 64 bits serves for all widths. -/
theorem value_toInt64 (v : UInt64) : v.toInt64.toInt.bmod (2 ^ w.bits) = w.value v := by
  have whole : v.toInt64.toInt = (v.toNat : Int).bmod (2 ^ 64) :=
    BitVec.toInt_eq_toNat_bmod v.toBitVec
  rw [whole, Int.bmod_bmod_of_dvd w.bits_dvd, value]

theorem unsigned_lt (v : UInt64) : w.unsigned v < 2 ^ w.bits := Nat.mod_lt _ (Nat.two_pow_pos _)

theorem unsigned_add (a b : UInt64) : w.unsigned (a + b) =
    if w.unsigned a + w.unsigned b < 2 ^ w.bits then w.unsigned a + w.unsigned b
    else w.unsigned a + w.unsigned b - 2 ^ w.bits := by
  have ha := w.unsigned_lt a
  have hb := w.unsigned_lt b
  rw [unsigned, UInt64.toNat_add, Nat.mod_mod_of_dvd _ w.bits_dvd, Nat.add_mod, ← unsigned,
    ← unsigned]
  split
  · next h => exact Nat.mod_eq_of_lt h
  · next h => rw [Nat.mod_eq_sub_mod (Nat.not_lt.mp h), Nat.mod_eq_of_lt (by omega)]

theorem unsigned_and (a b : UInt64) : w.unsigned (a &&& b) = w.unsigned a &&& w.unsigned b := by
  rw [unsigned, UInt64.toNat_and, Nat.and_mod_two_pow, unsigned, unsigned]

theorem unsigned_or (a b : UInt64) : w.unsigned (a ||| b) = w.unsigned a ||| w.unsigned b := by
  rw [unsigned, UInt64.toNat_or, Nat.or_mod_two_pow, unsigned, unsigned]

theorem unsigned_xor (a b : UInt64) : w.unsigned (a ^^^ b) = w.unsigned a ^^^ w.unsigned b := by
  rw [unsigned, UInt64.toNat_xor, Nat.xor_mod_two_pow, unsigned, unsigned]

theorem value_add (a b : UInt64) : w.value (a + b) = (w.value a + w.value b).bmod (2 ^ w.bits) := by
  rw [← value_toInt64, UInt64.toInt64_add, Int64.toInt_add, Int.bmod_bmod_of_dvd w.bits_dvd,
    ← Int.add_bmod_bmod, ← Int.bmod_add_bmod, value_toInt64, value_toInt64]

theorem value_sub (a b : UInt64) : w.value (a - b) = (w.value a - w.value b).bmod (2 ^ w.bits) := by
  rw [← value_toInt64, UInt64.toInt64_sub, Int64.toInt_sub, Int.bmod_bmod_of_dvd w.bits_dvd,
    ← Int.sub_bmod_bmod, ← Int.bmod_sub_bmod, value_toInt64, value_toInt64]

theorem toNat_and_mask (v : UInt64) : (v &&& w.mask).toNat = w.unsigned v := by
  have ones : w.mask.toNat = 2 ^ w.bits - 1 := by cases w <;> decide
  rw [UInt64.toNat_and, ones, Nat.and_two_pow_sub_one_eq_mod, unsigned]

theorem unsigned_and_mask (v : UInt64) : w.unsigned (v &&& w.mask) = w.unsigned v := by
  rw [unsigned, toNat_and_mask, unsigned, Nat.mod_mod]

theorem value_and_mask (v : UInt64) : w.value (v &&& w.mask) = w.value v := by
  rw [value_eq, unsigned_and_mask, ← value_eq]

theorem toBitVec_signed (v : UInt64) : (w.signed v).toBitVec =
    (v.toBitVec <<< (64 - w.bits)).sshiftRight (64 - w.bits) := by
  rw [signed, Int64.toBitVec_shiftRight]
  cases w <;> rfl

theorem toInt_signed (v : UInt64) : (w.signed v).toInt = w.value v := by
  have below := v.toNat_lt
  rw [← Int64.toInt_toBitVec, toBitVec_signed, BitVec.toInt_sshiftRight, BitVec.toInt_shiftLeft,
    Int.shiftRight_eq_div_pow, Nat.shiftLeft_eq, UInt64.toNat_toBitVec, value]
  cases w <;>
  · simp only [bits, size, Int.bmod_def, Int.natCast_mul, Int.natCast_pow]
    omega

theorem isNegative_eq (v : UInt64) : w.isNegative v = decide (w.value v < 0) := by
  rw [isNegative, ← toInt_signed]
  exact decide_eq_decide.mpr Int64.lt_iff_toInt_lt

end Reading

end Width

section Qword
variable {w : Width} {x : Int}

theorem Width.bmod_eq_self_iff_qword : x.bmod (2 ^ 64) = x ↔ qword.Fits x :=
  qword.bmod_eq_self_iff x

theorem Width.fits_qword (x : Int) :
    qword.Fits x ↔ -((2 ^ 63 : Nat) : Int) ≤ x ∧ x < (2 ^ 63 : Nat) := qword.fits_iff x

theorem Width.bmod_fits_qword (x : Int) : qword.Fits (x.bmod (2 ^ 64)) :=
  bmod_eq_self_iff_qword.mp Int.bmod_bmod

theorem Width.Fits.qword (h : w.Fits x) : qword.Fits x := by
  have less : 2 ^ (w.bits - 1) ≤ 2 ^ 63 := by cases w <;> decide
  rw [fits_iff] at h
  rw [fits_qword]
  omega

end Qword

section Division
variable {a b full : Int} {h : Nat} (room : -(h : Int) ≤ full ∧ full < h)
include room

/-- A quotient leaves the range for one pair only. -/
theorem eq_neg_of_tdiv_eq (top : full.tdiv a = h) : full = -h ∧ a = -1 := by
  have size : h = full.natAbs / a.natAbs := by
    have := Int.natAbs_tdiv full a
    rwa [top, Int.natAbs_natCast] at this
  have nonzero : full.natAbs ≠ 0 := by
    intro zero
    rw [zero, Nat.zero_div] at size
    omega
  have unit : a.natAbs = 1 := by
    rcases Nat.lt_trichotomy a.natAbs 1 with less | one | more
    · rw [show a.natAbs = 0 by omega, Nat.div_zero] at size
      omega
    · exact one
    · have := Nat.div_lt_self (Nat.pos_of_ne_zero nonzero) more
      omega
  obtain rfl | rfl : a = 1 ∨ a = -1 := by omega
  · rw [Int.tdiv_one] at top
    omega
  · rw [Int.tdiv_neg, Int.tdiv_one] at top
    exact ⟨by omega, rfl⟩

/-- When dividing a product that was cut to the range by one factor gives the other, nothing was cut
off. -/
theorem eq_mul_of_tdiv (factor : -(h : Int) ≤ a ∧ a < h) (cut : full = (a * b).bmod (2 * h))
    (ne : a ≠ 0) (quotient : (full.tdiv a).bmod (2 * h) = b) (least : ¬(a = -1 ∧ b = -h)) :
    full = a * b := by
  have exact : full.tdiv a = b := by
    by_cases top : full.tdiv a = h
    · obtain ⟨-, negative⟩ := eq_neg_of_tdiv_eq room top
      rw [top, Int.bmod_eq_neg (by omega) (by simp)] at quotient
      exact absurd ⟨negative, quotient.symm⟩ least
    · have small := Int.natAbs_tdiv_le_natAbs full a
      rw [← quotient]
      exact (Int.bmod_eq_of_le_mul_two (by omega) (by omega)).symm
  have split := Int.mul_tdiv_add_tmod full a
  rw [exact] at split
  -- The remainder is less than the range and a multiple of it.
  have short : (full.tmod a).natAbs < a.natAbs := by
    rw [Int.natAbs_tmod]
    exact Nat.mod_lt _ (Int.natAbs_pos.mpr ne)
  have multiple : ((2 * h : Nat) : Int) ∣ full.tmod a := by
    have := Int.bmod_add_bdiv (a * b) (2 * h)
    refine ⟨-(a * b).bdiv (2 * h), ?_⟩
    rw [Int.mul_neg]
    omega
  have none : full.tmod a = 0 := Int.eq_zero_of_dvd_of_natAbs_lt_natAbs multiple (by omega)
  rw [none, Int.add_zero] at split
  exact split.symm

end Division

end PrintLang
