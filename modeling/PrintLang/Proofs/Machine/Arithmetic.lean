import PrintLang.Proofs.Machine.Limit
import PrintLang.Proofs.Machine.Width

set_option autoImplicit false

namespace PrintLang

namespace Alu
variable (w : Width) (dst src : UInt64)

theorem add_overflow : (add w dst src).2.overflow = true ↔
    ¬ w.Fits (w.value dst + w.value src) := by
  have half := w.two_pow_bits
  have first := (w.fits_iff _).mp (w.value_fits dst)
  have second := (w.fits_iff _).mp (w.value_fits src)
  have sign := Int.bmod_neg_iff (x := w.value dst + w.value src) (m := 2 ^ w.bits) (by omega)
    (by omega)
  rw [← w.value_add] at sign
  simp only [add, result, Width.isNegative_eq, Bool.and_eq_true, bne_iff_ne, beq_iff_eq, ne_eq,
    decide_eq_decide, Width.value_and_mask, Width.fits_iff, sign]
  omega

theorem sub_overflow : (sub w dst src).2.overflow = true ↔
    ¬ w.Fits (w.value dst - w.value src) := by
  have half := w.two_pow_bits
  have first := (w.fits_iff _).mp (w.value_fits dst)
  have second := (w.fits_iff _).mp (w.value_fits src)
  have sign := Int.bmod_neg_iff (x := w.value dst - w.value src) (m := 2 ^ w.bits) (by omega)
    (by omega)
  rw [← w.value_sub] at sign
  simp only [sub, result, Width.isNegative_eq, Bool.and_eq_true, bne_iff_ne, ne_eq,
    decide_eq_decide, Width.value_and_mask, Width.fits_iff, sign]
  omega

theorem add_carry :
    (add w dst src).2.carry = true ↔ 2 ^ w.bits ≤ w.unsigned dst + w.unsigned src := by
  have first := w.unsigned_lt dst
  have second := w.unsigned_lt src
  simp only [add, result, decide_eq_true_eq, UInt64.lt_iff_toNat_lt, Width.toNat_and_mask,
    Width.unsigned_add]
  split <;> omega

theorem sub_carry : (sub w dst src).2.carry = true ↔ w.unsigned dst < w.unsigned src := by
  simp only [sub, result, decide_eq_true_eq, UInt64.lt_iff_toNat_lt, Width.toNat_and_mask]

/-- The test for a product that is too wide, on integers. -/
theorem imul_wide : (imul w dst src).2.overflow = true ↔
    (w.value dst * w.value src).bmod (2 ^ w.bits) ≠ (w.value dst * w.value src).bmod (2 ^ 64) ∨
      w.value dst ≠ 0 ∧
        ((((w.value dst * w.value src).bmod (2 ^ 64)).tdiv (w.value dst)).bmod (2 ^ 64) ≠
          w.value src ∨ w.value dst = -1 ∧ w.value src = -((2 ^ 63 : Nat) : Int)) := by
  have whole : (w.signed dst * w.signed src).toInt = (w.value dst * w.value src).bmod (2 ^ 64) := by
    rw [Int64.toInt_mul, Width.toInt_signed, Width.toInt_signed]
  have kept : (w.signed ((w.signed dst * w.signed src).toUInt64 &&& w.mask)).toInt =
      (w.value dst * w.value src).bmod (2 ^ w.bits) := by
    rw [Width.toInt_signed, Width.value_and_mask, ← Width.value_toInt64, Int64.toInt64_toUInt64,
      whole, Int.bmod_bmod_of_dvd w.bits_dvd]
  have one : (-1 : Int64).toInt = -1 := rfl
  have least : Int64.minValue.toInt = -((2 ^ 63 : Nat) : Int) := rfl
  have zero : (0 : Int64).toInt = 0 := rfl
  simp only [imul, result, Bool.or_eq_true, Bool.and_eq_true, bne_iff_ne, beq_iff_eq, ne_eq,
    ← Int64.toInt_inj, Int64.toInt_div, kept, whole, Width.toInt_signed, one, least, zero]

theorem imul_overflow :
    (imul w dst src).2.overflow = true ↔ ¬ w.Fits (w.value dst * w.value src) := by
  have factor := (Width.fits_qword _).mp (w.value_fits dst).qword
  rw [imul_wide, ← w.bmod_eq_self_iff]
  constructor
  · intro wide kept
    have fits := ((w.bmod_eq_self_iff _).mp kept).qword
    rw [kept, Width.bmod_eq_self_iff_qword.mpr fits] at wide
    obtain cut | ⟨ne, off | ⟨negative, least⟩⟩ := wide
    · exact cut rfl
    · rw [Int.mul_tdiv_cancel_left _ ne] at off
      exact off (Width.bmod_eq_self_iff_qword.mpr (w.value_fits src).qword)
    · rw [negative, least, Width.fits_qword] at fits
      omega
  · intro cut
    by_contra narrow
    rw [not_or, not_ne_iff, not_and] at narrow
    obtain ⟨kept, divided⟩ := narrow
    apply cut
    by_cases zero : w.value dst = 0
    · rw [zero, Int.zero_mul, Int.zero_bmod]
    · obtain ⟨quotient, least⟩ := not_or.mp (divided zero)
      rw [kept]
      exact eq_mul_of_tdiv (h := 2 ^ 63) ((Width.fits_qword _).mp (Width.bmod_fits_qword _)) factor
        rfl zero (not_ne_iff.mp quotient) least

end Alu

namespace AluOp

def exact (op : AluOp) (w : Width) (dst src : UInt64) : Int :=
  match op with
  | .add => w.value dst + w.value src
  | .sub => w.value dst - w.value src
  | .cmp => w.value dst - w.value src
  | .imul => w.value dst * w.value src
  | .and => (w.unsigned dst &&& w.unsigned src : Nat)
  | .test => (w.unsigned dst &&& w.unsigned src : Nat)
  | .or => (w.unsigned dst ||| w.unsigned src : Nat)
  | .xor => (w.unsigned dst ^^^ w.unsigned src : Nat)

def bitwise : AluOp → Bool
  | .and => true
  | .test => true
  | .or => true
  | .xor => true
  | _ => false

/-- When the carry flag is set. A product has one condition for both flags. -/
def Carries (op : AluOp) (w : Width) (dst src : UInt64) : Prop :=
  match op with
  | .add => 2 ^ w.bits ≤ w.unsigned dst + w.unsigned src
  | .sub => w.unsigned dst < w.unsigned src
  | .cmp => w.unsigned dst < w.unsigned src
  | .imul => ¬ w.Fits (w.value dst * w.value src)
  | _ => False

end AluOp

namespace Alu

structure Exact (op : AluOp) (w : Width) (dst src : UInt64) (r : UInt64 × Flags) : Prop where
  value : (r.1.toNat : Int) = op.exact w dst src % 2 ^ w.bits
  zero : r.2.zero = true ↔ r.1 = 0
  /-- The sign is the top bit of the result. -/
  sign : r.2.sign = true ↔ 2 ^ (w.bits - 1) ≤ r.1.toNat
  carry : r.2.carry = true ↔ op.Carries w dst src
  overflow : r.2.overflow = true ↔ op.bitwise = false ∧ ¬ w.Fits (op.exact w dst src)

section Operations
variable (w : Width) (dst src : UInt64)

theorem Exact.of_result {op : AluOp} {w : Width} {dst src v : UInt64} {carry overflow : Bool}
    (value : w.value v = (op.exact w dst src).bmod (2 ^ w.bits))
    (hc : carry = true ↔ op.Carries w dst src)
    (ho : overflow = true ↔ op.bitwise = false ∧ ¬ w.Fits (op.exact w dst src)) :
    Exact op w dst src (result w (v &&& w.mask) carry overflow) := by
  have half := w.two_pow_bits
  have below := w.unsigned_lt v
  constructor
  case value =>
    have pow : (2 : Int) ^ w.bits = (2 ^ w.bits : Nat) := by simp
    rw [result, Width.toNat_and_mask, Width.natCast_unsigned, value, pow, Int.bmod_emod]
  case zero => exact beq_iff_eq
  case sign =>
    simp only [result, Width.isNegative_eq, Width.value_and_mask, decide_eq_true_eq,
      Width.toNat_and_mask, Width.value_eq w v]
    split <;> omega
  case carry => exact hc
  case overflow => exact ho

theorem exact_add : Exact .add w dst src (add w dst src) :=
  .of_result (w.value_add dst src) (add_carry w dst src)
    ((add_overflow w dst src).trans (by simp [AluOp.bitwise, AluOp.exact]))

theorem exact_sub {op : AluOp} (h : op = .sub ∨ op = .cmp) :
    Exact op w dst src (sub w dst src) := by
  obtain rfl | rfl := h <;>
  exact .of_result (w.value_sub dst src) (sub_carry w dst src)
    ((sub_overflow w dst src).trans (by simp [AluOp.bitwise, AluOp.exact]))

theorem exact_imul : Exact .imul w dst src (imul w dst src) := by
  refine .of_result ?_ (imul_overflow w dst src)
    ((imul_overflow w dst src).trans (by simp [AluOp.bitwise, AluOp.exact]))
  rw [← Width.value_toInt64, Int64.toInt64_toUInt64, Int64.toInt_mul, Width.toInt_signed,
    Width.toInt_signed, Int.bmod_bmod_of_dvd w.bits_dvd, AluOp.exact]

theorem exact_logic {op : AluOp} {v : UInt64} (h : op.bitwise = true)
    (value : op.exact w dst src = (w.unsigned v : Nat)) : Exact op w dst src (logic w v) := by
  refine .of_result ?_ ?_ ?_
  · rw [value, Width.bmod_unsigned]
  · cases op <;> first
      | exact absurd h (by decide)
      | exact ⟨nofun, False.elim⟩
  · simp [h]

theorem exact_apply (op : AluOp) : Exact op w dst src (apply op w dst src) := by
  cases op with
  | add => exact exact_add w dst src
  | sub => exact exact_sub w dst src (.inl rfl)
  | cmp => exact exact_sub w dst src (.inr rfl)
  | imul => exact exact_imul w dst src
  | and | test => exact exact_logic w dst src rfl (congrArg Nat.cast (w.unsigned_and dst src).symm)
  | or => exact exact_logic w dst src rfl (congrArg Nat.cast (w.unsigned_or dst src).symm)
  | xor => exact exact_logic w dst src rfl (congrArg Nat.cast (w.unsigned_xor dst src).symm)

end Operations

end Alu

namespace Cond

/-- The order that a condition asks for after a comparison. -/
def relation : Cond → Option (Int → Int → Prop)
  | .e => some (· = ·)
  | .z => some (· = ·)
  | .ne => some (· ≠ ·)
  | .nz => some (· ≠ ·)
  | .l => some (· < ·)
  | .le => some (· ≤ ·)
  | .g => some (· > ·)
  | .ge => some (· ≥ ·)
  | .always => none
  | .s => none
  | .ns => none

section Compare
variable (w : Width) (dst src : UInt64)

/-- Two values are never a whole range apart, so their difference is cut to zero for equal ones
only. -/
theorem zero_cmp : (Alu.apply .cmp w dst src).2.zero = true ↔ w.value dst = w.value src := by
  have exact := Alu.exact_apply w dst src .cmp
  have half := w.two_pow_bits
  have first := (w.fits_iff _).mp (w.value_fits dst)
  have second := (w.fits_iff _).mp (w.value_fits src)
  have pow : (2 : Int) ^ w.bits = (2 ^ w.bits : Nat) := by simp
  rw [exact.zero, ← UInt64.toNat_inj, UInt64.toNat_zero, ← Int.natCast_inj, exact.value, pow,
    AluOp.exact, Int.natCast_zero, ← Int.dvd_iff_emod_eq_zero]
  constructor
  · intro multiple
    have := Int.eq_zero_of_dvd_of_natAbs_lt_natAbs multiple (by omega)
    omega
  · intro same
    rw [same, Int.sub_self]
    exact Int.dvd_zero _

/-- The sign of the cut difference is wrong exactly when the difference has overflown. -/
theorem less_cmp :
    ((Alu.apply .cmp w dst src).2.sign != (Alu.apply .cmp w dst src).2.overflow) = true ↔
      w.value dst < w.value src := by
  have half := w.two_pow_bits
  have first := (w.fits_iff _).mp (w.value_fits dst)
  have second := (w.fits_iff _).mp (w.value_fits src)
  have sign : (Alu.apply .cmp w dst src).2.sign = true ↔
      (w.value dst - w.value src).bmod (2 ^ w.bits) < 0 := by
    simp only [Alu.apply, Alu.sub, Alu.result, Width.isNegative_eq, Width.value_and_mask,
      Width.value_sub, decide_eq_true_eq]
  rw [Int.bmod_neg_iff (by omega) (by omega)] at sign
  have overflow := Alu.sub_overflow w dst src
  rw [Width.fits_iff] at overflow
  change (Alu.apply .cmp w dst src).2.overflow = true ↔ _ at overflow
  rw [bne_iff_ne, ne_eq, Bool.eq_iff_iff, sign, overflow]
  omega

theorem holds_cmp {c : Cond} {R : Int → Int → Prop} (h : c.relation = some R) :
    c.holds (Alu.apply .cmp w dst src).2 = true ↔ R (w.value dst) (w.value src) := by
  have zero := zero_cmp w dst src
  have less := less_cmp w dst src
  generalize (Alu.apply .cmp w dst src).2 = f at zero less
  have same : (f.sign == f.overflow) = true ↔ ¬ w.value dst < w.value src := by
    rw [← less]
    simp
  have nonzero : (!f.zero) = true ↔ w.value dst ≠ w.value src := by
    rw [ne_eq, ← zero]
    simp
  cases c <;> cases h <;>
  simp only [holds, Bool.or_eq_true, Bool.and_eq_true, zero, less, same, nonzero] <;>
  omega

end Compare

end Cond

def Instr.compare (a b : Operand) : Instr := ⟨.alu .cmp, [a, b]⟩

namespace Machine

section Compare
variable {p : Image} {m : Machine} {a b : Operand} {dst src : UInt64}

theorem exec_compare (source : m.read p a (Instr.compare a b).width = .ok src)
    (target : m.read p b (Instr.compare a b).width = .ok dst) :
    exec p (.compare a b) m =
      (m.withFlags (Alu.apply .cmp (Instr.compare a b).width dst src).2, none) := by
  unfold Instr.compare at source target ⊢
  simp only [exec, Instr.operand, List.getElem?_cons_zero, List.getElem?_cons_succ, bind,
    Except.bind, pure, Except.pure, source, target, Alu.stores, Bool.false_eq_true, if_false]
  rfl

end Compare

/-- Every operation is the one on numbers, with the flags that tell what was cut off; and a jump
behind a comparison is taken exactly when the integers stand in the order that it asks for. -/
theorem arithmetic_exact :
    (∀ (op : AluOp) (w : Width) (dst src : UInt64),
      Alu.Exact op w dst src (Alu.apply op w dst src)) ∧
    ∀ (p : Image) (m : Machine) (a b : Operand) (dst src : UInt64),
      let w := (Instr.compare a b).width
      m.read p a w = .ok src → m.read p b w = .ok dst →
      ∃ flags, exec p (.compare a b) m = (m.withFlags flags, none) ∧
        ∀ (c : Cond) (R : Int → Int → Prop), c.relation = some R →
        ∀ (name : Bytes) (i : Int), p.lookup? name = some ⟨.text, i⟩ →
          (R (w.value dst) (w.value src) →
            exec p ⟨.jump c, [.target name]⟩ (m.withFlags flags) =
              ((m.withFlags flags).goto i, none)) ∧
          (¬ R (w.value dst) (w.value src) →
            exec p ⟨.jump c, [.target name]⟩ (m.withFlags flags) = (m.withFlags flags, none)) := by
  refine ⟨fun op w dst src => Alu.exact_apply w dst src op, ?_⟩
  intro p m a b dst src w source target
  refine ⟨_, exec_compare source target, fun c R asked name i label => ⟨?_, ?_⟩⟩
  · intro ordered
    have holds := (c.holds_cmp _ dst src asked).mpr ordered
    exact exec_jump_taken p _ c name i (by rw [flags_withFlags, holds]) label
  · intro unordered
    have fails := mt (c.holds_cmp _ dst src asked).mp unordered
    exact exec_jump_passed p _ c _ (by rw [flags_withFlags, Bool.eq_false_iff.mpr fails])

def bytesMachine : Machine := (idleMachine.setReg .rax 0xab80).setReg .rbx 0xff01

/-- The least byte is less than one, though the bytes above it say otherwise and the difference
overflows. -/
theorem least_byte_is_less :
    let low (r : Reg) : Operand := .register (.general r .byte)
    Alu.apply .cmp .byte 0xab80 0xff01 = (0x7f, ⟨false, false, false, true⟩) ∧
    ∃ flags, exec idleImage (.compare (low .rbx) (low .rax)) bytesMachine =
        (bytesMachine.withFlags flags, none) ∧
      exec idleImage ⟨.jump .l, [.target (bytes "f")]⟩ (bytesMachine.withFlags flags) =
        ((bytesMachine.withFlags flags).goto 0, none) := by
  intro low
  refine ⟨by decide, ?_⟩
  obtain ⟨flags, compared, jumps⟩ := arithmetic_exact.2 idleImage bytesMachine (low .rbx) (low .rax)
    0x80 0x01 (by decide +kernel) (by decide +kernel)
  exact ⟨flags, compared, (jumps .l _ rfl (bytes "f") 0 (by decide)).1 (by decide)⟩

end Machine

end PrintLang
