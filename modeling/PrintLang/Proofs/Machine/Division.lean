import PrintLang.Proofs.Machine.Limit

set_option autoImplicit false

namespace PrintLang

structure Divides (n d q r : Nat) : Prop where
  split : q * d + r = n
  small : r < d

structure Truncates (n d q r : Int) : Prop where
  split : q * d + r = n
  small : r.natAbs < d.natAbs
  sign : r = 0 ∨ r.sign = n.sign

theorem Divides.of_pos (n : Nat) {d : Nat} (h : 0 < d) : Divides n d (n / d) (n % d) :=
  ⟨Nat.div_add_mod' n d, Nat.mod_lt n h⟩

theorem Truncates.of_ne_zero (n : Int) {d : Int} (h : d ≠ 0) :
    Truncates n d (n.tdiv d) (n.tmod d) where
  split := Int.tdiv_mul_add_tmod n d
  small := by
    rw [Int.natAbs_tmod]
    exact Nat.mod_lt _ (Int.natAbs_pos.mpr h)
  sign := by
    by_cases whole : d ∣ n
    · exact .inl (Int.tmod_eq_zero_of_dvd whole)
    · exact .inr (by rw [Int.sign_tmod, if_neg whole])

namespace Word

theorem toNat_pos {d : UInt64} (h : d ≠ 0) : 0 < d.toNat :=
  Nat.pos_of_ne_zero fun zero => h (UInt64.toNat_inj.mp zero)

/-- The upper word of the dividend alone decides whether the quotient fits into one. -/
theorem quotient_fits_iff (hi lo : UInt64) {d : UInt64} (h : d ≠ 0) :
    (hi.toNat * 2 ^ 64 + lo.toNat) / d.toNat < 2 ^ 64 ↔ hi < d := by
  have low := lo.toNat_lt
  rw [Nat.div_lt_iff_lt_mul (toNat_pos h), UInt64.lt_iff_toNat_lt]
  omega

theorem toInt_tdiv {n d : Int64} (h : ¬ (n = Int64.minValue ∧ d = -1)) :
    (n / d).toInt = n.toInt.tdiv d.toInt := by
  obtain least | unit := not_and_or.mp h
  · exact Int64.toInt_div_of_ne_left n d least
  · exact Int64.toInt_div_of_ne_right n d unit

end Word

namespace Machine

def wide (m : Machine) : Nat := (m.reg .rdx).toNat * 2 ^ 64 + (m.reg .rax).toNat

def withQuotient (m : Machine) (q r : UInt64) : Machine := (m.setReg .rax q).setReg .rdx r

def signExtended (m : Machine) : Machine :=
  m.setReg .rdx ((m.reg .rax).toInt64 >>> 63).toUInt64

section Unsigned
variable (m : Machine) (d : UInt64)

/-- There is no quotient, or none that fits. -/
def Indivisible : Prop := d = 0 ∨ 2 ^ 64 ≤ m.wide / d.toNat

instance : Decidable (m.Indivisible d) := inferInstanceAs (Decidable (_ ∨ _))

theorem indivisible_iff : m.Indivisible d ↔ d = 0 ∨ d ≤ m.reg .rdx := by
  unfold Indivisible
  by_cases zero : d = 0
  · exact iff_of_true (.inl zero) (.inl zero)
  · have fits := Word.quotient_fits_iff (m.reg .rdx) (m.reg .rax) zero
    rw [or_iff_right zero, or_iff_right zero, ← Nat.not_lt, wide, fits, UInt64.not_lt]

theorem div_of_indivisible (h : m.Indivisible d) : m.div d = (m, some .divide) :=
  if_pos ((m.indivisible_iff d).mp h)

theorem div_exact (h : ¬ m.Indivisible d) :
    ∃ q r : UInt64, m.div d = (m.withQuotient q r, none) ∧
      Divides m.wide d.toNat q.toNat r.toNat := by
  have runs : m.div d =
      (m.withQuotient (m.wide / d.toNat).toUInt64 (m.wide % d.toNat).toUInt64, none) :=
    if_neg (mt (m.indivisible_iff d).mpr h)
  refine ⟨_, _, runs, ?_⟩
  obtain ⟨nonzero, fits⟩ := not_or.mp h
  have exact := Divides.of_pos m.wide (Word.toNat_pos nonzero)
  rwa [Nat.toUInt64_eq, Nat.toUInt64_eq, UInt64.toNat_ofNat_of_lt' (Nat.not_le.mp fits),
    UInt64.toNat_ofNat_of_lt' (Nat.lt_trans exact.small d.toNat_lt)]

end Unsigned

section Signed
variable {m : Machine} {n d : Int64}
variable (low : m.reg .rax = n.toUInt64) (high : m.reg .rdx = (n >>> 63).toUInt64)
include low high

theorem idiv_of_extended : m.idiv d =
    if d = 0 ∨ (n = Int64.minValue ∧ d = -1) then (m, some .divide)
    else (m.withQuotient (n / d).toUInt64 (n % d).toUInt64, none) := by
  simp only [idiv, low, high, Int64.toInt64_toUInt64, ne_eq, not_true_eq_false, if_false]
  rfl

theorem idiv_exact (h : ¬ (d = 0 ∨ (n = Int64.minValue ∧ d = -1))) :
    ∃ q r : Int64, m.idiv d = (m.withQuotient q.toUInt64 r.toUInt64, none) ∧
      Truncates n.toInt d.toInt q.toInt r.toInt := by
  refine ⟨n / d, n % d, by rw [idiv_of_extended low high, if_neg h], ?_⟩
  obtain ⟨nonzero, fits⟩ := not_or.mp h
  rw [Word.toInt_tdiv fits, Int64.toInt_mod]
  exact .of_ne_zero _ fun zero => nonzero (Int64.toInt_inj.mp zero)

end Signed

section Instructions
variable {p : Image} {m : Machine} {a : Operand} {d : UInt64}

theorem exec_div_of_read (h : m.read p a .qword = .ok d) : exec p ⟨.div, [a]⟩ m = m.div d := by
  simp only [exec, Instr.operand, List.getElem?_cons_zero, bind, Except.bind, h]

theorem exec_idiv_of_read (h : m.read p a .qword = .ok d) :
    exec p ⟨.idiv, [a]⟩ m = m.idiv d.toInt64 := by
  simp only [exec, Instr.operand, List.getElem?_cons_zero, bind, Except.bind, h]

theorem execAll_single (i : Instr) : execAll p [i] m = exec p i m.fetched := by
  rw [execAll_cons]
  rcases exec p i m.fetched with ⟨u, _ | f⟩ <;> rfl

theorem execAll_cqo (is : List Instr) :
    execAll p (⟨.cqo, []⟩ :: is) m = execAll p is m.fetched.signExtended := by
  rw [execAll_cons, exec_cqo, andThen_none, signExtended]

end Instructions

/-- A division faults exactly when its divisor is zero or its quotient is too large, and is exact
otherwise. This is so for natural numbers of two words, and for integers of one word whose sign is
extended first. The divisor may come from any operand, and is read after the extension, which may
have changed it. -/
theorem division_exact :
    (∀ (p : Image) (m : Machine) (a : Operand) (d : UInt64), m.read p a .qword = .ok d →
      (exec p ⟨.div, [a]⟩ m = (m, some .divide) ↔ m.Indivisible d) ∧
      (¬ m.Indivisible d →
        ∃ q r : UInt64, exec p ⟨.div, [a]⟩ m = (m.withQuotient q r, none) ∧
          Divides m.wide d.toNat q.toNat r.toNat)) ∧
    ∀ (p : Image) (m : Machine) (a : Operand) (n d : Int64), m.reg .rax = n.toUInt64 →
      let u := m.fetched.signExtended.fetched
      u.read p a .qword = .ok d.toUInt64 →
      (execAll p [⟨.cqo, []⟩, ⟨.idiv, [a]⟩] m = (u, some .divide) ↔
        d = 0 ∨ (n = Int64.minValue ∧ d = -1)) ∧
      (¬ (d = 0 ∨ (n = Int64.minValue ∧ d = -1)) →
        ∃ q r : Int64, execAll p [⟨.cqo, []⟩, ⟨.idiv, [a]⟩] m =
            (u.withQuotient q.toUInt64 r.toUInt64, none) ∧
          Truncates n.toInt d.toInt q.toInt r.toInt) := by
  constructor
  · intro p m a d divisor
    rw [exec_div_of_read divisor]
    refine ⟨⟨fun faults => ?_, m.div_of_indivisible d⟩, m.div_exact d⟩
    by_contra fits
    obtain ⟨q, r, runs, -⟩ := m.div_exact d fits
    exact nomatch congrArg Prod.snd (runs.symm.trans faults)
  · intro p m a n d dividend u divisor
    have low : u.reg .rax = n.toUInt64 := by
      rw [reg_fetched, signExtended, reg_setReg, if_neg (by decide), reg_fetched, dividend]
    have high : u.reg .rdx = (n >>> 63).toUInt64 := by
      rw [reg_fetched, signExtended, reg_setReg, if_pos rfl, reg_fetched, dividend,
        Int64.toInt64_toUInt64]
    have runs : execAll p [⟨.cqo, []⟩, ⟨.idiv, [a]⟩] m = u.idiv d := by
      rw [execAll_cqo, execAll_single, exec_idiv_of_read divisor, Int64.toInt64_toUInt64]
    rw [runs]
    refine ⟨?_, idiv_exact low high⟩
    rw [idiv_of_extended low high]
    split
    · next fails => exact iff_of_true rfl fails
    · next fits => exact iff_of_false (fun faults => nomatch congrArg Prod.snd faults) fits

/-- Without a sign, `%rdx` and `%rax` hold three halves of `2 ^ 64`; with one, `%rax` holds the least
integer. -/
def halvesMachine : Machine :=
  (((idleMachine.setReg .rdx 1).setReg .rax 0x8000000000000000).setReg .rbx 7).setReg .rcx
    0xffffffffffffffff

theorem halvesMachine_divides :
    let m := halvesMachine
    let u := m.fetched.signExtended.fetched
    let signed (r : Reg) := execAll idleImage [⟨.cqo, []⟩, ⟨.idiv, [.reg r]⟩] m
    exec idleImage ⟨.div, [.reg .rbx]⟩ m = (m.withQuotient 3952873730080618203 3, none) ∧
    exec idleImage ⟨.div, [.reg .rdx]⟩ m = (m, some .divide) ∧
    signed .rbx =
      (u.withQuotient (-1317624576693539401 : Int64).toUInt64 (-1 : Int64).toUInt64, none) ∧
    signed .rcx = (u, some .divide) := by
  intro m u signed
  obtain ⟨unsigned, extended⟩ := division_exact
  refine ⟨?_, ?_, ?_, ?_⟩
  · obtain ⟨q, r, runs, split, small⟩ :=
      (unsigned idleImage m (.reg .rbx) 7 (by decide)).2 (by decide)
    rw [show m.wide = 27670116110564327424 by decide] at split
    rw [show (7 : UInt64).toNat = 7 from rfl] at split small
    obtain rfl : q = 3952873730080618203 := UInt64.toNat_inj.mp (by
      change q.toNat = 3952873730080618203
      omega)
    obtain rfl : r = 3 := UInt64.toNat_inj.mp (by
      change r.toNat = 3
      omega)
    exact runs
  · exact (unsigned idleImage m (.reg .rdx) 1 (by decide)).1.mpr (by decide)
  · obtain ⟨q, r, runs, split, small, sign⟩ :=
      (extended idleImage m (.reg .rbx) Int64.minValue 7 (by decide) (by decide)).2 (by decide)
    rw [show Int64.minValue.toInt = -9223372036854775808 from rfl] at split sign
    rw [show (7 : Int64).toInt = 7 from rfl] at split small
    have negative : r.toInt = 0 ∨ r.toInt < 0 := sign.imp_right Int.sign_eq_neg_one_iff_neg.mp
    obtain rfl : q = -1317624576693539401 := Int64.toInt_inj.mp (by
      change q.toInt = -1317624576693539401
      omega)
    obtain rfl : r = -1 := Int64.toInt_inj.mp (by
      change r.toInt = -1
      omega)
    exact runs
  · exact (extended idleImage m (.reg .rcx) Int64.minValue (-1) (by decide) (by decide)).1.mpr
      (by decide)

end Machine

end PrintLang
