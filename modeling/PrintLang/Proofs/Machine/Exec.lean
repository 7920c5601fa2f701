import PrintLang.Machine.Step
import PrintLang.Proofs.Machine.Memory

set_option autoImplicit false

namespace PrintLang

theorem Width.and_mask_qword (v : UInt64) : v &&& Width.qword.mask = v :=
  UInt64.and_neg_one

theorem Width.isNegative_qword (v : UInt64) : Width.qword.isNegative v = decide (v.toInt64 < 0) := by
  simp [Width.isNegative, Width.signed, Width.spare]

theorem Alu.value_add (a b : UInt64) : (Alu.apply .add .qword a b).1 = a + b :=
  Width.and_mask_qword (a + b)

theorem Alu.value_sub (a b : UInt64) : (Alu.apply .sub .qword a b).1 = a - b :=
  Width.and_mask_qword (a - b)

theorem Alu.value_imul (a b : UInt64) :
    (Alu.apply .imul .qword a b).1 = (a.toInt64 * b.toInt64).toUInt64 := by
  refine (Width.and_mask_qword _).trans ?_
  simp [Width.signed, Width.spare]

theorem Alu.value_xor_self (a : UInt64) : (Alu.apply .xor .qword a a).1 = 0 := by
  refine (Width.and_mask_qword _).trans ?_
  simp

theorem Alu.flags_test_self (a : UInt64) :
    (Alu.apply .test .qword a a).2 = ⟨a == 0, decide (a.toInt64 < 0), false, false⟩ := by
  simp only [Alu.apply, Alu.logic, Alu.result, Width.and_mask_qword, UInt64.and_self,
    Width.isNegative_qword]

namespace Machine

def withFlags (m : Machine) (flags : Flags) : Machine := { m with flags }

def withMemory (m : Machine) (memory : Memory) : Machine := { m with memory }

def goto (m : Machine) (rip : Int) : Machine := { m with rip }

-- These are proved by cases, so that rewriting with them leaves nothing to compute for the kernel.
section Fields
variable (m : Machine)

@[simp] theorem reg_withFlags (f : Flags) (r : Reg) : (m.withFlags f).reg r = m.reg r := by
  cases m
  rfl

@[simp] theorem reg_withMemory (x : Memory) (r : Reg) : (m.withMemory x).reg r = m.reg r := by
  cases m
  rfl

@[simp] theorem reg_goto (a : Int) (r : Reg) : (m.goto a).reg r = m.reg r := by
  cases m
  rfl

@[simp] theorem reg_fetched (r : Reg) : m.fetched.reg r = m.reg r := by
  cases m
  rfl

@[simp] theorem reg_setReg (q : Reg) (v : UInt64) (r : Reg) :
    (m.setReg q v).reg r = if q = r then v else m.reg r := by
  by_cases h : q = r
  · subst h
    rw [if_pos rfl, reg_setReg_same]
  · rw [if_neg h, reg_setReg_of_ne m h]

@[simp] theorem memory_withFlags (f : Flags) : (m.withFlags f).memory = m.memory := by
  cases m
  rfl

@[simp] theorem memory_withMemory (x : Memory) : (m.withMemory x).memory = x := by
  cases m
  rfl

@[simp] theorem memory_goto (a : Int) : (m.goto a).memory = m.memory := by
  cases m
  rfl

@[simp] theorem memory_fetched : m.fetched.memory = m.memory := by
  cases m
  rfl

@[simp] theorem memory_setReg (q : Reg) (v : UInt64) : (m.setReg q v).memory = m.memory := by
  cases m
  rfl

@[simp] theorem flags_withFlags (f : Flags) : (m.withFlags f).flags = f := by
  cases m
  rfl

@[simp] theorem flags_fetched : m.fetched.flags = m.flags := by
  cases m
  rfl

end Fields

section Operands
variable (p : Image) (m : Machine)

theorem read_reg (r : Reg) (w : Width) : m.read p (.reg r) w = .ok (m.reg r) := by
  simp only [read, Operand.reg, Width.and_mask_qword]

theorem write_reg (r : Reg) (w : Width) (v : UInt64) :
    m.write p (.reg r) w v = (m.setReg r v, none) := rfl

theorem address_based (b : Reg) (d : Int64) :
    m.address p (.based b d) = .ok (m.reg b + d.toUInt64) := rfl

end Operands

section Moves
variable (p : Image) (m : Machine)

theorem exec_mov (a b : Reg) :
    exec p ⟨.move .mov, [.reg a, .reg b]⟩ m = (m.setReg b (m.reg a), none) := by
  simp only [exec, Instr.operand, List.getElem?_cons_zero, List.getElem?_cons_succ, bind,
    Except.bind, pure, Except.pure, read_reg, write_reg]

theorem exec_mov_immediate (op : MoveOp) (v : Int64) (b : Reg) :
    exec p ⟨.move op, [.immediate v, .reg b]⟩ m = (m.setReg b v.toUInt64, none) := by
  simp only [exec, Instr.operand, List.getElem?_cons_zero, List.getElem?_cons_succ, bind,
    Except.bind, pure, Except.pure, read, write_reg]

theorem exec_lea (b r : Reg) (d : Int64) :
    exec p ⟨.lea, [.based b d, .reg r]⟩ m = (m.setReg r (m.reg b + d.toUInt64), none) := by
  simp only [exec, Instr.operand, List.getElem?_cons_zero, List.getElem?_cons_succ, bind,
    Except.bind, pure, Except.pure, address_based, write_reg]

theorem write_based_byte (b : Reg) (v : UInt64) (h : Memory.fits (m.reg b).toNat 1 = true) :
    m.write p (.based b 0) .byte v =
      (m.withMemory (m.memory.write (m.reg b).toNat [(v.toNat % 256).toUInt8]), none) := by
  have ha : m.address p (.based b 0) = .ok (m.reg b) := by
    rw [address_based, show (0 : Int64).toUInt64 = 0 from rfl, UInt64.add_zero]
  simp only [write, Operand.based] at ha ⊢
  rw [ha]
  simp only [storeWord, Width.size, h, if_true, LittleEndian.encode]
  rfl

theorem exec_movb_immediate (b : Reg) (v : Int64) (h : Memory.fits (m.reg b).toNat 1 = true) :
    exec p ⟨.move .movb, [.immediate v, .based b 0]⟩ m =
      (m.withMemory (m.memory.write (m.reg b).toNat [(v.toUInt64.toNat % 256).toUInt8]), none) := by
  simp only [exec, Instr.operand, List.getElem?_cons_zero, List.getElem?_cons_succ, bind,
    Except.bind, pure, Except.pure, read, Instr.width, write_based_byte p m b _ h]

theorem exec_movb (r b : Reg) (hr : (m.reg r).toNat < 256)
    (h : Memory.fits (m.reg b).toNat 1 = true) :
    exec p ⟨.move .movb, [.register (.general r .byte), .based b 0]⟩ m =
      (m.withMemory (m.memory.write (m.reg b).toNat [(m.reg r).toNat.toUInt8]), none) := by
  have hl : (m.reg r &&& Width.byte.mask).toNat % 256 = (m.reg r).toNat := by
    have hm : Width.byte.mask.toNat = 2 ^ 8 - 1 := by decide
    rw [UInt64.toNat_and, hm, Nat.and_two_pow_sub_one_eq_mod]
    omega
  simp only [exec, Instr.operand, List.getElem?_cons_zero, List.getElem?_cons_succ, bind,
    Except.bind, pure, Except.pure, read, Instr.width, write_based_byte p m b _ h, hl]

end Moves

section Arithmetic
variable (p : Image) (m : Machine)

theorem exec_alu (op : AluOp) (a b : Reg) (h : Alu.stores op = true) :
    exec p ⟨.alu op, [.reg a, .reg b]⟩ m =
      ((m.withFlags (Alu.apply op .qword (m.reg b) (m.reg a)).2).setReg b
        (Alu.apply op .qword (m.reg b) (m.reg a)).1, none) := by
  simp only [exec, Instr.operand, List.getElem?_cons_zero, List.getElem?_cons_succ, bind,
    Except.bind, pure, Except.pure, read_reg, h, if_true, write_reg]
  rfl

theorem exec_add (a b : Reg) :
    exec p ⟨.alu .add, [.reg a, .reg b]⟩ m =
      ((m.withFlags (Alu.apply .add .qword (m.reg b) (m.reg a)).2).setReg b
        (m.reg b + m.reg a), none) := by
  rw [exec_alu p m .add a b rfl, Alu.value_add]

theorem exec_sub (a b : Reg) :
    exec p ⟨.alu .sub, [.reg a, .reg b]⟩ m =
      ((m.withFlags (Alu.apply .sub .qword (m.reg b) (m.reg a)).2).setReg b
        (m.reg b - m.reg a), none) := by
  rw [exec_alu p m .sub a b rfl, Alu.value_sub]

theorem exec_imul (a b : Reg) :
    exec p ⟨.alu .imul, [.reg a, .reg b]⟩ m =
      ((m.withFlags (Alu.apply .imul .qword (m.reg b) (m.reg a)).2).setReg b
        ((m.reg b).toInt64 * (m.reg a).toInt64).toUInt64, none) := by
  rw [exec_alu p m .imul a b rfl, Alu.value_imul]

theorem exec_xor_self (r : Reg) :
    exec p ⟨.alu .xor, [.reg r, .reg r]⟩ m =
      ((m.withFlags (Alu.apply .xor .qword (m.reg r) (m.reg r)).2).setReg r 0, none) := by
  rw [exec_alu p m .xor r r rfl, Alu.value_xor_self]

theorem exec_sub_immediate (v : Int64) (b : Reg) :
    exec p ⟨.alu .sub, [.immediate v, .reg b]⟩ m =
      ((m.withFlags (Alu.apply .sub .qword (m.reg b) v.toUInt64).2).setReg b
        (m.reg b - v.toUInt64), none) := by
  have hv (w : Width) : m.read p (.immediate v) w = .ok v.toUInt64 := rfl
  rw [← Alu.value_sub]
  simp only [exec, Instr.operand, List.getElem?_cons_zero, List.getElem?_cons_succ, bind,
    Except.bind, pure, Except.pure, read_reg, hv, write_reg]
  rfl

theorem exec_test_self (r : Reg) :
    exec p ⟨.alu .test, [.reg r, .reg r]⟩ m =
      (m.withFlags ⟨m.reg r == 0, decide ((m.reg r).toInt64 < 0), false, false⟩, none) := by
  simp only [exec, Instr.operand, List.getElem?_cons_zero, List.getElem?_cons_succ, bind,
    Except.bind, pure, Except.pure, read_reg]
  rw [← Alu.flags_test_self]
  rfl

theorem exec_neg (r : Reg) :
    exec p ⟨.unary .neg, [.reg r]⟩ m =
      ((m.withFlags (Alu.apply .sub .qword 0 (m.reg r)).2).setReg r (0 - m.reg r), none) := by
  rw [← Alu.value_sub]
  simp only [exec, Instr.operand, List.getElem?_cons_zero, bind, Except.bind, pure, Except.pure,
    read_reg, write_reg]
  rfl

theorem exec_dec (r : Reg) :
    exec p ⟨.unary .dec, [.reg r]⟩ m =
      ((m.withFlags (Alu.apply .sub .qword (m.reg r) 1).2).setReg r (m.reg r - 1), none) := by
  rw [← Alu.value_sub]
  simp only [exec, Instr.operand, List.getElem?_cons_zero, bind, Except.bind, pure, Except.pure,
    read_reg, write_reg]
  rfl

theorem exec_add_byte (v : Int64) (r : Reg) (h : (m.reg r).toNat + v.toUInt64.toNat < 256) :
    exec p ⟨.alu .add, [.immediate v, .register (.general r .byte)]⟩ m =
      ((m.withFlags (Alu.apply .add .byte (m.reg r) v.toUInt64).2).setReg r
        (m.reg r + v.toUInt64), none) := by
  have low (x : UInt64) (hx : x.toNat < 256) : x &&& 0xff = x := by
    apply UInt64.toNat_inj.mp
    rw [UInt64.toNat_and]
    exact Nat.and_two_pow_sub_one_of_lt_two_pow (n := 8) hx
  have hr : m.reg r &&& Width.byte.mask = m.reg r := low _ (by omega)
  have hs : m.reg r + v.toUInt64 &&& 0xff = m.reg r + v.toUInt64 := by
    apply low
    rw [UInt64.toNat_add]
    omega
  have hv (w : Width) : m.read p (.immediate v) w = .ok v.toUInt64 := rfl
  have hd (w : Width) : m.read p (.register (.general r .byte)) w = .ok (m.reg r) := by
    simp only [read, hr]
  have hz : m.reg r &&& 0xffffffffffffff00 = 0 := by
    rw [← low (m.reg r) (by omega), UInt64.and_assoc]
    exact UInt64.and_zero
  have hw : (Alu.apply .add .byte (m.reg r) v.toUInt64).1 = m.reg r + v.toUInt64 := hs
  simp only [exec, Instr.operand, List.getElem?_cons_zero, List.getElem?_cons_succ, bind,
    Except.bind, pure, Except.pure, hv, hd, Instr.width, List.findSome?, Option.getD, hw]
  change ((m.withFlags _).setReg r ((m.reg r &&& 0xffffffffffffff00) |||
    (m.reg r + v.toUInt64 &&& 0xff)), none) = _
  rw [hz, hs, UInt64.zero_or]

theorem exec_cqo : exec p ⟨.cqo, []⟩ m =
    (m.setReg .rdx ((m.reg .rax).toInt64 >>> 63).toUInt64, none) := rfl

theorem exec_div (r : Reg) : exec p ⟨.div, [.reg r]⟩ m = m.div (m.reg r) := by
  simp only [exec, Instr.operand, List.getElem?_cons_zero, bind, Except.bind, read_reg]

theorem exec_idiv (r : Reg) : exec p ⟨.idiv, [.reg r]⟩ m = m.idiv (m.reg r).toInt64 := by
  simp only [exec, Instr.operand, List.getElem?_cons_zero, bind, Except.bind, read_reg]

/-- A dividend of one word: quotient and remainder always fit. -/
theorem div_of_word (d : UInt64) (hd : 0 < d.toNat) (h : m.reg .rdx = 0) :
    m.div d = ((m.setReg .rax ((m.reg .rax).toNat / d.toNat).toUInt64).setReg .rdx
      ((m.reg .rax).toNat % d.toNat).toUInt64, none) := by
  have hd' : ¬ (d = 0 ∨ d ≤ 0) := by
    rintro (rfl | hle)
    · exact absurd hd (by decide)
    · have := UInt64.le_iff_toNat_le.mp hle
      simp only [UInt64.toNat_zero] at this
      omega
  simp only [div, h, if_neg hd', UInt64.toNat_zero, Nat.zero_mul, Nat.zero_add]

end Arithmetic

section Stack
variable (p : Image) (m : Machine)

theorem exec_push (r : Reg) : exec p ⟨.push, [.reg r]⟩ m = m.push (m.reg r) := by
  simp only [exec, Instr.operand, List.getElem?_cons_zero, bind, Except.bind, read_reg]

theorem push_of_fits (v : UInt64) (h : Memory.fits (m.reg .rsp - 8).toNat 8 = true) :
    m.push v = ((m.withMemory (m.memory.write (m.reg .rsp - 8).toNat
      (LittleEndian.encode 8 v.toNat))).setReg .rsp (m.reg .rsp - 8), none) := by
  simp only [push, h, if_true]
  rfl

theorem top_of_read (v : UInt64) (h : Memory.fits (m.reg .rsp).toNat 8 = true)
    (hv : m.memory.read (m.reg .rsp).toNat 8 = LittleEndian.encode 8 v.toNat) :
    m.top = .ok v := by
  have hlt : v.toNat < 256 ^ 8 := v.toNat_lt
  simp only [top, loadWord, h, if_true, hv, LittleEndian.decode_encode, Nat.mod_eq_of_lt hlt]
  simp

theorem exec_pop (r : Reg) (v : UInt64) (h : m.top = .ok v) :
    exec p ⟨.pop, [.reg r]⟩ m = (m.drop.setReg r v, none) := by
  simp only [exec, Instr.operand, List.getElem?_cons_zero, h, write_reg]

theorem exec_call (name : Bytes) (a : Int) (h : p.lookup? name = some ⟨.text, a⟩)
    (hs : Memory.fits (m.reg .rsp - 8).toNat 8 = true) :
    exec p ⟨.call, [.target name]⟩ m =
      (((m.withMemory (m.memory.write (m.reg .rsp - 8).toNat
        (LittleEndian.encode 8 (UInt64.ofInt (textBase + m.rip)).toNat))).setReg .rsp
          (m.reg .rsp - 8)).goto a, none) := by
  simp only [exec, Instr.operand, List.getElem?_cons_zero, bind, Except.bind, jumpTarget, h,
    push_of_fits m _ hs]
  rfl

theorem exec_ret (a : Nat) (ha : textBase + a < 2 ^ 64) (hsize : a ≤ p.text.size)
    (h : m.top = .ok (UInt64.ofInt (textBase + a))) :
    exec p ⟨.ret, []⟩ m = (m.drop.goto a, none) := by
  have hv : (UInt64.ofInt (textBase + a : Int)).toNat = textBase + a := by
    rw [UInt64.ofInt, UInt64.toNat_ofNat']
    omega
  have hin : ¬ (textBase + a < textBase ∨ textBase + p.text.size < textBase + a) := by omega
  simp only [exec, h, hv, if_neg hin, Nat.add_sub_cancel_left]
  rfl

end Stack

section Jumps
variable (p : Image) (m : Machine)

theorem exec_jump_taken (c : Cond) (name : Bytes) (a : Int) (hc : c.holds m.flags = true)
    (h : p.lookup? name = some ⟨.text, a⟩) :
    exec p ⟨.jump c, [.target name]⟩ m = (m.goto a, none) := by
  simp only [exec, hc, if_true, Instr.operand, List.getElem?_cons_zero, bind, Except.bind,
    jumpTarget, h]
  rfl

theorem exec_jump_passed (c : Cond) (ops : List Operand) (hc : c.holds m.flags = false) :
    exec p ⟨.jump c, ops⟩ m = (m, none) := by
  simp only [exec, hc, Bool.false_eq_true, if_false]

end Jumps

section Calls
variable (p : Image) (m : Machine)

theorem exec_syscall_write (hn : m.reg .rax = m.syscalls.write) (hfd : m.reg .rdi = 1)
    (h : Memory.fits (m.reg .rsi).toNat (m.reg .rdx).toNat = true) :
    exec p ⟨.syscall, []⟩ m =
      ((m.emit 1 (m.memory.read (m.reg .rsi).toNat (m.reg .rdx).toNat)).setReg .rax
        (m.reg .rdx).toNat.toUInt64, none) := by
  have hr : m.readBytes (m.reg .rsi) (m.reg .rdx).toInt64 =
      .ok (m.memory.read (m.reg .rsi).toNat (m.reg .rdx).toNat) := by
    rw [readBytes, UInt64.toUInt64_toInt64, if_pos h]
  have hw : m.writeCall = ((m.emit 1 (m.memory.read (m.reg .rsi).toNat (m.reg .rdx).toNat)).setReg
      .rax (m.memory.read (m.reg .rsi).toNat (m.reg .rdx).toNat).length.toUInt64, none) := by
    simp only [writeCall, hfd, true_or, if_true, hr]
  rw [Memory.length_read] at hw
  rw [exec, syscall, if_pos hn, hw]

theorem exec_syscall_exit (hw : m.reg .rax ≠ m.syscalls.write) (hx : m.reg .rax = m.syscalls.exit) :
    exec p ⟨.syscall, []⟩ m =
      ({ m with halted := true, exitCode := (m.reg .rdi).toUInt32.toInt32.toInt }, none) := by
  rw [exec, syscall, if_neg hw, if_pos hx]

end Calls

end Machine

end PrintLang
