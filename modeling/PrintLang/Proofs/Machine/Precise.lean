import PrintLang.Proofs.Machine.Limit

/-!
# What a fault leaves behind

An access outside memory and a division without a quotient are raised after the fetch and before
anything else has changed: registers and flags are set only when no later access can fail. There is
one exception, a `pop` into memory, which has taken the number off the stack by the time its store
fails.
-/

set_option autoImplicit false

namespace PrintLang

/-- The faults that a processor raises by itself: a forbidden access, and a quotient that there is
not. -/
def Fault.isRaised : Fault → Bool
  | .segfault _ _ | .divide | .wideDividend => true
  | _ => false

def Instr.popsToMemory : Instr → Bool
  | ⟨.pop, .memory _ _ _ :: _⟩ => true
  | _ => false

theorem operands_of_operand {name : Mnemonic} {ops : List Operand} {op : Operand}
    (h : Instr.operand ⟨name, ops⟩ 0 = .ok op) : ∃ rest, ops = op :: rest := by
  cases ops with
  | nil => cases h
  | cons first rest =>
    cases h
    exact ⟨rest, rfl⟩

theorem eq_missingOperand {i : Instr} {n : Nat} {f : Fault} (h : i.operand n = .error f) :
    f = .missingOperand := by
  unfold Instr.operand at h
  split at h
  · cases h
  · cases h
    rfl

namespace Machine
variable {p : Image} {m u : Machine} {f : Fault}

theorem storeWord_fault {a v : UInt64} {w : Nat} (h : m.storeWord a w v = (u, some f)) : u = m := by
  unfold storeWord at h
  split at h
  · cases h
  · cases h
    rfl

theorem write_fault {op : Operand} {w : Width} {v : UInt64} (h : m.write p op w v = (u, some f)) :
    u = m := by
  unfold write at h
  split at h
  · cases h
  · cases h
    rfl
  · split at h
    · exact storeWord_fault h
    · cases h
      rfl
  · cases h
    rfl

theorem push_fault {v : UInt64} (h : m.push v = (u, some f)) : u = m := by
  unfold push at h
  simp only at h
  split at h
  · cases h
  · cases h
    rfl

theorem div_fault {d : UInt64} (h : m.div d = (u, some f)) : u = m := by
  unfold div at h
  simp only at h
  split at h
  · cases h
    rfl
  · cases h

theorem idiv_fault {d : Int64} (h : m.idiv d = (u, some f)) : u = m := by
  unfold idiv at h
  simp only at h
  split at h
  · cases h
    rfl
  · split at h
    · cases h
      rfl
    · cases h

theorem syscall_fault (h : m.syscall = (u, some f)) : u = m := by
  unfold syscall at h
  simp only at h
  split at h
  · unfold writeCall at h
    simp only at h
    split at h
    · split at h
      · cases h
      · cases h
        rfl
    · cases h
      rfl
  · split at h
    · cases h
    · cases h
      rfl

theorem address_withFlags (flags : Flags) (op : Operand) :
    (m.withFlags flags).address p op = m.address p op := by
  cases m
  rfl

/-- What has been read can be written, with whatever flags: the second access is to the same place. A
place that takes no value is no raised fault. -/
theorem write_of_read {op : Operand} {w : Width} {old : UInt64} (flags : Flags) (v : UInt64)
    (read : m.read p op w = .ok old) (h : (m.withFlags flags).write p op w v = (u, some f)) :
    f.isRaised = false := by
  cases op with
  | register r =>
    cases r with
    | general r rw => cases h
    | rip | unknown _ => cases read
  | immediate _ | address _ =>
    cases h
    rfl
  | memory b d s =>
    obtain ⟨a, place, loaded⟩ := bind_eq_ok.mp read
    have fits : Memory.fits a.toNat w.size = true := by
      unfold loadWord at loaded
      split at loaded
      · assumption
      · cases loaded
    simp only [write, address_withFlags, place, storeWord, fits, if_true] at h
    cases h
  | target _ | bare _ => cases read

theorem memory_of_raised {op : Operand} {w : Width} {v : UInt64} (raised : f.isRaised = true)
    (h : m.write p op w v = (u, some f)) : ∃ b d s, op = .memory b d s := by
  cases op with
  | memory b d s => exact ⟨b, d, s, rfl⟩
  | register r =>
    cases r <;> cases h
    all_goals cases raised
  | immediate _ | address _ | target _ | bare _ =>
    cases h
    cases raised

/-- What a raised fault leaves behind. -/
def atFault (i : Instr) (m : Machine) : Machine :=
  if i.popsToMemory && m.top.isOk then m.drop else m

theorem atFault_of_ne {i : Instr} (h : i.mnemonic ≠ .pop) : atFault i m = m := by
  have pops : i.popsToMemory = false := by
    unfold Instr.popsToMemory
    split
    · exact absurd rfl h
    · rfl
  rw [atFault, pops, Bool.false_and]
  rfl

section Raised
variable {ops : List Operand} (raised : f.isRaised = true)
include raised

/-- The place that is written has been read, so what is raised comes before the flags are set. -/
theorem exec_alu_raised {op : AluOp} (h : exec p ⟨.alu op, ops⟩ m = (u, some f)) : u = m := by
  simp only [exec] at h
  split at h
  · next src place dst reads =>
    obtain ⟨first, -, reads⟩ := bind_eq_ok.mp reads
    obtain ⟨v, -, reads⟩ := bind_eq_ok.mp reads
    obtain ⟨second, -, reads⟩ := bind_eq_ok.mp reads
    obtain ⟨old, read, reads⟩ := bind_eq_ok.mp reads
    cases reads
    split at h
    · rw [write_of_read _ _ read h] at raised
      cases raised
    · cases h
  · cases h
    rfl

theorem exec_unary_raised {op : UnaryOp} (h : exec p ⟨.unary op, ops⟩ m = (u, some f)) : u = m := by
  simp only [exec] at h
  split at h
  · next place v reads =>
    obtain ⟨first, -, reads⟩ := bind_eq_ok.mp reads
    obtain ⟨old, read, reads⟩ := bind_eq_ok.mp reads
    cases reads
    rw [write_of_read _ _ read h] at raised
    cases raised
  · cases h
    rfl

theorem exec_pop_raised (h : exec p ⟨.pop, ops⟩ m = (u, some f)) : u = atFault ⟨.pop, ops⟩ m := by
  simp only [exec] at h
  split at h
  · next v top =>
    split at h
    · next dst place =>
      obtain ⟨rest, rfl⟩ := operands_of_operand place
      obtain ⟨b, d, s, rfl⟩ := memory_of_raised raised h
      rw [atFault, top]
      exact write_fault h
    · next missing =>
      cases h
      rw [eq_missingOperand missing] at raised
      cases raised
  · next top =>
    cases h
    rw [atFault, top]
    exact (if_neg (by simp [Except.isOk, Except.toBool])).symm

/-- Every instruction but one accesses memory before it changes anything. -/
theorem exec_raised_of_ne {i : Instr} (h : exec p i m = (u, some f)) (other : i.mnemonic ≠ .pop) :
    u = m := by
  obtain ⟨mnemonic, operands⟩ := i
  cases mnemonic with
  | nop | cqo => cases h
  | alu op => exact exec_alu_raised raised h
  | unary op => exact exec_unary_raised raised h
  | syscall => exact syscall_fault h
  | pop => exact absurd rfl other
  | move op | lea =>
    simp only [exec] at h
    split at h
    · exact write_fault h
    · cases h
      rfl
  | div =>
    simp only [exec] at h
    split at h
    · exact div_fault h
    · cases h
      rfl
  | idiv =>
    simp only [exec] at h
    split at h
    · exact idiv_fault h
    · cases h
      rfl
  | push =>
    simp only [exec] at h
    split at h
    · exact push_fault h
    · cases h
      rfl
  | call =>
    simp only [exec] at h
    split at h
    · split at h
      · cases h
      · next pushed =>
        cases h
        exact push_fault pushed
    · cases h
      rfl
  | ret =>
    simp only [exec] at h
    split at h
    · split at h
      · cases h
        cases raised
      · cases h
    · cases h
      rfl
  | jump c =>
    simp only [exec] at h
    split at h
    · split at h
      · cases h
      · cases h
        rfl
    · cases h
  | unknown word =>
    cases h
    cases raised

theorem exec_raised {i : Instr} (h : exec p i m = (u, some f)) : u = atFault i m := by
  by_cases pops : i.mnemonic = .pop
  · obtain ⟨mnemonic, operands⟩ := i
    cases pops
    exact exec_pop_raised raised h
  · rw [atFault_of_ne pops, exec_raised_of_ne raised h pops]

end Raised

theorem top_fetched : m.fetched.top = m.top := by
  rw [top, top, reg_fetched, loadWord, loadWord, memory_fetched]

theorem drop_ne : m.drop ≠ m := by
  intro same
  have moved : m.reg .rsp + 8 = m.reg .rsp := by
    rw [← reg_setReg_same m .rsp (m.reg .rsp + 8)]
    exact congrArg (·.reg .rsp) same
  have := congrArg UInt64.toNat moved
  rw [UInt64.toNat_add, show (8 : UInt64).toNat = 8 from rfl] at this
  have := (m.reg .rsp).toNat_lt
  omega

theorem step_raised {line : Int} {i : Instr} (raised : f.isRaised = true)
    (h : step p m = (u, some (.fault line i f))) : u = atFault i m.fetched := by
  unfold step at h
  split at h
  · cases h
  · split at h
    · cases h
    · split at h
      · cases h
      · split at h
        · cases h
        · next executed =>
          cases h
          exact exec_raised raised executed

/-- A raised fault leaves the machine as it was, but for the count of instructions and the place in the
text, unless it is that of the store of a `pop`: then the number is off the stack, and that is the only
other change. This is so for every text, whoever wrote it, and in every state. -/
theorem raised_fault_precise_iff {line : Int} {i : Instr}
    (h : step p m = (u, some (.fault line i f))) (raised : f.isRaised = true) :
    (u = m.fetched ↔ ¬ (i.popsToMemory = true ∧ ∃ v, m.top = .ok v)) ∧
      (u = m.fetched ∨ u = m.fetched.drop) := by
  obtain rfl := step_raised raised h
  have top : m.fetched.top.isOk = true ↔ ∃ v, m.top = .ok v := by
    rw [top_fetched]
    cases m.top <;> simp [Except.isOk, Except.toBool]
  rw [← top, ← Bool.and_eq_true, atFault]
  split
  · next stored => exact ⟨iff_of_false drop_ne (not_not.mpr stored), .inr rfl⟩
  · next kept => exact ⟨iff_of_true rfl kept, .inl rfl⟩

def unmappedListing : Bytes := bytes "f: pop (%rax)\n add %rbx, (%rax)"

def unmappedImage : Image where
  text := #[⟨1, .pop, [.based .rax 0]⟩, ⟨2, .alu .add, [.reg .rbx, .based .rax 0]⟩]
  runs := []
  labels := [(bytes "f", ⟨.text, 0⟩)]
  globals := []

def oneOnStack : Machine := idleMachine.setReg .rsp 0xffff8

theorem unmapped_add_precise :
    ∃ u, u = (oneOnStack.goto 1).fetched ∧ step unmappedImage (oneOnStack.goto 1) =
      (u, some (.fault 2 ⟨.alu .add, [.reg .rbx, .based .rax 0]⟩ (.segfault 8 0))) := by
  have faults : step unmappedImage (oneOnStack.goto 1) = (_, some (.fault 2
      ⟨.alu .add, [.reg .rbx, .based .rax 0]⟩ (.segfault 8 0))) := rfl
  refine ⟨_, (raised_fault_precise_iff faults rfl).1.mpr ?_, faults⟩
  rintro ⟨pops, -⟩
  cases pops

/-- The store of a `pop` fails, and yet the stack pointer has moved. -/
theorem unmapped_pop_moves_stack : assemble unmappedListing = .ok unmappedImage ∧
    ∃ u, step unmappedImage oneOnStack =
        (u, some (.fault 1 ⟨.pop, [.based .rax 0]⟩ (.segfault 8 0))) ∧
      u.reg .rsp ≠ oneOnStack.reg .rsp := by
  refine ⟨by decide +kernel, oneOnStack.fetched.drop, rfl, ?_⟩
  decide

end Machine

end PrintLang
