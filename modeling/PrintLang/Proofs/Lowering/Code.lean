import PrintLang.Proofs.Lowering.Value
import PrintLang.Proofs.Machine.Runs
import PrintLang.Proofs.Machine.Word

/-!
# Running the code of an expression

`Lowers code depth v?` says what the code does wherever it stands: it leaves the value in `%rax`, or
stops with a divide error when there is no value. The stack below the stack pointer is used `depth`
words deep, everything above stays. Codes that lower two operands are joined to one that lowers both.
-/

set_option autoImplicit false

namespace PrintLang

namespace Machine

/-- The code of `n` instructions at `a` has put `v` into `%rax`, with at most `depth` words of the
stack in use meanwhile. -/
structure Computed (p : Image) (m : Machine) (a n depth : Nat) (v : Int64) (u : Machine) : Prop where
  runs : Reaches p m n u
  rip : u.rip = (a + n : Nat)
  same : SameOutput m u
  keeps : Keeps [.rax, .rdi, .rdx] m u
  rax : u.reg .rax = v.toUInt64
  memory : ∀ c, c + 8 * depth < (m.reg .rsp).toNat ∨ (m.reg .rsp).toNat ≤ c →
    u.memory.get c = m.memory.get c

/-- Less than `n` instructions lead to one that stops the machine with the fault. -/
def StopsWithin (p : Image) (m : Machine) (n : Nat) (f : Fault) : Prop :=
  ∃ k u w line i, k < n ∧ Reaches p m k u ∧ u.halted = false ∧
    step p u = (w, some (.fault line i f)) ∧ SameOutput m w

namespace StopsWithin
variable {p : Image} {m u : Machine} {n k : Nat} {f : Fault}

theorem mono (h : StopsWithin p m n f) (hn : n ≤ k) : StopsWithin p m k f := by
  obtain ⟨j, u, w, line, i, hj, h⟩ := h
  exact ⟨j, u, w, line, i, by omega, h⟩

theorem after (h : StopsWithin p u n f) (first : Reaches p m k u) (same : SameOutput m u) :
    StopsWithin p m (k + n) f := by
  obtain ⟨j, v, w, line, i, hj, runs, live, stop, same'⟩ := h
  exact ⟨k + j, v, w, line, i, by omega, first.trans runs, live, stop, same.trans same'⟩

theorem single {a : Nat} {i : Instr} {is : List Instr} (code : p.Holds a (i :: is))
    (hrip : m.rip = a) (live : m.halted = false) (room : m.Room 1) (straight : i.straight = true)
    (h : (exec p i m.fetched).2 = some f) : StopsWithin p m 1 f := by
  obtain ⟨c, hc, rfl⟩ := code.head
  have same := exec_sameWorld p c.instr m.fetched straight
  refine ⟨0, m, (exec p c.instr m.fetched).1, c.line, c.instr, by omega, .refl m, live, ?_,
    ⟨same.halted, same.exitCode, same.out, same.errout⟩⟩
  rw [step_of_exec hc hrip live room, h]
  rfl

end StopsWithin

end Machine

namespace Lowering
open Machine

def Outcome (p : Image) (m : Machine) (a n depth : Nat) : Option Int64 → Prop
  | some v => ∃ u, Computed p m a n depth v u
  | none => StopsWithin p m n .divide

/-- Wherever the code stands, and from whatever state, it computes the value. -/
def Lowers (code : List Instr) (depth : Nat) (v? : Option Int64) : Prop :=
  ∀ (p : Image) (m : Machine) (a s : Nat), p.Holds a code → m.rip = a → m.halted = false →
    m.Room code.length → (m.reg .rsp).toNat = s → dataBase + 8 * depth ≤ s → s ≤ memSize →
    Outcome p m a code.length depth v?

/-- The code makes a value from the one in `%rdi` and the one in `%rax`. -/
def Combines (code : List Instr) (f : Int64 → Int64 → Option Int64) : Prop :=
  ∀ (p : Image) (m : Machine) (a : Nat) (x y : Int64), p.Holds a code → m.rip = a →
    m.halted = false → m.Room code.length → m.reg .rdi = x.toUInt64 → m.reg .rax = y.toUInt64 →
    Outcome p m a code.length 0 (f x y)

theorem combines_add : Combines [⟨.alu .add, [.reg .rdi, .reg .rax]⟩]
    fun x y => BinaryOp.add.value? x y := by
  intro p m a x y code hrip live room hx hy
  rcases hr : execAll p [⟨.alu .add, [.reg .rdi, .reg .rax]⟩] m with ⟨u, o⟩
  have hu := hr
  simp only [execAll_cons, execAll_nil, andThen_none, exec_add, Prod.mk.injEq] at hu
  obtain ⟨rfl, rfl⟩ := hu
  obtain ⟨runs, rip, same, keeps⟩ := Reaches.block code (by decide) hrip live room hr
  refine ⟨_, runs, rip, same, keeps.mono (by decide), ?_, fun c _ => by simp⟩
  rw [reg_setReg, if_pos rfl, reg_fetched, reg_fetched, hx, hy, Int64.ofInt_add, Int64.ofInt_toInt,
    Int64.ofInt_toInt, Int64.toUInt64_add, UInt64.add_comm]

theorem combines_mul : Combines [⟨.alu .imul, [.reg .rdi, .reg .rax]⟩]
    fun x y => BinaryOp.mul.value? x y := by
  intro p m a x y code hrip live room hx hy
  rcases hr : execAll p [⟨.alu .imul, [.reg .rdi, .reg .rax]⟩] m with ⟨u, o⟩
  have hu := hr
  simp only [execAll_cons, execAll_nil, andThen_none, exec_imul, Prod.mk.injEq] at hu
  obtain ⟨rfl, rfl⟩ := hu
  obtain ⟨runs, rip, same, keeps⟩ := Reaches.block code (by decide) hrip live room hr
  refine ⟨_, runs, rip, same, keeps.mono (by decide), ?_, fun c _ => by simp⟩
  rw [reg_setReg, if_pos rfl, reg_fetched, reg_fetched, hx, hy, Int64.ofInt_mul, Int64.ofInt_toInt,
    Int64.ofInt_toInt, Int64.toInt64_toUInt64, Int64.toInt64_toUInt64, Int64.mul_comm]

theorem combines_sub : Combines [⟨.alu .sub, [.reg .rdi, .reg .rax]⟩]
    fun x y => BinaryOp.sub.value? y x := by
  intro p m a x y code hrip live room hx hy
  rcases hr : execAll p [⟨.alu .sub, [.reg .rdi, .reg .rax]⟩] m with ⟨u, o⟩
  have hu := hr
  simp only [execAll_cons, execAll_nil, andThen_none, exec_sub, Prod.mk.injEq] at hu
  obtain ⟨rfl, rfl⟩ := hu
  obtain ⟨runs, rip, same, keeps⟩ := Reaches.block code (by decide) hrip live room hr
  refine ⟨_, runs, rip, same, keeps.mono (by decide), ?_, fun c _ => by simp⟩
  rw [reg_setReg, if_pos rfl, reg_fetched, reg_fetched, hx, hy, Int64.ofInt_sub, Int64.ofInt_toInt,
    Int64.ofInt_toInt, Int64.toUInt64_sub]

theorem ofInt_tdiv (a b : Int64) : Int64.ofInt (a.toInt.tdiv b.toInt) = a / b := by
  rw [Int64.ofInt_eq_iff_bmod_eq_toInt, Int64.toInt_div]

theorem combines_div : Combines [⟨.cqo, []⟩, ⟨.idiv, [.reg .rdi]⟩]
    fun x y => BinaryOp.div.value? y x := by
  intro p m a x y code hrip live room hx hy
  have first : Reaches p m 1 _ := .single code hrip live (room.mono (by decide)) (exec_cqo p m.fetched)
  rw [reg_fetched, hy, Int64.toInt64_toUInt64] at first
  generalize hu : m.fetched.setReg .rdx (y >>> 63).toUInt64 = u at first
  have urip : u.rip = (a + 1 : Nat) := by
    rw [← hu]
    change m.rip + 1 = _
    rw [hrip]
    rfl
  have same : SameOutput m u := by
    rw [← hu]
    exact ⟨rfl, rfl, rfl, rfl⟩
  have rdx : u.reg .rdx = (y >>> 63).toUInt64 := by rw [← hu, reg_setReg, if_pos rfl]
  have regs (r : Reg) (hr : Reg.rdx ≠ r) : u.reg r = m.reg r := by
    rw [← hu, reg_setReg, if_neg hr, reg_fetched]
  have mem : u.memory = m.memory := by rw [← hu, memory_setReg, memory_fetched]
  have room' : u.Room 1 := first.room room
  have divides : exec p ⟨.idiv, [.reg .rdi]⟩ u.fetched =
      if x = 0 ∨ (y = Int64.minValue ∧ x = -1) then (u.fetched, some .divide)
      else ((u.fetched.setReg .rax (y / x).toUInt64).setReg .rdx (y % x).toUInt64, none) := by
    simp only [exec_idiv, idiv, reg_fetched, regs .rdi (by decide), regs .rax (by decide), rdx, hx,
      hy, Int64.toInt64_toUInt64, ne_eq, not_true_eq_false, if_false]
  simp only [BinaryOp.value?]
  by_cases undef : x = 0 ∨ (y = Int64.minValue ∧ x = -1)
  · rw [if_pos undef] at divides ⊢
    have stop := StopsWithin.single code.tail urip (same.halted.trans live) room' rfl
      (congrArg Prod.snd divides)
    exact stop.after first same
  · rw [if_neg undef] at divides ⊢
    have second : Reaches p u 1 _ := .single code.tail urip (same.halted.trans live) room' divides
    refine ⟨_, first.trans second, ?_, same.trans ⟨rfl, rfl, rfl, rfl⟩, ?_, ?_, ?_⟩
    · change u.rip + 1 = _
      rw [urip]
      rfl
    · intro r hr
      simp only [List.mem_cons, List.not_mem_nil, or_false, not_or] at hr
      rw [reg_setReg, if_neg (Ne.symm hr.2.2), reg_setReg, if_neg (Ne.symm hr.1), reg_fetched,
        regs r (Ne.symm hr.2.2)]
    · rw [reg_setReg, if_neg (by decide), reg_setReg, if_pos rfl, ofInt_tdiv]
    · intro c _
      rw [memory_setReg, memory_setReg, memory_fetched, mem]

theorem push_rax {p : Image} {m : Machine} {a s : Nat} {is : List Instr}
    (code : p.Holds a (⟨.push, [.reg .rax]⟩ :: is)) (hrip : m.rip = a) (live : m.halted = false)
    (room : m.Room 1) (hs : (m.reg .rsp).toNat = s) (low : dataBase + 8 ≤ s) (high : s ≤ memSize) :
    ∃ u, Reaches p m 1 u ∧ u.rip = (a + 1 : Nat) ∧ SameOutput m u ∧ Keeps [.rsp] m u ∧
      u.reg .rsp = m.reg .rsp - 8 ∧ (u.reg .rsp).toNat = s - 8 ∧
      u.memory = m.memory.write (s - 8) (LittleEndian.encode 8 (m.reg .rax).toNat) := by
  have h8 : (m.reg .rsp - 8).toNat = s - 8 := Word.toNat_sub hs 8 (by omega)
  have fits : Memory.fits (m.fetched.reg .rsp - 8).toNat 8 = true := by
    rw [reg_fetched, h8]
    exact Memory.fits_of_le (by omega) (by omega)
  have pushed := exec_push p m.fetched .rax
  rw [push_of_fits _ _ fits, memory_fetched, reg_fetched, reg_fetched, h8] at pushed
  refine ⟨_, .single code hrip live room pushed, ?_, ⟨rfl, rfl, rfl, rfl⟩, ?_, ?_, ?_, ?_⟩
  · change m.rip + 1 = _
    rw [hrip]
    rfl
  · intro r hr
    have hne : Reg.rsp ≠ r := fun he => hr (by simp [he])
    rw [reg_setReg, if_neg hne, reg_withMemory, reg_fetched]
  · rw [reg_setReg, if_pos rfl]
  · rw [reg_setReg, if_pos rfl, h8]
  · rw [memory_setReg, memory_withMemory]

theorem pop_rdi {p : Image} {m : Machine} {a s : Nat} {is : List Instr} {x : UInt64}
    (code : p.Holds a (⟨.pop, [.reg .rdi]⟩ :: is)) (hrip : m.rip = a) (live : m.halted = false)
    (room : m.Room 1) (hs : (m.reg .rsp).toNat = s) (low : dataBase ≤ s) (high : s + 8 ≤ memSize)
    (hx : m.memory.read s 8 = LittleEndian.encode 8 x.toNat) :
    ∃ u, Reaches p m 1 u ∧ u.rip = (a + 1 : Nat) ∧ SameOutput m u ∧ Keeps [.rsp, .rdi] m u ∧
      u.reg .rsp = m.reg .rsp + 8 ∧ u.reg .rdi = x ∧ u.memory = m.memory := by
  have top : m.fetched.top = .ok x := by
    apply top_of_read
    · rw [reg_fetched, hs]
      exact Memory.fits_of_le low high
    · rw [reg_fetched, memory_fetched, hs, hx]
  have popped := exec_pop p m.fetched .rdi x top
  refine ⟨_, .single code hrip live room popped, ?_, ⟨rfl, rfl, rfl, rfl⟩, ?_, ?_, ?_, ?_⟩
  · change m.rip + 1 = _
    rw [hrip]
    rfl
  · intro r hr
    simp only [List.mem_cons, List.not_mem_nil, or_false, not_or] at hr
    rw [reg_setReg, if_neg (Ne.symm hr.2), drop, reg_setReg, if_neg (Ne.symm hr.1), reg_fetched]
  · rw [reg_setReg, if_neg (by decide), drop, reg_setReg, if_pos rfl, reg_fetched]
  · rw [reg_setReg, if_pos rfl]
  · rw [memory_setReg, drop, memory_setReg, memory_fetched]

/-- Two operands and what combines them. The first one waits on the stack for the second. -/
theorem Lowers.pair {first second last : List Instr} {d e : Nat} {x? y? : Option Int64}
    {f : Int64 → Int64 → Option Int64} (hx : Lowers first d x?) (hy : Lowers second e y?)
    (hf : Combines last f) :
    Lowers (Expr.pair first second ++ last) (max d (1 + e))
      (x?.bind fun x => y?.bind fun y => f x y) := by
  intro p m a s code hrip live room hs low high
  have size : (Expr.pair first second ++ last).length =
      first.length + (1 + (second.length + (1 + last.length))) := by
    simp only [Expr.pair, List.length_append, List.length_singleton]
    omega
  simp only [Expr.pair, List.append_assoc, List.singleton_append] at code
  rw [size] at room ⊢
  have firstRuns := hx p m a s code.left hrip live (room.mono (by omega)) hs (by omega) high
  cases x? with
  | none => exact firstRuns.mono (by omega)
  | some x =>
    obtain ⟨u, hu⟩ := firstRuns
    have ursp : (u.reg .rsp).toNat = s := by rw [hu.keeps .rsp (by decide), hs]
    obtain ⟨w, pushed, wrip, wsame, wkeeps, wrsp, wrsp', wmem⟩ :=
      push_rax code.right hu.rip (hu.same.halted.trans live) (hu.runs.room (room.mono (by omega)))
        ursp (by omega) high
    have run2 := hu.runs.trans pushed
    have same2 := hu.same.trans wsame
    have secondRuns := hy p w (a + first.length + 1) (s - 8) code.right.tail.left wrip
      (same2.halted.trans live) (run2.room (room.mono (by omega))) wrsp' (by omega) (by omega)
    cases y? with
    | none => exact (secondRuns.after run2 same2).mono (by omega)
    | some y =>
      obtain ⟨v, hv⟩ := secondRuns
      have vrsp : (v.reg .rsp).toNat = s - 8 := by rw [hv.keeps .rsp (by decide), wrsp']
      -- the word on the stack is above everything that the second operand used
      have kept : v.memory.read (s - 8) 8 = LittleEndian.encode 8 (u.reg .rax).toNat := by
        rw [Memory.read_congr (m := w.memory) fun c hc _ => hv.memory c (by omega), wmem]
        have hl := LittleEndian.length_encode 8 (u.reg .rax).toNat
        have hr := Memory.read_write_same u.memory (s - 8)
          (LittleEndian.encode 8 (u.reg .rax).toNat) (by omega)
        rwa [hl] at hr
      have run3 := run2.trans hv.runs
      have same3 := same2.trans hv.same
      obtain ⟨z, popped, zrip, zsame, zkeeps, zrsp, zrdi, zmem⟩ :=
        pop_rdi code.right.tail.right hv.rip (same3.halted.trans live)
          (run3.room (room.mono (by omega))) vrsp (by omega) (by omega) kept
      have run4 := run3.trans popped
      have same4 := same3.trans zsame
      have lastRuns := hf p z _ x y code.right.tail.right.tail zrip (same4.halted.trans live)
        (run4.room (room.mono (by omega))) (by rw [zrdi, hu.rax])
        (by rw [zkeeps .rax (by decide), hv.rax])
      simp only [Option.bind_some]
      cases hv? : f x y with
      | none =>
        rw [hv?] at lastRuns
        exact (lastRuns.after run4 same4).mono (by omega)
      | some r =>
        rw [hv?] at lastRuns
        obtain ⟨t, ht⟩ := lastRuns
        refine ⟨t, ?_, ?_, same4.trans ht.same, ?_, ht.rax, ?_⟩
        · have whole := run4.trans ht.runs
          rwa [show first.length + 1 + second.length + 1 + last.length =
            first.length + (1 + (second.length + (1 + last.length))) by omega] at whole
        · rw [ht.rip]
          omega
        · intro q hq
          by_cases hsp : q = .rsp
          · subst hsp
            rw [ht.keeps .rsp hq, zrsp, hv.keeps .rsp hq, wrsp, hu.keeps .rsp hq]
            grind
          · simp only [List.mem_cons, List.not_mem_nil, or_false, not_or] at hq
            rw [ht.keeps q (by simp [hq]), zkeeps q (by simp [hq, hsp]), hv.keeps q (by simp [hq]),
              wkeeps q (by simp [hsp]), hu.keeps q (by simp [hq])]
        · intro c hc
          have zrsp' : (z.reg .rsp).toNat = s := by
            rw [zrsp, UInt64.toNat_add, vrsp, show (8 : UInt64).toNat = 8 from rfl]
            have : memSize < 2 ^ 64 := by decide
            omega
          rw [ht.memory c (by omega), zmem, hv.memory c (by omega), wmem]
          refine (Memory.get_write_outside _ _ _ ?_).trans (hu.memory c (by omega))
          rw [LittleEndian.length_encode]
          omega

theorem lowers_load (v : Int64) : Lowers [Expr.load v] 0 (some v) := by
  intro p m a s code hrip live room hs low high
  have load (u : Machine) : exec p (Expr.load v) u = (u.setReg .rax v.toUInt64, none) := by
    unfold Expr.load
    split <;> exact exec_mov_immediate p u _ v .rax
  refine ⟨_, .single code hrip live room (load m.fetched), ?_, ⟨rfl, rfl, rfl, rfl⟩, ?_, ?_, ?_⟩
  · change m.rip + 1 = _
    rw [hrip]
    rfl
  · exact Keeps.setReg (fun r _ => reg_fetched m r) (by simp) _
  · rw [reg_setReg, if_pos rfl]
  · intro c _
    rw [memory_setReg, memory_fetched]

/-- The code of an expression computes its value. -/
theorem lowers_code {e : Expr} (h : e.Arithmetic) : Lowers e.code e.pending e.value? := by
  induction e with
  | int node v => exact lowers_load v
  | binary node op l r ihl ihr =>
    obtain ⟨hop, -, hl, hr⟩ := h
    -- For a difference and a quotient the right operand runs first, which makes no other value.
    have swap (f : Int64 → Int64 → Option Int64) :
        (l.value?.bind fun a => r.value?.bind fun b => f a b) =
          r.value?.bind fun b => l.value?.bind fun a => f a b := by
      cases l.value? <;> cases r.value? <;> rfl
    cases op with
    | add => exact (ihl hl).pair (ihr hr) combines_add
    | mul => exact (ihl hl).pair (ihr hr) combines_mul
    | sub =>
      rw [Expr.value?, swap]
      exact (ihr hr).pair (ihl hl) combines_sub
    | div =>
      rw [Expr.value?, swap]
      exact (ihr hr).pair (ihl hl) combines_div
    | mod | less | lessEq | greater | greaterEq | eq | notEq | other _ => cases hop
  | other node kind => cases h

end Lowering

end PrintLang
