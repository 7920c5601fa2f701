import PrintLang.Lowering
import PrintLang.Proofs.Bytes.Decimal
import PrintLang.Proofs.Machine.Runs
import PrintLang.Proofs.Machine.Word

set_option autoImplicit false

namespace PrintLang

/-- The image has the routine from instruction `b` on, under its three labels. -/
structure Image.PrintsAt (p : Image) (t : Target) (b : Nat) : Prop where
  code : p.Holds b (Lowering.printIntHead ++ (Lowering.printIntLoop ++ Lowering.printIntTail t))
  start : p.lookup? printInt = some ⟨.text, b⟩
  digits : p.lookup? printIntDigits = some ⟨.text, (b + 12 : Nat)⟩
  write : p.lookup? printIntWrite = some ⟨.text, (b + 23 : Nat)⟩

theorem Image.Holds.slice {p : Image} {a : Nat} {is : List Instr} (h : p.Holds a is) (k n : Nat) :
    p.Holds (a + k) ((is.drop k).take n) := by
  intro j i hj
  have hlt : j < n := by
    have := (List.getElem?_eq_some_iff.mp hj).choose
    simp only [List.length_take] at this
    omega
  rw [List.getElem?_take_of_lt hlt, List.getElem?_drop] at hj
  have hi := h (k + j) i hj
  rwa [show a + (k + j) = a + k + j by omega] at hi

theorem length_decimalNat_natAbs_le (v : Int64) : (decimalNat v.toInt.natAbs).length ≤ 19 := by
  apply length_decimalNat_le (by decide)
  have := Word.natAbs_le v
  omega

/-- The instructions that one call of the routine takes, the call included. -/
def printIntSteps (v : Int) : Nat := 21 + 7 * (decimalNat v.natAbs).length + 4 * (minus v).length

namespace Machine
open Lowering

section Routine
variable {p : Image} {t : Target} {b : Nat} {m : Machine} {s : Nat}

theorem printInt_setup (lib : p.PrintsAt t b) (hrip : m.rip = b) (live : m.halted = false)
    (room : m.Room 9) (hs : (m.reg .rsp).toNat = s) (low : dataBase + 9 ≤ s) (high : s ≤ memSize) :
    ∃ u, Reaches p m 9 u ∧ u.rip = (b + 9 : Nat) ∧ SameOutput m u ∧
      Keeps [.rbp, .rsp, .rax, .rsi, .rcx, .r8] m u ∧
      u.reg .rbp = m.reg .rsp - 8 ∧ u.reg .rsi = m.reg .rsp - 9 ∧ u.reg .rax = m.reg .rdi ∧
      u.reg .rcx = 10 ∧ u.reg .r8 = 0 ∧
      u.memory = m.memory.write (s - 9) (10 :: LittleEndian.encode 8 (m.reg .rbp).toNat) ∧
      u.flags.sign = decide ((m.reg .rdi).toInt64 < 0) := by
  have code : p.Holds (b + 0) (printIntHead.take 9) := lib.code.slice 0 9
  have h8 : (m.reg .rsp - 8).toNat = s - 8 := Word.toNat_sub hs 8 (by omega)
  have below : m.reg .rsp - 8 + (-1 : Int64).toUInt64 = m.reg .rsp - 9 := by
    rw [show (-1 : Int64).toUInt64 = -1 from rfl]
    grind
  have h9 : (m.reg .rsp - 9).toNat = s - 9 := Word.toNat_sub hs 9 (by omega)
  have f8 : Memory.fits (m.reg .rsp - 8).toNat 8 = true := Memory.fits_of_le (by omega) (by omega)
  have f9 : Memory.fits (m.reg .rsp - 9).toNat 1 = true := Memory.fits_of_le (by omega) (by omega)
  rcases hx : execAll p (printIntHead.take 9) m with ⟨u, o⟩
  have hu := hx
  simp only [printIntHead, List.take, execAll_cons, execAll_nil, andThen_none, reg_fetched,
    reg_setReg, reg_withMemory, reg_withFlags, exec_push, push_of_fits, exec_mov,
    exec_sub_immediate, exec_lea, exec_movb_immediate, exec_mov_immediate, exec_xor_self,
    exec_test_self, if_true, if_false, reduceCtorEq, below, f8, f9, Prod.mk.injEq] at hu
  obtain ⟨rfl, rfl⟩ := hu
  obtain ⟨runs, rip, same, keeps⟩ := Reaches.block code (by decide) (by simpa using hrip) live room hx
  refine ⟨_, runs, rip, same, keeps.mono (by decide), ?_⟩
  simp only [reg_fetched, reg_setReg, reg_withMemory, reg_withFlags, memory_fetched, memory_setReg,
    memory_withMemory, memory_withFlags, flags_withFlags, if_true, if_false, reduceCtorEq,
    true_and, and_true, h8, h9]
  refine ⟨rfl, ?_⟩
  have hw := Memory.write_write m.memory (s - 9) [10] (LittleEndian.encode 8 (m.reg .rbp).toNat)
  rwa [List.length_singleton, show s - 9 + 1 = s - 8 by omega] at hw

theorem printInt_sign (lib : p.PrintsAt t b) (hrip : m.rip = (b + 9 : Nat))
    (live : m.halted = false) (v : Int64) (hv : m.reg .rax = v.toUInt64) (h8 : m.reg .r8 = 0)
    (hsign : m.flags.sign = decide (v < 0)) (room : m.Room (1 + 2 * (minus v.toInt).length)) :
    ∃ u, Reaches p m (1 + 2 * (minus v.toInt).length) u ∧ u.rip = (b + 12 : Nat) ∧ SameOutput m u ∧
      Keeps [.rax, .r8] m u ∧ (u.reg .rax).toNat = v.toInt.natAbs ∧
      u.reg .r8 = UInt64.ofNat (minus v.toInt).length ∧ u.memory = m.memory := by
  have jump : p.Holds (b + 9) [⟨.jump .ns, [.target printIntDigits]⟩] := lib.code.slice 9 1
  by_cases neg : v < 0
  · rw [minus_of_neg (Int64.lt_iff_toInt_lt.mp neg)] at room ⊢
    rw [decide_eq_true neg] at hsign
    have passed : Cond.holds m.fetched.flags .ns = false := by
      rw [flags_fetched, Cond.holds, hsign]
      rfl
    have first : Reaches p m 1 m.fetched := .single jump hrip live (room.mono (by omega))
      (exec_jump_passed p m.fetched .ns _ passed)
    have code : p.Holds (b + 10) [⟨.move .mov, [.immediate 1, .reg .r8]⟩,
      ⟨.unary .neg, [.reg .rax]⟩] := lib.code.slice 10 2
    rcases hx : execAll p [⟨.move .mov, [.immediate 1, .reg .r8]⟩, ⟨.unary .neg, [.reg .rax]⟩]
      m.fetched with ⟨u, o⟩
    have hu := hx
    simp only [execAll_cons, execAll_nil, andThen_none, reg_fetched, reg_setReg, exec_neg,
      exec_mov_immediate, if_false, reduceCtorEq, Prod.mk.injEq] at hu
    obtain ⟨rfl, rfl⟩ := hu
    have hrip' : m.fetched.rip = (b + 10 : Nat) := by
      rw [fetched, hrip]
      rfl
    obtain ⟨runs, rip, same, keeps⟩ := Reaches.block code (by decide) hrip' live
      (first.room (k := 2) room) hx
    refine ⟨_, first.trans runs, rip, ⟨same.halted, same.exitCode, same.out, same.errout⟩,
      ?_, ?_, ?_, ?_⟩
    · intro r hr
      exact (keeps.mono (by decide) r hr).trans (reg_fetched m r)
    · simp only [reg_setReg, if_true, hv]
      exact Word.toNat_zero_sub neg
    · simp
      rfl
    · simp
  · rw [minus_of_nonneg fun h => neg (Int64.lt_iff_toInt_lt.mpr h)] at room ⊢
    rw [decide_eq_false neg] at hsign
    have taken : Cond.holds m.fetched.flags .ns = true := by
      rw [flags_fetched, Cond.holds, hsign]
      rfl
    refine ⟨m.fetched.goto (b + 12 : Nat), .single jump hrip live room
      (exec_jump_taken p m.fetched .ns _ _ taken lib.digits), rfl, ⟨rfl, rfl, rfl, rfl⟩, ?_, ?_, ?_, ?_⟩
    · intro r _
      simp
    · simp only [reg_goto, reg_fetched, hv]
      exact Word.toNat_of_nonneg neg
    · simp [h8]
    · simp

/-- One round puts the last digit in front of the text and leaves the other digits. -/
theorem printInt_round (lib : p.PrintsAt t b) (hrip : m.rip = (b + 12 : Nat))
    (live : m.halted = false) (room : m.Room 6) {n : Nat} (hn : (m.reg .rax).toNat = n)
    (hten : m.reg .rcx = 10) (hs : (m.reg .rsi).toNat = s) (low : dataBase + 1 ≤ s)
    (high : s ≤ memSize) :
    ∃ u, Reaches p m 6 u ∧ u.rip = (b + 18 : Nat) ∧ SameOutput m u ∧ Keeps [.rax, .rdx, .rsi] m u ∧
      (u.reg .rax).toNat = n / 10 ∧ (u.reg .rsi).toNat = s - 1 ∧
      u.memory = m.memory.write (s - 1) [digitByte (n % 10)] ∧
      u.flags.zero = decide (n / 10 = 0) := by
  have code : p.Holds (b + 12) (printIntLoop.take 6) := lib.code.slice 12 6
  have lt : n < 2 ^ 64 := hn ▸ UInt64.toNat_lt _
  have quot : (n / 10).toUInt64.toNat = n / 10 := by
    rw [Nat.toUInt64_eq, UInt64.toNat_ofNat']
    omega
  have rem : (n % 10).toUInt64.toNat = n % 10 := by
    rw [Nat.toUInt64_eq, UInt64.toNat_ofNat']
    omega
  have small : (n % 10).toUInt64.toNat + (48 : Int64).toUInt64.toNat < 256 := by
    rw [rem, show (48 : Int64).toUInt64.toNat = 48 from rfl]
    omega
  have digit : ((n % 10).toUInt64 + (48 : Int64).toUInt64).toNat = 48 + n % 10 := by
    rw [UInt64.toNat_add, rem, show (48 : Int64).toUInt64.toNat = 48 from rfl]
    omega
  have byte : 48 + n % 10 < 256 := by omega
  have h1 : (m.reg .rsi - 1).toNat = s - 1 := Word.toNat_sub hs 1 (by omega)
  have f1 : Memory.fits (m.reg .rsi - 1).toNat 1 = true := Memory.fits_of_le (by omega) (by omega)
  rcases hx : execAll p (printIntLoop.take 6) m with ⟨u, o⟩
  have hu := hx
  simp only [printIntLoop, List.take, execAll_cons p, andThen_none, reg_fetched, reg_setReg,
    reg_withFlags, exec_xor_self, exec_div, if_false, reduceCtorEq, hten] at hu
  rw [div_of_word _ 10 (by decide) (by simp), andThen_none,
    show (10 : UInt64).toNat = 10 from rfl] at hu
  simp only [execAll_cons, execAll_nil, andThen_none, reg_fetched, reg_setReg, reg_withMemory,
    reg_withFlags, exec_add_byte, exec_dec, exec_movb, exec_test_self, if_true, if_false,
    reduceCtorEq, hn, f1, small, byte, digit, Prod.mk.injEq] at hu
  obtain ⟨rfl, rfl⟩ := hu
  obtain ⟨runs, rip, same, keeps⟩ := Reaches.block code (by decide) hrip live room hx
  refine ⟨_, runs, rip, same, keeps.mono (by decide), ?_, ?_, ?_, ?_⟩
  · simp only [reg_fetched, reg_setReg, reg_withMemory, reg_withFlags, if_true, if_false,
      reduceCtorEq, quot]
  · simp only [reg_fetched, reg_setReg, reg_withMemory, reg_withFlags, if_true, h1]
  · have hd : (48 + n % 10).toUInt8 = digitByte (n % 10) := by
      rw [digitByte, if_pos (by omega)]
    simp only [memory_fetched, memory_setReg, memory_withMemory, memory_withFlags, h1, hd]
  · rw [flags_withFlags, Bool.eq_iff_iff]
    simp only [beq_iff_eq, decide_eq_true_eq, ← UInt64.toNat_inj, quot, UInt64.toNat_zero]

theorem printInt_digits (lib : p.PrintsAt t b) {n : Nat} (hrip : m.rip = (b + 12 : Nat))
    (live : m.halted = false) (room : m.Room (7 * (decimalNat n).length))
    (hn : (m.reg .rax).toNat = n) (hten : m.reg .rcx = 10) (hs : (m.reg .rsi).toNat = s)
    (low : dataBase + (decimalNat n).length ≤ s) (high : s ≤ memSize) :
    ∃ u, Reaches p m (7 * (decimalNat n).length) u ∧ u.rip = (b + 19 : Nat) ∧ SameOutput m u ∧
      Keeps [.rax, .rdx, .rsi] m u ∧ (u.reg .rsi).toNat = s - (decimalNat n).length ∧
      u.memory = m.memory.write (s - (decimalNat n).length) (decimalNat n) := by
  induction n using Nat.strongRecOn generalizing m s with
  | ind n ih =>
    have jump : p.Holds (b + 18) [⟨.jump .nz, [.target printIntDigits]⟩] := lib.code.slice 18 1
    have pos := length_decimalNat_pos n
    obtain ⟨u, runs, rip, same, keeps, rest, ptr, mem, zero⟩ :=
      printInt_round lib hrip live (room.mono (by omega)) hn hten hs (by omega) high
    have live' : u.halted = false := same.halted.trans live
    have room' : u.Room (7 * (decimalNat n).length - 6) :=
      runs.room (room.mono (by omega))
    -- The last test of the round tells whether any digits are left.
    by_cases small : n < 10
    · rw [decimalNat_of_lt small, List.length_singleton]
      have passed : Cond.holds u.fetched.flags .nz = false := by
        rw [flags_fetched, Cond.holds, zero, decide_eq_true (by omega)]
        rfl
      have last : Reaches p u 1 u.fetched := .single jump rip live' (room'.mono (by omega))
        (exec_jump_passed p u.fetched .nz _ passed)
      refine ⟨u.fetched, runs.trans last, ?_, ⟨same.halted, same.exitCode, same.out, same.errout⟩,
        ?_, ?_, ?_⟩
      · rw [fetched, rip]
        rfl
      · intro r hr
        rw [reg_fetched, keeps r hr]
      · rw [reg_fetched, ptr]
      · rw [memory_fetched, mem, Nat.mod_eq_of_lt small]
    · rw [decimalNat_of_le (by omega), List.length_append, List.length_singleton] at low room' ⊢
      have taken : Cond.holds u.fetched.flags .nz = true := by
        rw [flags_fetched, Cond.holds, zero, decide_eq_false (by omega)]
        rfl
      have back : Reaches p u 1 (u.fetched.goto (b + 12 : Nat)) := .single jump rip live'
        (room'.mono (by omega)) (exec_jump_taken p u.fetched .nz _ _ taken lib.digits)
      have again : (u.fetched.goto (b + 12 : Nat)).rip = (b + 12 : Nat) := rfl
      have more : (u.fetched.goto (b + 12 : Nat)).Room (7 * (decimalNat (n / 10)).length) :=
        back.room (room'.mono (by omega))
      obtain ⟨v, runs', rip', same', keeps', ptr', mem'⟩ :=
        ih (n / 10) (by omega) again live' more (by rw [reg_goto, reg_fetched, rest])
          (by rw [reg_goto, reg_fetched, keeps .rcx (by decide), hten])
          (by rw [reg_goto, reg_fetched, ptr]) (by omega) (by omega)
      refine ⟨v, ?_, rip', ?_, ?_, ?_, ?_⟩
      · have all := (runs.trans back).trans runs'
        rwa [show 6 + 1 + 7 * (decimalNat (n / 10)).length =
          7 * ((decimalNat (n / 10)).length + 1) by omega] at all
      · exact same.trans ⟨same'.halted, same'.exitCode, same'.out, same'.errout⟩
      · intro r hr
        rw [keeps' r hr, reg_goto, reg_fetched, keeps r hr]
      · rw [ptr']
        omega
      · have hw := Memory.write_write m.memory (s - 1 - (decimalNat (n / 10)).length)
          (decimalNat (n / 10)) [digitByte (n % 10)]
        rw [show s - 1 - (decimalNat (n / 10)).length + (decimalNat (n / 10)).length = s - 1 by
          omega] at hw
        rw [mem', memory_goto, memory_fetched, mem, hw,
          show s - 1 - (decimalNat (n / 10)).length = s - ((decimalNat (n / 10)).length + 1) by omega]

theorem printInt_minus (lib : p.PrintsAt t b) (hrip : m.rip = (b + 19 : Nat))
    (live : m.halted = false) (v : Int) (h8 : m.reg .r8 = UInt64.ofNat (minus v).length)
    (room : m.Room (2 + 2 * (minus v).length)) (hs : (m.reg .rsi).toNat = s)
    (low : dataBase + 1 ≤ s) (high : s ≤ memSize) :
    ∃ u, Reaches p m (2 + 2 * (minus v).length) u ∧ u.rip = (b + 23 : Nat) ∧ SameOutput m u ∧
      Keeps [.rsi] m u ∧ (u.reg .rsi).toNat = s - (minus v).length ∧
      u.memory = m.memory.write (s - (minus v).length) (minus v) := by
  have test : p.Holds (b + 19) [⟨.alu .test, [.reg .r8, .reg .r8]⟩] := lib.code.slice 19 1
  have jump : p.Holds (b + 20) [⟨.jump .z, [.target printIntWrite]⟩] := lib.code.slice 20 1
  have first : Reaches p m 1 _ := .single test hrip live (room.mono (by omega))
    (exec_test_self p m.fetched .r8)
  have at20 : (m.fetched.withFlags ⟨m.fetched.reg .r8 == 0,
      decide ((m.fetched.reg .r8).toInt64 < 0), false, false⟩).rip = (b + 20 : Nat) := by
    rw [withFlags, fetched, hrip]
    rfl
  generalize hu : m.fetched.withFlags ⟨m.fetched.reg .r8 == 0,
      decide ((m.fetched.reg .r8).toInt64 < 0), false, false⟩ = u at first at20
  have regs (r : Reg) : u.reg r = m.reg r := by rw [← hu, reg_withFlags, reg_fetched]
  have mem : u.memory = m.memory := by rw [← hu, memory_withFlags, memory_fetched]
  have zero : u.flags.zero = (m.reg .r8 == 0) := by rw [← hu, flags_withFlags, reg_fetched]
  have same : SameOutput m u := by
    rw [← hu]
    exact ⟨rfl, rfl, rfl, rfl⟩
  have live' : u.halted = false := same.halted.trans live
  have room' : u.Room (1 + 2 * (minus v).length) := first.room (room.mono (by omega))
  by_cases neg : v < 0
  · rw [minus_of_neg neg] at room room' h8 ⊢
    have passed : Cond.holds u.fetched.flags .z = false := by
      rw [flags_fetched, Cond.holds, zero, h8]
      rfl
    have second : Reaches p u 1 u.fetched := .single jump at20 live' (room'.mono (by decide))
      (exec_jump_passed p u.fetched .z _ passed)
    have code : p.Holds (b + 21) [⟨.unary .dec, [.reg .rsi]⟩,
      ⟨.move .movb, [.immediate 45, .based .rsi 0]⟩] := lib.code.slice 21 2
    have h1 : (m.reg .rsi - 1).toNat = s - 1 := Word.toNat_sub hs 1 (by omega)
    have f1 : Memory.fits (m.reg .rsi - 1).toNat 1 = true := Memory.fits_of_le (by omega) (by omega)
    rcases hx : execAll p [⟨.unary .dec, [.reg .rsi]⟩,
      ⟨.move .movb, [.immediate 45, .based .rsi 0]⟩] u.fetched with ⟨w, o⟩
    have hw := hx
    simp only [execAll_cons, execAll_nil, andThen_none, reg_fetched, reg_setReg, reg_withFlags,
      exec_dec, exec_movb_immediate, if_true, regs, f1, Prod.mk.injEq] at hw
    obtain ⟨rfl, rfl⟩ := hw
    have at21 : u.fetched.rip = (b + 21 : Nat) := by
      rw [fetched, at20]
      rfl
    obtain ⟨runs, rip, same', keeps⟩ := Reaches.block code (by decide) at21 live'
      (second.room (k := 2) room') hx
    refine ⟨_, (first.trans second).trans runs, rip,
      same.trans ⟨same'.halted, same'.exitCode, same'.out, same'.errout⟩, ?_, ?_, ?_⟩
    · intro r hr
      rw [keeps.mono (show ∀ r ∈ _, r ∈ [Reg.rsi] by decide) r hr, reg_fetched, regs]
    · simp only [reg_withMemory, reg_fetched, reg_setReg, if_true, h1, List.length_singleton]
    · simp only [memory_withMemory, memory_fetched, memory_setReg, memory_withFlags, h1, mem,
        List.length_singleton]
      rfl
  · rw [minus_of_nonneg neg] at room' h8 ⊢
    have taken : Cond.holds u.fetched.flags .z = true := by
      rw [flags_fetched, Cond.holds, zero, h8]
      rfl
    refine ⟨u.fetched.goto (b + 23 : Nat), first.trans (.single jump at20 live' room'
      (exec_jump_taken p u.fetched .z _ _ taken lib.write)), rfl,
      same.trans ⟨rfl, rfl, rfl, rfl⟩, ?_, ?_, ?_⟩
    · intro r _
      rw [reg_goto, reg_fetched, regs]
    · rw [reg_goto, reg_fetched, regs, hs, List.length_nil, Nat.sub_zero]
    · rw [memory_goto, memory_fetched, mem, Memory.write]

theorem printInt_emit (lib : p.PrintsAt t b) (hrip : m.rip = (b + 23 : Nat))
    (live : m.halted = false) (room : m.Room 5) (hcall : m.syscalls.write = UInt64.ofInt t.writeNumber)
    {f : Nat} (hf : (m.reg .rbp).toNat = f) (hs : (m.reg .rsi).toNat = s) (low : dataBase ≤ s)
    (order : s ≤ f) (high : f ≤ memSize) :
    ∃ u, WritesOnce p (m.memory.read s (f - s)) m 5 u ∧ u.rip = (b + 28 : Nat) ∧
      Keeps [.rax, .rdx, .rdi] m u ∧ u.memory = m.memory := by
  have code : p.Holds (b + 23) ((printIntTail t).take 4) := lib.code.slice 23 4
  have last : p.Holds (b + 27) [⟨.syscall, []⟩] := lib.code.slice 27 1
  rcases hx : execAll p ((printIntTail t).take 4) m with ⟨u, o⟩
  have hu := hx
  simp only [printIntTail, List.take, execAll_cons, execAll_nil, andThen_none, reg_fetched,
    reg_setReg, exec_mov, exec_sub, exec_mov_immediate, if_true, if_false,
    reduceCtorEq, Word.toUInt64_ofInt, Prod.mk.injEq] at hu
  obtain ⟨rfl, rfl⟩ := hu
  obtain ⟨runs, rip, same, keeps⟩ := Reaches.block code (fun i hi => by
    simp only [printIntTail, List.take, List.mem_cons, List.not_mem_nil, or_false] at hi
    rcases hi with rfl | rfl | rfl | rfl <;> rfl) hrip live (room.mono (by simp [printIntTail])) hx
  have number := runs.setup.2.2
  generalize hw : Machine.setReg _ .rdi _ = w at runs rip same keeps number
  have rdi : w.reg .rdi = 1 := by
    rw [← hw]
    simp only [reg_setReg, if_true]
    rfl
  have rax : w.reg .rax = UInt64.ofInt t.writeNumber := by
    rw [← hw]
    simp only [reg_fetched, reg_setReg, if_true, if_false, reduceCtorEq]
  have rdx : (w.reg .rdx).toNat = f - s := by
    rw [← hw]
    simp only [reg_fetched, reg_setReg, reg_withFlags, if_true, if_false, reduceCtorEq]
    have := (m.reg .rbp).toNat_lt
    rw [UInt64.toNat_sub, hf, hs]
    omega
  have rsi : (w.reg .rsi).toNat = s := by
    rw [← hw]
    simp only [reg_fetched, reg_setReg, reg_withFlags, if_false, reduceCtorEq, hs]
  have mem : w.memory = m.memory := by
    rw [← hw]
    simp only [memory_fetched, memory_setReg, memory_withFlags]
  have fits : Memory.fits (w.fetched.reg .rsi).toNat (w.fetched.reg .rdx).toNat = true := by
    rw [reg_fetched, reg_fetched, rsi, rdx]
    exact Memory.fits_of_le low (by omega)
  have call := exec_syscall_write p w.fetched
    (by rw [reg_fetched, rax, ← hcall, ← number]; rfl) (by rw [reg_fetched, rdi]) fits
  have rip' : w.rip = (b + 27 : Nat) := rip
  have write := Reaches.single last rip' (same.halted.trans live) (runs.room (k := 1) room) call
  refine ⟨_, ⟨4, 0, w, _, rfl, runs, same, write, ?_, .refl _, ⟨rfl, rfl, rfl, rfl⟩⟩, ?_, ?_, ?_⟩
  · rw [memory_fetched, reg_fetched, reg_fetched, rsi, rdx, mem]
    exact ⟨rfl, rfl, Array.toList_appendList, rfl⟩
  · change w.rip + 1 = _
    rw [rip']
    rfl
  · intro r hr
    have hne : Reg.rax ≠ r := fun he => hr (by simp [he])
    rw [reg_setReg, if_neg hne]
    have kept : Keeps [.rdx, .rdx, .rax, .rdi] m w := keeps
    exact kept.mono (by decide) r hr
  · rw [memory_setReg]
    exact mem

theorem printInt_return (lib : p.PrintsAt t b) (hrip : m.rip = (b + 28 : Nat))
    (live : m.halted = false) (room : m.Room 3) {f : Nat} (hf : (m.reg .rbp).toNat = f)
    (low : dataBase ≤ f) (high : f + 16 ≤ memSize) {old : UInt64} {a : Nat}
    (saved : m.memory.read f 16 =
      LittleEndian.encode 8 old.toNat ++ LittleEndian.encode 8 (UInt64.ofInt (textBase + a)).toNat)
    (ha : textBase + a < 2 ^ 64) (size : a ≤ p.text.size) :
    ∃ u, Reaches p m 3 u ∧ u.rip = a ∧ SameOutput m u ∧ Keeps [.rsp, .rbp] m u ∧
      u.reg .rbp = old ∧ u.reg .rsp = m.reg .rbp + 16 ∧ u.memory = m.memory := by
  have split := Memory.read_add m.memory f 8 8
  rw [saved] at split
  obtain ⟨hold, hret⟩ := List.append_inj split (by
    rw [LittleEndian.length_encode, Memory.length_read])
  have h8 : (m.reg .rbp + 8).toNat = f + 8 := by
    rw [UInt64.toNat_add, hf, show (8 : UInt64).toNat = 8 from rfl]
    have : memSize < 2 ^ 64 := by decide
    omega
  have code : p.Holds (b + 28) [⟨.move .mov, [.reg .rbp, .reg .rsp]⟩, ⟨.pop, [.reg .rbp]⟩] :=
    lib.code.slice 28 2
  have last : p.Holds (b + 30) [⟨.ret, []⟩] := lib.code.slice 30 1
  have top : (m.fetched.setReg .rsp (m.reg .rbp)).fetched.top = .ok old := by
    apply top_of_read
    · simp only [reg_fetched, reg_setReg, if_true, hf]
      exact Memory.fits_of_le low (by omega)
    · simp only [reg_fetched, reg_setReg, memory_fetched, memory_setReg, if_true, hf]
      exact hold.symm
  rcases hx : execAll p [⟨.move .mov, [.reg .rbp, .reg .rsp]⟩, ⟨.pop, [.reg .rbp]⟩] m with ⟨u, o⟩
  have hu := hx
  simp only [execAll_cons, execAll_nil, andThen_none, reg_fetched, exec_mov,
    exec_pop p _ .rbp old top, Prod.mk.injEq] at hu
  obtain ⟨rfl, rfl⟩ := hu
  obtain ⟨runs, rip, same, keeps⟩ := Reaches.block code (by decide) hrip live
    (room.mono (by decide)) hx
  generalize hw : Machine.setReg _ .rbp old = w at runs rip same keeps
  have rsp : w.reg .rsp = m.reg .rbp + 8 := by
    rw [← hw]
    simp only [drop, reg_fetched, reg_setReg, if_true, if_false, reduceCtorEq]
  have rbp : w.reg .rbp = old := by
    rw [← hw]
    simp only [reg_setReg, if_true]
  have mem : w.memory = m.memory := by
    rw [← hw]
    simp only [drop, memory_fetched, memory_setReg]
  have top' : w.fetched.top = .ok (UInt64.ofInt (textBase + a)) := by
    apply top_of_read
    · rw [reg_fetched, rsp, h8]
      exact Memory.fits_of_le (by omega) (by omega)
    · rw [reg_fetched, memory_fetched, rsp, h8, mem]
      exact hret.symm
  have ret := exec_ret p w.fetched a ha size top'
  refine ⟨_, runs.trans (.single last rip (same.halted.trans live) (runs.room (k := 1) room) ret),
    rfl, same.trans ⟨rfl, rfl, rfl, rfl⟩, ?_, ?_, ?_, ?_⟩
  · intro r hr
    have hne : Reg.rsp ≠ r := fun he => hr (by simp [he])
    rw [reg_goto, drop, reg_setReg, if_neg hne, reg_fetched]
    exact keeps.mono (by decide) r hr
  · rw [reg_goto, drop, reg_setReg, if_neg (by decide), reg_fetched, rbp]
  · rw [reg_goto, drop, reg_setReg, if_pos rfl, reg_fetched, rsp]
    grind
  · rw [memory_goto, drop, memory_setReg, memory_fetched, mem]

theorem printInt_text (lib : p.PrintsAt t b) (hrip : m.rip = b) (live : m.halted = false)
    (v : Int64) (hv : m.reg .rdi = v.toUInt64)
    (room : m.Room (12 + 7 * (decimalNat v.toInt.natAbs).length + 4 * (minus v.toInt).length))
    (hs : (m.reg .rsp).toNat = s) (low : dataBase + 29 ≤ s) (high : s ≤ memSize) :
    ∃ u, Reaches p m (12 + 7 * (decimalNat v.toInt.natAbs).length + 4 * (minus v.toInt).length) u ∧
      u.rip = (b + 23 : Nat) ∧ SameOutput m u ∧
      Keeps [.rbp, .rsp, .rax, .rcx, .rdx, .rsi, .r8] m u ∧ u.reg .rbp = m.reg .rsp - 8 ∧
      (u.reg .rsi).toNat = s - 9 - (decimal v.toInt).length ∧
      u.memory = m.memory.write (s - 9 - (decimal v.toInt).length)
        (decimal v.toInt ++ 10 :: LittleEndian.encode 8 (m.reg .rbp).toNat) := by
  have digits := length_decimalNat_natAbs_le v
  have sign := length_minus_le v.toInt
  obtain ⟨w, setup, wrip, wsame, wkeeps, wrbp, wrsi, wrax, wrcx, wr8, wmem, wsign⟩ :=
    printInt_setup lib hrip live (room.mono (by omega)) hs (by omega) high
  rw [hv] at wrax wsign
  obtain ⟨x, signed, xrip, xsame, xkeeps, xrax, xr8, xmem⟩ :=
    printInt_sign lib wrip (wsame.halted.trans live) v wrax wr8 wsign
      (setup.room (room.mono (by omega)))
  have xsame' := wsame.trans xsame
  have h9 : (m.reg .rsp - 9).toNat = s - 9 := Word.toNat_sub hs 9 (by omega)
  have xrsi : (x.reg .rsi).toNat = s - 9 := by rw [xkeeps .rsi (by decide), wrsi, h9]
  obtain ⟨y, spelt, yrip, ysame, ykeeps, yrsi, ymem⟩ :=
    printInt_digits lib xrip (xsame'.halted.trans live)
      ((setup.trans signed).room (room.mono (by omega))) xrax
      (by rw [xkeeps .rcx (by decide), wrcx]) xrsi (by omega) (by omega)
  have ysame' := xsame'.trans ysame
  obtain ⟨z, minused, zrip, zsame, zkeeps, zrsi, zmem⟩ :=
    printInt_minus lib yrip (ysame'.halted.trans live) v.toInt
      (by rw [ykeeps .r8 (by decide), xr8])
      (((setup.trans signed).trans spelt).room (room.mono (by omega))) yrsi (by omega) (by omega)
  have whole := ((setup.trans signed).trans spelt).trans minused
  rw [decimal_eq, List.length_append]
  refine ⟨z, ?_, zrip, ysame'.trans zsame, ?_, ?_, ?_, ?_⟩
  · rwa [show 9 + (1 + 2 * (minus v.toInt).length) + 7 * (decimalNat v.toInt.natAbs).length +
      (2 + 2 * (minus v.toInt).length) =
      12 + 7 * (decimalNat v.toInt.natAbs).length + 4 * (minus v.toInt).length by omega] at whole
  · exact (((wkeeps.mono (by decide)).trans (xkeeps.mono (by decide))).trans
      (ykeeps.mono (by decide))).trans (zkeeps.mono (by decide))
  · rw [zkeeps .rbp (by decide), ykeeps .rbp (by decide), xkeeps .rbp (by decide), wrbp]
  · rw [zrsi]
    omega
  -- three writes, each right in front of the one before
  · generalize hn : decimalNat v.toInt.natAbs = ds at *
    generalize hm : minus v.toInt = sg at *
    have h1 := Memory.write_write m.memory (s - 9 - ds.length) ds
      (10 :: LittleEndian.encode 8 (m.reg .rbp).toNat)
    rw [show s - 9 - ds.length + ds.length = s - 9 by omega] at h1
    have h2 := Memory.write_write m.memory (s - 9 - ds.length - sg.length) sg
      (ds ++ 10 :: LittleEndian.encode 8 (m.reg .rbp).toNat)
    rw [show s - 9 - ds.length - sg.length + sg.length = s - 9 - ds.length by omega] at h2
    rw [zmem, ymem, xmem, wmem, h1, h2, List.append_assoc,
      show s - 9 - ds.length - sg.length = s - 9 - (sg.length + ds.length) by omega]

/-- A call of the routine, from the call to the instruction behind it. -/
theorem printInt_call (lib : p.PrintsAt t b) {a : Nat}
    (code : p.Holds a [⟨.call, [.target printInt]⟩]) (hrip : m.rip = a) (live : m.halted = false)
    (v : Int64) (room : m.Room (printIntSteps v.toInt)) (hv : m.reg .rdi = v.toUInt64)
    (hcall : m.syscalls.write = UInt64.ofInt t.writeNumber) (hs : (m.reg .rsp).toNat = s)
    (low : dataBase + 37 ≤ s) (high : s ≤ memSize) (ha : textBase + (a + 1) < 2 ^ 64) :
    ∃ u, WritesOnce p (decimal v.toInt ++ [10]) m (printIntSteps v.toInt) u ∧
      u.rip = (a + 1 : Nat) ∧ Keeps [.rax, .rcx, .rdx, .rsi, .rdi, .r8] m u ∧
      ∀ c, c + 37 < s ∨ s ≤ c → u.memory.get c = m.memory.get c := by
  have digits := length_decimalNat_natAbs_le v
  have sign := length_minus_le v.toInt
  have size : a + 1 ≤ p.text.size := by
    obtain ⟨c, hc, -⟩ := code.head
    exact (Array.getElem?_eq_some_iff.mp hc).choose
  have text : (decimal v.toInt).length ≤ 20 := by
    rw [decimal_eq, List.length_append]
    omega
  unfold printIntSteps at room ⊢
  have h8 : (m.reg .rsp - 8).toNat = s - 8 := Word.toNat_sub hs 8 (by omega)
  have called := exec_call p m.fetched printInt b lib.start (by
    rw [reg_fetched, h8]
    exact Memory.fits_of_le (by omega) (by omega))
  have first := Reaches.single code hrip live (room.mono (by omega)) called
  have ret : m.fetched.rip = (a + 1 : Nat) := by
    rw [fetched, hrip]
    rfl
  rw [memory_fetched, reg_fetched, ret, h8] at first
  generalize hu : Machine.goto _ (b : Int) = u at first
  have urip : u.rip = b := by
    rw [← hu]
    rfl
  have uregs (r : Reg) (hr : Reg.rsp ≠ r) : u.reg r = m.reg r := by
    rw [← hu, reg_goto, reg_setReg, if_neg hr, reg_withMemory, reg_fetched]
  have ursp : u.reg .rsp = m.reg .rsp - 8 := by
    rw [← hu, reg_goto, reg_setReg, if_pos rfl]
  have umem : u.memory = m.memory.write (s - 8)
      (LittleEndian.encode 8 (UInt64.ofInt (textBase + (a + 1 : Nat))).toNat) := by
    rw [← hu, memory_goto, memory_setReg, memory_withMemory]
  have usame : SameOutput m u := by
    rw [← hu]
    exact ⟨rfl, rfl, rfl, rfl⟩
  obtain ⟨w, made, wrip, wsame, wkeeps, wrbp, wrsi, wmem⟩ :=
    printInt_text lib urip (usame.halted.trans live) v ((uregs .rdi (by decide)).trans hv)
      (first.room (room.mono (by omega))) (by rw [ursp, h8]) (by omega) (by omega)
  have wsame' := usame.trans wsame
  have wrbp' : (w.reg .rbp).toNat = s - 16 := by
    rw [wrbp, ursp]
    exact Word.toNat_sub h8 8 (by omega)
  -- text, saved frame pointer and return address stand one behind the other
  generalize hq : s - 8 - 9 - (decimal v.toInt).length = q at wrsi wmem
  generalize hsaved : LittleEndian.encode 8 (u.reg .rbp).toNat ++
    LittleEndian.encode 8 (UInt64.ofInt (textBase + (a + 1 : Nat))).toNat = saved
  have lsaved : saved.length = 16 := by
    rw [← hsaved, List.length_append, LittleEndian.length_encode, LittleEndian.length_encode]
  have wmem' : w.memory = m.memory.write q ((decimal v.toInt ++ [10]) ++ saved) := by
    have joined := Memory.write_write m.memory q
      (decimal v.toInt ++ 10 :: LittleEndian.encode 8 (u.reg .rbp).toNat)
      (LittleEndian.encode 8 (UInt64.ofInt (textBase + (a + 1 : Nat))).toNat)
    rw [List.length_append, List.length_cons, LittleEndian.length_encode,
      show q + ((decimal v.toInt).length + (8 + 1)) = s - 8 by omega] at joined
    rw [wmem, umem, joined, ← hsaved]
    simp only [List.append_assoc, List.cons_append, List.nil_append]
  have ltext : (decimal v.toInt ++ [10]).length = s - 16 - q := by
    rw [List.length_append, List.length_singleton]
    omega
  obtain ⟨readText, readSaved⟩ := Memory.read_write_append m.memory q (decimal v.toInt ++ [10])
    saved (by omega)
  rw [← wmem', ltext] at readText readSaved
  rw [show q + (s - 16 - q) = s - 16 by omega, lsaved, ← hsaved] at readSaved
  obtain ⟨x, emitted, xrip, xkeeps, xmem⟩ :=
    printInt_emit lib wrip (wsame'.halted.trans live)
      ((first.trans made).room (room.mono (by omega)))
      ((first.trans made).setup.2.2 ▸ hcall) wrbp' wrsi (by omega) (by omega) (by omega)
  rw [readText] at emitted
  have printed := emitted.after (first.trans made) wsame'
  obtain ⟨y, returned, yrip, ysame, ykeeps, yrbp, yrsp, ymem⟩ :=
    printInt_return lib xrip (printed.writes.halted.trans live)
      (printed.reaches.room (room.mono (by omega)))
      (by rw [xkeeps .rbp (by decide), wrbp']) (by omega) (by omega)
      (by rw [xmem, readSaved]) ha size
  have whole := printed.before returned ysame
  refine ⟨y, ?_, yrip, ?_, ?_⟩
  · rwa [show 1 + (12 + 7 * (decimalNat v.toInt.natAbs).length + 4 * (minus v.toInt).length) + 5 + 3
      = 21 + 7 * (decimalNat v.toInt.natAbs).length + 4 * (minus v.toInt).length by omega] at whole
  · intro r hr
    by_cases hsp : r = .rsp
    · subst hsp
      rw [yrsp, xkeeps .rbp (by decide), wrbp, ursp]
      grind
    by_cases hbp : r = .rbp
    · subst hbp
      rw [yrbp, uregs .rbp (by decide)]
    · simp only [List.mem_cons, List.not_mem_nil, or_false, not_or] at hr
      rw [ykeeps r (by simp [hsp, hbp]), xkeeps r (by simp [hr]), wkeeps r (by simp [hr, hsp, hbp]),
        uregs r (Ne.symm hsp)]
  · intro c hc
    rw [ymem, xmem, wmem']
    apply Memory.get_write_outside
    rw [List.length_append, ltext, lsaved]
    omega

end Routine
end Machine

end PrintLang
