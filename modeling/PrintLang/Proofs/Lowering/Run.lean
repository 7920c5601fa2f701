import PrintLang.Compile
import PrintLang.Proofs.Lowering.Code
import PrintLang.Proofs.Machine.PrintInt

set_option autoImplicit false

namespace PrintLang

/-- The values of the expressions up to the first that has none. -/
def Expr.values : List Expr → List Int64
  | [] => []
  | e :: es =>
    match e.value? with
    | some v => v :: values es
    | none => []

def printedText (vs : List Int64) : Bytes := vs.flatMap fun v => decimal v.toInt ++ [10]

/-- The instructions that the statements take up to the exit. With a divide error it is a bound, which
counts all the code of the expression that fails. -/
def Expr.steps : List Expr → Nat
  | [] => 3
  | e :: es =>
    match e.value? with
    | some v => e.code.length + 1 + printIntSteps v.toInt + steps es
    | none => e.code.length

structure Image.Lowered (p : Image) (t : Target) (es : List Expr) : Prop where
  lib : p.PrintsAt t 0
  entry : p.lookup? t.entry = some ⟨.text, (31 : Nat)⟩
  code : p.Holds 31 (Lowering.prologue t ++
    (es.flatMap Lowering.printlnCode ++ Lowering.epilogue t))
  small : textBase + p.text.size < 2 ^ 64

namespace Machine
open Lowering

/-- How a run of the statements ends: after `n` instructions with status zero, or with a divide
error. -/
structure Ends (es : List Expr) (n : Nat) (m u : Machine) (o : Option Stop) : Prop where
  out : u.out.toList = m.out.toList ++ printedText (Expr.values es)
  errout : u.errout = m.errout
  exits : (∀ e ∈ es, e.value?.isSome) →
    o = none ∧ u.halted = true ∧ u.exitCode = 0 ∧ u.steps = m.steps + n
  stops : (¬ ∀ e ∈ es, e.value?.isSome) → ∃ line i, o = some (.fault line i .divide)

theorem Ends.after {es : List Expr} {n k : Nat} {p : Image} {m u v : Machine} {o : Option Stop}
    (h : Ends es n u v o) (runs : Reaches p m k u) (same : SameOutput m u) : Ends es (k + n) m v o := by
  refine ⟨by rw [h.out, same.out], h.errout.trans same.errout, ?_, h.stops⟩
  intro all
  obtain ⟨ho, hh, hc, hsteps⟩ := h.exits all
  refine ⟨ho, hh, hc, ?_⟩
  rw [hsteps, runs.setup.1, Nat.add_assoc]

theorem StopsWithin.runFor {p : Image} {m : Machine} {n k : Nat} {f : Fault}
    (h : StopsWithin p m n f) (hn : n ≤ k) :
    ∃ w line i, Machine.runFor p k m = (w, some (.fault line i f)) ∧ SameOutput m w := by
  obtain ⟨j, u, w, line, i, hj, runs, live, stop, same⟩ := h
  refine ⟨w, line, i, ?_, same⟩
  rw [show k = j + ((k - j - 1) + 1) by omega, runs.runFor, Machine.runFor]
  simp only [live, Bool.false_eq_true, if_false, stop]

section Program
variable {p : Image} {t : Target} {m : Machine} {a s : Nat}

theorem println_runs (lib : p.PrintsAt t 0) {e : Expr} (arith : e.Arithmetic)
    (small : textBase + p.text.size < 2 ^ 64) (code : p.Holds a (printlnCode e))
    (hrip : m.rip = a) (live : m.halted = false) {v : Int64} (hv : e.value? = some v)
    (room : m.Room (e.code.length + 1 + printIntSteps v.toInt))
    (hcall : m.syscalls.write = UInt64.ofInt t.writeNumber) (hs : (m.reg .rsp).toNat = s)
    (low : dataBase + max (8 * e.pending) 37 ≤ s) (high : s ≤ memSize) :
    ∃ u, Reaches p m (e.code.length + 1 + printIntSteps v.toInt) u ∧
      u.rip = (a + (printlnCode e).length : Nat) ∧ Writes (decimal v.toInt ++ [10]) m u ∧
      u.reg .rsp = m.reg .rsp := by
  have outcome := lowers_code arith p m a s code.left hrip live (room.mono (by omega)) hs
    (by omega) high
  rw [hv] at outcome
  obtain ⟨u, hu⟩ := outcome
  have mov : p.Holds (a + e.code.length) [⟨.move .mov, [.reg .rax, .reg .rdi]⟩] := code.right.left
  have call : p.Holds (a + e.code.length + 1) [⟨.call, [.target printInt]⟩] := code.right.tail
  have second : Reaches p u 1 _ := .single mov hu.rip (hu.same.halted.trans live)
    (hu.runs.room (room.mono (by omega))) (exec_mov p u.fetched .rax .rdi)
  have run2 := hu.runs.trans second
  have at2 : (u.fetched.setReg .rdi (u.fetched.reg .rax)).rip = (a + e.code.length + 1 : Nat) := by
    change u.rip + 1 = _
    rw [hu.rip]
    rfl
  have rsp2 : (u.fetched.setReg .rdi (u.fetched.reg .rax)).reg .rsp = m.reg .rsp := by
    rw [reg_setReg, if_neg (by decide), reg_fetched, hu.keeps .rsp (by decide)]
  have size : a + e.code.length + 1 + 1 ≤ p.text.size := by
    obtain ⟨c, hc, -⟩ := call.head
    exact (Array.getElem?_eq_some_iff.mp hc).choose
  obtain ⟨w, called, wrip, wkeeps, -⟩ := printInt_call lib call at2
    (hu.same.halted.trans live) v (run2.room room)
    (by rw [reg_setReg, if_pos rfl, reg_fetched, hu.rax]) (run2.setup.2.2 ▸ hcall)
    (by rw [rsp2, hs]) (by omega) high (by omega)
  refine ⟨w, run2.trans called.reaches, ?_, ?_, ?_⟩
  · rw [wrip, printlnCode, List.length_append]
    rfl
  · exact called.writes.after (hu.same.trans ⟨rfl, rfl, rfl, rfl⟩)
  · rw [wkeeps .rsp (by decide), rsp2]

theorem epilogue_runs (code : p.Holds a (epilogue t)) (hrip : m.rip = a) (live : m.halted = false)
    (room : m.Room 3) (hexit : m.syscalls.exit = UInt64.ofInt t.exitNumber)
    (hne : m.syscalls.write ≠ m.syscalls.exit) :
    ∃ u, Reaches p m 3 u ∧ u.halted = true ∧ u.exitCode = 0 ∧ u.out = m.out ∧ u.errout = m.errout := by
  have first : p.Holds a ((epilogue t).take 2) := code.slice 0 2
  have last : p.Holds (a + 2) [⟨.syscall, []⟩] := code.slice 2 1
  rcases hx : execAll p ((epilogue t).take 2) m with ⟨u, o⟩
  have hu := hx
  simp only [epilogue, List.take, execAll_cons, execAll_nil, andThen_none, exec_mov_immediate,
    exec_xor_self, Word.toUInt64_ofInt, Prod.mk.injEq] at hu
  obtain ⟨rfl, rfl⟩ := hu
  obtain ⟨runs, rip, same, keeps⟩ := Reaches.block first (fun i hi => by
    simp only [epilogue, List.take, List.mem_cons, List.not_mem_nil, or_false] at hi
    rcases hi with rfl | rfl <;> rfl) hrip live (room.mono (by simp [epilogue])) hx
  have number := runs.setup.2.2
  generalize hw : Machine.setReg _ .rdi 0 = w at runs rip same keeps number
  have rdi : w.reg .rdi = 0 := by rw [← hw, reg_setReg, if_pos rfl]
  have rax : w.reg .rax = m.syscalls.exit := by
    rw [← hw, hexit]
    simp only [reg_fetched, reg_setReg, reg_withFlags, if_true, if_false, reduceCtorEq]
  have call := exec_syscall_exit p w.fetched
    (by rw [reg_fetched, rax]; exact fun h => hne (number ▸ h.symm))
    (by rw [reg_fetched, rax, ← number]; rfl)
  refine ⟨_, runs.trans (.single last rip (same.halted.trans live) (runs.room (k := 1) room) call),
    rfl, ?_, same.out, same.errout⟩
  rw [reg_fetched, rdi]
  rfl

theorem statements_run (lib : p.PrintsAt t 0) (small : textBase + p.text.size < 2 ^ 64)
    {es : List Expr} (arith : ∀ e ∈ es, e.Arithmetic)
    (code : p.Holds a (es.flatMap printlnCode ++ epilogue t)) (hrip : m.rip = a)
    (live : m.halted = false) (room : m.Room (Expr.steps es)) (hcalls : m.syscalls = t.syscalls)
    (hne : t.syscalls.write ≠ t.syscalls.exit) (hs : (m.reg .rsp).toNat = s)
    (low : ∀ e ∈ es, dataBase + max (8 * e.pending) 37 ≤ s) (high : es ≠ [] → s ≤ memSize)
    (fuel : Nat) (enough : Expr.steps es ≤ fuel) :
    ∃ u o, runFor p fuel m = (u, o) ∧ Ends es (Expr.steps es) m u o := by
  -- Every statement gives its stack back, so `s` stays fixed in the induction.
  induction es generalizing m a fuel with
  | nil =>
    obtain ⟨u, runs, halted, status, out, errout⟩ := epilogue_runs code hrip live room
      (by rw [hcalls]; rfl) (by rwa [hcalls])
    have whole := runs.runFor (fuel - 3)
    rw [runFor_halted p _ halted, show 3 + (fuel - 3) = fuel from Nat.add_sub_of_le enough] at whole
    refine ⟨u, none, whole, ?_, errout, fun _ => ⟨rfl, halted, status, runs.setup.1⟩, ?_⟩
    · rw [out, Expr.values, printedText, List.flatMap_nil, List.append_nil]
    · exact fun h => absurd (fun e he => nomatch he) h
  | cons e es ih =>
    rw [List.flatMap_cons, List.append_assoc] at code
    have he : e ∈ e :: es := List.mem_cons_self
    have high' := high (List.cons_ne_nil e es)
    cases hv : e.value? with
    | none =>
      simp only [Expr.steps, hv] at room enough
      have outcome := lowers_code (arith e he) p m a s code.left.left hrip live room hs
        (by have := low e he; omega) high'
      rw [hv] at outcome
      obtain ⟨w, line, i, hrun, same⟩ := outcome.runFor enough
      refine ⟨w, _, hrun, ?_, same.errout, ?_, fun _ => ⟨line, i, rfl⟩⟩
      · simp only [Expr.values, hv, printedText, List.flatMap_nil, List.append_nil, same.out]
      · intro all
        have := all e he
        rw [hv] at this
        cases this
    | some v =>
      simp only [Expr.steps, hv] at room enough
      obtain ⟨u, runs, urip, uwrites, ursp⟩ := println_runs lib (arith e he) small code.left hrip
        live hv (room.mono (by omega)) (by rw [hcalls]; rfl) hs (low e he) high'
      obtain ⟨w, o, hrun, ends⟩ := ih (fun x hx => arith x (List.mem_cons_of_mem e hx)) code.right
        urip (uwrites.halted.trans live) (runs.room room) (runs.setup.2.2.trans hcalls)
        (by rw [ursp, hs]) (fun x hx => low x (List.mem_cons_of_mem e hx)) (fun _ => high')
        (fuel - (e.code.length + 1 + printIntSteps v.toInt)) (by omega)
      refine ⟨w, o, ?_, ?_, ends.errout.trans uwrites.errout, ?_, ?_⟩
      · have whole := runs.runFor (fuel - (e.code.length + 1 + printIntSteps v.toInt))
        rwa [Nat.add_sub_of_le (by omega), hrun] at whole
      · simp only [Expr.values, hv, printedText, List.flatMap_cons]
        rw [ends.out, uwrites.out, List.append_assoc]
        rfl
      · intro all
        obtain ⟨ho, hh, hc, hsteps⟩ := ends.exits fun x hx => all x (List.mem_cons_of_mem e hx)
        refine ⟨ho, hh, hc, ?_⟩
        simp only [Expr.steps, hv]
        rw [hsteps, runs.setup.1]
        omega
      · intro some
        apply ends.stops
        intro all
        apply some
        intro x hx
        rcases List.mem_cons.mp hx with rfl | hx
        · rw [hv]
          rfl
        · exact all x hx

theorem prologue_runs (code : p.Holds a (prologue t)) (hrip : m.rip = a) (live : m.halted = false)
    (room : m.Room 3) (hs : (m.reg .rsp).toNat = memSize) (slab : 0 ≤ t.stackSize) :
    ∃ u, Reaches p m 3 u ∧ u.rip = (a + 3 : Nat) ∧ SameOutput m u ∧
      (dataBase + 8 + t.stackSize ≤ memSize →
        ((u.reg .rsp).toNat : Int) = memSize - 8 - t.stackSize) := by
  have h8 : (m.reg .rsp - 8).toNat = memSize - 8 := Word.toNat_sub hs 8 (by decide)
  have f8 : Memory.fits (m.reg .rsp - 8).toNat 8 = true := by
    rw [h8]
    exact Memory.fits_of_le (by decide) (by decide)
  rcases hx : execAll p (prologue t) m with ⟨u, o⟩
  have hu := hx
  simp only [prologue, execAll_cons, execAll_nil, andThen_none, reg_fetched, reg_setReg, exec_push,
    push_of_fits, exec_mov, exec_sub_immediate, f8, if_true, if_false, reduceCtorEq,
    Word.toUInt64_ofInt, Prod.mk.injEq] at hu
  obtain ⟨rfl, rfl⟩ := hu
  obtain ⟨runs, rip, same, keeps⟩ := Reaches.block code (fun i hi => by
    simp only [prologue, List.mem_cons, List.not_mem_nil, or_false] at hi
    rcases hi with rfl | rfl | rfl <;> rfl) hrip live room hx
  refine ⟨_, runs, rip, same, ?_⟩
  intro fits
  obtain ⟨k, hk⟩ := Int.eq_ofNat_of_zero_le slab
  rw [hk] at fits ⊢
  have hn : UInt64.ofInt (k : Int) = UInt64.ofNat k := by
    apply UInt64.toNat_inj.mp
    rw [UInt64.ofInt, UInt64.toNat_ofNat', UInt64.toNat_ofNat']
    omega
  have hsub := Word.toNat_sub h8 k (by omega)
  simp only [reg_fetched, reg_setReg, reg_withFlags, if_true, hn]
  omega

theorem run_lowered {es : List Expr} (h : p.Lowered t es) (arith : ∀ e ∈ es, e.Arithmetic)
    (live : m.halted = false) (hs : (m.reg .rsp).toNat = memSize) (hcalls : m.syscalls = t.syscalls)
    (hne : t.syscalls.write ≠ t.syscalls.exit) (slab : 0 ≤ t.stackSize)
    (stack : ∀ e ∈ es, dataBase + 8 + t.stackSize + max (8 * e.pending) 37 ≤ memSize)
    (room : m.Room (3 + Expr.steps es)) (few : 3 + Expr.steps es ≤ m.budget) :
    ∃ u o, Machine.run p t.entry m = (u, o) ∧ Ends es (3 + Expr.steps es) m u o := by
  have hrun : Machine.run p t.entry m = runFor p m.budget { m with rip := (31 : Nat) } := by
    rw [Machine.run, h.entry]
  obtain ⟨u, runs, urip, same, ursp⟩ := prologue_runs (m := { m with rip := (31 : Nat) })
    h.code.left rfl live (room.mono (by omega)) hs slab
  have low (e : Expr) (he : e ∈ es) : dataBase + max (8 * e.pending) 37 ≤ (u.reg .rsp).toNat := by
    have := stack e he
    have := ursp (by omega)
    omega
  have high (ne : es ≠ []) : (u.reg .rsp).toNat ≤ memSize := by
    obtain ⟨e, he⟩ := List.exists_mem_of_ne_nil es ne
    have := stack e he
    have := ursp (by omega)
    omega
  obtain ⟨w, o, hbody, ends⟩ := statements_run h.lib h.small arith h.code.right urip
    (same.halted.trans live) (runs.room room) (runs.setup.2.2.trans hcalls) hne rfl low high
    (m.budget - 3) (by omega)
  refine ⟨w, o, ?_, ?_⟩
  · have whole := runs.runFor (m.budget - 3)
    rwa [Nat.add_sub_of_le (by omega), hbody, ← hrun] at whole
  · have whole := ends.after runs same
    exact ⟨whole.out, whole.errout, whole.exits, whole.stops⟩

end Program
end Machine

end PrintLang
