import PrintLang.Proofs.Listing.Excerpt
import PrintLang.Proofs.Lowering.Listing
import PrintLang.Proofs.Machine.Invariant
import PrintLang.Proofs.Machine.Limit

set_option autoImplicit false

namespace PrintLang
open Lowering

def Instr.pushed (i : Instr) : Int :=
  match i.mnemonic with
  | .push => 1
  | .pop => -1
  | _ => 0

namespace Lowering

def stackGrowth (is : List Instr) : Int := (is.map Instr.pushed).sum

/-- The most words that are on the stack at one time, over the beginnings of the code. -/
def stackPeak : List Instr → Nat
  | [] => 0
  | i :: is => (i.pushed + stackPeak is).toNat

theorem stackGrowth_append (xs ys : List Instr) :
    stackGrowth (xs ++ ys) = stackGrowth xs + stackGrowth ys := by
  simp [stackGrowth]

theorem stackPeak_append (xs ys : List Instr) :
    (stackPeak (xs ++ ys) : Int) = max (stackPeak xs : Int) (stackGrowth xs + stackPeak ys) := by
  induction xs with
  | nil => simp [stackPeak, stackGrowth]
  | cons i xs ih =>
    have grown : stackGrowth (i :: xs) = i.pushed + stackGrowth xs := by simp [stackGrowth]
    rw [List.cons_append, stackPeak, stackPeak, grown]
    omega

structure Balanced (is : List Instr) (peak : Nat) : Prop where
  growth : stackGrowth is = 0
  peak : stackPeak is = peak

theorem Balanced.pair {first second last : List Instr} {d e : Nat} (hf : Balanced first d)
    (hs : Balanced second e) (hl : Balanced last 0) :
    Balanced (Expr.pair first second ++ last) (max d (1 + e)) := by
  have push : stackGrowth [⟨.push, [.reg .rax]⟩] = 1 ∧ stackPeak [⟨.push, [.reg .rax]⟩] = 1 := by
    decide
  have pop : stackGrowth [⟨.pop, [.reg .rdi]⟩] = -1 ∧ stackPeak [⟨.pop, [.reg .rdi]⟩] = 0 := by
    decide
  obtain ⟨gf, pf⟩ := hf
  obtain ⟨gs, ps⟩ := hs
  obtain ⟨gl, pl⟩ := hl
  constructor
  · simp only [Expr.pair, stackGrowth_append, gf, gs, gl, push, pop]
    omega
  · apply Int.ofNat_inj.mp
    simp only [Expr.pair, stackGrowth_append, stackPeak_append, gf, pf, gs, ps, pl, push, pop]
    omega

theorem code_balanced {e : Expr} (h : e.Arithmetic) : Balanced e.code e.pending := by
  induction e with
  | int node v =>
    constructor <;> simp only [Expr.code, Expr.load] <;> split <;> rfl
  | binary node op l r ihl ihr =>
    obtain ⟨hop, -, hl, hr⟩ := h
    cases op with
    | add | mul => exact (ihl hl).pair (ihr hr) ⟨rfl, rfl⟩
    | sub | div => exact (ihr hr).pair (ihl hl) ⟨rfl, rfl⟩
    | mod | less | lessEq | greater | greaterEq | eq | notEq | other _ => cases hop
  | other node kind => cases h

theorem code_ne_nil {e : Expr} (h : e.Arithmetic) : e.code ≠ [] := by
  cases e with
  | int node v => exact List.cons_ne_nil _ _
  | binary node op l r =>
    obtain ⟨hop, -⟩ := h
    cases op with
    | add | sub | mul | div => simp [Expr.code]
    | mod | less | lessEq | greater | greaterEq | eq | notEq | other _ => cases hop
  | other node kind => cases h

theorem code_straight (e : Expr) : e.code.all Instr.straight = true := by
  induction e with
  | int node v =>
    rw [Expr.code, List.all_cons, Expr.load]
    split <;> rfl
  | binary node op l r ihl ihr =>
    cases op <;> simp only [Expr.code, Expr.pair, List.all_append, ihl, ihr] <;> rfl
  | other node kind => rfl

end Lowering

namespace Machine
variable {p : Image} {m u : Machine} {a k : Nat}

theorem text_of_fetch? {c : CodeLine} (h : fetch? p m = some c) :
    ∃ a : Nat, m.rip = a ∧ p.text[a]? = some c := by
  obtain ⟨-, -, start, -⟩ := fetch?_eq_some h
  obtain ⟨a, ha⟩ := Int.eq_ofNat_of_zero_le start
  unfold fetch? at h
  split at h
  · cases h
  · rw [ha, atIndex?_natCast] at h
    exact ⟨a, ha, h⟩

theorem step_fault {c : CodeLine} (found : p.text[a]? = some c) (hrip : m.rip = a)
    (live : m.halted = false) {line : Int} {i : Instr} {f : Fault}
    (h : step p m = (u, some (.fault line i f))) : line = c.line ∧ i = c.instr := by
  simp only [step, live, Bool.false_eq_true, if_false, hrip, atIndex?_natCast, found] at h
  split at h
  · cases h
  · split at h
    · cases h
    · cases h
      exact ⟨rfl, rfl⟩

theorem step_rip {c : CodeLine} (found : p.text[a]? = some c) (straight : c.instr.straight = true)
    (hrip : m.rip = a) (live : m.halted = false) (h : step p m = (u, none)) :
    u.rip = (a + 1 : Nat) := by
  simp only [step, live, Bool.false_eq_true, if_false, hrip, atIndex?_natCast, found] at h
  split at h
  · cases h
  · have same := exec_sameWorld p c.instr m.fetched straight
    split at h
    · next hx =>
      obtain rfl := (Prod.mk.inj h).1
      rw [hx] at same
      rw [same.rip, fetched, hrip]
      rfl
    · cases h

/-- In code without jumps, the instruction pointer counts the instructions. -/
theorem Reaches.rip_eq {is : List Instr} (code : p.Holds a is) (straight : is.all Instr.straight = true)
    (hrip : m.rip = a) (h : Reaches p m k u) (inside : k ≤ is.length) : u.rip = (a + k : Nat) := by
  induction h generalizing a is with
  | refl m => exact hrip
  | @next m v u k live hs _ ih =>
    cases is with
    | nil => simp at inside
    | cons i is =>
      obtain ⟨c, found, rfl⟩ := code.head
      rw [List.all_cons, Bool.and_eq_true] at straight
      have first := step_rip found straight.1 hrip live hs
      rw [ih code.tail straight.2 first (by simpa using inside)]
      omega

theorem SameOutput.of_withLimit {x n : Int} (h : SameOutput (m.withLimit x) u) :
    SameOutput m (u.withLimit n) :=
  ⟨h.halted, h.exitCode, h.out, h.errout⟩

/-- A run without a limit is a run under a limit that it does not reach. -/
theorem Reaches.underLimit {n : Int} (h : Reaches p m k u) (free : m.maxSteps ≤ 0) (positive : 0 < n)
    (below : ∀ j v, j < k → Reaches p (m.withLimit n) j v → v.atLimit = false) :
    Reaches p (m.withLimit n) k (u.withLimit n) := by
  induction h with
  | refl m => exact .refl _
  | @next m v u k live hs _ ih =>
    have start := below 0 _ (by omega) (.refl _)
    simp only [atLimit_withLimit, positive, decide_true, Bool.true_and, decide_eq_false_iff_not]
      at start
    have first : step p (m.withLimit n) = (v.withLimit n, none) := by
      rw [step_withLimit free (by omega), hs, underLimit_mk]
    have limit := (step_setup live hs).2.1
    exact .next live first (ih (limit ▸ free) fun j w hj hw =>
      below (j + 1) w (by omega) (.next live first hw))

end Machine

namespace Lowering
open Machine

/-- No room has to be known before: it is enough that the limit is not met on the way. -/
theorem Lowers.outcome {code : List Instr} {depth : Nat} {v? : Option Int64}
    (h : Lowers code depth v?) {p : Image} {m : Machine} {a : Nat} (holds : p.Holds a code)
    (hrip : m.rip = a) (live : m.halted = false)
    (below : ∀ k u, k < code.length → Reaches p m k u → u.atLimit = false)
    (low : dataBase + 8 * depth ≤ (m.reg .rsp).toNat) (high : (m.reg .rsp).toNat ≤ memSize) :
    Outcome p m a code.length depth v? := by
  by_cases limited : 0 < m.maxSteps
  · have free : (m.withLimit 0).maxSteps ≤ 0 := Int.le_refl 0
    have back : (m.withLimit 0).withLimit m.maxSteps = m := rfl
    have outcome := h p (m.withLimit 0) a _ holds hrip live (fun positive => by cases positive) rfl
      (by rwa [reg_withLimit]) (by rwa [reg_withLimit])
    have under {k : Nat} {u : Machine} (runs : Reaches p (m.withLimit 0) k u) (hk : k ≤ code.length) :
        Reaches p m k (u.withLimit m.maxSteps) := by
      have moved := runs.underLimit free limited fun j v hj hv => below j v (by omega) (back ▸ hv)
      rwa [back] at moved
    cases v? with
    | some v =>
      obtain ⟨u, hu⟩ := outcome
      refine ⟨u.withLimit m.maxSteps, under hu.runs le_rfl, hu.rip, hu.same.of_withLimit,
        fun r hr => ?_, ?_, ?_⟩
      · rw [reg_withLimit, hu.keeps r hr, reg_withLimit]
      · rw [reg_withLimit, hu.rax]
      · exact hu.memory
    | none =>
      obtain ⟨k, u, w, line, i, hk, runs, ulive, stop, same⟩ := outcome
      have moved := under runs (by omega)
      have room := below k _ hk moved
      simp only [atLimit_withLimit, limited, decide_true, Bool.true_and, decide_eq_false_iff_not]
        at room
      have ufree : u.maxSteps ≤ 0 := runs.setup.2.1 ▸ free
      refine ⟨k, _, w.withLimit m.maxSteps, line, i, hk, moved, ulive, ?_, same.of_withLimit⟩
      rw [step_withLimit ufree (by omega), stop, underLimit_mk]
  · exact h p m a _ holds hrip live (fun positive => absurd positive limited) rfl low high

end Lowering

namespace Machine

/-- The machine is at the first line of the code of a node, wherever this stands in an accepted listing.
The limit on the instructions is not met while the code runs, and the stack has room for the words
that it pushes. -/
theorem expression_runs {s : Store} {i : Nat} {e : Expr} (tree : s.expr? i = some e)
    (lowered : e.obstacle? = none) {known : Labels} {text : Bytes} {p : Image}
    (distinct : (known.map Prod.fst).Nodup) (assembled : (Assembler.assemble known text).2 = .ok p)
    {above below : List Bytes}
    (emitted : Bytes.splitOn 10 text = above ++ e.code.map (fun j => (Line.code j).render) ++ below)
    {m : Machine} {c : CodeLine} (next : fetch? p m = some c)
    (first : c.line = (above.length + 1 : Nat))
    (going : ∀ k u, k < e.code.length → Reaches p m k u → u.atLimit = false)
    (high : (m.reg .rsp).toNat ≤ memSize)
    (low : dataBase + 8 * stackPeak e.code ≤ (m.reg .rsp).toNat) :
    s.Tree i e ∧
    (∀ v, e.value? = some v → ∃ u, Reaches p m e.code.length u ∧ u.rip = m.rip + e.code.length ∧
      u.reg .rax = v.toUInt64 ∧ (∀ r, r ∉ [Reg.rax, .rdi, .rdx] → u.reg r = m.reg r) ∧
      SameOutput m u ∧ ∀ a, u.memory.get a ≠ m.memory.get a →
        (m.reg .rsp).toNat - 8 * stackPeak e.code ≤ a ∧ a < (m.reg .rsp).toNat) ∧
    (e.value? = none → ∃ k j u w, e.code[k]? = some j ∧ Reaches p m k u ∧ u.rip = m.rip + k ∧
      step p u = (w, some (.fault (above.length + 1 + k : Nat) j .divide)) ∧ SameOutput m w) := by
  have arith := Expr.arithmetic_of_obstacle? lowered
  have generated := code_generated e
  obtain ⟨b, numbered⟩ := Image.exists_numbered distinct assembled emitted fun j hj =>
    Instr.regular_of_isGenerated (List.all_eq_true.mp generated j hj)
  have code : p.Holds b e.code := fun k j hj => ⟨_, numbered k j hj, rfl⟩
  -- no other line has the number, so the machine is where the code begins
  have start : m.rip = b := by
    obtain ⟨a, ha, here⟩ := text_of_fetch? next
    have some := List.getElem?_eq_getElem (List.length_pos_of_ne_nil (code_ne_nil arith))
    have same := Image.line_injective distinct assembled here (numbered 0 _ some) first
    omega
  have peak := (code_balanced arith).peak
  rw [peak] at low ⊢
  have outcome := (lowers_code arith).outcome code start (fetch?_eq_some next).1 going low high
  refine ⟨(Store.unfolds_of_expr? tree).tree arith, fun v hv => ?_, fun hv => ?_⟩
  · rw [hv] at outcome
    obtain ⟨u, hu⟩ := outcome
    refine ⟨u, hu.runs, ?_, hu.rax, hu.keeps, hu.same, fun a changed => ?_⟩
    · rw [hu.rip, start]
      rfl
    · by_contra outside
      exact changed (hu.memory a (by omega))
  · rw [hv] at outcome
    obtain ⟨k, u, w, line, j, hk, runs, live, stop, same⟩ := outcome
    have rip := runs.rip_eq code (code_straight e) start (by omega)
    have here := List.getElem?_eq_getElem hk
    obtain ⟨rfl, rfl⟩ := step_fault (numbered k _ here) rip live stop
    refine ⟨k, _, u, w, here, runs, ?_, stop, same⟩
    rw [rip, start]
    rfl

/-- Both operands of node 4 are node 3, which is -1 and divides the least integer in node 5. -/
def unitStore : Store where
  nodes := #[⟨0, 0, none, .intLit Int64.minValue⟩, ⟨0, 0, none, .intLit 3⟩, ⟨0, 0, none, .intLit 4⟩,
    ⟨0, 0, none, .binary .sub 1 2⟩, ⟨0, 0, none, .binary .mul 3 3⟩, ⟨0, 0, none, .binary .div 0 3⟩]
  types := #[]
  objects := #[]
  stmts := #[]

def unitTree : Expr := .binary 3 .sub (.int 1 3) (.int 2 4)

def squareTree : Expr := .binary 4 .mul unitTree unitTree

def overflowTree : Expr := .binary 5 .div (.int 0 Int64.minValue) unitTree

theorem unitStore_trees :
    unitStore.expr? 4 = some squareTree ∧ unitStore.expr? 5 = some overflowTree := by
  have built := Store.Built.empty.node (n := ⟨0, 0, none, .intLit Int64.minValue⟩) rfl
    |>.node (n := ⟨0, 0, none, .intLit 3⟩) rfl |>.node (n := ⟨0, 0, none, .intLit 4⟩) rfl
    |>.node (n := ⟨0, 0, none, .binary .sub 1 2⟩) rfl |>.node (n := ⟨0, 0, none, .binary .mul 3 3⟩) rfl
    |>.node (n := ⟨0, 0, none, .binary .div 0 3⟩) rfl
  have unit : unitStore.Tree 3 unitTree := .binary rfl rfl (.int rfl rfl) (.int rfl rfl)
  have square : unitStore.Tree 4 squareTree := .binary rfl rfl unit unit
  have quotient : unitStore.Tree 5 overflowTree := .binary rfl rfl (.int rfl rfl) unit
  exact ⟨square.expr?_eq built.ordered, quotient.expr?_eq built.ordered⟩

def unitListing : Bytes :=
  bytes "start: nop\n.data\nx: .byte 7\n.text\n" ++
    Listing.render ((squareTree.code ++ overflowTree.code).map .code) ++ bytes "jmp start"

def unitImage : Image :=
  match (Assembler.assemble [(bytes "other", ⟨.text, 5⟩)] unitListing).2 with
  | .ok p => p
  | .error _ => ⟨#[], [], [], []⟩

/-- As little stack and as few instructions as the square needs. -/
def unitMachine : Machine :=
  setReg
    { regs := Vector.replicate 16 7
      rip := 1
      flags := ⟨true, false, true, false⟩
      memory := Memory.zero
      halted := false
      exitCode := 0
      steps := 3
      maxSteps := 16
      syscalls := .darwin
      out := #[33]
      errout := #[] }
    .rsp (dataBase + 16).toUInt64

theorem unitListing_runs :
    (∃ u, Reaches unitImage unitMachine 13 u ∧ u.rip = 14 ∧ u.reg .rax = 1 ∧
      (∀ r, r ∉ [Reg.rax, .rdi, .rdx] → u.reg r = unitMachine.reg r) ∧ SameOutput unitMachine u ∧
      ∀ a, u.memory.get a ≠ unitMachine.memory.get a → dataBase ≤ a ∧ a < dataBase + 16) ∧
    ∃ k j u w, overflowTree.code[k]? = some j ∧
      Reaches unitImage (unitMachine.goto 14) k u ∧ u.rip = 14 + k ∧
      step unitImage u = (w, some (.fault (18 + k : Nat) j .divide)) ∧
      SameOutput (unitMachine.goto 14) w := by
  have distinct : (([(bytes "other", ⟨.text, 5⟩)] : Labels).map Prod.fst).Nodup := by decide
  have assembled : (Assembler.assemble [(bytes "other", ⟨.text, 5⟩)] unitListing).2 =
      .ok unitImage := by decide +kernel
  have going (m : Machine) (n : Nat) (room : m.Room n) (k : Nat) (u : Machine) (hk : k < n)
      (runs : Reaches unitImage m k u) : u.atLimit = false :=
    (runs.room (k := 1) (room.mono (by omega))).not_atLimit
  let head := [bytes "start: nop", bytes ".data", bytes "x: .byte 7", bytes ".text"]
  let lines (e : Expr) := e.code.map fun j => (Line.code j).render
  have squareLines : Bytes.splitOn 10 unitListing =
      head ++ lines squareTree ++ (lines overflowTree ++ [bytes "jmp start"]) := by decide +kernel
  have overflowLines : Bytes.splitOn 10 unitListing =
      (head ++ lines squareTree) ++ lines overflowTree ++ [bytes "jmp start"] := by decide +kernel
  obtain ⟨square, overflow⟩ := unitStore_trees
  have squareRuns := expression_runs square (by decide +kernel) distinct assembled squareLines
    (m := unitMachine) (c := ⟨5, Expr.load 4⟩) (by decide +kernel) (by decide +kernel)
    (going unitMachine _ fun _ => by decide +kernel) (by decide +kernel) (by decide +kernel)
  have overflowRuns := expression_runs overflow (by decide +kernel) distinct assembled overflowLines
    (m := unitMachine.goto 14) (c := ⟨18, Expr.load 4⟩) (by decide +kernel) (by decide +kernel)
    (going (unitMachine.goto 14) _ fun _ => by decide +kernel) (by decide +kernel) (by decide +kernel)
  exact ⟨squareRuns.2.1 1 (by decide +kernel), overflowRuns.2.2 (by decide +kernel)⟩

end Machine

end PrintLang
