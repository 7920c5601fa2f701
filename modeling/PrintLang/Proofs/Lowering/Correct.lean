import PrintLang.Proofs.Lowering.Generate
import PrintLang.Proofs.Machine.Limit

set_option autoImplicit false

namespace PrintLang
open Lowering

/-- What a program has to satisfy: its store was built by the operations of stores, and each statement
prints the tree of the expression that stands for it in the list. -/
structure Program.PrintsAll (p : Program) (es : List Expr) : Prop where
  built : p.store.Built
  statements : List.Forall₂ (fun i e => ∃ n arg, p.store.node? i = some n ∧ n.shape = .println arg ∧
    (atIndex? p.stream.tokens n.first).isSome ∧ p.store.Tree arg e ∧ e.Arithmetic)
    p.store.stmts.toList es
  tokens : ∀ o ∈ p.store.objects.toList, 0 ≤ o.token
  distinct : (p.store.objects.toList.map StringObject.token).Nodup
  file : 10 ∉ p.file

/-- What a target has to satisfy beyond the generator's own check: its entry is a symbol and no label
of the listing, and its system calls have different numbers. -/
structure Target.Suits (t : Target) (p : Program) : Prop where
  valid : t.fault? = none
  entry : Reader.isSymbol t.entry = true
  notRoutine : t.entry ∉ [printInt, printIntDigits, printIntWrite]
  notData : ∀ o ∈ p.store.objects.toList, t.entry ≠ dataLabel o.token
  calls : t.syscalls.write ≠ t.syscalls.exit

theorem Target.stackSize_nonneg {t : Target} (h : t.fault? = none) : 0 ≤ t.stackSize := by
  unfold fault? at h
  split at h
  · cases h
  · split at h
    · cases h
    · omega

theorem Machine.load_fresh {p : Image} {m : Machine} (h : Machine.load p = .ok m) :
    m.halted = false ∧ m.steps = 0 ∧ m.out = #[] ∧ m.errout = #[] ∧
      (m.reg .rsp).toNat = memSize := by
  unfold load at h
  split at h
  · cases h
  · obtain rfl := Except.ok.inj h
    refine ⟨rfl, rfl, rfl, rfl, ?_⟩
    change ((Vector.replicate 16 0).set Reg.rsp.index memSize.toUInt64)[Reg.rsp.index].toNat = _
    rw [Fin.getElem_fin, Vector.getElem_set_self]
    decide

theorem Program.PrintsAll.exists_places {p : Program} {es : List Expr} (h : p.PrintsAll es) :
    ∃ statements, List.Forall₂ (Prints p) p.store.stmts.toList statements ∧
      statements.map Prod.snd = es ∧ ∀ s ∈ statements, 10 ∉ s.1 := by
  have ordered := h.built.ordered
  have file := h.file
  have all := h.statements
  generalize p.store.stmts.toList = is at all
  clear h
  induction all with
  | nil => exact ⟨[], .nil, rfl, fun s hs => nomatch hs⟩
  | @cons i e is es first _ ih =>
    obtain ⟨statements, rest, hmap, places⟩ := ih
    obtain ⟨n, arg, node, shape, token, tree, arith⟩ := first
    obtain ⟨tok, htok⟩ := Option.isSome_iff_exists.mp token
    have here : Prints p i (p.file ++ bytes ":" ++ tok.loc.render, e) :=
      ⟨n, arg, tok, node, shape, htok, tree.expr?_eq ordered, Expr.obstacle?_of_arithmetic arith, rfl⟩
    refine ⟨_ :: statements, .cons here rest, by rw [List.map_cons, hmap], ?_⟩
    rw [List.forall_mem_cons]
    exact ⟨newline_not_mem_place file here, places⟩

theorem Program.PrintsAll.arithmetic {p : Program} {es : List Expr} (h : p.PrintsAll es) :
    ∀ e ∈ es, e.Arithmetic := by
  have all := h.statements
  generalize p.store.stmts.toList = is at all
  clear h
  induction all with
  | nil => exact fun e he => nomatch he
  | cons first _ ih =>
    obtain ⟨n, arg, -, -, -, -, arith⟩ := first
    rw [List.forall_mem_cons]
    exact ⟨arith, ih⟩

namespace Machine

/-- What a run of the statements has come to when no limit has stopped it. -/
structure Printed (es : List Expr) (u : Machine) (stop : Option Stop) : Prop where
  out : u.out.toList = printedText (Expr.values es)
  errout : u.errout.toList = []
  exits : (∀ e ∈ es, e.value?.isSome) →
    stop = none ∧ u.halted = true ∧ u.exitCode = 0 ∧ u.steps = 3 + Expr.steps es
  stops : (¬ ∀ e ∈ es, e.value?.isSome) → ∃ line i, stop = some (.fault line i .divide)

theorem Printed.ended {es : List Expr} {u : Machine} {stop : Option Stop} (h : Printed es u stop) :
    (u.halted = true ∨ stop ≠ none) ∧ stop ≠ some .stepLimit := by
  by_cases all : ∀ e ∈ es, e.value?.isSome
  · obtain ⟨rfl, halted, -⟩ := h.exits all
    exact ⟨.inl halted, nofun⟩
  · obtain ⟨line, i, rfl⟩ := h.stops all
    exact ⟨.inr nofun, nofun⟩

section Loaded
variable {image : Image} {t : Target} {es : List Expr} {m : Machine}

theorem run_loaded (lowered : image.Lowered t es) (arith : ∀ e ∈ es, e.Arithmetic)
    (calls : t.syscalls.write ≠ t.syscalls.exit) (slab : 0 ≤ t.stackSize)
    (stack : ∀ e ∈ es, dataBase + 8 + t.stackSize + max (8 * e.pending) 37 ≤ memSize)
    (loaded : load image = .ok m) (few : 3 + Expr.steps es ≤ 4611686018427387904) (limit : Int)
    (limited : 0 < limit → (3 + Expr.steps es : Nat) ≤ limit) :
    ∃ u stop, run image t.entry { m with syscalls := t.syscalls, maxSteps := limit } = (u, stop) ∧
      Printed es u stop := by
  obtain ⟨live, steps, out, errout, rsp⟩ := load_fresh loaded
  have room : Room { m with syscalls := t.syscalls, maxSteps := limit } (3 + Expr.steps es) := by
    intro pos
    have := limited pos
    change ((m.steps + _ : Nat) : Int) ≤ limit
    omega
  have enough : 3 + Expr.steps es ≤
      budget { m with syscalls := t.syscalls, maxSteps := limit } := by
    change _ ≤ if 0 < limit then limit.toNat - m.steps + 1 else 4611686018427387904
    split
    · next pos =>
      have := limited pos
      omega
    · exact few
  obtain ⟨u, stop, hrun, ends⟩ := run_lowered lowered arith
    (m := { m with syscalls := t.syscalls, maxSteps := limit }) live rsp rfl calls slab stack room
    enough
  refine ⟨u, stop, hrun, ?_, ?_, ?_, ends.stops⟩
  · have hout := ends.out
    change u.out.toList = m.out.toList ++ _ at hout
    rw [hout, out, List.nil_append]
  · have herr : u.errout = m.errout := ends.errout
    rw [herr, errout]
  · intro all
    obtain ⟨ho, hh, hc, hsteps⟩ := ends.exits all
    refine ⟨ho, hh, hc, ?_⟩
    change u.steps = m.steps + _ at hsteps
    rw [hsteps, steps, Nat.zero_add]

/-- A run that a limit does not stop is the run without one. -/
theorem run_limited (lowered : image.Lowered t es) (arith : ∀ e ∈ es, e.Arithmetic)
    (calls : t.syscalls.write ≠ t.syscalls.exit) (slab : 0 ≤ t.stackSize)
    (stack : ∀ e ∈ es, dataBase + 8 + t.stackSize + max (8 * e.pending) 37 ≤ memSize)
    (loaded : load image = .ok m) (few : 3 + Expr.steps es ≤ 4611686018427387904) (limit : Int) :
    ∃ u stop, run image t.entry { m with syscalls := t.syscalls, maxSteps := limit } = (u, stop) ∧
      ((0 < limit → (3 + Expr.steps es : Nat) ≤ limit) → stop ≠ some .stepLimit) ∧
      (stop ≠ some .stepLimit → Printed es u stop) := by
  have within := run_loaded lowered arith calls slab stack loaded few
  rcases hrun : run image t.entry { m with syscalls := t.syscalls, maxSteps := limit } with ⟨u, stop⟩
  refine ⟨u, stop, rfl, fun enough => ?_, fun other => ?_⟩
  · obtain ⟨v, o, same, printed⟩ := within limit enough
    cases hrun.symm.trans same
    exact printed.ended.2
  · by_cases positive : 0 < limit
    · obtain ⟨v, o, whole, printed⟩ := within 0 (fun pos => absurd pos (Int.lt_irrefl 0))
      rw [run_of_label _ lowered.entry] at whole
      have refines : Refines image limit
          (goto { m with syscalls := t.syscalls, maxSteps := 0 } (31 : Nat)) (u, stop) := by
        rw [← hrun]
        exact run_refines (m := { m with syscalls := t.syscalls, maxSteps := 0 }) lowered.entry
          (load_fresh loaded).2.1 (Int.le_refl 0) positive
      have same := refines.eq_of_finishes (.of_runFor whole printed.ended.1) other
      cases same
      exact ⟨printed.out, printed.errout, printed.exits, printed.stops⟩
    · obtain ⟨v, o, same, printed⟩ := within limit fun pos => absurd pos positive
      cases hrun.symm.trans same
      exact printed

end Loaded

end Machine

/-- Generating succeeds, and so does assembling the listing if its text fits into an address space.
On every machine that the image is loaded into, with the numbers of the target's system calls, and
with room on the stack for the slab, the pending operands and the frame of the printing routine, a run
that its limit does not stop prints the values in order. It exits with status zero if all have one, and
stops with a divide error at the first that has none. A limit of as many instructions is enough, and
there is none if it is not positive. -/
theorem run_prints_values {p : Program} {t : Target} {es : List Expr} (h : p.PrintsAll es)
    (ht : t.Suits p) :
    ∃ listing, generate p t = .ok listing ∧ (listing.render.length ≤ Bytes.maxSize →
      ∃ image, assemble listing.render = .ok image ∧
        ∀ (m : Machine) (limit : Int), Machine.load image = .ok m →
          (∀ e ∈ es, dataBase + 8 + t.stackSize + max (8 * e.pending) 37 ≤ memSize) →
          ∃ u stop, Machine.run image t.entry { m with syscalls := t.syscalls, maxSteps := limit } =
              (u, stop) ∧
            ((0 < limit → (3 + Expr.steps es : Nat) ≤ limit) → stop ≠ some .stepLimit) ∧
            (stop ≠ some .stepLimit → Machine.Printed es u stop)) := by
  obtain ⟨statements, prints, hmap, places⟩ := h.exists_places
  refine ⟨_, generate_eq ht.valid prints, ?_⟩
  intro text
  have named : Named p.store.objects.toList t :=
    ⟨h.tokens, h.distinct, ht.entry, ht.notRoutine, ht.notData⟩
  have weight := Listing.length_render_ge (programLines p.store.objects.toList t statements)
  rw [programLines_dataSize, programLines_instrs, hmap] at weight
  simp only [List.length_append] at weight
  have longest : Bytes.maxSize = 2 ^ 48 := by decide
  have few := Expr.steps_le es
  have base : textBase = 2 ^ 30 := by decide
  obtain ⟨image, assembled, lowered, -⟩ := assemble_programLines named places (by omega)
    (by rw [hmap]; omega)
  rw [hmap] at lowered
  refine ⟨image, assembled, ?_⟩
  intro m limit loaded stack
  exact Machine.run_limited lowered h.arithmetic ht.calls (Target.stackSize_nonneg ht.valid) stack
    loaded (by omega) limit

/-- Prints `(3 - 10) * (3 - 10)`, whose two operands are one node, and `(3 - 10) / 3`. -/
def sharedDifference : Program where
  file := bytes "a.kt"
  stream := ⟨[], #[⟨.kwPrintln, 0, 7, ⟨1, 1⟩⟩]⟩
  store :=
    { nodes := #[⟨0, 0, none, .intLit 3⟩, ⟨0, 0, none, .intLit 10⟩, ⟨0, 0, none, .binary .sub 0 1⟩,
        ⟨0, 0, none, .binary .mul 2 2⟩, ⟨0, 0, none, .println 3⟩, ⟨0, 0, none, .binary .div 2 0⟩,
        ⟨0, 0, none, .println 5⟩]
      types := #[]
      objects := #[⟨3, bytes "hi"⟩]
      stmts := #[4, 6] }

def differenceTree : Expr := .binary 2 .sub (.int 0 3) (.int 1 10)

def sharedDifferenceTrees : List Expr :=
  [.binary 3 .mul differenceTree differenceTree, .binary 5 .div differenceTree (.int 0 3)]

theorem sharedDifference_printsAll : sharedDifference.PrintsAll sharedDifferenceTrees := by
  have difference : sharedDifference.store.Tree 2 differenceTree :=
    .binary rfl rfl (.int rfl rfl) (.int rfl rfl)
  have built := Store.Built.empty.node (n := ⟨0, 0, none, .intLit 3⟩) rfl
    |>.node (n := ⟨0, 0, none, .intLit 10⟩) rfl |>.node (n := ⟨0, 0, none, .binary .sub 0 1⟩) rfl
    |>.node (n := ⟨0, 0, none, .binary .mul 2 2⟩) rfl |>.node (n := ⟨0, 0, none, .println 3⟩) rfl
    |>.node (n := ⟨0, 0, none, .binary .div 2 0⟩) rfl |>.node (n := ⟨0, 0, none, .println 5⟩) rfl
    |>.object ⟨3, bytes "hi"⟩ |>.stmt 4 |>.stmt 6
  refine ⟨built, ?_, by decide, by decide, by decide⟩
  refine .cons ⟨_, 3, rfl, rfl, rfl, .binary rfl rfl difference difference, ?_⟩
    (.cons ⟨_, 5, rfl, rfl, rfl, .binary rfl rfl difference (.int rfl rfl), ?_⟩ .nil)
  · simp [Expr.Arithmetic, differenceTree, BinaryOp.isArithmetic]
  · simp [Expr.Arithmetic, differenceTree, BinaryOp.isArithmetic, Expr.isZero]

theorem linux_suits_sharedDifference : Target.linux.Suits sharedDifference := by
  refine ⟨by decide, by decide, by decide, by decide, by decide⟩

theorem sharedDifference_generates :
    generate sharedDifference .linux = .ok (programLines sharedDifference.store.objects.toList .linux
      (sharedDifferenceTrees.map fun e => (bytes "a.kt:1:1", e))) := by
  have tree (i : Int) (e : Expr) (h : sharedDifference.store.Tree i e) :=
    h.expr?_eq sharedDifference_printsAll.built.ordered
  have difference : sharedDifference.store.Tree 2 differenceTree :=
    .binary rfl rfl (.int rfl rfl) (.int rfl rfl)
  refine generate_eq (by decide) (.cons ⟨_, 3, _, rfl, rfl, rfl, ?_, ?_, ?_⟩
    (.cons ⟨_, 5, _, rfl, rfl, rfl, ?_, ?_, ?_⟩ .nil))
  · exact tree 3 _ (.binary rfl rfl difference difference)
  · decide +kernel
  · decide +kernel
  · exact tree 5 _ (.binary rfl rfl difference (.int rfl rfl))
  · decide +kernel
  · decide +kernel

theorem sharedDifference_prints : sharedDifference.PrintsAll sharedDifferenceTrees ∧
    Target.linux.Suits sharedDifference ∧ ∃ listing image m u,
      generate sharedDifference .linux = .ok listing ∧ assemble listing.render = .ok image ∧
      Machine.load image = .ok m ∧
      Machine.run image (bytes "_start") { m with syscalls := Syscalls.linux, maxSteps := 1000 } =
        (u, none) ∧ u.out.toList = bytes "49\n-2\n" ∧ u.exitCode = 0 := by
  refine ⟨sharedDifference_printsAll, linux_suits_sharedDifference, ?_⟩
  obtain ⟨listing, generated, rest⟩ :=
    run_prints_values sharedDifference_printsAll linux_suits_sharedDifference
  obtain rfl := Except.ok.inj (generated.symm.trans sharedDifference_generates)
  obtain ⟨image, assembled, runs⟩ := rest (by decide +kernel)
  have named : Named sharedDifference.store.objects.toList .linux :=
    ⟨by decide +kernel, by decide +kernel, by decide +kernel, by decide +kernel, by decide +kernel⟩
  have places : ∀ s ∈ sharedDifferenceTrees.map fun e => (bytes "a.kt:1:1", e), 10 ∉ s.1 := by
    decide +kernel
  obtain ⟨image', assembled', -, size⟩ := assemble_programLines named places (by decide +kernel)
    (by decide +kernel)
  obtain rfl := Except.ok.inj (assembled.symm.trans assembled')
  obtain ⟨m, loaded⟩ : ∃ m, Machine.load image = .ok m := by
    rw [Machine.load, size, if_neg (by decide +kernel)]
    exact ⟨_, rfl⟩
  obtain ⟨u, stop, hrun, enough, rest⟩ := runs m 1000 loaded (by decide +kernel)
  have printed := rest (enough (by decide +kernel))
  obtain ⟨rfl, -, status, -⟩ := printed.exits (by decide +kernel)
  exact ⟨_, image, m, u, sharedDifference_generates, assembled, loaded, hrun,
    printed.out.trans (by decide +kernel), status⟩

end PrintLang
