import PrintLang.Failure
import PrintLang.Lowering
import PrintLang.Proofs.Lowering.Value

/-!
# Lowering in one pass

The listing can also be made in one pass over the stored nodes, which appends lines to a buffer, counts
the values that they leave on the stack, and checks the count behind every statement. What a pass has
appended before it fails stays in the buffer; the buffer goes to the sink at the end of a pass only.
The pass makes the same listing as `generate`, or fails with the same error.
-/

set_option autoImplicit false

namespace PrintLang
open Lowering

def Store.isZero (s : Store) (i : Int) : Bool :=
  match s.node? i with
  | none => false
  | some n =>
    match n.shape with
    | .intLit v => v == 0
    | _ => false

/-- The lines so far, and how many values are on the stack behind them. -/
structure Emitter where
  lines : Listing
  depth : Int

namespace Emitter

def emit (e : Emitter) (ls : Listing) : Emitter := { e with lines := e.lines ++ ls }

def push (e : Emitter) : Emitter where
  lines := e.lines ++ [.code ⟨.push, [.reg .rax]⟩]
  depth := e.depth + 1

def pop (e : Emitter) : Emitter where
  lines := e.lines ++ [.code ⟨.pop, [.reg .rdi]⟩]
  depth := e.depth - 1

def andThen (r : Emitter × Option GenerateError) (k : Emitter → Emitter × Option GenerateError) :
    Emitter × Option GenerateError :=
  match r with
  | (e, none) => k e
  | (e, some err) => (e, some err)

def operands (s : Store) (op : BinaryOp) (l r : Int) : Except Bytes (Int × Int) :=
  match op with
  | .add | .mul => .ok (l, r)
  | .sub => .ok (r, l)
  | .div => if s.isZero r then .error (bytes "division by zero") else .ok (r, l)
  | .mod => .error (bytes "modulo operator")
  | op => .error (op.symbol ++ bytes " operator")

def joining : BinaryOp → List Instr
  | .add => [⟨.alu .add, [.reg .rdi, .reg .rax]⟩]
  | .mul => [⟨.alu .imul, [.reg .rdi, .reg .rax]⟩]
  | .sub => [⟨.alu .sub, [.reg .rdi, .reg .rax]⟩]
  | .div => [⟨.cqo, []⟩, ⟨.idiv, [.reg .rdi]⟩]
  | _ => []

def expression (s : Store) (i : Int) (e : Emitter) : Emitter × Option GenerateError :=
  match s.node? i with
  | none => (e, some .badIndex)
  | some n =>
    match n.shape with
    | .intLit v => (e.emit [.code (Expr.load v)], none)
    | .binary op l r =>
      match operands s op l r with
      | .error what => (e, some (.node ⟨.unimplemented, i, what⟩))
      | .ok (first, second) =>
        if _h : 0 ≤ first ∧ first < i ∧ 0 ≤ second ∧ second < i then
          andThen (expression s first e) fun e =>
            andThen (expression s second e.push) fun e =>
              (e.pop.emit ((joining op).map .code), none)
        else (e, some .badIndex)
    | shape => (e, some (.node ⟨.unimplemented, i, Expr.missingKind shape.kind⟩))
termination_by i.toNat
decreasing_by all_goals omega

def unbalanced (i depth : Int) : GenerateError :=
  .node ⟨.unreachable, i, bytes "stack depth " ++ decimal depth ++ bytes " after statement"⟩

def statement (p : Program) (i : Int) (e : Emitter) : Emitter × Option GenerateError :=
  match p.store.node? i with
  | none => (e, some .badIndex)
  | some n =>
    match n.shape with
    | .println arg =>
      match atIndex? p.stream.tokens n.first with
      | none => (e, some .badIndex)
      | some t =>
        let place := bytes "println at " ++ p.file ++ bytes ":" ++ t.loc.render
        andThen (expression p.store arg (e.emit [.comment place])) fun e =>
          let e := e.emit [.code ⟨.move .mov, [.reg .rax, .reg .rdi]⟩,
            .code ⟨.call, [.target printInt]⟩]
          if e.depth = 0 then (e, none) else (e, some (unbalanced i e.depth))
    | shape => (e, some (.node ⟨.unreachable, i, shape.kind.name ++ bytes " is not a statement"⟩))

def statements (p : Program) : List Int → Emitter → Emitter × Option GenerateError
  | [], e => (e, none)
  | i :: is, e => andThen (statement p i e) (statements p is)

def opening (p : Program) (t : Target) : Listing :=
  .dataSection :: p.store.objects.toList.flatMap objectLines ++
    .blank :: .textSection :: printIntLines t ++
    .blank :: .global t.entry :: .label t.entry :: (prologue t).map .code

def program (p : Program) (t : Target) : Emitter × Option GenerateError :=
  andThen (statements p p.store.stmts.toList ⟨opening p t, 0⟩) fun e =>
    (e.emit ((epilogue t).map .code), none)

/-- Where a pass writes its buffer. A write may fail and have taken a part. -/
structure Sink (σ : Type) where
  write : σ → Bytes → σ × Option Failure

/-- What is assumed of a sink when a pass is to write all or nothing. -/
def Sink.TakesAll {σ : Type} (sink : Sink σ) : Prop := ∀ held text, (sink.write held text).2 = none

def Sink.buffer : Sink Bytes := ⟨fun held text => (held ++ text, none)⟩

inductive WriteError where
  | generate (e : GenerateError)
  | sink (e : Failure)

def writeTo {σ : Type} (sink : Sink σ) (held : σ) (p : Program) (t : Target) :
    σ × Option WriteError :=
  match t.fault? with
  | some err => (held, some (.generate (.target err)))
  | none =>
    match program p t with
    | (e, none) =>
      match sink.write held (Listing.render e.lines) with
      | (held, err) => (held, err.map .sink)
    | (_, some err) => (held, some (.generate err))

theorem andThen_ok (e : Emitter) (k : Emitter → Emitter × Option GenerateError) :
    andThen (e, none) k = k e := rfl

theorem andThen_fails {r : Emitter × Option GenerateError}
    {k : Emitter → Emitter × Option GenerateError} {err : GenerateError} (h : r.2 = some err) :
    (andThen r k).2 = some err := by
  obtain ⟨e, o⟩ := r
  obtain rfl : o = some err := h
  rfl

theorem emit_emit (e : Emitter) (xs ys : Listing) : (e.emit xs).emit ys = e.emit (xs ++ ys) := by
  simp only [emit, List.append_assoc]

theorem depth_emit (e : Emitter) (ls : Listing) : (e.emit ls).depth = e.depth := rfl

/-- Whether a pass that is at `e` has appended the lines, with as many values on the stack as before,
or has failed. -/
def Gives (r : Emitter × Option GenerateError) (e : Emitter) : Except GenerateError Listing → Prop
  | .ok ls => r = (e.emit ls, none)
  | .error err => r.2 = some err

def lowered (x : Expr) : Except GenerateError Listing :=
  match x.obstacle? with
  | none => .ok (x.code.map .code)
  | some err => .error (.node err)

section Expression
variable {s : Store} {i : Int} {x a b : Expr}

theorem isZero_of_unfolds (h : s.Unfolds i x) : s.isZero i = x.isZero := by
  cases h with
  | int h hn => simp only [Store.isZero, h, hn, Expr.isZero]
  | binary h hn => simp only [Store.isZero, h, hn, Expr.isZero]
  | other h noInt noBinary =>
    simp only [Store.isZero, h, Expr.isZero]

/-- The value pushed between the operands is popped behind them. -/
theorem Gives.pair {f g : Emitter → Emitter × Option GenerateError} {last : List Instr} {e : Emitter}
    (first : Gives (f e) e (lowered a)) (second : ∀ e, Gives (g e) e (lowered b)) :
    Gives (andThen (f e) fun e => andThen (g e.push) fun e =>
        (e.pop.emit (last.map .code), none)) e
      (match a.obstacle?.or b.obstacle? with
        | none => .ok ((Expr.pair a.code b.code ++ last).map .code)
        | some err => .error (.node err)) := by
  unfold lowered at first second
  cases ha : a.obstacle? with
  | some err =>
    rw [ha] at first
    exact andThen_fails first
  | none =>
    rw [ha] at first
    have first : f e = (e.emit (a.code.map .code), none) := first
    have second := second (e.emit (a.code.map .code)).push
    rw [first, andThen_ok]
    cases hb : b.obstacle? with
    | some err =>
      rw [hb] at second
      exact andThen_fails second
    | none =>
      rw [hb] at second
      have second : g _ = (Emitter.emit _ (b.code.map .code), none) := second
      rw [second, andThen_ok]
      simp only [Gives, Option.or_none, emit, push, pop, Expr.pair, List.map_append,
        List.append_assoc, Int.add_sub_cancel]
      rfl

theorem expression_gives (ordered : s.Ordered) (h : s.Unfolds i x) (e : Emitter) :
    Gives (expression s i e) e (lowered x) := by
  induction h generalizing e with
  | int h hn =>
    rw [expression, h]
    simp only [hn]
    rfl
  | @binary i l r n op a b h hn left right ihl ihr =>
    obtain ⟨⟨hl, hl'⟩, hr, hr'⟩ := ordered.operands h hn
    have same := Store.toNat_of_node? h
    rw [expression, h]
    simp only [hn]
    cases op with
    | add | mul =>
      simp only [operands]
      rw [dif_pos ⟨hl, hl', hr, hr'⟩]
      exact Gives.pair (ihl e) ihr
    | sub =>
      simp only [operands]
      rw [dif_pos ⟨hr, hr', hl, hl'⟩]
      exact Gives.pair (ihr e) ihl
    | div =>
      simp only [operands, isZero_of_unfolds right, lowered, Expr.obstacle?]
      cases b.isZero with
      | true => simp only [if_true, Expr.unimplemented, Gives, same]
      | false =>
        simp only [Bool.false_eq_true, if_false]
        rw [dif_pos ⟨hr, hr', hl, hl'⟩]
        exact Gives.pair (ihr e) ihl
    | mod | less | lessEq | greater | greaterEq | eq | notEq | other _ =>
      simp only [operands, lowered, Expr.obstacle?, Expr.unimplemented, Gives, same]
  | @other i n h noInt noBinary =>
    have same := Store.toNat_of_node? h
    rw [expression, h]
    simp only [lowered, Expr.obstacle?, Expr.unimplemented, Gives, same]
    rfl

end Expression

theorem statement_gives {p : Program} (ordered : p.store.Ordered) (i : Int) {e : Emitter}
    (start : e.depth = 0) : Gives (statement p i e) e (Lowering.statement p i) := by
  unfold statement Lowering.statement
  cases node : p.store.node? i with
  | none => rfl
  | some n =>
    simp only
    cases shape : n.shape with
    | println arg =>
      obtain ⟨x, tree⟩ := ordered.exists_argument node shape
      simp only [tree.expr?_eq ordered]
      cases atIndex? p.stream.tokens n.first with
      | none => rfl
      | some t =>
        simp only
        have given := expression_gives ordered tree
          (e.emit [.comment (bytes "println at " ++ p.file ++ bytes ":" ++ t.loc.render)])
        unfold lowered at given
        cases obstacle : x.obstacle? with
        | some err =>
          rw [obstacle] at given
          exact andThen_fails given
        | none =>
          rw [obstacle] at given
          have given : expression p.store arg _ = (Emitter.emit _ _, none) := given
          rw [given, andThen_ok]
          -- only the lines have changed, so the count is still zero
          simp only [emit_emit, depth_emit, start, if_true]
          simp [Gives, printlnCode]
    | boolLit _ | stringLit _ | intLit _ | charLit _ | binary _ _ _ | negation _ | ifElse _ _ _ | block _
    | varRef _ | assign _ _ | whileLoop _ _ | funDecl _ _ _ | call _ _ | returnStmt _ | syscall _
    | classDecl _ _ | newInstance _ | member _ _ => rfl

theorem statements_give {p : Program} (ordered : p.store.Ordered) (is : List Int) {e : Emitter}
    (start : e.depth = 0) :
    Gives (statements p is e) e ((is.mapM (Lowering.statement p)).map List.flatten) := by
  induction is generalizing e with
  | nil =>
    change (e, none) = (e.emit [], none)
    simp [emit]
  | cons i is ih =>
    have first := statement_gives ordered i start
    rw [List.mapM_cons, statements]
    cases hi : Lowering.statement p i with
    | error err =>
      rw [hi] at first
      exact andThen_fails first
    | ok ls =>
      rw [hi] at first
      have first : statement p i e = (e.emit ls, none) := first
      have rest := ih (e := e.emit ls) start
      rw [first, andThen_ok]
      cases hr : is.mapM (Lowering.statement p) with
      | error err =>
        rw [hr] at rest
        exact rest
      | ok parts =>
        rw [hr] at rest
        have rest : statements p is (e.emit ls) = ((e.emit ls).emit parts.flatten, none) := rest
        rw [rest, emit_emit]
        rfl

section Write
variable {p : Program} {σ : Type}

/-- A pass writes the listing of `generate`, or nothing. -/
theorem writeTo_eq (ordered : p.store.Ordered) (sink : Sink σ) (held : σ) (t : Target) :
    writeTo sink held p t =
      match generate p t with
      | .ok listing =>
        ((sink.write held listing.render).1, (sink.write held listing.render).2.map .sink)
      | .error err => (held, some (.generate err)) := by
  unfold writeTo generate program
  cases t.fault? with
  | some err => rfl
  | none =>
    have given := statements_give ordered p.store.stmts.toList (e := ⟨opening p t, 0⟩) rfl
    cases hr : p.store.stmts.toList.mapM (Lowering.statement p) with
    | error err =>
      rw [hr] at given
      have failed := andThen_fails (k := fun e => (e.emit ((epilogue t).map .code), none)) given
      revert failed
      rcases andThen (statements p _ _) _ with ⟨u, o⟩
      rintro rfl
      rfl
    | ok parts =>
      rw [hr] at given
      have given : statements p _ _ = (Emitter.emit _ parts.flatten, none) := given
      simp only [given, andThen_ok, emit]
      rfl

theorem writeTo_fails (ordered : p.store.Ordered) {sink : Sink σ} (all : sink.TakesAll) {held : σ}
    {t : Target} {err : WriteError} (failed : (writeTo sink held p t).2 = some err) :
    (writeTo sink held p t).1 = held := by
  rw [writeTo_eq ordered] at failed ⊢
  cases outcome : generate p t with
  | ok listing =>
    rw [outcome] at failed
    obtain ⟨e, refused, -⟩ := Option.map_eq_some_iff.mp failed
    rw [all] at refused
    cases refused
  | error e => rfl

end Write

end Emitter

end PrintLang
