import Mathlib.Data.List.Forall2
import PrintLang.Proofs.Lowering.Listing

set_option autoImplicit false

namespace PrintLang
open Lowering

namespace Lowering

/-- Statement `i` prints the expression, and its place is the given text. -/
def Prints (p : Program) (i : Int) (s : Bytes × Expr) : Prop :=
  ∃ n arg tok, p.store.node? i = some n ∧ n.shape = .println arg ∧
    atIndex? p.stream.tokens n.first = some tok ∧ p.store.expr? arg.toNat = some s.2 ∧
    s.2.obstacle? = none ∧ s.1 = p.file ++ bytes ":" ++ tok.loc.render

theorem statement_eq {p : Program} {i : Int} {s : Bytes × Expr} (h : Prints p i s) :
    statement p i = .ok (statementLines s.1 s.2) := by
  obtain ⟨n, arg, tok, node, shape, first, tree, fine, place⟩ := h
  rw [statement, node]
  simp only [shape, first, tree, fine, statementLines, place, List.append_assoc]

theorem mapM_statement {p : Program} {is : List Int} {statements : List (Bytes × Expr)}
    (h : List.Forall₂ (Prints p) is statements) :
    is.mapM (statement p) = .ok (statements.map fun s => statementLines s.1 s.2) := by
  induction h with
  | nil => rfl
  | cons first _ ih =>
    rw [List.mapM_cons, statement_eq first, ih]
    rfl

theorem generate_eq {p : Program} {t : Target} {statements : List (Bytes × Expr)}
    (valid : t.fault? = none) (h : List.Forall₂ (Prints p) p.store.stmts.toList statements) :
    generate p t = .ok (programLines p.store.objects.toList t statements) := by
  rw [generate, valid]
  simp only [mapM_statement h]
  rfl

theorem newline_not_mem_place {p : Program} {i : Int} {s : Bytes × Expr} (file : 10 ∉ p.file)
    (h : Prints p i s) : 10 ∉ s.1 := by
  obtain ⟨n, arg, tok, -, -, -, -, -, place⟩ := h
  rw [place]
  simp only [List.mem_append, not_or]
  exact ⟨⟨file, by decide +kernel⟩, tok.loc.newline_not_mem_render⟩

end Lowering

theorem Line.dataSize_le_length_render (l : Line) : l.dataSize ≤ l.render.length := by
  cases l with
  | byteData values =>
    rw [Line.dataSize, Line.render, List.length_append]
    cases values with
    | nil => exact Nat.zero_le _
    | cons b rest =>
      have join := Reader.join_eq_operandArea 0 (decimalNat b.toNat)
        (rest.map fun b => decimalNat b.toNat)
      have rows : rest.length ≤ ((rest.map fun b => decimalNat b.toNat).flatMap
          fun t => 44 :: (List.replicate 0 32 ++ t)).length := by
        clear join
        induction rest with
        | nil => exact Nat.zero_le _
        | cons c rest ih =>
          rw [List.map_cons, List.flatMap_cons, List.length_append, List.length_cons,
            List.length_cons]
          omega
      have first := length_decimalNat_pos b.toNat
      rw [List.map_cons, show bytes "," = 44 :: List.replicate 0 32 from rfl, join,
        Reader.operandArea, List.length_append, List.length_cons]
      omega
  | blank | comment _ | label _ | dataSection | textSection | global _ | code _ =>
    exact Nat.zero_le _

theorem Listing.length_render_ge (ls : Listing) :
    dataSize ls + (ls.filterMap Line.instr?).length ≤ ls.render.length := by
  induction ls with
  | nil => exact Nat.zero_le _
  | cons l ls ih =>
    have first := l.dataSize_le_length_render
    have step : Listing.render (l :: ls) = l.render ++ [10] ++ Listing.render ls := rfl
    have count : ((l :: ls).filterMap Line.instr?).length ≤ (ls.filterMap Line.instr?).length + 1 := by
      rw [List.filterMap_cons]
      split
      · exact Nat.le_succ _
      · exact Nat.le_refl _
    rw [step, dataSize_cons, List.length_append, List.length_append, List.length_singleton]
    omega

/-- Every instruction of the statements takes at most so many steps, those of the routine counted. -/
theorem Expr.steps_le (es : List Expr) :
    steps es ≤ 3 + 160 * (es.flatMap printlnCode).length := by
  induction es with
  | nil => exact Nat.le_refl _
  | cons e es ih =>
    have here : (printlnCode e).length = e.code.length + 2 := by
      rw [printlnCode, List.length_append]
      rfl
    rw [List.flatMap_cons, List.length_append, here, steps]
    cases e.value? with
    | none =>
      simp only
      omega
    | some v =>
      have digits := length_decimalNat_natAbs_le v
      have sign := length_minus_le v.toInt
      simp only [printIntSteps]
      omega

end PrintLang
