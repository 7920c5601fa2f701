import PrintLang.Lowering.Expr

set_option autoImplicit false

namespace PrintLang

def BinaryOp.isArithmetic : BinaryOp → Bool
  | .add | .sub | .mul | .div => true
  | _ => false

def BinaryOp.value? (op : BinaryOp) (a b : Int64) : Option Int64 :=
  match op with
  | .add => some (Int64.ofInt (a.toInt + b.toInt))
  | .sub => some (Int64.ofInt (a.toInt - b.toInt))
  | .mul => some (Int64.ofInt (a.toInt * b.toInt))
  | .div =>
    if b = 0 ∨ (a = Int64.minValue ∧ b = -1) then none
    else some (Int64.ofInt (a.toInt.tdiv b.toInt))
  | _ => none

namespace Expr

def value? : Expr → Option Int64
  | .int _ v => some v
  | .binary _ op l r => l.value?.bind fun a => r.value?.bind fun b => op.value? a b
  | .other _ _ => none

/-- The most operands that wait on the stack at one time. For a difference and a quotient it is the
right operand that waits for the left one. -/
def pending : Expr → Nat
  | .int _ _ => 0
  | .binary _ op l r =>
    match op with
    | .sub | .div => max r.pending (1 + l.pending)
    | _ => max l.pending (1 + r.pending)
  | .other _ _ => 0

/-- Integers under the four operations, with no literal zero as a divisor. -/
def Arithmetic : Expr → Prop
  | .int _ _ => True
  | .binary _ op l r =>
    op.isArithmetic = true ∧ (op = .div → r.isZero = false) ∧ l.Arithmetic ∧ r.Arithmetic
  | .other _ _ => False

theorem obstacle?_of_arithmetic {e : Expr} (h : e.Arithmetic) : e.obstacle? = none := by
  induction e with
  | int node v => rfl
  | binary node op l r ihl ihr =>
    obtain ⟨hop, hdiv, hl, hr⟩ := h
    cases op with
    | add | mul | sub => simp only [obstacle?, ihl hl, ihr hr, Option.or_none]
    | div => simp only [obstacle?, hdiv rfl, ihl hl, ihr hr, Option.or_none, Bool.false_eq_true, if_false]
    | mod | less | lessEq | greater | greaterEq | eq | notEq | other _ => cases hop
  | other node kind => cases h

theorem arithmetic_of_obstacle? {e : Expr} (h : e.obstacle? = none) : e.Arithmetic := by
  induction e with
  | int node v => trivial
  | binary node op l r ihl ihr =>
    cases op with
    | add | mul =>
      obtain ⟨hl, hr⟩ := Option.or_eq_none_iff.mp h
      exact ⟨rfl, (fun div => by cases div), ihl hl, ihr hr⟩
    | sub =>
      obtain ⟨hr, hl⟩ := Option.or_eq_none_iff.mp h
      exact ⟨rfl, (fun div => by cases div), ihl hl, ihr hr⟩
    | div =>
      simp only [obstacle?] at h
      split at h
      · cases h
      · next nonzero =>
        obtain ⟨hr, hl⟩ := Option.or_eq_none_iff.mp h
        exact ⟨rfl, fun _ => Bool.not_eq_true _ ▸ nonzero, ihl hl, ihr hr⟩
    | mod | less | lessEq | greater | greaterEq | eq | notEq | other _ => cases h
  | other node kind => cases h

end Expr

namespace Store

inductive Built : Store → Prop where
  | empty : Built .empty
  | node {s u : Store} {n : Node} {i : Nat} (hs : Built s) (h : s.addNode n = .ok (i, u)) : Built u
  | type {s : Store} (hs : Built s) (t : Ty) : Built (s.addType t).2
  | object {s : Store} (hs : Built s) (o : StringObject) : Built (s.addObject o).2
  | stmt {s : Store} (hs : Built s) (i : Int) : Built (s.addStmt i)

/-- Node `i` is the root of the tree. A node may stand in it more than once. -/
inductive Tree (s : Store) : Int → Expr → Prop where
  | int {i : Int} {n : Node} {v : Int64} (h : s.node? i = some n) (hn : n.shape = .intLit v) :
      Tree s i (.int i.toNat v)
  | binary {i l r : Int} {n : Node} {op : BinaryOp} {a b : Expr} (h : s.node? i = some n)
      (hn : n.shape = .binary op l r) (left : Tree s l a) (right : Tree s r b) :
      Tree s i (.binary i.toNat op a b)

def Ordered (s : Store) : Prop :=
  ∀ (i : Nat) (n : Node), s.nodes[i]? = some n → ∀ c ∈ n.children, 0 ≤ c ∧ c < i

theorem addNode_ordered {s u : Store} {n : Node} {i : Nat} (hs : s.Ordered)
    (h : s.addNode n = .ok (i, u)) : u.Ordered := by
  unfold addNode at h
  split at h
  · cases h
  · next hfind =>
    cases h
    intro j k hk c hc
    rw [Array.getElem?_push] at hk
    split at hk
    · next hj =>
      cases hk
      have hr := List.find?_eq_none.mp hfind c hc
      simp only [inRange, Bool.not_eq_true, Bool.not_eq_false', Bool.and_eq_true,
        decide_eq_true_eq] at hr
      omega
    · exact hs j k hk c hc

theorem Built.ordered {s : Store} (h : s.Built) : s.Ordered := by
  induction h with
  | empty =>
    intro i n hn
    simp [Store.empty] at hn
  | node _ h ih => exact addNode_ordered ih h
  | type _ _ ih => exact ih
  | object _ _ ih => exact ih
  | stmt _ _ ih => exact ih

theorem node?_eq_some {s : Store} {i : Int} {n : Node} (h : s.node? i = some n) :
    0 ≤ i ∧ s.nodes[i.toNat]? = some n := by
  cases i with
  | ofNat k => exact ⟨Int.natCast_nonneg k, h⟩
  | negSucc k => cases h

theorem toNat_of_node? {s : Store} {i : Int} {n : Node} (h : s.node? i = some n) : i.toNat = i :=
  Int.toNat_of_nonneg (node?_eq_some h).1

/-- The tree below a node of any kind. Only the operands of operators are followed. -/
inductive Unfolds (s : Store) : Int → Expr → Prop where
  | int {i : Int} {n : Node} {v : Int64} (h : s.node? i = some n) (hn : n.shape = .intLit v) :
      Unfolds s i (.int i.toNat v)
  | binary {i l r : Int} {n : Node} {op : BinaryOp} {a b : Expr} (h : s.node? i = some n)
      (hn : n.shape = .binary op l r) (left : Unfolds s l a) (right : Unfolds s r b) :
      Unfolds s i (.binary i.toNat op a b)
  | other {i : Int} {n : Node} (h : s.node? i = some n) (noInt : ∀ v, n.shape ≠ .intLit v)
      (noBinary : ∀ op l r, n.shape ≠ .binary op l r) : Unfolds s i (.other i.toNat n.kind)

theorem Tree.unfolds {s : Store} {i : Int} {e : Expr} (h : s.Tree i e) : s.Unfolds i e := by
  induction h with
  | int h hn => exact .int h hn
  | binary h hn _ _ left right => exact .binary h hn left right

/-- Literals and operators alone. -/
theorem Unfolds.tree {s : Store} {i : Int} {e : Expr} (h : s.Unfolds i e)
    (arith : e.Arithmetic) : s.Tree i e := by
  induction h with
  | int h hn => exact .int h hn
  | binary h hn _ _ left right =>
    obtain ⟨-, -, hl, hr⟩ := arith
    exact .binary h hn (left hl) (right hr)
  | other h _ _ => cases arith

theorem unfolds_of_expr? {s : Store} {i : Nat} {e : Expr} (h : s.expr? i = some e) :
    s.Unfolds i e := by
  induction i using Nat.strongRecOn generalizing e with
  | ind i ih =>
    rw [expr?] at h
    split at h
    · cases h
    · next n node =>
      have here : s.node? i = some n := node
      split at h
      · next v shape =>
        cases h
        exact .int here shape
      · next op l r shape =>
        split at h
        · next inside =>
          split at h
          · next a b left right =>
            cases h
            have hl := ih l.toNat (by omega) left
            have hr := ih r.toNat (by omega) right
            rw [Int.toNat_of_nonneg inside.1] at hl
            rw [Int.toNat_of_nonneg inside.2.2.1] at hr
            exact .binary here shape hl hr
          · cases h
        · cases h
      · next noInt noBinary =>
        cases h
        exact .other here noInt noBinary

theorem Ordered.child {s : Store} (ordered : s.Ordered) {i c : Int} {n : Node}
    (h : s.node? i = some n) (hc : c ∈ n.children) :
    0 ≤ c ∧ c < i ∧ ∃ m, s.node? c = some m := by
  obtain ⟨start, node⟩ := node?_eq_some h
  obtain ⟨low, below⟩ := ordered i.toNat n node c hc
  have size := (Array.getElem?_eq_some_iff.mp node).choose
  obtain ⟨k, rfl⟩ := Int.eq_ofNat_of_zero_le low
  exact ⟨low, by omega, _, Array.getElem?_eq_getElem (by omega)⟩

theorem Ordered.operands {s : Store} (ordered : s.Ordered) {i l r : Int} {n : Node} {op : BinaryOp}
    (h : s.node? i = some n) (hn : n.shape = .binary op l r) :
    (0 ≤ l ∧ l < i) ∧ 0 ≤ r ∧ r < i := by
  have left := ordered.child h (c := l) (by simp [Node.children, hn, Shape.children])
  have right := ordered.child h (c := r) (by simp [Node.children, hn, Shape.children])
  exact ⟨⟨left.1, left.2.1⟩, right.1, right.2.1⟩

theorem exists_unfolds {s : Store} (ordered : s.Ordered) {i : Int} {n : Node}
    (h : s.node? i = some n) : ∃ e, s.Unfolds i e := by
  obtain ⟨k, hk⟩ : ∃ k, i.toNat = k := ⟨_, rfl⟩
  induction k using Nat.strongRecOn generalizing i n with
  | ind k ih =>
    have operand (c : Int) (hc : c ∈ n.children) : ∃ e, s.Unfolds c e := by
      obtain ⟨low, below, m, hm⟩ := ordered.child h hc
      exact ih c.toNat (by omega) hm rfl
    rw [Node.children] at operand
    by_cases int : ∃ v, n.shape = .intLit v
    · obtain ⟨v, shape⟩ := int
      exact ⟨_, .int h shape⟩
    · by_cases binary : ∃ op l r, n.shape = .binary op l r
      · obtain ⟨op, l, r, shape⟩ := binary
        obtain ⟨a, left⟩ := operand l (by simp [shape, Shape.children])
        obtain ⟨b, right⟩ := operand r (by simp [shape, Shape.children])
        exact ⟨_, .binary h shape left right⟩
      · exact ⟨_, .other h (fun v hv => int ⟨v, hv⟩) fun op l r hb => binary ⟨op, l, r, hb⟩⟩

theorem Ordered.exists_argument {s : Store} (ordered : s.Ordered) {i arg : Int} {n : Node}
    (h : s.node? i = some n) (hn : n.shape = .println arg) : ∃ e, s.Unfolds arg e := by
  obtain ⟨-, -, m, hm⟩ := ordered.child h (c := arg) (by simp [Node.children, hn, Shape.children])
  exact exists_unfolds ordered hm

theorem Unfolds.expr?_eq {s : Store} {i : Int} {e : Expr} (ordered : s.Ordered)
    (h : s.Unfolds i e) : s.expr? i.toNat = some e := by
  induction h with
  | int h hn =>
    rw [expr?, (node?_eq_some h).2]
    simp only [hn]
  | @binary i l r n op a b h hn left right ihl ihr =>
    obtain ⟨⟨hl, left⟩, hr, right⟩ := ordered.operands h hn
    rw [expr?, (node?_eq_some h).2]
    simp only [hn]
    rw [dif_pos (by omega), ihl, ihr]
  | @other i n h noInt noBinary =>
    rw [expr?, (node?_eq_some h).2]
    simp only
    rfl

/-- In an ordered store, the tree below a node is the one that is lowered. -/
theorem Tree.expr?_eq {s : Store} {i : Int} {e : Expr} (ordered : s.Ordered) (h : s.Tree i e) :
    s.expr? i.toNat = some e :=
  h.unfolds.expr?_eq ordered

end Store

end PrintLang
