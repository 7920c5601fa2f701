import Mathlib.Logic.Relation
import PrintLang.Proofs.Lowering.Emitter
import PrintLang.Proofs.Outcome

set_option autoImplicit false

namespace PrintLang
open Lowering

def Shape.operands : Shape → List Int
  | .binary .add l r | .binary .mul l r => [l, r]
  | .binary .sub l r | .binary .div l r => [r, l]
  | _ => []

namespace Store

/-- Nothing about the node itself keeps it from being lowered as an expression. -/
inductive Plain (s : Store) (i : Int) : Prop where
  | int {n : Node} {v : Int64} (h : s.node? i = some n) (hn : n.shape = .intLit v)
  | binary {n : Node} {op : BinaryOp} {l r : Int} (h : s.node? i = some n)
      (hn : n.shape = .binary op l r) (arith : op ∈ [.add, .sub, .mul, .div])
      (nonzero : op = .div → ¬ ∃ k, s.node? r = some k ∧ k.shape = .intLit 0)

def Reachable (s : Store) : Int → Int → Prop :=
  Relation.ReflTransGen fun i c => ∃ n, s.node? i = some n ∧ c ∈ n.children

/-- The nodes of an expression in the order of emission, a node before its operands. A node that is
used twice is there twice. -/
inductive Visits (s : Store) : Int → List Int → Prop where
  | alone {i : Int} {n : Node} (h : s.node? i = some n) (none : n.shape.operands = []) :
      Visits s i [i]
  | pair {i a b : Int} {n : Node} {xs ys : List Int} (h : s.node? i = some n)
      (two : n.shape.operands = [a, b]) (first : Visits s a xs) (second : Visits s b ys) :
      Visits s i (i :: (xs ++ ys))

def FirstObstacle (s : Store) (order : List Int) : Option LoweringError → Prop
  | none => ∀ j ∈ order, s.Plain j
  | some err => err.kind = .unimplemented ∧ ∃ before after, order = before ++ err.node :: after ∧
      (∀ j ∈ before, s.Plain j) ∧ ¬ s.Plain err.node

section Expressions
variable {s : Store} {i : Int} {x : Expr} {order xs ys : List Int} {o o' : Option LoweringError}

theorem FirstObstacle.here {err : LoweringError} (kind : err.kind = .unimplemented)
    (node : err.node = i) (blocked : ¬ s.Plain i) (xs : List Int) :
    s.FirstObstacle (i :: xs) (some err) := by
  subst node
  exact ⟨kind, [], xs, rfl, by simp, blocked⟩

theorem FirstObstacle.append (hx : s.FirstObstacle xs o) (hy : s.FirstObstacle ys o') :
    s.FirstObstacle (xs ++ ys) (o.or o') := by
  cases o with
  | some err =>
    obtain ⟨kind, before, after, rfl, plain, blocked⟩ := hx
    exact ⟨kind, before, after ++ ys, by simp, plain, blocked⟩
  | none =>
    cases o' with
    | some err =>
      obtain ⟨kind, before, after, rfl, plain, blocked⟩ := hy
      refine ⟨kind, xs ++ before, after, by simp, ?_, blocked⟩
      exact List.forall_mem_append.mpr ⟨hx, plain⟩
    | none => exact List.forall_mem_append.mpr ⟨hx, hy⟩

theorem FirstObstacle.cons (plain : s.Plain i) (h : s.FirstObstacle xs o) :
    s.FirstObstacle (i :: xs) o := by
  have first : s.FirstObstacle [i] none := List.forall_mem_singleton.mpr plain
  exact first.append h

theorem isZero_iff : s.isZero i = true ↔ ∃ k, s.node? i = some k ∧ k.shape = .intLit 0 := by
  unfold isZero
  cases node : s.node? i with
  | none => simp
  | some n =>
    cases shape : n.shape <;> simp [shape]

theorem plain_binary {n : Node} {op : BinaryOp} {l r : Int} (h : s.node? i = some n)
    (hn : n.shape = .binary op l r) :
    s.Plain i ↔ op ∈ [.add, .sub, .mul, .div] ∧ (op = .div → s.isZero r = false) := by
  rw [← Bool.not_eq_true, isZero_iff]
  constructor
  · intro plain
    cases plain with
    | int h' hn' =>
      cases h.symm.trans h'
      cases hn.symm.trans hn'
    | binary h' hn' arith nonzero =>
      cases h.symm.trans h'
      cases hn.symm.trans hn'
      exact ⟨arith, nonzero⟩
  · rintro ⟨arith, nonzero⟩
    exact .binary h hn arith nonzero

theorem Unfolds.exists_visits (h : s.Unfolds i x) : ∃ order, s.Visits i order := by
  induction h with
  | int h hn => exact ⟨_, .alone h (by rw [hn]; rfl)⟩
  | @binary i l r n op a b h hn _ _ left right =>
    obtain ⟨xs, hx⟩ := left
    obtain ⟨ys, hy⟩ := right
    cases op with
    | add | mul => exact ⟨_, .pair h (by rw [hn]; rfl) hx hy⟩
    | sub | div => exact ⟨_, .pair h (by rw [hn]; rfl) hy hx⟩
    | mod | less | lessEq | greater | greaterEq | eq | notEq | other _ =>
      exact ⟨_, .alone h (by rw [hn]; rfl)⟩
  | @other i n h noInt noBinary =>
    refine ⟨_, .alone h ?_⟩
    cases shape : n.shape with
    | binary op l r => exact absurd shape (noBinary op l r)
    | _ => rfl

theorem Visits.eq_alone {n : Node} (v : s.Visits i order) (h : s.node? i = some n)
    (none : n.shape.operands = []) : order = [i] := by
  cases v with
  | alone _ _ => rfl
  | pair h' two =>
    cases h.symm.trans h'
    cases none.symm.trans two

theorem Visits.eq_pair {n : Node} {a b : Int} (v : s.Visits i order) (h : s.node? i = some n)
    (two : n.shape.operands = [a, b]) :
    ∃ xs ys, order = i :: (xs ++ ys) ∧ s.Visits a xs ∧ s.Visits b ys := by
  cases v with
  | alone h' none =>
    cases h.symm.trans h'
    cases none.symm.trans two
  | pair h' two' first second =>
    cases h.symm.trans h'
    cases two.symm.trans two'
    exact ⟨_, _, rfl, first, second⟩

/-- The first obstacle in a tree is the first node in the order of emission that is not plain. -/
theorem Unfolds.firstObstacle (h : s.Unfolds i x) (v : s.Visits i order) :
    s.FirstObstacle order x.obstacle? := by
  induction h generalizing order with
  | int h hn =>
    obtain rfl := v.eq_alone h (by rw [hn]; rfl)
    exact List.forall_mem_singleton.mpr (.int h hn)
  | @binary i l r n op a b h hn left right ihl ihr =>
    have same := toNat_of_node? h
    cases op with
    | add | mul =>
      obtain ⟨xs, ys, rfl, first, second⟩ := v.eq_pair h (by rw [hn]; rfl)
      exact .cons (.binary h hn (by simp) fun div => by cases div) ((ihl first).append (ihr second))
    | sub =>
      obtain ⟨xs, ys, rfl, first, second⟩ := v.eq_pair h (by rw [hn]; rfl)
      exact .cons (.binary h hn (by simp) fun div => by cases div) ((ihr first).append (ihl second))
    | div =>
      obtain ⟨xs, ys, rfl, first, second⟩ := v.eq_pair h (by rw [hn]; rfl)
      have plain := plain_binary h hn
      rw [Emitter.isZero_of_unfolds right] at plain
      rw [Expr.obstacle?]
      cases hz : b.isZero with
      | true => exact .here rfl same (by simp [plain, hz]) _
      | false => exact .cons (by simp [plain, hz]) ((ihr first).append (ihl second))
    | mod | less | lessEq | greater | greaterEq | eq | notEq | other _ =>
      obtain rfl := v.eq_alone h (by rw [hn]; rfl)
      exact .here rfl same (by simp [plain_binary h hn]) _
  | @other i n h noInt noBinary =>
    have same := toNat_of_node? h
    have blocked : ¬ s.Plain i := by
      intro plain
      cases plain with
      | int h' hn' =>
        cases h.symm.trans h'
        exact noInt _ hn'
      | binary h' hn' =>
        cases h.symm.trans h'
        exact noBinary _ _ _ hn'
    cases v with
    | alone _ _ => exact .here rfl same blocked _
    | pair _ _ _ _ => exact .here rfl same blocked _

theorem Plain.operands_eq {n : Node} (plain : s.Plain i) (h : s.node? i = some n) (c : Int) :
    c ∈ n.children ↔ c ∈ n.shape.operands := by
  rw [Node.children]
  cases plain with
  | int h' hn =>
    cases h.symm.trans h'
    rw [hn]
    rfl
  | @binary _ op l r h' hn arith =>
    cases h.symm.trans h'
    rw [hn]
    cases op with
    | add | mul => rfl
    | sub | div => simp [Shape.children, Shape.operands, or_comm]
    | mod | less | lessEq | greater | greaterEq | eq | notEq | other _ => simp at arith

theorem Visits.reachable (v : s.Visits i order) {j : Int} (hj : j ∈ order) : s.Reachable i j := by
  induction v with
  | alone =>
    obtain rfl := List.mem_singleton.mp hj
    exact .refl
  | @pair i a b n xs ys h two _ _ left right =>
    have children : a ∈ n.children ∧ b ∈ n.children := by
      rw [Node.children]
      cases shape : n.shape with
      | binary op l r => cases op <;> simp_all [Shape.children, Shape.operands]
      | _ => simp [shape, Shape.operands] at two
    rcases List.mem_cons.mp hj with rfl | hj
    · exact .refl
    · rcases List.mem_append.mp hj with hj | hj
      · exact .head ⟨n, h, children.1⟩ (left hj)
      · exact .head ⟨n, h, children.2⟩ (right hj)

/-- Nothing below plain nodes is left out. -/
theorem Visits.mem_of_reachable (v : s.Visits i order) (plain : ∀ j ∈ order, s.Plain j) {j : Int}
    (hj : s.Reachable i j) : j ∈ order := by
  induction v with
  | alone h none =>
    rcases hj.cases_head with rfl | ⟨c, ⟨n, hn, hc⟩, -⟩
    · exact List.mem_singleton_self _
    · cases h.symm.trans hn
      rw [(plain _ (List.mem_singleton_self _)).operands_eq h, none] at hc
      cases hc
  | @pair i a b n xs ys h two _ _ left right =>
    obtain ⟨here, below⟩ := List.forall_mem_cons.mp plain
    obtain ⟨plainLeft, plainRight⟩ := List.forall_mem_append.mp below
    rcases hj.cases_head with rfl | ⟨c, ⟨k, hk, hc⟩, rest⟩
    · exact List.mem_cons_self
    · cases h.symm.trans hk
      rw [here.operands_eq h, two] at hc
      simp only [List.mem_cons, List.not_mem_nil, or_false] at hc
      rcases hc with rfl | rfl
      · exact List.mem_cons_of_mem _ (List.mem_append_left _ (left plainLeft rest))
      · exact List.mem_cons_of_mem _ (List.mem_append_right _ (right plainRight rest))

theorem Visits.plain_iff (v : s.Visits i order) :
    (∀ j ∈ order, s.Plain j) ↔ ∀ j, s.Reachable i j → s.Plain j := by
  constructor
  · intro plain j hj
    exact plain j (v.mem_of_reachable plain hj)
  · intro plain j hj
    exact plain j (v.reachable hj)

end Expressions

end Store

/-- Where emission comes to: a node as a statement, or as an expression. -/
inductive Visit where
  | statement (node : Int)
  | expression (node : Int)

def Visit.node : Visit → Int
  | .statement i => i
  | .expression i => i

def Visit.kind : Visit → LoweringErrorKind
  | .statement _ => .unreachable
  | .expression _ => .unimplemented

namespace Store

def Blocks (s : Store) : Visit → Prop
  | .statement i => ¬ ∃ n arg, s.node? i = some n ∧ n.shape = .println arg
  | .expression i => ¬ s.Plain i

inductive Emission (s : Store) : List Int → List Visit → Prop where
  | nil : Emission s [] []
  | println {i arg : Int} {n : Node} {is order : List Int} {visits : List Visit}
      (h : s.node? i = some n) (hn : n.shape = .println arg) (argument : s.Visits arg order)
      (rest : Emission s is visits) :
      Emission s (i :: is) (.statement i :: (order.map .expression ++ visits))
  | other {i : Int} {n : Node} {is : List Int} {visits : List Visit} (h : s.node? i = some n)
      (hn : ∀ arg, n.shape ≠ .println arg) (rest : Emission s is visits) :
      Emission s (i :: is) (.statement i :: visits)

/-- The error is about the first visit that is blocked. -/
def FirstBlock (s : Store) (visits : List Visit) (err : GenerateError) : Prop :=
  ∃ before v after what, visits = before ++ v :: after ∧ (∀ w ∈ before, ¬ s.Blocks w) ∧
    s.Blocks v ∧ err = .node ⟨v.kind, v.node, what⟩

variable {s : Store} {is : List Int} {visits : List Visit}

theorem exists_emission (ordered : s.Ordered) (inside : ∀ i ∈ is, ∃ n, s.node? i = some n) :
    ∃ visits, s.Emission is visits := by
  induction is with
  | nil => exact ⟨[], .nil⟩
  | cons i is ih =>
    obtain ⟨⟨n, h⟩, later⟩ := List.forall_mem_cons.mp inside
    obtain ⟨visits, rest⟩ := ih later
    by_cases prints : ∃ arg, n.shape = .println arg
    · obtain ⟨arg, hn⟩ := prints
      obtain ⟨x, tree⟩ := ordered.exists_argument h hn
      obtain ⟨order, argument⟩ := tree.exists_visits
      exact ⟨_, .println h hn argument rest⟩
    · exact ⟨_, .other h (fun arg hn => prints ⟨arg, hn⟩) rest⟩

theorem blocks_statement {i : Int} {n : Node} (h : s.node? i = some n)
    (hn : ∀ arg, n.shape ≠ .println arg) : s.Blocks (.statement i) := by
  rintro ⟨k, arg, hk, hn'⟩
  cases h.symm.trans hk
  exact hn arg hn'

theorem Emission.free_iff (h : s.Emission is visits) :
    (∀ v ∈ visits, ¬ s.Blocks v) ↔ ∀ i ∈ is, ∃ n arg, s.node? i = some n ∧ n.shape = .println arg ∧
      ∀ j, s.Reachable arg j → s.Plain j := by
  induction h with
  | nil => simp
  | @println i arg n is order visits h hn argument rest ih =>
    have plain : (∀ v ∈ order.map Visit.expression, ¬ s.Blocks v) ↔
        ∀ j, s.Reachable arg j → s.Plain j := by
      rw [← argument.plain_iff]
      simp [Blocks]
    rw [List.forall_mem_cons, List.forall_mem_append, List.forall_mem_cons, ih, plain]
    constructor
    · rintro ⟨-, below, later⟩
      exact ⟨⟨n, arg, h, hn, below⟩, later⟩
    · rintro ⟨⟨k, arg', hk, hn', below⟩, later⟩
      cases h.symm.trans hk
      cases hn.symm.trans hn'
      exact ⟨fun blocked => blocked ⟨n, arg, h, hn⟩, below, later⟩
  | @other i n is visits h hn rest ih =>
    have blocked := blocks_statement h hn
    rw [List.forall_mem_cons, List.forall_mem_cons]
    constructor
    · rintro ⟨free, -⟩
      exact absurd blocked free
    · rintro ⟨⟨k, arg, hk, hn', -⟩, -⟩
      exact absurd ⟨k, arg, hk, hn'⟩ blocked

theorem FirstBlock.later {xs : List Visit} {err : GenerateError} (free : ∀ v ∈ xs, ¬ s.Blocks v)
    (h : s.FirstBlock visits err) : s.FirstBlock (xs ++ visits) err := by
  obtain ⟨before, v, after, what, rfl, unblocked, blocked, rfl⟩ := h
  refine ⟨xs ++ before, v, after, what, by simp, ?_, blocked, rfl⟩
  exact List.forall_mem_append.mpr ⟨free, unblocked⟩

/-- An obstacle in the argument of a statement that prints. -/
theorem FirstObstacle.firstBlock {i arg : Int} {n : Node} {order : List Int} {err : LoweringError}
    (h : s.node? i = some n) (hn : n.shape = .println arg) (first : s.FirstObstacle order (some err))
    (visits : List Visit) :
    s.FirstBlock (.statement i :: (order.map .expression ++ visits)) (.node err) := by
  obtain ⟨kind, before, after, rfl, plain, blocked⟩ := first
  obtain ⟨kind', node, what⟩ := err
  obtain rfl : kind' = .unimplemented := kind
  refine ⟨.statement i :: before.map .expression, .expression node,
    after.map .expression ++ visits, what, by simp, ?_, blocked, rfl⟩
  rw [List.forall_mem_cons, List.forall_mem_map]
  exact ⟨fun blocked => blocked ⟨n, arg, h, hn⟩, fun j hj blocked => blocked (plain j hj)⟩

end Store

/-- The statements are lowered one by one up to the first visit that is blocked. -/
theorem Lowering.statements_stop_first {p : Program} (ordered : p.store.Ordered) {is : List Int}
    (tokens : ∀ i ∈ is, ∀ n arg, p.store.node? i = some n → n.shape = .println arg →
      (atIndex? p.stream.tokens n.first).isSome)
    {visits : List Visit} (emission : p.store.Emission is visits) :
    (∃ parts, is.mapM (statement p) = .ok parts ∧ ∀ v ∈ visits, ¬ p.store.Blocks v) ∨
      ∃ err, is.mapM (statement p) = .error err ∧ p.store.FirstBlock visits err := by
  induction emission with
  | nil => exact .inl ⟨[], rfl, by simp⟩
  | @println i arg n is order visits h hn argument rest ih =>
    obtain ⟨here, later⟩ := List.forall_mem_cons.mp tokens
    obtain ⟨t, token⟩ := Option.isSome_iff_exists.mp (here n arg h hn)
    obtain ⟨x, tree⟩ := ordered.exists_argument h hn
    have first := tree.firstObstacle argument
    have free : ¬ p.store.Blocks (.statement i) := fun blocked => blocked ⟨n, arg, h, hn⟩
    cases obstacle : x.obstacle? with
    | some err =>
      rw [obstacle] at first
      refine .inr ⟨.node err, ?_, first.firstBlock h hn visits⟩
      rw [List.mapM_cons, statement]
      simp only [h, hn, token, tree.expr?_eq ordered, obstacle]
      rfl
    | none =>
      rw [obstacle] at first
      have unblocked : ∀ v ∈ .statement i :: order.map Visit.expression, ¬ p.store.Blocks v := by
        rw [List.forall_mem_cons, List.forall_mem_map]
        exact ⟨free, fun j hj blocked => blocked (first j hj)⟩
      obtain ⟨ls, lowered⟩ : ∃ ls, statement p i = .ok ls := by
        simp only [statement, h, hn, token, tree.expr?_eq ordered, obstacle]
        exact ⟨_, rfl⟩
      rw [List.mapM_cons, lowered]
      rcases ih later with ⟨parts, ok, rest⟩ | ⟨err, error, block⟩
      · rw [ok]
        exact .inl ⟨ls :: parts, rfl, List.forall_mem_append.mpr ⟨unblocked, rest⟩⟩
      · rw [error]
        exact .inr ⟨err, rfl, block.later unblocked⟩
  | @other i n is visits h hn rest ih =>
    have refused : statement p i =
        .error (.node ⟨.unreachable, i, n.kind.name ++ bytes " is not a statement"⟩) := by
      simp only [statement, h]
      rfl
    rw [List.mapM_cons, refused]
    exact .inr ⟨_, rfl, [], .statement i, visits, _, rfl, by simp, Store.blocks_statement h hn, rfl⟩

theorem Expr.obstacle?_kind {e : Expr} {err : LoweringError} (h : e.obstacle? = some err) :
    err.kind = .unimplemented := by
  induction e with
  | int node v => cases h
  | binary node op l r ihl ihr =>
    cases op with
    | add | mul => exact (Option.or_eq_some_iff.mp h).elim ihl fun h => ihr h.2
    | sub => exact (Option.or_eq_some_iff.mp h).elim ihr fun h => ihl h.2
    | div =>
      rw [obstacle?] at h
      split at h
      · cases h
        rfl
      · exact (Option.or_eq_some_iff.mp h).elim ihr fun h => ihl h.2
    | mod | less | lessEq | greater | greaterEq | eq | notEq | other _ =>
      cases h
      rfl
  | other node kind =>
    cases h
    rfl

/-- No name of a kind begins like the complaint about the stack. -/
theorem Shape.head_name (shape : Shape) : ∃ b rest, shape.kind.name = b :: rest ∧ b ≠ 115 := by
  have all : ∀ k ∈ NodeKind.all, ∃ b ∈ k.name.head?, b ≠ 115 := by decide
  have mem : shape.kind ∈ NodeKind.all := by cases shape <;> simp [kind, NodeKind.all]
  obtain ⟨b, hb, other⟩ := all _ mem
  obtain ⟨rest, name⟩ := List.head?_eq_some_iff.mp hb
  exact ⟨b, rest, name, other⟩

theorem Lowering.statement_ne_unbalanced (p : Program) (i j depth : Int) :
    statement p i ≠ .error (Emitter.unbalanced j depth) := by
  intro h
  unfold statement at h
  split at h
  · cases h
  · next n node =>
    split at h
    · split at h
      · next t x token tree =>
        split at h
        · next err obstacle =>
          cases h
          cases Expr.obstacle?_kind obstacle
        · cases h
      · cases h
    · obtain ⟨b, rest, name, other⟩ := n.shape.head_name
      obtain ⟨what, begins⟩ : ∃ what, bytes "stack depth " ++ decimal depth ++
          bytes " after statement" = 115 :: what := ⟨_, rfl⟩
      simp only [Emitter.unbalanced, Except.error.injEq, GenerateError.node.injEq,
        LoweringError.mk.injEq, name, begins, List.cons_append, List.cons.injEq] at h
      exact other h.2.2.1

theorem generate_ne_unbalanced (p : Program) (t : Target) (i depth : Int) :
    generate p t ≠ .error (Emitter.unbalanced i depth) := by
  intro h
  unfold generate at h
  split at h
  · cases h
  · split at h
    · cases h
    · next err failed =>
      cases h
      obtain ⟨j, -, refused⟩ := exists_of_mapM_eq_error failed
      exact statement_ne_unbalanced p j i depth refused

theorem generate_of_accepted {p : Program} {t : Target} (accepted : t.fault? = none) :
    generate p t = (p.store.stmts.toList.mapM (statement p)).map fun parts =>
      frame p t parts.flatten := by
  rw [generate, accepted]
  cases p.store.stmts.toList.mapM (statement p) <;> rfl

theorem Store.exists_stmt_node {s : Store} (valid : s.fault? = none) :
    ∀ i ∈ s.stmts.toList, ∃ n, s.node? i = some n := by
  intro i hi
  unfold fault? at valid
  split at valid
  · cases valid
  · have inside := List.find?_eq_none.mp (Option.map_eq_none_iff.mp valid) i hi
    simp only [inRange, Bool.not_eq_true, Bool.not_eq_false', Bool.and_eq_true, decide_eq_true_eq]
      at inside
    obtain ⟨k, rfl⟩ := Int.eq_ofNat_of_zero_le inside.1
    exact ⟨_, Array.getElem?_eq_getElem (by omega)⟩

/-- Generating a listing for a program whose store was built by its own operations and is valid, and
whose printing statements start at tokens. A target that is refused is refused first. -/
theorem generate_stops_at_first_block {p : Program} (built : p.store.Built)
    (valid : p.store.fault? = none)
    (tokens : ∀ i ∈ p.store.stmts.toList, ∀ n arg, p.store.node? i = some n →
      n.shape = .println arg → (atIndex? p.stream.tokens n.first).isSome) (t : Target) :
    (∀ err, t.fault? = some err → generate p t = .error (.target err)) ∧
    (t.fault? = none →
      ((∃ listing, generate p t = .ok listing) ↔
        ∀ i ∈ p.store.stmts.toList, ∃ n arg, p.store.node? i = some n ∧ n.shape = .println arg ∧
          ∀ j, p.store.Reachable arg j → p.store.Plain j) ∧
      (∃ visits, p.store.Emission p.store.stmts.toList visits) ∧
      ∀ visits err, p.store.Emission p.store.stmts.toList visits → generate p t = .error err →
        p.store.FirstBlock visits err) ∧
    ∀ {σ : Type} (sink : Emitter.Sink σ) (held : σ),
      (Emitter.writeTo sink held p t =
        match generate p t with
        | .ok listing =>
          ((sink.write held listing.render).1, (sink.write held listing.render).2.map .sink)
        | .error err => (held, some (.generate err))) ∧
      (∀ i depth, (Emitter.writeTo sink held p t).2 ≠
        some (.generate (Emitter.unbalanced i depth))) ∧
      (sink.TakesAll → ∀ err, (Emitter.writeTo sink held p t).2 = some err →
        (Emitter.writeTo sink held p t).1 = held) := by
  have ordered := built.ordered
  refine ⟨fun err refused => ?_, fun accepted => ?_, fun sink held => ?_⟩
  · rw [generate, refused]
  · obtain ⟨visits, emission⟩ := Store.exists_emission ordered (Store.exists_stmt_node valid)
    rw [generate_of_accepted accepted]
    refine ⟨?_, ⟨visits, emission⟩, fun visits err emission failed => ?_⟩
    · rw [← emission.free_iff]
      rcases statements_stop_first ordered tokens emission with ⟨parts, ok, free⟩ | ⟨err, error, block⟩
      · rw [ok]
        exact ⟨fun _ => free, fun _ => ⟨_, rfl⟩⟩
      · rw [error]
        obtain ⟨before, v, after, what, rfl, -, blocked, -⟩ := block
        constructor
        · rintro ⟨listing, generated⟩
          cases generated
        · intro free
          exact absurd blocked (free v (by simp))
    · rcases statements_stop_first ordered tokens emission with ⟨parts, ok, -⟩ | ⟨err, error, block⟩
      · rw [ok] at failed
        cases failed
      · rw [error] at failed
        cases failed
        exact block
  · have same := Emitter.writeTo_eq ordered sink held t
    refine ⟨same, fun i depth failed => ?_, fun all err => Emitter.writeTo_fails ordered all⟩
    rw [same] at failed
    cases outcome : generate p t with
    | ok listing =>
      rw [outcome] at failed
      obtain ⟨e, -, other⟩ := Option.map_eq_some_iff.mp failed
      cases other
    | error err =>
      rw [outcome] at failed
      cases failed
      exact generate_ne_unbalanced p t i depth outcome

/-- Prints `1 % 1 - true`, where both operands are in the way; the second statement is none. -/
def blockedDifference : Program where
  file := bytes "a.kt"
  stream := ⟨[], #[⟨.kwPrintln, 0, 7, ⟨1, 1⟩⟩]⟩
  store :=
    { nodes := #[⟨0, 0, none, .intLit 1⟩, ⟨0, 0, none, .boolLit true⟩,
        ⟨0, 0, none, .binary .mod 0 0⟩, ⟨0, 0, none, .binary .sub 2 1⟩, ⟨0, 0, none, .println 3⟩]
      types := #[]
      objects := #[]
      stmts := #[4, 1] }

theorem blockedDifference_built : blockedDifference.store.Built :=
  Store.Built.empty.node (n := ⟨0, 0, none, .intLit 1⟩) rfl
    |>.node (n := ⟨0, 0, none, .boolLit true⟩) rfl |>.node (n := ⟨0, 0, none, .binary .mod 0 0⟩) rfl
    |>.node (n := ⟨0, 0, none, .binary .sub 2 1⟩) rfl |>.node (n := ⟨0, 0, none, .println 3⟩) rfl
    |>.stmt 4 |>.stmt 1

theorem blockedDifference_tokens : ∀ i ∈ blockedDifference.store.stmts.toList, ∀ n arg,
    blockedDifference.store.node? i = some n → n.shape = .println arg →
      (atIndex? blockedDifference.stream.tokens n.first).isSome := by
  intro i hi n arg h hn
  simp only [blockedDifference, List.mem_cons, List.not_mem_nil, or_false] at hi
  rcases hi with rfl | rfl
  · cases h
    rfl
  · cases h
    cases hn

/-- The right operand is reported. -/
theorem blockedDifference_stops : blockedDifference.store.fault? = none ∧
    Target.linux.fault? = none ∧ ∃ what, ∀ held,
      Emitter.writeTo .buffer held blockedDifference .linux =
        (held, some (.generate (.node ⟨.unimplemented, 1, what⟩))) := by
  have valid : blockedDifference.store.fault? = none := by decide +kernel
  have accepted : Target.linux.fault? = none := by decide +kernel
  refine ⟨valid, accepted, ?_⟩
  obtain ⟨-, lowering, writes⟩ := generate_stops_at_first_block blockedDifference_built valid
    blockedDifference_tokens .linux
  obtain ⟨succeeds, -, first⟩ := lowering accepted
  have emission : blockedDifference.store.Emission [4, 1]
      [.statement 4, .expression 3, .expression 1, .expression 2, .statement 1] :=
    .println rfl rfl (.pair rfl rfl (.alone rfl rfl) (.alone rfl rfl))
      (.other rfl (fun arg hn => by cases hn) .nil)
  have plain : blockedDifference.store.Plain 3 := .binary rfl rfl (by simp) fun div => by cases div
  have blocked : ¬ blockedDifference.store.Plain 1 := by
    rintro (⟨h, hn⟩ | ⟨h, hn⟩) <;> cases h <;> cases hn
  cases outcome : generate blockedDifference .linux with
  | ok listing =>
    obtain ⟨n, arg, h, hn, below⟩ := succeeds.mp ⟨listing, outcome⟩ 4 (by decide)
    cases h
    cases hn
    exact absurd (below 1 (.single ⟨_, rfl, by decide⟩)) blocked
  | error err =>
    obtain ⟨before, v, after, what, split, free, stop, rfl⟩ := first _ err emission outcome
    refine ⟨what, fun held => ?_⟩
    rw [(writes .buffer held).1, outcome]
    rcases before with _ | ⟨a, _ | ⟨b, _ | ⟨c, rest⟩⟩⟩
    · cases split
      exact absurd ⟨_, _, rfl, rfl⟩ stop
    · cases split
      exact absurd plain stop
    · cases split
      rfl
    · simp only [List.cons_append, List.cons.injEq] at split
      exact absurd blocked (free (.expression 1) (by simp [split]))

end PrintLang
