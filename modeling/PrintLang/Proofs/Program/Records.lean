import Mathlib.Algebra.Ring.Nat
import Mathlib.Data.List.Induction
import PrintLang.Program
import PrintLang.Proofs.Store.History

/-!
# The store of a sequence of statements

Statement `k` owns two places in the sequences of nodes and types: `2 * k` for its literal and
`2 * k + 1` for itself. A string literal owns one object more. Adding a statement leaves what is
there in place, so all of it can be found at the end, and the check of the store finds no fault.
-/

set_option autoImplicit false

namespace PrintLang

structure Store.Records (s : Store) (sts : List Statement) : Prop where
  nodes_size : s.nodes.size = 2 * sts.length
  types_size : s.types.size = 2 * sts.length
  stmts : s.stmts.toList = (List.range sts.length).map fun k => ((2 * k + 1 : Nat) : Int)
  objects : s.objects.toList = sts.flatMap fun st => (st.literal.objects st.token).toList
  literal : ∀ {k : Nat} {st : Statement}, sts[k]? = some st → ∃ object : Nat,
    s.nodes[2 * k]? = some ⟨st.token, st.token, some (2 * k : Nat), st.literal.shape object⟩ ∧
    s.types[2 * k]? = some (.primitive st.literal.type) ∧
    ∀ v, st.literal = .string v → s.objects[object]? = some ⟨st.token, v⟩
  println : ∀ {k : Nat} {st : Statement}, sts[k]? = some st →
    s.nodes[2 * k + 1]? =
      some ⟨st.first, st.last, some (2 * k + 1 : Nat), .println (2 * k : Nat)⟩ ∧
    s.types[2 * k + 1]? = some (.primitive .unit)

theorem getElem?_append_old {α : Type} {xs : Array α} {i : Nat} {x : α} (h : xs[i]? = some x)
    (ys : Array α) : (xs ++ ys)[i]? = some x := by
  obtain ⟨hi, -⟩ := Array.getElem?_eq_some_iff.mp h
  rw [Array.getElem?_append_left hi, h]

theorem getElem?_append_new {α : Type} (xs ys : Array α) (i : Nat) :
    (xs ++ ys)[xs.size + i]? = ys[i]? := by
  rw [Array.getElem?_append_right (Nat.le_add_right _ _), Nat.add_sub_cancel_left]

/-- The calls that add a statement to a store: the text of a string, the literal with its type, the
statement with its own, and the statement's place. -/
def Statement.additions (s : Store) (st : Statement) : List Store.Addition :=
  (st.literal.objects st.token).toList.map .object ++
    [.type (.primitive st.literal.type),
      .node ⟨st.token, st.token, some s.types.size, st.literal.shape s.objects.size⟩,
      .type (.primitive .unit),
      .node ⟨st.first, st.last, some (s.types.size + 1 : Nat), .println s.nodes.size⟩,
      .stmt (s.nodes.size + 1 : Nat)]

theorem Literal.children_node (l : Literal) (first last : Int) (type : Option Int) (object : Int) :
    Node.children ⟨first, last, type, l.shape object⟩ = [] := by
  cases l <;> rfl

namespace Store

/-- An object leaves the other sequences alone, so it does not matter how many there are. -/
theorem addAll_objects (s : Store) (os : List StringObject) :
    s.addAll (os.map .object) = { s with objects := s.objects ++ os.toArray } := by
  induction os generalizing s with
  | nil => simp [addAll]
  | cons o os ih =>
    change (s.addObject o).2.addAll (os.map .object) = _
    rw [ih]
    simp [addObject]

/-- Both nodes are accepted: a literal has no children, and that of the statement is the literal. -/
theorem addStatement_eq_addAll (s : Store) (st : Statement) :
    s.addStatement st = s.addAll (st.additions s) := by
  have literal (u : Store) (n : Node) (h : n.children = []) :
      u.add (.node n) = { u with nodes := u.nodes.push n } :=
    add_node_accepted (by rw [h]; exact nofun)
  have println (u : Store) (n : Node) (h : n.children = [(s.nodes.size : Int)])
      (there : s.nodes.size < u.nodes.size) :
      u.add (.node n) = { u with nodes := u.nodes.push n } := by
    refine add_node_accepted fun c hc => ?_
    rw [h, List.mem_singleton] at hc
    omega
  rw [Statement.additions, addAll, List.foldl_append]
  change _ = addAll (s.addAll _) _
  rw [addAll_objects]
  simp only [addAll, List.foldl_cons, List.foldl_nil]
  rw [literal _ _ (Literal.children_node ..), println _ _ rfl (by simp [add, addType])]
  simp only [add, addType, addStmt, Array.toArray_toList]
  rfl

theorem Built.addStatement {s : Store} (h : s.Built) (st : Statement) : (s.addStatement st).Built := by
  rw [addStatement_eq_addAll]
  exact h.addAll _

theorem built_ofStatements (sts : List Statement) : (ofStatements sts).Built := by
  induction sts using List.reverseRecOn with
  | nil => exact .empty
  | append_singleton sts st ih =>
    rw [ofStatements, List.foldl_append]
    exact ih.addStatement st

end Store

namespace Store.Records

variable {s : Store} {sts : List Statement}

theorem addStatement (h : s.Records sts) (st : Statement) :
    (s.addStatement st).Records (sts ++ [st]) := by
  have two : (sts ++ [st]).length = sts.length + 1 := List.length_append
  -- An index of the longer list is an old one or that of the new statement.
  have place {k : Nat} {x : Statement} (hk : (sts ++ [st])[k]? = some x) :
      sts[k]? = some x ∨ k = sts.length ∧ x = st := by
    obtain lt | ge := Nat.lt_or_ge k sts.length
    · rw [List.getElem?_append_left lt] at hk
      exact .inl hk
    · have bound := (List.getElem?_eq_some_iff.mp hk).choose
      obtain rfl : k = sts.length := by omega
      rw [List.getElem?_concat_length] at hk
      exact .inr ⟨rfl, (Option.some.inj hk).symm⟩
  constructor
  case nodes_size =>
    change (s.nodes ++ _).size = _
    rw [Array.size_append, h.nodes_size, two]
    rfl
  case types_size =>
    change (s.types ++ _).size = _
    rw [Array.size_append, h.types_size, two]
    rfl
  case stmts =>
    change (s.stmts.push _).toList = _
    rw [Array.toList_push, h.stmts, h.nodes_size, two, List.range_succ, List.map_append]
    rfl
  case objects =>
    change (s.objects ++ _).toList = _
    rw [Array.toList_append, h.objects, List.flatMap_append, List.flatMap_singleton]
  case literal =>
    intro k x hk
    obtain old | ⟨rfl, rfl⟩ := place hk
    · obtain ⟨object, node, type, text⟩ := h.literal old
      exact ⟨object, getElem?_append_old node _, getElem?_append_old type _,
        fun v hv => getElem?_append_old (text v hv) _⟩
    · refine ⟨s.objects.size, ?_, ?_, ?_⟩
      · rw [← h.nodes_size]
        refine (getElem?_append_new s.nodes _ 0).trans ?_
        rw [h.nodes_size, ← h.types_size]
        rfl
      · rw [← h.types_size]
        exact getElem?_append_new s.types _ 0
      · intro v hv
        refine (getElem?_append_new s.objects _ 0).trans ?_
        rw [hv]
        rfl
  case println =>
    intro k x hk
    obtain old | ⟨rfl, rfl⟩ := place hk
    · obtain ⟨node, type⟩ := h.println old
      exact ⟨getElem?_append_old node _, getElem?_append_old type _⟩
    · constructor
      · rw [← h.nodes_size]
        refine (getElem?_append_new s.nodes _ 1).trans ?_
        rw [h.nodes_size, ← h.types_size]
        rfl
      · rw [← h.types_size]
        exact getElem?_append_new s.types _ 1

/-- Every node is a literal or the statement around it, so it refers only to what stands before. -/
theorem nodeFault?_eq_none (h : s.Records sts) {i : Nat} {n : Node} (found : s.nodes[i]? = some n) :
    s.nodeFault? i n = none := by
  have bound : i < 2 * sts.length := by
    rw [← h.nodes_size]
    exact (Array.getElem?_eq_some_iff.mp found).choose
  obtain ⟨st, hst⟩ : ∃ st, sts[i / 2]? = some st := ⟨_, List.getElem?_eq_getElem (by omega)⟩
  rw [nodeFault?_eq_none_iff, h.types_size]
  obtain even | odd := Nat.mod_two_eq_zero_or_one i
  · obtain ⟨object, node, -⟩ := h.literal hst
    rw [show 2 * (i / 2) = i by omega, found] at node
    obtain rfl := Option.some.inj node
    refine ⟨by simp [Literal.children_node], ?_⟩
    rintro t ⟨⟩
    omega
  · obtain ⟨node, -⟩ := h.println hst
    rw [show 2 * (i / 2) + 1 = i by omega, found] at node
    obtain rfl := Option.some.inj node
    constructor
    · intro c hc
      obtain rfl := List.mem_singleton.mp hc
      omega
    · rintro t ⟨⟩
      omega

theorem fault?_eq_none (h : s.Records sts) : s.fault? = none := by
  refine fault?_eq_none_iff.mpr ⟨fun i n found => h.nodeFault?_eq_none found, ?_⟩
  intro st mem
  rw [← Array.mem_toList_iff, h.stmts] at mem
  obtain ⟨k, hk, rfl⟩ := List.mem_map.mp mem
  have := List.mem_range.mp hk
  rw [h.nodes_size]
  omega

end Store.Records

theorem Store.records_ofStatements (sts : List Statement) :
    (Store.ofStatements sts).Records sts := by
  induction sts using List.reverseRecOn with
  | nil => exact ⟨rfl, rfl, rfl, rfl, nofun, nofun⟩
  | append_singleton sts st ih =>
    rw [ofStatements, List.foldl_append]
    exact ih.addStatement st

end PrintLang
