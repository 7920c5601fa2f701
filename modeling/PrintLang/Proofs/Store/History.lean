import PrintLang.Proofs.Lowering.Value

set_option autoImplicit false

namespace PrintLang

namespace Store

theorem inRange_iff {n : Nat} {i : Int} : inRange n i = true ↔ 0 ≤ i ∧ i < n := by
  rw [inRange, Bool.and_eq_true, decide_eq_true_eq, decide_eq_true_eq]

theorem not_inRange_iff {n : Nat} {i : Int} : inRange n i = false ↔ i < 0 ∨ n ≤ i := by
  rw [← Bool.not_eq_true, inRange_iff]
  omega

inductive Addition where
  | node (n : Node)
  | type (t : Ty)
  | object (o : StringObject)
  | stmt (i : Int)
deriving DecidableEq, Repr

namespace Addition

def node? (count : Nat) : Addition → Option Node
  | .node n => if n.children.all (inRange count) then some n else none
  | _ => none

def type? : Addition → Option Ty
  | .type t => some t
  | _ => none

def object? : Addition → Option StringObject
  | .object o => some o
  | _ => none

def stmt? : Addition → Option Int
  | .stmt i => some i
  | _ => none

/-- The nodes that are accepted one after another when there are `count` already. -/
def nodes : (count : Nat) → List Addition → List Node
  | _, [] => []
  | count, a :: as =>
    match a.node? count with
    | some n => n :: nodes (count + 1) as
    | none => nodes count as

end Addition

/-- A refused node leaves the store as it is. -/
def add (s : Store) : Addition → Store
  | .node n =>
    match s.addNode n with
    | .ok (_, u) => u
    | .error _ => s
  | .type t => (s.addType t).2
  | .object o => (s.addObject o).2
  | .stmt i => s.addStmt i

def addAll (s : Store) (as : List Addition) : Store := as.foldl add s

section Step
variable {s : Store} {n : Node}

theorem addNode_of_children (h : ∀ c ∈ n.children, 0 ≤ c ∧ c < s.nodes.size) :
    s.addNode n = .ok (s.nodes.size, { s with nodes := s.nodes.push n }) := by
  have none : (n.children.find? fun c => !inRange s.nodes.size c) = none := by
    rw [List.find?_eq_none]
    intro c hc
    rw [inRange_iff.mpr (h c hc)]
    decide
  rw [addNode, none]

/-- The child that is reported is the first that is not there. -/
theorem addNode_of_stray (h : ∃ c ∈ n.children, c < 0 ∨ s.nodes.size ≤ c) :
    ∃ (earlier : List Int) (c : Int) (rest : List Int), n.children = earlier ++ c :: rest ∧
      (c < 0 ∨ s.nodes.size ≤ c) ∧ (∀ d ∈ earlier, 0 ≤ d ∧ d < s.nodes.size) ∧
      s.addNode n = .error ⟨s.nodes.size, n.kind, c⟩ := by
  cases found : n.children.find? fun c => !inRange s.nodes.size c with
  | none =>
    obtain ⟨c, hc, stray⟩ := h
    have here := List.find?_eq_none.mp found c hc
    rw [Bool.not_eq_true, Bool.not_eq_false', inRange_iff] at here
    omega
  | some c =>
    obtain ⟨stray, earlier, rest, split, fine⟩ := List.find?_eq_some_iff_append.mp found
    refine ⟨earlier, c, rest, split, ?_, ?_, ?_⟩
    · rw [← not_inRange_iff]
      simpa using stray
    · intro d hd
      simpa [inRange_iff] using fine d hd
    · rw [addNode, found]

theorem add_node_accepted (h : ∀ c ∈ n.children, 0 ≤ c ∧ c < s.nodes.size) :
    s.add (.node n) = { s with nodes := s.nodes.push n } := by
  rw [add, addNode_of_children h]

theorem add_node_refused (h : ∃ c ∈ n.children, c < 0 ∨ s.nodes.size ≤ c) : s.add (.node n) = s := by
  obtain ⟨-, c, -, -, -, -, refused⟩ := addNode_of_stray h
  rw [add, refused]

theorem nodes_add (s : Store) (a : Addition) :
    (s.add a).nodes.toList = s.nodes.toList ++ (a.node? s.nodes.size).toList := by
  cases a with
  | node n =>
    by_cases h : n.children.all (inRange s.nodes.size) = true
    · have inside : ∀ c ∈ n.children, 0 ≤ c ∧ c < s.nodes.size := by
        intro c hc
        exact inRange_iff.mp (List.all_eq_true.mp h c hc)
      rw [add_node_accepted inside, Addition.node?, if_pos h]
      exact Array.toList_push
    · have stray : ∃ c ∈ n.children, c < 0 ∨ s.nodes.size ≤ c := by
        rw [Bool.not_eq_true, List.all_eq_false] at h
        obtain ⟨c, hc, out⟩ := h
        exact ⟨c, hc, not_inRange_iff.mp (Bool.not_eq_true _ ▸ out)⟩
      rw [add_node_refused stray, Addition.node?, if_neg h]
      exact (List.append_nil _).symm
  | type _ | object _ | stmt _ => exact (List.append_nil _).symm

/-- A node that is added, or refused, leaves the other sequences alone. -/
theorem add_node_others (s : Store) (n : Node) : (s.add (.node n)).types = s.types ∧
    (s.add (.node n)).objects = s.objects ∧ (s.add (.node n)).stmts = s.stmts := by
  rw [add]
  unfold addNode
  split
  · next h =>
    split at h
    · cases h
    · cases h
      exact ⟨rfl, rfl, rfl⟩
  · exact ⟨rfl, rfl, rfl⟩

theorem types_add (s : Store) (a : Addition) :
    (s.add a).types.toList = s.types.toList ++ a.type?.toList := by
  cases a with
  | node n =>
    rw [(s.add_node_others n).1]
    exact (List.append_nil _).symm
  | type t => exact Array.toList_push
  | object _ | stmt _ => exact (List.append_nil _).symm

theorem objects_add (s : Store) (a : Addition) :
    (s.add a).objects.toList = s.objects.toList ++ a.object?.toList := by
  cases a with
  | node n =>
    rw [(s.add_node_others n).2.1]
    exact (List.append_nil _).symm
  | object o => exact Array.toList_push
  | type _ | stmt _ => exact (List.append_nil _).symm

theorem stmts_add (s : Store) (a : Addition) :
    (s.add a).stmts.toList = s.stmts.toList ++ a.stmt?.toList := by
  cases a with
  | node n =>
    rw [(s.add_node_others n).2.2]
    exact (List.append_nil _).symm
  | stmt i => exact Array.toList_push
  | type _ | object _ => exact (List.append_nil _).symm

theorem Built.add (h : s.Built) (a : Addition) : (s.add a).Built := by
  cases a with
  | node n =>
    cases added : s.addNode n with
    | error e =>
      rw [Store.add, added]
      exact h
    | ok r =>
      rw [Store.add, added]
      exact .node h added
  | type t => exact .type h t
  | object o => exact .object h o
  | stmt i => exact .stmt h i

end Step

theorem nodes_addAll (s : Store) (as : List Addition) :
    (s.addAll as).nodes.toList = s.nodes.toList ++ Addition.nodes s.nodes.size as := by
  induction as generalizing s with
  | nil => exact (List.append_nil _).symm
  | cons a as ih =>
    have step := s.nodes_add a
    have size := congrArg List.length step
    rw [List.length_append, Array.length_toList, Array.length_toList] at size
    change ((s.add a).addAll as).nodes.toList = _
    rw [ih, step, size, Addition.nodes]
    cases a.node? s.nodes.size with
    | none => simp
    | some n => simp

/-- A sequence to which each call adds what it has for it holds just that after all of them. -/
theorem toList_addAll {α : Type} {f : Store → Array α} {g : Addition → Option α}
    (step : ∀ s a, (f (s.add a)).toList = (f s).toList ++ (g a).toList) (s : Store)
    (as : List Addition) : (f (s.addAll as)).toList = (f s).toList ++ as.filterMap g := by
  induction as generalizing s with
  | nil => exact (List.append_nil _).symm
  | cons a as ih =>
    change (f ((s.add a).addAll as)).toList = _
    rw [ih, step, List.append_assoc, List.filterMap_cons]
    cases g a <;> rfl

theorem Built.addAll {s : Store} (h : s.Built) (as : List Addition) : (s.addAll as).Built := by
  induction as generalizing s with
  | nil => exact h
  | cons a as ih => exact ih (h.add a)

theorem atIndex?_of_prefix {α : Type} {xs ys : Array α} {zs : List α} {i : Int} {x : α}
    (grown : ys.toList = xs.toList ++ zs) (found : atIndex? xs i = some x) :
    atIndex? ys i = some x := by
  cases i with
  | negSucc k => cases found
  | ofNat k =>
    change xs[k]? = some x at found
    change ys[k]? = some x
    rw [← Array.getElem?_toList] at found ⊢
    have inside := (List.getElem?_eq_some_iff.mp found).choose
    rw [grown, List.getElem?_append_left inside, found]

theorem atIndex?_push_size {α : Type} (xs : Array α) (x : α) : atIndex? (xs.push x) xs.size = some x := by
  rw [atIndex?_natCast, Array.getElem?_push_size]

/-- A node has no fault when its children stand before it and its type is there, if it has one. -/
theorem nodeFault?_eq_none_iff {s : Store} {i : Nat} {n : Node} : s.nodeFault? i n = none ↔
    (∀ c ∈ n.children, 0 ≤ c ∧ c < i) ∧ ∀ t, n.type = some t → 0 ≤ t ∧ t < s.types.size := by
  have children : (n.children.find? fun c => !inRange i c) = none ↔
      ∀ c ∈ n.children, 0 ≤ c ∧ c < i := by
    rw [List.find?_eq_none]
    simp only [Bool.not_eq_true, Bool.not_eq_false', inRange_iff]
  rw [nodeFault?, ← children]
  cases n.children.find? fun c => !inRange i c with
  | some c => simp
  | none =>
    cases n.type with
    | none => simp
    | some t => simp [inRange_iff]

theorem fault?_eq_none_iff {s : Store} : s.fault? = none ↔
    (∀ i n, s.nodes[i]? = some n → s.nodeFault? i n = none) ∧
      ∀ i ∈ s.stmts, 0 ≤ i ∧ i < s.nodes.size := by
  have nodes : (∀ p ∈ s.nodes.toList.zipIdx, s.nodeFault? p.2 p.1 = none) ↔
      ∀ i n, s.nodes[i]? = some n → s.nodeFault? i n = none := by
    constructor
    · intro h i n found
      exact h (n, i) (List.mem_zipIdx_iff_getElem?.mpr (Array.getElem?_toList ▸ found))
    · intro h p mem
      exact h p.2 p.1 (Array.getElem?_toList ▸ List.mem_zipIdx_iff_getElem?.mp mem)
  rw [fault?, ← nodes]
  split
  · next f found =>
    obtain ⟨p, mem, fault⟩ := List.exists_of_findSome?_eq_some found
    refine ⟨fun h => (Option.some_ne_none f h).elim, fun h => ?_⟩
    cases fault.symm.trans (h.1 p mem)
  · next clean =>
    have clean : ∀ p ∈ s.nodes.toList.zipIdx, s.nodeFault? p.2 p.1 = none :=
      List.findSome?_eq_none_iff.mp clean
    simp only [Option.map_eq_none_iff, List.find?_eq_none, Bool.not_eq_true, Bool.not_eq_false',
      inRange_iff, Array.mem_toList_iff]
    exact ⟨fun h => ⟨clean, h⟩, And.right⟩

def IsChild (s : Store) (c i : Int) : Prop := ∃ n, s.node? i = some n ∧ c ∈ n.children

theorem Ordered.wellFounded {s : Store} (ordered : s.Ordered) : WellFounded s.IsChild := by
  refine Subrelation.wf ?_ (InvImage.wf Int.toNat Nat.lt_wfRel.wf)
  rintro c i ⟨n, hn, hc⟩
  obtain ⟨low, below, -⟩ := ordered.child hn hc
  show c.toNat < i.toNat
  omega

/-- What is true of the store after the calls `before`, whatever calls come later. -/
structure Kept (s : Store) (before later : List Addition) : Prop where
  nodes : s.nodes.toList = Addition.nodes 0 before
  types : s.types.toList = before.filterMap Addition.type?
  objects : s.objects.toList = before.filterMap Addition.object?
  stmts : s.stmts.toList = before.filterMap Addition.stmt?
  ordered : s.Ordered
  /-- A child that is negative or not there yet, and the first such child is reported. -/
  refused : ∀ n : Node, (∃ c ∈ n.children, c < 0 ∨ s.nodes.size ≤ c) → s.add (.node n) = s ∧
    ∃ (earlier : List Int) (c : Int) (rest : List Int), n.children = earlier ++ c :: rest ∧
      (c < 0 ∨ s.nodes.size ≤ c) ∧ (∀ d ∈ earlier, 0 ≤ d ∧ d < s.nodes.size) ∧
      s.addNode n = .error ⟨s.nodes.size, n.kind, c⟩
  node : ∀ n : Node, (∀ c ∈ n.children, 0 ≤ c ∧ c < s.nodes.size) →
    ∃ u, s.addNode n = .ok (s.nodes.size, u) ∧ (u.addAll later).node? s.nodes.size = some n
  type : ∀ t, ((s.addType t).2.addAll later).type? (s.addType t).1 = some t
  object : ∀ o, ((s.addObject o).2.addAll later).object? (s.addObject o).1 = some o
  /-- The check finds nothing when every type is absent or there and every statement is a node. -/
  valid : s.fault? = none ↔ (∀ n ∈ s.nodes, ∀ t, n.type = some t → 0 ≤ t ∧ t < s.types.size) ∧
    ∀ i ∈ s.stmts, 0 ≤ i ∧ i < s.nodes.size
  ends : WellFounded s.IsChild

end Store

/-- The store is sound after any calls on a new one, refused ones among them. -/
theorem store_keeps_additions (before later : List Store.Addition) :
    (Store.empty.addAll before).Kept before later := by
  have ordered := (Store.Built.empty.addAll before).ordered
  have types := Store.toList_addAll Store.types_add
  have objects := Store.toList_addAll Store.objects_add
  refine ⟨Store.nodes_addAll .empty before, types .empty before, objects .empty before,
    Store.toList_addAll Store.stmts_add .empty before, ordered, ?_, ?_, ?_, ?_, ?_,
    ordered.wellFounded⟩
  · intro n stray
    exact ⟨Store.add_node_refused stray, Store.addNode_of_stray stray⟩
  · intro n inside
    refine ⟨_, Store.addNode_of_children inside, ?_⟩
    exact Store.atIndex?_of_prefix (Store.nodes_addAll _ later) (Store.atIndex?_push_size _ n)
  · intro t
    exact Store.atIndex?_of_prefix (types _ later) (Store.atIndex?_push_size _ t)
  · intro o
    exact Store.atIndex?_of_prefix (objects _ later) (Store.atIndex?_push_size _ o)
  · rw [Store.fault?_eq_none_iff]
    refine and_congr_left fun _ => ?_
    constructor
    · intro h n hn t ht
      obtain ⟨i, found⟩ := Array.mem_iff_getElem?.mp hn
      exact (Store.nodeFault?_eq_none_iff.mp (h i n found)).2 t ht
    · intro h i n found
      rw [Store.nodeFault?_eq_none_iff]
      exact ⟨ordered i n found, h n (Array.mem_of_getElem? found)⟩

end PrintLang
