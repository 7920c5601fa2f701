import PrintLang.Index
import PrintLang.Store.Node
import PrintLang.Store.Ty

/-!
# The store of a compilation unit

Nodes, types, string objects and top-level statements live in four append-only sequences. A node is
accepted only after its children, so following children always ends.
-/

set_option autoImplicit false

namespace PrintLang

/-- The payload of a string literal, with the token that it stands for. -/
structure StringObject where
  token : Int
  value : Bytes
deriving DecidableEq, Repr

structure ForwardChild where
  node : Nat
  kind : NodeKind
  child : Int
deriving DecidableEq, Repr

def ForwardChild.message (e : ForwardChild) : Bytes :=
  bytes "compiler: node " ++ decimalNat e.node ++ bytes " (" ++ e.kind.name ++
    bytes ") references child " ++ decimal e.child ++ bytes " not yet allocated"

inductive StoreFault where
  | child (node : Nat) (kind : NodeKind) (child : Int)
  | type (node : Nat) (kind : NodeKind) (type : Int)
  | stmt (node : Int)
deriving DecidableEq, Repr

def StoreFault.message : StoreFault → Bytes
  | .child i k c =>
    bytes "node " ++ decimalNat i ++ bytes " (" ++ k.name ++ bytes "): child " ++ decimal c ++
      bytes " is not allocated before its parent"
  | .type i k t =>
    bytes "node " ++ decimalNat i ++ bytes " (" ++ k.name ++ bytes "): type " ++ decimal t ++
      bytes " out of range"
  | .stmt n => bytes "statement " ++ decimal n ++ bytes " out of range"

structure Store where
  nodes : Array Node
  types : Array Ty
  objects : Array StringObject
  stmts : Array Int
deriving DecidableEq, Repr

namespace Store

def empty : Store := ⟨#[], #[], #[], #[]⟩

def inRange (n : Nat) (i : Int) : Bool := 0 ≤ i && i < n

def addNode (s : Store) (n : Node) : Except ForwardChild (Nat × Store) :=
  match n.children.find? fun c => !inRange s.nodes.size c with
  | some c => .error ⟨s.nodes.size, n.kind, c⟩
  | none => .ok (s.nodes.size, { s with nodes := s.nodes.push n })

def addType (s : Store) (t : Ty) : Nat × Store :=
  (s.types.size, { s with types := s.types.push t })

def addObject (s : Store) (o : StringObject) : Nat × Store :=
  (s.objects.size, { s with objects := s.objects.push o })

def addStmt (s : Store) (n : Int) : Store := { s with stmts := s.stmts.push n }

def node? (s : Store) (i : Int) : Option Node := atIndex? s.nodes i

def type? (s : Store) (i : Int) : Option Ty := atIndex? s.types i

def object? (s : Store) (i : Int) : Option StringObject := atIndex? s.objects i

def nodeFault? (s : Store) (i : Nat) (n : Node) : Option StoreFault :=
  match n.children.find? fun c => !inRange i c with
  | some c => some (.child i n.kind c)
  | none =>
    match n.type with
    | none => none
    | some t => if inRange s.types.size t then none else some (.type i n.kind t)

/-- The first fault of the store: nodes in order, then statements. -/
def fault? (s : Store) : Option StoreFault :=
  match s.nodes.toList.zipIdx.findSome? fun (n, i) => s.nodeFault? i n with
  | some f => some f
  | none => (s.stmts.toList.find? fun st => !inRange s.nodes.size st).map .stmt

end Store

end PrintLang
