import PrintLang.Diagnostic
import PrintLang.Listing.Instr
import PrintLang.Store

set_option autoImplicit false

namespace PrintLang

/-- The tree below a node. Nodes without a lowering keep their kind only. -/
inductive Expr where
  | int (node : Nat) (value : Int64)
  | binary (node : Nat) (op : BinaryOp) (left right : Expr)
  | other (node : Nat) (kind : NodeKind)
deriving DecidableEq, Repr

/-- The tree below node `i`. There is none when `i` is no node or a child does not stand before its
parent. -/
def Store.expr? (s : Store) (i : Nat) : Option Expr :=
  match s.nodes[i]? with
  | none => none
  | some n =>
    match n.shape with
    | .intLit v => some (.int i v)
    | .binary op l r =>
      if _h : 0 ≤ l ∧ l < i ∧ 0 ≤ r ∧ r < i then
        match s.expr? l.toNat, s.expr? r.toNat with
        | some a, some b => some (.binary i op a b)
        | _, _ => none
      else none
    | shape => some (.other i shape.kind)
termination_by i
decreasing_by all_goals omega

namespace Expr

/-- A literal zero on the right of a division is refused. -/
def isZero : Expr → Bool
  | .int _ v => v == 0
  | _ => false

def unimplemented (node : Nat) (what : Bytes) : LoweringError := ⟨.unimplemented, node, what⟩

def missingKind : NodeKind → Bytes
  | .boolLit => bytes "boolean literal expression"
  | .charLit => bytes "char literal expression"
  | .stringLit => bytes "string literal expression"
  | k => k.name ++ bytes " expression"

/-- The first node without a lowering: a node before its operands, and these in the order in which
they are evaluated. -/
def obstacle? : Expr → Option LoweringError
  | .int _ _ => none
  | .binary node op l r =>
    match op with
    | .add => l.obstacle?.or r.obstacle?
    | .mul => l.obstacle?.or r.obstacle?
    | .sub => r.obstacle?.or l.obstacle?
    | .div =>
      if r.isZero then some (unimplemented node (bytes "division by zero"))
      else r.obstacle?.or l.obstacle?
    | .mod => some (unimplemented node (bytes "modulo operator"))
    | op => some (unimplemented node (op.symbol ++ bytes " operator"))
  | .other node kind => some (unimplemented node (missingKind kind))

/-- Loads a constant into `%rax`; one beyond 32 bits needs the long form. -/
def load (v : Int64) : Instr :=
  if -2147483648 ≤ v ∧ v ≤ 2147483647 then ⟨.move .mov, [.immediate v, .reg .rax]⟩
  else ⟨.move .movabs, [.immediate v, .reg .rax]⟩

/-- Evaluates `first` and keeps it on the stack, evaluates `second`, and gets the former back in
`%rdi` beside the latter in `%rax`. -/
def pair (first second : List Instr) : List Instr :=
  first ++ [⟨.push, [.reg .rax]⟩] ++ second ++ [⟨.pop, [.reg .rdi]⟩]

/-- The instructions that leave the value in `%rax`. For a difference and a quotient the right
operand is evaluated first. Nodes without a lowering have no instructions. -/
def code : Expr → List Instr
  | .int _ v => [load v]
  | .binary _ op l r =>
    match op with
    | .add => pair l.code r.code ++ [⟨.alu .add, [.reg .rdi, .reg .rax]⟩]
    | .mul => pair l.code r.code ++ [⟨.alu .imul, [.reg .rdi, .reg .rax]⟩]
    | .sub => pair r.code l.code ++ [⟨.alu .sub, [.reg .rdi, .reg .rax]⟩]
    | .div => pair r.code l.code ++ [⟨.cqo, []⟩, ⟨.idiv, [.reg .rdi]⟩]
    | _ => []
  | .other _ _ => []

end Expr

end PrintLang
