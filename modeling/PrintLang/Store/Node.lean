import PrintLang.Bytes.Quoted

set_option autoImplicit false

namespace PrintLang

/-- The variant of a node. `other` stands for a code outside the table. -/
inductive NodeKind where
  | println
  | boolLit
  | stringLit
  | intLit
  | charLit
  | binary
  | negation
  | ifElse
  | block
  | varRef
  | assign
  | whileLoop
  | funDecl
  | call
  | returnStmt
  | syscall
  | classDecl
  | newInstance
  | member
  | other (code : Int)
deriving DecidableEq, Repr

namespace NodeKind

def all : List NodeKind :=
  [.println, .boolLit, .stringLit, .intLit, .charLit, .binary, .negation, .ifElse, .block,
   .varRef, .assign, .whileLoop, .funDecl, .call, .returnStmt, .syscall, .classDecl,
   .newInstance, .member]

def ofCode (code : Int) : NodeKind :=
  match code with
  | .ofNat n => all.getD n (.other code)
  | .negSucc _ => .other code

def name : NodeKind → Bytes
  | .println => bytes "Println"
  | .boolLit => bytes "BoolLit"
  | .stringLit => bytes "StringLit"
  | .intLit => bytes "IntLit"
  | .charLit => bytes "CharLit"
  | .binary => bytes "Binary"
  | .negation => bytes "Not"
  | .ifElse => bytes "If"
  | .block => bytes "Block"
  | .varRef => bytes "VarRef"
  | .assign => bytes "Assign"
  | .whileLoop => bytes "While"
  | .funDecl => bytes "FunDecl"
  | .call => bytes "Call"
  | .returnStmt => bytes "Return"
  | .syscall => bytes "Syscall"
  | .classDecl => bytes "ClassDecl"
  | .newInstance => bytes "Instance"
  | .member => bytes "Member"
  | .other c => bytes "NodeKind(" ++ decimal c ++ bytes ")"

end NodeKind

inductive BinaryOp where
  | add
  | sub
  | mul
  | div
  | mod
  | less
  | lessEq
  | greater
  | greaterEq
  | eq
  | notEq
  | other (code : Int)
deriving DecidableEq, Repr

namespace BinaryOp

def all : List BinaryOp :=
  [.add, .sub, .mul, .div, .mod, .less, .lessEq, .greater, .greaterEq, .eq, .notEq]

def ofCode (code : Int) : BinaryOp :=
  match code with
  | .ofNat n => all.getD n (.other code)
  | .negSucc _ => .other code

def symbol : BinaryOp → Bytes
  | .add => bytes "+"
  | .sub => bytes "-"
  | .mul => bytes "*"
  | .div => bytes "/"
  | .mod => bytes "%"
  | .less => bytes "<"
  | .lessEq => bytes "<="
  | .greater => bytes ">"
  | .greaterEq => bytes ">="
  | .eq => bytes "=="
  | .notEq => bytes "!="
  | .other c => bytes "BinaryOp(" ++ decimal c ++ bytes ")"

end BinaryOp

/-- The content of a node. An absent `else` branch or return value is `none`. -/
inductive Shape where
  | println (arg : Int)
  | boolLit (value : Bool)
  | stringLit (object : Int)
  | intLit (value : Int64)
  | charLit (value : UInt8)
  | binary (op : BinaryOp) (left right : Int)
  | negation (operand : Int)
  | ifElse (cond thenBranch : Int) (elseBranch : Option Int)
  | block (stmts : List Int)
  | varRef (name : Int)
  | assign (target value : Int)
  | whileLoop (cond body : Int)
  | funDecl (name : Int) (params : List Int) (body : Int)
  | call (callee : Int) (args : List Int)
  | returnStmt (value : Option Int)
  | syscall (args : List Int)
  | classDecl (name : Int) (members : List Int)
  | newInstance (args : List Int)
  | member (object name : Int)
deriving DecidableEq, Repr

def nodeList (refs : List Int) : Bytes :=
  bytes "(" ++ Bytes.join (bytes ", ") (refs.map fun r => bytes "#" ++ decimal r) ++ bytes ")"

namespace Shape

def kind : Shape → NodeKind
  | .println _ => .println
  | .boolLit _ => .boolLit
  | .stringLit _ => .stringLit
  | .intLit _ => .intLit
  | .charLit _ => .charLit
  | .binary _ _ _ => .binary
  | .negation _ => .negation
  | .ifElse _ _ _ => .ifElse
  | .block _ => .block
  | .varRef _ => .varRef
  | .assign _ _ => .assign
  | .whileLoop _ _ => .whileLoop
  | .funDecl _ _ _ => .funDecl
  | .call _ _ => .call
  | .returnStmt _ => .returnStmt
  | .syscall _ => .syscall
  | .classDecl _ _ => .classDecl
  | .newInstance _ => .newInstance
  | .member _ _ => .member

def children : Shape → List Int
  | .println a => [a]
  | .binary _ l r => [l, r]
  | .negation a => [a]
  | .ifElse c t e => c :: t :: e.toList
  | .block ss => ss
  | .assign _ v => [v]
  | .whileLoop c b => [c, b]
  | .funDecl _ _ b => [b]
  | .call _ as => as
  | .returnStmt v => v.toList
  | .syscall as => as
  | .classDecl _ ms => ms
  | .newInstance as => as
  | .member o _ => [o]
  | _ => []

def optional (r : Option Int) : Bytes := bytes "#" ++ decimal (r.getD (-1))

def render : Shape → Bytes
  | .println a => bytes "Println(#" ++ decimal a ++ bytes ")"
  | .boolLit v => bytes "BoolLit(" ++ (if v then bytes "true" else bytes "false") ++ bytes ")"
  | .stringLit o => bytes "StringLit(obj " ++ decimal o ++ bytes ")"
  | .intLit v => bytes "IntLit(" ++ decimal v.toInt ++ bytes ")"
  | .charLit v => bytes "CharLit(" ++ quotedByte v ++ bytes ")"
  | .binary op l r =>
    bytes "Binary(#" ++ decimal l ++ bytes " " ++ op.symbol ++ bytes " #" ++ decimal r ++ bytes ")"
  | .negation a => bytes "Not(#" ++ decimal a ++ bytes ")"
  | .ifElse c t e =>
    bytes "If(#" ++ decimal c ++ bytes ", #" ++ decimal t ++ bytes ", " ++ optional e ++ bytes ")"
  | .block ss => bytes "Block" ++ nodeList ss
  | .varRef n => bytes "VarRef(tok " ++ decimal n ++ bytes ")"
  | .assign t v => bytes "Assign(tok " ++ decimal t ++ bytes ", #" ++ decimal v ++ bytes ")"
  | .whileLoop c b => bytes "While(#" ++ decimal c ++ bytes ", #" ++ decimal b ++ bytes ")"
  | .funDecl n ps b =>
    bytes "FunDecl(tok " ++ decimal n ++ bytes ", " ++ decimalNat ps.length ++ bytes " params, #" ++
      decimal b ++ bytes ")"
  | .call c as => bytes "Call(tok " ++ decimal c ++ bytes ", " ++ nodeList as ++ bytes ")"
  | .returnStmt v => bytes "Return(" ++ optional v ++ bytes ")"
  | .syscall as => bytes "Syscall" ++ nodeList as
  | .classDecl n ms => bytes "ClassDecl(tok " ++ decimal n ++ bytes ", " ++ nodeList ms ++ bytes ")"
  | .newInstance as => bytes "Instance" ++ nodeList as
  | .member o n => bytes "Member(#" ++ decimal o ++ bytes ", tok " ++ decimal n ++ bytes ")"

end Shape

/-- A node: the first and last token it was read from, its type when it has one, and its content. -/
structure Node where
  first : Int
  last : Int
  type : Option Int
  shape : Shape
deriving DecidableEq, Repr

namespace Node

def kind (n : Node) : NodeKind := n.shape.kind

def children (n : Node) : List Int := n.shape.children

def render (n : Node) : Bytes := n.shape.render

end Node

end PrintLang
