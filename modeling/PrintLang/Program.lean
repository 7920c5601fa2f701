import PrintLang.Store
import PrintLang.Token

set_option autoImplicit false

namespace PrintLang

structure Program where
  file : Bytes
  stream : TokenStream
  store : Store
deriving DecidableEq, Repr

/-- The value of a literal. A long integer has its own type. -/
inductive Literal where
  | bool (value : Bool)
  | string (value : Bytes)
  | int (value : Int64)
  | long (value : Int64)
  | char (value : UInt8)
deriving DecidableEq, Repr

namespace Literal

def type : Literal → TypeKind
  | .bool _ => .boolean
  | .string _ => .string
  | .int _ => .int
  | .long _ => .long
  | .char _ => .char

/-- The node content of a literal whose text, if it is a string, is kept as object `object`. -/
def shape (object : Int) : Literal → Shape
  | .bool v => .boolLit v
  | .string _ => .stringLit object
  | .int v => .intLit v
  | .long v => .intLit v
  | .char v => .charLit v

def objects (token : Nat) : Literal → Array StringObject
  | .string v => #[⟨token, v⟩]
  | _ => #[]

end Literal

/-- A statement `println(literal)`: the tokens of the keyword, the literal and the closing
parenthesis, and the literal's value. -/
structure Statement where
  first : Nat
  token : Nat
  literal : Literal
  last : Nat
deriving DecidableEq, Repr

def Store.addStatement (s : Store) (st : Statement) : Store :=
  let arg := s.nodes.size
  let type := s.types.size
  let object := s.objects.size
  { nodes := s.nodes ++ #[⟨st.token, st.token, some type, st.literal.shape object⟩,
      ⟨st.first, st.last, some (type + 1 : Nat), .println arg⟩]
    types := s.types ++ #[.primitive st.literal.type, .primitive .unit]
    objects := s.objects ++ st.literal.objects st.token
    stmts := s.stmts.push (arg + 1 : Nat) }

def Store.ofStatements (sts : List Statement) : Store := sts.foldl Store.addStatement .empty

end PrintLang
