import PrintLang.Bytes

set_option autoImplicit false

namespace PrintLang

inductive TypeKind where
  | any
  | unit
  | boolean
  | char
  | byte
  | int
  | short
  | long
  | string
  | function
  | classKind
  | pointer
  | other (code : Int)
deriving DecidableEq, Repr

namespace TypeKind

def all : List TypeKind :=
  [.any, .unit, .boolean, .char, .byte, .int, .short, .long, .string, .function, .classKind,
   .pointer]

def ofCode (code : Int) : TypeKind :=
  match code with
  | .ofNat n => all.getD n (.other code)
  | .negSucc _ => .other code

def name : TypeKind → Bytes
  | .any => bytes "Any"
  | .unit => bytes "Unit"
  | .boolean => bytes "Boolean"
  | .char => bytes "Char"
  | .byte => bytes "Byte"
  | .int => bytes "Int"
  | .short => bytes "Short"
  | .long => bytes "Long"
  | .string => bytes "String"
  | .function => bytes "Function"
  | .classKind => bytes "Class"
  | .pointer => bytes "Pointer"
  | .other c => bytes "TypeKind(" ++ decimal c ++ bytes ")"

end TypeKind

/-- A type descriptor. An instance refers to the node that declares its class, a pointer to the type
it points at. -/
inductive Ty where
  | primitive (kind : TypeKind)
  | function
  | object (decl : Int)
  | pointer (pointee : Int)
deriving DecidableEq, Repr

namespace Ty

def kind : Ty → TypeKind
  | .primitive k => k
  | .function => .function
  | .object _ => .classKind
  | .pointer _ => .pointer

def size : Ty → Nat
  | .primitive .unit => 0
  | .primitive .boolean => 1
  | .primitive .char => 1
  | .primitive .byte => 1
  | .primitive .short => 2
  | .primitive .int => 4
  | _ => 8

def render : Ty → Bytes
  | .primitive k => k.name
  | .function => bytes "Function"
  | .object d => bytes "Class(node " ++ decimal d ++ bytes ")"
  | .pointer p => bytes "Pointer(type " ++ decimal p ++ bytes ")"

end Ty

end PrintLang
