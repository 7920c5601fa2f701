import PrintLang.Bytes.Blank
import PrintLang.Listing.Register

set_option autoImplicit false

namespace PrintLang

/-- A decoded operand. A memory operand adds its displacement and, when `symbol` is not empty, the
address of the symbol to its base; its text shows the symbol alone then. -/
inductive Operand where
  | register (reg : RegName)
  | immediate (value : Int64)
  | address (symbol : Bytes)
  | memory (base : RegName) (disp : Int64) (symbol : Bytes)
  | target (symbol : Bytes)
  /-- A symbol in no addressing form; nothing reads, writes or jumps to it. -/
  | bare (symbol : Bytes)
deriving DecidableEq, Repr

namespace Operand

def render : Operand → Bytes
  | .register r => bytes "%" ++ r.name
  | .immediate v => bytes "$" ++ decimal v.toInt
  | .address s => bytes "$" ++ s
  | .memory b d s =>
    (if s ≠ [] then s else if d = 0 then [] else decimal d.toInt) ++ bytes "(%" ++ b.name ++ bytes ")"
  | .target s => s
  | .bare s => s

def symbol : Operand → Bytes
  | .register _ => []
  | .immediate _ => []
  | .address s => s
  | .memory _ _ s => s
  | .target s => s
  | .bare s => s

def reg (r : Reg) : Operand := .register (.general r .qword)

def based (base : Reg) (disp : Int64) : Operand := .memory (.general base .qword) disp []

end Operand

inductive AluOp where
  | add
  | sub
  | imul
  | and
  | or
  | xor
  | test
  | cmp
deriving DecidableEq, Repr

namespace AluOp

def all : List AluOp := [.add, .sub, .imul, .and, .or, .xor, .test, .cmp]

def name : AluOp → Bytes
  | .add => bytes "add"
  | .sub => bytes "sub"
  | .imul => bytes "imul"
  | .and => bytes "and"
  | .or => bytes "or"
  | .xor => bytes "xor"
  | .test => bytes "test"
  | .cmp => bytes "cmp"

end AluOp

inductive UnaryOp where
  | neg
  | inc
  | dec
deriving DecidableEq, Repr

namespace UnaryOp

def all : List UnaryOp := [.neg, .inc, .dec]

def name : UnaryOp → Bytes
  | .neg => bytes "neg"
  | .inc => bytes "inc"
  | .dec => bytes "dec"

end UnaryOp

/-- The conditions of the jumps; `e` and `z`, and `ne` and `nz`, are two spellings of one condition. -/
inductive Cond where
  | always
  | e
  | z
  | ne
  | nz
  | s
  | ns
  | l
  | le
  | g
  | ge
deriving DecidableEq, Repr

namespace Cond

def all : List Cond := [.always, .e, .z, .ne, .nz, .s, .ns, .l, .le, .g, .ge]

def name : Cond → Bytes
  | .always => bytes "jmp"
  | .e => bytes "je"
  | .z => bytes "jz"
  | .ne => bytes "jne"
  | .nz => bytes "jnz"
  | .s => bytes "js"
  | .ns => bytes "jns"
  | .l => bytes "jl"
  | .le => bytes "jle"
  | .g => bytes "jg"
  | .ge => bytes "jge"

end Cond

/-- The spellings of a move; the suffixed ones fix the width. -/
inductive MoveOp where
  | mov
  | movq
  | movb
  | movabs
deriving DecidableEq, Repr

namespace MoveOp

def all : List MoveOp := [.mov, .movq, .movb, .movabs]

def name : MoveOp → Bytes
  | .mov => bytes "mov"
  | .movq => bytes "movq"
  | .movb => bytes "movb"
  | .movabs => bytes "movabs"

end MoveOp

/-- What an instruction does. `unknown` stands for a word that names no instruction. -/
inductive Mnemonic where
  | nop
  | ret
  | cqo
  | syscall
  | push
  | pop
  | div
  | idiv
  | call
  | lea
  | unary (op : UnaryOp)
  | jump (cond : Cond)
  | move (op : MoveOp)
  | alu (op : AluOp)
  | unknown (name : Bytes)
deriving DecidableEq, Repr

namespace Mnemonic

def all : List Mnemonic :=
  [.nop, .ret, .cqo, .syscall, .push, .pop, .div, .idiv, .call, .lea] ++ UnaryOp.all.map .unary ++
    Cond.all.map .jump ++ MoveOp.all.map .move ++ AluOp.all.map .alu

def name : Mnemonic → Bytes
  | .nop => bytes "nop"
  | .ret => bytes "ret"
  | .cqo => bytes "cqo"
  | .syscall => bytes "syscall"
  | .push => bytes "push"
  | .pop => bytes "pop"
  | .div => bytes "div"
  | .idiv => bytes "idiv"
  | .call => bytes "call"
  | .lea => bytes "lea"
  | .unary op => op.name
  | .jump c => c.name
  | .move op => op.name
  | .alu op => op.name
  | .unknown n => n

def table : List (Bytes × Mnemonic) := all.map fun m => (m.name, m)

def ofName (name : Bytes) : Mnemonic := (table.lookup name).getD (.unknown name)

def arity? : Mnemonic → Option Nat
  | .nop => some 0
  | .ret => some 0
  | .cqo => some 0
  | .syscall => some 0
  | .push => some 1
  | .pop => some 1
  | .div => some 1
  | .idiv => some 1
  | .call => some 1
  | .unary _ => some 1
  | .jump _ => some 1
  | .lea => some 2
  | .move _ => some 2
  | .alu _ => some 2
  | .unknown _ => none

end Mnemonic

structure Instr where
  mnemonic : Mnemonic
  operands : List Operand
deriving DecidableEq, Repr

def Instr.render (i : Instr) : Bytes :=
  Bytes.trim (i.mnemonic.name ++ bytes " " ++
    Bytes.join (bytes ", ") (i.operands.map Operand.render))

end PrintLang
