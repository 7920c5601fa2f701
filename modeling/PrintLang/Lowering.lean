import PrintLang.Listing
import PrintLang.Lowering.Expr
import PrintLang.Program
import PrintLang.Target

/-!
# From a program to its listing

The listing holds the string objects as data, the routine that prints an integer, and the entry:
prologue, the statements in order, and the exit call. A program is lowered as a whole or not at all.
-/

set_option autoImplicit false

namespace PrintLang

/-- The label of the routine that prints the integer in `%rdi` and a newline. -/
def printInt : Bytes := bytes "print_int"

def printIntDigits : Bytes := bytes ".L.print_int.digits"

def printIntWrite : Bytes := bytes ".L.print_int.write"

def dataLabel (token : Int) : Bytes := bytes "L" ++ decimal token

/-- Why a program is not lowered. `badIndex` stands for a statement that is no node or starts at no
token. -/
inductive GenerateError where
  | target (e : TargetError)
  | node (e : LoweringError)
  | badIndex
deriving DecidableEq, Repr

namespace Lowering

/-- The digits are made from the last to the first in a buffer below `%rbp`. The value is taken as a
magnitude and divided unsigned, so the least integer comes out right as well. -/
def printIntHead : List Instr :=
  [⟨.push, [.reg .rbp]⟩,
   ⟨.move .mov, [.reg .rsp, .reg .rbp]⟩,
   ⟨.alu .sub, [.immediate 32, .reg .rsp]⟩,
   ⟨.move .mov, [.reg .rdi, .reg .rax]⟩,
   ⟨.lea, [.based .rbp (-1), .reg .rsi]⟩,
   ⟨.move .movb, [.immediate 10, .based .rsi 0]⟩,
   ⟨.move .mov, [.immediate 10, .reg .rcx]⟩,
   ⟨.alu .xor, [.reg .r8, .reg .r8]⟩,
   ⟨.alu .test, [.reg .rax, .reg .rax]⟩,
   ⟨.jump .ns, [.target printIntDigits]⟩,
   ⟨.move .mov, [.immediate 1, .reg .r8]⟩,
   ⟨.unary .neg, [.reg .rax]⟩]

def printIntLoop : List Instr :=
  [⟨.alu .xor, [.reg .rdx, .reg .rdx]⟩,
   ⟨.div, [.reg .rcx]⟩,
   ⟨.alu .add, [.immediate 48, .register (.general .rdx .byte)]⟩,
   ⟨.unary .dec, [.reg .rsi]⟩,
   ⟨.move .movb, [.register (.general .rdx .byte), .based .rsi 0]⟩,
   ⟨.alu .test, [.reg .rax, .reg .rax]⟩,
   ⟨.jump .nz, [.target printIntDigits]⟩,
   ⟨.alu .test, [.reg .r8, .reg .r8]⟩,
   ⟨.jump .z, [.target printIntWrite]⟩,
   ⟨.unary .dec, [.reg .rsi]⟩,
   ⟨.move .movb, [.immediate 45, .based .rsi 0]⟩]

def printIntTail (t : Target) : List Instr :=
  [⟨.move .mov, [.reg .rbp, .reg .rdx]⟩,
   ⟨.alu .sub, [.reg .rsi, .reg .rdx]⟩,
   ⟨.move .mov, [.immediate (Int64.ofInt t.writeNumber), .reg .rax]⟩,
   ⟨.move .mov, [.immediate 1, .reg .rdi]⟩,
   ⟨.syscall, []⟩,
   ⟨.move .mov, [.reg .rbp, .reg .rsp]⟩,
   ⟨.pop, [.reg .rbp]⟩,
   ⟨.ret, []⟩]

def printIntLines (t : Target) : Listing :=
  .label printInt :: printIntHead.map .code ++ .label printIntDigits :: printIntLoop.map .code ++
    .label printIntWrite :: (printIntTail t).map .code

/-- A label for every string object, and its bytes unless it has none. -/
def objectLines (o : StringObject) : Listing :=
  .label (dataLabel o.token) :: if o.value = [] then [] else [.byteData o.value]

def prologue (t : Target) : List Instr :=
  [⟨.push, [.reg .rbp]⟩,
   ⟨.move .mov, [.reg .rsp, .reg .rbp]⟩,
   ⟨.alu .sub, [.immediate (Int64.ofInt t.stackSize), .reg .rsp]⟩]

def epilogue (t : Target) : List Instr :=
  [⟨.move .mov, [.immediate (Int64.ofInt t.exitNumber), .reg .rax]⟩,
   ⟨.alu .xor, [.reg .rdi, .reg .rdi]⟩,
   ⟨.syscall, []⟩]

def printlnCode (e : Expr) : List Instr :=
  e.code ++ [⟨.move .mov, [.reg .rax, .reg .rdi]⟩, ⟨.call, [.target printInt]⟩]

def statement (p : Program) (i : Int) : Except GenerateError Listing :=
  match p.store.node? i with
  | none => .error .badIndex
  | some n =>
    match n.shape with
    | .println arg =>
      match atIndex? p.stream.tokens n.first, p.store.expr? arg.toNat with
      | some t, some e =>
        match e.obstacle? with
        | some err => .error (.node err)
        | none =>
          .ok (.comment (bytes "println at " ++ p.file ++ bytes ":" ++ t.loc.render) ::
            (printlnCode e).map .code)
      | _, _ => .error .badIndex
    | shape =>
      .error (.node ⟨.unreachable, i, shape.kind.name ++ bytes " is not a statement"⟩)

def frame (p : Program) (t : Target) (body : Listing) : Listing :=
  .dataSection :: p.store.objects.toList.flatMap objectLines ++
    .blank :: .textSection :: printIntLines t ++
    .blank :: .global t.entry :: .label t.entry :: (prologue t).map .code ++
    body ++ (epilogue t).map .code

end Lowering

def generate (p : Program) (t : Target) : Except GenerateError Listing :=
  match t.fault? with
  | some e => .error (.target e)
  | none =>
    match p.store.stmts.toList.mapM (Lowering.statement p) with
    | .ok parts => .ok (Lowering.frame p t parts.flatten)
    | .error e => .error e

end PrintLang
