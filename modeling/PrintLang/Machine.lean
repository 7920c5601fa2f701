import PrintLang.Bytes.Quoted
import PrintLang.Index
import PrintLang.Listing.Assembler
import PrintLang.Machine.Alu
import PrintLang.Machine.Memory

/-!
# The machine

It runs a program image directly: instructions are fetched by index, and return addresses are
indices on top of `textBase`. Two system calls are answered, write and exit.
-/

set_option autoImplicit false

namespace PrintLang

/-- Tags the return addresses that `call` pushes; the text itself is not mapped into memory. -/
def textBase : Nat := 0x40000000

def defaultMaxSteps : Int := 10000000

structure Syscalls where
  write : UInt64
  exit : UInt64
deriving DecidableEq, Repr

def Syscalls.linux : Syscalls := ⟨1, 60⟩

def Syscalls.darwin : Syscalls := ⟨0x2000004, 0x2000001⟩

/-- Registers, instruction index, flags, memory, and what the program has done so far. A limit of
zero or less means that there is none. -/
structure Machine where
  regs : Vector UInt64 16
  rip : Int
  flags : Flags
  memory : Memory
  halted : Bool
  exitCode : Int
  steps : Nat
  maxSteps : Int
  syscalls : Syscalls
  out : Array UInt8
  errout : Array UInt8

inductive Fault where
  | divide
  | wideDividend
  | segfault (count : Int) (addr : UInt64)
  | badReturn (addr : UInt64)
  | badDescriptor (fd : UInt64)
  | badSyscall (number : UInt64)
  | unknownSymbol (name : Bytes)
  | notMemory (op : Operand)
  | badBase (reg : RegName)
  | badRegister (reg : RegName)
  | unreadable (op : Operand)
  | unwritable (op : Operand)
  | unsupported (word : Bytes)
  /-- The instruction has fewer operands than it takes. -/
  | missingOperand
deriving DecidableEq, Repr

def hexAddress (a : UInt64) : Bytes := bytes "0x" ++ hexNat a.toNat

def Fault.message : Fault → Bytes
  | .divide => bytes "divide error"
  | .wideDividend => bytes "divide error: 128-bit dividend"
  | .segfault n a =>
    bytes "segmentation fault: access of " ++ decimal n ++ bytes " bytes at " ++ hexAddress a
  | .badReturn a => bytes "return to a non-text address: " ++ hexAddress a
  | .badDescriptor fd =>
    bytes "unsupported system call: write to fd " ++ decimalNat fd.toNat
  | .badSyscall n => bytes "unsupported system call: " ++ decimalNat n.toNat
  | .unknownSymbol s => bytes "unknown symbol: " ++ s
  | .notMemory op => bytes "operand " ++ op.render ++ bytes " is not a memory reference"
  | .badBase r => bytes "invalid base register %" ++ r.name
  | .badRegister r => bytes "invalid register %" ++ r.name
  | .unreadable op => bytes "operand " ++ op.render ++ bytes " cannot be read"
  | .unwritable op => bytes "operand " ++ op.render ++ bytes " cannot be written"
  | .unsupported w => bytes "unsupported instruction " ++ w
  | .missingOperand => bytes "missing operand"

/-- Why a run ends other than by the exit call. -/
inductive Stop where
  | stepLimit
  | ranOff
  | unknownEntry (name : Bytes)
  | fault (line : Int) (instr : Instr) (cause : Fault)
deriving DecidableEq, Repr

def Stop.message : Stop → Bytes
  | .stepLimit => bytes "step limit exceeded"
  | .ranOff => bytes "execution ran past the end of .text"
  | .unknownEntry n => bytes "entry " ++ quoted n ++ bytes ": unknown symbol"
  | .fault line i f =>
    bytes "line " ++ decimal line ++ bytes ": " ++ i.render ++ bytes ": " ++ f.message

/-- The data section does not fit into the lower half of memory. -/
structure LoadError where
  size : Nat
deriving DecidableEq, Repr

def LoadError.message (e : LoadError) : Bytes :=
  bytes "data section of " ++ decimalNat e.size ++ bytes " bytes does not fit"

namespace Machine

def reg (m : Machine) (r : Reg) : UInt64 := m.regs[r.index]

def setReg (m : Machine) (r : Reg) (v : UInt64) : Machine :=
  { m with regs := m.regs.set r.index v }

def load (p : Image) : Except LoadError Machine :=
  if memSize / 2 < dataBase + p.dataSize then .error ⟨p.dataSize⟩
  else .ok {
    regs := (Vector.replicate 16 0).set Reg.rsp.index memSize.toUInt64
    rip := 0
    flags := ⟨false, false, false, false⟩
    memory := Memory.zero.write dataBase p.data
    halted := false
    exitCode := 0
    steps := 0
    maxSteps := defaultMaxSteps
    syscalls := .linux
    out := #[]
    errout := #[] }

theorem reg_setReg_same (m : Machine) (r : Reg) (v : UInt64) : (m.setReg r v).reg r = v := by
  simp [reg, setReg]

theorem reg_setReg_of_ne (m : Machine) {r q : Reg} (h : r ≠ q) (v : UInt64) :
    (m.setReg r v).reg q = m.reg q := by
  have hi : r.index.val ≠ q.index.val := by
    revert h
    cases r <;> cases q <;> decide
  simp [reg, setReg, Vector.getElem_set_ne _ _ hi]

end Machine

end PrintLang
