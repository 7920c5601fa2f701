import PrintLang.Machine

set_option autoImplicit false

namespace PrintLang

/-- The width of an instruction: the one its name fixes, else that of its first register operand,
else eight bytes. -/
def Instr.width (i : Instr) : Width :=
  match i.mnemonic with
  | .move .movb => .byte
  | .move .movq => .qword
  | .move .movabs => .qword
  | _ =>
    (i.operands.findSome? fun
      | .register (.general _ w) => some w
      | _ => none).getD .qword

def Instr.operand (i : Instr) (n : Nat) : Except Fault Operand :=
  match i.operands[n]? with
  | some op => .ok op
  | none => .error .missingOperand

namespace Machine

def dataAddress (p : Image) (name : Bytes) : Except Fault UInt64 :=
  match p.lookup? name with
  | some ⟨.data, a⟩ => .ok (UInt64.ofInt (dataBase + a))
  | _ => .error (.unknownSymbol name)

def jumpTarget (p : Image) (op : Operand) : Except Fault Int :=
  match op with
  | .target name =>
    match p.lookup? name with
    | some ⟨.text, a⟩ => .ok a
    | _ => .error (.unknownSymbol op.render)
  | _ => .error (.unknownSymbol op.render)

def address (p : Image) (m : Machine) (op : Operand) : Except Fault UInt64 :=
  match op with
  | .memory .rip _ s => dataAddress p s
  | .memory (.general r .qword) d s =>
    if s = [] then .ok (m.reg r + d.toUInt64)
    else do
      let a ← dataAddress p s
      return m.reg r + a + d.toUInt64
  | .memory b _ _ => .error (.badBase b)
  | _ => .error (.notMemory op)

def loadWord (m : Machine) (a : UInt64) (w : Nat) : Except Fault UInt64 :=
  if Memory.fits a.toNat w then .ok (LittleEndian.decode (m.memory.read a.toNat w)).toUInt64
  else .error (.segfault w a)

def storeWord (m : Machine) (a : UInt64) (w : Nat) (v : UInt64) : Machine × Option Fault :=
  if Memory.fits a.toNat w then
    ({ m with memory := m.memory.write a.toNat (LittleEndian.encode w v.toNat) }, none)
  else (m, some (.segfault w a))

/-- The bytes at an address. The count is a signed number; as an unsigned one it must fit. -/
def readBytes (m : Machine) (a : UInt64) (n : Int64) : Except Fault Bytes :=
  if Memory.fits a.toNat n.toUInt64.toNat then .ok (m.memory.read a.toNat n.toUInt64.toNat)
  else .error (.segfault n.toInt a)

/-- The value of an operand. A register gives its own width. -/
def read (p : Image) (m : Machine) (op : Operand) (w : Width) : Except Fault UInt64 :=
  match op with
  | .register (.general r rw) => .ok (m.reg r &&& rw.mask)
  | .register r => .error (.badRegister r)
  | .immediate v => .ok v.toUInt64
  | .address s => dataAddress p s
  | .memory _ _ _ => do
    let a ← m.address p op
    m.loadWord a w.size
  | _ => .error (.unreadable op)

/-- Puts a value into a register. A four-byte write clears the upper half, and a one-byte write keeps
the other bytes. -/
def setRegAt (m : Machine) (r : Reg) (w : Width) (v : UInt64) : Machine :=
  match w with
  | .qword => m.setReg r v
  | .dword => m.setReg r (v &&& 0xffffffff)
  | .byte => m.setReg r ((m.reg r &&& 0xffffffffffffff00) ||| (v &&& 0xff))

def write (p : Image) (m : Machine) (op : Operand) (w : Width) (v : UInt64) :
    Machine × Option Fault :=
  match op with
  | .register (.general r rw) => (m.setRegAt r rw v, none)
  | .register r => (m, some (.badRegister r))
  | .memory _ _ _ =>
    match m.address p op with
    | .ok a => m.storeWord a w.size v
    | .error f => (m, some f)
  | _ => (m, some (.unwritable op))

/-- The stack pointer moves only when the store succeeds. -/
def push (m : Machine) (v : UInt64) : Machine × Option Fault :=
  let sp := m.reg .rsp - 8
  if Memory.fits sp.toNat 8 then
    ({ m with memory := m.memory.write sp.toNat (LittleEndian.encode 8 v.toNat) }.setReg .rsp sp,
      none)
  else (m, some (.segfault 8 sp))

def top (m : Machine) : Except Fault UInt64 := m.loadWord (m.reg .rsp) 8

def drop (m : Machine) : Machine := m.setReg .rsp (m.reg .rsp + 8)

/-- Divides the unsigned number in `%rdx` and `%rax`. -/
def div (m : Machine) (d : UInt64) : Machine × Option Fault :=
  let hi := m.reg .rdx
  let lo := m.reg .rax
  if d = 0 ∨ d ≤ hi then (m, some .divide)
  else
    let n := hi.toNat * 18446744073709551616 + lo.toNat
    ((m.setReg .rax (n / d.toNat).toUInt64).setReg .rdx (n % d.toNat).toUInt64, none)

/-- Divides the signed number in `%rax`, whose sign must fill `%rdx`, toward zero. -/
def idiv (m : Machine) (d : Int64) : Machine × Option Fault :=
  let a := (m.reg .rax).toInt64
  if m.reg .rdx ≠ (a >>> 63).toUInt64 then (m, some .wideDividend)
  else if d = 0 ∨ (a = Int64.minValue ∧ d = -1) then (m, some .divide)
  else ((m.setReg .rax (a / d).toUInt64).setReg .rdx (a % d).toUInt64, none)

def emit (m : Machine) (fd : UInt64) (text : Bytes) : Machine :=
  if fd = 1 then { m with out := m.out ++ text } else { m with errout := m.errout ++ text }

/-- The write call copies `%rdx` bytes at `%rsi` to the output `%rdi`. -/
def writeCall (m : Machine) : Machine × Option Fault :=
  let fd := m.reg .rdi
  if fd = 1 ∨ fd = 2 then
    match m.readBytes (m.reg .rsi) (m.reg .rdx).toInt64 with
    | .ok text => ((m.emit fd text).setReg .rax text.length.toUInt64, none)
    | .error f => (m, some f)
  else (m, some (.badDescriptor fd))

def syscall (m : Machine) : Machine × Option Fault :=
  let number := m.reg .rax
  if number = m.syscalls.write then m.writeCall
  else if number = m.syscalls.exit then
    ({ m with halted := true, exitCode := (m.reg .rdi).toUInt32.toInt32.toInt }, none)
  else (m, some (.badSyscall number))

/-- Executes an instruction; `rip` is already at the next one. -/
def exec (p : Image) (i : Instr) (m : Machine) : Machine × Option Fault :=
  let w := i.width
  match i.mnemonic with
  | .nop => (m, none)
  | .move _ =>
    match (do
      let v ← m.read p (← i.operand 0) w
      return (v, ← i.operand 1)) with
    | .ok (v, dst) => m.write p dst w v
    | .error f => (m, some f)
  | .lea =>
    match (do
      let a ← m.address p (← i.operand 0)
      return (a, ← i.operand 1)) with
    | .ok (a, dst) => m.write p dst .qword a
    | .error f => (m, some f)
  | .alu op =>
    match (do
      let src ← m.read p (← i.operand 0) w
      let place ← i.operand 1
      return (src, place, ← m.read p place w)) with
    | .ok (src, place, dst) =>
      let (r, flags) := Alu.apply op w dst src
      let m := { m with flags }
      if Alu.stores op then m.write p place w r else (m, none)
    | .error f => (m, some f)
  | .unary op =>
    match (do
      let place ← i.operand 0
      return (place, ← m.read p place w)) with
    | .ok (place, v) =>
      let (r, flags) := Alu.unary op w v
      let m := { m with flags }
      m.write p place w r
    | .error f => (m, some f)
  | .cqo => (m.setReg .rdx ((m.reg .rax).toInt64 >>> 63).toUInt64, none)
  | .div =>
    match (do m.read p (← i.operand 0) .qword) with
    | .ok d => m.div d
    | .error f => (m, some f)
  | .idiv =>
    match (do m.read p (← i.operand 0) .qword) with
    | .ok d => m.idiv d.toInt64
    | .error f => (m, some f)
  | .push =>
    match (do m.read p (← i.operand 0) .qword) with
    | .ok v => m.push v
    | .error f => (m, some f)
  | .pop =>
    match m.top with
    | .ok v =>
      let m := m.drop
      match i.operand 0 with
      | .ok dst => m.write p dst .qword v
      | .error f => (m, some f)
    | .error f => (m, some f)
  | .call =>
    match (do jumpTarget p (← i.operand 0)) with
    | .ok a =>
      match m.push (UInt64.ofInt (textBase + m.rip)) with
      | (m, none) => ({ m with rip := a }, none)
      | (m, some f) => (m, some f)
    | .error f => (m, some f)
  | .ret =>
    match m.top with
    | .ok v =>
      let m := m.drop
      if v.toNat < textBase ∨ textBase + p.text.size < v.toNat then (m, some (.badReturn v))
      else ({ m with rip := (v.toNat - textBase : Nat) }, none)
    | .error f => (m, some f)
  | .syscall => m.syscall
  | .jump c =>
    if c.holds m.flags then
      match (do jumpTarget p (← i.operand 0)) with
      | .ok a => ({ m with rip := a }, none)
      | .error f => (m, some f)
    else (m, none)
  | .unknown word => (m, some (.unsupported word))

def atLimit (m : Machine) : Bool := 0 < m.maxSteps && m.maxSteps ≤ m.steps

def fetched (m : Machine) : Machine := { m with rip := m.rip + 1, steps := m.steps + 1 }

/-- Takes one instruction. A halted machine stays as it is; the limit is tested before the fetch. -/
def step (p : Image) (m : Machine) : Machine × Option Stop :=
  if m.halted then (m, none)
  else if m.atLimit then (m, some .stepLimit)
  else match atIndex? p.text m.rip with
    | none => (m, some .ranOff)
    | some c =>
      match exec p c.instr m.fetched with
      | (m, none) => (m, none)
      | (m, some f) => (m, some (.fault c.line c.instr f))

end Machine

end PrintLang
