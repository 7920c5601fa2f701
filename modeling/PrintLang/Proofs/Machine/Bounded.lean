import PrintLang.Machine.Step
import PrintLang.Proofs.Listing.Passes

/-!
# Nothing is out of bounds

The machine is total: a byte outside memory reads as zero, an operand that is not there is a fault, and
a quotient that is too large is cut off. Here the same machine is built from operations that have bounds
and panic outside of them. On assembled code both take the same steps, from every state, so no bound is
ever left.
-/

set_option autoImplicit false

namespace PrintLang

inductive Panic where
  | index (i size : Nat)
  | slice (low high size : Nat)
  | divideByZero
  | quotientOverflow
deriving DecidableEq, Repr

/-- What ends an instruction early: a fault that the machine reports, or a panic. -/
inductive Abort where
  | fault (f : Fault)
  | panic (p : Panic)
deriving DecidableEq, Repr

instance : MonadLift (Except Panic) (Except Abort) := ⟨Except.mapError .panic⟩

instance : MonadLift (Except Fault) (Except Abort) := ⟨Except.mapError .fault⟩

namespace Bounded

def get {α : Type} {n : Nat} (items : Vector α n) (i : Nat) : Except Panic α :=
  if h : i < n then .ok items[i] else .error (.index i n)

def put {α : Type} {n : Nat} (items : Vector α n) (i : Nat) (x : α) : Except Panic (Vector α n) :=
  if h : i < n then .ok (items.set i x h) else .error (.index i n)

def slice (low high : UInt64) (size : Nat) : Except Panic Nat :=
  if low ≤ high ∧ high.toNat ≤ size then .ok (high - low).toNat
  else .error (.slice low.toNat high.toNat size)

/-- The quotient and the remainder of a number of 128 bits; the quotient must have 64. -/
def div128 (hi lo d : UInt64) : Except Panic (UInt64 × UInt64) :=
  let n := hi.toNat * 2 ^ 64 + lo.toNat
  if d = 0 then .error .divideByZero
  else if 2 ^ 64 ≤ n / d.toNat then .error .quotientOverflow
  else .ok ((n / d.toNat).toUInt64, (n % d.toNat).toUInt64)

def quotient (a d : Int64) : Except Panic Int64 :=
  if d = 0 then .error .divideByZero else .ok (a / d)

def remainder (a d : Int64) : Except Panic Int64 :=
  if d = 0 then .error .divideByZero else .ok (a % d)

/-- Whether the product `full` of `a` and `b`, which is `cut` after the cut to its width, is too wide. It
is divided only when it survives the cut. -/
def tooWide (a b full cut : Int64) : Except Panic Bool :=
  if cut ≠ full then .ok true
  else if a = 0 then .ok false
  else do return (← quotient full a) != b || (a == -1 && b == Int64.minValue)

def imul (w : Width) (dst src : UInt64) : Except Panic (UInt64 × Flags) := do
  let a := w.signed dst
  let b := w.signed src
  let r := (a * b).toUInt64 &&& w.mask
  let wide ← tooWide a b (a * b) (w.signed r)
  return Alu.result w r wide wide

def alu (op : AluOp) (w : Width) (dst src : UInt64) : Except Panic (UInt64 × Flags) :=
  match op with
  | .imul => imul w dst src
  | _ => .ok (Alu.apply op w dst src)

def operand (i : Instr) (n : Nat) : Except Panic Operand :=
  get i.operands.toArray.toVector n

def reg (m : Machine) (r : Reg) : Except Panic UInt64 := get m.regs r.index

def setReg (m : Machine) (r : Reg) (v : UInt64) : Except Panic Machine := do
  return { m with regs := ← put m.regs r.index v }

def copyOut (mem : Memory) (a : Nat) : (n : Nat) → Except Panic Bytes
  | 0 => .ok []
  | n + 1 => do
    let b ← get mem.cells a
    let rest ← copyOut mem (a + 1) n
    return b :: rest

def copyIn (mem : Memory) (a : Nat) : Bytes → Except Panic Memory
  | [] => .ok mem
  | b :: rest => do
    let cells ← put mem.cells a b
    copyIn ⟨cells⟩ (a + 1) rest

def accessible (a n : UInt64) : Bool :=
  !(a < dataBase.toUInt64 || memSize.toUInt64 < a || memSize.toUInt64 - a < n)

/-- Numbers pass through a buffer of eight bytes. -/
def loadWord (m : Machine) (a : UInt64) (w : Nat) : Except Abort UInt64 :=
  if accessible a w.toUInt64 then do
    let part ← slice 0 w.toUInt64 8
    let n ← slice a (a + w.toUInt64) memSize
    let text ← copyOut m.memory a.toNat (min part n)
    return (LittleEndian.decode text).toUInt64
  else throw (.fault (.segfault w a))

def storeWord (m : Machine) (a : UInt64) (w : Nat) (v : UInt64) :
    Except Panic (Machine × Option Fault) :=
  if accessible a w.toUInt64 then do
    let n ← slice a (a + w.toUInt64) memSize
    let part ← slice 0 w.toUInt64 8
    let memory ← copyIn m.memory a.toNat (LittleEndian.encode (min n part) v.toNat)
    return ({ m with memory }, none)
  else return (m, some (.segfault w a))

def readBytes (m : Machine) (a : UInt64) (n : Int64) : Except Abort Bytes :=
  if accessible a n.toUInt64 then do
    let k ← slice a (a + n.toUInt64) memSize
    copyOut m.memory a.toNat k
  else throw (.fault (.segfault n.toInt a))

def address (p : Image) (m : Machine) (op : Operand) : Except Abort UInt64 :=
  match op with
  | .memory .rip _ s => Machine.dataAddress p s
  | .memory (.general r .qword) d s => do
    let base ← reg m r
    if s = [] then return base + d.toUInt64
    let a ← Machine.dataAddress p s
    return base + a + d.toUInt64
  | .memory b _ _ => throw (.fault (.badBase b))
  | _ => throw (.fault (.notMemory op))

def read (p : Image) (m : Machine) (op : Operand) (w : Width) : Except Abort UInt64 :=
  match op with
  | .register (.general r rw) => do return (← reg m r) &&& rw.mask
  | .register r => throw (.fault (.badRegister r))
  | .immediate v => return v.toUInt64
  | .address s => Machine.dataAddress p s
  | .memory _ _ _ => do
    let a ← address p m op
    loadWord m a w.size
  | _ => throw (.fault (.unreadable op))

def andThen {α : Type} (m : Machine) (x : Except Abort α)
    (k : α → Except Panic (Machine × Option Fault)) : Except Panic (Machine × Option Fault) :=
  match x with
  | .ok a => k a
  | .error (.fault f) => .ok (m, some f)
  | .error (.panic e) => .error e

def setRegAt (m : Machine) (r : Reg) (w : Width) (v : UInt64) : Except Panic Machine :=
  match w with
  | .qword => setReg m r v
  | .dword => setReg m r (v &&& 0xffffffff)
  | .byte => do setReg m r (((← reg m r) &&& 0xffffffffffffff00) ||| (v &&& 0xff))

def write (p : Image) (m : Machine) (op : Operand) (w : Width) (v : UInt64) :
    Except Panic (Machine × Option Fault) :=
  match op with
  | .register (.general r rw) => do return (← setRegAt m r rw v, none)
  | .register r => return (m, some (.badRegister r))
  | .memory _ _ _ => andThen m (address p m op) fun a => storeWord m a w.size v
  | _ => return (m, some (.unwritable op))

def push (m : Machine) (v : UInt64) : Except Panic (Machine × Option Fault) := do
  let sp := (← reg m .rsp) - 8
  match ← storeWord m sp 8 v with
  | (m, none) => return (← setReg m .rsp sp, none)
  | (m, some f) => return (m, some f)

def top (m : Machine) : Except Abort UInt64 := do loadWord m (← reg m .rsp) 8

def drop (m : Machine) : Except Panic Machine := do setReg m .rsp ((← reg m .rsp) + 8)

def div (m : Machine) (d : UInt64) : Except Panic (Machine × Option Fault) := do
  let hi ← reg m .rdx
  let lo ← reg m .rax
  if d = 0 ∨ d ≤ hi then return (m, some .divide)
  let (q, r) ← div128 hi lo d
  return (← setReg (← setReg m .rax q) .rdx r, none)

def idiv (m : Machine) (d : Int64) : Except Panic (Machine × Option Fault) := do
  let a := (← reg m .rax).toInt64
  if (← reg m .rdx) ≠ (a >>> 63).toUInt64 then return (m, some .wideDividend)
  if d = 0 ∨ (a = Int64.minValue ∧ d = -1) then return (m, some .divide)
  let q ← quotient a d
  let r ← remainder a d
  return (← setReg (← setReg m .rax q.toUInt64) .rdx r.toUInt64, none)

def writeCall (m : Machine) : Except Panic (Machine × Option Fault) := do
  let fd ← reg m .rdi
  if fd = 1 ∨ fd = 2 then
    andThen m (do readBytes m (← reg m .rsi) (← reg m .rdx).toInt64) fun text => do
      return (← setReg (m.emit fd text) .rax text.length.toUInt64, none)
  else return (m, some (.badDescriptor fd))

def syscall (m : Machine) : Except Panic (Machine × Option Fault) := do
  let number ← reg m .rax
  if number = m.syscalls.write then writeCall m
  else if number = m.syscalls.exit then
    return ({ m with halted := true, exitCode := (← reg m .rdi).toUInt32.toInt32.toInt }, none)
  else return (m, some (.badSyscall number))

def exec (p : Image) (i : Instr) (m : Machine) : Except Panic (Machine × Option Fault) :=
  let w := i.width
  match i.mnemonic with
  | .nop => return (m, none)
  | .move _ =>
    andThen m (do
      let v ← read p m (← operand i 0) w
      return (v, ← operand i 1)) fun (v, dst) => write p m dst w v
  | .lea =>
    andThen m (do
      let a ← address p m (← operand i 0)
      return (a, ← operand i 1)) fun (a, dst) => write p m dst .qword a
  | .alu op =>
    andThen m (do
      let src ← read p m (← operand i 0) w
      let place ← operand i 1
      return (src, place, ← read p m place w)) fun (src, place, dst) => do
        let (r, flags) ← alu op w dst src
        let m := { m with flags }
        if Alu.stores op then write p m place w r else return (m, none)
  | .unary op =>
    andThen m (do
      let place ← operand i 0
      return (place, ← read p m place w)) fun (place, v) =>
        let (r, flags) := Alu.unary op w v
        write p { m with flags } place w r
  | .cqo => do return (← setReg m .rdx ((← reg m .rax).toInt64 >>> 63).toUInt64, none)
  | .div => andThen m (do read p m (← operand i 0) .qword) fun d => div m d
  | .idiv => andThen m (do read p m (← operand i 0) .qword) fun d => idiv m d.toInt64
  | .push => andThen m (do read p m (← operand i 0) .qword) fun v => push m v
  | .pop =>
    andThen m (top m) fun v => do
      write p (← drop m) (← operand i 0) .qword v
  | .call =>
    andThen m (do Machine.jumpTarget p (← operand i 0)) fun a => do
      match ← push m (UInt64.ofInt (textBase + m.rip)) with
      | (m, none) => return ({ m with rip := a }, none)
      | (m, some f) => return (m, some f)
  | .ret =>
    andThen m (top m) fun v => do
      let m ← drop m
      if v.toNat < textBase ∨ textBase + p.text.size < v.toNat then return (m, some (.badReturn v))
      return ({ m with rip := (v.toNat - textBase : Nat) }, none)
  | .syscall => syscall m
  | .jump c =>
    if c.holds m.flags then
      andThen m (do Machine.jumpTarget p (← operand i 0)) fun a => return ({ m with rip := a }, none)
    else return (m, none)
  | .unknown word => return (m, some (.unsupported word))

def step (p : Image) (m : Machine) : Except Panic (Machine × Option Stop) :=
  if m.halted then return (m, none)
  else if m.atLimit then return (m, some .stepLimit)
  else if m.rip < 0 ∨ p.text.size ≤ m.rip then return (m, some .ranOff)
  else do
    let c ← get p.text.toVector m.rip.toNat
    match ← exec p c.instr m.fetched with
    | (m, none) => return (m, none)
    | (m, some f) => return (m, some (.fault c.line c.instr f))

section Bounds

theorem get_eq {α : Type} {n : Nat} (items : Vector α n) {i : Nat} (h : i < n) :
    get items i = .ok items[i] := dif_pos h

theorem put_eq {α : Type} {n : Nat} (items : Vector α n) {i : Nat} (h : i < n) (x : α) :
    put items i x = .ok (items.set i x h) := dif_pos h

theorem reg_eq (m : Machine) (r : Reg) : reg m r = .ok (m.reg r) := get_eq m.regs r.index.isLt

theorem setReg_eq (m : Machine) (r : Reg) (v : UInt64) : setReg m r v = .ok (m.setReg r v) := by
  rw [setReg, put_eq m.regs r.index.isLt]
  rfl

theorem accessible_eq (a n : UInt64) : accessible a n = Memory.fits a.toNat n.toNat := by
  have size : memSize.toUInt64.toNat = memSize := rfl
  have base : dataBase.toUInt64.toNat = dataBase := rfl
  rw [Bool.eq_iff_iff]
  simp only [accessible, Memory.fits, UInt64.lt_iff_toNat_lt, size, base, Bool.not_eq_true',
    Bool.or_eq_false_iff, Bool.and_eq_true, decide_eq_false_iff_not, decide_eq_true_eq]
  -- Above the end of memory the difference wraps, but the test in the middle has failed by then.
  by_cases high : memSize < a.toNat
  · omega
  · have rest : (memSize.toUInt64 - a).toNat = memSize - a.toNat := by
      rw [UInt64.toNat_sub_of_le, size]
      rw [UInt64.le_iff_toNat_le, size]
      omega
    rw [rest]
    omega

theorem le_of_fits {a n : Nat} (h : Memory.fits a n = true) : a + n ≤ memSize := by
  simp only [Memory.fits, Bool.and_eq_true, decide_eq_true_eq] at h
  exact h.2

/-- An access that is allowed has its end behind its start: the sum does not wrap. -/
theorem slice_eq {a n : UInt64} (h : Memory.fits a.toNat n.toNat = true) :
    slice a (a + n) memSize = .ok n.toNat := by
  have high := le_of_fits h
  have sum : (a + n).toNat = a.toNat + n.toNat := by
    rw [UInt64.toNat_add]
    unfold memSize at high
    omega
  have ordered : a ≤ a + n := by
    rw [UInt64.le_iff_toNat_le, sum]
    omega
  rw [slice, if_pos ⟨ordered, by omega⟩, UInt64.toNat_sub_of_le _ _ ordered, sum]
  congr 1
  omega

theorem toNat_toUInt64_of_le {w : Nat} (h : w ≤ 8) : w.toUInt64.toNat = w := by
  rw [Nat.toUInt64_eq, UInt64.toNat_ofNat']
  omega

theorem slice_buffer {w : Nat} (h : w ≤ 8) : slice 0 w.toUInt64 8 = .ok w := by
  have small := toNat_toUInt64_of_le h
  rw [slice, if_pos ⟨UInt64.zero_le, by omega⟩, UInt64.sub_zero, small]

theorem accessible_word (a : UInt64) {w : Nat} (h : w ≤ 8) :
    accessible a w.toUInt64 = Memory.fits a.toNat w := by
  rw [accessible_eq, toNat_toUInt64_of_le h]

theorem slice_word {a : UInt64} {w : Nat} (h : w ≤ 8) (fits : Memory.fits a.toNat w = true) :
    slice a (a + w.toUInt64) memSize = .ok w := by
  have small := toNat_toUInt64_of_le h
  rw [slice_eq (by rw [small]; exact fits), small]

theorem copyOut_eq (mem : Memory) {a n : Nat} (h : a + n ≤ memSize) :
    copyOut mem a n = .ok (mem.read a n) := by
  induction n generalizing a with
  | zero => rfl
  | succ n ih =>
    have here : a < memSize := by omega
    rw [copyOut, get_eq mem.cells here, ih (by omega), Memory.read, Memory.get]
    rw [Vector.getElem?_eq_getElem here]
    rfl

theorem setIfInBounds_eq {α : Type} {n : Nat} (items : Vector α n) {i : Nat} (h : i < n) (x : α) :
    items.setIfInBounds i x = items.set i x := by
  ext j hj
  rw [Vector.getElem_setIfInBounds, Vector.getElem_set]

theorem copyIn_eq (mem : Memory) {a : Nat} {text : Bytes} (h : a + text.length ≤ memSize) :
    copyIn mem a text = .ok (mem.write a text) := by
  induction text generalizing mem a with
  | nil => rfl
  | cons b rest ih =>
    rw [List.length_cons] at h
    have here : a < memSize := by omega
    rw [copyIn, put_eq mem.cells here, Memory.write, Memory.set, setIfInBounds_eq mem.cells here]
    exact ih ⟨mem.cells.set a b here⟩ (by omega)

theorem div128_eq {hi lo d : UInt64} (h : ¬ (d = 0 ∨ d ≤ hi)) : div128 hi lo d =
    .ok (((hi.toNat * 18446744073709551616 + lo.toNat) / d.toNat).toUInt64,
      ((hi.toNat * 18446744073709551616 + lo.toNat) % d.toNat).toUInt64) := by
  rw [not_or, UInt64.le_iff_toNat_le] at h
  have small : (hi.toNat * 2 ^ 64 + lo.toNat) / d.toNat < 2 ^ 64 := by
    have low := lo.toNat_lt
    rw [Nat.div_lt_iff_lt_mul (by omega)]
    omega
  rw [div128, if_neg h.1, if_neg (Nat.not_le.mpr small)]
  rfl

theorem tooWide_eq (a b full cut : Int64) : tooWide a b full cut =
    .ok (cut != full || (a != 0 && (full / a != b || (a == -1 && b == Int64.minValue)))) := by
  unfold tooWide
  by_cases kept : cut = full
  · by_cases zero : a = 0
    · simp [kept, zero]
    · have nonzero : (a != 0) = true := bne_iff_ne.mpr zero
      rw [if_neg (not_not.mpr kept), if_neg zero, quotient, if_neg zero, kept, bne_self_eq_false,
        Bool.false_or, nonzero, Bool.true_and]
      rfl
  · rw [if_pos kept, bne_iff_ne.mpr kept, Bool.true_or]

theorem imul_eq (w : Width) (dst src : UInt64) : imul w dst src = .ok (Alu.imul w dst src) := by
  simp only [imul, tooWide_eq]
  rfl

theorem alu_eq (op : AluOp) (w : Width) (dst src : UInt64) :
    alu op w dst src = .ok (Alu.apply op w dst src) := by
  cases op with
  | imul => exact imul_eq w dst src
  | _ => rfl

end Bounds

section Operations

theorem liftM_ok {α : Type} (x : α) : (liftM (Except.ok x : Except Panic α) : Except Abort α) = .ok x :=
  rfl

theorem ok_bind {ε α β : Type} (x : α) (f : α → Except ε β) : (Except.ok x >>= f) = f x := rfl

theorem size_le_eight (w : Width) : w.size ≤ 8 := by
  cases w <;> decide

theorem loadWord_eq (m : Machine) (a : UInt64) {w : Nat} (hw : w ≤ 8) :
    loadWord m a w = (m.loadWord a w).mapError .fault := by
  rw [loadWord, Machine.loadWord, accessible_word a hw]
  by_cases fits : Memory.fits a.toNat w = true
  · rw [if_pos fits, if_pos fits]
    simp only [slice_buffer hw, slice_word hw fits, liftM_ok, ok_bind, Nat.min_self,
      copyOut_eq m.memory (le_of_fits fits)]
    rfl
  · rw [if_neg fits, if_neg fits]
    rfl

theorem storeWord_eq (m : Machine) (a : UInt64) {w : Nat} (hw : w ≤ 8) (v : UInt64) :
    storeWord m a w v = .ok (m.storeWord a w v) := by
  rw [storeWord, Machine.storeWord, accessible_word a hw]
  by_cases fits : Memory.fits a.toNat w = true
  · have room : a.toNat + (LittleEndian.encode w v.toNat).length ≤ memSize := by
      rw [LittleEndian.length_encode]
      exact le_of_fits fits
    rw [if_pos fits, if_pos fits]
    simp only [slice_buffer hw, slice_word hw fits, ok_bind, Nat.min_self, copyIn_eq m.memory room]
    rfl
  · rw [if_neg fits, if_neg fits]
    rfl

theorem readBytes_eq (m : Machine) (a : UInt64) (n : Int64) :
    readBytes m a n = (m.readBytes a n).mapError .fault := by
  rw [readBytes, Machine.readBytes, accessible_eq]
  by_cases fits : Memory.fits a.toNat n.toUInt64.toNat = true
  · rw [if_pos fits, if_pos fits, slice_eq fits, liftM_ok, ok_bind,
      copyOut_eq m.memory (le_of_fits fits)]
    rfl
  · rw [if_neg fits, if_neg fits]
    rfl

theorem address_general (p : Image) (m : Machine) (r : Reg) (d : Int64) (s : Bytes) :
    address p m (.memory (.general r .qword) d s) =
      (m.address p (.memory (.general r .qword) d s)).mapError .fault := by
  simp only [address, Machine.address, reg_eq, liftM_ok, ok_bind]
  by_cases plain : s = []
  · rw [if_pos plain, if_pos plain]
    rfl
  · rw [if_neg plain, if_neg plain]
    cases Machine.dataAddress p s <;> rfl

theorem address_eq (p : Image) (m : Machine) (op : Operand) :
    address p m op = (m.address p op).mapError .fault := by
  cases op with
  | memory b d s =>
    cases b with
    | general r w =>
      cases w with
      | qword => exact address_general p m r d s
      | byte | dword => rfl
    | rip | unknown _ => rfl
  | register _ | immediate _ | address _ | target _ | bare _ => rfl

theorem read_eq (p : Image) (m : Machine) (op : Operand) (w : Width) :
    read p m op w = (m.read p op w).mapError .fault := by
  cases op with
  | register r =>
    cases r with
    | general r rw =>
      simp only [read, reg_eq, liftM_ok, ok_bind]
      rfl
    | rip | unknown _ => rfl
  | memory b d s =>
    simp only [read, Machine.read, address_eq]
    cases m.address p (.memory b d s) with
    | error f => rfl
    | ok a => exact loadWord_eq m a (size_le_eight w)
  | immediate _ | address _ | target _ | bare _ => rfl

theorem setRegAt_eq (m : Machine) (r : Reg) (w : Width) (v : UInt64) :
    setRegAt m r w v = .ok (m.setRegAt r w v) := by
  cases w with
  | byte =>
    rw [setRegAt, reg_eq, ok_bind, setReg_eq]
    rfl
  | dword | qword => exact setReg_eq m r _

theorem write_eq (p : Image) (m : Machine) (op : Operand) (w : Width) (v : UInt64) :
    write p m op w v = .ok (m.write p op w v) := by
  cases op with
  | register r =>
    cases r with
    | general r rw =>
      simp only [write, setRegAt_eq]
      rfl
    | rip | unknown _ => rfl
  | memory b d s =>
    simp only [write, Machine.write, address_eq]
    cases m.address p (.memory b d s) with
    | error f => rfl
    | ok a => exact storeWord_eq m a (size_le_eight w) v
  | immediate _ | address _ | target _ | bare _ => rfl

theorem push_eq (m : Machine) (v : UInt64) : push m v = .ok (m.push v) := by
  simp only [push, reg_eq, ok_bind, storeWord_eq m _ (Nat.le_refl 8), Machine.storeWord, Machine.push]
  by_cases fits : Memory.fits (m.reg .rsp - 8).toNat 8 = true
  · rw [if_pos fits, if_pos fits]
    simp only [setReg_eq, ok_bind]
    rfl
  · rw [if_neg fits, if_neg fits]
    rfl

theorem top_eq (m : Machine) : top m = m.top.mapError .fault := by
  rw [top, reg_eq, liftM_ok, ok_bind]
  exact loadWord_eq m _ (Nat.le_refl 8)

theorem drop_eq (m : Machine) : drop m = .ok m.drop := by
  rw [drop, reg_eq, ok_bind, setReg_eq]
  rfl

theorem div_eq (m : Machine) (d : UInt64) : div m d = .ok (m.div d) := by
  simp only [div, reg_eq, ok_bind, Machine.div]
  by_cases fails : d = 0 ∨ d ≤ m.reg .rdx
  · rw [if_pos fails, if_pos fails]
    rfl
  · rw [if_neg fails, if_neg fails, div128_eq fails]
    simp only [ok_bind, setReg_eq]
    rfl

theorem idiv_eq (m : Machine) (d : Int64) : idiv m d = .ok (m.idiv d) := by
  simp only [idiv, reg_eq, ok_bind, Machine.idiv]
  by_cases wide : m.reg .rdx ≠ ((m.reg .rax).toInt64 >>> 63).toUInt64
  · rw [if_pos wide, if_pos wide]
    rfl
  · rw [if_neg wide, if_neg wide]
    by_cases fails : d = 0 ∨ ((m.reg .rax).toInt64 = Int64.minValue ∧ d = -1)
    · rw [if_pos fails, if_pos fails]
      rfl
    · have nonzero : ¬ d = 0 := (not_or.mp fails).1
      rw [if_neg fails, if_neg fails]
      simp only [quotient, remainder, if_neg nonzero, ok_bind, setReg_eq]
      rfl

theorem writeCall_eq (m : Machine) : writeCall m = .ok m.writeCall := by
  simp only [writeCall, reg_eq, ok_bind, liftM_ok, readBytes_eq, setReg_eq, Machine.writeCall]
  by_cases open_ : m.reg .rdi = 1 ∨ m.reg .rdi = 2
  · rw [if_pos open_, if_pos open_]
    cases m.readBytes (m.reg .rsi) (m.reg .rdx).toInt64 <;> rfl
  · rw [if_neg open_, if_neg open_]
    rfl

theorem syscall_eq (m : Machine) : syscall m = .ok m.syscall := by
  simp only [syscall, reg_eq, ok_bind, writeCall_eq, Machine.syscall]
  split
  · rfl
  · split <;> rfl

end Operations

section Instructions
variable (p : Image) (m : Machine) (name : Mnemonic) (a b : Operand)

theorem operand_single : operand ⟨name, [a]⟩ 0 = .ok a ∧ Instr.operand ⟨name, [a]⟩ 0 = .ok a :=
  ⟨rfl, rfl⟩

theorem operand_source : operand ⟨name, [a, b]⟩ 0 = .ok a ∧ Instr.operand ⟨name, [a, b]⟩ 0 = .ok a :=
  ⟨rfl, rfl⟩

theorem operand_destination :
    operand ⟨name, [a, b]⟩ 1 = .ok b ∧ Instr.operand ⟨name, [a, b]⟩ 1 = .ok b := ⟨rfl, rfl⟩

/-- The instructions with a source and a destination. -/
theorem exec_pair (two : name.arity? = some 2) :
    exec p ⟨name, [a, b]⟩ m = .ok (Machine.exec p ⟨name, [a, b]⟩ m) := by
  cases name with
  | move op =>
    simp only [exec, Machine.exec, operand_source, operand_destination, liftM_ok, ok_bind, read_eq,
      write_eq]
    cases m.read p a _ <;> rfl
  | lea =>
    simp only [exec, Machine.exec, operand_source, operand_destination, liftM_ok, ok_bind, address_eq,
      write_eq]
    cases m.address p a <;> rfl
  | alu op =>
    simp only [exec, Machine.exec, operand_source, operand_destination, liftM_ok, ok_bind, read_eq,
      write_eq, alu_eq]
    cases m.read p a _ with
    | error f => rfl
    | ok src =>
      cases m.read p b _ with
      | error f => rfl
      | ok dst =>
        change (if Alu.stores op = true then _ else _) = Except.ok (if Alu.stores op = true then _ else _)
        split <;> rfl
  | _ => cases two

theorem exec_single (one : name.arity? = some 1) :
    exec p ⟨name, [a]⟩ m = .ok (Machine.exec p ⟨name, [a]⟩ m) := by
  cases name with
  | unary _ | div | idiv | push =>
    simp only [exec, Machine.exec, operand_single, liftM_ok, ok_bind, read_eq, write_eq, div_eq,
      idiv_eq, push_eq]
    cases m.read p a _ <;> rfl
  | pop =>
    simp only [exec, Machine.exec, operand_single, ok_bind, top_eq, drop_eq, write_eq]
    cases m.top <;> rfl
  | call =>
    simp only [exec, Machine.exec, operand_single, liftM_ok, ok_bind, push_eq]
    cases Machine.jumpTarget p a with
    | error f => rfl
    | ok target =>
      cases m.push (UInt64.ofInt (textBase + m.rip)) with
      | mk pushed stop => cases stop <;> rfl
  | jump c =>
    simp only [exec, Machine.exec, operand_single, liftM_ok, ok_bind]
    split
    · cases Machine.jumpTarget p a <;> rfl
    · rfl
  | _ => cases one

theorem exec_plain (none : name.arity? = some 0) :
    exec p ⟨name, []⟩ m = .ok (Machine.exec p ⟨name, []⟩ m) := by
  cases name with
  | nop => rfl
  | cqo =>
    simp only [exec, reg_eq, setReg_eq, ok_bind]
    rfl
  | syscall => exact syscall_eq m
  | ret =>
    simp only [exec, Machine.exec, ok_bind, top_eq, drop_eq]
    cases m.top with
    | error f => rfl
    | ok v =>
      change (if _ then _ else _) = Except.ok (if _ then _ else _)
      split <;> rfl
  | _ => cases none

theorem arity_le {name : Mnemonic} {n : Nat} (h : name.arity? = some n) : n ≤ 2 := by
  cases name <;> cases h <;> decide

theorem exec_eq (i : Instr) (arity : i.mnemonic.arity? = some i.operands.length) :
    exec p i m = .ok (Machine.exec p i m) := by
  obtain ⟨name, ops⟩ := i
  match ops with
  | [] => exact exec_plain p m name arity
  | [a] => exact exec_single p m name a arity
  | [a, b] => exact exec_pair p m name a b arity
  | a :: b :: c :: rest =>
    have few := arity_le arity
    simp only [List.length_cons] at few
    omega

end Instructions

section Fetch
variable {α : Type} {items : Array α} {i : Int}

theorem atIndex?_outside (h : i < 0 ∨ items.size ≤ i) : atIndex? items i = none := by
  cases i with
  | ofNat n =>
    rw [Int.ofNat_eq_natCast] at h
    have high : items.size ≤ n := by omega
    exact Array.getElem?_eq_none high
  | negSucc n => rfl

theorem atIndex?_inside (h : ¬ (i < 0 ∨ items.size ≤ i)) :
    ∃ x ∈ items, atIndex? items i = some x ∧ get items.toVector i.toNat = .ok x := by
  cases i with
  | ofNat n =>
    rw [Int.ofNat_eq_natCast] at h
    have low : n < items.size := by omega
    exact ⟨items[n], Array.getElem_mem low, Array.getElem?_eq_getElem low, get_eq items.toVector low⟩
  | negSucc n => omega

end Fetch

theorem step_eq (p : Image) (m : Machine)
    (arity : ∀ c ∈ p.text, c.instr.mnemonic.arity? = some c.instr.operands.length) :
    step p m = .ok (Machine.step p m) := by
  unfold step Machine.step
  split
  · rfl
  · split
    · rfl
    · by_cases outside : m.rip < 0 ∨ p.text.size ≤ m.rip
      · rw [if_pos outside, atIndex?_outside outside]
        rfl
      · obtain ⟨c, hc, fetch, found⟩ := atIndex?_inside outside
        rw [if_neg outside, fetch, found, ok_bind, exec_eq p m.fetched c.instr (arity c hc), ok_bind]
        simp only
        cases Machine.exec p c.instr m.fetched with
        | mk after stop => cases stop <;> rfl

end Bounded

/-- The assembler accepts an instruction only with the operands that it takes, whatever labels it knows
already. -/
theorem Assembler.arity_of_assemble {known : Labels} {text : Bytes} {p : Image}
    (h : (Assembler.assemble known text).2 = .ok p) :
    ∀ c ∈ p.text, c.instr.mnemonic.arity? = some c.instr.operands.length :=
  fun c hc => (Assembler.readable_of_assemble h c hc).arity

/-- No instruction of an assembled listing leaves a bound, whatever the state of the machine: neither the
one that is next nor, with the counters out of play, any other. The assembler may know labels of earlier
listings, and may have learned more since. -/
theorem assembled_code_stays_in_bounds {known : Labels} {text : Bytes} {p : Image}
    (h : (Assembler.assemble known text).2 = .ok p) (labels : Labels) (m : Machine) :
    Bounded.step { p with labels } m = .ok (Machine.step { p with labels } m) ∧
      ∀ c ∈ p.text, Bounded.exec { p with labels } c.instr m =
        .ok (Machine.exec { p with labels } c.instr m) := by
  have arity := Assembler.arity_of_assemble h
  refine ⟨Bounded.step_eq { p with labels } m arity, ?_⟩
  intro c hc
  exact Bounded.exec_eq { p with labels } m c.instr (arity c hc)

def arithmeticListing : Bytes := bytes
  "f: div %rcx\n idiv %rcx\n imul %rax, %rbx\n push %rax\n movb old(%rsp), %al\n jmp f\n syscall"

def arithmeticImage : Image where
  text := #[⟨1, .div, [.reg .rcx]⟩, ⟨2, .idiv, [.reg .rcx]⟩, ⟨3, .alu .imul, [.reg .rax, .reg .rbx]⟩,
    ⟨4, .push, [.reg .rax]⟩,
    ⟨5, .move .movb, [.memory (.general .rsp .qword) 0 (bytes "old"), .register (.general .rax .byte)]⟩,
    ⟨6, .jump .always, [.target (bytes "f")]⟩, ⟨7, .syscall, []⟩]
  runs := []
  labels := [(bytes "f", ⟨.text, 0⟩), (bytes "old", ⟨.data, 7⟩)]
  globals := []

def wildMachine : Machine where
  regs := Vector.replicate 16 0xffffffffffffffff
  rip := 6
  flags := ⟨true, true, true, true⟩
  memory := Memory.zero
  halted := false
  exitCode := -1
  steps := 5
  maxSteps := -3
  syscalls := ⟨0xffffffffffffffff, 0⟩
  out := #[]
  errout := #[]

theorem arithmeticListing_stays_in_bounds :
    (Assembler.assemble [(bytes "old", ⟨.data, 7⟩)] arithmeticListing).2 = .ok arithmeticImage ∧
      Bounded.step { arithmeticImage with labels := [] } wildMachine =
        .ok (Machine.step { arithmeticImage with labels := [] } wildMachine) ∧
      ∀ c ∈ arithmeticImage.text, Bounded.exec arithmeticImage c.instr wildMachine =
        .ok (Machine.exec arithmeticImage c.instr wildMachine) := by
  have accepted : (Assembler.assemble [(bytes "old", ⟨.data, 7⟩)] arithmeticListing).2 =
      .ok arithmeticImage := by decide +kernel
  exact ⟨accepted, (assembled_code_stays_in_bounds accepted [] wildMachine).1,
    (assembled_code_stays_in_bounds accepted arithmeticImage.labels wildMachine).2⟩

end PrintLang
