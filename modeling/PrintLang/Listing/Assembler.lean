import PrintLang.Listing.Reader

/-!
# From listing text to a program image

The first pass gives every label its section and address; the second decodes instructions and data
and checks every reference. Labels live in a table that an assembler keeps from listing to listing,
also when a listing is refused.
-/

set_option autoImplicit false

namespace PrintLang

inductive Section where
  | text
  | data
deriving DecidableEq, Repr

def Section.name : Section → Bytes
  | .text => bytes ".text"
  | .data => bytes ".data"

/-- A resolved label: an instruction index in the text or a byte offset in the data. -/
structure Symbol where
  part : Section
  addr : Int
deriving DecidableEq, Repr

abbrev Labels := List (Bytes × Symbol)

structure CodeLine where
  line : Int
  instr : Instr
deriving DecidableEq, Repr

/-- What a line adds to the data: bytes that are written out, or a number of zeros. -/
inductive DataRun where
  | bytes (values : Bytes)
  | zeros (count : Nat)
deriving DecidableEq, Repr

namespace DataRun

def size : DataRun → Nat
  | .bytes values => values.length
  | .zeros count => count

def toBytes : DataRun → Bytes
  | .bytes values => values
  | .zeros count => List.replicate count 0

theorem length_toBytes (r : DataRun) : r.toBytes.length = r.size := by
  cases r <;> simp [toBytes, size]

end DataRun

/-- An assembled listing. The data is kept as runs, so that its size is known without spelling out the
zeros. -/
structure Image where
  text : Array CodeLine
  runs : List DataRun
  labels : Labels
  globals : List Bytes
deriving DecidableEq, Repr

namespace Image

def lookup? (p : Image) (name : Bytes) : Option Symbol := p.labels.lookup name

def data (p : Image) : Bytes := p.runs.flatMap DataRun.toBytes

def dataSize (p : Image) : Nat := p.runs.foldr (fun r n => r.size + n) 0

theorem length_data (p : Image) : p.data.length = p.dataSize := by
  unfold data dataSize
  induction p.runs with
  | nil => rfl
  | cons r rs ih => simp [DataRun.length_toBytes, ih]

end Image

/-- Where the first pass stands: the section in force, the sizes so far and the labels so far. The size
of the data is a machine number, which wraps around; the second pass refuses data for which it would. -/
structure Placement where
  part : Section
  textSize : Nat
  dataSize : Int64
  labels : Labels
deriving DecidableEq, Repr

namespace Placement

def start (labels : Labels) : Placement := ⟨.text, 0, 0, labels⟩

def here (p : Placement) : Symbol :=
  ⟨p.part, match p.part with
    | .text => p.textSize
    | .data => p.dataSize.toInt⟩

/-- Defines labels here, up to the first that is known already. -/
def define (p : Placement) (line : Nat) : List Bytes → Placement × Option ListingError
  | [] => (p, none)
  | l :: ls =>
    match p.labels.lookup l with
    | some _ => (p, some (.duplicateLabel l line))
    | none => define { p with labels := (l, p.here) :: p.labels } line ls

end Placement

inductive Directive where
  | nothing
  | textSection
  | dataSection
  | global
  | byteData
  | zeroData
  | unknown
  | instruction
deriving DecidableEq, Repr

def Directive.ofWord (word : Bytes) : Directive :=
  if word = [] then .nothing
  else if word = bytes ".text" then .textSection
  else if word = bytes ".data" then .dataSection
  else if word = bytes ".globl" ∨ word = bytes ".global" then .global
  else if word = bytes ".byte" then .byteData
  else if word = bytes ".zero" then .zeroData
  else if word.head? = some 46 then .unknown
  else .instruction

namespace SourceLine

def zeroCount (l : SourceLine) : Except ListingError Nat :=
  match l.operands with
  | [text] =>
    match Integer.read .decimal 64 text with
    | .ok (.ofNat n) => .ok n
    | _ => .error (.zeroSize text l.line)
  | _ => .error (.zeroOperands l.line)

def advance (l : SourceLine) (p : Placement) : Placement × Option ListingError :=
  match Directive.ofWord l.word with
  | .nothing => (p, none)
  | .textSection => ({ p with part := .text }, none)
  | .dataSection => ({ p with part := .data }, none)
  | .global => (p, none)
  | .byteData =>
    match p.part with
    | .data => ({ p with dataSize := p.dataSize + Int64.ofNat l.operands.length }, none)
    | .text => (p, some (.bytesOutsideData l.line))
  | .zeroData =>
    match l.zeroCount with
    | .ok n => ({ p with dataSize := p.dataSize + Int64.ofNat n }, none)
    | .error e => (p, some e)
  | .unknown => (p, some (.unknownDirective l.line l.word))
  | .instruction =>
    match p.part with
    | .text => ({ p with textSize := p.textSize + 1 }, none)
    | .data => (p, some (.outsideText l.line l.word))

def place (l : SourceLine) (p : Placement) : Placement × Option ListingError :=
  match p.define l.line l.labels with
  | (p, some e) => (p, some e)
  | (p, none) => l.advance p

def byteValue (l : SourceLine) (text : Bytes) : Except ListingError UInt8 :=
  match Integer.read .marked 16 text with
  | .ok v => if -128 ≤ v ∧ v ≤ 255 then .ok (UInt8.ofInt v) else .error (.byteValue text l.line)
  | .error _ => .error (.byteValue text l.line)

def operand (l : SourceLine) (labels : Labels) (text : Bytes) : Except ListingError Operand :=
  match Reader.readOperand text l.line with
  | .error e => .error e
  | .ok op =>
    if op.symbol ≠ [] ∧ labels.lookup op.symbol = none then
      .error (.undefinedLabel op.symbol l.line)
    else .ok op

end SourceLine

inductive Item where
  | nothing
  | code (c : CodeLine)
  | data (run : DataRun)
  | global (name : Bytes)
deriving DecidableEq, Repr

namespace Item

def code? : Item → Option CodeLine
  | .code c => some c
  | _ => none

def run? : Item → Option DataRun
  | .data run => some run
  | _ => none

def dataSize (i : Item) : Nat := (i.run?.map DataRun.size).getD 0

def global? : Item → Option Bytes
  | .global name => some name
  | _ => none

end Item

namespace SourceLine

def instruction (l : SourceLine) (labels : Labels) : Except ListingError Item :=
  let m := Mnemonic.ofName l.word
  match m.arity? with
  | none => .error (.unknownInstruction l.line l.word)
  | some n =>
    if l.operands.length ≠ n then .error (.operandCount l.word n l.line)
    else do
      let ops ← l.operands.mapM (l.operand labels)
      return .code ⟨l.line, m, ops⟩

def decode (l : SourceLine) (labels : Labels) : Except ListingError Item :=
  match Directive.ofWord l.word with
  | .nothing => .ok .nothing
  | .textSection => .ok .nothing
  | .dataSection => .ok .nothing
  | .global =>
    match l.operands with
    | [name] => .ok (.global name)
    | _ => .error (.globalOperands l.word l.line)
  | .byteData => do
    let values ← l.operands.mapM l.byteValue
    return .data (.bytes values)
  | .zeroData => do
    let n ← l.zeroCount
    return .data (.zeros n)
  | .unknown => l.instruction labels
  | .instruction => l.instruction labels

end SourceLine

namespace Assembler

def placeAll : Placement → List SourceLine → Placement × Option ListingError
  | p, [] => (p, none)
  | p, l :: ls =>
    match l.place p with
    | (p, some e) => (p, some e)
    | (p, none) => placeAll p ls

def link (labels : Labels) (items : List Item) : Except ListingError Image :=
  let globals := items.filterMap Item.global?
  match globals.find? fun g => (labels.lookup g).isNone with
  | some g => .error (.undefinedGlobal g)
  | none => .ok ⟨(items.filterMap Item.code?).toArray, items.filterMap Item.run?, labels, globals⟩

/-- Decodes a line behind a number of data bytes, which with those of the line must not be more than a
text can have. -/
def decodeNext (labels : Labels) (l : SourceLine) : StateT Nat (Except ListingError) Item := do
  let item ← l.decode labels
  let size := (← get) + item.dataSize
  if Bytes.maxSize < size then throw (.dataTooLarge l.line)
  set size
  return item

def decodeAll (labels : Labels) (ls : List SourceLine) : Except ListingError Image := do
  let (items, _) ← (ls.mapM (decodeNext labels)).run 0
  link labels items

/-- Assembles a listing on top of known labels; gives the labels known afterwards, and the image
unless the listing is refused. -/
def assemble (labels : Labels) (text : Bytes) : Labels × Except ListingError Image :=
  match Reader.readLines text with
  | .error e => (labels, .error e)
  | .ok ls =>
    match placeAll (.start labels) ls with
    | (p, some e) => (p.labels, .error e)
    | (p, none) => (p.labels, decodeAll p.labels ls)

end Assembler

def assemble (text : Bytes) : Except ListingError Image := (Assembler.assemble [] text).2

end PrintLang
