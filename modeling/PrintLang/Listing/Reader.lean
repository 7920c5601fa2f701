import PrintLang.Bytes.Integer
import PrintLang.Bytes.Lower
import PrintLang.Listing.Instr

set_option autoImplicit false

namespace PrintLang

inductive ListingError where
  | invalidLabel (label : Bytes) (line : Nat)
  | duplicateLabel (label : Bytes) (line : Nat)
  | bytesOutsideData (line : Nat)
  | zeroOperands (line : Nat)
  | zeroSize (text : Bytes) (line : Nat)
  | unknownDirective (line : Nat) (word : Bytes)
  | outsideText (line : Nat) (word : Bytes)
  | globalOperands (word : Bytes) (line : Nat)
  | byteValue (text : Bytes) (line : Nat)
  | dataTooLarge (line : Nat)
  | unknownInstruction (line : Nat) (word : Bytes)
  | operandCount (word : Bytes) (arity : Nat) (line : Nat)
  | undefinedLabel (label : Bytes) (line : Nat)
  | undefinedGlobal (name : Bytes)
  | emptyOperand (line : Nat)
  | invalidRegister (text : Bytes) (line : Nat)
  | invalidImmediate (text : Bytes) (line : Nat)
  | invalidMemory (text : Bytes) (line : Nat)
  | indexedAddress (line : Nat) (text : Bytes)
  | invalidBase (text : Bytes) (line : Nat)
  | invalidDisplacement (text : Bytes) (line : Nat)
  | invalidOperand (text : Bytes) (line : Nat)
deriving DecidableEq, Repr

namespace ListingError

def onLine (line : Nat) : Bytes := bytes " on line " ++ decimalNat line

def cited (text : Bytes) : Bytes := 39 :: text ++ [39]

def message : ListingError → Bytes
  | .invalidLabel l n => bytes "invalid label " ++ cited l ++ onLine n
  | .duplicateLabel l n => bytes "duplicate label " ++ cited l ++ onLine n
  | .bytesOutsideData n => bytes ".byte outside .data" ++ onLine n
  | .zeroOperands n => bytes ".zero expects exactly one operand" ++ onLine n
  | .zeroSize t n => bytes "invalid .zero size " ++ cited t ++ onLine n
  | .unknownDirective n w => bytes "unknown directive" ++ onLine n ++ bytes ": " ++ w
  | .outsideText n w => bytes "instruction outside .text" ++ onLine n ++ bytes ": " ++ w
  | .globalOperands w n => w ++ bytes " expects exactly one symbol" ++ onLine n
  | .byteValue t n => bytes "invalid .byte value " ++ cited t ++ onLine n
  | .dataTooLarge n => bytes "data section too large" ++ onLine n
  | .unknownInstruction n w => bytes "unknown instruction" ++ onLine n ++ bytes ": " ++ w
  | .operandCount w a n => w ++ bytes " expects " ++ decimalNat a ++ bytes " operands" ++ onLine n
  | .undefinedLabel l n => bytes "undefined label " ++ cited l ++ onLine n
  | .undefinedGlobal g => bytes "global symbol " ++ cited g ++ bytes " is never defined"
  | .emptyOperand n => bytes "empty operand" ++ onLine n
  | .invalidRegister t n => bytes "invalid register " ++ cited t ++ onLine n
  | .invalidImmediate t n => bytes "invalid immediate " ++ cited t ++ onLine n
  | .invalidMemory t n => bytes "invalid memory operand " ++ cited t ++ onLine n
  | .indexedAddress n t =>
    bytes "indexed addressing is not supported" ++ onLine n ++ bytes ": " ++ t
  | .invalidBase t n => bytes "invalid base register in " ++ cited t ++ onLine n
  | .invalidDisplacement t n => bytes "invalid displacement " ++ cited t ++ onLine n
  | .invalidOperand t n => bytes "invalid operand " ++ cited t ++ onLine n

end ListingError

structure SourceLine where
  line : Nat
  labels : List Bytes
  word : Bytes
  operands : List Bytes
deriving DecidableEq, Repr

namespace Reader

def isSymbolStart (b : UInt8) : Bool :=
  (97 ≤ b && b ≤ 122) || (65 ≤ b && b ≤ 90) || b == 95 || b == 46

def isSymbolByte (b : UInt8) : Bool := isSymbolStart b || (48 ≤ b && b ≤ 57)

/-- Symbols are letters, digits, `_` and `.`, not starting with a digit. -/
def isSymbol : Bytes → Bool
  | [] => false
  | b :: rest => isSymbolStart b && rest.all isSymbolByte

def stripComment (s : Bytes) : Bytes := s.takeWhile (· != 35)

/-- Cuts at the commas outside parentheses. -/
def splitOperands : (depth : Int) → (current : Bytes) → Bytes → List Bytes
  | _, current, [] => [Bytes.trim current.reverse]
  | depth, current, b :: rest =>
    if b = 40 then splitOperands (depth + 1) (b :: current) rest
    else if b = 41 then splitOperands (depth - 1) (b :: current) rest
    else if b = 44 ∧ depth = 0 then Bytes.trim current.reverse :: splitOperands 0 [] rest
    else splitOperands depth (b :: current) rest

def operandTexts (s : Bytes) : List Bytes :=
  match Bytes.trim s with
  | [] => []
  | t => splitOperands 0 [] t

def cutWord (s : Bytes) : Bytes × Bytes :=
  let word := s.takeWhile (· != 32)
  let rest := s.drop (word.length + 1)
  match Bytes.indexOf? 9 word with
  | some tab => (word.take tab, word.drop (tab + 1) ++ 32 :: rest)
  | none => (word, rest)

/-- What stands before the first colon, when that ends a label. -/
def labelText? (s : Bytes) : Option (Bytes × Bytes) :=
  match Bytes.indexOf? 58 s with
  | none => none
  | some 0 => none
  | some n =>
    let label := Bytes.trim (s.take n)
    if label.any (fun b => b == 32 || b == 9) then none else some (label, s.drop (n + 1))

/-- Reads labels until none is left, then the word and its operands. Every label takes at least one
byte, so `fuel` bytes of text hold at most `fuel` labels. -/
def readParts (line : Nat) : (fuel : Nat) → Bytes → Except ListingError SourceLine
  | 0, _ => .ok ⟨line, [], [], []⟩
  | fuel + 1, s =>
    if s = [] then .ok ⟨line, [], [], []⟩
    else match labelText? s with
      | some (label, rest) =>
        if isSymbol label then
          match readParts line fuel (Bytes.trim rest) with
          | .ok parts => .ok { parts with labels := label :: parts.labels }
          | .error e => .error e
        else .error (.invalidLabel label line)
      | none =>
        let (word, rest) := cutWord s
        .ok ⟨line, [], Bytes.mapCodes lowerCode word, operandTexts rest⟩

def readLine (raw : Bytes) (line : Nat) : Except ListingError SourceLine :=
  let s := Bytes.trim (stripComment raw)
  readParts line (s.length + 1) s

def readLines (text : Bytes) : Except ListingError (List SourceLine) :=
  (Bytes.splitOn 10 text).zipIdx.mapM fun (raw, i) => readLine raw (i + 1)

def readNumber? (s : Bytes) : Option Int64 :=
  match Integer.read .marked 64 s with
  | .ok v => some (Int64.ofInt v)
  | .error _ => none

/-- The register that a name stands for; the instruction pointer counts as one. -/
def readRegister? (name : Bytes) : Option RegName :=
  match RegName.ofName name with
  | .unknown _ => none
  | r => some r

def readMemory (s : Bytes) (line : Nat) : Except ListingError Operand :=
  match Bytes.indexOf? 40 s with
  | none => .error (.invalidMemory s line)
  | some n =>
    let inner := (s.drop (n + 1)).dropLast
    let disp := s.take n
    if inner.contains 44 then .error (.indexedAddress line s)
    else match inner with
      | 37 :: name =>
        match readRegister? name with
        | none => .error (.invalidBase s line)
        | some base =>
          if disp = [] then .ok (.memory base 0 [])
          else match readNumber? disp with
            | some v => .ok (.memory base v [])
            | none =>
              if isSymbol disp then .ok (.memory base 0 disp)
              else .error (.invalidDisplacement disp line)
      | _ => .error (.invalidBase s line)

def readImmediate (s text : Bytes) (line : Nat) : Except ListingError Operand :=
  match readNumber? text with
  | some v => .ok (.immediate v)
  | none => if isSymbol text then .ok (.address text) else .error (.invalidImmediate s line)

def readOperand (s : Bytes) (line : Nat) : Except ListingError Operand :=
  match s with
  | [] => .error (.emptyOperand line)
  | 37 :: name =>
    match readRegister? name with
    | some r => .ok (.register r)
    | none => .error (.invalidRegister s line)
  | 36 :: text => readImmediate s text line
  | _ =>
    if Bytes.endsWith s [41] then readMemory s line
    else if isSymbol s then .ok (.target s)
    else .error (.invalidOperand s line)

end Reader

end PrintLang
