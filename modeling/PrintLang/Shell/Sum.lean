import PrintLang.Bytes.Blank
import PrintLang.Bytes.Integer
import PrintLang.Shell

set_option autoImplicit false

namespace PrintLang

namespace Shell

namespace Sum

inductive SumError where
  | noOperand
  | notFinished
  | notClosed
  | divisionByZero
  | notNumber (text : Bytes)
deriving DecidableEq, Repr

def SumError.message (expression : Bytes) : SumError → Bytes
  | .noOperand => about (bytes "expecting primary")
  | .notFinished => about (bytes "expecting EOF")
  | .notClosed => about (bytes "expecting ')'")
  | .divisionByZero => about (bytes "division by zero")
  | .notNumber text => bytes "Illegal number: " ++ text
where
  about (problem : Bytes) : Bytes :=
    bytes "arithmetic expression: " ++ problem ++ bytes ": \"" ++ expression ++ bytes "\""

def wrap (n : Int) : Int := Int.bmod n (Nat.pow 2 64)

def truth (p : Bool) : Int := if p then 1 else 0

/-- The operators with two operands, the longer ones first, each with how tightly it binds. -/
def operators : List (String × Nat) :=
  [("||", 1), ("&&", 2), ("==", 6), ("!=", 6), ("<<", 8), (">>", 8), ("<=", 7), (">=", 7), ("<", 7),
    (">", 7), ("|", 3), ("^", 4), ("&", 5), ("+", 9), ("-", 9), ("*", 10), ("/", 10), ("%", 10)]

def operator? (s : Bytes) : Option (String × Nat) :=
  operators.find? fun (o, _) => Bytes.startsWith s (bytes o)

def apply (o : String) (a b : Int) : Except SumError Int :=
  let word (n : Int) : Nat := (n % (Nat.pow 2 64 : Nat)).toNat
  match o with
  | "||" => .ok (truth (a != 0 || b != 0))
  | "&&" => .ok (truth (a != 0 && b != 0))
  | "==" => .ok (truth (a == b))
  | "!=" => .ok (truth (a != b))
  | "<=" => .ok (truth (a ≤ b))
  | ">=" => .ok (truth (b ≤ a))
  | "<" => .ok (truth (a < b))
  | ">" => .ok (truth (b < a))
  | "<<" => .ok (wrap (a * (Nat.pow 2 (word b % 64) : Nat)))
  | ">>" => .ok (a / (Nat.pow 2 (word b % 64) : Nat))
  | "|" => .ok (wrap (word a ||| word b : Nat))
  | "^" => .ok (wrap (word a ^^^ word b : Nat))
  | "&" => .ok (wrap (word a &&& word b : Nat))
  | "+" => .ok (wrap (a + b))
  | "-" => .ok (wrap (a - b))
  | "*" => .ok (wrap (a * b))
  | "/" => if b = 0 then .error .divisionByZero else .ok (wrap (a.tdiv b))
  | _ => if b = 0 then .error .divisionByZero else .ok (a.tmod b)

def skipBlanks (s : Bytes) : Bytes := s.dropWhile fun b => b == 32 || b == 9 || b == 10

def number? (s : Bytes) : Option Int :=
  let (negative, digits) := match s with
    | 45 :: rest => (true, rest)
    | _ => (false, s)
  let found := match digits with
    | 48 :: x :: rest =>
      if x = 120 ∨ x = 88 then Integer.readUnsigned (.fixed 16) 63 rest
      else Integer.readUnsigned (.fixed 8) 63 (x :: rest)
    | _ => Integer.readUnsigned .decimal 63 digits
  found.toOption.map fun n => if negative then -(n : Int) else n

mutual

def operand (value : Bytes → Bytes) : (fuel : Nat) → Bytes → Except SumError (Int × Bytes)
  | 0, _ => .error .noOperand
  | fuel + 1, s =>
    match skipBlanks s with
    | 40 :: rest => do
      let (n, rest) ← expression value fuel 1 rest
      match skipBlanks rest with
      | 41 :: rest => .ok (n, rest)
      | _ => .error .notClosed
    | 45 :: rest => do
      let (n, rest) ← operand value fuel rest
      .ok (wrap (-n), rest)
    | 43 :: rest => operand value fuel rest
    | 33 :: rest => do
      let (n, rest) ← operand value fuel rest
      .ok (truth (n == 0), rest)
    | 126 :: rest => do
      let (n, rest) ← operand value fuel rest
      .ok (-n - 1, rest)
    | s =>
      let text := s.takeWhile isNameByte
      let rest := s.dropWhile isNameByte
      if text = [] then .error .noOperand
      else if isName text then
        let v := value text
        if v = [] then .ok (0, rest)
        else match number? (Bytes.trimBy (fun b => b == 32 || b == 9 || b == 10) v) with
          | some n => .ok (n, rest)
          | none => .error (.notNumber v)
      else match number? text with
        | some n => .ok (n, rest)
        | none => .error .notFinished

/-- An expression whose operators bind at least as tightly as `level`. -/
def expression (value : Bytes → Bytes) :
    (fuel level : Nat) → Bytes → Except SumError (Int × Bytes)
  | 0, _, _ => .error .noOperand
  | fuel + 1, level, s => do
    let (n, rest) ← operand value fuel s
    more value fuel level n rest

def more (value : Bytes → Bytes) :
    (fuel level : Nat) → Int → Bytes → Except SumError (Int × Bytes)
  | 0, _, n, s => .ok (n, s)
  | fuel + 1, level, n, s =>
    match operator? (skipBlanks s) with
    | none => .ok (n, s)
    | some (o, l) =>
      if l < level then .ok (n, s)
      else do
        let (m, rest) ← expression value fuel (l + 1) ((skipBlanks s).drop o.utf8ByteSize)
        more value fuel level (← apply o n m) rest

end

def eval (value : Bytes → Bytes) (s : Bytes) : Except SumError Int := do
  let (n, rest) ← expression value (3 * s.length + 3) 1 s
  if skipBlanks rest = [] then return n else throw .notFinished

end Sum

end Shell

end PrintLang
