import PrintLang.Shell
import PrintLang.Shell.Sum

set_option autoImplicit false

namespace PrintLang

namespace Shell

def octal? (b : UInt8) : Option Nat := if 48 ≤ b && b ≤ 55 then some (b.toNat - 48) else none

def octalByte : (most value : Nat) → Bytes → UInt8 × Bytes
  | 0, value, s => (value.toUInt8, s)
  | _, value, [] => (value.toUInt8, [])
  | most + 1, value, b :: rest =>
    match octal? b with
    | some d => octalByte most (8 * value + d) rest
    | none => (value.toUInt8, b :: rest)

def escaped? (b : UInt8) : Option UInt8 :=
  match b with
  | 97 => some 7
  | 98 => some 8
  | 102 => some 12
  | 110 => some 10
  | 114 => some 13
  | 116 => some 9
  | 118 => some 11
  | 92 => some 92
  | 34 => some 34
  | _ => none

def escape : Bytes → UInt8 × Bytes
  | [] => (92, [])
  | b :: rest =>
    match escaped? b with
    | some c => (c, rest)
    | none => if (octal? b).isSome then octalByte 3 0 (b :: rest) else (92, b :: rest)

/-- A text with its escapes replaced, and whether one of them ends all output. -/
def unescape : (fuel : Nat) → Bytes → Bytes × Bool
  | 0, _ => ([], false)
  | _, [] => ([], false)
  | _, 92 :: 99 :: _ => ([], true)
  | fuel + 1, 92 :: 48 :: rest =>
    let (b, rest) := octalByte 3 0 rest
    let (s, ends) := unescape fuel rest
    (b :: s, ends)
  | fuel + 1, 92 :: rest =>
    let (b, rest) := escape rest
    let (s, ends) := unescape fuel rest
    (b :: s, ends)
  | fuel + 1, b :: rest =>
    let (s, ends) := unescape fuel rest
    (b :: s, ends)

def echoed (args : List Bytes) : Bytes :=
  let (newline, args) := match args with
    | [45, 110] :: rest => (false, rest)
    | _ => (true, args)
  let all := Bytes.join [32] args
  let (s, ends) := unescape all.length all
  if newline && !ends then s ++ [10] else s

structure Layout where
  left : Bool
  zero : Bool
  plus : Bool
  space : Bool
  alternate : Bool
  width : Nat
  precision : Option Nat
deriving DecidableEq, Repr

namespace Layout

def fill (l : Layout) (s : Bytes) : Bytes :=
  let missing := List.replicate (l.width - s.length) (32 : UInt8)
  if l.left then s ++ missing else missing ++ s

def text (l : Layout) (s : Bytes) : Bytes :=
  l.fill (match l.precision with
    | some p => s.take p
    | none => s)

def number (l : Layout) (sign digits : Bytes) : Bytes :=
  match l.precision with
  | some p => l.fill (sign ++ padZeros p (if p = 0 ∧ digits = [48] then [] else digits))
  | none =>
    if l.zero && !l.left then sign ++ padZeros (l.width - sign.length) digits
    else l.fill (sign ++ digits)

end Layout

structure Formatting where
  written : Bytes
  warnings : List Bytes
  args : List Bytes
  ended : Bool

namespace Formatting

def next (f : Formatting) : Bytes × Formatting := (f.args.headD [], { f with args := f.args.tail })

def write (f : Formatting) (s : Bytes) : Formatting := { f with written := f.written ++ s }

def warn (f : Formatting) (s : Bytes) : Formatting := { f with warnings := f.warnings ++ [s] }

def leadingNumber (s : Bytes) : Int × Bytes :=
  let s := s.dropWhile fun b => b == 32 || (9 ≤ b && b ≤ 13)
  let (sign, digits) : Bytes × Bytes := match s with
    | 45 :: rest => ([45], rest)
    | 43 :: rest => ([], rest)
    | _ => ([], s)
  let sizes := (List.range (digits.length + 1)).filter fun n =>
    n != 0 && (Sum.number? (digits.take n)).isSome
  match sizes.getLast? with
  | none => (0, s)
  | some n => ((Sum.number? (sign ++ digits.take n)).getD 0, digits.drop n)

def nextNumber (f : Formatting) : Int × Formatting :=
  match f.args with
  | [] => (0, f)
  | a :: rest =>
    let f := { f with args := rest }
    match a with
    | 39 :: b :: _ => (b.toNat, f)
    | 34 :: b :: _ => (b.toNat, f)
    | _ =>
      let (n, behind) := leadingNumber a
      if behind = [] ∧ a ≠ [] then (n, f)
      else if behind = a then (0, f.warn (a ++ bytes ": expected numeric value"))
      else (n, f.warn (a ++ bytes ": not completely converted"))

def size (f : Formatting) (s : Bytes) : Nat × Bytes × Formatting :=
  match s with
  | 42 :: rest =>
    let (n, f) := f.nextNumber
    (n.toNat, rest, f)
  | _ =>
    ((s.takeWhile isDigit).foldl (fun n d => 10 * n + (d.toNat - 48)) 0, s.dropWhile isDigit, f)

def layout (f : Formatting) (s : Bytes) : Layout × Bytes × Formatting :=
  let isFlag (b : UInt8) : Bool := b == 35 || b == 45 || b == 43 || b == 32 || b == 48
  let flags := s.takeWhile isFlag
  let (width, rest, f) := f.size (s.dropWhile isFlag)
  let (precision, rest, f) := match rest with
    | 46 :: rest =>
      let (p, rest, f) := f.size rest
      (some p, rest, f)
    | _ => (none, rest, f)
  (⟨flags.contains 45, flags.contains 48, flags.contains 43, flags.contains 32, flags.contains 35, width,
    precision⟩, rest, f)

def directive? (f : Formatting) (l : Layout) (c : UInt8) : Option Formatting :=
  match c with
  | 115 =>
    let (a, f) := f.next
    some (f.write (l.text a))
  | 98 =>
    let (a, f) := f.next
    let (s, ends) := unescape a.length a
    some { f.write (l.text s) with ended := ends }
  | 99 =>
    let (a, f) := f.next
    some (f.write (l.fill (a.take 1)))
  | 100 | 105 =>
    let (n, f) := f.nextNumber
    let sign := if n < 0 then [45] else if l.plus then [43] else if l.space then [32] else []
    some (f.write (l.number sign (decimalNat n.natAbs)))
  | 117 => unsigned 10 []
  | 111 => unsigned 8 [48]
  | 120 => unsigned 16 [48, 120]
  | 88 => (unsigned 16 [48, 120]).map fun g =>
      { g with written := f.written ++ (g.written.drop f.written.length).map upper }
  | _ => none
where
  upper (b : UInt8) : UInt8 := if 97 ≤ b && b ≤ 122 then b - 32 else b
  unsigned (base : Nat) (mark : Bytes) : Option Formatting :=
    let (n, f) := f.nextNumber
    let m := (n % (Nat.pow 2 64 : Nat)).toNat
    some (f.write (l.number (if l.alternate && m != 0 then mark else []) (digitsIn base m)))

def pass : (fuel : Nat) → Bytes → Formatting → Formatting × Option Bytes
  | 0, _, f => (f, none)
  | _, [], f => (f, none)
  | fuel + 1, 92 :: rest, f =>
    let (b, rest) := escape rest
    pass fuel rest (f.write [b])
  | fuel + 1, 37 :: 37 :: rest, f => pass fuel rest (f.write [37])
  | fuel + 1, 37 :: rest, f =>
    let (l, behind, f) := f.layout rest
    match behind with
    | [] => (f, some (bytes "missing format character"))
    | c :: after =>
      match f.directive? l c with
      | some f => if f.ended then (f, none) else pass fuel after f
      | none =>
        (f, some (37 :: rest.take (rest.length - after.length) ++ bytes ": invalid directive"))
  | fuel + 1, b :: rest, f => pass fuel rest (f.write [b])

/-- The format is used again while arguments are left, and every use takes one. -/
def passes (format : Bytes) : (fuel : Nat) → Formatting → Formatting × Option Bytes
  | 0, f => (f, none)
  | fuel + 1, f =>
    match pass format.length format f with
    | (g, some problem) => (g, some problem)
    | (g, none) =>
      if g.ended || g.args.isEmpty || g.args.length == f.args.length then (g, none)
      else passes format fuel g

def run (format : Bytes) (args : List Bytes) : Formatting × Option Bytes :=
  passes format (args.length + 1) ⟨[], [], args, false⟩

end Formatting

end Shell

end PrintLang
