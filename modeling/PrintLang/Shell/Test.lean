import PrintLang.Bytes.Blank
import PrintLang.Bytes.Integer
import PrintLang.FileTree

set_option autoImplicit false

namespace PrintLang

namespace Shell

namespace Test

def unary : List String :=
  ["-r", "-w", "-x", "-e", "-f", "-d", "-c", "-b", "-p", "-u", "-g", "-k", "-s", "-t", "-z", "-n", "-h",
    "-O", "-G", "-L", "-S"]

def binary : List String :=
  ["=", "!=", "<", ">", "-eq", "-ne", "-gt", "-ge", "-lt", "-le", "-nt", "-ot", "-ef"]

def isUnary (w : Bytes) : Bool := unary.any fun o => bytes o == w

def isBinary (w : Bytes) : Bool := binary.any fun o => bytes o == w

abbrev Result (α : Type) := Except Bytes α

def number (w : Bytes) : Result Int :=
  match Integer.read .decimal 64 (Bytes.trimBy (fun b => b == 32 || (9 ≤ b && b ≤ 13)) w) with
  | .ok n => .ok n
  | .error _ => .error (bytes "Illegal number: " ++ w)

def found? (t : FileTree) (path : Bytes) : Option Entry := (t.stat path).toOption

def evalUnary (t : FileTree) (o w : Bytes) : Result Bool :=
  if o = bytes "-z" then .ok w.isEmpty
  else if o = bytes "-n" then .ok (!w.isEmpty)
  else if o = bytes "-t" then do
    let _ ← number w
    return false
  else if o = bytes "-h" ∨ o = bytes "-L" then
    .ok (match t.resolve false w with
      | .ok (_, some (.link _)) => true
      | _ => false)
  else
    .ok (match found? t w with
      | none => false
      | some (.file content executable) =>
        if o = bytes "-s" then !content.isEmpty
        else if o = bytes "-x" then executable
        else ["-r", "-w", "-e", "-f", "-O", "-G"].any fun p => bytes p == o
      | some _ => ["-r", "-w", "-x", "-e", "-d", "-s", "-O", "-G"].any fun p => bytes p == o)

def evalBinary (t : FileTree) (a o b : Bytes) : Result Bool :=
  if o = bytes "=" then .ok (a == b)
  else if o = bytes "!=" then .ok (a != b)
  else if o = bytes "<" then .ok (a != b && Bytes.le a b)
  else if o = bytes ">" then .ok (a != b && Bytes.le b a)
  else if o = bytes "-ef" then
    .ok ((found? t a).isSome && (found? t b).isSome && t.identity a == t.identity b)
  else if o = bytes "-nt" ∨ o = bytes "-ot" then .ok false
  else do
    let x ← number a
    let y ← number b
    return if o = bytes "-eq" then x == y
      else if o = bytes "-ne" then x != y
      else if o = bytes "-gt" then y < x
      else if o = bytes "-ge" then y ≤ x
      else if o = bytes "-lt" then x < y
      else x ≤ y

/-- Whether an operator with one operand is a text here: nothing follows it, or it stands before an
operator with two. -/
def isText : List Bytes → Bool
  | [] => true
  | [_] => false
  | o :: _ => isBinary o

mutual

def either (t : FileTree) : (fuel : Nat) → List Bytes → Result (Bool × List Bytes)
  | 0, ws => .ok (false, ws)
  | fuel + 1, ws => do
    let (a, rest) ← both t fuel ws
    match rest with
    | [45, 111] :: rest =>
      let (b, rest) ← either t fuel rest
      return (a || b, rest)
    | _ => return (a, rest)

def both (t : FileTree) : (fuel : Nat) → List Bytes → Result (Bool × List Bytes)
  | 0, ws => .ok (false, ws)
  | fuel + 1, ws => do
    let (a, rest) ← negation t fuel ws
    match rest with
    | [45, 97] :: rest =>
      let (b, rest) ← both t fuel rest
      return (a && b, rest)
    | _ => return (a, rest)

def negation (t : FileTree) : (fuel : Nat) → List Bytes → Result (Bool × List Bytes)
  | 0, ws => .ok (false, ws)
  | fuel + 1, ws =>
    match ws with
    | [33] :: rest => do
      let (a, rest) ← negation t fuel rest
      return (!a, rest)
    | _ => primary t fuel ws

def primary (t : FileTree) : (fuel : Nat) → List Bytes → Result (Bool × List Bytes)
  | 0, ws => .ok (false, ws)
  | fuel + 1, ws =>
    match ws with
    | [] => .ok (false, [])
    | w :: rest =>
      if w = [40] ∧ rest ≠ [] then
        match rest with
        | [41] :: rest => .ok (false, rest)
        | _ => do
          let (a, rest) ← either t fuel rest
          match rest with
          | [41] :: rest => return (a, rest)
          | _ => throw (bytes "closing paren expected")
      else if isUnary w ∧ ¬isText rest then
        match rest with
        | [] => .error (w ++ bytes ": argument expected")
        | v :: rest => do return (← evalUnary t w v, rest)
      else match rest with
        | o :: rest =>
          if isBinary o then
            match rest with
            | [] => .error (o ++ bytes ": argument expected")
            | v :: rest => do return (← evalBinary t w o v, rest)
          else .ok (!w.isEmpty, o :: rest)
        | [] => .ok (!w.isEmpty, [])

end

def whole (t : FileTree) (ws : List Bytes) : Result Bool := do
  let (a, rest) ← either t (4 * ws.length + 4) ws
  if rest.isEmpty then return a
  let last := (ws.take (ws.length - rest.length)).getLastD []
  throw (if last = [] then bytes "unexpected operator" else last ++ bytes ": unexpected operator")

/-- The value of a condition. Three and four words have a meaning by their number. -/
def eval (t : FileTree) (ws : List Bytes) : Result Bool :=
  match ws with
  | [] => .ok false
  | [a, o, b] =>
    if isBinary o then evalBinary t a o b
    else if a = [40] ∧ b = [41] then whole t [o]
    else if a = [33] then (whole t [o, b]).map not
    else whole t ws
  | [a, b, c, d] =>
    if a = [40] ∧ d = [41] then whole t [b, c]
    else if a = [33] then (eval t [b, c, d]).map not
    else whole t ws
  | _ => whole t ws

end Test

end Shell

end PrintLang
