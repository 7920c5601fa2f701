import PrintLang.Bytes

set_option autoImplicit false

namespace PrintLang

inductive IntegerError where
  | malformed
  | outOfRange
deriving DecidableEq, Repr

def IntegerError.message : IntegerError → Bytes
  | .malformed => bytes "invalid syntax"
  | .outOfRange => bytes "value out of range"

inductive Base where
  | decimal
  | marked
  | fixed (base : Nat)
deriving DecidableEq, Repr

namespace Integer

def lowerByte (b : UInt8) : UInt8 := if 65 ≤ b && b ≤ 90 then b + 32 else b

def digit? (b : UInt8) : Option Nat :=
  if 48 ≤ b && b ≤ 57 then some (b.toNat - 48)
  else
    let c := lowerByte b
    if 97 ≤ c && c ≤ 122 then some (c.toNat - 87) else none

def splitBase : Bytes → Nat × Bytes
  | 48 :: m :: d :: rest =>
    match lowerByte m with
    | 98 => (2, d :: rest)
    | 111 => (8, d :: rest)
    | 120 => (16, d :: rest)
    | _ => (8, m :: d :: rest)
  | 48 :: rest => (8, rest)
  | s => (10, s)

/-- What stood before a position, for the rule on underscores. -/
inductive Seen where
  | nothing
  | digit
  | underscore
  | other
deriving DecidableEq

def separated (hex : Bool) : Seen → Bytes → Bool
  | seen, [] => seen != .underscore
  | seen, b :: rest =>
    if (48 ≤ b && b ≤ 57) || (hex && 97 ≤ lowerByte b && lowerByte b ≤ 102) then
      separated hex .digit rest
    else if b = 95 then seen == .digit && separated hex .underscore rest
    else seen != .underscore && separated hex .other rest

/-- The rule on underscores for an unsigned text, whose base mark counts as a digit. -/
def underscoresOk : Bytes → Bool
  | 48 :: m :: rest =>
    let mark := lowerByte m
    if mark = 98 ∨ mark = 111 ∨ mark = 120 then separated (mark = 120) .digit rest
    else separated false .nothing (48 :: m :: rest)
  | s => separated false .nothing s

/-- Folds digits into `acc`, which may not pass `limit`. -/
def readDigits (base limit : Nat) (underscores : Bool) : Nat → Bytes → Except IntegerError Nat
  | acc, [] => .ok acc
  | acc, b :: rest =>
    if underscores && b == 95 then readDigits base limit underscores acc rest
    else match digit? b with
      | none => .error .malformed
      | some d =>
        if base ≤ d then .error .malformed
        else if limit < acc * base + d then .error .outOfRange
        else readDigits base limit underscores (acc * base + d) rest

def readUnsigned (b : Base) (bits : Nat) (s : Bytes) : Except IntegerError Nat :=
  if s = [] then .error .malformed
  else match b with
    | .decimal => readDigits 10 (Nat.pow 2 bits - 1) false 0 s
    | .fixed base => readDigits base (Nat.pow 2 bits - 1) false 0 s
    | .marked =>
      let (base, digits) := splitBase s
      match readDigits base (Nat.pow 2 bits - 1) true 0 digits with
      | .error e => .error e
      | .ok n => if s.contains 95 && !underscoresOk s then .error .malformed else .ok n

def read (b : Base) (bits : Nat) (s : Bytes) : Except IntegerError Int :=
  let (negative, magnitude) := match s with
    | 45 :: rest => (true, rest)
    | 43 :: rest => (false, rest)
    | _ => (false, s)
  match readUnsigned b bits magnitude with
  | .error e => .error e
  | .ok n =>
    if negative then
      if Nat.pow 2 (bits - 1) < n then .error .outOfRange else .ok (-n)
    else
      if Nat.pow 2 (bits - 1) ≤ n then .error .outOfRange else .ok n

end Integer

end PrintLang
