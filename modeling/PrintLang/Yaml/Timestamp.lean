import PrintLang.Bytes

set_option autoImplicit false

namespace PrintLang

namespace Timestamp

def isDigit (b : UInt8) : Bool := 48 ≤ b && b ≤ 57

def digitsValue (s : Bytes) : Nat := s.foldl (fun n b => n * 10 + (b.toNat - 48)) 0

def number? : Bytes → Option (Nat × Bytes)
  | a :: b :: rest =>
    if !isDigit a then none
    else if isDigit b then some (digitsValue [a, b], rest)
    else some (digitsValue [a], b :: rest)
  | [a] => if isDigit a then some (digitsValue [a], []) else none
  | [] => none

def after? (b : UInt8) : Bytes → Option Bytes
  | [] => none
  | c :: rest => if c = b then some rest else none

def isLeap (year : Nat) : Bool := year % 4 == 0 && (year % 100 != 0 || year % 400 == 0)

def daysIn (year month : Nat) : Nat :=
  if month = 2 then (if isLeap year then 29 else 28)
  else if month = 4 ∨ month = 6 ∨ month = 9 ∨ month = 11 then 30
  else 31

def date? (s : Bytes) : Option Bytes := do
  let year := s.takeWhile isDigit
  if year.length ≠ 4 then none
  else
    let (month, s) ← number? (← after? 45 (s.drop 4))
    let (day, s) ← number? (← after? 45 s)
    if 1 ≤ month ∧ month ≤ 12 ∧ 1 ≤ day ∧ day ≤ daysIn (digitsValue year) month then some s else none

def afterFraction (s : Bytes) : Bytes :=
  match s with
  | p :: d :: rest => if (p = 46 ∨ p = 44) ∧ isDigit d then rest.dropWhile isDigit else s
  | _ => s

def time? (s : Bytes) : Option Bytes := do
  let (hour, s) ← number? s
  let (minute, s) ← number? (← after? 58 s)
  let (second, s) ← number? (← after? 58 s)
  if hour < 24 ∧ minute < 60 ∧ second < 60 then some (afterFraction s) else none

def isZone (s : Bytes) : Bool :=
  match s with
  | [90] => true
  | [sign, a, b, 58, c, d] =>
    (sign == 43 || sign == 45) && [a, b, c, d].all isDigit && digitsValue [a, b] ≤ 24 &&
      digitsValue [c, d] ≤ 60
  | _ => false

def isTimestamp (s : Bytes) : Bool :=
  match date? s with
  | none => false
  | some [] => true
  | some (b :: rest) =>
    if b = 84 ∨ b = 116 then (time? rest).any isZone
    else if b = 32 then (time? (rest.dropWhile (· == 32))).any (· == [])
    else false

end Timestamp

end PrintLang
