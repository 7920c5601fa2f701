import PrintLang.Bytes

set_option autoImplicit false

namespace PrintLang

namespace Base64

def bits? (b : UInt8) : Option Nat :=
  if 65 ≤ b && b ≤ 90 then some (b.toNat - 65)
  else if 97 ≤ b && b ≤ 122 then some (b.toNat - 71)
  else if 48 ≤ b && b ≤ 57 then some (b.toNat + 4)
  else if b = 43 then some 62
  else if b = 47 then some 63
  else none

def groups : Bytes → Option Bytes
  | [] => some []
  | [a, b, 61, 61] => do
    let v := (← bits? a) * 64 + (← bits? b)
    return [(v / 16).toUInt8]
  | [a, b, c, 61] => do
    let v := ((← bits? a) * 64 + (← bits? b)) * 64 + (← bits? c)
    return [(v / 1024).toUInt8, (v / 4 % 256).toUInt8]
  | a :: b :: c :: d :: rest => do
    let v := (((← bits? a) * 64 + (← bits? b)) * 64 + (← bits? c)) * 64 + (← bits? d)
    return (v / 65536).toUInt8 :: (v / 256 % 256).toUInt8 :: (v % 256).toUInt8 :: (← groups rest)
  | _ => none

def decode? (s : Bytes) : Option Bytes := groups (s.filter fun b => b != 10 && b != 13)

end Base64

end PrintLang
