import PrintLang.Bytes

set_option autoImplicit false

namespace PrintLang

namespace Double

def roundDiv (a b : Nat) : Nat :=
  let q := a / b
  let r := a % b
  if 2 * r < b then q
  else if b < 2 * r then q + 1
  else if q % 2 = 0 then q
  else q + 1

/-- The whole part of the double nearest to `a / b`, or nothing beyond the largest double. The
significand has 53 bits, so the unit in the last place is the power of two with which the quotient
has that many. -/
def whole? (a b : Nat) : Option Nat :=
  if a < b then
    -- Only the double one is not below one.
    some (if 2 * (b - a) * Nat.pow 2 53 ≤ b then 1 else 0)
  else
    let bits := Nat.log2 (a / b)
    let significand := if bits ≤ 52 then roundDiv (a * Nat.pow 2 (52 - bits)) b
      else roundDiv a (b * Nat.pow 2 (bits - 52))
    let n := if bits ≤ 52 then significand / Nat.pow 2 (52 - bits)
      else significand * Nat.pow 2 (bits - 52)
    if n < Nat.pow 2 1024 then some n else none

/-- The whole part of the double nearest to `m · 10^e`. Beyond some hundred places the exponent alone
decides, unless `m` is zero. -/
def wholeOfDecimal? (m : Nat) (e : Int) : Option Nat :=
  if m = 0 then some 0
  else match e with
    | .ofNat k => if 400 < k then none else whole? (m * Nat.pow 10 k) 1
    | .negSucc k => whole? m (Nat.pow 10 (min (k + 1) 20000))

end Double

end PrintLang
