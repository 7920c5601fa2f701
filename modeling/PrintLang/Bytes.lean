/-!
# Byte strings

Source text, listings, messages and paths are sequences of bytes: they need not be valid UTF-8, and
every offset and column counts bytes. This module holds the sequence operations and the decimal and
hexadecimal spelling of numbers.
-/

set_option autoImplicit false

namespace PrintLang

abbrev Bytes := List UInt8

def bytes (s : String) : Bytes := s.toUTF8.data.toList

def ascii (c : Char) : UInt8 := c.toNat.toUInt8

namespace Bytes

/-- The most bytes that a text can have: addresses have 48 bits. -/
def maxSize : Nat := 281474976710656

/-- The parts between the occurrences of `sep`; there is one more part than occurrences. -/
def splitOn (sep : UInt8) : Bytes → List Bytes
  | [] => [[]]
  | b :: rest =>
    if b = sep then [] :: splitOn sep rest
    else match splitOn sep rest with
      | [] => [[b]]
      | part :: parts => (b :: part) :: parts

def join (sep : Bytes) (parts : List Bytes) : Bytes := sep.intercalate parts

def lines (parts : List Bytes) : Bytes := parts.flatMap (· ++ [10])

def startsWith (s start : Bytes) : Bool := start.isPrefixOf s

def endsWith (s tail : Bytes) : Bool := tail.isSuffixOf s

def withoutTail (s tail : Bytes) : Bytes :=
  if endsWith s tail then s.take (s.length - tail.length) else s

def indexOf? (b : UInt8) (s : Bytes) : Option Nat := s.findIdx? (· == b)

def lastIndexOf? (b : UInt8) (s : Bytes) : Option Nat :=
  (s.reverse.findIdx? (· == b)).map (s.length - 1 - ·)

def slice (s : Bytes) (start stop : Nat) : Bytes := (s.drop start).take (stop - start)

def le : Bytes → Bytes → Bool
  | [], _ => true
  | _ :: _, [] => false
  | a :: s, b :: t => if a < b then true else if b < a then false else le s t

theorem splitOn_ne_nil (sep : UInt8) (s : Bytes) : splitOn sep s ≠ [] := by
  cases s with
  | nil => simp [splitOn]
  | cons b rest =>
    rw [splitOn]
    split
    · simp
    · split <;> simp

end Bytes

def digitByte (d : Nat) : UInt8 := if d < 10 then (48 + d).toUInt8 else (87 + d).toUInt8

def digitsIn (base : Nat) (n : Nat) : Bytes :=
  if _h : n < base ∨ base < 2 then [digitByte n]
  else digitsIn base (n / base) ++ [digitByte (n % base)]
termination_by n
decreasing_by exact Nat.div_lt_self (by omega) (by omega)

def decimalNat (n : Nat) : Bytes := digitsIn 10 n

def decimal : Int → Bytes
  | .ofNat n => decimalNat n
  | .negSucc n => 45 :: decimalNat (n + 1)

def hexNat (n : Nat) : Bytes := digitsIn 16 n

def padZeros (width : Nat) (digits : Bytes) : Bytes :=
  List.replicate (width - digits.length) 48 ++ digits

theorem decimalNat_of_lt {n : Nat} (h : n < 10) : decimalNat n = [digitByte n] := by
  unfold decimalNat digitsIn
  simp [h]

theorem decimalNat_of_le {n : Nat} (h : 10 ≤ n) :
    decimalNat n = decimalNat (n / 10) ++ [digitByte (n % 10)] := by
  unfold decimalNat
  rw [digitsIn]
  simp [Nat.not_lt.mpr h]

end PrintLang
