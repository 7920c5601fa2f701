import PrintLang.Bytes

/-!
# UTF-8 inside byte strings

A byte string is read as a sequence of pieces: the longest well-formed encodings, and single stray
bytes wherever no encoding starts. Nothing is lost: the pieces' bytes concatenate to the string.
-/

set_option autoImplicit false

namespace PrintLang

/-- A maximal unit of text: an encoded code point with its bytes, or a byte that starts none. -/
inductive Piece where
  | code (value : Nat) (raw : Bytes)
  | stray (b : UInt8)
deriving DecidableEq, Repr

namespace Piece

def raw : Piece → Bytes
  | .code _ raw => raw
  | .stray b => [b]

def value : Piece → Nat
  | .code v _ => v
  | .stray _ => 0xfffd

end Piece

namespace Utf8

def isTail (b : UInt8) : Bool := 0x80 ≤ b && b ≤ 0xbf

def tailBits (b : UInt8) : Nat := b.toNat % 64

/-- The second bytes that may follow `b`: long forms and surrogates are left out. -/
def isSecond (b c : UInt8) : Bool :=
  isTail c && (b != 0xe0 || 0xa0 ≤ c) && (b != 0xed || c ≤ 0x9f) &&
    (b != 0xf0 || 0x90 ≤ c) && (b != 0xf4 || c ≤ 0x8f)

def first (b : UInt8) (rest : Bytes) : Piece :=
  if b < 0x80 then .code b.toNat [b]
  else if 0xc2 ≤ b && b ≤ 0xdf then
    match rest with
    | c :: _ =>
      if isTail c then .code (b.toNat % 32 * 64 + tailBits c) [b, c] else .stray b
    | _ => .stray b
  else if 0xe0 ≤ b && b ≤ 0xef then
    match rest with
    | c :: d :: _ =>
      if isSecond b c && isTail d then
        .code (b.toNat % 16 * 4096 + tailBits c * 64 + tailBits d) [b, c, d]
      else .stray b
    | _ => .stray b
  else if 0xf0 ≤ b && b ≤ 0xf4 then
    match rest with
    | c :: d :: e :: _ =>
      if isSecond b c && isTail d && isTail e then
        .code (b.toNat % 8 * 262144 + tailBits c * 4096 + tailBits d * 64 + tailBits e) [b, c, d, e]
      else .stray b
    | _ => .stray b
  else .stray b

def encode (code : Nat) : Bytes :=
  if code < 0x80 then [code.toUInt8]
  else if code < 0x800 then [(0xc0 + code / 64).toUInt8, (0x80 + code % 64).toUInt8]
  else if code < 0x10000 then
    [(0xe0 + code / 4096).toUInt8, (0x80 + code / 64 % 64).toUInt8, (0x80 + code % 64).toUInt8]
  else
    [(0xf0 + code / 262144).toUInt8, (0x80 + code / 4096 % 64).toUInt8,
      (0x80 + code / 64 % 64).toUInt8, (0x80 + code % 64).toUInt8]

end Utf8

namespace Bytes

def pieces : Bytes → List Piece
  | [] => []
  | b :: rest =>
    let p := Utf8.first b rest
    p :: pieces (rest.drop (p.raw.length - 1))
termination_by s => s.length

def isUtf8 (s : Bytes) : Bool :=
  (pieces s).all fun
    | .code _ _ => true
    | .stray _ => false

def width (s : Bytes) : Nat := (pieces s).length

def padRight (n : Nat) (s : Bytes) : Bytes := s ++ List.replicate (n - width s) 32

def padLeft (n : Nat) (s : Bytes) : Bytes := List.replicate (n - width s) 32 ++ s

/-- Applies `f` to every code point; a stray byte counts as the replacement character. -/
def mapCodes (f : Nat → Nat) (s : Bytes) : Bytes :=
  (pieces s).flatMap fun p => Utf8.encode (f p.value)

end Bytes

namespace Utf8

/-- A piece begins at its first byte and takes the rest from what follows. -/
theorem raw_first (b : UInt8) (rest : Bytes) :
    (first b rest).raw = b :: rest.take ((first b rest).raw.length - 1) := by
  unfold first
  repeat' split
  all_goals simp [Piece.raw]

end Utf8

end PrintLang
