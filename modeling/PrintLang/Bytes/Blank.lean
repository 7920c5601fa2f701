import PrintLang.Bytes.Utf8

set_option autoImplicit false

namespace PrintLang

def isBlankCode (code : Nat) : Bool :=
  (9 ≤ code && code ≤ 13) || code == 0x20 || code == 0x85 || code == 0xa0 || code == 0x1680 ||
  (0x2000 ≤ code && code ≤ 0x200a) || code == 0x2028 || code == 0x2029 || code == 0x202f ||
  code == 0x205f || code == 0x3000

def Piece.isBlank (p : Piece) : Bool := isBlankCode p.value

namespace Bytes

def trim (s : Bytes) : Bytes :=
  (((pieces s).dropWhile Piece.isBlank).reverse.dropWhile Piece.isBlank).reverse.flatMap Piece.raw

def trimRightBy (p : UInt8 → Bool) (s : Bytes) : Bytes := (s.reverse.dropWhile p).reverse

def trimBy (p : UInt8 → Bool) (s : Bytes) : Bytes := trimRightBy p (s.dropWhile p)

def isBlank (s : Bytes) : Bool := (pieces s).all Piece.isBlank

end Bytes

end PrintLang
