import PrintLang.Bytes.Printable
import PrintLang.Bytes.Utf8

set_option autoImplicit false

namespace PrintLang

namespace Quoted

def numeric (mark : UInt8) (width code : Nat) : Bytes := 92 :: mark :: padZeros width (hexNat code)

def code (quote : UInt8) (c : Nat) : Bytes :=
  if c = quote.toNat ∨ c = 92 then 92 :: Utf8.encode c
  else if isPrintable c then Utf8.encode c
  else match c with
    | 7 => [92, 97]
    | 8 => [92, 98]
    | 12 => [92, 102]
    | 10 => [92, 110]
    | 13 => [92, 114]
    | 9 => [92, 116]
    | 11 => [92, 118]
    | _ =>
      if c < 0x20 ∨ c = 0x7f then numeric 120 2 c
      else if c < 0x10000 then numeric 117 4 c
      else numeric 85 8 c

def piece (quote : UInt8) : Piece → Bytes
  | .code v _ => code quote v
  | .stray b => numeric 120 2 b.toNat

end Quoted

def quoted (s : Bytes) : Bytes := 34 :: (Bytes.pieces s).flatMap (Quoted.piece 34) ++ [34]

def quotedByte (b : UInt8) : Bytes := 39 :: Quoted.code 39 b.toNat ++ [39]

end PrintLang
