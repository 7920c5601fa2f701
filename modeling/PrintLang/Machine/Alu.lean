import PrintLang.Listing.Instr

set_option autoImplicit false

namespace PrintLang

structure Flags where
  zero : Bool
  sign : Bool
  carry : Bool
  overflow : Bool
deriving DecidableEq, Repr

def Cond.holds (f : Flags) : Cond → Bool
  | .always => true
  | .e => f.zero
  | .z => f.zero
  | .ne => !f.zero
  | .nz => !f.zero
  | .s => f.sign
  | .ns => !f.sign
  | .l => f.sign != f.overflow
  | .ge => f.sign == f.overflow
  | .le => f.zero || f.sign != f.overflow
  | .g => !f.zero && f.sign == f.overflow

namespace Width

def spare : Width → UInt64
  | .byte => 56
  | .dword => 32
  | .qword => 0

def mask (w : Width) : UInt64 := 0xffffffffffffffff >>> w.spare

def signed (w : Width) (v : UInt64) : Int64 := (v <<< w.spare).toInt64 >>> w.spare.toInt64

def isNegative (w : Width) (v : UInt64) : Bool := w.signed v < 0

end Width

namespace Alu

def result (w : Width) (value : UInt64) (carry overflow : Bool) : UInt64 × Flags :=
  (value, ⟨value == 0, w.isNegative value, carry, overflow⟩)

def add (w : Width) (dst src : UInt64) : UInt64 × Flags :=
  let r := (dst + src) &&& w.mask
  result w r (r < dst &&& w.mask)
    (w.isNegative dst == w.isNegative src && w.isNegative r != w.isNegative dst)

def sub (w : Width) (dst src : UInt64) : UInt64 × Flags :=
  let r := (dst - src) &&& w.mask
  result w r (dst &&& w.mask < src &&& w.mask)
    (w.isNegative dst != w.isNegative src && w.isNegative r != w.isNegative dst)

/-- The product is too wide when it does not survive the cut to the width, or when dividing it by
one factor does not give the other. -/
def imul (w : Width) (dst src : UInt64) : UInt64 × Flags :=
  let a := w.signed dst
  let b := w.signed src
  let full := a * b
  let r := full.toUInt64 &&& w.mask
  let wide := w.signed r != full || (a != 0 && (full / a != b || (a == -1 && b == Int64.minValue)))
  result w r wide wide

def logic (w : Width) (value : UInt64) : UInt64 × Flags := result w (value &&& w.mask) false false

def apply (op : AluOp) (w : Width) (dst src : UInt64) : UInt64 × Flags :=
  match op with
  | .add => add w dst src
  | .sub => sub w dst src
  | .cmp => sub w dst src
  | .imul => imul w dst src
  | .and => logic w (dst &&& src)
  | .test => logic w (dst &&& src)
  | .or => logic w (dst ||| src)
  | .xor => logic w (dst ^^^ src)

def stores : AluOp → Bool
  | .cmp => false
  | .test => false
  | _ => true

def unary (op : UnaryOp) (w : Width) (v : UInt64) : UInt64 × Flags :=
  match op with
  | .neg => sub w 0 v
  | .inc => add w v 1
  | .dec => sub w v 1

end Alu

end PrintLang
