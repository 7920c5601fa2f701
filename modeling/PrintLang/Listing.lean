import PrintLang.Listing.Instr

set_option autoImplicit false

namespace PrintLang

inductive Line where
  | blank
  | comment (text : Bytes)
  | label (name : Bytes)
  | dataSection
  | textSection
  | global (name : Bytes)
  | byteData (values : Bytes)
  | code (instr : Instr)
deriving DecidableEq, Repr

def Line.render : Line → Bytes
  | .blank => []
  | .comment text => bytes "  # " ++ text
  | .label name => name ++ bytes ":"
  | .dataSection => bytes "  .data"
  | .textSection => bytes "  .text"
  | .global name => bytes "  .globl " ++ name
  | .byteData values =>
    bytes "  .byte " ++ Bytes.join (bytes ",") (values.map fun b => decimalNat b.toNat)
  | .code i => bytes "  " ++ i.render

abbrev Listing := List Line

def Listing.render (l : Listing) : Bytes := Bytes.lines (l.map Line.render)

end PrintLang
