import PrintLang.Bytes.Quoted
import PrintLang.Program

set_option autoImplicit false

namespace PrintLang

def TokenStream.dump (ts : TokenStream) : Bytes :=
  bytes "Tokens (" ++ decimalNat ts.tokens.size ++ bytes ")\n" ++
    (ts.tokens.toList.zipIdx.flatMap fun (t, i) =>
      bytes "  " ++ Bytes.padLeft 4 (decimalNat i) ++ bytes " " ++ Bytes.padRight 7 t.loc.render ++
        bytes " " ++ t.mark.render ++ bytes " " ++ quoted (t.text ts.source) ++ [10]) ++ [10]

namespace Store

def typeName? (s : Store) (n : Node) : Option Bytes :=
  match n.type with
  | none => some (bytes "-")
  | some t => (s.type? t).map Ty.render

def nodeLine? (s : Store) (i : Nat) (n : Node) : Option Bytes := do
  let type ← s.typeName? n
  return bytes "  #" ++ Bytes.padRight 3 (decimalNat i) ++ bytes " " ++
    Bytes.padRight 24 n.render ++ bytes " : " ++ Bytes.padRight 8 type ++ bytes " tokens " ++
    decimal n.first ++ bytes ".." ++ decimal n.last ++ [10]

/-- One line for each node, then the statements; there is no dump when a type is out of range. -/
def dump? (s : Store) : Option Bytes := do
  let lines ← s.nodes.toList.zipIdx.mapM fun (n, i) => s.nodeLine? i n
  return bytes "Nodes (" ++ decimalNat s.nodes.size ++ bytes ")\n" ++ lines.flatten ++
    bytes "Statements [" ++ Bytes.join (bytes " ") (s.stmts.toList.map decimal) ++ bytes "]\n\n"

end Store

end PrintLang
